import NativeGlue.Text.Letters

/-!
# Tokens of Java sources

The pieces that a source file is cut into. How a text is cut depends on where it stands: a word of the
language is a name wherever the grammar has no use for the word, two closing brackets of types are not
one shift, and the text of a string ends where an embedded expression begins. So a reader asks for the
next token with the terminals that it can use.

Places count characters from the beginning of the file; lines count line feeds only, and columns count
bytes.
-/

namespace NativeGlue.Java

open NativeGlue.Text

/-! ## 1. Terminals -/

/-- What the grammar knows of a token. -/
inductive Terminal where
  /-- A word of the language. -/
  | word (w : String)
  /-- Any other word. -/
  | name
  | symbol (s : String)
  /-- A number or a character. -/
  | literal
  /-- A part of a string without escapes. -/
  | fragment
  /-- An escape in a string. -/
  | escape
  /-- A part of a text block without escapes. -/
  | blockFragment
  /-- An escape in a text block. -/
  | blockEscape
  /-- The end of the file. -/
  | finish
  /-- Nothing: no text is read as this. -/
  | never
  deriving DecidableEq, Repr, Inhabited

/-! ## 2. Characters -/

/-- The blanks that may stand between tokens. -/
def isGap (c : Char) : Bool := c == ' ' || (9 ≤ c.toNat && c.toNat ≤ 13)

/-- What may begin a word. -/
def isWordStart (c : Char) : Bool := c == '$' || isIdentifierStart c

/-- What may stand inside a word. -/
def isWordPart (c : Char) : Bool := c == '$' || c.toNat == 0xa2 || isIdentifierPart c

/-- A binary digit. -/
def isBinary (c : Char) : Bool := c == '0' || c == '1'

/-- An octal digit. -/
def isOctal (c : Char) : Bool := '0' ≤ c && c ≤ '7'

/-- A hexadecimal digit. -/
def isHex (c : Char) : Bool := c.isDigit || ('a' ≤ c && c ≤ 'f') || ('A' ≤ c && c ≤ 'F')

/-- How many characters of a class a text begins with. -/
def run (p : Char → Bool) (s : List Char) : Nat := (s.takeWhile p).length

/-! ## 3. Numbers -/

/-- The length of digits, in groups with one underscore between, that a text begins with. -/
def digitsLength (p : Char → Bool) : List Char → Nat
  | [] => 0
  | [c] => if p c then 1 else 0
  | c :: '_' :: d :: r =>
    if p c then (if p d then 2 + digitsLength p (d :: r) else 1) else 0
  | c :: r => if p c then 1 + digitsLength p r else 0

/-- One for a letter of a class that a text begins with, else nothing. -/
def suffixLength (letters : List Char) (s : List Char) : Nat :=
  match s with
  | c :: _ => if letters.contains c then 1 else 0
  | [] => 0

/-- The length of a whole number without leading zeros. -/
def wholeLength : List Char → Nat
  | '0' :: _ => 1
  | c :: r =>
    if !c.isDigit then 0
    else match r with
      | '_' :: r => let n := digitsLength Char.isDigit r; if n = 0 then 1 else n + 2
      | _ => 1 + digitsLength Char.isDigit r
  | [] => 0

/-- The length of an exponent behind one of some marks, nothing if it has no digits. -/
def exponentLength (marks : List Char) (digits : List Char → Nat) : List Char → Nat
  | e :: r =>
    if marks.contains e then
      let sign := suffixLength ['+', '-'] r
      let n := digits (r.drop sign)
      if n = 0 then 0 else 1 + sign + n
    else 0
  | [] => 0

/-- The letters that end an integer. -/
def longLetters : List Char := ['l', 'L']

/-- The letters that end a number with a fraction or an exponent. -/
def floatLetters : List Char := ['f', 'F', 'd', 'D']

/-- A length, and that of a letter behind it; nothing remains nothing. -/
def withSuffix (letters : List Char) (s : List Char) (n : Nat) : Nat :=
  if n = 0 then 0 else n + suffixLength letters (s.drop n)

/-- The length of a fraction with its point and its exponent. -/
def fractionLength (s : List Char) : Nat :=
  match s with
  | '.' :: r =>
    let n := 1 + digitsLength Char.isDigit r
    n + exponentLength ['e', 'E'] (digitsLength Char.isDigit) (s.drop n)
  | _ => 0

/-- The length of a decimal number with a point, an exponent or a letter that ends it. -/
def decimalLength (s : List Char) : Nat :=
  let digits := digitsLength Char.isDigit s
  let whole := wholeLength s
  let fraction := fractionLength (s.drop digits)
  let pointed := if fraction = 0 ∨ (digits = 0 ∧ digitsLength Char.isDigit (s.drop 1) = 0) then 0
    else withSuffix floatLetters s (digits + fraction)
  let exponent := exponentLength ['e', 'E', 'p', 'P'] (digitsLength Char.isDigit) (s.drop whole)
  let raised := if whole = 0 ∨ exponent = 0 then 0 else withSuffix floatLetters s (whole + exponent)
  let ended := if whole = 0 then 0
    else let n := suffixLength floatLetters (s.drop whole); if n = 0 then 0 else whole + n
  max pointed (max raised ended)

/-- The length of hexadecimal digits with a point and a binary exponent, behind their mark. -/
def hexLength (s : List Char) : Nat :=
  let digits := digitsLength isHex s
  let raised := fun (n : Nat) =>
    n + match exponentLength ['e', 'E', 'p', 'P'] wholeLength (s.drop n) with
      | 0 => 0
      | e => e + suffixLength floatLetters (s.drop (n + e))
  let ending := fun (n : Nat) => if n = 0 then 0 else raised n
  let pointed := match s.drop digits with
    | '.' :: r =>
      let n := digitsLength isHex r
      if digits + n = 0 then 0
      else max (ending (digits + 1 + n)) (if digits + n = 1 then 0 else ending (digits + n))
    | _ => 0
  max pointed (max (ending digits) (ending (digits - 1)))

/-- The length of an integer behind the mark of its base. -/
def markedLength (s : List Char) : Nat :=
  let behind := fun (n : Nat) (p : Char → Bool) =>
    let digits := digitsLength p (s.drop n)
    if digits = 0 then 0 else withSuffix longLetters s (n + digits)
  match s with
  | '0' :: x :: _ =>
    if x == 'x' || x == 'X' then
      let n := hexLength (s.drop 2)
      max (behind 2 isHex) (if n = 0 then 0 else n + 2)
    else if x == 'b' || x == 'B' then behind 2 isBinary
    else if x == 'o' || x == 'O' then behind 2 isOctal
    else behind 1 isOctal
  | _ => 0

/-- The length of a number. -/
def numberLength (s : List Char) : Nat :=
  max (withSuffix longLetters s (wholeLength s)) (max (markedLength s) (decimalLength s))

/-! ## 4. Characters and strings -/

/-- The length of a character literal behind its quote: one character or more on one line. -/
def characterLength? : List Char → Option Nat
  | '\'' :: _ => some 1
  | '\\' :: c :: r => if c.toNat = 0 then none else (characterLength? r).map (· + 2)
  | c :: r => if c == '\n' || c.toNat = 0 then none else (characterLength? r).map (· + 1)
  | [] => none

/-- The length of a number or a character. -/
def literalLength (s : List Char) : Nat :=
  match s with
  | '\'' :: '\'' :: _ => 0
  | '\'' :: r => ((characterLength? r).map (· + 1)).getD 0
  | _ => numberLength s

/-- The length of an escape with its backslash, if it is one. -/
def escapeLength (s : List Char) : Nat :=
  match s with
  | '\\' :: 'u' :: '\x7b' :: r =>
    let n := run isHex r
    if n ≠ 0 ∧ (r.drop n).head? = some '\x7d' then n + 4 else 0
  | '\\' :: 'u' :: r => if 4 ≤ run isHex (r.take 4) then 6 else 0
  | '\\' :: 'x' :: r => if 2 ≤ run isHex (r.take 2) then 4 else 0
  | '\\' :: c :: r => if c.toNat = 0 then 0 else if isOctal c then 2 + run isOctal (r.take 2) else 2
  | _ => 0

/-- What a part of a string may hold. -/
def isPlain (c : Char) : Bool := c != '"' && c != '\\' && c.toNat != 0

/-- The length of text behind a single quote in a text block; a quote with a backslash before it does
not end it. -/
def quotedLength : List Char → Nat
  | '\\' :: '"' :: r => 2 + quotedLength r
  | c :: r => if isPlain c then 1 + quotedLength r else 0
  | [] => 0

/-- The length of a part of a text block. -/
def blockFragmentLength (s : List Char) : Nat :=
  match s with
  | '"' :: r => 1 + quotedLength r
  | _ => run isPlain s

/-- The length of a block comment behind its beginning, if it is closed. -/
def blockLength? : List Char → Option Nat
  | '*' :: '/' :: _ => some 2
  | c :: r => if c.toNat = 0 then none else (blockLength? r).map (· + 1)
  | [] => none

/-- The length of the comment that a text begins with, if it begins with one, and whether it is a
block; nothing is said about one that is not closed. -/
def comment? (s : List Char) : Option (Nat × Bool) :=
  match s with
  | '/' :: '/' :: r => some (2 + run (fun c => c != '\n' && c.toNat != 0) r, false)
  | '/' :: '*' :: r => (blockLength? r).map fun n => (n + 2, true)
  | _ => none

/-! ## 5. Lexemes -/

/-- The longest symbol among those that can be used, with its length. -/
def symbol? (usable : Terminal → Bool) (symbols : List String) (s : List Char) :
    Option (Terminal × Nat) :=
  symbols.foldl (fun best w =>
    if w.toList.isPrefixOf s && usable (.symbol w) && best.all (·.2 < w.length) then
      some (.symbol w, w.length)
    else best) none

/-- A token as its text is cut: what it is, what else it may be if that is of no use after all, and its
length. -/
structure Lexeme where
  terminal : Terminal
  otherwise : Option Terminal := none
  length : Nat
  deriving Repr, Inhabited

/-- A word: the word of the language if that can be used, else a name. -/
def wordLexeme (usable : Terminal → Bool) (s : List Char) : Option Lexeme :=
  let n := run isWordPart s
  let w := Terminal.word (String.ofList (s.take n))
  if usable w then some ⟨w, some .name, n⟩
  else if usable .name then some ⟨.name, none, n⟩
  else none

/-- The lexeme that a text begins with, outside strings. -/
def plainLexeme (usable : Terminal → Bool) (symbols : List String) (s : List Char) :
    Option Lexeme :=
  match s with
  | [] => if usable .finish then some ⟨.finish, none, 0⟩ else none
  | c :: _ =>
    let mark := symbol? usable symbols s
    if isWordStart c then
      match mark with
      | some (t, n) => some ⟨t, none, n⟩
      | none => wordLexeme usable s
    else
      let n := if usable .literal then literalLength s else 0
      match mark with
      | some (t, k) => if k < n then some ⟨.literal, none, n⟩ else some ⟨t, none, k⟩
      | none => if n = 0 then none else some ⟨.literal, none, n⟩

/-- The lexeme that a text inside a string begins with. -/
def stringLexeme (s : List Char) : Option Lexeme :=
  match s with
  | '"' :: _ => some ⟨.symbol "\"", none, 1⟩
  | '\\' :: '\x7b' :: _ => some ⟨.symbol "\\\x7b", none, 2⟩
  | '\\' :: _ => let n := escapeLength s; if n = 0 then none else some ⟨.escape, none, n⟩
  | _ => let n := run isPlain s; if n = 0 then none else some ⟨.fragment, none, n⟩

/-- The lexeme that a text inside a text block begins with. -/
def blockLexeme (s : List Char) : Option Lexeme :=
  match s with
  | '"' :: '"' :: '"' :: _ => some ⟨.symbol "\"\"\"", none, 3⟩
  | '\\' :: '\x7b' :: _ => some ⟨.symbol "\\\x7b", none, 2⟩
  | '\\' :: c :: _ => if c.toNat = 0 then none else some ⟨.blockEscape, none, 2⟩
  | _ => let n := blockFragmentLength s; if n = 0 then none else some ⟨.blockFragment, none, n⟩

/-! ## 6. Reading on -/

/-- A place in a file. -/
structure Place where
  index : Nat := 0
  line : Nat := 0
  column : Nat := 0
  deriving DecidableEq, Repr, Inhabited

/-- The place behind a character of some bytes. -/
def Place.after (p : Place) (c : Char × Nat) : Place :=
  if c.1 = '\n' then ⟨p.index + 1, p.line + 1, 0⟩ else ⟨p.index + 1, p.line, p.column + c.2⟩

/-- A comment: its text, the line it begins on, and whether it is a block. -/
structure Comment where
  text : String
  line : Nat
  block : Bool
  deriving DecidableEq, Repr, Inhabited

/-- Where a reader stands: a place, and what is still to be read, with and without the sizes of the
characters. -/
structure Cursor where
  place : Place
  plain : List Char
  sized : List (Char × Nat)
  deriving Inhabited

namespace Cursor

/-- The cursor behind some characters. -/
def skip (c : Cursor) (n : Nat) : Cursor :=
  ⟨(c.sized.take n).foldl Place.after c.place, c.plain.drop n, c.sized.drop n⟩

/-- The cursor at the beginning of a file. A mark of the byte order is no part of the text. -/
def ofSource (source : List (Char × Nat)) : Cursor :=
  let c : Cursor := ⟨{}, source.map (·.1), source⟩
  if c.plain.head?.any (·.toNat == 0xfeff) then c.skip 1 else c

end Cursor

/-- A token: the places of its first character and behind its last one, and the comments before it. -/
structure Token where
  terminal : Terminal
  otherwise : Option Terminal
  start : Place
  stop : Nat
  comments : List Comment
  deriving Repr, Inhabited

/-- The next token and the cursor behind it, given the terminals that can be used and the symbols of
the language. A text that cannot be cut there gives nothing. Comments and blanks are passed; inside a
text block a comment counts as one only if it reaches further than the text that it stands in. The
number bounds how many of them are passed. -/
def nextToken (usable : Terminal → Bool) (symbols : List String) :
    Nat → List Comment → Cursor → Option (Token × Cursor)
  | 0, _, _ => none
  | n + 1, comments, c =>
    let take := fun (l : Lexeme) =>
      let behind := c.skip l.length
      some ((⟨l.terminal, l.otherwise, c.place, behind.place.index, comments.reverse⟩ : Token), behind)
    let pass := fun (gap k : Nat) (block : Bool) =>
      let c := c.skip gap
      let comment : Comment := ⟨String.ofList (c.plain.take k), c.place.line + 1, block⟩
      nextToken usable symbols n (comment :: comments) (c.skip k)
    if usable .fragment then (stringLexeme c.plain).bind take
    else if usable .blockFragment then
      let gap := run isGap c.plain
      let lexeme := blockLexeme c.plain
      match comment? (c.plain.drop gap) with
      | some (k, block) =>
        if lexeme.all (·.length < gap + k) then pass gap k block else lexeme.bind take
      | none => lexeme.bind take
    else
      let gap := run isGap c.plain
      if gap ≠ 0 then nextToken usable symbols n comments (c.skip gap)
      else match comment? c.plain with
        | some (k, block) => pass 0 k block
        | none => (plainLexeme usable symbols c.plain).bind take

end NativeGlue.Java
