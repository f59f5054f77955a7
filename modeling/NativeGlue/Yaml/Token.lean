import NativeGlue.Text.Utf8

/-!
# Tokens of YAML documents

A document cut into tokens. Indentation becomes tokens of its own, which open and close collections; a
key that nothing marks as one is recognised by the colon behind it, and its token is put in afterwards
where the key began. Such a key stands on one line and has at most 1024 characters.

Text that cannot be cut ends in a `broken` token, which tells why. Nobody knows whether a token begins a
key before the end of its line is reached, so a token that still may do so is not given where the text
breaks before that.
-/

namespace NativeGlue.Yaml

/-! ## 1. Faults and tokens -/

/-- Why a document has no value. -/
inductive Fault where
  /-- The text is no document, or one with more than plain data in it. -/
  | malformed
  /-- An escape names no character. -/
  | noCharacter
  /-- A number is too large for the machine. -/
  | tooLarge
  /-- A number or a date does not exist. -/
  | badNumber
  /-- A number has no digits. -/
  | emptyNumber
  /-- A word marked as a truth value is none. -/
  | badTruth
  /-- A text marked as a time is none. -/
  | badTime
  /-- A mapping is marked as a time. -/
  | timeOfMapping
  /-- Collections are nested too deep. -/
  | tooDeep
  deriving DecidableEq, Repr, Inhabited

/-- What a directive says. -/
inductive Directive where
  | version (major : Nat)
  | handle (name start : String)
  | other
  deriving DecidableEq, Repr, Inhabited

/-- A token. A tag has a handle, which stands for the beginning of its name, or none. -/
inductive Token where
  | directive (d : Directive)
  | documentStart
  | documentEnd
  | streamEnd
  | blockSequence
  | blockMapping
  | blockEnd
  | flowSequence
  | flowSequenceEnd
  | flowMapping
  | flowMappingEnd
  | flowComma
  | blockDash
  | key
  | value
  | reference (name : String)
  | anchor (name : String)
  | tag (handle : Option String) (suffix : String)
  | scalar (text : String) (plain : Bool)
  | broken (f : Fault)
  deriving DecidableEq, Repr, Inhabited

/-! ## 2. Characters -/

/-- Whether a character ends a line. -/
def isBreak (c : Char) : Bool :=
  c == '\n' || c.toNat == 0x85 || c.toNat == 0x2028 || c.toNat == 0x2029

/-- The character that stands for the end of the text. -/
def endMark : Char := Char.ofNat 0

/-- Whether a line ends at a character. -/
def endsLine (c : Char) : Bool := isBreak c || c == endMark

/-- Whether a word ends at a character: at a blank or at the end of the line. -/
def endsWord (c : Char) : Bool := c == ' ' || c == '\t' || endsLine c

/-- Whether a character may occur in a document at all. -/
def isAllowed (c : Char) : Bool :=
  let n := c.toNat
  n == 9 || n == 10 || n == 13 || n == 0x85 || (0x20 ≤ n && n ≤ 0x7e) ||
    (0xa0 ≤ n && n ≤ 0xfffd) || 0x10000 ≤ n

/-- Whether a character may stand in a name. -/
def isNameChar (c : Char) : Bool := c.isAlphanum || c == '-' || c == '_'

/-- Whether a character may stand in a tag. -/
def isTagChar (c : Char) : Bool := c.isAlphanum || "-;/?:@&=+$,_.!~*'()[]%".toList.contains c

/-- A place in the text, with what follows it. -/
structure Cursor where
  rest : List Char
  index : Nat := 0
  line : Nat := 0
  column : Nat := 0
  deriving Inhabited

namespace Cursor

/-- The character some places ahead. -/
def peek (c : Cursor) (n : Nat := 0) : Char := c.rest[n]?.getD endMark

/-- One character further. -/
def next (c : Cursor) : Cursor :=
  match c.rest with
  | [] => c
  | x :: r =>
    if isBreak x then ⟨r, c.index + 1, c.line + 1, 0⟩
    else ⟨r, c.index + 1, c.line, if x.toNat = 0xfeff then c.column else c.column + 1⟩

/-- Some characters further. -/
def skip (c : Cursor) : Nat → Cursor
  | 0 => c
  | n + 1 => c.next.skip n

/-- The characters of a class that follow, and the place behind them. -/
def span (c : Cursor) (p : Char → Bool) : List Char × Cursor :=
  let cs := c.rest.takeWhile p
  (cs, c.skip cs.length)

/-- The place behind the characters of a class. -/
def drop (c : Cursor) (p : Char → Bool) : Cursor := (c.span p).2

/-- The line end that follows, as text, and the place behind it; nothing if there is none. -/
def lineBreak (c : Cursor) : List Char × Cursor :=
  let x := c.peek
  if x == '\n' || x.toNat == 0x85 then (['\n'], c.next)
  else if isBreak x then ([x], c.next)
  else ([], c)

/-- Whether three equal marks that separate documents follow. -/
def atSeparator (c : Cursor) : Bool :=
  (c.rest.take 3 == ['-', '-', '-'] || c.rest.take 3 == ['.', '.', '.']) && endsWord (c.peek 3)

/-- The place at the end of the line. -/
def toLineEnd (c : Cursor) : Cursor := c.drop (!endsLine ·)

/-- The place behind blanks and a comment up to the next line, if nothing else follows. -/
def endOfLine? (c : Cursor) : Option Cursor :=
  let c := c.drop (· == ' ')
  let c := if c.peek == '#' then c.toLineEnd else c
  if endsLine c.peek then some c.lineBreak.2 else none

end Cursor

/-! ## 3. Scalars -/

/-- Blank lines in a quoted text: their line ends, unless documents are separated there. The number
bounds the lines. -/
def quotedBreaks? : Nat → Cursor → Option (List Char × Cursor)
  | 0, _ => none
  | n + 1, c =>
    if c.atSeparator then none
    else
      let c := c.drop fun x => x == ' ' || x == '\t'
      if isBreak c.peek then do
        let (b, c) := c.lineBreak
        let (more, c) ← quotedBreaks? n c
        pure (b ++ more, c)
      else pure ([], c)

/-- Blanks in a quoted text. A single line end becomes a blank, further ones stay. -/
def quotedBlanks? (c : Cursor) : Option (List Char × Cursor) := do
  let (blanks, c) := c.span fun x => x == ' ' || x == '\t'
  if c.peek == endMark then none
  else if isBreak c.peek then
    let (b, c) := c.lineBreak
    let (breaks, c) ← quotedBreaks? (c.rest.length + 1) c
    let first := if b != ['\n'] then b else if breaks.isEmpty then [' '] else []
    pure (first ++ breaks, c)
  else pure (blanks, c)

/-- The characters that escapes of one letter stand for. -/
def escapes : List (Char × Nat) :=
  [('0', 0), ('a', 7), ('b', 8), ('t', 9), ('\t', 9), ('n', 10), ('v', 11), ('f', 12), ('r', 13),
    ('e', 27), (' ', 32), ('"', 34), ('\\', 92), ('/', 47), ('N', 0x85), ('_', 0xa0), ('L', 0x2028),
    ('P', 0x2029)]

/-- The value of a hexadecimal digit. -/
def hexValue? (c : Char) : Option Nat :=
  if c.isDigit then some (c.toNat - 48)
  else if 'a' ≤ c ∧ c ≤ 'f' then some (c.toNat - 87)
  else if 'A' ≤ c ∧ c ≤ 'F' then some (c.toNat - 55)
  else none

/-- A number of several hexadecimal digits. -/
def hexNumber? (n : Nat) (cs : List Char) : Option Nat := do
  let ds ← (cs.take n).mapM hexValue?
  if ds.length = n then some (ds.foldl (fun a d => 16 * a + d) 0) else none

/-- An escape behind its backslash: the text it stands for and the place behind it. -/
def escape (c : Cursor) : Except Fault (List Char × Cursor) :=
  let x := c.peek
  let long := fun (n : Nat) =>
    match hexNumber? n c.next.rest with
    | none => .error .malformed
    | some code =>
      if 0x7fffffff < code then .error .tooLarge
      else if 0x10ffff < code then .error .noCharacter
      else if code.isValidChar then .ok ([Char.ofNat code], c.next.skip n)
      else .ok ([Text.replacement], c.next.skip n)
  match escapes.lookup x with
  | some code => .ok ([Char.ofNat code], c.next)
  | none =>
    if x == 'x' then long 2
    else if x == 'u' then long 4
    else if x == 'U' then long 8
    else if isBreak x then
      match quotedBreaks? (c.rest.length + 1) c.lineBreak.2 with
      | some r => .ok r
      | none => .error .malformed
    else .error .malformed

/-- A quoted text behind its opening quote, and the place behind its closing quote. -/
def quotedText (double : Bool) : Nat → Cursor → List Char → Except Fault (List Char × Cursor)
  | 0, _, _ => .error .malformed
  | n + 1, c, acc =>
    let x := c.peek
    if x == '\'' && !double then
      if c.peek 1 == '\'' then quotedText double n (c.skip 2) (acc ++ ['\'']) else .ok (acc, c.next)
    else if x == '"' && double then .ok (acc, c.next)
    else if x == '\\' && double then do
      let (text, c) ← escape c.next
      quotedText double n c (acc ++ text)
    else if endsWord x then
      match quotedBlanks? c with
      | none => .error .malformed
      | some (text, c) => quotedText double n c (acc ++ text)
    else
      let (text, c) := c.span fun y => !(endsWord y || y == '\'' || y == '"' || y == '\\')
      if text.isEmpty then quotedText double n c.next (acc ++ [x])
      else quotedText double n c (acc ++ text)

/-- Blanks in a plain text, the place behind them, and whether a line ended. Nothing is given where
documents are separated. The number bounds the lines. -/
def plainBlanks (c : Cursor) : List Char × Cursor × Bool :=
  let (blanks, c) := c.span (· == ' ')
  if isBreak c.peek then
    let (b, c) := c.lineBreak
    if c.atSeparator then ([], c, true)
    else
      let rec breaks : Nat → Cursor → List Char → Option (List Char) × Cursor
        | 0, c, acc => (some acc, c)
        | n + 1, c, acc =>
          if c.peek == ' ' then breaks n c.next acc
          else if isBreak c.peek then
            let (b, c) := c.lineBreak
            if c.atSeparator then (none, c) else breaks n c (acc ++ b)
          else (some acc, c)
      match breaks (c.rest.length + 1) c [] with
      | (none, c) => ([], c, true)
      | (some bs, c) =>
        ((if b != ['\n'] then b else if bs.isEmpty then [' '] else []) ++ bs, c, true)
  else (blanks, c, false)

/-- How many characters of a plain text follow up to the next blank; `flow` tells whether a flow
collection is open, where more characters end it. -/
def plainLength (flow : Bool) : List Char → Nat
  | [] => 0
  | x :: r =>
    let y := r.head?.getD endMark
    if endsWord x || (x == ':' && (endsWord y || (flow && ",[]\x7b\x7d".toList.contains y)))
        || (flow && ",?[]\x7b\x7d".toList.contains x) then 0
    else 1 + plainLength flow r

/-- A plain text, the place behind it, and whether a line ended behind its last word. -/
def plainText (flow : Bool) (indent : Int) :
    Nat → Cursor → List Char → List Char → Bool → List Char × Cursor × Bool
  | 0, c, acc, _, ended => (acc, c, ended)
  | n + 1, c, acc, blanks, ended =>
    let len := if c.peek == '#' then 0 else plainLength flow c.rest
    if len = 0 then (acc, c, ended)
    else
      let acc := acc ++ blanks ++ c.rest.take len
      let (blanks, c, ended) := plainBlanks (c.skip len)
      if blanks.isEmpty || c.peek == '#' || (!flow && (c.column : Int) < indent) then (acc, c, ended)
      else plainText flow indent n c acc blanks ended

/-- What the header of a block text says about the line ends behind it. -/
inductive Chomping where
  | clip
  | strip
  | keep
  deriving DecidableEq, Repr

/-- The header of a block text behind its mark: what becomes of its last line ends, its indentation if
that is given, and the place behind the header. -/
def blockHeader? (c : Cursor) : Option (Chomping × Option Nat × Cursor) := do
  let sign? := fun (x : Char) =>
    if x == '+' then some Chomping.keep else if x == '-' then some Chomping.strip else none
  let digit? := fun (x : Char) => if x.isDigit then some (x.toNat - 48) else none
  let (chomping, indent, c) :=
    match sign? c.peek with
    | some s =>
      match digit? (c.peek 1) with
      | some d => (s, some d, c.skip 2)
      | none => (s, none, c.next)
    | none =>
      match digit? c.peek with
      | some d =>
        match sign? (c.peek 1) with
        | some s => (s, some d, c.skip 2)
        | none => (Chomping.clip, some d, c.next)
      | none => (Chomping.clip, none, c)
  if indent == some 0 || !(c.peek == ' ' || endsLine c.peek) then none
  else pure (chomping, indent, ← c.endOfLine?)

/-- Blank lines before a block text whose indentation is not given: their line ends, the widest
indentation seen, and the place behind them. -/
def blockStart : Nat → Cursor → List Char → Nat → List Char × Nat × Cursor
  | 0, c, acc, widest => (acc, widest, c)
  | n + 1, c, acc, widest =>
    if c.peek == ' ' then blockStart n c.next acc (max widest c.next.column)
    else if isBreak c.peek then blockStart n c.lineBreak.2 (acc ++ c.lineBreak.1) widest
    else (acc, widest, c)

/-- Blank lines in a block text: their line ends and the place behind them. -/
def blockBreaks (indent : Nat) : Nat → Cursor → List Char → List Char × Cursor
  | 0, c, acc => (acc, c)
  | n + 1, c, acc =>
    if c.column < indent && c.peek == ' ' then blockBreaks indent n c.next acc
    else if isBreak c.peek then blockBreaks indent n c.lineBreak.2 (acc ++ c.lineBreak.1)
    else (acc, c)

/-- The lines of a block text from a place on: the text, the last line end, the line ends of the blank
lines behind it, and the place behind all. -/
def blockLines (folded : Bool) (indent : Nat) :
    Nat → Cursor → List Char → List Char → List Char → List Char × List Char × List Char × Cursor
  | 0, c, acc, last, breaks => (acc, last, breaks, c)
  | n + 1, c, acc, last, breaks =>
    if c.column == indent && c.peek != endMark then
      let isBlank := fun (x : Char) => x == ' ' || x == '\t'
      let leading := !isBlank c.peek
      let (line, c) := c.span (!endsLine ·)
      let acc := acc ++ breaks ++ line
      let (last, c) := c.lineBreak
      let (breaks, c) := blockBreaks indent (c.rest.length + 1) c []
      if c.column == indent && c.peek != endMark then
        let joint :=
          if folded && last == ['\n'] && leading && !isBlank c.peek then
            (if breaks.isEmpty then [' '] else [])
          else last
        blockLines folded indent n c (acc ++ joint) last breaks
      else (acc, last, breaks, c)
    else (acc, last, breaks, c)

/-- A block text behind its mark; `least` is the least indentation it may have. -/
def blockText? (folded : Bool) (least : Nat) (c : Cursor) : Option (List Char × Cursor) := do
  let (chomping, given, c) ← blockHeader? c
  let fuel := c.rest.length + 1
  let (indent, breaks, c) :=
    match given with
    | some d =>
      let (breaks, c) := blockBreaks (least + d - 1) fuel c []
      (least + d - 1, breaks, c)
    | none =>
      let (breaks, widest, c) := blockStart fuel c [] 0
      (max least widest, breaks, c)
  let (text, last, breaks, c) := blockLines folded indent fuel c [] [] breaks
  let tail := match chomping with
    | .strip => []
    | .clip => last
    | .keep => last ++ breaks
  pure (text ++ tail, c)

/-! ## 4. Names, tags, directives -/

/-- A name behind `&` or `*`. -/
def anchorName? (c : Cursor) : Option (String × Cursor) :=
  let (name, c) := c.span isNameChar
  if name.isEmpty || !(endsWord c.peek || "?:,]\x7d%@`".toList.contains c.peek) then none
  else some (String.ofList name, c)

/-- The bytes of escapes in a tag. -/
def tagBytes : Nat → Cursor → Option (List UInt8 × Cursor)
  | 0, c => some ([], c)
  | n + 1, c =>
    if c.peek == '%' then do
      let b ← hexNumber? 2 c.next.rest
      let (bs, c) ← tagBytes n (c.skip 3)
      pure (UInt8.ofNat b :: bs, c)
    else some ([], c)

/-- The characters of a tag, with its escapes undone. -/
def tagText? : Nat → Cursor → List Char → Option (String × Cursor)
  | 0, _, _ => none
  | n + 1, c, acc =>
    if c.peek == '%' then do
      let (bs, c) ← tagBytes (c.rest.length + 1) c
      let text ← String.fromUTF8? ⟨bs.toArray⟩
      tagText? n c (acc ++ text.toList)
    else if isTagChar c.peek then
      let (cs, c) := c.span fun x => isTagChar x && x != '%'
      tagText? n c (acc ++ cs)
    else if acc.isEmpty then none
    else some (String.ofList acc, c)

/-- A handle: an exclamation mark, or a name between two of them. -/
def tagHandle? (c : Cursor) : Option (String × Cursor) :=
  if c.peek != '!' then none
  else if c.peek 1 == ' ' then some ("!", c.next)
  else
    let (name, d) := c.next.span isNameChar
    if d.peek == '!' then some (String.ofList ('!' :: name ++ ['!']), d.next) else none

/-- A tag, from its exclamation mark on. -/
def tagToken? (c : Cursor) : Option (Token × Cursor) := do
  let fuel := c.rest.length + 1
  let endsTag := fun (x : Char) => x == ' ' || endsLine x
  let (token, d) ←
    if c.peek 1 == '<' then do
      let (suffix, d) ← tagText? fuel (c.skip 2) []
      if d.peek == '>' then some (Token.tag none suffix, d.next) else none
    else if endsWord (c.peek 1) then some (Token.tag none "!", c.next)
    else
      let word := c.next.rest.takeWhile (!endsTag ·)
      if word.contains '!' then do
        let (handle, d) ← tagHandle? c
        let (suffix, d) ← tagText? fuel d []
        some (Token.tag (some handle) suffix, d)
      else do
        let (suffix, d) ← tagText? fuel c.next []
        some (Token.tag (some "!") suffix, d)
  if endsTag d.peek then some (token, d) else none

/-- A directive, from its percent sign on. -/
def directive? (c : Cursor) : Option (Directive × Cursor) := do
  let endsField := fun (x : Char) => x == ' ' || endsLine x
  let (name, c) := c.next.span isNameChar
  if name.isEmpty || !endsField c.peek then none
  else
    let (d, c) ←
      if name == "YAML".toList then do
        let (major, c) := (c.drop (· == ' ')).span Char.isDigit
        if major.isEmpty || c.peek != '.' then none
        else
          let (minor, c) := c.next.span Char.isDigit
          if minor.isEmpty || !endsField c.peek then none
          else some (Directive.version (major.foldl (fun n x => 10 * n + (x.toNat - 48)) 0), c)
      else if name == "TAG".toList then do
        let (handle, c) ← tagHandle? (c.drop (· == ' '))
        if c.peek != ' ' then none
        else do
          let c := c.drop (· == ' ')
          let (start, c) ← tagText? (c.rest.length + 1) c []
          if endsField c.peek then some (Directive.handle handle start, c) else none
      else some (Directive.other, c.toLineEnd)
    pure (d, ← c.endOfLine?)

/-! ## 5. Cutting a document -/

/-- A place where a key may have begun: the number of tokens before it, and whether it has to be one.
-/
structure KeyStart where
  tokens : Nat
  required : Bool
  index : Nat
  line : Nat
  column : Nat
  deriving Repr, Inhabited

/-- The work so far: the place, the tokens, how many flow collections are open, the indentations of
the open block collections (the innermost first), whether a key may begin here, and where keys may
have begun, by the number of open flow collections. -/
structure Work where
  at_ : Cursor
  tokens : Array Token := #[]
  flow : Nat := 0
  indents : List Nat := []
  keyAllowed : Bool := true
  starts : List (Nat × KeyStart) := []
  deriving Inhabited

namespace Work

/-- The indentation of the innermost block collection, negative outside of all. -/
def indent (w : Work) : Int := match w.indents with
  | [] => -1
  | n :: _ => n

/-- Adds a token. -/
def push (w : Work) (t : Token) : Work := { w with tokens := w.tokens.push t }

/-- Goes to another place. -/
def moveTo (w : Work) (c : Cursor) : Work := { w with at_ := c }

/-- Closes the block collections that are indented further than a column. -/
def unwind (w : Work) (column : Int) : Work :=
  if w.flow != 0 then w
  else
    let closed := w.indents.takeWhile fun (n : Nat) => decide (column < (n : Int))
    { w with indents := w.indents.drop closed.length
             tokens := w.tokens ++ (closed.map fun _ => Token.blockEnd).toArray }

/-- Opens a block collection at a column, unless one is open there. -/
def openAt (w : Work) (column : Nat) : Option Work :=
  if w.indent < column then some { w with indents := column :: w.indents } else none

/-- Whether the start of a key can be none any more. -/
def isStale (w : Work) (k : KeyStart) : Bool :=
  k.line != w.at_.line || 1024 < w.at_.index - k.index

/-- Forgets the starts of keys that can be none any more. One that has to be a key is a fault. -/
def dropStale? (w : Work) : Option Work :=
  if w.starts.any fun (_, k) => w.isStale k && k.required then none
  else some { w with starts := w.starts.filter fun (_, k) => !w.isStale k }

/-- The tokens of which it is known whether they begin a key. -/
def settled (w : Work) : Array Token :=
  let pending := (w.starts.filter fun (_, k) => !w.isStale k).map fun (_, k) => k.tokens
  w.tokens.extract 0 (pending.foldl min w.tokens.size)

/-- Forgets the start of a key at this depth. One that has to be a key is a fault. -/
def dropStart? (w : Work) : Option Work :=
  match w.starts.lookup w.flow with
  | some k =>
    if k.required then none else some { w with starts := w.starts.filter fun x => x.1 != w.flow }
  | none => some w

/-- Notes that a key may begin here. -/
def noteStart? (w : Work) : Option Work := do
  if w.keyAllowed then
    let required := w.flow == 0 && w.indent == (w.at_.column : Int)
    let k : KeyStart := ⟨w.tokens.size, required, w.at_.index, w.at_.line, w.at_.column⟩
    let w ← w.dropStart?
    pure { w with starts := (w.flow, k) :: w.starts }
  else pure w

/-- Puts tokens in before the token of a number. -/
def insertAt (w : Work) (n : Nat) (ts : List Token) : Work :=
  { w with tokens := w.tokens.extract 0 n ++ ts.toArray ++ w.tokens.extract n w.tokens.size }

/-- The colon behind a key. -/
def value? (w : Work) : Option Work :=
  match w.starts.lookup w.flow with
  | some k =>
    let w := { w with starts := w.starts.filter fun x => x.1 != w.flow, keyAllowed := false }
    let (w, mark) := match (if w.flow == 0 then w.openAt k.column else none) with
      | some w' => (w', [Token.blockMapping, Token.key])
      | none => (w, [Token.key])
    some (((w.insertAt k.tokens mark).push .value).moveTo w.at_.next)
  | none =>
    if w.flow == 0 && !w.keyAllowed then none
    else
      let w := match (if w.flow == 0 then w.openAt w.at_.column else none) with
        | some w' => w'.push .blockMapping
        | none => w
      do
        let w ← ({ w with keyAllowed := w.flow == 0 } : Work).dropStart?
        pure ((w.push .value).moveTo w.at_.next)

/-- The mark of an entry of a block sequence, or of a key. -/
def mark? (w : Work) (collection mark : Token) (allowsKey : Bool) : Option Work :=
  if w.flow == 0 && !w.keyAllowed then none
  else
    let w := match (if w.flow == 0 then w.openAt w.at_.column else none) with
      | some w' => w'.push collection
      | none => w
    do
      let w ← ({ w with keyAllowed := allowsKey } : Work).dropStart?
      pure ((w.push mark).moveTo w.at_.next)

/-- The place of the next token: blanks, comments and line ends are passed over, and at the beginning
of a line a key may begin. -/
def toToken (w : Work) : Nat → Work
  | 0 => w
  | n + 1 =>
    let c := w.at_.drop (· == ' ')
    let c := if c.peek == '#' then c.toLineEnd else c
    if isBreak c.peek then
      ({ w with at_ := c.lineBreak.2, keyAllowed := w.keyAllowed || w.flow == 0 } : Work).toToken n
    else w.moveTo c

/-- A token that ends all block collections. -/
def outermost? (w : Work) : Option Work := do
  let w ← (w.unwind (-1)).dropStart?
  pure { w with keyAllowed := false }

/-- A scalar, which may be a key. -/
def scalar? (w : Work) (text : List Char) (plain : Bool) (c : Cursor) : Option Work := do
  let w ← w.noteStart?
  pure (({ w with keyAllowed := false } : Work).push (.scalar (String.ofList text) plain) |>.moveTo c)

/-- Reads one more token. The last one of a document ends the work. -/
def step (w : Work) : Except Fault (Work × Bool) :=
  let w := w.toToken (w.at_.rest.length + 1)
  let keepOn := fun (x : Option Work) => match x with
    | some w => Except.ok (w, true)
    | none => .error .malformed
  match w.dropStale? with
  | none => .error .malformed
  | some w =>
    let w := w.unwind w.at_.column
    let c := w.at_
    let x := c.peek
    let flow := w.flow != 0
    let separates := c.column == 0 && c.atSeparator
    let openFlow := fun (t : Token) => do
      let w ← w.noteStart?
      pure (({ w with flow := w.flow + 1, keyAllowed := true } : Work).push t |>.moveTo c.next)
    let closeFlow := fun (t : Token) =>
      if w.flow == 0 then none
      else do
        let w ← w.dropStart?
        pure (({ w with flow := w.flow - 1, keyAllowed := false } : Work).push t |>.moveTo c.next)
    let named := fun (r : Option (Token × Cursor)) => do
      let w ← w.noteStart?
      let (t, c) ← r
      pure (({ w with keyAllowed := false } : Work).push t |>.moveTo c)
    if x == endMark then
      match w.outermost? with
      | some w => .ok (w.push .streamEnd, false)
      | none => .error .malformed
    else if x == '%' && c.column == 0 then
      keepOn do
        let w ← w.outermost?
        let (d, c) ← directive? c
        pure ((w.push (.directive d)).moveTo c)
    else if separates then
      keepOn do
        let w ← w.outermost?
        pure ((w.push (if x == '-' then .documentStart else .documentEnd)).moveTo (c.skip 3))
    else if x == '[' then keepOn (openFlow .flowSequence)
    else if x == '\x7b' then keepOn (openFlow .flowMapping)
    else if x == ']' then keepOn (closeFlow .flowSequenceEnd)
    else if x == '\x7d' then keepOn (closeFlow .flowMappingEnd)
    else if x == ',' then
      keepOn do
        let w ← ({ w with keyAllowed := true } : Work).dropStart?
        pure ((w.push .flowComma).moveTo c.next)
    else if x == '-' && endsWord (c.peek 1) then keepOn (w.mark? .blockSequence .blockDash true)
    else if x == '?' && (flow || endsWord (c.peek 1)) then
      keepOn (w.mark? .blockMapping .key (!flow))
    else if x == ':' && (flow || endsWord (c.peek 1)) then keepOn w.value?
    else if x == '*' then keepOn (named ((anchorName? c.next).map fun (n, c) => (.reference n, c)))
    else if x == '&' then keepOn (named ((anchorName? c.next).map fun (n, c) => (.anchor n, c)))
    else if x == '!' then keepOn (named (tagToken? c))
    else if (x == '|' || x == '>') && !flow then
      keepOn do
        let w ← ({ w with keyAllowed := true } : Work).dropStart?
        let (text, c) ← blockText? (x == '>') (max 1 (w.indent + 1)).toNat c.next
        pure ((w.push (.scalar (String.ofList text) false)).moveTo c)
    else if x == '\'' || x == '"' then
      match w.noteStart? with
      | none => .error .malformed
      | some _ => do
        let (text, c) ← quotedText (x == '"') (c.rest.length + 1) c.next []
        keepOn (w.scalar? text false c)
    else if !("-?:,[]\x7b\x7d#&*!|>'\"%@`".toList.contains x || endsWord x)
        || (!endsWord (c.peek 1) && (x == '-' || (!flow && (x == '?' || x == ':')))) then
      keepOn do
        let w ← w.noteStart?
        let (text, c, ended) := plainText flow (w.indent + 1) (c.rest.length + 1) c [] [] false
        pure (({ w with keyAllowed := ended } : Work).push (.scalar (String.ofList text) true)
          |>.moveTo c)
    else .error .malformed

/-- Reads all tokens; the number bounds how many. -/
def finish : Nat → Work → Array Token
  | 0, w => w.tokens.push (.broken .malformed)
  | n + 1, w =>
    match w.step with
    | .ok (w, true) => finish n w
    | .ok (w, false) => w.tokens
    | .error f => w.settled.push (.broken f)

end Work

/-- The tokens of a document. A mark of the byte order at its beginning is no part of it. -/
def tokensOf (text : List Char) : List Token :=
  if text.all isAllowed then
    let c : Cursor := { rest := text }
    let c := if c.peek.toNat = 0xfeff then c.next else c
    (Work.finish (text.length + 2) { at_ := c }).toList
  else [.broken .malformed]

end NativeGlue.Yaml
