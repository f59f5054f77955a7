import NativeGlue.Data.Double
import NativeGlue.Text.CodePoints
import NativeGlue.Text.Number
import NativeGlue.Text.Substring

/-!
# JSON

Reading a JSON document, and writing texts the JSON way. The reader takes the words `NaN` and
`Infinity` for numbers, lets a later member of an object replace an earlier one of the same name,
refuses control characters inside strings and does not read documents that are nested very deep. A
surrogate that stands alone in a string stays in its text. The writer leaves ASCII only: all else is
escaped, unit by unit.
-/

namespace NativeGlue.Data

open NativeGlue.Text

/-! ## 1. Documents -/

/-- A document. The members of an object are in the order in which they were first written. -/
inductive Json where
  | null
  | bool (b : Bool)
  | int (n : Int)
  | float (x : Double)
  | text (s : CodePoints)
  | list (items : List Json)
  | object (members : List (CodePoints × Json))
  deriving Repr, Inhabited

namespace Json

mutual

/-- The text of a document that shows its kind: texts are quoted, and `True`, `False` and `None` stand
for truth values and the empty document. -/
def shown : Json → String
  | .null => "None"
  | .bool b => if b then "True" else "False"
  | .int n => toString n
  | .float x => toString x
  | .text s => s.quoted
  | .list xs => "[" ++ ", ".intercalate (shownItems xs) ++ "]"
  | .object ms => "\x7b" ++ ", ".intercalate (shownMembers ms) ++ "\x7d"

/-- The texts of the items of a list. -/
def shownItems : List Json → List String
  | [] => []
  | x :: r => shown x :: shownItems r

/-- The texts of the members of an object. -/
def shownMembers : List (CodePoints × Json) → List String
  | [] => []
  | (k, v) :: r => (k.quoted ++ ": " ++ shown v) :: shownMembers r

end

/-- The plain text of a document: a text is itself. -/
def plain : Json → CodePoints
  | .text s => s
  | v => .ofString v.shown

/-- The integer that a number or truth value equals, if it equals one. -/
def asInt? : Json → Option Int
  | .bool b => some (if b then 1 else 0)
  | .int n => some n
  | .float x => x.toInt?
  | _ => none

/-- Puts a member into an object; one of the same name is replaced in its place. -/
def putMember (name : CodePoints) (v : Json) : List (CodePoints × Json) → List (CodePoints × Json)
  | [] => [(name, v)]
  | (k, w) :: r => if k = name then (k, v) :: r else (k, w) :: putMember name v r

/-- The member of an object, if it is there. -/
def member? (ms : List (CodePoints × Json)) (name : String) : Option Json :=
  (ms.find? fun m => m.1 = .ofString name).map (·.2)

/-! ## 2. Strings -/

/-- Why a text is no document. -/
inductive Fault where
  | malformed
  /-- An integer has more digits than are read. -/
  | longNumber
  /-- Lists and objects are nested too deep. -/
  | tooDeep
  deriving DecidableEq, Repr, Inhabited

/-- What may stand between the parts of a document. -/
def isGap (c : Char) : Bool := c == ' ' || c == '\t' || c == '\n' || c == '\r'

/-- A text without the gap it begins with. -/
def skipGap (s : List Char) : List Char := s.dropWhile isGap

/-- The value of four hexadecimal digits of either case, and the rest. -/
def unit? : List Char → Option (Nat × List Char)
  | a :: b :: c :: d :: r => do
    let ds ← [a, b, c, d].mapM fun x => if x.isAlphanum then digitValue? 16 x else none
    pure (ofDigits 16 ds, r)
  | _ => none

/-- The character behind a backslash that stands for another one. -/
def simpleEscape? (c : Char) : Option Char :=
  match c with
  | '"' => some '"'
  | '\\' => some '\\'
  | '/' => some '/'
  | 'b' => some (Char.ofNat 8)
  | 'f' => some (Char.ofNat 12)
  | 'n' => some '\n'
  | 'r' => some '\r'
  | 't' => some '\t'
  | _ => none

/-- The code points of a string up to its closing quote, and the rest. Two escapes next to each other
make one character if they are a pair of surrogates. -/
def readString : Nat → List Char → Option (List Nat × List Char)
  | 0, _ => none
  | _, [] => none
  | _ + 1, '"' :: r => some ([], r)
  | n + 1, '\\' :: 'u' :: r => do
    let (u, r) ← unit? r
    let paired ← match r with
      | '\\' :: 'u' :: r' =>
        if Units.isHigh u then do
          let (l, r') ← unit? r'
          pure (if Units.isLow l then some (l, r') else none)
        else pure none
      | _ => pure none
    match paired with
    | some (l, r) =>
      (readString n r).map fun (s, r) => ((0x10000 + (u - 0xd800) * 0x400 + (l - 0xdc00)) :: s, r)
    | none => (readString n r).map fun (s, r) => (u :: s, r)
  | n + 1, '\\' :: c :: r => do
    let e ← simpleEscape? c
    (readString n r).map fun (s, r) => (e.toNat :: s, r)
  | n + 1, c :: r =>
    if c.toNat < 32 then none else (readString n r).map fun (s, r) => (c.toNat :: s, r)

/-! ## 3. Numbers -/

/-- Whole digits of a number: a zero, or digits that do not begin with one. -/
def wholeDigits (s : List Char) : List Char :=
  match s with
  | '0' :: _ => ['0']
  | _ => s.takeWhile Char.isDigit

/-- The digits behind a decimal point, and the rest. -/
def fraction? (s : List Char) : Option (List Char × List Char) :=
  match s with
  | '.' :: r =>
    let ds := r.takeWhile Char.isDigit
    if ds.isEmpty then none else some (ds, r.drop ds.length)
  | _ => none

/-- The exponent of a number, and the rest. -/
def exponent? (s : List Char) : Option (Int × List Char) :=
  match s with
  | e :: r =>
    if e == 'e' || e == 'E' then
      let (negative, r) := match r with
        | '-' :: r => (true, r)
        | '+' :: r => (false, r)
        | r => (false, r)
      let ds := r.takeWhile Char.isDigit
      if ds.isEmpty then none
      else
        let n : Int := ofDigits 10 (ds.map fun c => c.toNat - 48)
        some (if negative then -n else n, r.drop ds.length)
    else none
  | [] => none

/-- A number, and the rest: an integer unless it has a fraction or an exponent. -/
def readNumber (negative : Bool) (s : List Char) : Except Fault (Json × List Char) :=
  let whole := wholeDigits s
  if whole.isEmpty then .error .malformed
  else
    let r := s.drop whole.length
    let digits := fun (ds : List Char) => ofDigits 10 (ds.map fun c => c.toNat - 48)
    let frac := fraction? r
    let r := (frac.map (·.2)).getD r
    let expo := exponent? r
    let r := (expo.map (·.2)).getD r
    if frac.isNone && expo.isNone then
      if maxDecimalDigits < whole.length then .error .longNumber
      else
        let n : Int := digits whole
        .ok (.int (if negative then -n else n), r)
    else
      let ds := whole ++ ((frac.map (·.1)).getD [])
      let e := ((expo.map (·.1)).getD 0) - ((frac.map (·.1.length)).getD 0 : Nat)
      .ok (.float (Double.ofDecimal negative (digits ds) e), r)

/-! ## 4. Reading -/

/-- The words that stand for values. -/
def words : List (String × Json) :=
  [("null", .null), ("true", .bool true), ("false", .bool false),
    ("NaN", .float .notANumber), ("Infinity", .float (.infinite false)),
    ("-Infinity", .float (.infinite true))]

/-- A word at the beginning of a text, and the rest. -/
def word? (s : List Char) : Option (Json × List Char) :=
  words.findSome? fun (w, v) =>
    if w.toList.isPrefixOf s then some (v, s.drop w.length) else none

/-- How deep lists and objects may be nested. -/
def maxDepth : Nat := 990

mutual

/-- A value, and the rest; `depth` tells how much deeper lists and objects may be nested. -/
def readValue : Nat → Nat → List Char → Except Fault (Json × List Char)
  | 0, _, _ => .error .malformed
  | n + 1, depth, s =>
    match s with
    | '"' :: r =>
      match readString (r.length + 1) r with
      | none => .error .malformed
      | some (t, r) => .ok (.text ⟨t⟩, r)
    | '\x7b' :: r =>
      if depth = 0 then .error .tooDeep
      else match skipGap r with
        | '\x7d' :: r => .ok (.object [], r)
        | r => readMembers n (depth - 1) [] r
    | '[' :: r =>
      if depth = 0 then .error .tooDeep
      else match skipGap r with
        | ']' :: r => .ok (.list [], r)
        | r => readItems n (depth - 1) [] r
    | _ =>
      match word? s with
      | some (v, r) => .ok (v, r)
      | none => match s with
        | '-' :: r => readNumber true r
        | r => readNumber false r

/-- The rest of a list; `done` holds the items so far, the last first. -/
def readItems : Nat → Nat → List Json → List Char → Except Fault (Json × List Char)
  | 0, _, _, _ => .error .malformed
  | n + 1, depth, done, s => do
    let (v, r) ← readValue n depth s
    match skipGap r with
    | ']' :: r => .ok (.list (v :: done).reverse, r)
    | ',' :: r => readItems n depth (v :: done) (skipGap r)
    | _ => .error .malformed

/-- The rest of an object. -/
def readMembers :
    Nat → Nat → List (CodePoints × Json) → List Char → Except Fault (Json × List Char)
  | 0, _, _, _ => .error .malformed
  | n + 1, depth, done, s =>
    match s with
    | '"' :: r =>
      match readString (r.length + 1) r with
      | none => .error .malformed
      | some (k, r) =>
        match skipGap r with
        | ':' :: r => do
          let (v, r) ← readValue n depth (skipGap r)
          let done := putMember ⟨k⟩ v done
          match skipGap r with
          | '\x7d' :: r => .ok (.object done, r)
          | ',' :: r => readMembers n depth done (skipGap r)
          | _ => .error .malformed
        | _ => .error .malformed
    | _ => .error .malformed

end

/-- Reads a document. -/
def read (text : String) : Except Fault Json := do
  let s := skipGap text.toList
  let (v, r) ← readValue (2 * s.length + 1) maxDepth s
  if (skipGap r).isEmpty then pure v else throw .malformed

/-! ## 5. Writing -/

/-- A code point inside a string. -/
def writePoint (n : Nat) : List Char :=
  if n = '"'.toNat then ['\\', '"']
  else if n = '\\'.toNat then ['\\', '\\']
  else if n = '\n'.toNat then ['\\', 'n']
  else if n = '\r'.toNat then ['\\', 'r']
  else if n = '\t'.toNat then ['\\', 't']
  else if n = 12 then ['\\', 'f']
  else if n = 8 then ['\\', 'b']
  else if 32 ≤ n ∧ n < 127 then [Char.ofNat n]
  else (Units.ofCodePoint n).flatMap fun u => '\\' :: 'u' :: hex 4 u

/-- A text as a string. -/
def writeString (s : CodePoints) : String :=
  String.ofList ('"' :: (s.points.flatMap writePoint ++ ['"']))

/-- An object whose members stand on lines of their own, at a depth of two blanks a level. -/
def writeObject (depth : Nat) (members : List (CodePoints × String)) : String :=
  if members.isEmpty then "\x7b\x7d"
  else
    let pad := copies (2 * (depth + 1)) " "
    let lines := members.map fun (k, v) => pad ++ writeString k ++ ": " ++ v
    "\x7b\n" ++ ",\n".intercalate lines ++ "\n" ++ copies (2 * depth) " " ++ "\x7d"

end Json

end NativeGlue.Data
