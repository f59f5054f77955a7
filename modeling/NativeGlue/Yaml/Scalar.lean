import NativeGlue.Data.Value
import NativeGlue.Text.Number
import NativeGlue.Yaml.Token

/-!
# Scalars of YAML documents

What a plain text in a document is by its form: nothing, a truth value, a number, a date or a time, the
marks `<<` and `=`, or just text. Integers may be written in base 2, 8, 10 or 16 or in groups of
sixty; a number with a fraction needs a dot. The same readers serve texts whose tag says what they
are.
-/

namespace NativeGlue.Yaml

open NativeGlue.Data NativeGlue.Text

/-! ## 1. Forms -/

/-- What a scalar may be. -/
inductive ScalarKind where
  | null
  | truth
  | int
  | float
  | time
  | merge
  | value
  | text
  deriving DecidableEq, Repr, Inhabited

/-- The spellings of nothing. -/
def nullWords : List String := ["", "~", "null", "Null", "NULL"]

/-- The spellings of truth values. -/
def truthWords : List String :=
  ["yes", "no", "true", "false", "on", "off"].flatMap fun w =>
    [w, String.ofList ((w.toList.take 1).map Char.toUpper ++ w.toList.drop 1), upper w]

/-- A text without the sign at its beginning. -/
def unsigned : List Char → List Char
  | '+' :: r => r
  | '-' :: r => r
  | r => r

/-- Whether a character is a decimal digit or an underscore. -/
def isDigitPart (c : Char) : Bool := c.isDigit || c == '_'

/-- Whether a text is a number below sixty. -/
def isBelowSixty : List Char → Bool
  | [a] => a.isDigit
  | [a, b] => '0' ≤ a && a ≤ '5' && b.isDigit
  | _ => false

/-- Whether a text has the form of an integer. -/
def isIntForm (s : List Char) : Bool :=
  match unsigned s with
  | ['0'] => true
  | '0' :: 'b' :: r => !r.isEmpty && r.all fun c => c == '0' || c == '1' || c == '_'
  | '0' :: 'x' :: r => !r.isEmpty && r.all fun c => (hexValue? c).isSome || c == '_'
  | '0' :: r => r.all fun c => ('0' ≤ c && c ≤ '7') || c == '_'
  | r =>
    match r.splitOn ':' with
    | [] => false
    | whole :: groups =>
      match whole with
      | d :: ds => d.isDigit && ds.all isDigitPart && groups.all isBelowSixty
      | [] => false

/-- Whether a text is an exponent, sign included, or nothing. -/
def isExponent : List Char → Bool
  | [] => true
  | e :: s :: d :: r =>
    (e == 'e' || e == 'E') && (s == '+' || s == '-') && (d :: r).all Char.isDigit
  | _ => false

/-- Whether a text has the form of a number with a fraction. -/
def isFloatForm (s : List Char) : Bool :=
  let r := unsigned s
  let signed := r.length != s.length
  let word := String.ofList r
  if [".inf", ".Inf", ".INF"].contains word then true
  else if [".nan", ".NaN", ".NAN"].contains word then !signed
  else
    let whole := r.takeWhile fun c => isDigitPart c || c == ':'
    match r.drop whole.length with
    | '.' :: r =>
      let places := r.takeWhile isDigitPart
      let rest := r.drop places.length
      match whole with
      | [] => !signed && (places.head?.map Char.isDigit).getD false && isExponent rest
      | d :: ds =>
        if !d.isDigit then false
        else if ds.contains ':' then
          match (d :: ds).splitOn ':' with
          | _ :: groups => groups.all isBelowSixty && rest.isEmpty
          | [] => false
        else isExponent rest
    | _ => false

/-! ## 2. Times -/

/-- Reads between one or two digits and the text behind them. -/
def upToTwoDigits? : List Char → Option (Nat × List Char)
  | a :: b :: r =>
    if a.isDigit then
      if b.isDigit then some ((a.toNat - 48) * 10 + (b.toNat - 48), r) else some (a.toNat - 48, b :: r)
    else none
  | [a] => if a.isDigit then some (a.toNat - 48, []) else none
  | [] => none

/-- Reads two digits and the text behind them. -/
def twoDigits? : List Char → Option (Nat × List Char)
  | a :: b :: r =>
    if a.isDigit && b.isDigit then some ((a.toNat - 48) * 10 + (b.toNat - 48), r) else none
  | _ => none

/-- Reads four digits and the text behind them. -/
def fourDigits? (s : List Char) : Option (Nat × List Char) := do
  let (a, r) ← twoDigits? s
  let (b, r) ← twoDigits? r
  pure (100 * a + b, r)

/-- The text behind a given character. -/
def behind? (c : Char) : List Char → Option (List Char)
  | x :: r => if x == c then some r else none
  | [] => none

/-- The numbers of a date or a time as they are written; whether there is such a day is not looked at
yet. -/
structure WrittenTime where
  year : Nat
  month : Nat
  day : Nat
  clock : Option (Nat × Nat × Nat) := none
  micro : Nat := 0
  offset : Option Int := none
  deriving DecidableEq, Repr, Inhabited

/-- The time zone at the end of a time: its offset in minutes. -/
def zone? (s : List Char) : Option (Option Int) :=
  match s with
  | [] => some none
  | ['Z'] => some (some 0)
  | c :: r =>
    if c == '+' || c == '-' then do
      let sign : Int := if c == '-' then -1 else 1
      let (h, r) ← upToTwoDigits? r
      match r with
      | [] => some (some (sign * (60 * h)))
      | ':' :: r => do
        let (m, r) ← twoDigits? r
        if r.isEmpty then some (some (sign * (60 * h + m))) else none
      | _ => none
    else none

/-- Reads a date, or a date and a time. A date alone has two digits each for month and day, unless
`loose`. -/
def readTime? (loose : Bool) (s : List Char) : Option WrittenTime := do
  let (year, r) ← fourDigits? s
  let r ← behind? '-' r
  let (month, r1) ← upToTwoDigits? r
  let twoMonth := r.length - r1.length == 2
  let r ← behind? '-' r1
  let (day, r2) ← upToTwoDigits? r
  let twoDay := r.length - r2.length == 2
  match r2 with
  | [] => if loose || (twoMonth && twoDay) then some { year, month, day } else none
  | c :: _ =>
    let blank := fun (x : Char) => x == ' ' || x == '\t'
    let r ← if c == 'T' || c == 't' then some (r2.drop 1)
      else if blank c then some (r2.dropWhile blank) else none
    let (hour, r) ← upToTwoDigits? r
    let (minute, r) ← twoDigits? (← behind? ':' r)
    let (second, r) ← twoDigits? (← behind? ':' r)
    let (fraction, r) := match r with
      | '.' :: r => (r.takeWhile Char.isDigit, r.dropWhile Char.isDigit)
      | r => ([], r)
    let six := (fraction ++ List.replicate 6 '0').take 6
    let offset ← zone? (r.dropWhile blank)
    -- Blanks may stand before a time zone only.
    if offset.isNone && !r.isEmpty then none
    else some { year, month, day, clock := some (hour, minute, second),
                micro := if fraction.isEmpty then 0 else ofDigits 10 (six.map fun c => c.toNat - 48),
                offset }

/-- The value of a written time, if there is such a day and such a time. -/
def WrittenTime.value? (t : WrittenTime) : Option Value :=
  if !isDate t.year t.month t.day then none
  else match t.clock with
    | none => some (.date t.year t.month t.day)
    | some (h, m, s) =>
      if h < 24 && m < 60 && s < 60 && ((t.offset.map Int.natAbs).getD 0) < 1440 then
        some (.moment ⟨t.year, t.month, t.day, h, m, s, t.micro, t.offset⟩)
      else none

/-! ## 3. Kinds -/

/-- A text without the line feed at its end, if it holds more than that. -/
def line (text : String) : String :=
  if text.length ≠ 1 ∧ text.toList.getLast? = some '\n' then String.ofList text.toList.dropLast
  else text

/-- What a text of one line is by its form. -/
def kindOfLine (text : String) : ScalarKind :=
  let cs := text.toList
  if nullWords.contains text then .null
  else if truthWords.contains text then .truth
  else if text == "<<" then .merge
  else if text == "=" then .value
  else if isFloatForm cs then .float
  else if isIntForm cs then .int
  else if (readTime? false cs).isSome then .time
  else .text

/-- What a plain text is by its form. A line feed at its end does not matter. -/
def kindOf (text : String) : ScalarKind := kindOfLine (line text)

/-! ## 4. Readers -/

/-- A text without underscores. -/
def withoutUnderscores (s : String) : List Char := s.toList.filter (· != '_')

/-- Whether a number has a minus sign. -/
def isNegative (s : List Char) : Bool := s.head? == some '-'

/-- The value of a text that is an integer. -/
def readInt (text : String) : Except Fault Value :=
  let cs := withoutUnderscores text
  if cs.isEmpty then .error .emptyNumber
  else
    let negative := isNegative cs
    let number := fun (base : Nat) (s : List Char) => readIntIn? base (String.ofList s)
    let signed := fun (n : Option Int) => match n with
      | some n => .ok (.int (if negative then -n else n))
      | none => .error .badNumber
    match unsigned cs with
    | [] => .error .emptyNumber
    | ['0'] => .ok (.int 0)
    | '0' :: 'b' :: r => signed (number 2 r)
    | '0' :: 'x' :: r => signed (number 16 r)
    | '0' :: r => signed (number 8 ('0' :: r))
    | r => signed (((r.splitOn ':').mapM (number 10)).map (·.foldl (fun n d => 60 * n + d) 0))

/-- The value of a decimal number with or without a fraction, infinities and the like by name. There
may be blanks around it, and its digits may be those of any script. -/
def readDecimal? (s : List Char) : Option Double :=
  let s := numberText (String.ofList s)
  let r := unsigned s
  let negative := isNegative s
  let word := lower (String.ofList r)
  if word == "inf" || word == "infinity" then some (.infinite negative)
  else if word == "nan" then some .notANumber
  else
    let whole := r.takeWhile Char.isDigit
    let r := r.drop whole.length
    let (places, r) := match r with
      | '.' :: r => (r.takeWhile Char.isDigit, r.dropWhile Char.isDigit)
      | r => ([], r)
    if whole.isEmpty && places.isEmpty then none
    else
      let digits := ofDigits 10 ((whole ++ places).map fun c => c.toNat - 48)
      let number := fun (e : Int) => Double.ofDecimal negative digits (e - places.length)
      match r with
      | [] => some (number 0)
      | e :: r =>
        if e == 'e' || e == 'E' then
          let ds := unsigned r
          if ds.isEmpty || !ds.all Char.isDigit then none
          else
            let n : Int := ofDigits 10 (ds.map fun c => c.toNat - 48)
            some (number (if isNegative r then -n else n))
        else none

/-- The sum of groups of sixty, each rounded when it is added; the last group comes first. -/
def sumOfGroups (sum : Double) (scale : Nat) : List Double → Except Fault Double
  | [] => .ok sum
  | d :: r =>
    match Double.ofNat? scale with
    | none => .error .tooLarge
    | some x => sumOfGroups (sum.add (d.mul x)) (60 * scale) r

/-- The value of a text that is a number with a fraction, or several of them in groups of sixty. -/
def readFloat (text : String) : Except Fault Value :=
  let cs := (lower (String.ofList (withoutUnderscores text))).toList
  if cs.isEmpty then .error .emptyNumber
  else
    let signed := fun (x : Double) => Value.float (if isNegative cs then x.negate else x)
    let r := unsigned cs
    if r == ".inf".toList then .ok (signed (.infinite false))
    else if r == ".nan".toList then .ok (.float .notANumber)
    else match (r.splitOn ':').mapM readDecimal? with
      | none => .error .badNumber
      | some [x] => .ok (signed x)
      | some ds => (sumOfGroups (.finite false 0 (-1074)) 1 ds.reverse).map signed

/-- The value of a text that is a truth value. -/
def readTruth (text : String) : Except Fault Value :=
  let w := lower text
  if ["yes", "true", "on"].contains w then .ok (.bool true)
  else if ["no", "false", "off"].contains w then .ok (.bool false)
  else .error .badTruth

/-- The value of a text that is a date or a time. -/
def readTimeValue (text : String) : Except Fault Value :=
  match readTime? true (line text).toList with
  | none => .error .badTime
  | some t => match t.value? with
    | some v => .ok v
    | none => .error .badNumber

/-! ## 5. Bytes -/

/-- The value of a character in base 64. -/
def sixBits? (c : Char) : Option Nat :=
  let n := c.toNat
  if 'A' ≤ c ∧ c ≤ 'Z' then some (n - 65)
  else if 'a' ≤ c ∧ c ≤ 'z' then some (n - 71)
  else if c.isDigit then some (n + 4)
  else if c == '+' then some 62
  else if c == '/' then some 63
  else none

/-- The bytes of a text in base 64. Characters that mean nothing are passed over, and signs that fill
the last group end the text. `held` are the bits not used yet and `groups` counts the characters. -/
def base64From : Nat → Nat → Nat → List Char → Option (List UInt8)
  | groups, _, _, [] => if groups % 4 == 0 then some [] else none
  | groups, held, fill, c :: r =>
    if c == '=' then
      if 2 ≤ groups % 4 ∧ 4 ≤ groups % 4 + fill + 1 then some []
      else base64From groups held (fill + 1) r
    else match sixBits? c with
      | none => base64From groups held fill r
      | some v =>
        match groups % 4 with
        | 0 => base64From (groups + 1) v 0 r
        | 1 => (base64From (groups + 1) (v % 16) 0 r).map (UInt8.ofNat (held * 4 + v / 16) :: ·)
        | 2 => (base64From (groups + 1) (v % 4) 0 r).map (UInt8.ofNat (held * 16 + v / 4) :: ·)
        | _ => (base64From (groups + 1) 0 0 r).map (UInt8.ofNat (held * 64 + v) :: ·)

/-- The bytes of a text in base 64. -/
def readBytes (text : String) : Except Fault Value :=
  if text.toList.all fun c => c.toNat < 128 then
    match base64From 0 0 0 text.toList with
    | some bs => .ok (.bytes bs)
    | none => .error .malformed
  else .error .malformed

end NativeGlue.Yaml
