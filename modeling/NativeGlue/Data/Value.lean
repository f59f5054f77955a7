import NativeGlue.Data.Double
import NativeGlue.Text.Blank
import NativeGlue.Text.Case
import NativeGlue.Text.Number
import NativeGlue.Text.Quoted
import NativeGlue.Text.Substring

/-!
# Plain data

What a document of settings or overrides holds once it is read: numbers, texts, lists, mappings and
a few more. The generator mostly wants text, so every value has two texts: the plain one
(`Value.plain`), in which a text stands for itself, and the one that shows its kind (`Value.shown`),
in which texts are quoted. Truth values and the empty value are spelled `True`, `False` and `None`. A
number may be too long to be written, and then no text of the value is (`Value.isWritable`).

A collection may be a member of itself. It then has a label, and stands inside itself as this label.
Such a collection is opened (`Value.opened`) before its members are looked at. Values can be compared
(`Value.equals_iff`).
-/

namespace NativeGlue.Data

open NativeGlue.Text

/-! ## 1. Values -/

/-- A point in time, to the microsecond; the offset from universal time is in minutes. -/
structure Moment where
  year : Nat
  month : Nat
  day : Nat
  hour : Nat
  minute : Nat
  second : Nat
  micro : Nat
  offset : Option Int
  deriving DecidableEq, Repr, Inhabited

/-- The number of days before a year since the beginning of the calendar. -/
def daysBeforeYear (y : Nat) : Nat := (y - 1) * 365 + (y - 1) / 4 - (y - 1) / 100 + (y - 1) / 400

/-- A kind of collection that may be a member of itself. -/
inductive CollectionKind where
  | list
  | tuple
  | mapping
  deriving DecidableEq, Repr, Inhabited

/-- The text of a collection inside itself. -/
def CollectionKind.ellipsis : CollectionKind → String
  | .list => "[...]"
  | .tuple => "(...)"
  | .mapping => "\x7b...\x7d"

/-- Plain data. Mappings and sets keep the order in which their members were written. -/
inductive Value where
  | null
  | bool (b : Bool)
  | int (n : Int)
  | float (x : Double)
  | text (s : String)
  | bytes (bs : List UInt8)
  | date (year month day : Nat)
  | moment (m : Moment)
  | list (items : List Value)
  | tuple (items : List Value)
  | set (items : List Value)
  | mapping (pairs : List (Value × Value))
  /-- A collection that is a member of itself, with its label. -/
  | labelled (label : Nat) (collection : Value)
  /-- The collection around this place that has a label. -/
  | again (label : Nat) (kind : CollectionKind)
  deriving Repr, Inhabited

mutual

/-- Whether two values are the same, member by member. -/
def Value.equals : Value → Value → Bool
  | .null, .null => true
  | .bool b, .bool c => b == c
  | .int m, .int n => m == n
  | .float x, .float y => x == y
  | .text s, .text t => s == t
  | .bytes bs, .bytes cs => bs == cs
  | .date y m d, .date y' m' d' => y == y' && m == m' && d == d'
  | .moment m, .moment n => m == n
  | .list xs, .list ys => equalsAll xs ys
  | .tuple xs, .tuple ys => equalsAll xs ys
  | .set xs, .set ys => equalsAll xs ys
  | .mapping ps, .mapping qs => equalsPairs ps qs
  | .labelled l v, .labelled l' v' => l == l' && equals v v'
  | .again l k, .again l' k' => l == l' && k == k'
  | _, _ => false

/-- Whether values are the same in their order. -/
def Value.equalsAll : List Value → List Value → Bool
  | [], [] => true
  | x :: r, y :: s => equals x y && equalsAll r s
  | _, _ => false

/-- Whether pairs are the same in their order. -/
def Value.equalsPairs : List (Value × Value) → List (Value × Value) → Bool
  | [], [] => true
  | (k, v) :: r, (k', v') :: s => equals k k' && equals v v' && equalsPairs r s
  | _, _ => false

end

mutual

/-- Values that are the same in every member are equal. -/
theorem Value.equals_iff : ∀ v w : Value, v.equals w = true ↔ v = w
  | .null, w => by cases w <;> simp [Value.equals]
  | .bool b, w => by cases w <;> simp [Value.equals]
  | .int m, w => by cases w <;> simp [Value.equals]
  | .float x, w => by cases w <;> simp [Value.equals]
  | .text s, w => by cases w <;> simp [Value.equals]
  | .bytes bs, w => by cases w <;> simp [Value.equals]
  | .date .., w => by cases w <;> simp [Value.equals, and_assoc]
  | .moment m, w => by cases w <;> simp [Value.equals]
  | .list xs, w => by cases w <;> simp [Value.equals, Value.equalsAll_iff xs]
  | .tuple xs, w => by cases w <;> simp [Value.equals, Value.equalsAll_iff xs]
  | .set xs, w => by cases w <;> simp [Value.equals, Value.equalsAll_iff xs]
  | .mapping ps, w => by cases w <;> simp [Value.equals, Value.equalsPairs_iff ps]
  | .labelled l v, w => by cases w <;> simp [Value.equals, Value.equals_iff v]
  | .again l k, w => by cases w <;> simp [Value.equals]

theorem Value.equalsAll_iff : ∀ vs ws : List Value, Value.equalsAll vs ws = true ↔ vs = ws
  | [], ws => by cases ws <;> simp [Value.equalsAll]
  | v :: vs, ws => by cases ws <;> simp [Value.equalsAll, Value.equals_iff v, Value.equalsAll_iff vs]

theorem Value.equalsPairs_iff : ∀ ps qs : List (Value × Value), Value.equalsPairs ps qs = true ↔ ps = qs
  | [], qs => by cases qs <;> simp [Value.equalsPairs]
  | (k, v) :: ps, qs => by
    rcases qs with _ | ⟨⟨k', v'⟩, qs⟩
    · simp [Value.equalsPairs]
    · simp [Value.equalsPairs, Value.equals_iff k, Value.equals_iff v, Value.equalsPairs_iff ps]

end

instance : DecidableEq Value := fun v w => decidable_of_iff _ (Value.equals_iff v w)

/-! ## 2. Times -/

/-- A number with zeros before it up to a width. -/
def padded (width n : Nat) : String :=
  let ds := Nat.toDigits 10 n
  String.ofList (List.replicate (width - ds.length) '0' ++ ds)

/-- Whether a year has a leap day. -/
def isLeapYear (y : Nat) : Bool := (y % 4 == 0 && y % 100 != 0) || y % 400 == 0

/-- The number of days in a month. -/
def daysIn (year month : Nat) : Nat :=
  if month == 2 then (if isLeapYear year then 29 else 28)
  else if [4, 6, 9, 11].contains month then 30 else 31

/-- Whether there is such a day; years run from 1 to 9999. -/
def isDate (year month day : Nat) : Bool :=
  1 ≤ year && year ≤ 9999 && 1 ≤ month && month ≤ 12 && 1 ≤ day && day ≤ daysIn year month

namespace Moment

/-- The number of days before a moment since the beginning of the calendar. -/
def daysBefore (m : Moment) : Nat :=
  (List.range (m.month - 1)).foldl (fun n i => n + daysIn m.year (i + 1))
    (daysBeforeYear m.year + m.day)

/-- The time in microseconds since the beginning of the calendar, at the place of the clock. -/
def clockTime (m : Moment) : Int :=
  (((m.daysBefore * 24 + m.hour) * 60 + m.minute) * 60 + m.second) * 1000000 + m.micro

/-- Whether two moments are one: clocks whose offset is known show the same universal time, others the
same time. -/
def same (m n : Moment) : Bool :=
  match m.offset, n.offset with
  | some p, some q => m.clockTime - p * 60000000 == n.clockTime - q * 60000000
  | none, none => m.clockTime == n.clockTime
  | _, _ => false

/-- The offset from universal time as `+hh:mm`. -/
def offsetText (minutes : Int) : String :=
  (if minutes < 0 then "-" else "+") ++ padded 2 (minutes.natAbs / 60) ++ ":"
    ++ padded 2 (minutes.natAbs % 60)

/-- Day and time with a blank between them. -/
protected def toString (m : Moment) : String :=
  s!"{padded 4 m.year}-{padded 2 m.month}-{padded 2 m.day} " ++
  s!"{padded 2 m.hour}:{padded 2 m.minute}:{padded 2 m.second}" ++
  (if m.micro == 0 then "" else "." ++ padded 6 m.micro) ++ (m.offset.map offsetText).getD ""

/-- The time zone that an offset makes, days and seconds apart. -/
def zoneShown (minutes : Int) : String :=
  if minutes == 0 then "datetime.timezone.utc"
  else
    let seconds := minutes * 60
    let days := seconds.fdiv 86400
    let rest := seconds.fmod 86400
    let fields := (if days == 0 then [] else [s!"days={days}"])
      ++ (if rest == 0 then [] else [s!"seconds={rest}"])
    "datetime.timezone(datetime.timedelta(" ++ ", ".intercalate fields ++ "))"

/-- The moment with its kind: seconds are left out if zero, and so are microseconds. -/
def shown (m : Moment) : String :=
  let base := [m.year, m.month, m.day, m.hour, m.minute]
  let more := if m.micro != 0 then [m.second, m.micro] else if m.second != 0 then [m.second] else []
  let zone := match m.offset with
    | none => []
    | some o => ["tzinfo=" ++ zoneShown o]
  "datetime.datetime(" ++ ", ".intercalate ((base ++ more).map toString ++ zone) ++ ")"

end Moment

namespace Value

/-! ## 3. The two texts -/

/-- Bytes between quotes: printable ASCII as it is, all else as escapes. -/
def bytesShown (bs : List UInt8) : String :=
  let quote := if bs.contains 39 && !bs.contains 34 then '"' else '\''
  let one := fun (b : UInt8) =>
    let c := Char.ofNat b.toNat
    if c == quote || c == '\\' then ['\\', c]
    else if c == '\t' then ['\\', 't']
    else if c == '\n' then ['\\', 'n']
    else if c == '\r' then ['\\', 'r']
    else if 32 ≤ b.toNat && b.toNat < 127 then [c]
    else '\\' :: 'x' :: hex 2 b.toNat
  String.ofList ('b' :: quote :: (bs.flatMap one ++ [quote]))

/-- The kind of a collection. -/
def kind : Value → CollectionKind
  | .tuple _ => .tuple
  | .mapping _ => .mapping
  | _ => .list

mutual

/-- The text of a value that shows its kind, inside collections with given labels. -/
def shownIn (labels : List Nat) : Value → String
  | .null => "None"
  | .bool b => if b then "True" else "False"
  | .int n => toString n
  | .float x => toString x
  | .text s => quoted s
  | .bytes bs => bytesShown bs
  | .date y m d => s!"datetime.date({y}, {m}, {d})"
  | .moment m => m.shown
  | .list xs => "[" ++ ", ".intercalate (shownAll labels xs) ++ "]"
  | .tuple [x] => "(" ++ shownIn labels x ++ ",)"
  | .tuple xs => "(" ++ ", ".intercalate (shownAll labels xs) ++ ")"
  | .set [] => "set()"
  | .set xs => "\x7b" ++ ", ".intercalate (shownAll labels xs) ++ "\x7d"
  | .mapping ps => "\x7b" ++ ", ".intercalate (shownPairs labels ps) ++ "\x7d"
  | .labelled l v => if labels.contains l then v.kind.ellipsis else shownIn (l :: labels) v
  | .again _ k => k.ellipsis

/-- The texts of the members of a list. -/
def shownAll (labels : List Nat) : List Value → List String
  | [] => []
  | x :: r => shownIn labels x :: shownAll labels r

/-- The texts of the members of a mapping. -/
def shownPairs (labels : List Nat) : List (Value × Value) → List String
  | [] => []
  | (k, v) :: r => (shownIn labels k ++ ": " ++ shownIn labels v) :: shownPairs labels r

end

/-- The text of a value that shows its kind. -/
def shown (v : Value) : String := v.shownIn []

mutual

/-- Whether all numbers in a value are short enough to be written. -/
def isWritable : Value → Bool
  | .int n => Text.isWritable n
  | .list xs => areWritable xs
  | .tuple xs => areWritable xs
  | .set xs => areWritable xs
  | .mapping ps => pairsWritable ps
  | .labelled _ v => isWritable v
  | _ => true

/-- Whether all numbers in values are short enough to be written. -/
def areWritable : List Value → Bool
  | [] => true
  | x :: r => isWritable x && areWritable r

/-- Whether all numbers in pairs are short enough to be written. -/
def pairsWritable : List (Value × Value) → Bool
  | [] => true
  | (k, v) :: r => isWritable k && isWritable v && pairsWritable r

end

/-- The plain text of a value: a text is itself. -/
def plain : Value → String
  | .text s => s
  | .date y m d => s!"{padded 4 y}-{padded 2 m}-{padded 2 d}"
  | .moment m => m.toString
  | v => v.shown

/-- The plain text of a value, unless a number in it is too long. -/
def written? (v : Value) : Option String := if v.isWritable then some v.plain else none

/-! ## 4. Collections inside themselves -/

mutual

/-- Puts a value in place of a label. -/
def putFor (label : Nat) (w : Value) : Value → Value
  | .list xs => .list (putForAll label w xs)
  | .tuple xs => .tuple (putForAll label w xs)
  | .mapping ps => .mapping (putForPairs label w ps)
  | .labelled l v => if l = label then .labelled l v else .labelled l (putFor label w v)
  | .again l k => if l = label then w else .again l k
  | v => v

/-- Puts a value in place of a label in values. -/
def putForAll (label : Nat) (w : Value) : List Value → List Value
  | [] => []
  | x :: r => putFor label w x :: putForAll label w r

/-- Puts a value in place of a label in pairs. -/
def putForPairs (label : Nat) (w : Value) : List (Value × Value) → List (Value × Value)
  | [] => []
  | (k, v) :: r => (k, putFor label w v) :: putForPairs label w r

end

/-- A value with the collection itself wherever a collection stands inside itself. -/
def opened : Value → Value
  | .labelled l v => putFor l (.labelled l v) v
  | v => v

/-! ## 5. Truth, equality, members -/

/-- Whether a value counts as true: zero and whatever is empty do not. -/
def isTrue : Value → Bool
  | .null => false
  | .bool b => b
  | .int n => n != 0
  | .float x => !x.isZero
  | .text s => !s.isEmpty
  | .bytes bs => !bs.isEmpty
  | .date .. => true
  | .moment .. => true
  | .list xs => !xs.isEmpty
  | .tuple xs => !xs.isEmpty
  | .set xs => !xs.isEmpty
  | .mapping ps => !ps.isEmpty
  | .labelled _ v => v.isTrue
  | .again .. => true

/-- The integer that a number or truth value equals, if it equals one. -/
def asInt? : Value → Option Int
  | .bool b => some (if b then 1 else 0)
  | .int n => some n
  | .float x => x.toInt?
  | _ => none

/-- Whether two scalars are the same key: numbers and truth values compare by value, and moments by
time. -/
def sameKey (a b : Value) : Bool :=
  match a.asInt?, b.asInt? with
  | some m, some n => m == n
  | some _, none => false
  | none, some _ => false
  | none, none => match a, b with
    | .float x, .float y => x.same y
    | .moment m, .moment n => m.same n
    | _, _ => a == b

/-- Puts a value under a key; a key that is there stays where it is, in its first spelling. -/
def putPair (k v : Value) : List (Value × Value) → List (Value × Value)
  | [] => [(k, v)]
  | (k', v') :: r => if k'.sameKey k then (k', v) :: r else (k', v') :: putPair k v r

/-- The value under a key that is a text. -/
def member? (ps : List (Value × Value)) (key : String) : Option Value :=
  (ps.find? fun p => p.1 == .text key).map (·.2)

/-- The value under a key that is a text, empty if there is none. -/
def member (ps : List (Value × Value)) (key : String) : Value := (member? ps key).getD .null

/-! ## 6. Words -/

/-- The words of a text in which commas separate as blanks do. -/
def listWords (s : String) : List String := Text.words (replaceChars (· == ',') ' ' s)

/-- Words in lower case, without blanks around them; what is empty is no word. -/
def lowerWords (ws : List String) : List String :=
  ws.filterMap fun w => let w := trim w; if w.isEmpty then none else some (lower w)

/-- The words of a text in lower case. -/
def textWords (s : String) : List String := lowerWords (listWords s)

/-- The words of a value in lower case: those of a text, those of all members of a list, and of any
other value its text as one word. Nothing is given where a number is too long to be written. -/
def words? (v : Value) : Option (List String) :=
  let ofMembers := fun (xs : List Value) =>
    (xs.mapM written?).map fun ts => lowerWords (ts.flatMap listWords)
  match v.opened with
  | .null => some []
  | .text s => some (textWords s)
  | .list xs => ofMembers xs
  | .tuple xs => ofMembers xs
  | .set xs => ofMembers xs
  | _ => v.written?.map fun t => lowerWords [t]

end Value

end NativeGlue.Data
