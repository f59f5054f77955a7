/-!
# Double-precision numbers

A number of the 64-bit binary format as a mantissa and an exponent, rounded in exact arithmetic on
natural numbers, and its shortest decimal text. Documents may hold such numbers where the generator
wants text, and then the text of the number is what counts.
-/

namespace NativeGlue.Data

/-! ## 1. Numbers -/

/-- A number of the format: `mantissa * 2 ^ exponent`, an infinity, or no number. -/
inductive Double where
  | finite (negative : Bool) (mantissa : Nat) (exponent : Int)
  | infinite (negative : Bool)
  | notANumber
  deriving DecidableEq, Repr, Inhabited

namespace Double

/-- `num / den` rounded to a natural number, a half to the even neighbour. -/
def divideToNearest (num den : Nat) : Nat :=
  let q := num / den
  let twice := 2 * (num % den)
  if den < twice || (twice == den && q % 2 == 1) then q + 1 else q

/-- `num * 2 ^ shift / den` as a fraction with natural parts. -/
def scaled (num den : Nat) (shift : Int) : Nat × Nat :=
  if 0 ≤ shift then (num * Nat.pow 2 shift.toNat, den) else (num, den * Nat.pow 2 (-shift).toNat)

/-- The exponent of the last bit of a number near `num / den`: 53 bits are kept, and none below
`2 ^ (-1074)`. -/
def lastBit (num den : Nat) : Int :=
  let guess : Int := (num.log2 : Int) - den.log2
  let (a, b) := scaled num den (-guess)
  max ((if a < b then guess - 1 else guess) - 52) (-1074)

/-- The number of the format nearest to `num / den`. -/
def ofRatio (negative : Bool) (num den : Nat) : Double :=
  if num = 0 then .finite negative 0 (-1074)
  else
    let e := lastBit num den
    let (a, b) := scaled num den (-e)
    let m := divideToNearest a b
    let (m, e) := if m = Nat.pow 2 53 then (Nat.pow 2 52, e + 1) else (m, e)
    if 971 < e then .infinite negative else .finite negative m e

/-- The number of the format nearest to `digits * 10 ^ exponent`. -/
def ofDecimal (negative : Bool) (digits : Nat) (exponent : Int) : Double :=
  if digits = 0 then .finite negative 0 (-1074)
  else
    let size : Int := (Nat.toDigits 10 digits).length
    if 400 < size + exponent then .infinite negative
    else if size + exponent < -400 then .finite negative 0 (-1074)
    else if 0 ≤ exponent then ofRatio negative (digits * Nat.pow 10 exponent.toNat) 1
    else ofRatio negative digits (Nat.pow 10 (-exponent).toNat)

/-- The fraction that a finite number stands for, without its sign. -/
def ratio (mantissa : Nat) (exponent : Int) : Nat × Nat := scaled mantissa 1 exponent

/-- A natural number with a sign. -/
def signed (negative : Bool) (n : Nat) : Int := if negative then -n else n

/-- The nearest number to the sum of two numbers. A sum of nothing is negative if both numbers are. -/
def add : Double → Double → Double
  | .finite s m e, .finite t n f =>
    let (a, b) := ratio m e
    let (c, d) := ratio n f
    let sum := signed s (a * d) + signed t (c * b)
    ofRatio (if sum = 0 then s && t else sum < 0) sum.natAbs (b * d)
  | .infinite s, .infinite t => if s = t then .infinite s else .notANumber
  | .infinite s, .finite .. => .infinite s
  | .finite .., .infinite t => .infinite t
  | _, _ => .notANumber

/-- The nearest number to the product of two numbers. -/
def mul : Double → Double → Double
  | .finite s m e, .finite t n f =>
    let (a, b) := ratio m e
    let (c, d) := ratio n f
    ofRatio (s != t) (a * c) (b * d)
  | .infinite s, .infinite t => .infinite (s != t)
  | .infinite s, .finite t n _ => if n = 0 then .notANumber else .infinite (s != t)
  | .finite s m _, .infinite t => if m = 0 then .notANumber else .infinite (s != t)
  | _, _ => .notANumber

/-- The number nearest to a natural number, unless that is too large. -/
def ofNat? (n : Nat) : Option Double :=
  match ofRatio false n 1 with
  | .infinite _ => none
  | x => some x

/-- The number with the opposite sign. -/
def negate : Double → Double
  | .finite s m e => .finite (!s) m e
  | .infinite s => .infinite (!s)
  | .notANumber => .notANumber

/-- Whether a number is zero, of either sign. -/
def isZero : Double → Bool
  | .finite _ m _ => m == 0
  | _ => false

/-- The integer that a number is, if it is one. -/
def toInt? : Double → Option Int
  | .finite s m e =>
    let (a, b) := ratio m e
    if a % b = 0 then some (if s then -((a / b : Nat) : Int) else (a / b : Nat)) else none
  | _ => none

/-- Whether two numbers are one: zeros of both signs are. -/
def same (x y : Double) : Bool := x == y || (x.isZero && y.isZero)

/-! ## 2. The shortest text -/

/-- The fraction `num / den` in units of `10 ^ place`. -/
def inUnits (num den : Nat) (place : Int) : Nat × Nat :=
  if 0 ≤ place then (num, den * Nat.pow 10 place.toNat) else (num * Nat.pow 10 (-place).toNat, den)

/-- How many digits stand before the point in `num / den`; negative if zeros follow the point. -/
def wholeDigits (num den : Nat) : Int :=
  let guess : Int := (((num.log2 : Int) - den.log2) * 30103).fdiv 100000 + 1
  let fits := fun (p : Int) => let (a, b) := inUnits num den p; decide (a < b)
  if fits (guess - 1) then guess - 1 else if fits guess then guess
  else if fits (guess + 1) then guess + 1 else guess + 2

/-- The multiple of `10 ^ place` nearest to the number that still rounds to it. -/
def nearestOnGrid? (mantissa : Nat) (exponent place : Int) : Option Nat :=
  let (a, b) := ratio mantissa exponent
  let (num, den) := inUnits a b place
  let atPower := mantissa = Nat.pow 2 52 ∧ -1074 < exponent
  -- The interval of the numbers that round to this one, in quarters of the last bit.
  let (low, high) := if atPower then (4 * mantissa - 1, 4 * mantissa + 2)
    else (4 * mantissa - 2, 4 * mantissa + 2)
  let inside := fun (k : Nat) =>
    -- `k * den / num` is the candidate as a multiple of the number.
    let c := 4 * mantissa * (k * den)
    if mantissa % 2 = 0 then low * num ≤ c ∧ c ≤ high * num else low * num < c ∧ c < high * num
  let k := num / den
  let k' := divideToNearest num den
  let other := if k' = k then k + 1 else k
  if inside k' then some k' else if inside other then some other else none

/-- Searches the grids from the coarse to the fine one for the first that has a hit. -/
def shortestFrom (mantissa : Nat) (exponent whole : Int) : Nat → Nat → Nat × Int
  | 0, n => (((nearestOnGrid? mantissa exponent (whole - n)).getD 0), whole - n)
  | fuel + 1, n =>
    match nearestOnGrid? mantissa exponent (whole - n) with
    | some k => if k = 0 then shortestFrom mantissa exponent whole fuel (n + 1) else (k, whole - n)
    | none => shortestFrom mantissa exponent whole fuel (n + 1)

/-- The fewest digits that read back as the number, and the power of ten they count. -/
def shortest (mantissa : Nat) (exponent : Int) : Nat × Int :=
  let (a, b) := ratio mantissa exponent
  shortestFrom mantissa exponent (wholeDigits a b) 17 1

/-- Digits without the zeros at their end, and how many those were. -/
def dropZeros (ds : List Char) : List Char × Nat :=
  let kept := (ds.reverse.dropWhile (· == '0')).reverse
  (kept, ds.length - kept.length)

/-- The text of a finite number without its sign: positional from `0.0001` up to sixteen digits
before the point, else with an exponent of at least two digits. -/
def magnitudeText (mantissa : Nat) (exponent : Int) : String :=
  if mantissa = 0 then "0.0"
  else
    let (k, place) := shortest mantissa exponent
    let (ds, zeros) := dropZeros (Nat.toDigits 10 k)
    let point : Int := ds.length + zeros + place
    if -4 < point ∧ point ≤ 16 then
      if point ≤ 0 then "0." ++ String.ofList (List.replicate (-point).toNat '0' ++ ds)
      else if ds.length ≤ point.toNat then
        String.ofList (ds ++ List.replicate (point.toNat - ds.length) '0') ++ ".0"
      else String.ofList (ds.take point.toNat) ++ "." ++ String.ofList (ds.drop point.toNat)
    else
      let e := point - 1
      let es := Nat.toDigits 10 e.natAbs
      let es := if es.length < 2 then '0' :: es else es
      let tail := if ds.tail.isEmpty then "" else "." ++ String.ofList ds.tail
      String.ofList (ds.take 1) ++ tail ++ (if e < 0 then "e-" else "e+") ++ String.ofList es

/-- The text of a number: the shortest that reads back as it. -/
protected def toString : Double → String
  | .finite s m e => (if s then "-" else "") ++ magnitudeText m e
  | .infinite s => if s then "-inf" else "inf"
  | .notANumber => "nan"

instance : ToString Double := ⟨Double.toString⟩

end Double

end NativeGlue.Data
