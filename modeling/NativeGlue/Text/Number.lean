import NativeGlue.Text.Blank
import NativeGlue.Text.Letters

/-!
# Integers as people write them

Reading integers from free text: blanks around the number, a sign, single underscores between
digits, decimal digits of any script, and on request the base prefixes `0x`, `0o` and `0b`, in which
case a decimal number other than zero does not begin with a zero. A decimal number of more than 4300
digits is neither read nor written.
-/

namespace NativeGlue.Text

/-- The greatest number of digits that a decimal number is read or written with. -/
def maxDecimalDigits : Nat := 4300

/-- The least number that is too long to be written. -/
def unwritable : Nat := Nat.pow 10 maxDecimalDigits

/-- Whether a number is short enough to be written. -/
def isWritable (n : Int) : Bool := decide (n.natAbs < unwritable)

/-- The value of a digit in a base up to 36, in ASCII. -/
def digitValue? (base : Nat) (c : Char) : Option Nat :=
  let value :=
    if c.isDigit then some (c.toNat - 48)
    else if 'a' ≤ c ∧ c ≤ 'z' then some (c.toNat - 87)
    else if 'A' ≤ c ∧ c ≤ 'Z' then some (c.toNat - 55)
    else none
  value.filter (· < base)

/-- A decimal digit of any script as its ASCII twin, any other character as it is. -/
def toAsciiDigit (c : Char) : Char := ((decimalDigit? c).map (Char.ofNat <| 48 + ·)).getD c

/-- Digits with single underscores between them; `due` tells that a digit has to follow. -/
def digitsFrom (base : Nat) : Bool → List Char → Option (List Nat)
  | due, [] => if due then none else some []
  | due, '_' :: r => if due then none else digitsFrom base true r
  | _, c :: r => do
    let d ← digitValue? base c
    let ds ← digitsFrom base false r
    pure (d :: ds)

/-- The number that digits stand for, the most significant first. -/
def ofDigits (base : Nat) (ds : List Nat) : Nat := ds.foldl (fun n d => base * n + d) 0

/-- An unsigned number in a base. -/
def readNat? (base : Nat) (s : List Char) : Option Nat := do
  let ds ← digitsFrom base true s
  if base == 10 && maxDecimalDigits < ds.length then none else some (ofDigits base ds)

/-- The digits of a number behind its base prefix; one underscore may follow the prefix. -/
def afterPrefix (base : Nat) : List Char → Option Nat
  | '_' :: r => readNat? base r
  | r => readNat? base r

/-- An unsigned number that names its base by a prefix; without one it is decimal, and then a zero
begins it only if it is zero. -/
def readPrefixed? (s : List Char) : Option Nat :=
  match s with
  | '0' :: x :: r =>
    if x == 'x' || x == 'X' then afterPrefix 16 r
    else if x == 'o' || x == 'O' then afterPrefix 8 r
    else if x == 'b' || x == 'B' then afterPrefix 2 r
    else (readNat? 10 s).filter (· == 0)
  | _ => readNat? 10 s

/-- The letter that follows a zero in the prefix of a base. -/
def prefixLetter? : Nat → Option Char
  | 2 => some 'b'
  | 8 => some 'o'
  | 16 => some 'x'
  | _ => none

/-- An unsigned number in a base; the prefix of the base may stand before its digits. -/
def readInBase? (base : Nat) (s : List Char) : Option Nat :=
  match s with
  | '0' :: x :: r => if prefixLetter? base = some x.toLower then afterPrefix base r else readNat? base s
  | _ => readNat? base s

/-- A number with an optional sign before it. -/
def readSigned? (read : List Char → Option Nat) : List Char → Option Int
  | '-' :: r => (read r).map fun n => -(n : Int)
  | '+' :: r => (read r).map Int.ofNat
  | r => (read r).map Int.ofNat

/-- The text of a number, its digits in ASCII, without the blanks around it. Here the ASCII
information separators are no blanks. -/
def numberText (s : String) : List Char :=
  (trimOf (fun c => isBlank c && !(28 ≤ c.toNat && c.toNat ≤ 31)) s.toList).map toAsciiDigit

/-- An integer in a base. -/
def readIntIn? (base : Nat) (s : String) : Option Int := readSigned? (readInBase? base) (numberText s)

/-- A decimal integer. -/
def readInt? (s : String) : Option Int := readIntIn? 10 s

/-- An integer, decimal or with a base prefix. -/
def readIntLiteral? (s : String) : Option Int := readSigned? readPrefixed? (numberText s)

end NativeGlue.Text
