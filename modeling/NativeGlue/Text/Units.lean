/-!
# UTF-16 code units

Text as the sequence of 16-bit units that a virtual machine stores. A character beyond `ffff` takes
two units, a high and a low surrogate. Units read back into text only if every surrogate is paired
(`toText?`).
-/

namespace NativeGlue.Text.Units

/-- The units of a code point. -/
def ofCodePoint (n : Nat) : List Nat :=
  if n < 0x10000 then [n] else [0xd800 + (n - 0x10000) / 0x400, 0xdc00 + (n - 0x10000) % 0x400]

/-- The units of a text. -/
def ofText (s : List Char) : List Nat := s.flatMap fun c => ofCodePoint c.toNat

/-- A unit that begins a pair. -/
def isHigh (n : Nat) : Bool := 0xd800 ≤ n && n < 0xdc00

/-- A unit that ends a pair. -/
def isLow (n : Nat) : Bool := 0xdc00 ≤ n && n < 0xe000

/-- The text that units spell, unless a surrogate stands alone. -/
def toText? : List Nat → Option (List Char)
  | [] => some []
  | h :: l :: r =>
    if isHigh h && isLow l then
      (toText? r).map (Char.ofNat (0x10000 + (h - 0xd800) * 0x400 + (l - 0xdc00)) :: ·)
    else if isHigh h || isLow h then none
    else (toText? (l :: r)).map (Char.ofNat h :: ·)
  | [n] => if isHigh n || isLow n then none else some [Char.ofNat n]

end NativeGlue.Text.Units
