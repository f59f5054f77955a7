/-!
# Bytes read as text

Reading UTF-8 without ever failing: each maximal ill-formed part of a byte sequence becomes one
replacement character. A part is the longest run of bytes that begins a well-formed character, or a
single byte that begins none.
-/

namespace NativeGlue.Text

/-- The character that stands for bytes that are no text. -/
def replacement : Char := Char.ofNat 0xfffd

/-- What the first byte of a character promises: how many bytes follow, the bits it contributes, and
the range in which the next byte has to lie. Later bytes lie between `80` and `bf`. -/
def leadByte? (b : UInt8) : Option (Nat × Nat × Nat × Nat) :=
  let n := b.toNat
  if n < 0x80 then some (0, n, 0, 0)
  else if 0xc2 ≤ n ∧ n ≤ 0xdf then some (1, n - 0xc0, 0x80, 0xbf)
  else if n = 0xe0 then some (2, 0, 0xa0, 0xbf)
  else if n = 0xed then some (2, 13, 0x80, 0x9f)
  else if 0xe1 ≤ n ∧ n ≤ 0xef then some (2, n - 0xe0, 0x80, 0xbf)
  else if n = 0xf0 then some (3, 0, 0x90, 0xbf)
  else if n = 0xf4 then some (3, 4, 0x80, 0x8f)
  else if 0xf1 ≤ n ∧ n ≤ 0xf3 then some (3, n - 0xf0, 0x80, 0xbf)
  else none

/-- Where the reading of a character stands: the bytes read and still owed, the bits so far, and the
range of the next byte. -/
structure Pending where
  read : Nat
  owed : Nat
  bits : Nat
  low : Nat
  high : Nat

/-- Reads bytes as characters, each with the number of its bytes; `pending` is the character being
read. A byte that does not continue it ends it with a replacement character and is then read on its
own. -/
def decodeFrom : Option Pending → List UInt8 → List (Char × Nat)
  | none, [] => []
  | some p, [] => [(replacement, p.read)]
  | some p, b :: r =>
    if p.low ≤ b.toNat ∧ b.toNat ≤ p.high then
      let bits := p.bits * 64 + (b.toNat - 0x80)
      if p.owed ≤ 1 then (Char.ofNat bits, p.read + 1) :: decodeFrom none r
      else decodeFrom (some ⟨p.read + 1, p.owed - 1, bits, 0x80, 0xbf⟩) r
    else (replacement, p.read) :: start b r
  | none, b :: r => start b r
where
  /-- Reads on at a byte that begins a character. -/
  start (b : UInt8) (r : List UInt8) : List (Char × Nat) :=
    match leadByte? b with
    | none => (replacement, 1) :: decodeFrom none r
    | some (0, bits, _, _) => (Char.ofNat bits, 1) :: decodeFrom none r
    | some (owed, bits, low, high) => decodeFrom (some ⟨1, owed, bits, low, high⟩) r

/-- The characters of a byte sequence with the numbers of their bytes, ill-formed parts replaced. -/
def charsOf (bytes : ByteArray) : List (Char × Nat) :=
  match String.fromUTF8? bytes with
  | some s => s.toList.map fun c => (c, c.utf8Size)
  | none => decodeFrom none bytes.toList

/-- The text of a byte sequence, ill-formed parts replaced. -/
def decodeLossy (bytes : ByteArray) : String :=
  match String.fromUTF8? bytes with
  | some s => s
  | none => String.ofList ((decodeFrom none bytes.toList).map (·.1))

/-- Text with every kind of line end (`\r\n`, `\r`, `\n`) turned into a line feed. -/
def unifyLineEnds : List Char → List Char
  | [] => []
  | '\r' :: '\n' :: r => '\n' :: unifyLineEnds r
  | '\r' :: r => '\n' :: unifyLineEnds r
  | c :: r => c :: unifyLineEnds r

/-- A byte sequence as text with unified line ends, if it is well-formed UTF-8. -/
def decodeText? (bytes : ByteArray) : Option String :=
  (String.fromUTF8? bytes).map fun s => String.ofList (unifyLineEnds s.toList)

theorem not_mem_unifyLineEnds (s : List Char) : '\r' ∉ unifyLineEnds s := by
  fun_induction unifyLineEnds s <;> simp_all [eq_comm]

end NativeGlue.Text
