import NativeGlue.Text.Quoted
import NativeGlue.Text.Units

/-!
# Texts as code points

A text as its code points. Unlike a `String` it may hold surrogates that stand alone, as a text does
that was put together from 16-bit units. Every `String` is such a text (`CodePoints.ofString`), and a
text without surrogates is read back as the `String` it came from (`toText_ofString`).
-/

namespace NativeGlue.Text

/-- A text as its code points. -/
structure CodePoints where
  points : List Nat
  deriving DecidableEq, Repr, Inhabited

namespace CodePoints

/-- The code points of characters. -/
def ofChars (cs : List Char) : CodePoints := ⟨cs.map Char.toNat⟩

/-- The code points of a text. -/
def ofString (s : String) : CodePoints := ofChars s.toList

instance : Coe String CodePoints := ⟨ofString⟩

/-- The character of a code point, a replacement character for a surrogate. -/
def charOf (n : Nat) : Char := if n.isValidChar then Char.ofNat n else Char.ofNat 0xfffd

theorem charOf_toNat (c : Char) : charOf c.toNat = c := by
  have h : c.toNat.isValidChar := c.valid
  rw [charOf, if_pos h, Char.ofNat_toNat]

/-- The text, with a replacement character for every surrogate. -/
def toText (t : CodePoints) : String := String.ofList (t.points.map charOf)

instance : ToString CodePoints := ⟨toText⟩

theorem toText_ofString (s : String) : (ofString s).toText = s := by
  rw [toText, ofString, ofChars, List.map_map, show charOf ∘ Char.toNat = id from funext charOf_toNat,
    List.map_id, String.ofList_toList]

/-- Whether code points come no later than others in order. -/
def pointsPrecede : List Nat → List Nat → Bool
  | [], _ => true
  | _ :: _, [] => false
  | a :: r, b :: s => if a = b then pointsPrecede r s else decide (a < b)

/-- Whether a text comes no later than another one in order of the code points. -/
def precedes (s t : CodePoints) : Bool := pointsPrecede s.points t.points

/-- A code point inside quotes. -/
def quotedPoint (quote : Char) (n : Nat) : List Char :=
  if n.isValidChar then quotedChar quote (Char.ofNat n) else '\\' :: 'u' :: hex 4 n

/-- The text between quotes. -/
def quoted (t : CodePoints) : String :=
  let quote := quoteFor (t.points.contains '\''.toNat) (t.points.contains '"'.toNat)
  String.ofList (quote :: (t.points.flatMap (quotedPoint quote) ++ [quote]))

end CodePoints

end NativeGlue.Text
