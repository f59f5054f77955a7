import NativeGlue.Text.Letters

/-!
# Quoted text

Text shown between quotes in a message: single quotes unless the text holds single quotes and no
double ones. A quote of the chosen kind and the backslash are escaped, and so are characters that do
not show.
-/

namespace NativeGlue.Text

/-- The hexadecimal digits of a number, lower case, at least `width` of them. -/
def hex (width n : Nat) : List Char :=
  let ds := Nat.toDigits 16 n
  List.replicate (width - ds.length) '0' ++ ds

/-- A character inside quotes. -/
def quotedChar (quote c : Char) : List Char :=
  if c == quote || c == '\\' then ['\\', c]
  else if c == '\t' then ['\\', 't']
  else if c == '\n' then ['\\', 'n']
  else if c == '\r' then ['\\', 'r']
  else if isPrintable c then [c]
  else if c.toNat < 0x100 then '\\' :: 'x' :: hex 2 c.toNat
  else if c.toNat < 0x10000 then '\\' :: 'u' :: hex 4 c.toNat
  else '\\' :: 'U' :: hex 8 c.toNat

/-- The quote for a text, by whether it holds single and double ones. -/
def quoteFor (single double : Bool) : Char := if single && !double then '"' else '\''

/-- A text between quotes. -/
def quoted (s : String) : String :=
  let cs := s.toList
  let quote := quoteFor (cs.contains '\'') (cs.contains '"')
  String.ofList (quote :: (cs.flatMap (quotedChar quote) ++ [quote]))

end NativeGlue.Text
