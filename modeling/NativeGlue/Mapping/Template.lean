import NativeGlue.Mapping.Facet

/-!
# Code templates

A template is C text with holes in braces, each hole naming what goes there; a doubled brace is a
brace. Mapping rules come from outside too, so a template may use all that the notation of holes
offers: a path behind the name, a conversion, and a layout of width, alignment and length. Reading a
template (`pieces`) never fails: what is wrong stands in the list as a piece of its own and fails only
when the template is filled, after all holes before it.
-/

namespace NativeGlue.Template

open NativeGlue.Text

/-! ## 1. Reading -/

/-- A part of a template: text, a hole, or a place where the notation is broken. -/
inductive Piece where
  | literal (s : List Char)
  | hole (name : List Char) (conversion : Option Char) (layout : List Char)
  | broken
  deriving DecidableEq, Repr

/-- The name of a hole: up to a colon, an exclamation mark or the closing brace, brackets taken
whole. The character that ends it comes back with the rest. -/
def readName (bracket : Bool) : List Char → Option (List Char × Char × List Char)
  | [] => none
  | c :: r =>
    let more := fun b => (readName b r).map fun (n, e, rest) => (c :: n, e, rest)
    if bracket then more (c != ']')
    else if c == '[' then more true
    else if c == '\x7b' then none
    else if c == '\x7d' || c == ':' || c == '!' then some ([], c, r)
    else more false

/-- The layout of a hole: up to the closing brace that matches. -/
def readLayout : Nat → List Char → Option (List Char × List Char)
  | _, [] => none
  | depth, c :: r =>
    let more := fun d => (readLayout d r).map fun (l, rest) => (c :: l, rest)
    if c == '\x7b' then more (depth + 1)
    else if c == '\x7d' then (match depth with | 0 => some ([], r) | d + 1 => more d)
    else more depth

/-- A hole behind its opening brace, and the rest. -/
def readHole (s : List Char) : Option (Piece × List Char) := do
  let (name, stop, r) ← readName false s
  if stop == '\x7d' then pure (.hole name none [], r)
  else if stop == ':' then
    let (layout, r) ← readLayout 0 r
    pure (.hole name none layout, r)
  else match r with
    | c :: '\x7d' :: r => pure (.hole name (some c) [], r)
    | c :: ':' :: r => do
      let (layout, r) ← readLayout 0 r
      pure (.hole name (some c) layout, r)
    | _ => none

/-- Puts a character in front of a list of pieces. -/
def consChar (c : Char) : List Piece → List Piece
  | .literal s :: r => .literal (c :: s) :: r
  | r => .literal [c] :: r

/-- The pieces of a template; the number bounds how many are read. -/
def piecesFrom : Nat → List Char → List Piece
  | 0, _ => []
  | _, [] => []
  | n + 1, '\x7b' :: '\x7b' :: r => consChar '\x7b' (piecesFrom n r)
  | n + 1, '\x7d' :: '\x7d' :: r => consChar '\x7d' (piecesFrom n r)
  | _ + 1, '\x7d' :: _ => [.broken]
  | n + 1, '\x7b' :: r =>
    match readHole r with
    | none => [.broken]
    | some (p, r) => p :: piecesFrom n r
  | n + 1, c :: r => consChar c (piecesFrom n r)

/-- The pieces of a template. -/
def pieces (s : List Char) : List Piece := piecesFrom s.length s

/-! ## 2. Filling -/

/-- Why a template cannot be filled. -/
inductive Fault where
  /-- The notation is broken. -/
  | malformed
  /-- A hole names nothing that is known. -/
  | unknownName
  /-- A hole asks for a value, a character or a kind by a position that is not there. -/
  | noSuchPosition
  /-- A hole asks for a part by a name that nothing has there. -/
  | noSuchPart
  /-- A hole asks for a position by something that is none, or of what has no positions. -/
  | notAPosition
  /-- A layout is asked of what is no text. -/
  | noLayout
  deriving DecidableEq, Repr, Inhabited

/-- The largest number that a template may hold. -/
def maxLength : Nat := 0x7fffffffffffffff

/-- The number that a text of digits alone is. -/
def position? (s : List Char) : Option Nat :=
  if s.isEmpty then none else (s.mapM decimalDigit?).map (ofDigits 10)

/-- What a facet has at a position. -/
def Facet.element (f : Facet) (i : Nat) : Except Fault Facet :=
  match f with
  | .text s => match s[i]? with
    | none => .error .noSuchPosition
    | some c => .ok (.text [c])
  | .row ks => match ks[i]? with
    | none => .error .noSuchPosition
    | some k => .ok (.kind k)
  | _ => .error .notAPosition

/-- Whether a character begins the next step of a path. -/
def beginsStep (c : Char) : Bool := c == '.' || c == '['

/-- Follows the path behind the name of a hole: a point asks for a part by its name, brackets ask
for what stands at a position. The number bounds the steps. -/
def follow : Nat → Facet → List Char → Except Fault Facet
  | 0, _, _ => .error .malformed
  | _, f, [] => .ok f
  | n + 1, f, '.' :: r =>
    let name := r.takeWhile (!beginsStep ·)
    if name.isEmpty then .error .malformed
    else match f.part? (String.ofList name) with
      | none => .error .noSuchPart
      | some g => follow n g (r.drop name.length)
  | n + 1, f, '[' :: r =>
    let index := r.takeWhile (· != ']')
    if r.length == index.length || index.isEmpty then .error .malformed
    else match position? index with
      | none => .error .notAPosition
      | some i =>
        if maxLength < i then .error .malformed
        else do follow n (← f.element i) (r.drop (index.length + 1))
  | _, _, _ => .error .malformed

/-- What a hole names. -/
def facetOf (values : List (String × String)) (name : List Char) : Except Fault Facet :=
  let first := name.takeWhile (!beginsStep ·)
  if first.isEmpty then .error .noSuchPosition
  else if let some n := position? first then
    .error (if maxLength < n then .malformed else .noSuchPosition)
  else match values.lookup (String.ofList first) with
    | none => .error .unknownName
    | some v => follow (name.length + 1) (.ofString v) (name.drop first.length)

/-- The text of a facet as source code writes it: quoted if it is a text. -/
def Facet.quoted : Facet → List Char
  | .text s => (Text.quoted (String.ofList s)).toList
  | f => f.shown.toList

/-- A character of a quoted text in ASCII alone. -/
def escapedChar (c : Char) : List Char :=
  if c.toNat < 128 then [c]
  else if c.toNat < 0x100 then '\\' :: 'x' :: hex 2 c.toNat
  else if c.toNat < 0x10000 then '\\' :: 'u' :: hex 4 c.toNat
  else '\\' :: 'U' :: hex 8 c.toNat

/-- A facet as a conversion asks for it. -/
def convert (f : Facet) : Option Char → Except Fault Facet
  | none => .ok f
  | some 's' => .ok (.ofString f.shown)
  | some 'r' => .ok (.text f.quoted)
  | some 'a' => .ok (.text (f.quoted.flatMap escapedChar))
  | some _ => .error .malformed

/-- The characters that align. -/
def alignments : List Char := ['<', '>', '^', '=']

/-- The fill character where none stands before the alignment: a zero, if the width begins with one,
and else a space. -/
def readFill (align : Char) : List Char → Char × Char × List Char
  | '0' :: r => ('0', align, r)
  | r => (' ', align, r)

/-- Fill character and alignment at the beginning of a layout, and the rest. -/
def readAlignment : List Char → Char × Char × List Char
  | f :: a :: r =>
    if alignments.contains a then (f, a, r)
    else if alignments.contains f then readFill f (a :: r)
    else readFill '<' (f :: a :: r)
  | [f] => if alignments.contains f then (' ', f, []) else readFill '<' [f]
  | [] => (' ', '<', [])

/-- A number at the beginning of a text, if there is one, and the rest. -/
def leadingNat? (s : List Char) : Option Nat × List Char :=
  let ds := s.takeWhile fun c => (decimalDigit? c).isSome
  (position? ds, s.drop ds.length)

/-- A text laid out: cut to a length, then filled up to a width. -/
def layOut (value layout : List Char) : Except Fault (List Char) :=
  if layout.isEmpty then .ok value
  else
    let (fill, align, r) := readAlignment layout
    let (width, r) := leadingNat? r
    let (cut, r) := match r with
      | '.' :: r => let (n, r') := leadingNat? r; (some n, r')
      | r => (none, r)
    let value := match cut with
      | some (some n) => value.take n
      | _ => value
    if cut == some none || !(r.isEmpty || r == ['s']) || align == '=' || maxLength < width.getD 0
        || maxLength < (cut.join).getD 0 then .error .malformed
    else
      let missing := width.getD 0 - value.length
      let left := if align == '>' then missing else if align == '^' then missing / 2 else 0
      .ok (List.replicate left fill ++ value ++ List.replicate (missing - left) fill)

/-- A facet laid out; only texts have layouts. -/
def Facet.layOut : Facet → List Char → Except Fault (List Char)
  | .text s, layout => Template.layOut s layout
  | f, layout => if layout.isEmpty then .ok f.shown.toList else .error .noLayout

/-- Fills the holes of a template from left to right, given how the holes in layouts are filled, if
there may be any holes at all. -/
def fillHoles (values : List (String × String))
    (inner : Option (List Piece → Except Fault (List Char))) : List Piece → Except Fault (List Char)
  | [] => .ok []
  | .literal s :: r => (fillHoles values inner r).map (s ++ ·)
  | .broken :: _ => .error .malformed
  | .hole name conversion layout :: r =>
    match inner with
    | none => .error .malformed
    | some fillLayout => do
      let facet ← facetOf values name
      let facet ← convert facet conversion
      let layout ← if layout.contains '\x7b' then fillLayout (pieces layout) else pure layout
      let text ← facet.layOut layout
      (fillHoles values inner r).map (text ++ ·)

/-- Fills the holes of a template; the number bounds how deep layouts may hold holes of their own. -/
def fillPieces (values : List (String × String)) : Nat → List Piece → Except Fault (List Char)
  | 0 => fillHoles values none
  | depth + 1 => fillHoles values (some (fillPieces values depth))

/-- A template with its holes filled. -/
def fill (values : List (String × String)) (template : String) : Except Fault String :=
  (fillPieces values 2 (pieces template.toList)).map String.ofList

end NativeGlue.Template
