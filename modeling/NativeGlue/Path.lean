import NativeGlue.Text.Substring

/-!
# Paths

A path as a list of names below an anchor. Empty names and `.` say nothing and are dropped when a
path is read; `..` stays, since what it means depends on the tree. So two texts that differ only in
such parts are one path, and `ofString` after `toString` changes nothing that the type can show.
-/

namespace NativeGlue

/-- Where a path starts: at the working directory, at the root, or at a root written with exactly
two slashes, which systems may treat as a place of its own. -/
inductive Anchor where
  | here
  | root
  | doubleRoot
  deriving DecidableEq, Repr, Inhabited

/-- A path: names below an anchor. -/
structure Path where
  anchor : Anchor
  parts : List String
  deriving DecidableEq, Repr, Inhabited

namespace Path

/-- The anchor that a text begins with. -/
def anchorOf : List Char → Anchor
  | '/' :: '/' :: '/' :: _ => .root
  | '/' :: '/' :: _ => .doubleRoot
  | '/' :: _ => .root
  | _ => .here

/-- Reads a path. -/
def ofString (s : String) : Path :=
  ⟨anchorOf s.toList, (Text.splitAt '/' s).filter fun p => p != "" && p != "."⟩

instance : Coe String Path := ⟨ofString⟩

/-- The text of an anchor. -/
def anchorText : Anchor → String
  | .here => ""
  | .root => "/"
  | .doubleRoot => "//"

/-- The names of a path with slashes between them, behind its anchor; `.` for the empty path. -/
protected def toString (p : Path) : String :=
  let s := anchorText p.anchor ++ "/".intercalate p.parts
  if s == "" then "." else s

instance : ToString Path := ⟨Path.toString⟩

/-- Whether a path says by itself where it starts. -/
def isAbsolute (p : Path) : Bool := p.anchor != .here

/-- A path read from another one. An absolute path stands by itself. -/
def join (p q : Path) : Path := if q.isAbsolute then q else ⟨p.anchor, p.parts ++ q.parts⟩

instance : HDiv Path Path Path := ⟨join⟩
instance : HDiv Path String Path := ⟨fun p s => join p (ofString s)⟩

/-- Whether a path can be the name of anything: no name holds the character with the code zero. -/
def isNameable (p : Path) : Bool := p.parts.all fun n => !n.toList.contains (Char.ofNat 0)

/-- The last name of a path, empty if it has none. -/
def name (p : Path) : String := p.parts.getLast?.getD ""

/-- The path without its last name. -/
def parent (p : Path) : Path := { p with parts := p.parts.dropLast }

/-- The path with another last name. -/
def withName (p : Path) (name : String) : Path := { p with parts := p.parts.dropLast ++ [name] }

/-- A name cut at its last dot, if the dot stands inside it. -/
def splitName (name : String) : String × String :=
  let r := name.toList.reverse
  let tail := r.takeWhile (· != '.')
  let head := (r.drop (tail.length + 1)).reverse
  if tail.length < r.length && !tail.isEmpty && !head.isEmpty then
    (String.ofList head, String.ofList ('.' :: tail.reverse))
  else (name, "")

/-- The last name without what follows its last dot. -/
def stem (p : Path) : String := (splitName p.name).1

/-- The last dot of the last name and what follows it. -/
def suffix (p : Path) : String := (splitName p.name).2

/-- Paths in order: name by name, the anchor first. -/
def keyOf (p : Path) : List String :=
  match p.anchor with
  | .here => p.parts
  | a => anchorText a :: p.parts

@[simp] theorem join_absolute {p q : Path} (h : q.isAbsolute = true) : p.join q = q := by
  simp [join, h]

@[simp] theorem withName_parent (p : Path) (n : String) : (p.withName n).parent = p.parent := by
  simp [withName, parent]

end Path

end NativeGlue
