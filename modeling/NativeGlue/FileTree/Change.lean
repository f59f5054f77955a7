import NativeGlue.FileTree

/-!
# What makes one tree of another

The changes that turn a tree into another one, in an order in which they can be carried out: what is
gone is removed first, and the rest is made in the order in which it came into the tree.
-/

namespace NativeGlue.FileTree

/-- A change of a tree. -/
inductive Change where
  | remove (place : Place)
  | makeDirectory (place : Place)
  | writeFile (place : Place) (bytes : ByteArray)

/-- What has to be removed from a tree to get to another one. -/
def removals (before after : FileTree) : List Change :=
  (before.entries.filter fun (place, _) => (after.get? place).isNone).map fun (place, _) =>
    .remove place

/-- What has to be made or written to get to another tree; the latest entry of a tree stands first in
it. -/
def additions (before after : FileTree) : List Change :=
  after.entries.reverse.filterMap fun (place, e) =>
    if before.get? place = some e then none
    else match e with
      | .file bytes => some (.writeFile place bytes)
      | .directory => some (.makeDirectory place)

/-- The changes that turn a tree into another one. -/
def changesTo (before after : FileTree) : List Change :=
  removals before after ++ additions before after

end NativeGlue.FileTree
