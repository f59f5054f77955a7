import NativeGlue.FileTree
import NativeGlue.Source.Exclusion

/-!
# Discovery of source files

The source files below a directory, found by walking down from it. Hidden directories, directories
that hold no sources by convention, and whatever the rules leave out are not entered. The files come
in order of their paths, however the directories list their names.
-/

namespace NativeGlue.Source

open NativeGlue.Text

/-! ## 1. What is taken -/

/-- The directories that hold no sources by convention. -/
def excludedDirectories : List String :=
  [".git", ".hg", ".svn", ".gradle", ".idea", "build", "bin", "out", "target", "node_modules"]

/-- Names from the root of the walk, as a path. -/
def relativePath (names : List String) : String := "/".intercalate names

/-- Whether the walk enters a directory. -/
def entersDirectory (rules : List Exclusion) (names : List String) : Bool :=
  let name := names.getLast?.getD ""
  !(excludedDirectories.contains name || startsWith name "." ||
    isIgnored rules (relativePath names) true)

/-- Whether a file is a source file that is kept. -/
def keepsFile (rules : List Exclusion) (names : List String) : Bool :=
  endsWith (names.getLast?.getD "") ".java" && !isIgnored rules (relativePath names) false

/-! ## 2. Walking -/

/-- The source files at and below a directory, as names from the root of the walk. The number bounds
how deep the walk goes. -/
def walkFrom (t : FileTree) (rules : List Exclusion) (root : Place) :
    Nat → List String → List (List String)
  | 0, _ => []
  | n + 1, at_ =>
    (t.namesIn (root ++ at_)).flatMap fun name =>
      let names := at_ ++ [name]
      match t.get? (root ++ names) with
      | some (.file _) => if keepsFile rules names then [names] else []
      | some .directory => if entersDirectory rules names then walkFrom t rules root n names else []
      | none => []

/-- A number that no path in the tree is longer than. -/
def depthOf (t : FileTree) : Nat := t.entries.foldl (fun n e => max n e.1.length) 0 + 1

/-- The source files below a directory, in order of their paths. -/
def sourcesBelow (t : FileTree) (rules : List Exclusion) (root : Place) : List (List String) :=
  (walkFrom t rules root (depthOf t) []).mergeSort fun a b =>
    decide (relativePath a ≤ relativePath b)

/-- The source files below a path. The path has to lead to a directory. -/
def discover (t : FileTree) (rules : List Exclusion) (root : Path) :
    Except OsError (List (List String)) := do
  let p ← t.resolve (← t.expandHome root)
  match ← t.look p with
  | none => throw (.worded .noEntry s!"Source root not found: {root.toString}")
  | some (.file _) =>
    throw (.worded .notADirectory s!"Source root is not a directory: {root.toString}")
  | some .directory => pure (sourcesBelow t rules p.parts)

end NativeGlue.Source
