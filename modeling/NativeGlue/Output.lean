import NativeGlue.Code.IndentedText
import NativeGlue.FileTree
import NativeGlue.Text.Difference

/-!
# Writing generated files

Generated files are compared with what stands in the output directory, and only those that differ are
written: each as a temporary file beside its place, which then takes the place of the old one in one
step. A directory is written under a lock, a file that only one run can create. Runs that only look
write nothing.

Every step is a function on the tree, and what was done before a failure stays.
-/

namespace NativeGlue.Output

/-! ## 1. Results -/

/-- What a run does with files that differ: writes them, shows the difference, or only names them. -/
inductive Mode where
  | write
  | check
  | dryRun
  deriving DecidableEq, Repr, Inhabited

/-- What happened, or would happen, to a file. -/
inductive Status where
  | written
  | unchanged
  | pending
  deriving DecidableEq, Repr, Inhabited

/-- The word of a status. -/
def Status.word : Status → String
  | .written => "written"
  | .unchanged => "unchanged"
  | .pending => "pending"

/-- The result for a file. -/
structure FileOutcome where
  relativePath : String
  status : Status
  diff : String := ""
  deriving DecidableEq, Repr, Inhabited

/-- Whether a file differs from what was there. -/
def FileOutcome.changed (r : FileOutcome) : Bool := r.status != .unchanged

/-- Why an output directory is not written. -/
inductive Fault where
  | os (e : OsError)
  | locked (directory lock : Path)
  deriving DecidableEq, Repr

/-- The text of a fault. -/
def Fault.message : Fault → String
  | .os e => e.message
  | .locked d l => s!"output directory {d.toString} is locked by {l.toString}"

/-- The tree after some work, the results so far, and what ended the work early. -/
structure Outcome where
  tree : FileTree
  results : List FileOutcome := []
  fault : Option Fault := none

/-! ## 2. One file -/

/-- The place of a generated file. -/
def placeOf (directory : Path) (g : Code.OutputFile) : Path :=
  directory / Path.ofString g.relativePath

/-- The place of a temporary file beside another one. -/
def temporaryFor (p : Path) : Path := p.withName ("." ++ p.name ++ ".tmp")

/-- The bytes of a file, if it is there. -/
def bytesAt (t : FileTree) (p : Path) : Except OsError (Option ByteArray) :=
  match t.readBytes p with
  | .ok b => .ok (some b)
  | .error e => if e.cause = .noEntry then .ok none else .error e

/-- The difference that a generated file would make. -/
def diffOf (g : Code.OutputFile) (existing : Option ByteArray) : String :=
  Text.difference ("a/" ++ g.relativePath) ("b/" ++ g.relativePath)
    ((existing.map Text.decodeLossy).getD "") g.content

/-- Puts bytes at a path, whole or not at all, and makes its directory first. -/
def replaceFile (t : FileTree) (p : Path) (bytes : ByteArray) : FileTree × Option OsError :=
  match t.makeDirectories p.parent with
  | (t, some e) => (t, some e)
  | (t, none) =>
    match t.writeBytes (temporaryFor p) bytes with
    | .error e => (t, some e)
    | .ok t =>
      match t.moveFile (temporaryFor p) p with
      | .error e => (t, some e)
      | .ok t => (t, none)

/-- Deals with one generated file. -/
def putFile (mode : Mode) (directory : Path) (t : FileTree) (g : Code.OutputFile) :
    FileTree × Except OsError FileOutcome :=
  let p := placeOf directory g
  match bytesAt t p with
  | .error e => (t, .error e)
  | .ok existing =>
    if existing.any (sameBytes g.content.toUTF8) then (t, .ok ⟨g.relativePath, .unchanged, ""⟩)
    else match mode with
      | .check => (t, .ok ⟨g.relativePath, .pending, diffOf g existing⟩)
      | .dryRun => (t, .ok ⟨g.relativePath, .pending, ""⟩)
      | .write =>
        match replaceFile t p g.content.toUTF8 with
        | (t, some e) => (t, .error e)
        | (t, none) => (t, .ok ⟨g.relativePath, .written, ""⟩)

/-! ## 3. All files -/

/-- Deals with generated files one after the other. -/
def writeAll (mode : Mode) (directory : Path) (t : FileTree) : List Code.OutputFile → Outcome
  | [] => { tree := t }
  | g :: r =>
    match putFile mode directory t g with
    | (t, .error e) => { tree := t, fault := some (.os e) }
    | (t, .ok result) =>
      let o := writeAll mode directory t r
      { o with results := result :: o.results }

/-- The lock of an output directory. -/
def lockOf (directory : Path) : Path := directory / Path.ofString ".jnigen.lock"

/-- Takes the lock of an output directory, which is made first. -/
def takeLock (t : FileTree) (directory : Path) : FileTree × Option Fault :=
  match t.makeDirectories directory with
  | (t, some e) => (t, some (.os e))
  | (t, none) =>
    match t.createNew (lockOf directory) "1".toUTF8 with
    | .ok t => (t, none)
    | .error e =>
      if e.cause = .fileExists then (t, some (.locked directory (lockOf directory)))
      else (t, some (.os e))

/-- Gives the lock of an output directory back. -/
def releaseLock (t : FileTree) (directory : Path) : FileTree := t.removeFile (lockOf directory)

/-- Deals with all generated files of a run. Writing happens under the lock, which is given back
however the work ends. -/
def writeFiles (mode : Mode) (directory : Path) (t : FileTree) (files : List Code.OutputFile) :
    Outcome :=
  if mode ≠ .write then writeAll mode directory t files
  else match takeLock t directory with
    | (t, some f) => { tree := t, fault := some f }
    | (t, none) =>
      let o := writeAll mode directory t files
      { o with tree := releaseLock o.tree directory }

end NativeGlue.Output
