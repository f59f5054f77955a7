import NativeGlue.CommandLine.Program
import NativeGlue.FileTree.Change

/-!
# The executable

Reads from the disk what a call needs, lets the program work on that tree, and carries the changes over
to the disk. Nothing is decided here. Output directories are written under their locks, which are
created as files that must not exist yet.
-/

namespace NativeGlue.Console

/-! ## 1. Reading -/

/-- The text of a place. -/
def textOf (place : Place) : String := "/" ++ "/".intercalate place

/-- The kind of what stands at a place, if it can be looked at. -/
def kindAt (place : Place) : IO (Option IO.FS.FileType) :=
  try return some (← (← IO.FS.realPath (textOf place)).metadata).type
  catch _ => return none

/-- Adds what stands at a place, without what stands below it. -/
def addPlace (t : FileTree) (place : Place) : IO FileTree := do
  match ← kindAt place with
  | some .dir => return t.put place .directory
  | some .file => return t.put place (.file (← IO.FS.readBinFile (textOf place)))
  | _ => return t

/-- Adds what stands at a path and on the way to it. -/
def addPath (t : FileTree) (p : Path) : IO FileTree :=
  let place := (t.absolute p).parts
  (List.range place.length).foldlM (fun t n => addPlace t (place.take (n + 1))) t

/-- Adds the directories below a place, and the files there whose names are wanted. Links to
directories are not followed. -/
partial def addBelow (wanted : String → Bool) (t : FileTree) (place : Place) : IO FileTree := do
  let step := fun (t : FileTree) (e : IO.FS.DirEntry) => do
    let inner := place ++ [e.fileName]
    match (← e.path.symlinkMetadata).type, ← kindAt inner with
    | .dir, _ => addBelow wanted (t.put inner .directory) inner
    | _, some .file => if wanted e.fileName then addPlace t inner else return t
    | _, _ => return t
  match ← kindAt place with
  | some .dir => (← (← IO.FS.realPath (textOf place)).readDir).foldlM step t
  | _ => return t

/-- Adds what stands at a path, on the way to it and below it. -/
def addAll (wanted : String → Bool) (t : FileTree) (p : Path) : IO FileTree := do
  addBelow wanted (← addPath t p) (t.absolute p).parts

/-- The tree before anything was read: the working directory and the home directory. -/
def emptyTree : IO FileTree := do
  let cwd := Path.ofString (← IO.currentDir).toString
  let home := (← IO.getEnv "HOME").map fun h => ("", (Path.ofString h).parts)
  addPath { entries := [], cwd := cwd.parts, homes := home.toList } cwd

/-- Adds what has to be known to prepare a call. -/
def addPrepared (t : FileTree) (a : CommandLine.Arguments) : IO FileTree := do
  let config := ((t.expandHome a.config).toOption).getD a.config
  let t ← addPath (← addPath t config) (config / Config.fileName)
  match a.logFile with
  | some p => addPath t p
  | none => return t

/-- Adds the inputs and the output directory of a target. -/
def addTarget (t : FileTree) (target : Target) : IO FileTree := do
  let root := ((t.expandHome target.sourceRoot).toOption).getD target.sourceRoot
  let t ← addAll (·.endsWith ".java") t root
  let t ← match target.metadata with
    | some p => addAll (fun n => n.endsWith ".yml" || n.endsWith ".yaml") t p
    | none => pure t
  addAll (fun _ => true) t target.outputDir

/-! ## 2. Writing -/

/-- Carries a change over to the disk; a file is replaced whole. -/
def carryOver : FileTree.Change → IO Unit
  | .remove place => IO.FS.removeFile (textOf place)
  | .makeDirectory place => IO.FS.createDirAll (textOf place)
  | .writeFile place bytes => do
    let p : Path := ⟨.root, place⟩
    let temporary := Output.temporaryFor p
    IO.FS.writeBinFile temporary.toString bytes
    IO.FS.rename temporary.toString p.toString

/-- Works under the lock of a directory. -/
def underLock (directory : Path) (work : IO (Option Output.Fault)) : IO (Option Output.Fault) := do
  let lock := Output.lockOf directory
  IO.FS.createDirAll directory.toString
  let taken ← try
      let file ← IO.FS.Handle.mk lock.toString .writeNew
      file.putStr "1"
      pure true
    catch _ => pure false
  if taken then
    try work
    finally IO.FS.removeFile lock.toString
  else return some (.locked directory lock)

/-- Works under the locks of several directories. -/
def underLocks (work : IO (Option Output.Fault)) : List Path → IO (Option Output.Fault)
  | [] => work
  | d :: r => underLock d (underLocks work r)

/-- The output directories in which something changes. -/
def changedDirectories (t : FileTree) (targets : List Target) (changes : List FileTree.Change) :
    List Path :=
  let places := changes.filterMap fun
    | .writeFile place _ => some place
    | _ => none
  let directories := (targets.map fun target => t.absolute target.outputDir).eraseDups
  directories.filter fun d => places.any d.parts.isPrefixOf

/-! ## 3. Printing -/

/-- Prints a response. -/
def print (r : CommandLine.Response) : IO UInt32 := do
  (← IO.getStdout).putStr r.output
  (← IO.getStderr).putStr (CommandLine.textOfLines (r.console.map (·.line)) ++ r.messages)
  return r.status.toUInt32

/-- Prints why there is no response. -/
def printBreakdown (message : String) : IO UInt32 := do
  (← IO.getStderr).putStr (CommandLine.textOfLines [s!"{CommandLine.programName}: {message}"])
  return 1

/-- Appends the journal to a file. -/
def appendJournal (file : Path) (journal : List JournalEntry) : IO Unit := do
  let h ← IO.FS.Handle.mk file.toString .append
  h.putStr (CommandLine.textOfLines (journal.map (·.line)))

/-- Carries out an order on the disk. -/
def carryOut (t : FileTree) (o : CommandLine.Order) : IO UInt32 := do
  let before ← o.targets.foldlM addTarget t
  let (after, response) := CommandLine.carryOut before o
  let changes := before.changesTo after
  let work := do
    changes.forM carryOver
    return none
  match ← underLocks work (changedDirectories before o.targets changes) with
  | some f => printBreakdown f.message
  | none =>
    match response with
    | .error b => printBreakdown b.message
    | .ok r =>
      if let some file := o.journalFile then appendJournal file r.journal
      print r

end NativeGlue.Console

open NativeGlue in
/-- Calls the program on the disk. -/
def main (arguments : List String) : IO UInt32 := do
  let start ← Console.emptyTree
  let before ← match CommandLine.argumentsOf arguments with
    | .ok a => Console.addPrepared start a
    | .error _ => pure start
  let (t, prepared) := CommandLine.prepare before arguments
  (before.changesTo t).forM Console.carryOver
  match prepared with
  | .error (.response r) => Console.print r
  | .error (.breakdown b) => Console.printBreakdown b.message
  | .ok o => Console.carryOut t o
