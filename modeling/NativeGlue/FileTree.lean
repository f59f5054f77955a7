import NativeGlue.Path
import NativeGlue.Text.Quoted
import NativeGlue.Text.Utf8

/-!
# File trees

Files and directories as a value: what a run reads is a tree, and what it leaves behind is another
one. A tree is seen from a working directory and knows where home directories are, so that every
path has a meaning; there are no links, and a name inside a directory is a file or a directory.

Each operation is one step that a file system performs whole. What can go wrong is an `OsError`, the
cause together with the path as the caller wrote it. Some paths are refused before the system is asked,
since they cannot lead anywhere.
-/

namespace NativeGlue

/-! ## 1. Failures -/

/-- Why the file system refuses, or why it is not even asked. -/
inductive OsCause where
  | noEntry
  | fileExists
  | notADirectory
  | isADirectory
  | nameTooLong
  /-- The path holds a character that no name has. -/
  | notNameable
  /-- The path begins at the home directory of somebody unknown. -/
  | unknownHome
  deriving DecidableEq, Repr, Inhabited

/-- The number by which the system knows a cause. -/
def OsCause.number? : OsCause → Option Nat
  | .noEntry => some 2
  | .fileExists => some 17
  | .notADirectory => some 20
  | .isADirectory => some 21
  | .nameTooLong => some 36
  | .notNameable => none
  | .unknownHome => none

/-- Whether a cause is the system's: a path that is wrong by itself is refused without it. -/
def OsCause.isSystems (c : OsCause) : Bool := c.number?.isSome

/-- The words for a cause, with its number before them if it has one. -/
def OsCause.text (c : OsCause) : String :=
  (c.number?.map fun n => s!"[Errno {n}] ").getD "" ++ match c with
    | .noEntry => "No such file or directory"
    | .fileExists => "File exists"
    | .notADirectory => "Not a directory"
    | .isADirectory => "Is a directory"
    | .nameTooLong => "File name too long"
    | .notNameable => "No path"
    | .unknownHome => "Unknown home directory"

/-- A refusal of the file system: of one path, of a move between two, or one that the program states
in its own words. -/
inductive OsError where
  | at (cause : OsCause) (path : Path)
  | move (cause : OsCause) (source destination : Path)
  | worded (cause : OsCause) (text : String)
  deriving DecidableEq, Repr, Inhabited

namespace OsError

/-- The cause of a refusal. -/
def cause : OsError → OsCause
  | .at c _ => c
  | .move c _ _ => c
  | .worded c _ => c

/-- The text of a refusal. -/
def message : OsError → String
  | .at c p => s!"{c.text}: {Text.quoted (toString p)}"
  | .move c p q => s!"{c.text}: {Text.quoted (toString p)} -> {Text.quoted (toString q)}"
  | .worded _ t => t

end OsError

/-! ## 2. The tree -/

/-- Whether two files hold the same bytes. -/
def sameBytes (a b : ByteArray) : Bool := decide (a.data = b.data)

theorem sameBytes_iff {a b : ByteArray} : sameBytes a b = true ↔ a = b := by
  rw [sameBytes, decide_eq_true_iff]
  exact ⟨ByteArray.ext, fun h => h ▸ rfl⟩

/-- What a name stands for. -/
inductive Entry where
  | file (bytes : ByteArray)
  | directory
  deriving Inhabited

instance : DecidableEq Entry := fun
  | .file a, .file b =>
    if h : sameBytes a b = true then isTrue (sameBytes_iff.1 h ▸ rfl)
    else isFalse fun e => h (sameBytes_iff.2 (Entry.file.inj e))
  | .file _, .directory => isFalse nofun
  | .directory, .file _ => isFalse nofun
  | .directory, .directory => isTrue rfl

/-- A place in the tree: names from the root. -/
abbrev Place := List String

/-- Whether a place comes no later than another one in order of the names. -/
def Place.precedes : Place → Place → Bool
  | [], _ => true
  | _ :: _, [] => false
  | a :: r, b :: s => if a = b then Place.precedes r s else decide (a < b)

/-- Files and directories by place, seen from a working directory. The root is always there. -/
structure FileTree where
  entries : List (Place × Entry)
  cwd : Place
  /-- Home directories by user name; the empty name stands for the user who runs the program. -/
  homes : List (String × Place)
  deriving Inhabited

namespace FileTree

/-- What stands at a place. -/
def get? (t : FileTree) (place : Place) : Option Entry :=
  if place.isEmpty then some .directory else t.entries.lookup place

/-- Puts an entry at a place, in place of what stood there. -/
def put (t : FileTree) (place : Place) (e : Entry) : FileTree :=
  { t with entries := (place, e) :: t.entries.filter fun x => x.1 != place }

/-- Takes the entry at a place away. -/
def remove (t : FileTree) (place : Place) : FileTree :=
  { t with entries := t.entries.filter fun x => x.1 != place }

theorem lookup_filter_ne {place q : Place} (h : q ≠ place) (es : List (Place × Entry)) :
    (es.filter fun x => x.1 != place).lookup q = es.lookup q := by
  induction es with
  | nil => rfl
  | cons x r ih =>
    obtain ⟨k, e⟩ := x
    by_cases hk : k = place
    · subst hk
      have : (q == k) = false := by simpa using h
      simp [List.lookup_cons, this, ih]
    · have hk' : (k != place) = true := by simpa using hk
      simp only [List.filter_cons, hk', if_true, List.lookup_cons, ih]

@[simp] theorem get?_put (t : FileTree) {place : Place} (h : place ≠ []) (e : Entry) :
    (t.put place e).get? place = some e := by
  simp [get?, put, h]

theorem get?_put_ne (t : FileTree) {place q : Place} (h : q ≠ place) (e : Entry) :
    (t.put place e).get? q = t.get? q := by
  have hq : (q == place) = false := by simpa using h
  simp only [get?, put, List.lookup_cons, hq, lookup_filter_ne h]

theorem get?_remove_ne (t : FileTree) {place q : Place} (h : q ≠ place) :
    (t.remove place).get? q = t.get? q := by
  simp only [get?, remove, lookup_filter_ne h]

/-! ## 3. Walking a path -/

/-- The greatest number of bytes that a name has. -/
def maxNameBytes : Nat := 255

/-- The greatest number of bytes that a path has. -/
def maxPathBytes : Nat := 4095

/-- Follows names from a directory: every name but the last has to be a directory, and `..` leads
back up. -/
def walk (t : FileTree) : Place → List String → Except OsCause Place
  | at_, [] => .ok at_
  | at_, n :: r =>
    match t.get? at_ with
    | none => .error .noEntry
    | some (.file _) => .error .notADirectory
    | some .directory =>
      if n == ".." then walk t at_.dropLast r
      else if maxNameBytes < n.utf8ByteSize then .error .nameTooLong
      else walk t (at_ ++ [n]) r

/-- The place that a path leads to. -/
def locate (t : FileTree) (p : Path) : Except OsCause Place :=
  if !p.isNameable then .error .notNameable
  else if maxPathBytes < p.toString.utf8ByteSize then .error .nameTooLong
  else t.walk (if p.isAbsolute then [] else t.cwd) p.parts

/-- Drops each `..` together with the name before it, without looking at the tree. -/
def normalise : Place → List String → Place
  | done, [] => done
  | done, n :: r => normalise (if n == ".." then done.dropLast else done ++ [n]) r

/-- The absolute path of a path, `..` taken away by name alone. -/
def absolute (t : FileTree) (p : Path) : Path :=
  ⟨.root, normalise [] (if p.isAbsolute then p.parts else t.cwd ++ p.parts)⟩

/-- The absolute path of a path that can be the name of something. -/
def resolve (t : FileTree) (p : Path) : Except OsError Path :=
  if p.isNameable then .ok (t.absolute p) else .error (.at .notNameable p)

/-- A path with a leading `~` or `~user` replaced by that home directory. -/
def expandHome (t : FileTree) (p : Path) : Except OsError Path :=
  match p.anchor, p.parts with
  | .here, first :: r =>
    if Text.startsWith first "~" then
      match t.homes.lookup (Text.dropFirst 1 first) with
      | some home => .ok ⟨.root, home ++ r⟩
      | none =>
        let user : Path := ⟨.here, [first]⟩
        .error (.at (if user.isNameable then .unknownHome else .notNameable) p)
    else .ok p
  | _, _ => .ok p

/-! ## 4. Looking -/

/-- What a path leads to, if anything. -/
def find? (t : FileTree) (p : Path) : Option Entry := ((t.locate p).toOption.bind t.get?)

/-- Whether a directory is at a path. -/
def isDirectory (t : FileTree) (p : Path) : Bool := t.find? p == some .directory

/-- What a path leads to, if anything. Whoever asks about a path that is too long is refused. -/
def look (t : FileTree) (p : Path) : Except OsError (Option Entry) :=
  match t.locate p with
  | .ok place => .ok (t.get? place)
  | .error .nameTooLong => .error (.at .nameTooLong p)
  | .error _ => .ok none

/-- The bytes of a file. -/
def readBytes (t : FileTree) (p : Path) : Except OsError ByteArray :=
  match t.locate p with
  | .error c => .error (.at c p)
  | .ok place =>
    match t.get? place with
    | none => .error (.at .noEntry p)
    | some .directory => .error (.at .isADirectory p)
    | some (.file b) => .ok b

/-- The names in a directory, sorted. -/
def namesIn (t : FileTree) (place : Place) : List String :=
  let names := t.entries.filterMap fun (k, _) =>
    if k.length == place.length + 1 && place.isPrefixOf k then k.getLast? else none
  names.mergeSort (fun a b => decide (a ≤ b))

/-- All places below a place with what stands there, in order of the names. -/
def below (t : FileTree) (place : Place) : List (Place × Entry) :=
  let inside := t.entries.filterMap fun (k, e) =>
    if place.length < k.length && place.isPrefixOf k then some (k.drop place.length, e) else none
  inside.mergeSort (fun a b => Place.precedes a.1 b.1)

/-! ## 5. Changing -/

/-- Makes one directory. -/
def makeDirectory (t : FileTree) (p : Path) : Except OsError FileTree :=
  match t.locate p with
  | .error c => .error (.at c p)
  | .ok place =>
    match t.get? place with
    | some _ => .error (.at .fileExists p)
    | none => .ok (t.put place .directory)

/-- Makes a directory and those above it that are missing; the number counts the names that may
still be cut off. A directory that is already there is no failure. What was made before a failure
stays. -/
def makeDirectoriesFrom (t : FileTree) (p : Path) : Nat → FileTree × Option OsError
  | 0 =>
    match t.makeDirectory p with
    | .ok t' => (t', none)
    | .error e => (t, if e.cause != .noEntry && t.isDirectory p then none else some e)
  | above + 1 =>
    match t.makeDirectory p with
    | .ok t' => (t', none)
    | .error e =>
      if e.cause = .noEntry then
        match t.makeDirectoriesFrom p.parent above with
        | (t', none) => t'.makeDirectoriesFrom p 0
        | failed => failed
      else (t, if t.isDirectory p then none else some e)

/-- Makes a directory with all directories above it. -/
def makeDirectories (t : FileTree) (p : Path) : FileTree × Option OsError :=
  t.makeDirectoriesFrom p p.parts.length

/-- Writes a file whole; its directory has to exist. -/
def writeBytes (t : FileTree) (p : Path) (bytes : ByteArray) : Except OsError FileTree :=
  match t.locate p with
  | .error c => .error (.at c p)
  | .ok place =>
    if t.get? place == some .directory then .error (.at .isADirectory p)
    else .ok (t.put place (.file bytes))

/-- Creates a file that must not exist yet. -/
def createNew (t : FileTree) (p : Path) (bytes : ByteArray) : Except OsError FileTree :=
  match t.locate p with
  | .error c => .error (.at c p)
  | .ok place =>
    if (t.get? place).isSome then .error (.at .fileExists p) else .ok (t.put place (.file bytes))

/-- Removes a file; a missing one is no failure. -/
def removeFile (t : FileTree) (p : Path) : FileTree :=
  match t.locate p with
  | .error _ => t
  | .ok place => t.remove place

/-- Moves a file over another path. -/
def moveFile (t : FileTree) (source destination : Path) : Except OsError FileTree :=
  match t.locate source, t.locate destination with
  | .error c, _ => .error (.move c source destination)
  | _, .error c => .error (.move c source destination)
  | .ok a, .ok b =>
    match t.get? a, t.get? b with
    | none, _ => .error (.move .noEntry source destination)
    | _, some .directory => .error (.move .isADirectory source destination)
    | some e, _ => .ok ((t.remove a).put b e)

end FileTree

end NativeGlue
