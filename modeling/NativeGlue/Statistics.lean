import NativeGlue.Data.Json
import NativeGlue.FileTree

/-!
# The statistics table

Every native method has a number by which calls are counted. Numbers are given once and never again:
a method that disappears keeps its number, and a new one gets the next number above all that were
ever given. So the table is kept beside the generated code, and grows only. Keys and symbols are texts
as they are stored, in which a surrogate may stand alone.

Main facts: numbering leaves every number that was given as it is (`lookup_assign_of_some`).
-/

namespace NativeGlue

open NativeGlue.Data NativeGlue.Text

/-! ## 1. The table -/

/-- Numbers by key, in the order in which they were given; the symbols that belong to the keys; and
the keys that the last numbering asked for. -/
structure Statistics where
  entries : List (CodePoints × Int) := []
  names : List (CodePoints × CodePoints) := []
  active : List CodePoints := []
  deriving DecidableEq, Repr, Inhabited

/-- What may be wrong with a stored table. -/
inductive StatsFault where
  | notJson (path : Path)
  | version (path : Path)
  | notMappings (path : Path)
  | invalidEntry (path : Path) (key : CodePoints) (index : Json)
  | collision (index : Int) (first second : CodePoints)
  /-- A number in it is too long to be read. -/
  | longNumber
  /-- It is nested too deep. -/
  | tooDeep
  /-- It is no text. -/
  | undecodable
  | os (e : OsError)
  deriving Repr, Inhabited

/-- The text of a fault; where reading itself gives up there is none. -/
def StatsFault.message : StatsFault → String
  | .notJson p => s!"{p}: stats table is not valid JSON"
  | .version p => s!"{p}: unsupported stats table version"
  | .notMappings p => s!"{p}: stats table entries must be mappings"
  | .invalidEntry p k v => s!"{p}: invalid stats entry {k.quoted}: {v.shown}"
  | .collision i a b => s!"stats index {i} is assigned to both {a} and {b}"
  | .longNumber => ""
  | .tooDeep => ""
  | .undecodable => ""
  | .os e => e.message

/-- Puts a value under a key; a key that is there stays in its place. -/
def putKey {κ α : Type} [DecidableEq κ] (key : κ) (v : α) : List (κ × α) → List (κ × α)
  | [] => [(key, v)]
  | (k, w) :: r => if k = key then (k, v) :: r else (k, w) :: putKey key v r

theorem lookup_append_self {κ α : Type} [BEq κ] [LawfulBEq κ] (es : List (κ × α)) (key : κ) (v : α)
    (h : es.lookup key = none) : (es ++ [(key, v)]).lookup key = some v := by
  induction es with
  | nil => simp
  | cons e r ih =>
    obtain ⟨k, w⟩ := e
    simp only [List.lookup_cons] at h
    split at h
    · simp at h
    · rename_i hk
      simp [List.lookup_cons, hk, ih h]

theorem lookup_append_of_some {κ α : Type} [BEq κ] {es fs : List (κ × α)} {key : κ} {v : α}
    (h : es.lookup key = some v) : (es ++ fs).lookup key = some v := by
  induction es with
  | nil => simp at h
  | cons e r ih =>
    obtain ⟨k, w⟩ := e
    simp only [List.cons_append, List.lookup_cons] at h ⊢
    split at h
    · exact h
    · exact ih h

namespace Statistics

/-- One past the highest number ever given. -/
def capacity (t : Statistics) : Int :=
  match t.entries with
  | [] => 0
  | e :: es => es.foldl (fun m e => max m e.2) e.2 + 1

/-- The number of a key. -/
def indexOf? (t : Statistics) (key : CodePoints) : Option Int := t.entries.lookup key

/-- Numbers keys in order: those that have a number keep it, others get the next one. A key that is
asked for twice counts once. Gives the numbers and the entries that result. -/
def assignFrom (next : Int) (given entries : List (CodePoints × Int)) :
    List CodePoints → List (CodePoints × Int) × List (CodePoints × Int)
  | [] => (given, entries)
  | k :: r =>
    if (given.lookup k).isSome then assignFrom next given entries r
    else
      match entries.lookup k with
      | some i => assignFrom next (given ++ [(k, i)]) entries r
      | none => assignFrom (next + 1) (given ++ [(k, next)]) (entries ++ [(k, next)]) r

/-- Numbers keys and takes over the symbols that belong to them. -/
def assign (t : Statistics) (keys : List CodePoints) (names : List (CodePoints × CodePoints)) :
    List (CodePoints × Int) × Statistics :=
  let (given, entries) := assignFrom t.capacity [] t.entries keys
  (given, ⟨entries, names.foldl (fun ns (k, n) => putKey k n ns) t.names, given.map (·.1)⟩)

/-- Keys in the table that the last numbering did not ask for, sorted. -/
def retired (t : Statistics) : List CodePoints :=
  ((t.entries.map (·.1)).filter fun k => !t.active.contains k).mergeSort CodePoints.precedes

theorem lookup_assignFrom_of_some {next : Int} {given entries : List (CodePoints × Int)}
    {keys : List CodePoints} {k : CodePoints} {i : Int} (h : entries.lookup k = some i) :
    ((assignFrom next given entries keys).2).lookup k = some i := by
  fun_induction assignFrom next given entries keys with
  | case1 => exact h
  | case2 _ _ _ _ _ _ ih => exact ih h
  | case3 _ _ _ _ _ _ _ _ ih => exact ih h
  | case4 _ _ _ _ _ _ _ ih => exact ih (lookup_append_of_some h)

/-- A number that was given stays as it is. -/
theorem lookup_assign_of_some {t : Statistics} {keys : List CodePoints}
    {names : List (CodePoints × CodePoints)} {k : CodePoints} {i : Int} (h : t.indexOf? k = some i) :
    (t.assign keys names).2.indexOf? k = some i :=
  lookup_assignFrom_of_some h

/-! ## 2. Storing and loading -/

/-- The version of the stored form. -/
def version : Int := 1

/-- The stored form: entries by number, symbols by key. -/
def toJson (t : Statistics) : String :=
  let entries := t.entries.mergeSort fun a b => decide (a.2 ≤ b.2)
  let names := t.names.mergeSort fun a b => a.1.precedes b.1
  Json.writeObject 0
    [("version", toString version),
      ("entries", Json.writeObject 1 (entries.map fun (k, i) => (k, toString i))),
      ("names", Json.writeObject 1 (names.map fun (k, n) => (k, Json.writeString n)))] ++ "\n"

/-- Looks for two keys with one number, in the order of the keys; `owners` holds the numbers seen. -/
def findCollision (owners : List (Int × CodePoints)) : List (CodePoints × Int) → Option StatsFault
  | [] => none
  | (k, i) :: r =>
    match owners.lookup i with
    | some first => some (.collision i first k)
    | none => findCollision ((i, k) :: owners) r

/-- A table with given entries, in which no two keys share a number. -/
def ofEntries (entries : List (CodePoints × Int)) (names : List (CodePoints × CodePoints)) :
    Except StatsFault Statistics :=
  match findCollision [] (entries.mergeSort fun a b => a.1.precedes b.1) with
  | some f => .error f
  | none => .ok ⟨entries, names, []⟩

/-- A stored number: an integer that is not negative. -/
def storedIndex? : Json → Option Int
  | .int n => if n < 0 then none else some n
  | _ => none

/-- The stored entries. -/
def storedEntries (path : Path) :
    List (CodePoints × Json) → Except StatsFault (List (CodePoints × Int))
  | [] => .ok []
  | (k, v) :: r =>
    match storedIndex? v with
    | none => .error (.invalidEntry path k v)
    | some i => (storedEntries path r).map fun es => (k, i) :: es

/-- Reads a stored table. -/
def ofText (path : Path) (text : String) : Except StatsFault Statistics :=
  match Json.read text with
  | .error .malformed => .error (.notJson path)
  | .error .longNumber => .error .longNumber
  | .error .tooDeep => .error .tooDeep
  | .ok (.object ms) =>
    if (Json.member? ms "version").bind Json.asInt? != some version then .error (.version path)
    else
      match Json.member? ms "entries", (Json.member? ms "names").getD (.object []) with
      | some (.object es), .object ns => do
        let entries ← storedEntries path es
        ofEntries entries (ns.map fun (k, n) => (k, n.plain))
      | _, _ => .error (.notMappings path)
  | .ok _ => .error (.version path)

/-- Loads the table of a file; where there is none it is empty. -/
def load (tree : FileTree) (path : Path) : Except StatsFault Statistics :=
  match tree.readBytes path with
  | .error e => if e.cause = .noEntry then .ok {} else .error (.os e)
  | .ok bytes =>
    match Text.decodeText? bytes with
    | none => .error .undecodable
    | some text => ofText path text

end Statistics

end NativeGlue
