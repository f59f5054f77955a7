import NativeGlue.FileTree
import NativeGlue.Overlay.Store
import NativeGlue.Yaml.Document

/-!
# Override files

An override file maps namespaces, one per class, to sections: methods and fields by name, and one
struct. A file for a single class may leave the namespace out; then the file's name stands for it. A
directory holds any number of such files, which are read in the order of their paths.

Records are read into directives at once, so whatever is wrong with a file is found before anything is
built.
-/

namespace NativeGlue.Overlay

open NativeGlue.Data

/-! ## 1. Faults -/

/-- What is wrong with an override file. Keys name the place in the file. -/
inductive Cause where
  | missing
  | malformed
  | unreadable (e : OsError)
  | rootNotMapping
  | namespaceNotMapping (name : String)
  | unknownSections (name : String) (sections : List String)
  | notMapping (key : String)
  | unknownKeys (key : String) (keys : List String)
  | flag (key : String) (f : FlagFault)
  | unknownOwnership (key word : String)
  | ownershipConflict (key : String)
  | offsetNotInteger (key : String)
  /-- A number is too long to be written, so there is no text of it. -/
  | longNumber
  deriving DecidableEq, Repr

/-- The words of a cause. -/
def Cause.text : Cause → String
  | .missing => "metadata path does not exist"
  | .malformed => "invalid YAML: malformed"
  | .unreadable e => s!"cannot read metadata: {e.message}"
  | .rootNotMapping => "metadata root must be a mapping"
  | .namespaceNotMapping n => s!"namespace '{n}' must be a mapping"
  | .unknownSections n ss => s!"namespace '{n}' has unknown sections: " ++ ", ".intercalate ss
  | .notMapping k => s!"{k} must be a mapping"
  | .unknownKeys k ks => s!"{k}: unknown keys " ++ ", ".intercalate ks
  | .flag k f => s!"{k}: {f.message}"
  | .unknownOwnership k w => s!"{k}: unknown ownership '{w}'"
  | .ownershipConflict k => s!"{k}: ownership conflicts with flags"
  | .offsetNotInteger k => s!"{k}: offset must be an integer"
  | .longNumber => "a number is too long"

/-- The text of a cause with the file it is about. -/
def Cause.message (path : Path) (c : Cause) : String := s!"{path.toString}: {c.text}"

/-- Why no store is read. -/
inductive Fault where
  | overlay (path : Path) (cause : Cause)
  /-- The bytes of a file are no text. -/
  | undecodable
  /-- A file is well formed but holds a value that does not exist. -/
  | value (f : Yaml.Fault)
  /-- The path itself is refused. -/
  | os (e : OsError)
  deriving DecidableEq, Repr

/-! ## 2. Mappings -/

/-- A mapping as its pairs. -/
abbrev Pairs := List (Value × Value)

/-- The pairs of a value that has to be a mapping; what is left empty has none. -/
def asPairs (key : String) (v : Value) : Except Cause Pairs :=
  match v.opened with
  | .null => .ok []
  | .mapping ps => .ok ps
  | _ => .error (.notMapping key)

/-- The text of a value. -/
def textOf (v : Value) : Except Cause String :=
  match v.written? with
  | some s => .ok s
  | none => .error .longNumber

/-- The keys of a mapping that are not among those allowed, as text and in order. -/
def unknownAmong (allowed : List String) (ps : Pairs) : List Value :=
  (ps.map (·.1)).filter fun k => match k with
    | .text s => !allowed.contains s
    | _ => true

/-- Refuses keys that are not among those allowed; they are told in order of their texts. -/
def checkKeys (refusal : List String → Cause) (allowed : List String) (ps : Pairs) :
    Except Cause Unit := do
  let unknown ← (unknownAmong allowed ps).mapM textOf
  if !unknown.isEmpty then throw (refusal (unknown.mergeSort fun a b => decide (a ≤ b)))

/-- The text under a key, if something stands there. -/
def textAt (ps : Pairs) (key : String) : Except Cause (Option String) :=
  match Value.member ps key with
  | .null => .ok none
  | v => (textOf v).map some

/-- The words of a value. -/
def wordsOf (v : Value) : Except Cause (List String) :=
  match v.words? with
  | some ws => .ok ws
  | none => .error .longNumber

/-- The words under the key for flags. -/
def flagWords (ps : Pairs) : Except Cause (List String) := wordsOf (Value.member ps "flags")

/-- The flags that words name. -/
def flagsOf {F : Type} [FlagSet F] (key : String) (words : List String) : Except Cause F :=
  (readFlags words).mapError (.flag key)

/-- Whether a record replaces those before it. -/
def replaces (ps : Pairs) : Bool := (Value.member ps "replace").isTrue

/-! ## 3. Records -/

/-- What a file says about a parameter. -/
def readParam (key : String) (v : Value) : Except Cause ParamOptions := do
  let ps ← asPairs key v
  checkKeys (.unknownKeys key) ["flags", "cast", "ownership", "length"] ps
  let (selected, words) ← (splitOwnership (← flagWords ps)).mapError (.flag key)
  let ownership ← match ← textAt ps "ownership" with
    | none => pure selected
    | some w => match Ownership.ofWord? w with
      | none => throw (.unknownOwnership key w)
      | some o =>
        if selected.isSome && selected != some o then throw (.ownershipConflict key)
        else pure (some o)
  let flags ← flagsOf key words
  pure { flags, ownership, cast := ← textAt ps "cast", length := ← textAt ps "length" }

/-- Puts directives at the place of their reference in a sorted list, in place of those that stand
there. -/
def putParam (ref : String) (d : ParamOptions) :
    List (String × ParamOptions) → List (String × ParamOptions)
  | [] => [(ref, d)]
  | (r, e) :: rest =>
    if ref = r then (r, d) :: rest
    else if ref < r then (ref, d) :: (r, e) :: rest
    else (r, e) :: putParam ref d rest

/-- What a file says about the parameters of a method. -/
def readParams (key : String) (v : Value) : Except Cause (List (String × ParamOptions)) := do
  let ps ← asPairs key v
  ps.foldlM (fun acc (ref, raw) => do
    let ref ← textOf ref
    pure (putParam ref (← readParam (key ++ "." ++ ref) raw) acc)) []

/-- What a file says about a method. -/
def readMethod (space name : String) (v : Value) : Except Cause Record := do
  let key := space ++ "." ++ name
  let ps ← asPairs key v
  checkKeys (.unknownKeys key)
    ["flags", "cast", "accessor", "pre_call", "post_call", "body", "params", "replace"] ps
  let params ← readParams (key ++ ".params") (Value.member ps "params")
  let flags ← flagsOf key (← flagWords ps)
  let method : MethodOptions :=
    { flags, cast := ← textAt ps "cast", accessor := ← textAt ps "accessor" }
  let fragments : AddedCode :=
    { preCall := ← textAt ps "pre_call", postCall := ← textAt ps "post_call",
      body := ← textAt ps "body" }
  pure { key, kind := .method, params, method, fragments, replace := replaces ps }

/-- The offset that a file gives, if it gives one. -/
def readOffset (key : String) (v : Value) : Except Cause (Option Offset) :=
  match v with
  | .null => .ok none
  | .int n => .ok (some (.int n))
  | .bool b => .ok (some (.truth b))
  | _ => .error (.offsetNotInteger key)

/-- What a file says about a field. -/
def readField (space name : String) (v : Value) : Except Cause Record := do
  let key := space ++ "#" ++ name
  let ps ← asPairs key v
  checkKeys (.unknownKeys key)
    ["flags", "cast", "accessor", "platform", "platforms", "offset", "replace"] ps
  let offset ← readOffset key (Value.member ps "offset")
  let platforms ← wordsOf ((Value.member? ps "platforms").getD (Value.member ps "platform"))
  let flags ← flagsOf key (← flagWords ps)
  let field : FieldOptions :=
    { flags, cast := ← textAt ps "cast", accessor := ← textAt ps "accessor", platforms, offset }
  pure { key, kind := .field, field, replace := replaces ps }

/-- What a file says about a struct class. -/
def readStruct (space : String) (v : Value) : Except Cause Record := do
  let ps ← asPairs (space ++ ".struct") v
  checkKeys (.unknownKeys space) ["flags", "accessor", "replace"] ps
  let flags ← flagsOf space (← flagWords ps)
  let struct : StructOptions := { flags, accessor := ← textAt ps "accessor", tagged := true }
  pure { key := space, kind := .struct, struct, replace := replaces ps }

/-! ## 4. Files -/

/-- The sections of a namespace. -/
def sectionNames : List String := ["methods", "fields", "struct"]

/-- What a file says about a class. -/
def readNamespace (space : String) (v : Value) : Except Cause (List Record) := do
  match v.opened with
  | .mapping ps =>
    checkKeys (.unknownSections space) sectionNames ps
    let methods ← (← asPairs (space ++ ".methods") (Value.member ps "methods")).mapM fun (n, e) => do
      readMethod space (← textOf n) e
    let fields ← (← asPairs (space ++ ".fields") (Value.member ps "fields")).mapM fun (n, e) => do
      readField space (← textOf n) e
    let structs ← match Value.member? ps "struct" with
      | none => pure []
      | some s => do pure [← readStruct space s]
    pure (methods ++ fields ++ structs)
  | _ => throw (.namespaceNotMapping space)

/-- The records of the value of a file; `stem` stands for a namespace that is left out. -/
def recordsOf (stem : String) (v : Value) : Except Cause (List Record) := do
  match v.opened with
  | .null => pure []
  | .mapping ps =>
    let ps := if !ps.isEmpty && (unknownAmong sectionNames ps).isEmpty then [(.text stem, v)] else ps
    let found ← ps.mapM fun (n, s) => do readNamespace (← textOf n) s
    pure found.flatten
  | _ => throw .rootNotMapping

/-- The records of a file. -/
def readFile (t : FileTree) (path : Path) : Except Fault (List Record) :=
  match t.readBytes path with
  | .error e => .error (.overlay path (.unreadable e))
  | .ok bytes =>
    match Text.decodeText? bytes with
    | none => .error .undecodable
    | some text =>
      match Yaml.read text with
      | .error .malformed => .error (.overlay path .malformed)
      | .error f => .error (.value f)
      | .ok v => match recordsOf path.stem v with
        | .error .longNumber => .error (.value .badNumber)
        | .error c => .error (.overlay path c)
        | .ok rs => .ok (rs.map fun r => { r with origin := some path.toString })

/-- The override files at a path: the path itself, or all files in the directory that it leads to. -/
def filesAt (t : FileTree) (path : Path) : List Path :=
  match t.locate path with
  | .error _ => [path]
  | .ok place =>
    if t.get? place == some .directory then
      ((t.below place).map fun (names, _) => path / (⟨.here, names⟩ : Path)).filter fun p =>
        p.suffix == ".yml" || p.suffix == ".yaml"
    else [path]

/-- The store that override files at a path make. -/
def Store.load (t : FileTree) (path : Path) : Except Fault Store :=
  match t.look path with
  | .error e => .error (.os e)
  | .ok none => .error (.overlay path .missing)
  | .ok (some _) =>
    ((filesAt t path).mapM (readFile t)).map fun rs => Store.ofRecords rs.flatten

end NativeGlue.Overlay
