import NativeGlue.Code.Methods
import NativeGlue.Code.Counters
import NativeGlue.Code.FieldTransfer
import NativeGlue.Run.Failure
import NativeGlue.Source.Reading

/-!
# The plan of a run

All that is done for a target before anything is written: overrides, rules and the stored statistics
are loaded, the sources become a model, the model is mapped, and the generated files are made. A plan
is a function of the tree; making it changes nothing.
-/

namespace NativeGlue.Run

/-! ## 1. Stages -/

/-- Where the work on a target is. -/
inductive Stage where
  | idle
  | loading
  | modeling
  | mapping
  | emitting
  | diffing
  | written
  | failed
  deriving DecidableEq, Repr, Inhabited

/-- The word of a stage. -/
def Stage.word : Stage → String
  | .idle => "idle"
  | .loading => "loading"
  | .modeling => "modeling"
  | .mapping => "mapping"
  | .emitting => "emitting"
  | .diffing => "diffing"
  | .written => "written"
  | .failed => "failed"

/-- The stages of a run that goes well, in order. -/
def Stage.course : List Stage := [.idle, .loading, .modeling, .mapping, .emitting, .diffing, .written]

/-- The stages before one, and the stage itself. -/
def Stage.upTo (s : Stage) : List Stage := Stage.course.takeWhile (· ≠ s) ++ [s]

/-- The stages before one. -/
def Stage.before (s : Stage) : List Stage := Stage.course.takeWhile (· ≠ s)

/-! ## 2. What a run is set to -/

/-- What holds for all targets of a run. -/
structure Settings where
  rules : List Mapping.Rule := Mapping.standardRules
  ignore : List Source.Exclusion := []
  /-- The preprocessor symbols of the configured platforms. -/
  defines : List (String × String) := []
  mode : Output.Mode := .write
  /-- How many targets are worked on at a time. -/
  jobs : Nat := 1

/-- The preprocessor symbols that a run knows: those configured, then those of its targets. -/
def knownDefines (s : Settings) (targets : List Target) : List (String × String) :=
  targets.foldl (fun ds t =>
    if (ds.lookup t.platform).isSome then ds else ds ++ [(t.platform, t.guard)]) s.defines

/-! ## 3. Phases -/

/-- What is loaded for a target. -/
structure Loaded where
  store : Overlay.Store
  mapper : Mapping.Mapper
  table : Statistics

/-- The file that holds the statistics of a target between runs. -/
def statsPath (target : Target) : Path :=
  target.outputDir / Path.ofString (Code.tableFile target.statsName)

/-- Loads what a target needs besides its overrides. -/
def load (s : Settings) (t : FileTree) (target : Target) (store : Overlay.Store) :
    Except Halt Loaded := do
  let mapper ← (Mapping.Mapper.ofRules target s.rules).mapError fun f => .failure (.setup f)
  let table ← (Statistics.load t (statsPath target)).mapError Halt.ofStats
  pure ⟨store, mapper, table⟩

/-- The warnings about overrides that no declaration goes by. -/
def staleWarnings (target : Target) (store : Overlay.Store) (m : Model) : List Warning :=
  (store.unmatchedKeys m.identities).map fun k =>
    let origin := ((store.get? k).bind (·.origin)).filter fun o => !o.isEmpty
    ⟨"metadata", s!"record '{k}' matches no declaration",
      some (origin.getD ((target.metadata.map Path.toString).getD "None"))⟩

/-- A unit with the mappings of its native methods. -/
abbrev MappedUnit := ClassUnit × List Mapping.CallMapping

/-- Maps all native methods. -/
def mapUnits (e : Mapping.Mapper) (m : Model) : Except Mapping.Fault (List MappedUnit) :=
  let structs := m.structs.filter (·.generated)
  m.units.mapM fun u => do pure (u, ← u.natives.mapM (e.callMapping structs))

/-- The files of a unit. -/
def unitFiles (target : Target) (e : Mapping.Mapper) (defines : List (String × String))
    (u : MappedUnit) : Except Mapping.Fault (List Code.OutputFile) := do
  let structs ← Code.structsFiles e defines u.1
  pure (Code.nativesFiles target.statsName u.1 u.2 ++ structs)

/-- All files of a target; the number of counters has to be writable. -/
def targetFiles (target : Target) (e : Mapping.Mapper) (defines : List (String × String))
    (m : Model) (units : List MappedUnit) (table : Statistics) :
    Except Mapping.Fault (List Code.OutputFile) := do
  let files ← units.mapM (unitFiles target e defines)
  if !Text.isWritable (Code.statsTable m table).capacity then throw .longNumber
  pure (files.flatten ++ Code.statsFiles target.statsName m table)

/-! ## 4. The plan -/

/-- What is to be written for a target, and what was found on the way. -/
structure Plan where
  model : Model
  files : List Code.OutputFile
  warnings : List Warning
  deriving Repr

/-- Work that has stopped: the stage it was in, why it stopped, and what was found until then. -/
structure Stopped where
  stage : Stage
  halt : Halt
  warnings : List Warning := []

/-- Makes the plan for a target. -/
def plan (s : Settings) (defines : List (String × String)) (t : FileTree) (target : Target)
    (store : Except Overlay.Fault Overlay.Store) : Except Stopped Plan :=
  match store with
  | .error f => .error ⟨.loading, .ofOverlay f, []⟩
  | .ok store =>
    match load s t target store with
    | .error h => .error ⟨.loading, h, []⟩
    | .ok loaded =>
      match Source.modelAt t s.ignore store target.sourceRoot with
      | .error f => .error ⟨.modeling, .ofSource f, []⟩
      | .ok model =>
        let stale := staleWarnings target store model
        match mapUnits loaded.mapper model with
        | .error f => .error ⟨.mapping, .ofMapping f, stale⟩
        | .ok units =>
          match targetFiles target loaded.mapper defines model units loaded.table with
          | .error f => .error ⟨.emitting, .ofMapping f, stale⟩
          | .ok files =>
            .ok ⟨model, files, stale ++ model.units.flatMap (Code.structWarnings defines)⟩

end NativeGlue.Run
