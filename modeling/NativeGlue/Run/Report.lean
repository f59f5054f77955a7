import NativeGlue.Journal
import NativeGlue.Run.Session

/-!
# What a run reports

The journal of a run, read off its steps: what each target was generated from, how far the work came,
and what was found. A phase reports only if the phase before it went well, so the journal of a target
that fails ends where the failure arose.
-/

namespace NativeGlue.Run

open NativeGlue.Journal

/-- Goes on with a further entry after a result that is there. -/
def after {ε α : Type} (r : Except ε α) (entries : α → List JournalEntry) : List JournalEntry :=
  match r with
  | .ok a => entries a
  | .error _ => []

namespace Report

/-! ## 1. Loading -/

/-- The overrides that a target had to load. -/
def overrides (s : Session) (target : Target) : List JournalEntry :=
  match s.storePath target with
  | .error _ => []
  | .ok none => []
  | .ok (some p) =>
    if (s.stores.lookup p).isSome then []
    else after (Overlay.Store.load s.tree p) fun store =>
      [debug s!"Loaded {store.size} metadata records from {p}"]

/-- The rules that a target is mapped by. -/
def rules (target : Target) (e : Mapping.Mapper) : List JournalEntry :=
  [debug (s!"Type rules for {target.platform}: " ++ ", ".intercalate e.keys)]

/-! ## 2. Sources -/

/-- The native methods that a file declares where no code is generated for them. -/
def skippedIn (path : Path) (names : List String) : List JournalEntry :=
  names.map fun n => warning s!"{path}: skipping native {n} outside a top-level class"

/-- The native methods that files skip, up to the first file that has no outline. -/
def skipped (t : FileTree) (root : Path) : List (List String) → List JournalEntry
  | [] => []
  | names :: r =>
    match Source.outlineFile t root names with
    | .ok f => skippedIn f.path f.outline.skipped ++ skipped t root r
    | .error (ns, _) => skippedIn ⟨.here, names⟩ ns

/-- The size of a model. -/
def modelled (m : Model) : List JournalEntry :=
  [debug <| s!"Modeled {m.units.length} units, {m.natives.length} natives, "
    ++ s!"{m.structs.length} struct mirrors"]

/-- The sources of a target, up to their model. -/
def sources (s : Settings) (t : FileTree) (store : Overlay.Store) (root : Path) :
    List JournalEntry :=
  after (Source.rootOf t root) fun root =>
    after (Source.sourcesOf t s.ignore root) fun names =>
      debug s!"Found {names.length} Java sources under {root}" :: skipped t root names
      ++ after (Source.outlinesOf t root names) fun files =>
        (Source.leftOut store files).map (fun l => debug s!"Skipping {l.identity.key} (no_gen)")
        ++ after (Source.modelOf store files) modelled

/-! ## 3. Files -/

/-- The files made for units, up to the first unit for which that fails. -/
def rendered (e : Mapping.Mapper) (defines : List (String × String)) :
    List MappedUnit → List JournalEntry
  | [] => []
  | (u, ms) :: r =>
    let structs := u.structs.filter (·.generated)
    let natives := if ms.isEmpty then []
      else [debug s!"Rendering {ms.length} natives for {u.className}"]
    natives ++ after (Code.structsFiles e defines u) fun _ =>
      (if structs.isEmpty then []
        else [debug s!"Rendering {structs.length} struct mirrors for {u.className}"])
      ++ rendered e defines r

/-- The statistics that are kept for native methods that are gone. -/
def retired (m : Model) (table : Statistics) : List JournalEntry :=
  let old := (Code.statsTable m table).retired
  if old.isEmpty then [] else [debug s!"Keeping {old.length} retired stats entries"]

/-- The files that were written, also before a failure. -/
def written (directory : Path) (results : List Output.FileOutcome) : List JournalEntry :=
  (results.filter (·.status == .written)).map fun r =>
    debug s!"Wrote {directory / r.relativePath}"

/-- The files of a target, from their model to the output directory. -/
def files (s : Settings) (defines : List (String × String)) (t : FileTree) (target : Target)
    (loaded : Loaded) (m : Model) : List JournalEntry :=
  after (mapUnits loaded.mapper m) fun units =>
    rendered loaded.mapper defines units
    ++ after (targetFiles target loaded.mapper defines m units loaded.table) fun made =>
      retired m loaded.table
      ++ written target.outputDir (Output.writeFiles s.mode target.outputDir t made).results

/-! ## 4. Targets -/

/-- How the work on a target ended. -/
def ending (mode : Output.Mode) (o : Outcome) : List JournalEntry :=
  match o.failure with
  | some f => [error s!"Target {o.target.platform} failed: {f.message}"]
  | none =>
    let changed := o.changed.length
    let verb := if mode = .write then "written" else "would change"
    let natives := ((o.model.map (·.natives)).getD []).length
    let structs := ((o.model.map (·.structs)).getD []).length
    [info <| s!"{o.target.platform}: {natives} natives, {structs} struct mirrors; "
      ++ s!"{changed} file(s) {verb}, {o.files.length - changed} unchanged"]

/-- What the work on a target reports before it ends. -/
def course (s : Settings) (defines : List (String × String)) (step : Session.Step) :
    List JournalEntry :=
  let t := step.before.tree
  let target := step.target
  info s!"Generating {target.platform} into {target.outputDir}" :: overrides step.before target
  ++ after (step.before.storeFor target) fun store =>
    after (Mapping.Mapper.ofRules target s.rules) (rules target)
    ++ after (load s t target store) fun loaded =>
      sources s t store target.sourceRoot
      ++ after (Source.modelAt t s.ignore store target.sourceRoot) (files s defines t target loaded)

/-- The journal of a target. -/
def ofStep (s : Settings) (defines : List (String × String)) (step : Session.Step) :
    List JournalEntry :=
  course s defines step ++ after step.result (ending s.mode)

/-- The journal of all targets. The warnings of all stand at its end, unless something stopped the
run. -/
def ofSteps (s : Settings) (targets : List Target) (steps : List Session.Step) : List JournalEntry :=
  steps.flatMap (ofStep s (knownDefines s targets))
  ++ after (steps.mapM (·.result)) fun outcomes =>
    outcomes.flatMap fun o => Journal.ofWarnings o.target.platform o.warnings

end Report

end NativeGlue.Run
