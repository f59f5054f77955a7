import NativeGlue.Run.Plan

/-!
# Runs

A run works on targets one by one. It passes a session on: the tree, and the overrides loaded so far,
which later targets share. A target that fails leaves the others alone.
-/

namespace NativeGlue.Run

/-! ## 1. Sessions -/

/-- What passes from one target to the next: the tree, and the overrides by their path. -/
structure Session where
  tree : FileTree
  stores : List (Path × Overlay.Store) := []

/-- The result of a target. -/
structure Outcome where
  target : Target
  stage : Stage
  history : List Stage
  files : List Output.FileOutcome := []
  warnings : List Warning := []
  failure : Option Failure := none
  model : Option Model := none
  deriving Repr

/-- Whether a target went well. -/
def Outcome.ok (o : Outcome) : Bool := o.stage == .written

/-- The files that differ. -/
def Outcome.changed (o : Outcome) : List Output.FileOutcome := o.files.filter (·.changed)

namespace Session

/-- The path by which the overrides of a target are known, if it has any. -/
def storePath (s : Session) (target : Target) : Except OsError (Option Path) :=
  match target.metadata with
  | none => .ok none
  | some p => (s.tree.resolve p).map some

/-- The overrides of a target, loaded unless they were before. -/
def storeFor (s : Session) (target : Target) : Except Overlay.Fault Overlay.Store :=
  match s.storePath target with
  | .error e => .error (.os e)
  | .ok none => .ok {}
  | .ok (some p) => match s.stores.lookup p with
    | some store => .ok store
    | none => Overlay.Store.load s.tree p

/-- The session once the overrides of a target are loaded. -/
def remember (s : Session) (target : Target) : Session :=
  match s.storePath target with
  | .error _ => s
  | .ok none => s
  | .ok (some p) =>
    if (s.stores.lookup p).isSome then s
    else match Overlay.Store.load s.tree p with
      | .ok store => { s with stores := (p, store) :: s.stores }
      | .error _ => s

/-! ## 2. One target -/

/-- The outcome of work that has failed. -/
def failed (target : Target) (stage : Stage) (warnings : List Warning) (f : Failure) : Outcome :=
  { target, stage := .failed, history := stage.upTo, warnings, failure := some f }

/-- Works on one target: makes the plan and carries it out. -/
def workOn (s : Session) (settings : Settings) (defines : List (String × String))
    (target : Target) : Session × Except Crash Outcome :=
  let after := s.remember target
  match plan settings defines s.tree target (s.storeFor target) with
  | .error ⟨_, .crash c, _⟩ => (after, .error c)
  | .error ⟨stage, .failure f, warnings⟩ => (after, .ok (failed target stage warnings f))
  | .ok p =>
    let o := Output.writeFiles settings.mode target.outputDir s.tree p.files
    let after := { after with tree := o.tree }
    match o.fault.map Halt.ofOutput with
    | some (.crash c) => (after, .error c)
    | some (.failure f) => (after, .ok (failed target .diffing p.warnings f))
    | none => (after, .ok { target, stage := .written, history := Stage.written.before,
                            files := o.results, warnings := p.warnings, model := some p.model })

/-! ## 3. All targets -/

/-- The work on one target with the session before it. -/
structure Step where
  before : Session
  target : Target
  result : Except Crash Outcome

/-- Works on targets one after the other. What stops all targets does so at once, unless several are
worked on at a time. -/
def stepsFrom (settings : Settings) (defines : List (String × String)) (goOn : Bool) (s : Session) :
    List Target → Session × List Step
  | [] => (s, [])
  | target :: r =>
    match s.workOn settings defines target with
    | (after, .error c) =>
      if goOn then
        let (last, steps) := stepsFrom settings defines goOn after r
        (last, ⟨s, target, .error c⟩ :: steps)
      else (after, [⟨s, target, .error c⟩])
    | (after, result) =>
      let (last, steps) := stepsFrom settings defines goOn after r
      (last, ⟨s, target, result⟩ :: steps)

/-- The work on all targets. -/
def steps (s : Session) (settings : Settings) (targets : List Target) : Session × List Step :=
  stepsFrom settings (knownDefines settings targets) (1 < min settings.jobs targets.length) s targets

/-- The outcomes of all targets in their order, unless something stopped them all. -/
def run (s : Session) (settings : Settings) (targets : List Target) :
    Session × Except Crash (List Outcome) :=
  let (after, done) := s.steps settings targets
  (after, done.mapM (·.result))

end Session

end NativeGlue.Run
