import NativeGlue.CommandLine.Arguments
import NativeGlue.CommandLine.Usage
import NativeGlue.Config
import NativeGlue.Run.Report

/-!
# The program

What a call of the program does, as a function of its arguments and the tree. A call is prepared first:
the arguments are read, the journal file is opened, the configuration is loaded and the targets are
chosen. Only then are the targets worked on, and a report on each of them is printed.
-/

namespace NativeGlue.CommandLine

/-! ## 1. Responses -/

/-- What a call prints, and the status that it ends with. The journal is printed where the messages
are, and stands before them; what only matters to those who look for trouble is left out unless the
call is verbose. -/
structure Response where
  status : Nat := 0
  output : String := ""
  journal : List JournalEntry := []
  verbose : Bool := false
  messages : String := ""
  deriving Repr, Inhabited

/-- The entries of the journal that are printed. -/
def Response.console (r : Response) : List JournalEntry :=
  r.journal.filter fun e => r.verbose || e.level != .debug

/-- What ends a call without a response. -/
inductive Breakdown where
  /-- An option has a value that cannot be used. -/
  | unusable (o : OptionName)
  | journalFile (e : OsError)
  | config (f : Config.LoadFault)
  | run (c : Run.Crash)

/-- The text of what ends a call without a response. -/
def Breakdown.message : Breakdown → String
  | .unusable o => s!"argument {o.label}: the value cannot be used"
  | .journalFile e => e.message
  | .config (.config f) => f.message
  | .config (.os e) => e.message
  | .config .undecodable => "the configuration is no UTF-8 text"
  | .config (.value _) => "the configuration holds a value that does not exist"
  | .run c => c.message

/-- What is wrong with a call. -/
inductive CallFault where
  | arguments (f : ArgumentFault)
  | noTarget
  | outputForAll
  | noTargets
  | config (f : Config.Fault)
  deriving Repr

/-- The text of a fault. -/
def CallFault.message : CallFault → String
  | .arguments f => f.message
  | .noTarget => "no target given and no default_target configured"
  | .outputForAll => "output_dir cannot be combined with 'all'"
  | .noTargets => "no targets configured"
  | .config f => f.message

/-- The response to a call that is wrong. -/
def Response.ofFault (f : CallFault) : Response :=
  { status := 2, messages := textOfLines [usageLine, s!"{programName}: error: {f.message}"] }

/-- The response to a call for help. -/
def Response.help : Response := { output := textOfLines helpLines }

/-! ## 2. Preparing a call -/

/-- What a call comes to: the targets to work on, the settings for all of them, and how the journal is
kept. -/
structure Order where
  targets : List Target
  settings : Run.Settings
  verbose : Bool
  journalFile : Option Path

/-- How preparing a call may end. -/
inductive Ending where
  | response (r : Response)
  | breakdown (b : Breakdown)

/-- The names that stand for all targets. -/
def namesOfAll : List String := ["all", "*"]

/-- The targets that arguments and configuration choose. -/
def chooseTargets (a : Arguments) (c : Config) : Except CallFault (List Target) :=
  match (a.target.filter (!·.isEmpty)) <|> c.defaultTarget with
  | none => .error .noTarget
  | some name =>
    if namesOfAll.contains name then
      if a.outputDir.isSome then .error .outputForAll
      else if c.platforms.isEmpty then .error .noTargets
      else (c.everyTarget a.sourceRoot).mapError .config
    else (c.target name a.outputDir a.sourceRoot).mapError .config |>.map ([·])

/-- What a call does with files that differ. To show the difference wins over only naming them. -/
def modeOf (a : Arguments) : Output.Mode :=
  if a.check then .check else if a.dryRun then .dryRun else .write

/-- The settings that arguments and configuration make. -/
def settingsOf (a : Arguments) (c : Config) : Run.Settings :=
  { ignore := c.excludePaths.filterMap Source.Exclusion.ofString?
    defines := c.platformSymbols
    mode := modeOf a
    jobs := (a.jobs.getD c.jobs).toNat }

/-- Opens the journal file; one that is not there is created empty. -/
def openJournal (t : FileTree) (p : Path) : FileTree × Option OsError :=
  match t.makeDirectories p.parent with
  | (t, some e) => (t, some e)
  | (t, none) =>
    let file := t.absolute p
    match t.readBytes file with
    | .ok _ => (t, none)
    | .error e =>
      if e.cause = .noEntry then
        match t.writeBytes file ByteArray.empty with
        | .ok t => (t, none)
        | .error e => (t, some e)
      else (t, some e)

/-- Opens the journal file if the arguments name one. -/
def openJournalOf (a : Arguments) (t : FileTree) : FileTree × Option OsError :=
  match a.logFile with
  | none => (t, none)
  | some p => openJournal t p

/-- What arguments come to, once the configuration is loaded. -/
def orderOf (t : FileTree) (a : Arguments) : Except Ending Order :=
  match Config.load t a.config with
  | .error (.config f) =>
    .error (.response { status := 1, messages := textOfLines [s!"{programName}: {f.message}"] })
  | .error f => .error (.breakdown (.config f))
  | .ok c =>
    match chooseTargets a c with
    | .error f => .error (.response (.ofFault f))
    | .ok targets => .ok ⟨targets, settingsOf a c, a.verbose, a.logFile⟩

/-- The arguments of a call, unless the call asks for help or is wrong. -/
def argumentsOf (arguments : List String) : Except Response Arguments :=
  if arguments.head? = some "help" then .error .help
  else match Arguments.read arguments with
    | .error .help => .error .help
    | .error (.fault f) => .error (.ofFault (.arguments f))
    | .ok a => .ok a

/-- Prepares a call. -/
def prepare (t : FileTree) (arguments : List String) : FileTree × Except Ending Order :=
  match argumentsOf arguments with
  | .error r => (t, .error (.response r))
  | .ok a =>
    match [OptionName.jobs, .logFile].find? a.unusable.contains with
    | some o => (t, .error (.breakdown (.unusable o)))
    | none =>
      match openJournalOf a t with
      | (t, some e) => (t, .error (.breakdown (.journalFile e)))
      | (t, none) =>
        if a.unusable.contains .config then (t, .error (.breakdown (.unusable .config)))
        else (t, orderOf t a)

/-! ## 3. Reports -/

/-- What is printed about a target. -/
structure Report where
  output : String := ""
  messages : String := ""
  failed : Bool := false

/-- The report on the outcome of a target. -/
def Report.of (mode : Output.Mode) (o : Run.Outcome) : Report :=
  let name := o.target.platform
  let changed := o.changed
  match o.failure with
  | some f =>
    { messages := textOfLines [s!"{programName}: target {name} failed: {f.message}"], failed := true }
  | none =>
    match mode with
    | .check =>
      { output := String.join (changed.map (·.diff))
          ++ textOfLines [s!"{name}: {changed.length} file(s) out of date"]
        failed := !changed.isEmpty }
    | .dryRun =>
      { output := textOfLines (changed.map (fun r => s!"{name}: would write {r.relativePath}")
          ++ [s!"{name}: {changed.length} file(s) would change (dry-run)"]) }
    | .write =>
      let same := o.files.length - changed.length
      { output := textOfLines [s!"{name}: {changed.length} written, {same} unchanged"] }

/-- The response made of a journal and of reports. -/
def Response.ofReports (journal : List JournalEntry) (verbose : Bool) (reports : List Report) :
    Response :=
  { status := if reports.any (·.failed) then 1 else 0
    output := String.join (reports.map (·.output))
    journal, verbose
    messages := String.join (reports.map (·.messages)) }

/-! ## 4. The call -/

/-- Carries out an order. -/
def carryOut (t : FileTree) (o : Order) : FileTree × Except Breakdown Response :=
  let (session, steps) := Run.Session.steps { tree := t } o.settings o.targets
  let journal := Run.Report.ofSteps o.settings o.targets steps
  let response := match steps.mapM (·.result) with
    | .error c => .error (.run c)
    | .ok outcomes => .ok (.ofReports journal o.verbose (outcomes.map (Report.of o.settings.mode)))
  (session.tree, response)

/-- Calls the program: the tree afterwards, and the response. -/
def call (t : FileTree) (arguments : List String) : FileTree × Except Breakdown Response :=
  match prepare t arguments with
  | (t, .error (.response r)) => (t, .ok r)
  | (t, .error (.breakdown b)) => (t, .error b)
  | (t, .ok o) => carryOut t o

end NativeGlue.CommandLine
