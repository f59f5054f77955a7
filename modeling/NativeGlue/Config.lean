import NativeGlue.FileTree
import NativeGlue.Model
import NativeGlue.Text.Number
import NativeGlue.Yaml.Document

/-!
# Configuration

The file `.jnigen.yml` names the platforms to generate for and where their inputs and outputs are.
Paths in it are relative to the directory that holds it. Settings of the wrong kind count as absent,
except where nothing sensible could be done without them.
-/

namespace NativeGlue

open NativeGlue.Data

/-! ## 1. Settings -/

/-- The settings of a platform. -/
structure PlatformSettings where
  platform : String
  outputDir : Option Path := none
  sourceRoot : Option Path := none
  metadata : Option Path := none
  wordSize : Int := 64
  define : Option String := none
  deriving DecidableEq, Repr, Inhabited

/-- The settings of a configuration file, with the directory that holds it. -/
structure Config where
  root : Path
  sourceRoot : Option Path := none
  metadata : Option Path := none
  defaultTarget : Option String := none
  excludePaths : List String := []
  statsName : String := "natives"
  jobs : Int := 1
  platforms : List PlatformSettings := []
  deriving DecidableEq, Repr, Inhabited

namespace Config

/-- The name of the configuration file. -/
def fileName : String := ".jnigen.yml"

/-- What is wrong with a configuration, or with what is asked of it. -/
inductive Fault where
  | malformed (file : String)
  | notMapping
  | jobsNotPositive
  | targetsNotMapping
  | wordSize (platform : String) (size : Int)
  | unknownDefault (name : String)
  | unknownTarget (name : String) (known : List String)
  | noOutput (platform : String)
  deriving DecidableEq, Repr

/-- The text of a fault. -/
def Fault.message : Fault → String
  | .malformed f => s!"Failed to parse {f}: malformed"
  | .notMapping => s!"{fileName} must contain a mapping at the root"
  | .jobsNotPositive => "jobs must be a positive integer"
  | .targetsNotMapping => "targets must be a mapping of platform id to settings"
  | .wordSize p n => s!"Target '{p}' has unsupported word_size {n}"
  | .unknownDefault n => s!"default_target '{n}' is not a configured target"
  | .unknownTarget n known =>
    let names := if known.isEmpty then "none" else ", ".intercalate known
    s!"Unknown target '{n}' (configured: {names})"
  | .noOutput p => s!"Target '{p}' has no output directory"

/-- Why no configuration is read. -/
inductive LoadFault where
  | config (f : Fault)
  | os (e : OsError)
  | undecodable
  | value (f : Yaml.Fault)
  deriving DecidableEq, Repr

/-! ## 2. Values of settings -/

/-- The text of a value, unless a number in it is too long to be written. -/
def written (v : Value) : Except LoadFault String :=
  match v.written? with
  | some s => .ok s
  | none => .error (.value .badNumber)

/-- Whether a setting has a text: a text, a number or a truth value does. -/
def hasText : Value → Bool
  | .text _ => true
  | .int _ => true
  | .float _ => true
  | .bool _ => true
  | _ => false

/-- The text of a setting, if it has one. -/
def textOf (v : Value) : Except LoadFault (Option String) :=
  if hasText v then (written v).map some else .ok none

/-- The integer of a setting: a number, or a text that reads as one. -/
def intOf? : Value → Option Int
  | .int n => some n
  | .text s => Text.readInt? s
  | _ => none

/-- The texts of a setting that is a list or a single text. -/
def textsOf (v : Value) : Except LoadFault (List String) :=
  match v.opened with
  | .text s => .ok [s]
  | .list xs => (xs.filter hasText).mapM written
  | .tuple xs => (xs.filter hasText).mapM written
  | .bytes bs => .ok (bs.map fun b => toString b.toNat)
  | _ => .ok []

/-- The path of a setting, below a directory unless it stands by itself. -/
def pathOf (t : FileTree) (root : Path) (v : Value) : Except LoadFault (Option Path) := do
  match ← textOf v with
  | none => pure none
  | some s =>
    if s.isEmpty then pure none
    else pure (some (root / (← (t.expandHome (Path.ofString s)).mapError .os)))

/-- The settings of a platform. -/
def readPlatform (t : FileTree) (root : Path) (platform : String) (v : Value) :
    Except LoadFault PlatformSettings := do
  let ps := match v.opened with
    | .mapping ps => ps
    | _ => []
  let size := (intOf? (Value.member ps "word_size")).getD 0
  let size := if size = 0 then 64 else size
  if size ≠ 32 ∧ size ≠ 64 then
    throw (if Text.isWritable size then .config (.wordSize platform size) else .value .badNumber)
  pure { platform
         outputDir := ← pathOf t root (Value.member ps "output_dir")
         sourceRoot := ← pathOf t root (Value.member ps "source_root")
         metadata := ← pathOf t root (Value.member ps "metadata")
         wordSize := size
         define := ← textOf (Value.member ps "define") }

/-- Puts the settings of a platform in place of those it had. -/
def putPlatform (p : PlatformSettings) : List PlatformSettings → List PlatformSettings
  | [] => [p]
  | q :: r => if q.platform = p.platform then p :: r else q :: putPlatform p r

/-- The settings of all platforms. -/
def readPlatforms (t : FileTree) (root : Path) :
    List (Value × Value) → List PlatformSettings → Except LoadFault (List PlatformSettings)
  | [], done => .ok done
  | (k, v) :: r, done => do
    let p ← readPlatform t root (← written k) v
    readPlatforms t root r (putPlatform p done)

/-- The settings that a mapping holds. -/
def ofPairs (t : FileTree) (root : Path) (ps : List (Value × Value)) : Except LoadFault Config := do
  let sourceRoot ← pathOf t root (Value.member ps "source_root")
  let metadata ← pathOf t root (Value.member ps "metadata")
  let defaultTarget ← textOf (Value.member ps "default_target")
  let excludePaths ← textsOf (Value.member ps "exclude_paths")
  let stats := (← textOf (Value.member ps "stats_name")).getD ""
  let jobs := (intOf? (Value.member ps "jobs")).getD 1
  if jobs < 1 then throw (.config .jobsNotPositive)
  let targets ← match (Value.member ps "targets").opened with
    | .null => pure []
    | .mapping ts => pure ts
    | _ => throw (.config .targetsNotMapping)
  let platforms ← readPlatforms t root targets []
  match defaultTarget with
  | some d =>
    if !platforms.any (·.platform == d) then throw (.config (.unknownDefault d))
  | none => pure ()
  pure { root, sourceRoot, metadata, defaultTarget, excludePaths
         statsName := if stats.isEmpty then "natives" else stats
         jobs, platforms }

/-! ## 3. Loading -/

/-- The path of the configuration file that a path means: the file itself, or the one in the directory
that it leads to. -/
def fileAt (t : FileTree) (p : Path) : Except OsError Path := do
  let p ← t.expandHome p
  if (← t.look p) = some .directory then t.resolve (p / Path.ofString fileName) else t.resolve p

/-- The value of a configuration file; one that holds nothing is an empty mapping. -/
def readValue (t : FileTree) (file : Path) : Except LoadFault Value :=
  match t.readBytes file with
  | .error e => .error (.os e)
  | .ok bytes =>
    match Text.decodeText? bytes with
    | none => .error .undecodable
    | some text =>
      if text.toList.all Text.isBlank then .ok (.mapping [])
      else match Yaml.read text with
        | .error .malformed => .error (.config (.malformed file.name))
        | .error f => .error (.value f)
        | .ok v => .ok (if v.isTrue then v else .mapping [])

/-- Loads the configuration at a path; where there is none all settings have their defaults. -/
def load (t : FileTree) (p : Path) : Except LoadFault Config := do
  let file ← (fileAt t p).mapError .os
  let root := file.parent
  if (← (t.look file).mapError .os).isNone then pure { root }
  else match (← readValue t file).opened with
    | .mapping ps => ofPairs t root ps
    | _ => throw (.config .notMapping)

/-! ## 4. Targets -/

/-- The names of the platforms, in the order of the file. -/
def targetNames (c : Config) : List String := c.platforms.map (·.platform)

/-- The preprocessor symbols of the platforms. -/
def platformSymbols (c : Config) : List (String × String) :=
  c.platforms.map fun p => (p.platform, guardSymbol p.platform p.define)

/-- The target of a platform, with paths given for it in place of those configured. -/
def target (c : Config) (name : String) (outputDir sourceRoot : Option Path) :
    Except Fault Target := do
  match c.platforms.find? (·.platform == name) with
  | none => throw (.unknownTarget name c.targetNames)
  | some p =>
    match outputDir <|> p.outputDir with
    | none => throw (.noOutput name)
    | some out =>
      pure { platform := name, outputDir := out
             sourceRoot := (sourceRoot <|> p.sourceRoot <|> c.sourceRoot).getD c.root
             metadata := p.metadata <|> c.metadata
             wordSize := p.wordSize, define := p.define.getD "", statsName := c.statsName }

/-- The targets of all platforms. -/
def everyTarget (c : Config) (sourceRoot : Option Path) : Except Fault (List Target) :=
  c.platforms.mapM fun p => c.target p.platform none sourceRoot

end Config

end NativeGlue
