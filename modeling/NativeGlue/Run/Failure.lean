import NativeGlue.Mapping.Mapper
import NativeGlue.Output
import NativeGlue.Overlay.File
import NativeGlue.Source.Fault
import NativeGlue.Statistics

/-!
# What stops a run

A target fails for a reason that is told in words, and other targets go on. Some faults of the inputs
are of another kind: no text says what they are, and they stop all targets.
-/

namespace NativeGlue.Run

/-- Why a target fails. -/
inductive Failure where
  | overlay (path : Path) (c : Overlay.Cause)
  /-- The path of the overrides is refused. -/
  | overlayPath (e : OsError)
  | setup (f : Mapping.SetupFault)
  | stats (f : StatsFault)
  | source (f : Source.SourceFault)
  | discovery (e : OsError)
  | mapping (identity : String) (c : Mapping.Cause)
  | output (f : Output.Fault)
  deriving Repr

/-- The text of a failure. -/
def Failure.message : Failure → String
  | .overlay p c => c.message p
  | .overlayPath e => e.message
  | .setup f => f.message
  | .stats f => f.message
  | .source f => f.message
  | .discovery e => e.message
  | .mapping i c => Mapping.declarationMessage i c
  | .output f => f.message

/-- What stops all targets. -/
inductive Crash where
  /-- Bytes that should be text are none. -/
  | undecodable
  /-- An override file holds a value that does not exist. -/
  | value (f : Yaml.Fault)
  /-- A number is too long, or made of digits that make none. -/
  | badNumber
  /-- The stored statistics are nested too deep to be read. -/
  | tooDeep
  /-- A path can lead nowhere. -/
  | path (e : OsError)
  /-- A mapping rule cannot be filled in. -/
  | template (f : Template.Fault)
  deriving Repr

/-- The text of what stops all targets. -/
def Crash.message : Crash → String
  | .undecodable => "an input is no UTF-8 text"
  | .value _ => "an override file holds a value that does not exist"
  | .badNumber => "a number cannot be read or written"
  | .tooDeep => "the stored statistics are nested too deep"
  | .path e => e.message
  | .template _ => "a mapping rule cannot be filled in"

/-- What ends the work on a target early. -/
inductive Halt where
  | failure (f : Failure)
  | crash (c : Crash)
  deriving Repr

/-- A refusal: what the system refuses is a failure, and a path that it cannot be asked about is not. -/
def Halt.ofOs (failure : OsError → Failure) (e : OsError) : Halt :=
  if e.cause.isSystems then .failure (failure e) else .crash (.path e)

/-- A fault of an override file. -/
def Halt.ofOverlay : Overlay.Fault → Halt
  | .overlay p c => .failure (.overlay p c)
  | .os e => .ofOs .overlayPath e
  | .undecodable => .crash .undecodable
  | .value f => .crash (.value f)

/-- A fault of the stored statistics. -/
def Halt.ofStats : StatsFault → Halt
  | .longNumber => .crash .badNumber
  | .tooDeep => .crash .tooDeep
  | .undecodable => .crash .undecodable
  | .os e => .ofOs (fun e => .stats (.os e)) e
  | f => .failure (.stats f)

/-- A fault of the sources. -/
def Halt.ofSource : Source.Fault → Halt
  | .source f => .failure (.source f)
  | .discovery e => .ofOs .discovery e
  | .notANumber => .crash .badNumber

/-- A fault of an output directory. -/
def Halt.ofOutput : Output.Fault → Halt
  | .os e => .ofOs (fun e => .output (.os e)) e
  | f => .failure (.output f)

/-- A fault of the mapping. -/
def Halt.ofMapping : Mapping.Fault → Halt
  | .declaration i c => .failure (.mapping i c)
  | .template f => .crash (.template f)
  | .longNumber => .crash .badNumber

end NativeGlue.Run
