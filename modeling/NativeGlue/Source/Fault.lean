import NativeGlue.Directive.Comment
import NativeGlue.FileTree

/-!
# Faults of sources

What may be wrong with a source file or with a directive in it, and the text that says so. Each fault
knows its file and, unless the file does not follow the grammar at all, its line.
-/

namespace NativeGlue.Source

/-- What is wrong. -/
inductive Cause where
  | malformed
  | variableArity
  | unreadable (e : OsError)
  | directive (f : Directive.Fault)
  | duplicateClass (name : String) (first : Path)
  | unknownParameter (name : String)
  | callbackNotLong (name : String)
  | lengthNeedsArray (name : String)
  | lengthNamesNone (name reference : String)
  | lengthNotIntegral (target name : String)
  deriving DecidableEq, Repr

/-- The words of a cause. -/
def Cause.text : Cause → String
  | .malformed => "syntax error"
  | .variableArity => "variable-arity native methods are not supported"
  | .unreadable e => s!"cannot read source: {e.message}"
  | .directive f => f.message
  | .duplicateClass name first => s!"class '{name}' is also declared in {first.toString}"
  | .unknownParameter name => s!"@param directive names unknown parameter '{name}'"
  | .callbackNotLong name => s!"callback flag on '{name}' requires a long parameter"
  | .lengthNeedsArray name => s!"length= on '{name}' requires an array parameter"
  | .lengthNamesNone name ref => s!"length= on '{name}' names no other parameter: '{ref}'"
  | .lengthNotIntegral target name =>
    s!"length parameter '{target}' of '{name}' must be an integral primitive"

/-- A fault of a source file. -/
structure SourceFault where
  path : Path
  line : Int
  column : Nat := 0
  cause : Cause
  deriving DecidableEq, Repr

/-- The text of a fault. -/
def SourceFault.message (f : SourceFault) : String :=
  match f.cause with
  | .malformed => s!"{f.path.toString}: {f.cause.text}"
  | _ => s!"{f.path.toString}:{f.line}:{f.column}: {f.cause.text}"

/-- Why there is no model. -/
inductive Fault where
  | source (f : SourceFault)
  | discovery (e : OsError)
  /-- A reference to a parameter is made of digits that make no number. -/
  | notANumber
  deriving DecidableEq, Repr

end NativeGlue.Source
