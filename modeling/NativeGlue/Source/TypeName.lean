import NativeGlue.Flag
import NativeGlue.HostType

/-!
# What type names mean

The name of a type in a declaration becomes a `HostType`: primitives and texts are known by their
spelling, classes by the classes of the model, and what is left is taken at its word. A `long` may
then turn out to be a pointer, if a directive says so.
-/

namespace NativeGlue.Source

open NativeGlue.Text

/-- The classes that are known without being declared. -/
def builtinClasses : List String := ["Object", "String", "Class", "Throwable", "Runnable"]

/-- Takes the pairs of brackets at the end of a reversed text away and counts them. -/
def dropBrackets : Nat → List Char → Nat × List Char
  | n, ']' :: '[' :: r => dropBrackets (n + 1) r
  | n, r => (n, r)

/-- What follows the last dot of a text. -/
def afterLastDot (s : String) : String := (splitAt '.' s).getLast?.getD ""

/-- What a type name means, given the struct classes and the full names of all declared classes, with
slashes. -/
def typeNamed (text : String) (structClassNames : List String) (qualified : List (String × String)) :
    HostType :=
  let (dimensions, rest) := dropBrackets 0 text.toList.reverse
  let base := String.ofList rest.reverse
  let simple := afterLastDot base
  if base = "void" then .void
  else if primitives.contains base then
    { kind := if dimensions = 0 then .primitive else .array, name := base, dimensions }
  else if base = "String" ∨ base = "java.lang.String" then
    { kind := if dimensions = 0 then .string else .array, name := "String", dimensions,
      qualified := some "java/lang/String" }
  else
    let path :=
      if base.contains '.' then replaceChars (· == '.') '/' base
      else match qualified.lookup simple with
        | some q => q
        | none => if builtinClasses.contains simple then "java/lang/" ++ simple else simple
    if structClassNames.contains simple ∧ dimensions = 0 then
      { kind := .struct, name := simple, qualified := some path }
    else { kind := .object, name := simple, dimensions, qualified := some path }

/-- A `long` marked as a callback is one, and a `long` cast to a pointer is a handle. -/
def asPointer (t : HostType) (callback : Bool) (cast : Option String) : HostType :=
  if t.kind = .primitive ∧ t.name = "long" then
    if callback then { kind := .callback, name := "long" }
    else if (cast.getD "").contains '*' then { kind := .handle, name := "long" }
    else t
  else t

/-- Who owns the buffer of a parameter unless a directive says so. -/
def usualOwnership (t : HostType) : Ownership :=
  if t.kind = .string then .borrowed else .callerOwned

/-- The name of the native function behind a method: the method's name without one underscore at its
beginning. -/
def usualNativeName (method : String) : String :=
  match method.toList with
  | '_' :: c :: r => String.ofList (c :: r)
  | _ => method

end NativeGlue.Source
