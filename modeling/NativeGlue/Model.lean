import NativeGlue.Directive.Basic
import NativeGlue.HostType
import NativeGlue.Path

/-!
# The source model

What the sources declare, with all directives applied: native methods, struct classs, and marks for
declarations that are left out on purpose. Every declaration has an identity, the text that joins it
to overrides and to its number in the statistics; identities depend on the sources alone.
-/

namespace NativeGlue

/-! ## 1. Identities and positions -/

/-- What kind of declaration an identity names. -/
inductive DeclarationKind where
  | method
  | field
  | struct
  deriving DecidableEq, Repr, Inhabited

/-- The word of a kind. -/
def DeclarationKind.word : DeclarationKind → String
  | .method => "method"
  | .field => "field"
  | .struct => "struct"

/-- The name of a declaration: its class, its own name, and for methods the descriptors of the
parameters. -/
structure Identity where
  enclosing : String
  name : String
  signature : String := ""
  kind : DeclarationKind := .method
  deriving DecidableEq, Repr, Inhabited

namespace Identity

/-- The key of a declaration. -/
def key (i : Identity) : String :=
  match i.kind with
  | .struct => i.enclosing
  | .field => i.enclosing ++ "#" ++ i.name
  | .method => i.enclosing ++ "." ++ i.name ++ "(" ++ i.signature ++ ")"

/-- The key without the parameters: it means all methods of the name. -/
def baseKey (i : Identity) : String :=
  match i.kind with
  | .method => i.enclosing ++ "." ++ i.name
  | _ => i.key

end Identity

/-- A line of a source file. -/
structure Position where
  path : Path
  line : Nat
  deriving DecidableEq, Repr, Inhabited

/-- A position as `path:line`. -/
protected def Position.toString (p : Position) : String :=
  p.path.toString ++ ":" ++ toString p.line

instance : ToString Position := ⟨Position.toString⟩

/-! ## 2. Declarations -/

/-- A parameter of a native method. -/
structure Parameter where
  index : Nat
  name : String
  type : HostType
  ownership : Ownership := .callerOwned
  cast : Option String := none
  lengthParam : Option Nat := none
  flags : ParamFlags := ∅
  deriving DecidableEq, Repr, Inhabited

/-- The name of a parameter in the C function. -/
def Parameter.arg (p : Parameter) : String := s!"arg{p.index}"

/-- A native method. -/
structure NativeMethod where
  identity : Identity
  parameters : List Parameter
  returnType : HostType
  flags : MethodFlags := ∅
  accessor : String
  position : Position
  cast : Option String := none
  fragments : AddedCode := {}
  overloaded : Bool := false
  deriving DecidableEq, Repr, Inhabited

/-- The name of a method. -/
def NativeMethod.name (m : NativeMethod) : String := m.identity.name

/-- The descriptor of a method. -/
def NativeMethod.descriptor (m : NativeMethod) : String :=
  "(" ++ String.join (m.parameters.map (·.type.descriptor)) ++ ")" ++ m.returnType.descriptor

/-- A field of a struct class. -/
structure StructMember where
  identity : Identity
  type : HostType
  accessor : String
  position : Position
  cast : Option String := none
  platforms : List String := []
  offset : Option Offset := none
  flags : FieldFlags := ∅
  deriving DecidableEq, Repr, Inhabited

/-- The name of a field. -/
def StructMember.name (f : StructMember) : String := f.identity.name

/-- A class that stands for a C struct, each field for a member of it. -/
structure StructClass where
  identity : Identity
  qualified : String
  fields : List StructMember
  nativeName : String
  position : Position
  flags : StructFlags := ∅
  deriving DecidableEq, Repr, Inhabited

/-- The name of a struct class. -/
def StructClass.name (s : StructClass) : String := s.identity.enclosing

/-- Whether code is generated for a struct class. -/
def StructClass.generated (s : StructClass) : Bool := !s.flags.noGen

/-- A native method left out on purpose. Overrides for it are not stale. -/
structure Omission where
  identity : Identity
  position : Position
  deriving DecidableEq, Repr, Inhabited

/-- A class that contributes native methods or a struct class, with its file. -/
structure ClassUnit where
  path : Path
  className : String
  package : String
  natives : List NativeMethod := []
  structs : List StructClass := []
  tombstones : List Omission := []
  deriving DecidableEq, Repr, Inhabited

/-- The class name behind its package. -/
def ClassUnit.fullName (u : ClassUnit) : String :=
  if u.package.isEmpty then u.className else u.package ++ "." ++ u.className

/-- All that the sources declare, in a stable order. -/
structure Model where
  units : List ClassUnit
  deriving DecidableEq, Repr, Inhabited

namespace Model

/-- The native methods of all units. -/
def natives (m : Model) : List NativeMethod := m.units.flatMap (·.natives)

/-- The struct classs of all units. -/
def structs (m : Model) : List StructClass := m.units.flatMap (·.structs)

/-- The identities of a unit: methods, struct classes with their fields, and what was left out. -/
def identitiesOf (u : ClassUnit) : List Identity :=
  u.natives.map (·.identity)
    ++ u.structs.flatMap (fun s => s.identity :: s.fields.map (·.identity))
    ++ u.tombstones.map (·.identity)

/-- Every identity that the sources declare. -/
def identities (m : Model) : List Identity := m.units.flatMap identitiesOf

end Model

/-! ## 3. Targets and warnings -/

/-- The preprocessor symbol of a platform: the one configured for it, or one made of its name. -/
def guardSymbol (platform : String) (define : Option String) : String :=
  match define with
  | some d => if d.isEmpty then "JNIGEN_" ++ Text.upper platform else d
  | none => "JNIGEN_" ++ Text.upper platform

/-- A platform, its inputs and its destination. -/
structure Target where
  platform : String
  outputDir : Path
  sourceRoot : Path
  metadata : Option Path := none
  wordSize : Int := 64
  define : String := ""
  statsName : String := "natives"
  deriving DecidableEq, Repr, Inhabited

/-- The symbol that is defined when code is compiled for a target. -/
def Target.guard (t : Target) : String := guardSymbol t.platform (some t.define)

/-- The size of a pointer in bytes. -/
def Target.pointerSize (t : Target) : Int := t.wordSize.fdiv 8

/-- A finding that does not stop a run. -/
structure Warning where
  category : String
  message : String
  location : Option String := none
  deriving DecidableEq, Repr, Inhabited

/-- Where a warning arose, in parentheses, if that is known. -/
def Warning.place (w : Warning) : String :=
  match w.location with
  | none => ""
  | some l => if l.isEmpty then "" else s!" ({l})"

/-- The text of a warning. -/
protected def Warning.toString (w : Warning) : String :=
  s!"[{w.category}] {w.message}{w.place}"

instance : ToString Warning := ⟨Warning.toString⟩

end NativeGlue
