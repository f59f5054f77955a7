import NativeGlue.Text.Substring

/-!
# Types of the host language

A type as a native declaration uses it, once it is known what its name means: a primitive, a text, an
array, a class that stands for a struct, a number that stands for a pointer, or any other class. From it
follow the key under which mapping rules are filed and the descriptor that the virtual machine uses.
-/

namespace NativeGlue

/-- What a type means to the generator. -/
inductive HostKind where
  | void
  | primitive
  | string
  | array
  | struct
  | handle
  | callback
  | object
  deriving DecidableEq, Repr, Inhabited

/-- The word of a kind. -/
def HostKind.word : HostKind → String
  | .void => "void"
  | .primitive => "primitive"
  | .string => "string"
  | .array => "array"
  | .struct => "struct"
  | .handle => "handle"
  | .callback => "callback"
  | .object => "object"

/-- The primitive types, in the order of the language's definition. -/
def primitives : List String :=
  ["boolean", "byte", "char", "short", "int", "long", "float", "double"]

/-- The primitive types that count. -/
def integralPrimitives : List String := ["byte", "char", "short", "int", "long"]

/-- The descriptor letter of a primitive type or of `void`. -/
def primitiveDescriptor? : String → Option String
  | "boolean" => some "Z"
  | "byte" => some "B"
  | "char" => some "C"
  | "short" => some "S"
  | "int" => some "I"
  | "long" => some "J"
  | "float" => some "F"
  | "double" => some "D"
  | "void" => some "V"
  | _ => none

/-- A type: its kind, its simple name, how many times it is an array, and the name of its class with
slashes where one is known. -/
structure HostType where
  kind : HostKind
  name : String
  dimensions : Nat := 0
  qualified : Option String := none
  deriving DecidableEq, Repr, Inhabited

namespace HostType

/-- The type of a method that returns nothing. -/
def void : HostType := { kind := .void, name := "void" }

/-- The type as it is written. -/
protected def toString (t : HostType) : String := t.name ++ Text.copies t.dimensions "[]"

instance : ToString HostType := ⟨HostType.toString⟩

/-- The key of the mapping rule for a type. Structs, handles and callbacks share a rule each. -/
def key (t : HostType) : String :=
  match t.kind with
  | .struct => "struct"
  | .handle => "handle"
  | .callback => "callback"
  | _ => t.toString

/-- The class name that a descriptor shows. -/
def className (t : HostType) : String :=
  match t.qualified with
  | some q => if q.isEmpty then t.name else q
  | none => t.name

/-- The descriptor of the element type. -/
def elementDescriptor (t : HostType) : String :=
  match primitiveDescriptor? t.name with
  | some d => d
  | none =>
    if t.kind = .handle ∨ t.kind = .callback then "J" else "L" ++ t.className ++ ";"

/-- The descriptor of a type as the source declares it: a `long` that stands for a pointer is still
a `long`. -/
def descriptor (t : HostType) : String := Text.copies t.dimensions "[" ++ t.elementDescriptor

/-- Whether a type is an array. -/
def isArray (t : HostType) : Bool := 0 < t.dimensions

end HostType

end NativeGlue
