import NativeGlue.Flag

/-!
# Directives

What may be asked of the generator for one declaration. The same records are read from doc comments
and from override files; what is absent leaves the choice to the other source or to the default.
-/

namespace NativeGlue

/-- The offset that a field is placed at. Override files may give it as a truth value, which then
counts as one or zero but is shown as it was written. -/
inductive Offset where
  | int (n : Int)
  | truth (b : Bool)
  deriving DecidableEq, Repr, Inhabited

/-- The offset in bytes. -/
def Offset.bytes : Offset → Int
  | .int n => n
  | .truth b => if b then 1 else 0

/-- What is asked for a native method. -/
structure MethodOptions where
  flags : MethodFlags := ∅
  cast : Option String := none
  accessor : Option String := none
  deriving DecidableEq, Repr, Inhabited

/-- What is asked for a parameter. -/
structure ParamOptions where
  flags : ParamFlags := ∅
  ownership : Option Ownership := none
  cast : Option String := none
  length : Option String := none
  deriving DecidableEq, Repr, Inhabited

/-- What is asked for a field of a struct class. -/
structure FieldOptions where
  flags : FieldFlags := ∅
  cast : Option String := none
  accessor : Option String := none
  platforms : List String := []
  offset : Option Offset := none
  deriving DecidableEq, Repr, Inhabited

/-- What is asked for a struct class; `tagged` says that the class is one. -/
structure StructOptions where
  flags : StructFlags := ∅
  accessor : Option String := none
  tagged : Bool := false
  deriving DecidableEq, Repr, Inhabited

/-- C code put before, behind or in place of a native call. -/
structure AddedCode where
  preCall : Option String := none
  postCall : Option String := none
  body : Option String := none
  deriving DecidableEq, Repr, Inhabited

end NativeGlue
