import NativeGlue.Java.Declaration

/-!
# The outline of a source file

What the generator takes from a source file: the classes that stand in no other type, each with its
native methods and its instance fields. Native methods anywhere else get no code; they are listed as
skipped, under the names of the types around them.
-/

namespace NativeGlue.Java

/-! ## 1. Outlines -/

/-- A parameter of a native method. -/
structure NativeParameter where
  name : String
  type : String
  line : Nat
  deriving DecidableEq, Repr, Inhabited

/-- A native method as its source writes it. -/
structure NativeDecl where
  name : String
  parameters : List NativeParameter
  returnType : String
  modifiers : List String
  line : Nat
  doc : Option DocComment := none
  deriving DecidableEq, Repr, Inhabited

/-- An instance field as its source writes it. -/
structure InstanceField where
  name : String
  type : String
  line : Nat
  doc : Option DocComment := none
  deriving DecidableEq, Repr, Inhabited

/-- A class that stands in no other type. -/
structure ClassOutline where
  name : String
  line : Nat
  natives : List NativeDecl
  fields : List InstanceField
  doc : Option DocComment := none
  deriving DecidableEq, Repr, Inhabited

/-- The outline of a file. -/
structure FileOutline where
  package : String
  classes : List ClassOutline
  skipped : List String := []
  deriving DecidableEq, Repr, Inhabited

/-- Why a file has no outline. -/
inductive OutlineFault where
  | malformed
  | variableArity (line column : Nat)
  deriving DecidableEq, Repr, Inhabited

/-! ## 2. What is skipped -/

mutual

/-- The native methods of a member that get no code; `outer` are the names of the types around it. -/
def Member.skipped (outer : List String) : Member → List String
  | .method m => if m.isNative then [".".intercalate (outer ++ [m.name])] else []
  | .field _ => []
  | .constant _ _ => []
  | .type head members =>
    if head.form = .annotationType then [] else skippedIn (outer ++ [head.name]) members

/-- The native methods of several members that get no code. -/
def skippedIn (outer : List String) : List Member → List String
  | [] => []
  | m :: r => m.skipped outer ++ skippedIn outer r

end

/-! ## 3. What is kept -/

/-- The parameters of a native method, none of which may be of variable arity. -/
def nativeParameters : List ParameterDecl → Except OutlineFault (List NativeParameter)
  | [] => .ok []
  | p :: r =>
    if p.variableArity then .error (.variableArity p.line p.column)
    else (nativeParameters r).map (⟨p.name, p.type, p.line⟩ :: ·)

/-- A native method. -/
def nativeOf (m : MethodDecl) : Except OutlineFault NativeDecl := do
  let ps ← nativeParameters m.parameters
  pure ⟨m.name, ps, m.returnType, m.modifiers, m.line, m.doc⟩

/-- The instance fields of a field declaration. -/
def fieldsOf (f : FieldDecl) : List InstanceField :=
  if f.isInstance then f.declared.map fun v => ⟨v.name, f.type ++ v.brackets, v.line, f.doc⟩
  else []

/-- Adds a further member of a class to the outline of the class, and what it skips to what was
skipped so far. -/
def addMember (c : ClassOutline × List String) (m : Member) :
    Except (List String × OutlineFault) (ClassOutline × List String) :=
  match m with
  | .method d =>
    if d.isNative then
      match nativeOf d with
      | .ok n => .ok ({ c.1 with natives := c.1.natives ++ [n] }, c.2)
      | .error e => .error (c.2, e)
    else .ok c
  | .field f => .ok ({ c.1 with fields := c.1.fields ++ fieldsOf f }, c.2)
  | .constant _ _ => .ok c
  | .type _ _ => .ok (c.1, c.2 ++ m.skipped [c.1.name])

/-- Adds a further type to the outline of a file. A failure comes with what was skipped before. -/
def addType (o : FileOutline) (t : TypeDecl) : Except (List String × OutlineFault) FileOutline :=
  match t.head.form with
  | .classType => do
    let start : ClassOutline := ⟨t.head.name, t.head.line, [], [], t.head.doc⟩
    let (c, skipped) ← t.members.foldlM addMember (start, o.skipped)
    pure { o with classes := o.classes ++ [c], skipped := skipped }
  | .annotationType => .ok o
  | _ => .ok { o with skipped := o.skipped ++ skippedIn [t.head.name] t.members }

/-- The outline of a file's declarations. -/
def SourceFile.outline (f : SourceFile) : Except (List String × OutlineFault) FileOutline :=
  f.types.foldlM addType ⟨f.package, [], []⟩

/-- The outline of a file. A failure comes with what was skipped before. -/
def FileOutline.ofBytes (bytes : ByteArray) :
    Except (List String × OutlineFault) FileOutline :=
  match SourceFile.ofBytes? bytes with
  | some f => f.outline
  | none => .error ([], .malformed)

end NativeGlue.Java
