import NativeGlue.Java.Parse
import NativeGlue.Text.Blank
import NativeGlue.Text.Substring
import NativeGlue.Text.Utf8

/-!
# Declarations of a source file

What a source file declares, as a typed tree: types, the members inside them, and types among those
members to any depth. Code, initial values and imports are gone. Texts of types and modifiers are
those of the source, since later stages give them a meaning.
-/

namespace NativeGlue.Java

open NativeGlue.Text

/-! ## 1. The tree -/

/-- A doc comment and the line it begins on. -/
structure DocComment where
  text : String
  line : Nat
  deriving DecidableEq, Repr, Inhabited

/-- A parameter of a method. One of variable arity stands for any number of arguments. Lines and
columns begin at one. -/
structure ParameterDecl where
  name : String
  type : String
  line : Nat
  column : Nat
  variableArity : Bool := false
  deriving DecidableEq, Repr, Inhabited

/-- A method, with the words of its modifiers. -/
structure MethodDecl where
  name : String
  modifiers : List String
  returnType : String
  parameters : List ParameterDecl
  line : Nat
  doc : Option DocComment := none
  deriving DecidableEq, Repr, Inhabited

/-- Whether a method is implemented outside the language. -/
def MethodDecl.isNative (m : MethodDecl) : Bool := m.modifiers.contains "native"

/-- A variable of a field declaration, with the brackets behind its name. -/
structure VariableDecl where
  name : String
  brackets : String
  line : Nat
  deriving DecidableEq, Repr, Inhabited

/-- A field declaration, which may declare several variables. -/
structure FieldDecl where
  modifiers : List String
  type : String
  declared : List VariableDecl
  doc : Option DocComment := none
  deriving DecidableEq, Repr, Inhabited

/-- Whether a field belongs to each instance and to its lasting state. -/
def FieldDecl.isInstance (f : FieldDecl) : Bool :=
  !(f.modifiers.contains "static" || f.modifiers.contains "transient")

/-- The forms of types. -/
inductive TypeForm where
  | classType
  | interfaceType
  | enumType
  | recordType
  | annotationType
  deriving DecidableEq, Repr, Inhabited

/-- What a type declaration says before its body. -/
structure TypeHead where
  form : TypeForm
  name : String
  line : Nat
  doc : Option DocComment := none
  deriving DecidableEq, Repr, Inhabited

/-- A member of a type. A constant of an enumeration may have members of its own. -/
inductive Member where
  | method (m : MethodDecl)
  | field (f : FieldDecl)
  | constant (name : String) (members : List Member)
  | type (head : TypeHead) (members : List Member)
  deriving Repr, Inhabited

/-- A type that stands in no other one. -/
structure TypeDecl where
  head : TypeHead
  members : List Member
  deriving Repr, Inhabited

/-- The declarations of a source file: its package, empty if it names none, and its types. -/
structure SourceFile where
  package : String
  types : List TypeDecl
  deriving Repr, Inhabited

/-! ## 2. Reading the tree -/

section Reading

variable (source : Array Char)

/-- The text of a tree. -/
def textOf (t : Tree NodeKind) : String :=
  String.ofList (source.extract t.start.index t.stop).toList

/-- A text without its blanks. -/
def compact (s : String) : String := String.ofList (s.toList.filter fun c => !isBlank c)

/-- The text of the first tree of a kind inside a tree. -/
def partText (t : Tree NodeKind) (k : NodeKind) : String := ((t.child? k).map (textOf source)).getD ""

/-- The line that a tree begins on. -/
def lineOf (t : Tree NodeKind) : Nat := t.start.line + 1

/-- The column that a tree begins at. -/
def columnOf (t : Tree NodeKind) : Nat := t.start.column + 1

/-- The doc comment right before a tree. -/
def docOf (t : Tree NodeKind) : Option DocComment := do
  let c ← t.comments.getLast?
  if c.block && startsWith c.text "/**" then some ⟨c.text, c.line⟩ else none

/-- The words of the modifiers of a declaration, without annotations. A blank inside the arguments of
an annotation makes a word of what follows it. -/
def modifiersOf (t : Tree NodeKind) : List String :=
  (words (partText source t .modifiers)).filter fun w => !startsWith w "@"

/-- A parameter. -/
def parameterOf (t : Tree NodeKind) : ParameterDecl :=
  { name := partText source t .name
    type := compact (partText source t .type ++ partText source t .dimensions)
    line := lineOf t
    column := columnOf t
    variableArity := t.kind == .spread }

/-- A method. -/
def methodOf (t : Tree NodeKind) : MethodDecl :=
  { name := partText source t .name
    modifiers := modifiersOf source t
    returnType := compact (partText source t .type)
    parameters := (t.children.filter fun c => c.kind == .parameter || c.kind == .spread).map
      (parameterOf source)
    line := lineOf t
    doc := docOf t }

/-- A variable of a field declaration. -/
def variableOf (t : Tree NodeKind) : VariableDecl :=
  { name := partText source t .name
    brackets := compact (partText source t .dimensions)
    line := lineOf t }

/-- A field declaration. -/
def fieldOf (t : Tree NodeKind) : FieldDecl :=
  { modifiers := modifiersOf source t
    type := compact (partText source t .type)
    declared := (t.children.filter (·.kind == .declarator)).map (variableOf source)
    doc := docOf t }

/-- The form of the types that a tree declares. -/
def formOf? : NodeKind → Option TypeForm
  | .classDecl => some .classType
  | .interfaceDecl => some .interfaceType
  | .enumDecl => some .enumType
  | .recordDecl => some .recordType
  | .annotationDecl => some .annotationType
  | _ => none

/-- What a type declaration says before its body. -/
def headOf (form : TypeForm) (t : Tree NodeKind) : TypeHead :=
  { form, name := partText source t .name, line := lineOf t, doc := docOf t }

mutual

/-- The member that a tree is, if it is one. -/
def memberOf? (t : Tree NodeKind) : Option Member :=
  match t with
  | .node k a b c cs =>
    match k with
    | .method => some (.method (methodOf source (.node k a b c cs)))
    | .field => some (.field (fieldOf source (.node k a b c cs)))
    | .constant => some (.constant (partText source (.node k a b c cs) .name) (membersOf cs))
    | _ => (formOf? k).map fun form => .type (headOf source form (.node k a b c cs)) (membersOf cs)

/-- The members among trees, in order. -/
def membersOf (ts : List (Tree NodeKind)) : List Member :=
  match ts with
  | [] => []
  | t :: r => match memberOf? t with
    | some m => m :: membersOf r
    | none => membersOf r

end

/-- The types among members. -/
def typesAmong (ms : List Member) : List TypeDecl :=
  ms.filterMap fun
    | .type head members => some ⟨head, members⟩
    | _ => none

/-- The declarations that the trees of a file hold. Of several packages the last one counts. -/
def sourceFileOf (ts : List (Tree NodeKind)) : SourceFile :=
  let packages := ts.filter (·.kind == .package)
  { package := compact (((packages.getLast?).map fun t => partText source t .name).getD "")
    types := typesAmong (membersOf source ts) }

end Reading

/-- The declarations of a source file, or nothing if it does not follow the grammar. -/
def SourceFile.ofBytes? (bytes : ByteArray) : Option SourceFile := do
  let source := charsOf bytes
  let ts ← parse? source
  pure (sourceFileOf (source.map (·.1)).toArray ts)

end NativeGlue.Java
