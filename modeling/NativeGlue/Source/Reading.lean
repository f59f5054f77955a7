import NativeGlue.Java.Outline
import NativeGlue.Overlay.Store
import NativeGlue.Source.Discovery
import NativeGlue.Source.Fault
import NativeGlue.Source.TypeName

/-!
# Building the source model

The outlines of all source files, with the directives in their doc comments and the overrides of the
store, become a `Model`. Identities come from the sources alone: types are resolved without any
directive to get the signature, the identity finds the overrides, and only then do casts and flags
turn a `long` into a pointer.

Where a doc comment and the store speak about the same thing the doc comment wins; flags add up.
-/

namespace NativeGlue.Source

open NativeGlue.Java NativeGlue.Directive NativeGlue.Overlay NativeGlue.Text

/-! ## 1. Classes by name -/

/-- The outline of a source file, under the path by which messages name the file. -/
structure OutlinedFile where
  path : Path
  outline : FileOutline
  deriving Repr, Inhabited

/-- A class with the file it stands in; `place` counts the file and the class in it. -/
structure DeclaredClass where
  place : Nat × Nat
  path : Path
  package : String
  outline : ClassOutline
  directives : DocOptions := {}

namespace DeclaredClass

/-- The name of a class. -/
def name (e : DeclaredClass) : String := e.outline.name

/-- The name of a class behind its package, with slashes. -/
def qualified (e : DeclaredClass) : String :=
  if e.package.isEmpty then e.name else replaceChars (· == '.') '/' e.package ++ "/" ++ e.name

/-- Whether a class matters to the generator: two classes of one name may not both. -/
def hasBindings (store : Store) (e : DeclaredClass) : Bool :=
  !e.outline.natives.isEmpty || e.directives.struct.isSome || store.contains e.name

end DeclaredClass

/-- The classes of all files in order. -/
def classesOf (files : List OutlinedFile) : List DeclaredClass :=
  files.zipIdx.flatMap fun (f, i) =>
    f.outline.classes.zipIdx.map fun (c, k) => { place := (i, k), path := f.path,
                                                 package := f.outline.package, outline := c }

/-- Reads the directives of a doc comment. -/
def directivesOf (path : Path) (doc : Option DocComment) : Except Fault DocOptions :=
  match doc with
  | none => .ok {}
  | some d => (readComment (some d.text) d.line).mapError fun (line, f) =>
      .source { path, line, cause := .directive f }

/-- Puts a class under its name. -/
def putClass (e : DeclaredClass) : List (String × DeclaredClass) → List (String × DeclaredClass)
  | [] => [(e.name, e)]
  | (k, x) :: r => if k = e.name then (k, e) :: r else (k, x) :: putClass e r

/-- Adds a class to those known by name. A class that does not matter gives way to a later one. -/
def addClass (store : Store) (known : List (String × DeclaredClass)) (e : DeclaredClass) :
    Except Fault (List (String × DeclaredClass)) := do
  let directives ← directivesOf e.path e.outline.doc
  let e := { e with directives }
  match known.lookup e.name with
  | none => pure (putClass e known)
  | some x =>
    if !x.hasBindings store then pure (putClass e known)
    else if e.hasBindings store then
      throw (.source { path := e.path, line := e.outline.line, cause := .duplicateClass e.name x.path })
    else pure known

/-- The classes by name. -/
def classesByName (store : Store) (classes : List DeclaredClass) :
    Except Fault (List (String × DeclaredClass)) :=
  classes.foldlM (addClass store) []

/-! ## 2. What all classes know -/

/-- The names of classes that mean something beyond themselves: the struct classes, and the full names
of all. -/
structure Scope where
  structClassNames : List String
  qualified : List (String × String)
  deriving Repr, Inhabited

/-- The classes with fields that native methods take as arguments. -/
def passedByValue (known : List (String × DeclaredClass)) : List String :=
  known.flatMap fun (_, e) => e.outline.natives.flatMap fun n => n.parameters.filterMap fun p =>
    match known.lookup (afterLastDot p.type) with
    | some x => if x.outline.fields.isEmpty then none else some x.name
    | none => none

/-- A class is a struct class if a directive or an override says so, or if a native method takes it and
it has fields. -/
def scopeOf (store : Store) (known : List (String × DeclaredClass)) : Scope :=
  { structClassNames :=
      (known.filterMap fun (n, e) => if e.directives.struct.isSome then some n else none)
        ++ store.structClassNames.filter (fun n => (known.lookup n).isSome)
        ++ passedByValue known
    qualified := known.map fun (n, e) => (n, e.qualified) }

/-- What a type name means in a scope. -/
def Scope.resolve (s : Scope) (text : String) : HostType :=
  typeNamed text s.structClassNames s.qualified

/-! ## 3. Methods -/

/-- A fault at a line of a class's file. -/
def faultAt (path : Path) (line : Nat) (cause : Cause) : Fault := .source { path, line, cause }

/-- What the doc comment says about a parameter. -/
def inlineParam (inline : DocOptions) (name : String) : ParamOptions :=
  (inline.params.lookup name).getD {}

/-- What the store says about a parameter. -/
def storedParam (record : Option Record) (index : Nat) (name : String) : ParamOptions :=
  (record.bind (·.param? index name)).getD {}

/-- A parameter with its directives. -/
def readParam (path : Path) (inline : DocOptions) (record : Option Record) (scope : Scope)
    (p : NativeParameter) (index : Nat) : Except Fault Parameter := do
  let d := inlineParam inline p.name
  let m := storedParam record index p.name
  let flags := d.flags ∪ m.flags
  let cast := d.cast <|> m.cast
  let declared := scope.resolve p.type
  let type := asPointer declared flags.callback cast
  if flags.callback && type.kind != .callback then
    throw (faultAt path p.line (.callbackNotLong p.name))
  pure { index, name := p.name, type,
         ownership := (d.ownership <|> m.ownership).getD (usualOwnership declared), cast, flags }

/-- The parameter that a reference means: a number is an index, anything else a name. -/
def referredParam (ps : List Parameter) (reference : String) : Except Fault (Option Parameter) :=
  let ref := trim reference
  if !ref.isEmpty && ref.toList.all isDigitSign then
    match readInt? ref with
    | none => .error .notANumber
    | some n => .ok ps[n.toNat]?
  else .ok (ps.find? fun p => p.name == ref)

/-- Links an array parameter to the parameter that gives its length. -/
def linkLength (path : Path) (inline : DocOptions) (record : Option Record)
    (ps : List Parameter) (p : Parameter) (line : Nat) : Except Fault Parameter := do
  match (inlineParam inline p.name).length <|> (storedParam record p.index p.name).length with
  | none => pure p
  | some reference =>
    if !p.type.isArray then throw (faultAt path line (.lengthNeedsArray p.name))
    match ← referredParam ps reference with
    | none => throw (faultAt path line (.lengthNamesNone p.name reference))
    | some target =>
      if target.index = p.index then throw (faultAt path line (.lengthNamesNone p.name reference))
      else if target.type.kind = .primitive ∧ integralPrimitives.contains target.type.name then
        pure { p with lengthParam := some target.index }
      else throw (faultAt path line (.lengthNotIntegral target.name p.name))

/-- What a native method becomes. -/
inductive Declared where
  | native (m : NativeMethod)
  | left (t : Omission)
  deriving DecidableEq, Repr

/-- The identity of a native method. It depends on the declarations alone. -/
def identityOf (scope : Scope) (className : String) (n : NativeDecl) : Identity :=
  { enclosing := className, name := n.name
    signature := String.join (n.parameters.map fun p => (scope.resolve p.type).descriptor) }

/-- A native method with its directives, or the mark of one that is left out. -/
def readMethod (store : Store) (scope : Scope) (e : DeclaredClass) (n : NativeDecl) :
    Except Fault Declared := do
  let inline ← directivesOf e.path n.doc
  let identity := identityOf scope e.name n
  let position : Position := ⟨e.path, n.line⟩
  let record := store.lookup identity
  let asked := inline.method.getD {}
  let stored := (record.map (·.method)).getD {}
  let flags := asked.flags ∪ stored.flags
  if flags.noGen then pure (.left ⟨identity, position⟩)
  else
    for (name, _) in inline.params do
      if !n.parameters.any (·.name == name) then
        throw (faultAt e.path ((n.doc.map (·.line)).getD 0) (.unknownParameter name))
    let ps ← n.parameters.zipIdx.mapM fun (p, i) => readParam e.path inline record scope p i
    let linked ← (ps.zip n.parameters).mapM fun (p, d) =>
      linkLength e.path inline record ps p d.line
    pure (.native
      { identity, parameters := linked, returnType := scope.resolve n.returnType, flags
        accessor := (asked.accessor <|> stored.accessor).getD (usualNativeName n.name)
        position, cast := asked.cast <|> stored.cast
        fragments := (record.map (·.fragments)).getD {}
        overloaded := decide (1 < (e.outline.natives.filter (·.name == n.name)).length) })

/-! ## 4. Struct classes -/

/-- A field of a struct class with its directives. -/
def readField (store : Store) (scope : Scope) (e : DeclaredClass) (f : InstanceField) :
    Except Fault StructMember := do
  let asked := (← directivesOf e.path f.doc).field.getD {}
  let identity : Identity := { enclosing := e.name, name := f.name, kind := .field }
  let stored := ((store.lookup identity).map (·.field)).getD {}
  let cast := asked.cast <|> stored.cast
  pure { identity, type := asPointer (scope.resolve f.type) false cast
         accessor := (asked.accessor <|> stored.accessor).getD f.name
         position := ⟨e.path, f.line⟩, cast
         platforms := if asked.platforms.isEmpty then stored.platforms else asked.platforms
         offset := asked.offset <|> stored.offset
         flags := asked.flags ∪ stored.flags }

/-- A struct class with its directives. -/
def readStructClass (store : Store) (scope : Scope) (e : DeclaredClass) : Except Fault StructClass := do
  let identity : Identity := { enclosing := e.name, name := "", kind := .struct }
  let asked := e.directives.struct.getD {}
  let stored := ((store.lookup identity).map (·.struct)).getD {}
  let fields ← e.outline.fields.mapM (readField store scope e)
  pure { identity, qualified := e.qualified, fields
         nativeName := (asked.accessor <|> stored.accessor).getD e.name
         position := ⟨e.path, e.outline.line⟩, flags := asked.flags ∪ stored.flags }

/-! ## 5. The model -/

/-- The native methods among what was declared. -/
def nativesAmong (ds : List Declared) : List NativeMethod :=
  ds.filterMap fun
    | .native m => some m
    | .left _ => none

/-- What was left out among what was declared. -/
def leftAmong (ds : List Declared) : List Omission :=
  ds.filterMap fun
    | .native _ => none
    | .left t => some t

/-- The unit of a class, if it has native methods or stands for a struct. -/
def unitOf (store : Store) (scope : Scope) (e : DeclaredClass) :
    Except Fault (Option ClassUnit) := do
  let isStruct := scope.structClassNames.contains e.name
  if e.outline.natives.isEmpty && !isStruct then pure none
  else
    let ds ← e.outline.natives.mapM (readMethod store scope e)
    let structs ← if isStruct then (readStructClass store scope e).map fun s => [s] else pure []
    pure (some { path := e.path, className := e.name, package := e.package
                 natives := nativesAmong ds, structs, tombstones := leftAmong ds })

/-- The classes that stand for their names, in the order of the files. -/
def chosenClasses (known : List (String × DeclaredClass)) (classes : List DeclaredClass) :
    List DeclaredClass :=
  classes.filterMap fun c => (known.lookup c.name).filter fun e => e.place == c.place

/-- The model of the outlines of all files. -/
def modelOf (store : Store) (files : List OutlinedFile) : Except Fault Model := do
  let classes := classesOf files
  let known ← classesByName store classes
  let units ← (chosenClasses known classes).mapM (unitOf store (scopeOf store known))
  pure ⟨units.filterMap id⟩

/-! ## 6. What was left out before a fault -/

/-- What was left out among results, up to the first fault. -/
def leftBeforeFault : List (Except Fault Declared) → List Omission
  | .ok (.left t) :: r => t :: leftBeforeFault r
  | .ok (.native _) :: r => leftBeforeFault r
  | _ => []

/-- What was left out in classes, up to the first fault. -/
def leftInClasses (store : Store) (scope : Scope) : List DeclaredClass → List Omission
  | [] => []
  | e :: r =>
    let here := leftBeforeFault (e.outline.natives.map (readMethod store scope e))
    match unitOf store scope e with
    | .ok _ => here ++ leftInClasses store scope r
    | .error _ => here

/-- What is left out while a model is built, up to the first fault. -/
def leftOut (store : Store) (files : List OutlinedFile) : List Omission :=
  let classes := classesOf files
  match classesByName store classes with
  | .error _ => []
  | .ok known => leftInClasses store (scopeOf store known) (chosenClasses known classes)

/-! ## 7. Reading the files -/

/-- The outline of a source file; a failure comes with the native methods skipped before it. -/
def outlineFile (t : FileTree) (root : Path) (names : List String) :
    Except (List String × Fault) OutlinedFile :=
  let path : Path := ⟨.here, names⟩
  match t.readBytes (root / path) with
  | .error e => .error ([], .source { path, line := 0, cause := .unreadable e })
  | .ok bytes =>
    match FileOutline.ofBytes bytes with
    | .ok outline => .ok ⟨path, outline⟩
    | .error (skipped, .malformed) => .error (skipped, .source { path, line := 0, cause := .malformed })
    | .error (skipped, .variableArity line column) =>
      .error (skipped, .source { path, line, column, cause := .variableArity })

/-- The path of a source directory without `~` and `..`. -/
def rootOf (t : FileTree) (root : Path) : Except Fault Path :=
  ((t.expandHome root).bind t.resolve).mapError .discovery

/-- The source files below a directory. -/
def sourcesOf (t : FileTree) (rules : List Exclusion) (root : Path) :
    Except Fault (List (List String)) :=
  (discover t rules root).mapError .discovery

/-- The outlines of the source files below a directory. -/
def outlinesOf (t : FileTree) (root : Path) (names : List (List String)) :
    Except Fault (List OutlinedFile) :=
  names.mapM fun ns => (outlineFile t root ns).mapError (·.2)

/-- The model of the sources below a directory. -/
def modelAt (t : FileTree) (rules : List Exclusion) (store : Store) (root : Path) :
    Except Fault Model := do
  let root ← rootOf t root
  let names ← sourcesOf t rules root
  let files ← outlinesOf t root names
  modelOf store files

end NativeGlue.Source
