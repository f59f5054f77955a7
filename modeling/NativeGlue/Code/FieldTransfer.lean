import NativeGlue.Code.Methods

/-!
# Struct classes

The C header and source of a unit that stands for a struct: a cache of field identifiers, functions that
copy all fields into a struct and back, and a getter and a setter for each field. A field that is not
there on every platform stands between preprocessor lines wherever it is mentioned, always under the
same condition.

Every part is made from one list of fields (`GeneratedField`), so that header and source speak about
the same ones.
-/

namespace NativeGlue.Code

open NativeGlue.Mapping

/-! ## 1. Fields -/

/-- A field that code is generated for, with the condition under which it is there. -/
structure GeneratedField where
  field : StructMember
  mapping : ValueMapping
  condition : Option String
  deriving DecidableEq, Repr, Inhabited

/-- Whether a field may be written. -/
def GeneratedField.settable (g : GeneratedField) : Bool := !g.field.flags.noSet

/-- The preprocessor symbol of a platform, configured or made of its name. -/
def platformSymbol (defines : List (String × String)) (platform : String) : String :=
  (defines.lookup platform).getD ("JNIGEN_" ++ Text.upper platform)

/-- The condition under which a field is there; none if it is there everywhere. -/
def fieldCondition (defines : List (String × String)) (f : StructMember) : Option String :=
  if f.platforms.isEmpty then none
  else some (" || ".intercalate
    (f.platforms.map fun p => "defined(" ++ platformSymbol defines p ++ ")"))

/-- The warning about a field that is there on no configured platform. -/
def fieldWarning? (defines : List (String × String)) (f : StructMember) : Option Warning :=
  if f.platforms.isEmpty || f.platforms.any (fun p => (defines.lookup p).isSome) then none
  else
    let names := ", ".intercalate (f.platforms.map fun p => s!"'{p}'")
    some ⟨"platform", s!"field {f.identity.key} is present on no configured platform ({names})",
      some f.position.toString⟩

/-- The fields of a struct class that code is generated for. -/
def generatedFields (e : Mapper) (defines : List (String × String)) (s : StructClass) :
    Except Fault (List GeneratedField) :=
  (s.fields.filter fun f => !f.flags.noGen).mapM fun f => do
    let mapping ← e.fieldMapping f
    pure ⟨f, mapping, fieldCondition defines f⟩

/-- The preprocessor line that begins what is there under a condition. -/
def openCondition (b : IndentedText) (g : GeneratedField) : IndentedText :=
  match g.condition with
  | none => b
  | some c => b.raw ("#if " ++ c)

/-- The preprocessor line that ends what is there under a condition. -/
def closeCondition (b : IndentedText) (g : GeneratedField) : IndentedText :=
  if g.condition.isSome then b.raw "#endif" else b

/-- Writes something about a field between its preprocessor lines. -/
def underCondition (write : IndentedText → GeneratedField → IndentedText) (b : IndentedText)
    (g : GeneratedField) : IndentedText :=
  closeCondition (write (openCondition b g) g) g

/-! ## 2. Expressions -/

/-- Whether a field holds a pointer. -/
def isPointer (t : ValueMapping) : Bool := t.semantic.kind == .handle || t.semantic.kind == .callback

/-- An expression cast to a type, through an integer if it is a pointer. -/
def castTo (type : String) (t : ValueMapping) (expression : String) : String :=
  "(" ++ type ++ ")" ++ (if isPointer t then "(intptr_t)" else "") ++ expression

/-- An expression as the C struct holds it. -/
def toNative (t : ValueMapping) (expression : String) : String := castTo t.cType t expression

/-- An expression as the virtual machine sees it. -/
def toAbi (t : ValueMapping) (expression : String) : String := castTo t.abiType t expression

/-- The name of the function that reads a field. -/
def getterName (s : StructClass) (f : StructMember) : String := s.name ++ "_get_" ++ f.name

/-- The name of the function that writes a field. -/
def setterName (s : StructClass) (f : StructMember) : String := s.name ++ "_set_" ++ f.name

/-- The name of the cache of field identifiers. -/
def cacheName (s : StructClass) : String := s.name ++ "Fc"

/-- The offset of a field as code: as it was given, or left to the compiler. -/
def offsetText (s : StructClass) (f : StructMember) : String :=
  match f.offset with
  | some (.int n) => toString n
  | some (.truth b) => if b then "True" else "False"
  | none => s!"offsetof({s.nativeName}, {f.accessor})"

/-- The address of a field behind a pointer to the struct. -/
def addressOf (s : StructClass) (g : GeneratedField) : String :=
  s!"(({g.mapping.cType} *)((char *)(intptr_t)ptr + {offsetText s g.field}))"

/-! ## 3. Parts of the header -/

/-- A number with blanks before it up to four places. -/
def fourPlaces (n : Int) : String :=
  let s := toString n
  Text.copies (4 - s.length) " " ++ s

/-- The line of the layout comment about a field. -/
def layoutLine (l : PlacedField) : String :=
  let note := if l.field.flags.noGen then " (no_gen)" else ""
  s!" *   {fourPlaces l.offset.bytes}  {l.field.accessor}  {l.mapping.cType} " ++
    s!"({l.mapping.size}){note}"

/-- The comment that shows how a struct lies in memory. -/
def layoutNote (e : Mapper) (l : MemoryLayout) : List String :=
  ["/*", s!" * {l.struct.nativeName} layout ({e.platform}, {e.wordSize}-bit): " ++
    s!"size {l.size}, alignment {l.alignment}"]
  ++ l.fields.map layoutLine ++ [" */"]

/-- The heads of the functions that copy a whole struct. -/
def cacheHead (s : StructClass) : String :=
  s!"void cache{s.name}Fields(JNIEnv *env, jobject lpObject)"

/-- The head of the function that copies an object into a struct. -/
def getHead (s : StructClass) : String :=
  s!"{s.nativeName} *get{s.name}Fields(JNIEnv *env, jobject lpObject, {s.nativeName} *lpStruct)"

/-- The head of the function that copies a struct into an object. -/
def setHead (s : StructClass) : String :=
  s!"void set{s.name}Fields(JNIEnv *env, jobject lpObject, {s.nativeName} *lpStruct)"

/-- Declares the getter and the setter of a field. -/
def declareAccessors (s : StructClass) (b : IndentedText) (g : GeneratedField) : IndentedText :=
  let b := b.line s!"{g.mapping.abiType} {getterName s g.field}(jlong ptr);"
  if g.settable then b.line s!"void {setterName s g.field}(jlong ptr, {g.mapping.abiType} value);"
  else b

/-- The declarations of all functions of a struct class. -/
def declarations (s : StructClass) (gs : List GeneratedField) : IndentedText :=
  gs.foldl (underCondition (declareAccessors s))
    (IndentedText.addLines {} [cacheHead s ++ ";", getHead s ++ ";", setHead s ++ ";",
      s!"jint {s.name}_sizeof(void);"])

/-! ## 4. Parts of the source -/

/-- The type of the cache of field identifiers. -/
def cacheDeclaration (s : StructClass) (gs : List GeneratedField) : IndentedText :=
  let b := IndentedText.openBlock {} s!"typedef struct {s.name}_FID_CACHE \x7b"
    s!"\x7d {s.name}_FID_CACHE;"
  (gs.foldl (underCondition fun b g => b.line s!"jfieldID {g.field.name};")
    (b.addLines ["int cached;", "jclass clazz;"])).closeBlock

/-- Looks up the identifier of a field. -/
def cacheField (s : StructClass) (b : IndentedText) (g : GeneratedField) : IndentedText :=
  b.line (s!"{cacheName s}.{g.field.name} = (*env)->GetFieldID(env, {cacheName s}.clazz, " ++
    s!"\"{g.field.name}\", \"{g.field.type.descriptor}\");")

/-- The function that fills the cache. -/
def cacheFiller (s : StructClass) (gs : List GeneratedField) : IndentedText :=
  let b := (IndentedText.line {} (cacheHead s)).openBlock "\x7b" "\x7d"
  let b := b.addLines [s!"if ({cacheName s}.cached) return;",
    s!"{cacheName s}.clazz = (*env)->GetObjectClass(env, lpObject);"]
  ((gs.foldl (underCondition (cacheField s)) b).line s!"{cacheName s}.cached = 1;").closeBlock

/-- The line that fills the cache if that has not been done. -/
def ensureCached (s : StructClass) : String :=
  s!"if (!{cacheName s}.cached) cache{s.name}Fields(env, lpObject);"

/-- Copies a field into the struct. -/
def readField (s : StructClass) (b : IndentedText) (g : GeneratedField) : IndentedText :=
  let read := s!"(*env)->Get{g.mapping.fieldAccessor}Field(env, lpObject, " ++
    s!"{cacheName s}.{g.field.name})"
  b.line s!"lpStruct->{g.field.accessor} = {toNative g.mapping read};"

/-- The function that copies an object into a struct. -/
def getFunction (s : StructClass) (gs : List GeneratedField) : IndentedText :=
  let b := ((IndentedText.line {} (getHead s)).openBlock "\x7b" "\x7d").line (ensureCached s)
  ((gs.foldl (underCondition (readField s)) b).line "return lpStruct;").closeBlock

/-- Copies a field out of the struct. -/
def writeField (s : StructClass) (b : IndentedText) (g : GeneratedField) : IndentedText :=
  let value := toAbi g.mapping s!"lpStruct->{g.field.accessor}"
  b.line (s!"(*env)->Set{g.mapping.fieldAccessor}Field(env, lpObject, " ++
    s!"{cacheName s}.{g.field.name}, {value});")

/-- The function that copies a struct into an object. -/
def setFunction (s : StructClass) (gs : List GeneratedField) : IndentedText :=
  let b := ((IndentedText.line {} (setHead s)).openBlock "\x7b" "\x7d").line (ensureCached s)
  ((gs.filter (·.settable)).foldl (underCondition (writeField s)) b).closeBlock

/-- The functions that read and write one field. -/
def accessors (s : StructClass) (b : IndentedText) (g : GeneratedField) : IndentedText :=
  let getter := getterName s g.field
  let setter := setterName s g.field
  let address := addressOf s g
  let b := ((b.line s!"#ifndef NO_{getter}").line s!"{g.mapping.abiType} {getter}(jlong ptr)")
  let read := toAbi g.mapping ("*" ++ address)
  let b := (b.openBlock "\x7b" "\x7d").line s!"return {read};"
  let b := b.closeBlock.line "#endif"
  if !g.settable then b
  else
    let b := (b.line s!"#ifndef NO_{setter}").line
      s!"void {setter}(jlong ptr, {g.mapping.abiType} value)"
    let written := toNative g.mapping "value"
    let b := (b.openBlock "\x7b" "\x7d").line s!"*{address} = {written};"
    b.closeBlock.line "#endif"

/-- The accessors of all fields, with an empty line between two of them. -/
def accessorFunctions (s : StructClass) : List GeneratedField → IndentedText
  | [] => {}
  | g :: gs => gs.foldl (fun b g => underCondition (accessors s) (b.line "") g)
      (underCondition (accessors s) {} g)

/-! ## 5. Files -/

/-- A struct class with all that its files say about it. -/
structure RenderedStruct where
  struct : StructClass
  layout : MemoryLayout
  fields : List GeneratedField
  deriving DecidableEq, Repr, Inhabited

/-- The numbers that the files of a struct class show. -/
def RenderedStruct.numbers (r : RenderedStruct) : List Int :=
  [r.layout.size, r.layout.alignment]
  ++ r.layout.fields.flatMap (fun l => [l.offset.bytes, l.mapping.size])
  ++ r.fields.filterMap (·.field.offset.map (·.bytes))

/-- Prepares a struct class; all numbers that its files show have to be writable. -/
def renderStruct (e : Mapper) (defines : List (String × String)) (s : StructClass) :
    Except Fault RenderedStruct := do
  let layout ← e.layoutOf s
  let fields ← generatedFields e defines s
  let r : RenderedStruct := ⟨s, layout, fields⟩
  if r.numbers.all Text.isWritable then pure r else throw .longNumber

/-- The lines of the header about a struct class. -/
def structHeaderPart (e : Mapper) (r : RenderedStruct) : List String :=
  ["", s!"#ifndef NO_{r.struct.name}"] ++ layoutNote e r.layout
  ++ [(declarations r.struct r.fields).render, "#else",
    s!"#define cache{r.struct.name}Fields(a,b)",
    s!"#define get{r.struct.name}Fields(a,b,c) NULL",
    s!"#define set{r.struct.name}Fields(a,b,c)", "#endif"]

/-- The lines of the struct header of a unit. -/
def structsHeader (e : Mapper) (className : String) (rs : List RenderedStruct) : List String :=
  let includeGuard := s!"INC_{Text.upper (fileStem className)}_STRUCTS_H"
  let custom := Text.upper className ++ "_CUSTOM_HEADER"
  [banner, s!"#ifndef {includeGuard}", s!"#define {includeGuard}", "",
    "#include <jni.h>", "#include <stddef.h>", "#include <stdint.h>",
    s!"#ifdef {custom}", s!"#include {custom}", "#endif"]
  ++ rs.flatMap (structHeaderPart e)
  ++ ["", s!"#endif /* {includeGuard} */"]

/-- The lines of the source about a struct class. -/
def structSourcePart (r : RenderedStruct) : List String :=
  let s := r.struct
  ["", s!"#ifndef NO_{s.name}", (cacheDeclaration s r.fields).render, "",
    s!"static {s.name}_FID_CACHE {cacheName s};", "",
    (cacheFiller s r.fields).render, "", (getFunction s r.fields).render, "",
    (setFunction s r.fields).render, "",
    s!"jint {s.name}_sizeof(void)", "\x7b", s!"\treturn (jint)sizeof({s.nativeName});", "\x7d", "",
    (accessorFunctions s r.fields).render, "#endif"]

/-- The lines of the struct source of a unit. -/
def structsSource (className : String) (rs : List RenderedStruct) : List String :=
  [banner, s!"#include \"{fileStem className}_structs.h\""] ++ rs.flatMap structSourcePart

/-- The struct header and source of a unit; none if it stands for no struct. -/
def structsFiles (e : Mapper) (defines : List (String × String)) (u : ClassUnit) :
    Except Fault (List OutputFile) := do
  let structs := u.structs.filter (·.generated)
  if structs.isEmpty then pure []
  else
    let rendered ← structs.mapM (renderStruct e defines)
    let name := fileStem u.className
    pure [⟨name ++ "_structs.h", fileText (structsHeader e u.className rendered)⟩,
      ⟨name ++ "_structs.c", fileText (structsSource u.className rendered)⟩]

/-- The warnings about the fields of a unit. -/
def structWarnings (defines : List (String × String)) (u : ClassUnit) : List Warning :=
  (u.structs.filter (·.generated)).flatMap fun s =>
    (s.fields.filter fun f => !f.flags.noGen).filterMap (fieldWarning? defines)

end NativeGlue.Code
