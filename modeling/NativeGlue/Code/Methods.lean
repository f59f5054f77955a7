import NativeGlue.Code.IndentedText
import NativeGlue.Mapping.Mapper
import NativeGlue.Symbol

/-!
# Native functions

The C header and source of a unit that declares native methods. The body of each function is built as
a list of statements (`statementsOf`) and only then written out, so that what it does can be read off
the list:

* locals are declared and the call is counted;
* copies are acquired in order, lengths are checked, and pinned arrays come last;
* the native function is called between the fragments that the overrides add;
* behind the label that every failure jumps to, what was acquired is given back in reverse order.

Giving back is guarded by the local, so a jump from halfway gives back what was acquired and no more.
-/

namespace NativeGlue.Code

open NativeGlue.Mapping

/-! ## 1. Names -/

/-- The file name, without its ending, of a class. -/
def fileStem (className : String) : String := Text.lower className

/-- What the statistics symbols begin with: the name of the statistics as an identifier in capitals. -/
def statsPrefix (statsName : String) : String :=
  Text.upper (Text.replaceChars (fun c => !Text.isLetterOrNumber c) '_' statsName)

/-- The signature that tells an overloaded method apart. -/
def overloadSignature (m : NativeMethod) : Option String :=
  if m.overloaded then some (Symbol.signaturePart m.descriptor) else none

/-- The name of a method in guards and statistics, where packages do not show. -/
def methodSymbol (m : NativeMethod) : String :=
  Symbol.methodSymbol m.identity.enclosing m.name (overloadSignature m)

/-- The C function that implements a method of a class in a package. -/
def entryPoint (m : NativeMethod) (package : String) : String :=
  let className := if package.isEmpty then m.identity.enclosing
    else package ++ "." ++ m.identity.enclosing
  Symbol.entryPoint className m.name (overloadSignature m)

/-! ## 2. Function bodies -/

/-- A statement of a function body. -/
inductive Statement where
  /-- Declares the local of a parameter. -/
  | declare (text : String)
  /-- Declares the result. -/
  | declareResult (abiType : String)
  /-- Counts the call. -/
  | enter (stats function : String)
  /-- Acquires what a parameter needs; if that fails, jumps to the end. -/
  | acquire (p : Parameter) (t : ValueMapping)
  /-- Jumps to the end if an array is shorter than a count. -/
  | checkLength (array count : Parameter)
  /-- Code from an override. -/
  | fragment (text : Option String)
  /-- Calls the native function. -/
  | call (m : CallMapping)
  /-- The label that failures jump to. -/
  | failLabel
  /-- Gives back what a parameter acquired. -/
  | release (p : Parameter) (t : ValueMapping)
  /-- Ends the count. -/
  | exit (stats function : String)
  /-- Returns the result. -/
  | giveBack
  deriving DecidableEq, Repr

/-- Whether a method returns a value. -/
def returnsValue (m : CallMapping) : Bool := m.result.semantic.kind != .void

/-- The arrays of a method whose length is checked, each with the parameter that counts it. -/
def lengthChecks (m : NativeMethod) : List (Parameter × Parameter) :=
  m.parameters.filterMap fun p => do
    let j ← p.lengthParam
    let count ← m.parameters[j]?
    pure (p, count)

/-- Whether a body may jump to its end. -/
def canFail (m : CallMapping) : Bool :=
  m.acquiring.any (fun (_, t) => !t.marshalIn.isEmpty) || !(lengthChecks m.method).isEmpty

/-- What a method acquires through copies, or pins, in order. -/
def acquisitions (m : CallMapping) (pinned : Bool) : List Statement :=
  (m.acquiring.filter fun (_, t) => !t.marshalIn.isEmpty && t.pinned == pinned).map
    fun (p, t) => .acquire p t

/-- What a method gives back: what it acquired, in reverse order. -/
def releases (m : CallMapping) : List Statement :=
  (m.acquiring.reverse.filter fun (_, t) => !t.release.isEmpty).map fun (p, t) => .release p t

/-- The code that an override puts in place of the call, or the call. -/
def callOrBody (m : CallMapping) : Statement :=
  match m.method.fragments.body with
  | none => .call m
  | some b => if b.isEmpty then .call m else .fragment (some b)

/-- The body of a native function. -/
def statementsOf (stats : String) (m : CallMapping) : List Statement :=
  let function := methodSymbol m.method
  ((m.parameters.filter fun t => !t.localDecl.isEmpty).map fun t => .declare t.localDecl)
    ++ (if returnsValue m then [.declareResult m.result.abiType] else [])
    ++ [.enter stats function]
    ++ acquisitions m false
    ++ ((lengthChecks m.method).map fun (p, count) => .checkLength p count)
    ++ acquisitions m true
    ++ [.fragment m.method.fragments.preCall, callOrBody m, .fragment m.method.fragments.postCall]
    ++ (if canFail m then [.failLabel] else [])
    ++ releases m
    ++ [.exit stats function]
    ++ (if returnsValue m then [.giveBack] else [])

/-- The type of a pointer to the native function. -/
def pointerAbi (m : CallMapping) : String :=
  let joined := ", ".intercalate (m.parameters.map (·.cType))
  let params := if joined.isEmpty then "void" else joined
  s!"{m.result.cType} (CALLING_CONVENTION*)({params})"

/-- The statement that calls a function expression and keeps its result. -/
def assignment (m : CallMapping) (function : String) : String :=
  let call := function ++ "(" ++ ", ".intercalate (m.parameters.map (·.callArg)) ++ ")"
  if !returnsValue m then call ++ ";"
  else
    let cast := match m.method.cast with
      | some c => if c.isEmpty then "" else "(" ++ m.result.cType ++ ")"
      | none => ""
    "rc = " ++ Text.replace m.result.marshalOut value (cast ++ call) ++ ";"

/-- Writes a call: directly, or through a pointer that is looked up when it is first needed. -/
def writeCall (b : IndentedText) (m : CallMapping) : IndentedText :=
  if m.method.flags.dynamic then
    (((((b.openBlock "\x7b" "\x7d").line s!"LOAD_FUNCTION(fp, {m.method.accessor})").openBlock
      "if (fp) \x7b" "\x7d").line (assignment m s!"(({pointerAbi m})fp)")).closeBlock).closeBlock
  else b.line (assignment m m.method.accessor)

/-- Writes a statement. -/
def writeStatement (b : IndentedText) : Statement → IndentedText
  | .declare t => b.line t
  | .declareResult abiType => b.line s!"{abiType} rc = 0;"
  | .enter stats function => b.line s!"{stats}_NATIVE_ENTER(env, that, {function}_FUNC);"
  | .acquire _ t => b.line t.marshalIn
  | .checkLength array count =>
    b.line
      s!"if ({array.arg} && (*env)->GetArrayLength(env, {array.arg}) < {count.arg}) goto fail;"
  | .fragment text => b.fragment text
  | .call m => writeCall b m
  | .failLabel => b.label "fail"
  | .release _ t => b.line t.release
  | .exit stats function => b.line s!"{stats}_NATIVE_EXIT(env, that, {function}_FUNC);"
  | .giveBack => b.line "return rc;"

/-- The text of a function body. -/
def bodyText (stats : String) (m : CallMapping) : String :=
  ((statementsOf stats m).foldl writeStatement { depth := 1 }).render

/-! ## 3. Files -/

/-- A native function, ready to be written. -/
structure NativeFunction where
  guard : String
  symbol : String
  name : String
  descriptor : String
  head : String
  parameters : String
  body : String
  deriving DecidableEq, Repr, Inhabited

/-- The native function of a method. -/
def nativeFunction (stats package : String) (m : CallMapping) : NativeFunction :=
  let symbol := entryPoint m.method package
  let params := ["JNIEnv *env", "jclass that"]
    ++ m.mapped.map fun (p, t) => s!"{t.abiType} {p.arg}"
  { guard := methodSymbol m.method
    symbol
    name := m.method.name
    descriptor := m.method.descriptor
    head := s!"JNIEXPORT {m.result.abiType} JNICALL {symbol}"
    parameters := "\t(" ++ ", ".intercalate params ++ ")"
    body := bodyText stats m }

/-- The lines of the header of a unit. -/
def nativesHeader (u : ClassUnit) (functions : List NativeFunction) : List String :=
  let includeGuard := s!"INC_{Text.upper (fileStem u.className)}_H"
  let custom := Text.upper u.className ++ "_CUSTOM_HEADER"
  [banner, s!"#ifndef {includeGuard}", s!"#define {includeGuard}", "",
    "#include <jni.h>", "#include <stdint.h>",
    s!"#ifdef {custom}", s!"#include {custom}", "#endif", "",
    "#ifndef CALLING_CONVENTION", "#define CALLING_CONVENTION", "#endif", "",
    "#ifndef LOAD_FUNCTION", "#include <dlfcn.h>", "#define LOAD_FUNCTION(var, name) \\",
    "\tstatic int initialized = 0; \\", "\tstatic void *var = NULL; \\",
    "\tif (!initialized) \x7b \\", "\t\tvar = dlsym(RTLD_DEFAULT, #name); \\",
    "\t\tinitialized = 1; \\", "\t\x7d", "#endif", ""]
  ++ functions.flatMap (fun f => [s!"#ifndef NO_{f.guard}", f.head, f.parameters ++ ";", "#endif"])
  ++ ["", s!"jint {u.className}_register(JNIEnv *env);", "", s!"#endif /* {includeGuard} */"]

/-- The struct headers that the parameters of methods need, sorted. -/
def structHeaders (ms : List CallMapping) : List String :=
  let names := ms.flatMap fun m =>
    (m.method.parameters.filter (·.type.kind == .struct)).map fun p =>
      fileStem p.type.name ++ "_structs.h"
  names.eraseDups.mergeSort (fun a b => decide (a ≤ b))

/-- The lines of the source of a unit. -/
def nativesSource (u : ClassUnit) (statsName : String) (headers : List String)
    (functions : List NativeFunction) : List String :=
  let table := u.className ++ "_methods"
  let classPath := Text.replace u.fullName "." "/"
  [banner, s!"#include \"{fileStem u.className}.h\"", s!"#include \"{statsName}_stats.h\""]
  ++ headers.map (fun h => s!"#include \"{h}\"")
  ++ functions.flatMap (fun f =>
    ["", s!"#ifndef NO_{f.guard}", f.head, f.parameters, "\x7b", f.body, "\x7d", "#endif"])
  ++ ["", s!"static JNINativeMethod {table}[] = \x7b"]
  ++ functions.flatMap (fun f =>
    [s!"#ifndef NO_{f.guard}",
      s!"\t\x7b\"{f.name}\", \"{f.descriptor}\", (void *){f.symbol}\x7d,", "#endif"])
  ++ ["\t\x7bNULL, NULL, NULL\x7d", "\x7d;", "", s!"jint {u.className}_register(JNIEnv *env)", "\x7b",
    s!"\tjint count = (jint)(sizeof({table}) / sizeof({table}[0])) - 1;",
    s!"\tjclass clazz = (*env)->FindClass(env, \"{classPath}\");",
    "\tif (clazz == NULL) return JNI_ERR;", "\tif (count == 0) return JNI_OK;",
    s!"\treturn (*env)->RegisterNatives(env, clazz, {table}, count);", "\x7d"]

/-- The header and the source of a unit; none if it declares no native methods. -/
def nativesFiles (statsName : String) (u : ClassUnit) (ms : List CallMapping) :
    List OutputFile :=
  if ms.isEmpty then []
  else
    let functions := ms.map (nativeFunction (statsPrefix statsName) u.package)
    let name := fileStem u.className
    [⟨name ++ ".h", fileText (nativesHeader u functions)⟩,
      ⟨name ++ ".c", fileText (nativesSource u statsName (structHeaders ms) functions)⟩]

end NativeGlue.Code
