import NativeGlue.HostType

/-!
# Mapping rules

How the types of one key cross the border: the type that the native function sees, its descriptor, the
C type behind it, and the code that carries a value in and out. The code texts are templates whose
holes are the names of section 1. The built-in rules cover every key that declarations may need
(`builtin_covers`); further rules may be put behind them, and of two rules with one key the later
one holds.
-/

namespace NativeGlue.Mapping

/-! ## 1. Holes -/

/-- A hole of a template, as it is written. -/
def hole (name : String) : String := "\x7b" ++ name ++ "\x7d"

/-- The argument of the native function. -/
def arg : String := hole "arg"

/-- The local that holds what was acquired for the argument. -/
def buf : String := hole "local"

/-- The cast asked for the parameter, possibly none. -/
def cast : String := hole "cast"

/-- How a released array is written back. -/
def mode : String := hole "mode"

/-- The class of a struct class. -/
def structClass : String := hole "struct"

/-- The C type that a struct class stands for. -/
def native : String := hole "native"

/-- The name of a struct class's class in descriptors. -/
def qualified : String := hole "qualified"

/-- The type that the native function sees. -/
def abi : String := hole "abi"

/-- The result of the native call. -/
def value : String := hole "value"

/-! ## 2. Rules -/

/-- A mapping rule. A size of zero means the size of a pointer. -/
structure Rule where
  key : String
  abiType : String
  descriptor : String
  cType : String
  marshalIn : String := ""
  release : String := ""
  pinnedIn : String := ""
  pinnedRelease : String := ""
  noIn : String := ""
  localDecl : String := ""
  callArg : String := cast ++ arg
  marshalOut : String := "(" ++ abi ++ ")" ++ value
  fieldAccessor : String := ""
  size : Int := 0
  alignment : Int := 0
  returnable : Bool := true
  fieldAllowed : Bool := true
  deriving DecidableEq, Repr, Inhabited

/-- Whether values of a rule are as large as a pointer. -/
def Rule.sizedAsPointer (r : Rule) : Bool := r.size == 0

/-- A primitive type: its name, the name that accessors show, its descriptor and its size. -/
structure Primitive where
  name : String
  accessor : String
  descriptor : String
  size : Int
  deriving DecidableEq, Repr, Inhabited

/-- The primitive types. -/
def primitiveTypes : List Primitive :=
  [⟨"boolean", "Boolean", "Z", 1⟩, ⟨"byte", "Byte", "B", 1⟩, ⟨"char", "Char", "C", 2⟩,
    ⟨"short", "Short", "S", 2⟩, ⟨"int", "Int", "I", 4⟩, ⟨"long", "Long", "J", 8⟩,
    ⟨"float", "Float", "F", 4⟩, ⟨"double", "Double", "D", 8⟩]

/-- The rule of a primitive type: it passes as it is. -/
def Primitive.rule (p : Primitive) : Rule where
  key := p.name
  abiType := "j" ++ p.name
  descriptor := p.descriptor
  cType := "j" ++ p.name
  fieldAccessor := p.accessor
  size := p.size
  alignment := p.size

/-- The rule of an array of a primitive type: its elements are borrowed for the call, as a copy or,
pinned, in place. -/
def Primitive.ruleOfArray (p : Primitive) : Rule where
  key := p.name ++ "[]"
  abiType := s!"j{p.name}Array"
  descriptor := "[" ++ p.descriptor
  cType := s!"j{p.name} *"
  localDecl := s!"j{p.name} *{buf}=NULL;"
  marshalIn :=
    s!"if ({arg}) if (({buf} = (*env)->Get{p.accessor}ArrayElements(env, {arg}, NULL)) == NULL) " ++
      "goto fail;"
  release :=
    s!"if ({arg} && {buf}) (*env)->Release{p.accessor}ArrayElements(env, {arg}, {buf}, {mode});"
  pinnedIn :=
    s!"if ({arg}) if (({buf} = (*env)->GetPrimitiveArrayCritical(env, {arg}, NULL)) == NULL) " ++
      "goto fail;"
  pinnedRelease :=
    s!"if ({arg} && {buf}) (*env)->ReleasePrimitiveArrayCritical(env, {arg}, {buf}, {mode});"
  callArg := cast ++ buf
  returnable := false
  fieldAllowed := false

/-- The rule of methods that return nothing. -/
def voidRule : Rule where
  key := "void"
  abiType := "void"
  descriptor := "V"
  cType := "void"
  marshalOut := ""
  fieldAllowed := false

/-- The rule of texts: their bytes are borrowed for the call. -/
def stringRule : Rule where
  key := "String"
  abiType := "jstring"
  descriptor := "Ljava/lang/String;"
  cType := "const char *"
  localDecl := s!"const char *{buf}=NULL;"
  marshalIn :=
    s!"if ({arg}) if (({buf} = (*env)->GetStringUTFChars(env, {arg}, NULL)) == NULL) goto fail;"
  release := s!"if ({arg} && {buf}) (*env)->ReleaseStringUTFChars(env, {arg}, {buf});"
  callArg := cast ++ buf
  marshalOut := s!"(*env)->NewStringUTF(env, (const char *){value})"
  fieldAllowed := false

/-- The rule of struct classs: the fields are copied into a struct before the call and back after
it. -/
def structRule : Rule where
  key := "struct"
  abiType := "jobject"
  descriptor := s!"L{qualified};"
  cType := s!"{native} *"
  localDecl := s!"{native} _{arg}, *{buf}=NULL;"
  marshalIn := s!"if ({arg}) if (({buf} = get{structClass}Fields(env, {arg}, &_{arg})) == NULL) goto fail;"
  noIn := s!"if ({arg}) if (({buf} = &_{arg}) == NULL) goto fail;"
  release := s!"if ({arg} && {buf}) set{structClass}Fields(env, {arg}, {buf});"
  callArg := cast ++ buf
  returnable := false
  fieldAllowed := false

/-- The rule of numbers that stand for pointers, under a key of its own. -/
def pointerRule (key : String) : Rule where
  key := key
  abiType := "jlong"
  descriptor := "J"
  cType := "void *"
  callArg := s!"{cast}(intptr_t){arg}"
  marshalOut := s!"(jlong)(intptr_t){value}"
  fieldAccessor := "Long"

/-- The rules that hold unless others replace them. -/
def standardRules : List Rule :=
  [voidRule] ++ primitiveTypes.map (·.rule) ++ primitiveTypes.map (·.ruleOfArray)
    ++ [stringRule, structRule, pointerRule "handle", pointerRule "callback"]

/-- The keys that every set of rules has to cover. -/
def requiredKeys : List String :=
  ["void"] ++ primitives ++ primitives.map (· ++ "[]") ++ ["String", "struct", "handle", "callback"]

/-- The built-in rules cover every key that has to be covered, in the same order. -/
theorem builtin_covers : standardRules.map (·.key) = requiredKeys := by decide +kernel

end NativeGlue.Mapping
