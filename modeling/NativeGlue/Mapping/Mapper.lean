import NativeGlue.Mapping.Rule
import NativeGlue.Mapping.Template
import NativeGlue.Model
import NativeGlue.Text.Blank

/-!
# Mapping declarations

From a declaration to what is needed to write its C code: every parameter, result and field with the
types on both sides and the code that carries its value across, all holes filled. A declaration that
cannot be carried is refused with a cause (`Cause`), named by its identity.

A method that pins arrays must not call back into the virtual machine while they are pinned. Three
rules keep it from doing so: no callback parameter beside a pinned one, no result that needs the
virtual machine, and pinned arrays last among what is acquired (`CallMapping.acquiring`).
-/

namespace NativeGlue.Mapping

/-! ## 1. What is refused -/

/-- Why a declaration cannot be mapped. -/
inductive Cause where
  | noRule (key : String)
  | voidParameter (name : String)
  | noStructClass (name : String)
  | callbackWhilePinned (parameters : List String)
  | runtimeWhilePinned (key : String)
  | notReturnable (key : String)
  | notAField (key : String)
  deriving DecidableEq, Repr, Inhabited

/-- The text of a cause. -/
def Cause.message : Cause → String
  | .noRule k => s!"no type mapping for '{k}'"
  | .voidParameter n => s!"parameter '{n}' cannot be void"
  | .noStructClass n => s!"struct mirror '{n}' is not generated"
  | .callbackWhilePinned ns =>
    "critical mode is illegal with callback parameter(s): " ++ ", ".intercalate ns
  | .runtimeWhilePinned k => s!"'{k}' return needs the runtime while arrays are pinned"
  | .notReturnable k => s!"'{k}' cannot be returned from a native method"
  | .notAField k => s!"'{k}' is not supported as a struct field"

/-- A refusal: of a declaration, of a rule whose template cannot be filled, or of a number that is
too long to be written. -/
inductive Fault where
  | declaration (identity : String) (cause : Cause)
  | template (fault : Template.Fault)
  | longNumber
  deriving DecidableEq, Repr, Inhabited

/-- The text of a refused declaration. -/
def declarationMessage (identity : String) (cause : Cause) : String :=
  (if identity.isEmpty then "" else identity ++ ": ") ++ cause.message

/-- Why there is no mapper for a target. -/
inductive SetupFault where
  | wordSize (size : Int) (platform : String)
  | missing (keys : List String)
  deriving DecidableEq, Repr, Inhabited

/-- The text of a fault. -/
def SetupFault.message : SetupFault → String
  | .wordSize n p => s!"unsupported word size {n} for {p}"
  | .missing ks => "type mapping rules missing for: " ++ ", ".intercalate ks

/-! ## 2. Mappings -/

/-- How a value crosses: as it is, through a copy that is released, or pinned in place. -/
inductive Discipline where
  | value
  | copy
  | pinned
  deriving DecidableEq, Repr, Inhabited

/-- The word of a discipline. -/
def Discipline.word : Discipline → String
  | .value => "value"
  | .copy => "copy"
  | .pinned => "pinned"

/-- One parameter, result or field, with all holes filled. -/
structure ValueMapping where
  semantic : HostType
  abiType : String
  descriptor : String
  cType : String
  marshalIn : String := ""
  marshalOut : String := ""
  release : String := ""
  localDecl : String := ""
  callArg : String := ""
  discipline : Discipline := .value
  size : Int := 0
  alignment : Int := 0
  fieldAccessor : String := ""
  deriving DecidableEq, Repr, Inhabited

/-- Whether something has to be given back after the call. -/
def ValueMapping.acquires (m : ValueMapping) : Bool := !m.release.isEmpty

/-- Whether a value is pinned in place. -/
def ValueMapping.pinned (m : ValueMapping) : Bool := m.discipline == .pinned

/-- A native method with its mappings. -/
structure CallMapping where
  method : NativeMethod
  parameters : List ValueMapping
  result : ValueMapping
  deriving DecidableEq, Repr, Inhabited

/-- Parameters with their mappings. -/
def CallMapping.mapped (m : CallMapping) : List (Parameter × ValueMapping) :=
  m.method.parameters.zip m.parameters

/-- The parameters for which something is acquired or released, in the order of acquisition: those
that are pinned come last. -/
def CallMapping.acquiring (m : CallMapping) : List (Parameter × ValueMapping) :=
  let items := m.mapped.filter fun (_, t) => !t.marshalIn.isEmpty || !t.release.isEmpty
  items.filter (fun (_, t) => !t.pinned) ++ items.filter (fun (_, t) => t.pinned)

/-- Whether a method pins an array. -/
def CallMapping.pins (m : CallMapping) : Bool := m.parameters.any (·.pinned)

/-! ## 3. Mappers -/

/-- The rules that hold for a target. -/
structure Mapper where
  platform : String
  wordSize : Int
  pointerSize : Int
  rules : List Rule
  deriving Repr, Inhabited

/-- The rule under a key: of several the last one. -/
def ruleFor? (rules : List Rule) (key : String) : Option Rule :=
  rules.reverse.find? fun r => r.key == key

/-- The mapper of a target. A set of rules that leaves a required key open is refused before any
declaration is looked at. -/
def Mapper.ofRules (target : Target) (rules : List Rule) : Except SetupFault Mapper :=
  if target.wordSize != 32 && target.wordSize != 64 then
    .error (.wordSize target.wordSize target.platform)
  else
    let missing := requiredKeys.filter fun k => (ruleFor? rules k).isNone
    if missing.isEmpty then .ok ⟨target.platform, target.wordSize, target.pointerSize, rules⟩
    else .error (.missing missing)

namespace Mapper

/-- The keys for which there are rules, sorted. -/
def keys (e : Mapper) : List String :=
  ((e.rules.map (·.key)).eraseDups).mergeSort (fun a b => decide (a ≤ b))

/-- The rule for a type. -/
def rule (e : Mapper) (t : HostType) (identity : String) : Except Fault Rule :=
  match ruleFor? e.rules t.key with
  | some r => .ok r
  | none => .error (.declaration identity (.noRule t.key))

/-- Size and alignment of the values of a rule. -/
def sizeOf (e : Mapper) (r : Rule) : Int × Int :=
  if r.key == "void" then (0, 0)
  else if r.sizedAsPointer then (e.pointerSize, e.pointerSize)
  else (r.size, r.alignment)

end Mapper

/-- A cast without the parentheses around it. -/
def bareCast (cast : String) : String :=
  let s := Text.trimOf Text.isBlank cast.toList
  if s.head? == some '(' && s.getLast? == some ')' then
    Text.trim (String.ofList (s.tail.dropLast))
  else String.ofList s

/-- The C type that a cast names, if there is a cast that names one. -/
def castType? (cast : Option String) : Option String :=
  (cast.map bareCast).filter (!·.isEmpty)

/-- Fills a template of a rule. -/
def fill (values : List (String × String)) (template : String) : Except Fault String :=
  (Template.fill values template).mapError .template

/-! ## 4. Parameters -/

/-- Whether a parameter is pinned in place. -/
def isPinned (p : Parameter) (m : NativeMethod) : Bool :=
  p.type.isArray && (m.flags.critical || p.ownership == .pinned)

/-- The struct class of a name: of several the last one. -/
def structClassNamed? (structs : List StructClass) (name : String) : Option StructClass :=
  structs.reverse.find? fun s => s.name == name

/-- The cast of pointers where none is asked for. -/
def usualCast (r : Rule) : String :=
  if r.key == "handle" || r.key == "callback" then "(" ++ r.cType ++ ")" else ""

/-- What goes into the holes for a parameter. -/
def holesOf (p : Parameter) (r : Rule) (struct : Option StructClass) : List (String × String) :=
  [("arg", p.arg), ("local", "lp" ++ p.arg),
    ("cast", (p.cast.filter (!·.isEmpty)).getD (usualCast r)),
    ("mode", if p.ownership = .borrowed then "JNI_ABORT" else "0"),
    ("struct", (struct.map (·.name)).getD ""), ("native", (struct.map (·.nativeName)).getD ""),
    ("qualified", (struct.map (·.qualified)).getD ""), ("abi", r.abiType)]

/-- The templates that carry a parameter in and give back what was acquired for it. -/
def marshalTemplates (p : Parameter) (m : NativeMethod) (r : Rule) : String × String :=
  let (take, give) := if isPinned p m then (r.pinnedIn, r.pinnedRelease)
    else (r.marshalIn, r.release)
  let take := if p.flags.noIn && !r.noIn.isEmpty then r.noIn else take
  let give := if p.ownership = .borrowed ∧ p.type.kind = .struct then "" else give
  (take, give)

/-- How a parameter crosses. -/
def disciplineOf (p : Parameter) (m : NativeMethod) (r : Rule) : Discipline :=
  if isPinned p m then .pinned else if r.release.isEmpty then .value else .copy

/-- Maps a parameter of a method. -/
def Mapper.paramMapping (e : Mapper) (structs : List StructClass) (m : NativeMethod)
    (p : Parameter) : Except Fault ValueMapping := do
  let identity := m.identity.key
  if p.type.kind = .void then throw (.declaration identity (.voidParameter p.name))
  let r ← e.rule p.type identity
  let struct ← if p.type.kind = .struct then
      match structClassNamed? structs p.type.name with
      | some s => pure (some s)
      | none => throw (.declaration identity (.noStructClass p.type.name))
    else pure none
  let values := holesOf p r struct
  let (take, give) := marshalTemplates p m r
  let descriptor ← fill values r.descriptor
  let cType ← match castType? p.cast with
    | some c => pure c
    | none => fill values r.cType
  let marshalIn ← fill values take
  let release ← fill values give
  let localDecl ← fill values r.localDecl
  let callArg ← fill values r.callArg
  let (size, alignment) := e.sizeOf r
  pure { semantic := p.type, abiType := r.abiType, descriptor, cType, marshalIn, release, localDecl,
         callArg, discipline := disciplineOf p m r, size, alignment }

/-! ## 5. Methods -/

/-- The template of a result with the type filled in; the place of the call stays open. -/
def resultTemplate (r : Rule) : String := Text.replace r.marshalOut abi r.abiType

/-- Maps the result of a method. -/
def Mapper.resultMapping (e : Mapper) (m : NativeMethod) : Except Fault ValueMapping := do
  let identity := m.identity.key
  let r ← e.rule m.returnType identity
  if !r.returnable then throw (.declaration identity (.notReturnable m.returnType.key))
  let c := (castType? m.cast).getD r.cType
  let cType := if m.flags.const && m.returnType.kind != .void && !Text.startsWith c "const "
    then "const " ++ c else c
  let (size, alignment) := e.sizeOf r
  pure { semantic := m.returnType, abiType := r.abiType, descriptor := r.descriptor, cType,
         marshalOut := resultTemplate r, size, alignment }

/-- The callback parameters of a method that asks for pinning. -/
def callbacksWhilePinned (m : NativeMethod) : List String :=
  if m.flags.critical || m.parameters.any (·.ownership == .pinned) then
    (m.parameters.filter (·.type.kind == .callback)).map (·.name)
  else []

/-- Maps a native method. -/
def Mapper.callMapping (e : Mapper) (structs : List StructClass) (m : NativeMethod) :
    Except Fault CallMapping := do
  let identity := m.identity.key
  let callbacks := callbacksWhilePinned m
  if !callbacks.isEmpty then throw (.declaration identity (.callbackWhilePinned callbacks))
  let parameters ← m.parameters.mapM (e.paramMapping structs m)
  let result ← e.resultMapping m
  let mapping : CallMapping := ⟨m, parameters, result⟩
  if mapping.pins && Text.occursIn "(*env)->".toList result.marshalOut.toList then
    throw (.declaration identity (.runtimeWhilePinned m.returnType.key))
  pure mapping

/-! ## 6. Fields and layouts -/

/-- Maps a field of a struct class. -/
def Mapper.fieldMapping (e : Mapper) (f : StructMember) : Except Fault ValueMapping := do
  let identity := f.identity.key
  let r ← e.rule f.type identity
  if !r.fieldAllowed || r.fieldAccessor.isEmpty then
    throw (.declaration identity (.notAField f.type.key))
  let (size, alignment) := e.sizeOf r
  pure { semantic := f.type, abiType := r.abiType, descriptor := r.descriptor,
         cType := (castType? f.cast).getD r.cType, marshalOut := resultTemplate r, size, alignment,
         fieldAccessor := r.fieldAccessor }

/-- The least multiple of an alignment that is not below an offset. -/
def alignUp (offset alignment : Int) : Int :=
  if alignment ≤ 1 then offset else (offset + alignment - 1).fdiv alignment * alignment

/-- A field of a struct at its offset. -/
structure PlacedField where
  field : StructMember
  mapping : ValueMapping
  offset : Offset
  deriving DecidableEq, Repr, Inhabited

/-- A struct as it lies in memory. -/
structure MemoryLayout where
  struct : StructClass
  fields : List PlacedField
  size : Int
  alignment : Int
  deriving DecidableEq, Repr, Inhabited

/-- Whether a field is there on a platform: one that names no platform is there on all. -/
def presentOn (f : StructMember) (platform : String) : Bool :=
  f.platforms.isEmpty || f.platforms.contains platform

/-- Lays fields out from an offset on, each at its own offset if it gives one and else at the next
that its alignment admits. Also gives the end of the last field and the largest alignment. Fields of
other platforms are mapped too, but take no room. -/
def Mapper.layoutOfFrom (e : Mapper) (offset alignment : Int) :
    List StructMember → Except Fault (List PlacedField × Int × Int)
  | [] => .ok ([], offset, alignment)
  | f :: r => do
    let mapping ← e.fieldMapping f
    if !presentOn f e.platform then e.layoutOfFrom offset alignment r
    else
      let align := max mapping.alignment 1
      let start := f.offset.getD (.int (alignUp offset align))
      let (fields, size, alignment) ←
        e.layoutOfFrom (start.bytes + mapping.size) (max alignment align) r
      pure (⟨f, mapping, start⟩ :: fields, size, alignment)

/-- The layout of a struct by natural alignment. -/
def Mapper.layoutOf (e : Mapper) (s : StructClass) : Except Fault MemoryLayout := do
  let (fields, size, alignment) ← e.layoutOfFrom 0 1 s.fields
  pure ⟨s, fields, alignUp size alignment, alignment⟩

end NativeGlue.Mapping
