import NativeGlue.Proofs.Mapping.StandardRules
import NativeGlue.Proofs.Source.Declared

/-!
# What the virtual machine calls with

The virtual machine calls a native function with the types that its registered descriptor names
(`abiOf`), and a field is read and written by the functions for its descriptor (`accessorOf`). Under the
standard rules the mappings of parameters, results and fields show these types, and what has no rule is
refused as a declaration: classes, and arrays that are not of one dimension and of a primitive type
(`Unmapped`).

Rules are filed under simple names. So this takes classes whose names no rule is filed under (`Clear`):
a class by the name of `handle` is taken for a number (`disagrees_handleFiles`).
-/

namespace NativeGlue.Mapping

open NativeGlue.Template NativeGlue.Source

/-! ## 1. Descriptors -/

/-- The type by which a native function sees the values of a descriptor. -/
def abiOf : String → String
  | "V" => "void"
  | "Z" => "jboolean"
  | "B" => "jbyte"
  | "C" => "jchar"
  | "S" => "jshort"
  | "I" => "jint"
  | "J" => "jlong"
  | "F" => "jfloat"
  | "D" => "jdouble"
  | "[Z" => "jbooleanArray"
  | "[B" => "jbyteArray"
  | "[C" => "jcharArray"
  | "[S" => "jshortArray"
  | "[I" => "jintArray"
  | "[J" => "jlongArray"
  | "[F" => "jfloatArray"
  | "[D" => "jdoubleArray"
  | "Ljava/lang/String;" => "jstring"
  | _ => "jobject"

/-- The name that the functions for the fields of a descriptor show. -/
def accessorOf : String → String
  | "Z" => "Boolean"
  | "B" => "Byte"
  | "C" => "Char"
  | "S" => "Short"
  | "I" => "Int"
  | "J" => "Long"
  | "F" => "Float"
  | "D" => "Double"
  | _ => "Object"

/-- A mapping shows the types that the virtual machine calls with. -/
structure Agrees (type : HostType) (t : ValueMapping) : Prop where
  descriptor : t.descriptor = type.descriptor
  abiType : t.abiType = abiOf type.descriptor

/-- No rule takes a class for something else. -/
def Clear (t : HostType) : Prop := t.kind = .object → t.key ∉ requiredKeys

instance (t : HostType) : Decidable (Clear t) :=
  inferInstanceAs (Decidable (_ → _))

/-- A class, or an array that is not of one dimension and of a primitive type. -/
def Unmapped (t : HostType) : Prop :=
  t.kind = .object ∨ t.isArray = true ∧ ¬ (t.name ∈ primitives ∧ t.dimensions = 1)

instance (t : HostType) : Decidable (Unmapped t) :=
  inferInstanceAs (Decidable (_ ∨ _ ∧ _))

/-- A rule shows the types of a descriptor. -/
def Suits (r : Rule) (t : HostType) : Prop :=
  r.descriptor = t.descriptor ∧ r.abiType = abiOf t.descriptor ∧
    (r.fieldAccessor = "" ∨ r.fieldAccessor = accessorOf t.descriptor) ∧ r ≠ structRule

instance (r : Rule) (t : HostType) : Decidable (Suits r t) :=
  inferInstanceAs (Decidable (_ ∧ _ ∧ _ ∧ _))

/-! ## 2. Keys -/

theorem mem_requiredKeys {r : Rule} (h : r ∈ standardRules) : r.key ∈ requiredKeys :=
  builtin_covers ▸ List.mem_map_of_mem h

/-- Rules for arrays are for one dimension. -/
theorem eq_one_of_mem_requiredKeys {name : String} (hname : name ∈ "String" :: primitives) {n : Nat}
    (hn : n ≠ 0) (h : name ++ Text.copies n "[]" ∈ requiredKeys) : name ∈ primitives ∧ n = 1 := by
  have hclosed : (∀ k ∈ requiredKeys, k.toList.count '[' ≤ 1) ∧
      (∀ k ∈ "String" :: primitives, k.toList.count '[' = 0) ∧
      "String" ++ Text.copies 1 "[]" ∉ requiredKeys := by
    decide +kernel
  obtain ⟨hkeys, hnames, hstring⟩ := hclosed
  have hcount : (name ++ Text.copies n "[]").toList.count '[' = n := by
    have hcopies : ∀ n, (List.replicate n "[]".toList).flatten.count '[' = n := by
      intro n
      induction n with
      | zero => rfl
      | succ n ih =>
        rw [List.replicate_succ, List.flatten_cons, List.count_append, ih]
        exact Nat.add_comm 1 n
    rw [String.toList_append, Text.toList_copies, List.count_append, hnames name hname, hcopies,
      Nat.zero_add]
  have hone : n = 1 := by
    have hle := hkeys _ h
    rw [hcount] at hle
    omega
  refine ⟨(List.mem_cons.1 hname).resolve_left fun he => ?_, hone⟩
  rw [he, hone] at h
  exact hstring h

/-- **A rule that is found for a type shows the types of its descriptor.** -/
theorem suits_of_resolved {t : HostType} (h : Resolved t) (hc : Clear t) (hs : t.kind ≠ .struct)
    {r : Rule} (hr : r ∈ standardRules) (hkey : r.key = t.key) : Suits r t := by
  have hclosed : (∀ r ∈ standardRules, r.key = HostType.void.key → Suits r .void) ∧
      (∀ name ∈ primitives, ∀ r ∈ standardRules, r.key = HostType.key { kind := .primitive, name } →
        Suits r { kind := .primitive, name }) ∧
      (∀ name ∈ primitives, ∀ r ∈ standardRules,
        r.key = HostType.key { kind := .array, name, dimensions := 1 } →
          Suits r { kind := .array, name, dimensions := 1 }) ∧
      (∀ r ∈ standardRules, r.key = "String" →
        Suits r { kind := .string, name := "String", qualified := some "java/lang/String" }) ∧
      ∀ k ∈ [HostKind.handle, .callback], ∀ r ∈ standardRules,
        r.key = HostType.key { kind := k, name := "long" } → Suits r { kind := k, name := "long" } := by
    decide +kernel
  obtain ⟨hvoid, hprimitive, harray, hstring, hpointer⟩ := hclosed
  have hmem := hkey ▸ mem_requiredKeys hr
  cases h with
  | void => exact hvoid r hr hkey
  | primitive name hname => exact hprimitive name hname r hr hkey
  | string => exact hstring r hr hkey
  | array name hname n hn =>
    obtain ⟨-, rfl⟩ := eq_one_of_mem_requiredKeys (List.mem_cons_of_mem _ hname) hn hmem
    exact harray name hname r hr hkey
  | strings n hn =>
    obtain ⟨hname, -⟩ := eq_one_of_mem_requiredKeys List.mem_cons_self hn hmem
    exact absurd hname (by decide)
  | struct => exact absurd rfl hs
  | object => exact absurd hmem (hc rfl)
  | pointer k hk =>
    refine hpointer k ?_ r hr hkey
    rcases hk with rfl | rfl
    · exact List.mem_cons_self
    · exact List.mem_cons_of_mem _ List.mem_cons_self

/-- For what is not mapped there is no rule. -/
theorem ruleFor?_of_unmapped {t : HostType} (h : Resolved t) (hc : Clear t) (hu : Unmapped t) :
    ruleFor? standardRules t.key = none := by
  cases hr : ruleFor? standardRules t.key with
  | none => rfl
  | some r =>
    obtain ⟨hr, hkey⟩ := of_ruleFor? hr
    have hmem := hkey ▸ mem_requiredKeys hr
    exfalso
    rcases hu with hobject | ⟨harray, hother⟩
    · exact hc hobject hmem
    cases h with
    | array name hname n hn =>
      exact hother (eq_one_of_mem_requiredKeys (List.mem_cons_of_mem _ hname) hn hmem)
    | strings n hn =>
      obtain ⟨hname, -⟩ := eq_one_of_mem_requiredKeys List.mem_cons_self hn hmem
      exact absurd hname (by decide)
    | object => exact hc rfl hmem
    | _ => exact absurd harray Bool.false_ne_true

/-! ## 3. Mappings -/

section

variable {structs : List StructClass} {m : NativeMethod} {p : Parameter} {t : ValueMapping} {r : Rule}
  {c : Option StructClass}

/-- Only the rule of structs names a class. -/
theorem plain_of_mem_standardRules (hr : r ∈ standardRules) (hs : r ≠ structRule) :
    (∀ d ∈ r.descriptor.toList, d ≠ '\x7b' ∧ d ≠ '\x7d') ∧
      ∀ d ∈ r.cType.toList, d ≠ '\x7b' ∧ d ≠ '\x7d' := by
  have hclosed : ∀ r ∈ standardRules, r = structRule ∨
      (∀ d ∈ r.descriptor.toList, d ≠ '\x7b' ∧ d ≠ '\x7d') ∧
        ∀ d ∈ r.cType.toList, d ≠ '\x7b' ∧ d ≠ '\x7d' := by
    decide +kernel
  exact (hclosed r hr).resolve_left hs

/-- **A parameter that is no struct is seen as its descriptor says.** -/
theorem agrees_of_mapped (h : Mapped standardRules structs m p t r c) (hp : Resolved p.type)
    (hc : Clear p.type) (hs : p.type.kind ≠ .struct) : Agrees p.type t := by
  obtain ⟨hr, hkey⟩ := of_ruleFor? h.rule
  obtain ⟨hdescriptor, habi, -, hne⟩ := suits_of_resolved hp hc hs hr hkey
  have hfill : Template.fill (holesOf p r c) r.descriptor = .ok r.descriptor :=
    fill_of_fills (fills_text (plain_of_mem_standardRules hr hne).1)
  have hsame : t.descriptor = r.descriptor := Except.ok.inj (h.descriptor.symm.trans hfill)
  exact ⟨hsame.trans hdescriptor, h.abiType.trans habi⟩

/-- **A result is seen as its descriptor says.** -/
theorem agrees_of_resultMapped (h : ResultMapped m t) (hp : Resolved m.returnType)
    (hc : Clear m.returnType) : Agrees m.returnType t := by
  obtain ⟨r, hfound, hreturnable, habi, hdescriptor⟩ := h.rule
  obtain ⟨hr, hkey⟩ := of_ruleFor? hfound
  have hs : m.returnType.kind ≠ .struct := by
    intro hs
    have hnone : ∀ r ∈ standardRules, r.key = "struct" → r.returnable = false := by decide +kernel
    rw [hnone r hr (hkey.trans (key_of_struct hs))] at hreturnable
    cases hreturnable
  obtain ⟨hsuits, habi', -⟩ := suits_of_resolved hp hc hs hr hkey
  exact ⟨hdescriptor.trans hsuits, habi.trans habi'⟩

/-- **A field is read and written by the functions for its descriptor.** -/
theorem agrees_of_fieldMapping {e : Mapper} (he : e.rules = standardRules) {f : StructMember}
    (h : e.fieldMapping f = .ok t) (hp : Resolved f.type) (hc : Clear f.type) :
    Agrees f.type t ∧ t.fieldAccessor = accessorOf f.type.descriptor := by
  unfold Mapper.fieldMapping at h
  obtain ⟨r, hr, h⟩ := ok_of_bind h
  have hfound := ruleFor?_of_rule hr
  rw [he] at hfound
  obtain ⟨hr, hkey⟩ := of_ruleFor? hfound
  dsimp only at h
  split at h
  · obtain ⟨_, hthrow, -⟩ := ok_of_bind h
    exact (not_ok_throw hthrow).elim
  rename_i hallowed
  rw [Bool.or_eq_true, not_or, Bool.not_eq_true', Bool.not_eq_false] at hallowed
  have hs : f.type.kind ≠ .struct := by
    intro hs
    have hnone : ∀ r ∈ standardRules, r.key = "struct" → r.fieldAllowed = false := by decide +kernel
    have hfalse := hnone r hr (hkey.trans (key_of_struct hs))
    rw [hfalse] at hallowed
    exact absurd hallowed.1 Bool.false_ne_true
  obtain ⟨hdescriptor, habi, haccessor, -⟩ := suits_of_resolved hp hc hs hr hkey
  obtain rfl := Except.ok.inj h
  refine ⟨⟨hdescriptor, habi⟩, haccessor.resolve_left fun hempty => hallowed.2 ?_⟩
  exact String.isEmpty_iff.2 hempty

end

/-! ## 4. Refusals -/

section

variable {structs : List StructClass} {m : NativeMethod} {p : Parameter} {r : Rule}
  {c : Option StructClass}

/-- The templates of a rule that a parameter may need. -/
def Rule.templates (r : Rule) : List String :=
  [r.descriptor, r.cType, r.marshalIn, r.release, r.pinnedIn, r.pinnedRelease, r.noIn, r.localDecl,
    r.callArg]

/-- **The templates of the standard rules can be filled.** -/
theorem exists_fill (hr : r ∈ standardRules) :
    ∀ x ∈ r.templates, ∃ s, Template.fill (holesOf p r c) x = .ok s := by
  have hempty : ∃ s, Template.fill (holesOf p r c) "" = .ok s := ⟨"", fill_empty⟩
  have harg : ∃ s, Template.fill (holesOf p r c) r.callArg = .ok s := by
    obtain ⟨a, -, hfill⟩ := fill_callArg (p := p) (c := c) hr
    exact ⟨_, hfill⟩
  have hdescriptor : r ≠ structRule → ∃ s, Template.fill (holesOf p r c) r.descriptor = .ok s :=
    fun hne => ⟨_, fill_of_fills (fills_text (plain_of_mem_standardRules hr hne).1)⟩
  have htype : r ≠ structRule → ∃ s, Template.fill (holesOf p r c) r.cType = .ok s :=
    fun hne => ⟨_, fill_of_fills (fills_text (plain_of_mem_standardRules hr hne).2)⟩
  have hclosed : (∀ q ∈ primitiveTypes, q.rule ≠ structRule ∧ q.ruleOfArray ≠ structRule) ∧
      voidRule ≠ structRule ∧ stringRule ≠ structRule ∧ pointerRule "handle" ≠ structRule ∧
        pointerRule "callback" ≠ structRule := by
    decide +kernel
  obtain ⟨hprimitive, hvoid, hstring, hhandle, hcallback⟩ := hclosed
  simp only [Rule.templates, List.forall_mem_cons]
  rcases cases_of_mem_standardRules hr with
    rfl | ⟨q, hq, rfl⟩ | ⟨q, hq, rfl⟩ | rfl | rfl | rfl | rfl
  · exact ⟨hdescriptor hvoid, htype hvoid, hempty, hempty, hempty, hempty, hempty, hempty, harg,
      List.forall_mem_nil _⟩
  · have hne := (hprimitive q hq).1
    exact ⟨hdescriptor hne, htype hne, hempty, hempty, hempty, hempty, hempty, hempty, harg,
      List.forall_mem_nil _⟩
  · have hne := (hprimitive q hq).2
    exact ⟨hdescriptor hne, htype hne, ⟨_, fill_arrayBorrowed hq⟩, ⟨_, fill_arrayReturned hq⟩,
      ⟨_, fill_arrayPinned q⟩, ⟨_, fill_arrayUnpinned q⟩, hempty, ⟨_, fill_arrayDecl hq⟩, harg,
      List.forall_mem_nil _⟩
  · exact ⟨hdescriptor hstring, htype hstring, ⟨_, fill_textBorrowed⟩, ⟨_, fill_textReturned⟩, hempty,
      hempty, hempty, ⟨_, fill_textDecl⟩, harg, List.forall_mem_nil _⟩
  · exact ⟨⟨_, fill_structDescriptor⟩, ⟨_, fill_structType⟩, ⟨_, fill_structIn⟩, ⟨_, fill_structOut⟩,
      hempty, hempty, ⟨_, fill_structNoIn⟩, ⟨_, fill_structDecl⟩, harg, List.forall_mem_nil _⟩
  · exact ⟨hdescriptor hhandle, htype hhandle, hempty, hempty, hempty, hempty, hempty, hempty, harg,
      List.forall_mem_nil _⟩
  · exact ⟨hdescriptor hcallback, htype hcallback, hempty, hempty, hempty, hempty, hempty, hempty,
      harg, List.forall_mem_nil _⟩

/-- What carries a parameter in and what gives it back are templates of its rule, or empty. -/
theorem mem_templates_of_marshalTemplates :
    ((marshalTemplates p m r).1 = "" ∨ (marshalTemplates p m r).1 ∈ r.templates) ∧
      ((marshalTemplates p m r).2 = "" ∨ (marshalTemplates p m r).2 ∈ r.templates) := by
  unfold marshalTemplates Rule.templates
  cases isPinned p m
  · refine ⟨.inr ?_, ?_⟩
    · dsimp only
      split <;> simp
    · dsimp only
      split <;> simp
  · refine ⟨.inr ?_, ?_⟩
    · dsimp only
      split <;> simp
    · dsimp only
      split <;> simp

/-- Under the standard rules nothing is left open once the rule and the struct class are found. -/
theorem mappingBy_ne_error {e : Mapper} (hr : r ∈ standardRules) {f : Fault} :
    mappingBy e m p r c ≠ .error f := by
  have hfill : ∀ {x}, x = "" ∨ x ∈ r.templates → fill (holesOf p r c) x ≠ .error f := by
    intro x hx hfail
    have hfilled : ∃ s, Template.fill (holesOf p r c) x = .ok s := by
      rcases hx with rfl | hx
      · exact ⟨"", fill_empty⟩
      · exact exists_fill hr x hx
    obtain ⟨s, hs⟩ := hfilled
    rw [fill, hs] at hfail
    cases hfail
  obtain ⟨htake, hgive⟩ := mem_templates_of_marshalTemplates (m := m) (p := p) (r := r)
  intro h
  unfold mappingBy at h
  rcases error_of_bind h with h | ⟨_, -, h⟩
  · exact hfill (.inr (by simp [Rule.templates])) h
  rcases error_of_bind h with h | ⟨_, -, h⟩
  · unfold typeBy at h
    split at h
    · cases h
    · exact hfill (.inr (by simp [Rule.templates])) h
  rcases error_of_bind h with h | ⟨_, -, h⟩
  · exact hfill htake h
  rcases error_of_bind h with h | ⟨_, -, h⟩
  · exact hfill hgive h
  rcases error_of_bind h with h | ⟨_, -, h⟩
  · exact hfill (.inr (by simp [Rule.templates])) h
  rcases error_of_bind h with h | ⟨_, -, h⟩
  · exact hfill (.inr (by simp [Rule.templates])) h
  · cases h

/-- A rule that is missing is missed by the declaration. -/
theorem declaration_of_rule {e : Mapper} {type : HostType} {identity : String} {f : Fault}
    (h : e.rule type identity = .error f) : ∃ cause, f = .declaration identity cause := by
  unfold Mapper.rule at h
  split at h
  · cases h
  · exact ⟨_, (Except.error.inj h).symm⟩

/-- A parameter is refused only as a declaration. -/
theorem declaration_of_paramMapping {e : Mapper} (he : e.rules = standardRules) {f : Fault}
    (h : e.paramMapping structs m p = .error f) : ∃ cause, f = .declaration m.identity.key cause := by
  rw [paramMapping_eq] at h
  split at h
  · exact ⟨_, (Except.error.inj h).symm⟩
  rcases error_of_bind h with h | ⟨r, hr, h⟩
  · exact declaration_of_rule h
  rcases error_of_bind h with h | ⟨c, -, h⟩
  · unfold structBy at h
    split at h
    · split at h
      · cases h
      · exact ⟨_, (Except.error.inj h).symm⟩
    · cases h
  · have hr := ruleFor?_of_rule hr
    rw [he] at hr
    exact (mappingBy_ne_error (of_ruleFor? hr).1 h).elim

theorem declaration_of_resultMapping {e : Mapper} {f : Fault} (h : e.resultMapping m = .error f) :
    ∃ cause, f = .declaration m.identity.key cause := by
  unfold Mapper.resultMapping at h
  rcases error_of_bind h with h | ⟨r, -, h⟩
  · exact declaration_of_rule h
  dsimp only at h
  split at h
  · rcases error_of_bind h with h | ⟨_, h, -⟩
    · exact ⟨_, (Except.error.inj h).symm⟩
    · cases h
  · cases h

/-- **Under the standard rules a method is refused only as a declaration.** -/
theorem declaration_of_callMapping {e : Mapper} (he : e.rules = standardRules) {f : Fault}
    (h : e.callMapping structs m = .error f) : ∃ cause, f = .declaration m.identity.key cause := by
  unfold Mapper.callMapping at h
  dsimp only at h
  split at h
  · rcases error_of_bind h with h | ⟨_, h, -⟩
    · exact ⟨_, (Except.error.inj h).symm⟩
    · cases h
  rcases error_of_bind h with h | ⟨ts, -, h⟩
  · obtain ⟨p, -, hp⟩ := error_of_mapM h
    exact declaration_of_paramMapping he hp
  rcases error_of_bind h with h | ⟨t, -, h⟩
  · exact declaration_of_resultMapping h
  split at h
  · rcases error_of_bind h with h | ⟨_, h, -⟩
    · exact ⟨_, (Except.error.inj h).symm⟩
    · cases h
  · cases h

/-- Where no rule is found, none is used. -/
theorem rule_of_unmapped {e : Mapper} (he : e.rules = standardRules) {type : HostType}
    (h : Resolved type) (hc : Clear type) (hu : Unmapped type) (identity : String) :
    e.rule type identity = .error (.declaration identity (.noRule type.key)) := by
  rw [Mapper.rule, he, ruleFor?_of_unmapped h hc hu]

theorem paramMapping_of_unmapped {e : Mapper} (he : e.rules = standardRules) (h : Resolved p.type)
    (hc : Clear p.type) (hu : Unmapped p.type) :
    e.paramMapping structs m p = .error (.declaration m.identity.key (.noRule p.type.key)) := by
  have hvoid : p.type.kind ≠ .void := by
    intro hk
    rcases hu with ho | ⟨ha, -⟩
    · rw [hk] at ho
      cases ho
    · rw [h.isArray (by rw [hk]; decide) (by rw [hk]; decide)] at ha
      cases ha
  rw [paramMapping_eq, if_neg hvoid, rule_of_unmapped he h hc hu]
  rfl

theorem resultMapping_of_unmapped {e : Mapper} (he : e.rules = standardRules)
    (h : Resolved m.returnType) (hc : Clear m.returnType) (hu : Unmapped m.returnType) :
    e.resultMapping m = .error (.declaration m.identity.key (.noRule m.returnType.key)) := by
  unfold Mapper.resultMapping
  dsimp only
  rw [rule_of_unmapped he h hc hu]
  rfl

theorem fieldMapping_of_unmapped {e : Mapper} (he : e.rules = standardRules) {f : StructMember}
    (h : Resolved f.type) (hc : Clear f.type) (hu : Unmapped f.type) :
    e.fieldMapping f = .error (.declaration f.identity.key (.noRule f.type.key)) := by
  unfold Mapper.fieldMapping
  dsimp only
  rw [rule_of_unmapped he h hc hu]
  rfl

/-- A method with a parameter or a result that cannot be mapped is refused. -/
theorem callMapping_of_error {e : Mapper} (he : e.rules = standardRules)
    (h : (∃ p ∈ m.parameters, ∃ f, e.paramMapping structs m p = .error f) ∨
      ∃ f, e.resultMapping m = .error f) :
    ∃ cause, e.callMapping structs m = .error (.declaration m.identity.key cause) := by
  cases hcall : e.callMapping structs m with
  | error f =>
    obtain ⟨cause, rfl⟩ := declaration_of_callMapping he hcall
    exact ⟨cause, rfl⟩
  | ok call =>
    exfalso
    have hmapped := callMapped hcall
    rcases h with ⟨p, hp, f, hf⟩ | ⟨f, hf⟩
    · obtain ⟨t, -, hpt⟩ := exists_of_mem_forall₂ hmapped.parameters.flip hp
      rw [hf] at hpt
      cases hpt
    · rw [hmapped.result] at hf
      cases hf

end

/-! ## 5. Models -/

/-- The types of parameters, results and fields. -/
def typesOf (model : Model) : List HostType :=
  model.natives.flatMap (fun n => n.returnType :: n.parameters.map (·.type))
    ++ model.structs.flatMap fun s => s.fields.map (·.type)

/-- A method that is called with the types of its descriptor, or refused. -/
structure Called (e : Mapper) (structs : List StructClass) (n : NativeMethod) : Prop where
  agrees : ∀ call, e.callMapping structs n = .ok call →
    (∀ x ∈ call.mapped, x.1.type.kind ≠ .struct → Agrees x.1.type x.2) ∧
      call.mapped.map (·.1) = n.parameters ∧ Agrees n.returnType call.result
  param : ∀ p ∈ n.parameters, Unmapped p.type →
    e.paramMapping structs n p = .error (.declaration n.identity.key (.noRule p.type.key))
  result : Unmapped n.returnType →
    e.resultMapping n = .error (.declaration n.identity.key (.noRule n.returnType.key))
  refused : (Unmapped n.returnType ∨ ∃ p ∈ n.parameters, Unmapped p.type) →
    ∃ cause, e.callMapping structs n = .error (.declaration n.identity.key cause)

/-- A field that is read and written by the functions for its descriptor, or refused. -/
structure Accessed (e : Mapper) (f : StructMember) : Prop where
  agrees : ∀ t, e.fieldMapping f = .ok t →
    Agrees f.type t ∧ t.fieldAccessor = accessorOf f.type.descriptor
  refused : Unmapped f.type →
    e.fieldMapping f = .error (.declaration f.identity.key (.noRule f.type.key))

section

variable {store : Overlay.Store} {files : List OutlinedFile} {known : List (String × DeclaredClass)}
  {es : List DeclaredClass} {model : Model} {e : Mapper}

theorem called_of_modelFrom (he : e.rules = standardRules) (h : ModelFrom store files known es model)
    (hc : ∀ t ∈ typesOf model, Clear t) {n : NativeMethod} (hn : n ∈ model.natives)
    (structs : List StructClass) : Called e structs n := by
  obtain ⟨hresult, hparams⟩ := h.resolved hn
  have hclear : ∀ t ∈ n.returnType :: n.parameters.map (·.type), Clear t := fun t ht =>
    hc t (List.mem_append_left _ (List.mem_flatMap_of_mem hn ht))
  have hclearResult := hclear _ List.mem_cons_self
  have hclearParam : ∀ p ∈ n.parameters, Clear p.type := fun p hp =>
    hclear _ (List.mem_cons_of_mem _ (List.mem_map_of_mem hp))
  have hparam : ∀ p ∈ n.parameters, Unmapped p.type →
      e.paramMapping structs n p = .error (.declaration n.identity.key (.noRule p.type.key)) :=
    fun p hp hu => paramMapping_of_unmapped he (hparams p hp) (hclearParam p hp) hu
  have hrefused := resultMapping_of_unmapped he hresult hclearResult
  refine ⟨fun call hcall => ?_, hparam, hrefused, fun hu => callMapping_of_error he ?_⟩
  · have hm := methodMapped he hcall
    refine ⟨fun x hx hs => ?_, hm.map_fst_mapped,
      agrees_of_resultMapped hm.result hresult hclearResult⟩
    obtain ⟨hp, r, c, hmapped⟩ := hm.of_mem_mapped hx
    exact agrees_of_mapped hmapped (hparams _ hp) (hclearParam _ hp) hs
  · rcases hu with hu | ⟨p, hp, hu⟩
    · exact .inr ⟨_, hrefused hu⟩
    · exact .inl ⟨p, hp, _, hparam p hp hu⟩

theorem accessed_of_modelFrom (he : e.rules = standardRules) (h : ModelFrom store files known es model)
    (hc : ∀ t ∈ typesOf model, Clear t) {s : StructClass} (hs : s ∈ model.structs) {f : StructMember}
    (hf : f ∈ s.fields) : Accessed e f := by
  have hresolved := h.resolved_field hs hf
  have hclear := hc f.type
    (List.mem_append_right _ (List.mem_flatMap_of_mem hs (List.mem_map_of_mem hf)))
  exact ⟨fun t ht => agrees_of_fieldMapping he ht hresolved hclear,
    fieldMapping_of_unmapped he hresolved hclear⟩

end

/-- **A native function is called with the types of its registered descriptor**: where no class goes by
a name that rules are filed under, its parameters and its result have the types that their descriptors
name, the fields of struct classes are read and written by the functions for theirs, and what cannot be
mapped is refused. -/
theorem called_of_modelOf {store : Overlay.Store} {files : List OutlinedFile} {model : Model}
    (h : modelOf store files = .ok model) {e : Mapper} (he : e.rules = standardRules)
    (hc : ∀ t ∈ typesOf model, Clear t) :
    (∀ n ∈ model.natives, Called e model.structs n) ∧
      ∀ s ∈ model.structs, ∀ f ∈ s.fields, Accessed e f := by
  obtain ⟨known, es, hm⟩ := modelFrom_of_modelOf h
  exact ⟨fun n hn => called_of_modelFrom he hm hc hn _,
    fun s hs f hf => accessed_of_modelFrom he hm hc hs hf⟩

/-- A file with a method that can be called, one that cannot, and a struct class with a field that
cannot be read. -/
def spanFiles : List OutlinedFile :=
  [ { path := ⟨.here, ["OS.java"]⟩
      outline :=
        { package := "p"
          classes :=
            [ { name := "Span", line := 1, natives := []
                fields := [⟨"size", "int", 2, none⟩, ⟨"owner", "Object", 3, none⟩] },
              { name := "OS", line := 5, fields := []
                natives :=
                  [ ⟨"fill", [⟨"data", "int[]", 6⟩, ⟨"tag", "String", 6⟩, ⟨"span", "Span", 6⟩], "boolean",
                      ["native"], 6, none⟩,
                    ⟨"keep", [⟨"owner", "Object", 7⟩], "void", ["native"], 7, none⟩ ] } ] } } ]

theorem called_spanFiles :
    ∃ m s size owner fill keep call, modelOf {} spanFiles = .ok m ∧ s ∈ m.structs ∧
      (size ∈ s.fields ∧ size.name = "size" ∧ Accessed ⟨"linux", 64, 8, standardRules⟩ size) ∧
      (owner ∈ s.fields ∧ Unmapped owner.type ∧
        Accessed ⟨"linux", 64, 8, standardRules⟩ owner) ∧
      (fill ∈ m.natives ∧ Called ⟨"linux", 64, 8, standardRules⟩ m.structs fill ∧
        Mapper.callMapping ⟨"linux", 64, 8, standardRules⟩ m.structs fill = .ok call ∧
        call.parameters.map (·.abiType) = ["jintArray", "jstring", "jobject"]) ∧
      (keep ∈ m.natives ∧ (∃ p ∈ keep.parameters, Unmapped p.type) ∧
        Called ⟨"linux", 64, 8, standardRules⟩ m.structs keep) := by
  have hbuilt : ∃ m ∈ (modelOf {} spanFiles).toOption, (∀ t ∈ typesOf m, Clear t) ∧
      ∃ s ∈ m.structs, (∃ size ∈ s.fields, size.name = "size") ∧
        (∃ owner ∈ s.fields, Unmapped owner.type) ∧
        (∃ fill ∈ m.natives,
          ∃ call ∈ (Mapper.callMapping ⟨"linux", 64, 8, standardRules⟩ m.structs fill).toOption,
            call.parameters.map (·.abiType) = ["jintArray", "jstring", "jobject"]) ∧
        ∃ keep ∈ m.natives, ∃ p ∈ keep.parameters, Unmapped p.type := by
    decide +kernel
  obtain ⟨m, hm, hclear, s, hs, ⟨size, hsize, hname⟩, ⟨owner, howner, hunmapped⟩,
    ⟨fill, hfill, call, hcall, habi⟩, ⟨keep, hkeep, hparam⟩⟩ := hbuilt
  have hm := ok_of_toOption hm
  obtain ⟨hcalled, haccessed⟩ :=
    called_of_modelOf (e := ⟨"linux", 64, 8, standardRules⟩) hm rfl hclear
  exact ⟨m, s, size, owner, fill, keep, call, hm, hs, ⟨hsize, hname, haccessed s hs size hsize⟩,
    ⟨howner, hunmapped, haccessed s hs owner howner⟩,
    ⟨hfill, hcalled fill hfill, ok_of_toOption hcall, habi⟩, hkeep, hparam, hcalled keep hkeep⟩

/-- A file with a class that goes by the name of a rule. -/
def handleFiles : List OutlinedFile :=
  [ { path := ⟨.here, ["OS.java"]⟩
      outline :=
        { package := ""
          classes :=
            [ { name := "OS", line := 2, fields := []
                natives := [⟨"use", [⟨"h", "handle", 3⟩], "void", ["native"], 3, none⟩] },
              { name := "handle", line := 5, fields := [], natives := [] } ] } } ]

/-- **A class may be taken for a number**: the method is registered for an instance of the class, and
its function expects a number. -/
theorem disagrees_handleFiles :
    ∃ m n call p t, modelOf {} handleFiles = .ok m ∧ n ∈ m.natives ∧
      Mapper.callMapping ⟨"linux", 64, 8, standardRules⟩ m.structs n = .ok call ∧
      (p, t) ∈ call.mapped ∧ p.type.kind = .object ∧
      p.type.descriptor = "L" ++ p.type.className ++ ";" ∧ t.abiType = "jlong" ∧ t.descriptor = "J" ∧
      ¬ Agrees p.type t := by
  have hbuilt : ∃ m ∈ (modelOf {} handleFiles).toOption, ∃ n ∈ m.natives,
      ∃ call ∈ (Mapper.callMapping ⟨"linux", 64, 8, standardRules⟩ m.structs n).toOption,
        ∃ x ∈ call.mapped, x.1.type.kind = .object ∧ primitiveDescriptor? x.1.type.name = none ∧
          x.1.type.dimensions = 0 ∧ x.2.abiType = "jlong" ∧ x.2.descriptor = "J" := by
    decide +kernel
  obtain ⟨m, hm, n, hn, call, hcall, x, hx, hkind, hname, hone, habi, hletter⟩ := hbuilt
  have hdescriptor := descriptor_of_class (.inr hkind) hname hone
  refine ⟨m, n, call, x.1, x.2, ok_of_toOption hm, hn, ok_of_toOption hcall, hx, hkind, hdescriptor,
    habi, hletter, fun h => ?_⟩
  have hfirst := congrArg (·.toList.head?) h.descriptor
  rw [hletter, hdescriptor] at hfirst
  simp at hfirst

end NativeGlue.Mapping
