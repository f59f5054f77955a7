import NativeGlue.Mapping.Mapper
import NativeGlue.Proofs.Fallible
import NativeGlue.Proofs.Mapping.Templates
import NativeGlue.Proofs.Text.Occurrence

/-!
# What the standard rules write

Under the standard rules a parameter crosses in one of five ways (`Crossing`): as it is, or through a
local that a copied array, a pinned array, a text or a struct is acquired into and given back from.
The texts of each way are known but for the names in them.
-/

namespace NativeGlue.Mapping

open NativeGlue.Template

/-! ## 1. The mapping of a parameter -/

/-- The struct class that a parameter stands for. -/
def structBy (structs : List StructClass) (m : NativeMethod) (p : Parameter) :
    Except Fault (Option StructClass) :=
  if p.type.kind = .struct then
    match structClassNamed? structs p.type.name with
    | some s => pure (some s)
    | none => throw (.declaration m.identity.key (.noStructClass p.type.name))
  else pure none

/-- The C type of a parameter: that of its cast, or that of its rule. -/
def typeBy (p : Parameter) (r : Rule) (c : Option StructClass) : Except Fault String :=
  match castType? p.cast with
  | some t => pure t
  | none => fill (holesOf p r c) r.cType

/-- The mapping of a parameter once its rule and its struct class are found. -/
def mappingBy (e : Mapper) (m : NativeMethod) (p : Parameter) (r : Rule) (c : Option StructClass) :
    Except Fault ValueMapping := do
  let descriptor ← fill (holesOf p r c) r.descriptor
  let cType ← typeBy p r c
  let marshalIn ← fill (holesOf p r c) (marshalTemplates p m r).1
  let release ← fill (holesOf p r c) (marshalTemplates p m r).2
  let localDecl ← fill (holesOf p r c) r.localDecl
  let callArg ← fill (holesOf p r c) r.callArg
  pure
    { semantic := p.type, abiType := r.abiType, descriptor, cType, marshalIn, release, localDecl,
      callArg, discipline := disciplineOf p m r, size := (e.sizeOf r).1, alignment := (e.sizeOf r).2 }

/-- **A parameter is mapped in three steps**: its rule is found, then its struct class, and then the
templates of the rule are filled. -/
theorem paramMapping_eq (e : Mapper) (structs : List StructClass) (m : NativeMethod) (p : Parameter) :
    e.paramMapping structs m p =
      if p.type.kind = .void then .error (.declaration m.identity.key (.voidParameter p.name))
      else e.rule p.type m.identity.key >>= fun r =>
        structBy structs m p >>= fun c => mappingBy e m p r c := by
  unfold Mapper.paramMapping
  dsimp only
  split
  · rfl
  refine congrArg _ (funext fun r => ?_)
  unfold structBy mappingBy typeBy
  split
  · cases structClassNamed? structs p.type.name with
    | none => rfl
    | some s => cases castType? p.cast <;> rfl
  · cases castType? p.cast <;> rfl

/-- What is known of the mapping of a parameter: its rule, the struct class it stands for, and the
templates that its texts come from. -/
structure Mapped (rules : List Rule) (structs : List StructClass) (m : NativeMethod) (p : Parameter)
    (t : ValueMapping) (r : Rule) (c : Option StructClass) : Prop where
  kind : p.type.kind ≠ .void
  rule : ruleFor? rules p.type.key = some r
  struct : ∀ s ∈ c, s ∈ structs
  named : p.type.kind = .struct → ∃ s, c = some s ∧ structClassNamed? structs p.type.name = some s
  abiType : t.abiType = r.abiType
  descriptor : Template.fill (holesOf p r c) r.descriptor = .ok t.descriptor
  cType : castType? p.cast = some t.cType ∨ Template.fill (holesOf p r c) r.cType = .ok t.cType
  marshalIn : Template.fill (holesOf p r c) (marshalTemplates p m r).1 = .ok t.marshalIn
  release : Template.fill (holesOf p r c) (marshalTemplates p m r).2 = .ok t.release
  localDecl : Template.fill (holesOf p r c) r.localDecl = .ok t.localDecl
  callArg : Template.fill (holesOf p r c) r.callArg = .ok t.callArg
  discipline : t.discipline = disciplineOf p m r

theorem fill_ok {values : List (String × String)} {template text : String}
    (h : fill values template = .ok text) : Template.fill values template = .ok text := by
  unfold fill at h
  cases hf : Template.fill values template with
  | error e =>
    rw [hf] at h
    cases h
  | ok s =>
    rw [hf] at h
    cases h
    rfl

/-- A mapper is that of its target and its rules. -/
theorem eq_of_ofRules {target : Target} {rules : List Rule} {e : Mapper}
    (h : Mapper.ofRules target rules = .ok e) :
    e = ⟨target.platform, target.wordSize, target.pointerSize, rules⟩ := by
  unfold Mapper.ofRules at h
  split at h
  · cases h
  · dsimp only at h
    split at h
    · exact (Except.ok.inj h).symm
    · cases h

/-- A rule that is found for a type is filed under its key. -/
theorem ruleFor?_of_rule {e : Mapper} {type : HostType} {identity : String} {r : Rule}
    (h : e.rule type identity = .ok r) : ruleFor? e.rules type.key = some r := by
  unfold Mapper.rule at h
  split at h
  · rename_i hfound
    rw [hfound, Except.ok.inj h]
  · cases h

/-- What is found by a name is one of the struct classes and goes by it. -/
theorem of_structClassNamed? {structs : List StructClass} {name : String} {s : StructClass}
    (h : structClassNamed? structs name = some s) : s ∈ structs ∧ s.name = name := by
  have hname := List.find?_some (p := fun x : StructClass => x.name == name) h
  exact ⟨List.mem_reverse.1 (List.mem_of_find?_eq_some h), beq_iff_eq.1 hname⟩

/-- A struct class is found for a parameter that stands for one, and for no other. -/
theorem of_structBy {structs : List StructClass} {m : NativeMethod} {p : Parameter}
    {c : Option StructClass} (h : structBy structs m p = .ok c) : (∀ s ∈ c, s ∈ structs) ∧
      (p.type.kind = .struct → ∃ s, c = some s ∧ structClassNamed? structs p.type.name = some s) := by
  unfold structBy at h
  split at h
  · split at h
    · rename_i s hs
      obtain rfl := Except.ok.inj h
      refine ⟨fun x hx => ?_, fun _ => ⟨s, rfl, hs⟩⟩
      obtain rfl := Option.some.inj hx
      exact (of_structClassNamed? hs).1
    · exact (not_ok_throw h).elim
  · rename_i hkind
    obtain rfl := Except.ok.inj h
    exact ⟨nofun, fun hs => absurd hs hkind⟩

theorem of_typeBy {p : Parameter} {r : Rule} {c : Option StructClass} {cType : String}
    (h : typeBy p r c = .ok cType) :
    castType? p.cast = some cType ∨ Template.fill (holesOf p r c) r.cType = .ok cType := by
  unfold typeBy at h
  split at h
  · rename_i t ht
    exact .inl (Except.ok.inj h ▸ ht)
  · exact .inr (fill_ok h)

/-- A mapping is put together from the texts that the templates of its rule are filled to. -/
theorem exists_mapped {e : Mapper} {structs : List StructClass} {m : NativeMethod} {p : Parameter}
    {t : ValueMapping} (h : e.paramMapping structs m p = .ok t) :
    ∃ r c, Mapped e.rules structs m p t r c := by
  rw [paramMapping_eq] at h
  split at h
  · cases h
  rename_i hkind
  obtain ⟨r, hr, h⟩ := ok_of_bind h
  obtain ⟨c, hc, h⟩ := ok_of_bind h
  obtain ⟨hmem, hnamed⟩ := of_structBy hc
  unfold mappingBy at h
  obtain ⟨descriptor, hdescriptor, h⟩ := ok_of_bind h
  obtain ⟨cType, hcType, h⟩ := ok_of_bind h
  obtain ⟨marshalIn, hin, h⟩ := ok_of_bind h
  obtain ⟨release, hrelease, h⟩ := ok_of_bind h
  obtain ⟨localDecl, hlocal, h⟩ := ok_of_bind h
  obtain ⟨callArg, harg, h⟩ := ok_of_bind h
  obtain rfl := Except.ok.inj h
  exact ⟨r, c, hkind, ruleFor?_of_rule hr, hmem, hnamed, rfl, fill_ok hdescriptor, of_typeBy hcType,
    fill_ok hin, fill_ok hrelease, fill_ok hlocal, fill_ok harg, rfl⟩

/-! ## 2. The texts -/

/-- The local of a parameter. -/
def localOf (p : Parameter) : String := "lp" ++ p.arg

/-- The line that acquires the local of a parameter. -/
def taken (p : Parameter) (source : String) : String :=
  "if (" ++ p.arg ++ ") if ((" ++ localOf p ++ " = " ++ source ++ ") == NULL) goto fail;"

/-- The line that gives the local of a parameter back. -/
def given (p : Parameter) (action : String) : String :=
  "if (" ++ p.arg ++ " && " ++ localOf p ++ ") " ++ action ++ ";"

/-- A call of the virtual machine that gets hold of an argument. -/
def getCall (f : String) (p : Parameter) : String := "(*env)->" ++ f ++ "(env, " ++ p.arg ++ ", NULL)"

/-- A call that gives the local of an argument back. -/
def giveCall (f : String) (p : Parameter) (more : String) : String :=
  f ++ "(env, " ++ p.arg ++ ", " ++ localOf p ++ more ++ ")"

/-- How an array is given back. -/
def modeOf (p : Parameter) : String := if p.ownership = .borrowed then "JNI_ABORT" else "0"

/-- The cast of a parameter, or the one that its rule puts there. -/
def castOf (p : Parameter) (r : Rule) : String := (p.cast.filter (!·.isEmpty)).getD (usualCast r)

section

variable {p : Parameter} {r : Rule} {c : Option StructClass}

theorem fills_arg : Fills (holesOf p r c) arg p.arg := fills_hole (by decide) rfl

theorem fills_buf : Fills (holesOf p r c) buf (localOf p) := fills_hole (by decide) rfl

theorem fills_cast : Fills (holesOf p r c) cast (castOf p r) := fills_hole (by decide) rfl

theorem fills_mode : Fills (holesOf p r c) mode (modeOf p) := fills_hole (by decide) rfl

theorem fills_structClass : Fills (holesOf p r c) structClass ((c.map (·.name)).getD "") :=
  fills_hole (by decide) rfl

theorem fills_native : Fills (holesOf p r c) native ((c.map (·.nativeName)).getD "") :=
  fills_hole (by decide) rfl

theorem fills_qualified : Fills (holesOf p r c) qualified ((c.map (·.qualified)).getD "") :=
  fills_hole (by decide) rfl

/-- A template is filled whatever the way it is put together. -/
theorem fill_of_toList {values : List (String × String)} {template other text : String}
    (h : Fills values other text) (he : template.toList = other.toList) :
    Template.fill values template = .ok text := by
  rw [String.toList_injective he]
  exact fill_of_fills h

theorem fill_empty {values : List (String × String)} : Template.fill values "" = .ok "" :=
  fill_of_fills (fills_text (by decide))

/-- The names of primitive types can stand in templates. -/
theorem plain_of_mem_primitiveTypes : ∀ q ∈ primitiveTypes,
    (∀ d ∈ q.name.toList, d ≠ '\x7b' ∧ d ≠ '\x7d') ∧
      ∀ d ∈ q.accessor.toList, d ≠ '\x7b' ∧ d ≠ '\x7d' := by
  decide

theorem fill_taken {template source x : String} (h : Fills (holesOf p r c) source x)
    (he : template.toList =
      ("if (" ++ arg ++ ") if ((" ++ buf ++ " = " ++ source ++ ") == NULL) goto fail;").toList) :
    Template.fill (holesOf p r c) template = .ok (taken p x) := by
  have htaken : Fills (holesOf p r c) ("if (" ++ arg ++ ") if ((" ++ buf ++ " = " ++ source ++
      ") == NULL) goto fail;") (taken p x) :=
    ((((((fills_text (by decide)).append fills_arg).append (fills_text (by decide))).append
      fills_buf).append (fills_text (by decide))).append h).append (fills_text (by decide))
  exact fill_of_toList htaken he

theorem fill_given {template action x : String} (h : Fills (holesOf p r c) action x)
    (he : template.toList = ("if (" ++ arg ++ " && " ++ buf ++ ") " ++ action ++ ";").toList) :
    Template.fill (holesOf p r c) template = .ok (given p x) := by
  have hgiven : Fills (holesOf p r c) ("if (" ++ arg ++ " && " ++ buf ++ ") " ++ action ++ ";")
      (given p x) :=
    ((((((fills_text (by decide)).append fills_arg).append (fills_text (by decide))).append
      fills_buf).append (fills_text (by decide))).append h).append (fills_text (by decide))
  exact fill_of_toList hgiven he

/-- A declaration of the local. -/
theorem fill_declared {template declared x : String} (h : Fills (holesOf p r c) declared x)
    (he : template.toList = (declared ++ buf ++ "=NULL;").toList) :
    Template.fill (holesOf p r c) template = .ok (x ++ localOf p ++ "=NULL;") :=
  fill_of_toList ((h.append fills_buf).append (fills_text (by decide))) he

/-- A call of the virtual machine that gets hold of an argument. -/
theorem fills_getCall {f g : String} (hf : Fills (holesOf p r c) f g) :
    Fills (holesOf p r c) ("(*env)->" ++ f ++ "(env, " ++ arg ++ ", NULL)") (getCall g p) :=
  ((((fills_text (by decide)).append hf).append (fills_text (by decide))).append
    fills_arg).append (fills_text (by decide))

/-- A call that gives the local of an argument back. -/
theorem fills_giveCall {f g more x : String} (hf : Fills (holesOf p r c) f g)
    (hmore : Fills (holesOf p r c) more x) :
    Fills (holesOf p r c) (f ++ "(env, " ++ arg ++ ", " ++ buf ++ more ++ ")") (giveCall g p x) :=
  (((((hf.append (fills_text (by decide))).append fills_arg).append
    (fills_text (by decide))).append fills_buf).append hmore).append (fills_text (by decide))

end

/-! ## 3. The templates of the rules -/

section

variable {p : Parameter} {c : Option StructClass} {q : Primitive}

theorem fill_arrayDecl (hq : q ∈ primitiveTypes) :
    Template.fill (holesOf p q.ruleOfArray c) q.ruleOfArray.localDecl =
      .ok ("j" ++ q.name ++ " *" ++ localOf p ++ "=NULL;") := by
  have hplain := plain_of_mem_primitiveTypes q hq
  refine fill_declared (((fills_text (by decide)).append (fills_text hplain.1)).append
    (fills_text (by decide))) ?_
  simp only [Primitive.ruleOfArray, String.toList_append, List.append_assoc]
  rfl

theorem fill_arrayPinned (q : Primitive) :
    Template.fill (holesOf p q.ruleOfArray c) q.ruleOfArray.pinnedIn =
      .ok (taken p (getCall "GetPrimitiveArrayCritical" p)) := by
  refine fill_taken (fills_getCall (fills_text (by decide))) ?_
  simp only [Primitive.ruleOfArray, String.toList_append, List.append_assoc]
  rfl

theorem fill_arrayUnpinned (q : Primitive) :
    Template.fill (holesOf p q.ruleOfArray c) q.ruleOfArray.pinnedRelease =
      .ok (given p (giveCall "(*env)->ReleasePrimitiveArrayCritical" p (", " ++ modeOf p))) := by
  refine fill_given (fills_giveCall (fills_text (by decide))
    ((fills_text (by decide)).append fills_mode)) ?_
  simp only [Primitive.ruleOfArray, String.toList_append, List.append_assoc]
  rfl

/-- The name of a primitive type stays what it is. -/
theorem fills_accessor (hq : q ∈ primitiveTypes) {r : Rule} {a b : String}
    (ha : ∀ d ∈ a.toList, d ≠ '\x7b' ∧ d ≠ '\x7d') (hb : ∀ d ∈ b.toList, d ≠ '\x7b' ∧ d ≠ '\x7d') :
    Fills (holesOf p r c) (a ++ q.accessor ++ b) (a ++ q.accessor ++ b) :=
  ((fills_text ha).append (fills_text (plain_of_mem_primitiveTypes q hq).2)).append (fills_text hb)

theorem fill_arrayBorrowed (hq : q ∈ primitiveTypes) :
    Template.fill (holesOf p q.ruleOfArray c) q.ruleOfArray.marshalIn =
      .ok (taken p (getCall ("Get" ++ q.accessor ++ "ArrayElements") p)) := by
  refine fill_taken (fills_getCall (fills_accessor hq (by decide) (by decide))) ?_
  simp only [Primitive.ruleOfArray, String.toList_append, List.append_assoc]
  rfl

theorem fill_arrayReturned (hq : q ∈ primitiveTypes) :
    Template.fill (holesOf p q.ruleOfArray c) q.ruleOfArray.release =
      .ok (given p (giveCall ("(*env)->Release" ++ q.accessor ++ "ArrayElements") p
        (", " ++ modeOf p))) := by
  refine fill_given (fills_giveCall (fills_accessor hq (by decide) (by decide))
    ((fills_text (by decide)).append fills_mode)) ?_
  simp only [Primitive.ruleOfArray, String.toList_append, List.append_assoc]
  rfl

theorem fill_textDecl : Template.fill (holesOf p stringRule c) stringRule.localDecl =
    .ok ("const char *" ++ localOf p ++ "=NULL;") :=
  fill_declared (fills_text (by decide)) rfl

theorem fill_textBorrowed : Template.fill (holesOf p stringRule c) stringRule.marshalIn =
    .ok (taken p (getCall "GetStringUTFChars" p)) :=
  fill_taken (fills_getCall (fills_text (by decide))) rfl

theorem fill_textReturned : Template.fill (holesOf p stringRule c) stringRule.release =
    .ok (given p (giveCall "(*env)->ReleaseStringUTFChars" p "")) :=
  fill_given (fills_giveCall (fills_text (by decide)) (fills_text (by decide))) rfl

theorem fill_structDescriptor : Template.fill (holesOf p structRule c) structRule.descriptor =
    .ok ("L" ++ (c.map (·.qualified)).getD "" ++ ";") :=
  fill_of_fills (((fills_text (by decide)).append fills_qualified).append (fills_text (by decide)))

theorem fill_structType : Template.fill (holesOf p structRule c) structRule.cType =
    .ok ((c.map (·.nativeName)).getD "" ++ " *") :=
  fill_of_fills (fills_native.append (fills_text (by decide)))

theorem fill_structDecl : Template.fill (holesOf p structRule c) structRule.localDecl =
    .ok ((c.map (·.nativeName)).getD "" ++ " _" ++ p.arg ++ ", *" ++ localOf p ++ "=NULL;") :=
  fill_declared (((fills_native.append (fills_text (by decide))).append fills_arg).append
    (fills_text (by decide))) rfl

theorem fill_structIn : Template.fill (holesOf p structRule c) structRule.marshalIn =
    .ok (taken p ("get" ++ (c.map (·.name)).getD "" ++ "Fields(env, " ++ p.arg ++ ", &_" ++ p.arg ++
      ")")) :=
  fill_taken (((((((fills_text (by decide)).append fills_structClass).append
    (fills_text (by decide))).append fills_arg).append (fills_text (by decide))).append
      fills_arg).append (fills_text (by decide))) rfl

theorem fill_structNoIn : Template.fill (holesOf p structRule c) structRule.noIn =
    .ok (taken p ("&_" ++ p.arg)) :=
  fill_taken ((fills_text (by decide)).append fills_arg) rfl

theorem fill_structOut : Template.fill (holesOf p structRule c) structRule.release =
    .ok (given p (giveCall ("set" ++ (c.map (·.name)).getD "" ++ "Fields") p "")) :=
  fill_given (fills_giveCall (((fills_text (by decide)).append fills_structClass).append
    (fills_text (by decide))) (fills_text (by decide))) rfl

end

/-! ## 4. The five ways -/

/-- How a parameter crosses under the standard rules. -/
inductive Crossing (structs : List StructClass) (p : Parameter) (t : ValueMapping) : Prop
  | value (localDecl : t.localDecl = "") (marshalIn : t.marshalIn = "") (release : t.release = "")
  | copied (q : Primitive) (hq : q ∈ primitiveTypes) (free : t.pinned = false)
      (localDecl : t.localDecl = "j" ++ q.name ++ " *" ++ localOf p ++ "=NULL;")
      (marshalIn : t.marshalIn = taken p (getCall ("Get" ++ q.accessor ++ "ArrayElements") p))
      (release : t.release = given p
        (giveCall ("(*env)->Release" ++ q.accessor ++ "ArrayElements") p (", " ++ modeOf p)))
  | pinned (q : Primitive) (hq : q ∈ primitiveTypes) (pinned : t.pinned = true)
      (localDecl : t.localDecl = "j" ++ q.name ++ " *" ++ localOf p ++ "=NULL;")
      (marshalIn : t.marshalIn = taken p (getCall "GetPrimitiveArrayCritical" p))
      (release : t.release = given p
        (giveCall "(*env)->ReleasePrimitiveArrayCritical" p (", " ++ modeOf p)))
  | text (free : t.pinned = false)
      (localDecl : t.localDecl = "const char *" ++ localOf p ++ "=NULL;")
      (marshalIn : t.marshalIn = taken p (getCall "GetStringUTFChars" p))
      (release : t.release = given p (giveCall "(*env)->ReleaseStringUTFChars" p ""))
  | struct (name native : String) (hname : name = "" ∨ ∃ s ∈ structs, s.name = name)
      (hnative : native = "" ∨ ∃ s ∈ structs, s.nativeName = native) (free : t.pinned = false)
      (localDecl : t.localDecl = native ++ " _" ++ p.arg ++ ", *" ++ localOf p ++ "=NULL;")
      (marshalIn : t.marshalIn = taken p ("get" ++ name ++ "Fields(env, " ++ p.arg ++ ", &_" ++ p.arg ++
        ")") ∨ t.marshalIn = taken p ("&_" ++ p.arg))
      (release : t.release = given p (giveCall ("set" ++ name ++ "Fields") p "") ∨ t.release = "")

/-- An array of structs whose elements are asked to be pinned: there is nothing to pin, and nothing is
called for it. -/
structure Unpinnable (structs : List StructClass) (p : Parameter) (t : ValueMapping) : Prop where
  kind : p.type.kind = .struct
  isArray : p.type.isArray = true
  pinned : t.pinned = true
  localDecl : ∃ native, (native = "" ∨ ∃ s ∈ structs, s.nativeName = native) ∧
    t.localDecl = native ++ " _" ++ p.arg ++ ", *" ++ localOf p ++ "=NULL;"
  marshalIn : t.marshalIn = "" ∨ t.marshalIn = taken p ("&_" ++ p.arg)
  release : t.release = ""

/-- The rules are those of the language's types and of what stands for something else. -/
theorem cases_of_mem_standardRules {r : Rule} (h : r ∈ standardRules) :
    r = voidRule ∨ (∃ q ∈ primitiveTypes, r = q.rule) ∨ (∃ q ∈ primitiveTypes, r = q.ruleOfArray) ∨
      r = stringRule ∨ r = structRule ∨ r = pointerRule "handle" ∨ r = pointerRule "callback" := by
  unfold standardRules at h
  rcases List.mem_append.1 h with h | h
  · rcases List.mem_append.1 h with h | h
    · rcases List.mem_append.1 h with h | h
      · exact .inl (List.mem_singleton.1 h)
      · obtain ⟨q, hq, rfl⟩ := List.mem_map.1 h
        exact .inr (.inl ⟨q, hq, rfl⟩)
    · obtain ⟨q, hq, rfl⟩ := List.mem_map.1 h
      exact .inr (.inr (.inl ⟨q, hq, rfl⟩))
  · simp only [List.mem_cons, List.not_mem_nil, or_false] at h
    exact .inr (.inr (.inr h))

theorem of_ruleFor? {rules : List Rule} {key : String} {r : Rule} (h : ruleFor? rules key = some r) :
    r ∈ rules ∧ r.key = key :=
  ⟨List.mem_reverse.1 (List.mem_of_find?_eq_some h), by
    have hkey := List.find?_some (p := fun r : Rule => r.key == key) h
    exact beq_iff_eq.1 hkey⟩

/-- The key of an array ends with a bracket, unless the type stands for something else. -/
theorem key_of_isArray {t : HostType} (h : t.isArray = true) :
    (t.kind = .struct ∧ t.key = "struct") ∨ t.key = "handle" ∨ t.key = "callback" ∨
      t.key.toList.getLast? = some ']' := by
  have hname : t.toString.toList.getLast? = some ']' := by
    obtain ⟨n, hn⟩ : ∃ n, t.dimensions = n + 1 := by
      refine Nat.exists_eq_succ_of_ne_zero fun h0 => ?_
      rw [HostType.isArray, h0] at h
      cases h
    rw [HostType.toString, String.toList_append, Text.toList_copies, hn, List.replicate_succ',
      List.flatten_append]
    simp
  unfold HostType.key
  cases hk : t.kind
  all_goals first
    | exact .inl ⟨rfl, rfl⟩
    | exact .inr (.inl rfl)
    | exact .inr (.inr (.inl rfl))
    | exact .inr (.inr (.inr hname))

theorem key_of_struct {t : HostType} (h : t.kind = .struct) : t.key = "struct" := by
  rw [HostType.key, h]

section

variable {rules : List Rule} {structs : List StructClass} {m : NativeMethod} {p : Parameter}
  {t : ValueMapping} {r : Rule} {c : Option StructClass}

theorem Mapped.pinned (h : Mapped rules structs m p t r c) : t.pinned = isPinned p m := by
  rw [ValueMapping.pinned, h.discipline, disciplineOf]
  cases isPinned p m with
  | true => rfl
  | false =>
    rw [if_neg Bool.false_ne_true]
    split
    · rfl
    · rfl

/-- A rule without texts leaves a parameter as it is. -/
theorem crossing_value (h : Mapped rules structs m p t r c) (hdecl : r.localDecl = "")
    (hin : r.marshalIn = "") (hout : r.release = "") (hpin : r.pinnedIn = "")
    (hunpin : r.pinnedRelease = "") (hno : r.noIn = "") : Crossing structs p t := by
  have htemplates : marshalTemplates p m r = ("", "") := by
    unfold marshalTemplates
    rw [hin, hout, hpin, hunpin, hno]
    simp
  have hlocal := h.localDecl
  have htake := h.marshalIn
  have hgive := h.release
  rw [htemplates, fill_empty] at htake hgive
  rw [hdecl, fill_empty] at hlocal
  exact .value (Except.ok.inj hlocal).symm (Except.ok.inj htake).symm (Except.ok.inj hgive).symm

theorem crossing_array {q : Primitive} (hq : q ∈ primitiveTypes)
    (h : Mapped rules structs m p t q.ruleOfArray c) (hkey : q.ruleOfArray.key = p.type.key) :
    Crossing structs p t := by
  have hstruct : p.type.kind ≠ .struct := by
    intro hs
    have hne : ∀ q ∈ primitiveTypes, q.ruleOfArray.key ≠ "struct" := by decide
    exact hne q hq (hkey.trans (key_of_struct hs))
  have htemplates : marshalTemplates p m q.ruleOfArray =
      if isPinned p m then (q.ruleOfArray.pinnedIn, q.ruleOfArray.pinnedRelease)
      else (q.ruleOfArray.marshalIn, q.ruleOfArray.release) := by
    have hno : q.ruleOfArray.noIn.isEmpty = true := rfl
    unfold marshalTemplates
    rw [hno]
    simp [hstruct]
  have hlocal := Except.ok.inj (h.localDecl.symm.trans (fill_arrayDecl hq))
  have htake := h.marshalIn
  have hgive := h.release
  have hpinned := h.pinned
  rw [htemplates] at htake hgive
  cases hp : isPinned p m with
  | true =>
    rw [hp, if_pos rfl] at htake hgive
    exact .pinned q hq (hpinned.trans hp) hlocal (Except.ok.inj (htake.symm.trans (fill_arrayPinned q)))
      (Except.ok.inj (hgive.symm.trans (fill_arrayUnpinned q)))
  | false =>
    rw [hp, if_neg Bool.false_ne_true] at htake hgive
    exact .copied q hq (hpinned.trans hp) hlocal
      (Except.ok.inj (htake.symm.trans (fill_arrayBorrowed hq)))
      (Except.ok.inj (hgive.symm.trans (fill_arrayReturned hq)))

theorem crossing_text (h : Mapped rules structs m p t stringRule c)
    (hkey : stringRule.key = p.type.key) : Crossing structs p t := by
  have hstruct : p.type.kind ≠ .struct := by
    intro hs
    exact absurd (hkey.trans (key_of_struct hs)) (by decide)
  have hp : isPinned p m = false := by
    refine Bool.eq_false_iff.2 fun hp => ?_
    unfold isPinned at hp
    rw [Bool.and_eq_true] at hp
    rcases key_of_isArray hp.1 with ⟨hs, -⟩ | hk | hk | hk
    · exact hstruct hs
    · exact absurd (hkey.trans hk) (by decide)
    · exact absurd (hkey.trans hk) (by decide)
    · rw [← hkey] at hk
      cases hk
  have htemplates : marshalTemplates p m stringRule = (stringRule.marshalIn, stringRule.release) := by
    have hno : stringRule.noIn.isEmpty = true := rfl
    unfold marshalTemplates
    rw [hno, hp]
    simp [hstruct]
  have htake := h.marshalIn
  have hgive := h.release
  rw [htemplates] at htake hgive
  exact .text (h.pinned.trans hp) (Except.ok.inj (h.localDecl.symm.trans fill_textDecl))
    (Except.ok.inj (htake.symm.trans fill_textBorrowed))
    (Except.ok.inj (hgive.symm.trans fill_textReturned))

/-- What a name of a struct is filled with. -/
theorem Mapped.structName (h : Mapped rules structs m p t r c) (f : StructClass → String) :
    (c.map f).getD "" = "" ∨ ∃ s ∈ structs, f s = (c.map f).getD "" := by
  cases hc : c with
  | none => exact .inl rfl
  | some s => exact .inr ⟨s, h.struct s hc, rfl⟩

theorem crossing_struct (h : Mapped rules structs m p t structRule c) (hp : isPinned p m = false) :
    Crossing structs p t := by
  refine .struct _ _ (h.structName (·.name)) (h.structName (·.nativeName)) (h.pinned.trans hp)
    (Except.ok.inj (h.localDecl.symm.trans fill_structDecl)) ?_ ?_
  · have htake := h.marshalIn
    unfold marshalTemplates at htake
    rw [hp, if_neg Bool.false_ne_true] at htake
    dsimp only at htake
    split at htake
    · exact .inr (Except.ok.inj (htake.symm.trans fill_structNoIn))
    · exact .inl (Except.ok.inj (htake.symm.trans fill_structIn))
  · have hgive := h.release
    unfold marshalTemplates at hgive
    rw [hp, if_neg Bool.false_ne_true] at hgive
    dsimp only at hgive
    split at hgive
    · exact .inr (Except.ok.inj (hgive.symm.trans fill_empty))
    · exact .inl (Except.ok.inj (hgive.symm.trans fill_structOut))

/-- What pins structs and gives them back is empty. -/
theorem unpinnable_struct (h : Mapped rules structs m p t structRule c)
    (hkind : p.type.kind = .struct) (hp : isPinned p m = true) : Unpinnable structs p t := by
  have harray : p.type.isArray = true := by
    unfold isPinned at hp
    exact (Bool.and_eq_true _ _ ▸ hp).1
  refine ⟨hkind, harray, h.pinned.trans hp, ⟨_, h.structName (·.nativeName),
    Except.ok.inj (h.localDecl.symm.trans fill_structDecl)⟩, ?_, ?_⟩
  · have htake := h.marshalIn
    unfold marshalTemplates at htake
    rw [hp, if_pos rfl] at htake
    dsimp only at htake
    split at htake
    · exact .inr (Except.ok.inj (htake.symm.trans fill_structNoIn))
    · exact .inl (Except.ok.inj (htake.symm.trans fill_empty))
  · have hgive := h.release
    unfold marshalTemplates at hgive
    rw [hp, if_pos rfl] at hgive
    dsimp only at hgive
    split at hgive
    · exact Except.ok.inj (hgive.symm.trans fill_empty)
    · exact Except.ok.inj (hgive.symm.trans fill_empty)

/-- **Under the standard rules a parameter crosses in one of five ways**, unless it is an array of
structs that cannot be pinned. -/
theorem crossing_or_unpinnable (h : Mapped standardRules structs m p t r c) :
    Crossing structs p t ∨ Unpinnable structs p t := by
  obtain ⟨hr, hkey⟩ := of_ruleFor? h.rule
  rcases cases_of_mem_standardRules hr with
    rfl | ⟨q, hq, rfl⟩ | ⟨q, hq, rfl⟩ | rfl | rfl | rfl | rfl
  · exact .inl (crossing_value h rfl rfl rfl rfl rfl rfl)
  · exact .inl (crossing_value h rfl rfl rfl rfl rfl rfl)
  · exact .inl (crossing_array hq h hkey)
  · exact .inl (crossing_text h hkey)
  · cases hp : isPinned p m with
    | false => exact .inl (crossing_struct h hp)
    | true =>
      refine .inr (unpinnable_struct h ?_ hp)
      unfold isPinned at hp
      rw [Bool.and_eq_true] at hp
      rcases key_of_isArray hp.1 with ⟨hk, -⟩ | hk | hk | hk
      · exact hk
      · exact absurd (hkey.trans hk) (by decide)
      · exact absurd (hkey.trans hk) (by decide)
      · rw [← hkey] at hk
        cases hk
  · exact .inl (crossing_value h rfl rfl rfl rfl rfl rfl)
  · exact .inl (crossing_value h rfl rfl rfl rfl rfl rfl)

theorem crossing_of_mapped (h : Mapped standardRules structs m p t r c)
    (hs : p.type.kind = .struct → p.type.isArray = false) : Crossing structs p t := by
  refine (crossing_or_unpinnable h).resolve_right fun hu => ?_
  have harray := hu.isArray
  rw [hs hu.kind] at harray
  cases harray

/-! ## 5. Casts, C types and results -/

/-- The template of an argument is filled with a cast and what it is asked for or put in by a rule. -/
theorem fill_callArg (hr : r ∈ standardRules) : ∃ a,
    (a = p.arg ∨ a = localOf p ∨ a = "(intptr_t)" ++ p.arg) ∧
      Template.fill (holesOf p r c) r.callArg = .ok (castOf p r ++ a) := by
  have filled : ∀ x a, (a = p.arg ∨ a = localOf p ∨ a = "(intptr_t)" ++ p.arg) →
      Fills (holesOf p r c) x a → r.callArg = cast ++ x → ∃ a,
        (a = p.arg ∨ a = localOf p ∨ a = "(intptr_t)" ++ p.arg) ∧
          Template.fill (holesOf p r c) r.callArg = .ok (castOf p r ++ a) :=
    fun x a ha hx he => ⟨a, ha, he ▸ fill_of_fills (fills_cast.append hx)⟩
  have hplain := filled arg _ (.inl rfl) fills_arg
  have hlocal := filled buf _ (.inr (.inl rfl)) fills_buf
  have hpointer := filled ("(intptr_t)" ++ arg) _ (.inr (.inr rfl))
    ((fills_text (by decide)).append fills_arg)
  rcases cases_of_mem_standardRules hr with
    rfl | ⟨q, hq, rfl⟩ | ⟨q, hq, rfl⟩ | rfl | rfl | rfl | rfl
  · exact hplain rfl
  · exact hplain rfl
  · exact hlocal rfl
  · exact hlocal rfl
  · exact hlocal rfl
  · exact hpointer rfl
  · exact hpointer rfl

theorem callArg_of_mapped (h : Mapped standardRules structs m p t r c) :
    ∃ k a, (k = "" ∨ k = "(void *)" ∨ p.cast = some k) ∧
      (a = p.arg ∨ a = localOf p ∨ a = "(intptr_t)" ++ p.arg) ∧ t.callArg = k ++ a := by
  obtain ⟨hr, -⟩ := of_ruleFor? h.rule
  have hcast : castOf p r = "" ∨ castOf p r = "(void *)" ∨ p.cast = some (castOf p r) := by
    unfold castOf
    cases hc : p.cast.filter (!·.isEmpty) with
    | none =>
      have husual : ∀ r ∈ standardRules, usualCast r = "" ∨ usualCast r = "(void *)" := by
        decide +kernel
      exact (husual r hr).imp_right .inl
    | some k => exact .inr (.inr (Option.filter_eq_some_iff.1 hc).1)
  obtain ⟨a, ha, hfill⟩ := fill_callArg (p := p) (c := c) hr
  exact ⟨castOf p r, a, hcast, ha, Except.ok.inj (h.callArg.symm.trans hfill)⟩

/-- The C types that the rules write themselves. -/
def ownTypes : List String :=
  ["void", "const char *", "void *"] ++ primitiveTypes.map (fun q => "j" ++ q.name)
    ++ primitiveTypes.map (fun q => "j" ++ q.name ++ " *")

theorem cType_of_mapped (h : Mapped standardRules structs m p t r c) :
    castType? p.cast = some t.cType ∨ t.cType ∈ ownTypes ∨
      ∃ native, (native = "" ∨ ∃ s ∈ structs, s.nativeName = native) ∧ t.cType = native ++ " *" := by
  refine h.cType.imp_right fun hfill => ?_
  obtain ⟨hr, -⟩ := of_ruleFor? h.rule
  have own : r.cType ∈ ownTypes → t.cType ∈ ownTypes := by
    intro hmem
    have hplain : ∀ u ∈ ownTypes, ∀ d ∈ u.toList, d ≠ '\x7b' ∧ d ≠ '\x7d' := by decide +kernel
    rw [fill_of_fills (fills_text (hplain _ hmem))] at hfill
    rwa [← Except.ok.inj hfill]
  by_cases hs : r = structRule
  · subst hs
    rw [fill_structType] at hfill
    refine .inr ⟨_, ?_, (Except.ok.inj hfill).symm⟩
    cases hc : c with
    | none => exact .inl rfl
    | some s => exact .inr ⟨s, h.struct s hc, rfl⟩
  · have hown : ∀ r ∈ standardRules, r = structRule ∨ r.cType ∈ ownTypes := by decide +kernel
    exact .inl (own ((hown r hr).resolve_left hs))

end

/-- What stands before and behind the call in the text of a result. -/
def resultFrames : List (String × String) :=
  primitiveTypes.map (fun q => ("(j" ++ q.name ++ ")", ""))
    ++ [("(*env)->NewStringUTF(env, (const char *)", ")"), ("(jlong)(intptr_t)", "")]

/-- The mapping of a result under the standard rules. -/
structure ResultMapped (m : NativeMethod) (t : ValueMapping) : Prop where
  semantic : t.semantic = m.returnType
  rule : ∃ r, ruleFor? standardRules m.returnType.key = some r ∧ r.returnable = true ∧
    t.abiType = r.abiType ∧ t.descriptor = r.descriptor
  abiType : t.abiType = "jstring" ∨ t.abiType ∈ ownTypes
  marshalOut : t.marshalOut = "" ∨
    ∃ f ∈ resultFrames, t.marshalOut = f.1 ++ value ++ f.2
  cType : ∃ c, (castType? m.cast = some c ∨ c ∈ ownTypes) ∧ (t.cType = c ∨ t.cType = "const " ++ c)

theorem resultMapped {e : Mapper} (he : e.rules = standardRules) {m : NativeMethod}
    {t : ValueMapping} (h : e.resultMapping m = .ok t) : ResultMapped m t := by
  unfold Mapper.resultMapping at h
  obtain ⟨r, hr, h⟩ := ok_of_bind h
  dsimp only at h
  have hfound := ruleFor?_of_rule hr
  rw [he] at hfound
  obtain ⟨hmem, -⟩ := of_ruleFor? hfound
  split at h
  · obtain ⟨_, hthrow, -⟩ := ok_of_bind h
    exact (not_ok_throw hthrow).elim
  rename_i hreturnable
  have hrule : ∀ r ∈ standardRules, ¬ (!r.returnable) = true →
      (r.abiType = "jstring" ∨ r.abiType ∈ ownTypes) ∧ r.cType ∈ ownTypes ∧
      (resultTemplate r = "" ∨ ∃ f ∈ resultFrames, resultTemplate r = f.1 ++ value ++ f.2) := by
    decide +kernel
  obtain ⟨habi, hown, hout⟩ := hrule r hmem hreturnable
  obtain rfl := Except.ok.inj h
  rw [Bool.not_eq_true', Bool.not_eq_false] at hreturnable
  refine ⟨rfl, ⟨r, hfound, hreturnable, rfl, rfl⟩, habi, hout, (castType? m.cast).getD r.cType, ?_, ?_⟩
  · cases hc : castType? m.cast with
    | none => exact .inr hown
    | some c => exact .inl rfl
  · dsimp only
    split
    · exact .inr rfl
    · exact .inl rfl

/-- What is known of the mapping of a field: its rule, and what comes from the rule. -/
structure FieldMapped (e : Mapper) (f : StructMember) (t : ValueMapping) (r : Rule) : Prop where
  rule : ruleFor? e.rules f.type.key = some r
  abiType : t.abiType = r.abiType
  cType : t.cType = (castType? f.cast).getD r.cType
  fieldAccessor : t.fieldAccessor = r.fieldAccessor
  size : t.size = (e.sizeOf r).1
  alignment : t.alignment = (e.sizeOf r).2

theorem exists_fieldMapped {e : Mapper} {f : StructMember} {t : ValueMapping} (h : e.fieldMapping f = .ok t) :
    ∃ r, FieldMapped e f t r := by
  unfold Mapper.fieldMapping at h
  obtain ⟨r, hr, h⟩ := ok_of_bind h
  dsimp only at h
  split at h
  · obtain ⟨_, hthrow, -⟩ := ok_of_bind h
    exact (not_ok_throw hthrow).elim
  · obtain rfl := Except.ok.inj h
    exact ⟨r, ruleFor?_of_rule hr, rfl, rfl, rfl, rfl, rfl⟩

/-! ## 6. Methods -/

/-- What is known of the mapping of a method: it is put together from the mappings of the parameters and of the
result, and nothing in it calls back while arrays are pinned. -/
structure CallMapped (e : Mapper) (structs : List StructClass) (m : NativeMethod) (call : CallMapping) : Prop where
  method : call.method = m
  parameters : List.Forall₂ (fun p t => e.paramMapping structs m p = .ok t) m.parameters call.parameters
  result : e.resultMapping m = .ok call.result
  callbacks : callbacksWhilePinned m = []
  runtime : call.pins = true → Text.Free "(*env)->".toList call.result.marshalOut.toList

theorem callMapped {e : Mapper} {structs : List StructClass} {m : NativeMethod} {call : CallMapping}
    (h : e.callMapping structs m = .ok call) : CallMapped e structs m call := by
  unfold Mapper.callMapping at h
  dsimp only at h
  split at h
  · obtain ⟨_, hthrow, -⟩ := ok_of_bind h
    exact (not_ok_throw hthrow).elim
  rename_i hcallbacks
  obtain ⟨parameters, hparameters, h⟩ := ok_of_bind h
  obtain ⟨result, hresult, h⟩ := ok_of_bind h
  split at h
  · obtain ⟨_, hthrow, -⟩ := ok_of_bind h
    exact (not_ok_throw hthrow).elim
  rename_i hruntime
  obtain rfl := Except.ok.inj h
  refine ⟨rfl, forall₂_of_mapM hparameters, hresult, ?_, fun hpins hp => hruntime ?_⟩
  · rw [Bool.not_eq_true', Bool.not_eq_false] at hcallbacks
    exact List.isEmpty_iff.1 hcallbacks
  · rw [Bool.and_eq_true]
    exact ⟨hpins, Text.occursIn_iff.2 hp⟩

/-- The mapping of a method under the standard rules. -/
structure MethodMapped (structs : List StructClass) (m : NativeMethod) (call : CallMapping) : Prop where
  method : call.method = m
  parameters : List.Forall₂ (fun p t => ∃ r c, Mapped standardRules structs m p t r c) m.parameters
    call.parameters
  result : ResultMapped m call.result
  callbacks : callbacksWhilePinned m = []
  runtime : call.pins = true → Text.Free "(*env)->".toList call.result.marshalOut.toList

theorem methodMapped {e : Mapper} (he : e.rules = standardRules) {structs : List StructClass}
    {m : NativeMethod} {call : CallMapping} (h : e.callMapping structs m = .ok call) :
    MethodMapped structs m call := by
  have hcall := callMapped h
  refine ⟨hcall.method, hcall.parameters.imp fun p t ht => ?_, resultMapped he hcall.result, hcall.callbacks,
    hcall.runtime⟩
  obtain ⟨r, c, hm⟩ := exists_mapped ht
  rw [he] at hm
  exact ⟨r, c, hm⟩

section

variable {structs : List StructClass} {m : NativeMethod} {call : CallMapping}

/-- Mappings go with the parameters they are of. -/
theorem MethodMapped.of_mem_mapped (h : MethodMapped structs m call) {x : Parameter × ValueMapping}
    (hx : x ∈ call.mapped) :
    x.1 ∈ m.parameters ∧ ∃ r c, Mapped standardRules structs m x.1 x.2 r c := by
  unfold CallMapping.mapped at hx
  rw [h.method] at hx
  exact ⟨(List.of_mem_zip hx).1, (List.forall₂_iff_zip.1 h.parameters).2 hx⟩

/-- Every parameter has its mapping. -/
theorem MethodMapped.map_fst_mapped (h : MethodMapped structs m call) :
    call.mapped.map Prod.fst = m.parameters := by
  rw [CallMapping.mapped, h.method, List.map_fst_zip (Nat.le_of_eq h.parameters.length_eq)]

end

end NativeGlue.Mapping
