import NativeGlue.Proofs.Code.Lines
import NativeGlue.Proofs.Code.StructNames
import NativeGlue.Proofs.Mapping.Casts
import NativeGlue.Proofs.Mapping.Layout
import NativeGlue.Proofs.Source.Spelling

/-!
# Expressions with casts

Casts are spliced into expressions: into the type of a pointer, in front of arguments, around a result, into the
places of fields. A type from a cast always stands between parentheses there, so every line of a call
(`leads_of_mem_linesOf_call`) and of the functions of a struct class (`leads_of_mem_fieldCode`) is balanced if the
casts are, apart from the accessors in it, which are written as they are. Only the layout comment shows types
without parentheses around them.
-/

namespace NativeGlue.Code

open NativeGlue.Mapping NativeGlue.Text NativeGlue.Java

/-! ## 1. Words, numbers and indentation -/

theorem flat_word {s : String} (h : IsWord s) : Flat s.toList := flat_of_forall (by decide) (by decide) h

theorem flat_int (i : Int) : Flat (toString i).toList := by
  intro c hc
  rcases eq_or_isDigit_of_mem_toString hc with rfl | hdigit
  · decide
  · have hflat : Flat [c] := flat_of_forall rfl rfl (List.forall_mem_singleton.2 hdigit)
    exact hflat c (List.mem_singleton_self c)

theorem flat_arg (p : Parameter) : Flat p.arg.toList := flat_append.2 ⟨by decide, flat_int p.index⟩

theorem flat_localOf (p : Parameter) : Flat (localOf p).toList := flat_append.2 ⟨by decide, flat_arg p⟩

theorem flat_copies {c : Char} (hopen : c ≠ '(') (hclose : c ≠ ')') {s : String} (hs : s.toList = [c]) (n : Nat) :
    Flat (copies n s).toList := by
  intro x hx
  rw [toList_copies_char hs] at hx
  rw [List.eq_of_mem_replicate hx]
  exact ⟨hopen, hclose⟩

section

variable {outside : List String}

/-- Indentation changes nothing. -/
theorem leads_indented {t : String} (h : Leads outside 0 0 t) (d : Nat) :
    Leads outside 0 0 (Line.indented d t).text := by
  unfold Line.text
  dsimp only
  split
  · exact leads_of_depth rfl
  · exact (leads_flat (flat_copies (by decide) (by decide) rfl d) 0).append h

/-! ## 2. Calls -/

/-- The texts that a call is put together from: types that may stand between parentheses, and arguments and a function
that may stand anywhere. -/
structure LeadingCall (outside : List String) (c : CallMapping) : Prop where
  accessor : c.method.accessor ∈ outside
  types : ∀ t ∈ c.parameters, Leads outside 1 1 t.cType
  args : ∀ t ∈ c.parameters, Leads outside 0 0 t.callArg
  resultType : Leads outside 1 1 c.result.cType
  marshalOut : c.result.marshalOut = "" ∨ ∃ f ∈ resultFrames, c.result.marshalOut = f.1 ++ value ++ f.2

theorem leadingCall_of_callMapping {e : Mapper} (he : e.rules = standardRules) {structs : List StructClass}
    {m : NativeMethod} {c : CallMapping} (h : e.callMapping structs m = .ok c) (hm : ∀ k ∈ m.cast, Text.Balanced k)
    (hp : ∀ p ∈ m.parameters, ∀ k ∈ p.cast, Text.Balanced k) :
    LeadingCall (m.accessor :: structs.map (·.nativeName)) c := by
  have hcall := callMapped h
  have hmapped := methodMapped he h
  refine ⟨?_, fun t ht => ?_, fun t ht => ?_, ?_, hmapped.result.marshalOut⟩
  · rw [hcall.method]
    exact List.mem_cons_self
  · obtain ⟨p, hpm, hpt⟩ := exists_of_mem_forall₂ hcall.parameters ht
    exact (typed_of_paramMapping he hpt (hp p hpm)).inner.mono (List.subset_cons_self _ _)
  · obtain ⟨p, hpm, r, s, hpt⟩ := exists_of_mem_forall₂ hmapped.parameters ht
    obtain ⟨k, a, hk, ha, harg⟩ := callArg_of_mapped hpt
    rw [harg]
    refine Leads.append ?_ ?_ (e := 0)
    · rcases hk with rfl | rfl | hk
      · exact leads_flat (by decide) 0
      · exact leads_of_depth (by decide)
      · exact (hp p hpm k hk).leads _ 0
    · rcases ha with rfl | rfl | rfl
      · exact leads_flat (flat_arg p) 0
      · exact leads_flat (flat_localOf p) 0
      · exact (leads_of_depth (e := 0) (by decide)).append (leads_flat (flat_arg p) 0)
  · exact (typed_of_resultMapping he hcall.result hm).inner.mono (List.nil_subset _)

section

variable {c : CallMapping} (h : LeadingCall outside c)

include h

theorem leads_assignment {function : String} (hf : Leads outside 0 0 function) :
    Leads outside 0 0 (assignment c function) := by
  have hcall : Leads outside 0 0 (function ++ "(" ++ ", ".intercalate (c.parameters.map (·.callArg)) ++ ")") := by
    have hargs : Leads outside 1 1 (", ".intercalate (c.parameters.map (·.callArg))) := by
      refine Leads.intercalate (leads_flat (by decide) 1) fun x hx => ?_
      obtain ⟨t, ht, rfl⟩ := List.mem_map.1 hx
      exact (h.args t ht).add 1
    exact ((hf.text (by decide)).append hargs).text (by decide)
  unfold assignment
  dsimp only
  split
  · exact hcall.text (by decide)
  · have hkept : ∀ k, Leads outside 0 0 k → Leads outside 0 0 ("rc = " ++ replace c.result.marshalOut value (k ++
        (function ++ "(" ++ ", ".intercalate (c.parameters.map (·.callArg)) ++ ")")) ++ ";") := by
      intro k hk
      refine Leads.within ?_ (by decide) (by decide) (e := 0) (f := 0)
      rcases h.marshalOut with hout | ⟨f, hf, hout⟩
      · rw [hout]
        exact leads_of_depth rfl
      · -- The call stands in the parentheses that the frame has opened.
        have hframes : ∀ f ∈ resultFrames, '\x7b' ∉ f.1.toList ∧ '\x7b' ∉ f.2.toList ∧
            (depthBehind 0 f.1.toList).bind (depthBehind · f.2.toList) = some 0 := by decide
        obtain ⟨hleft, hright, hdepth⟩ := hframes f hf
        obtain ⟨d, hd, hback⟩ := Option.bind_eq_some_iff.1 hdepth
        have hinner := (hk.append hcall).add d
        rw [Nat.zero_add] at hinner
        rw [hout, replace_single rfl hleft hright]
        exact hinner.within hd hback
    cases c.method.cast with
    | none => exact hkept "" (leads_of_depth rfl)
    | some k =>
      dsimp only
      split
      · exact hkept "" (leads_of_depth rfl)
      · exact hkept _ (h.resultType.within (by decide) (by decide))

/-- A function behind a pointer, with the type of the pointer. -/
theorem leads_pointer : Leads outside 0 0 s!"(({pointerAbi c})fp)" := by
  have hparams : Leads outside 2 2 (if (", ".intercalate (c.parameters.map (·.cType))).isEmpty then "void"
      else ", ".intercalate (c.parameters.map (·.cType))) := by
    split
    · exact leads_flat (by decide) 2
    · refine (Leads.intercalate (leads_flat (by decide) 1) fun x hx => ?_).add 1
      obtain ⟨t, ht, rfl⟩ := List.mem_map.1 hx
      exact h.types t ht
  have habi : Leads outside 2 2 (pointerAbi c) :=
    (((h.resultType.add 1).text (by decide)).append (hparams.add 1)).text (by decide)
  exact habi.within (by decide) (by decide)

/-- **The lines of a call are balanced** apart from the texts left out. -/
theorem leads_of_mem_linesOf_call : ∀ l ∈ linesOf (.call c), Leads outside 0 0 l := by
  have haccessor := leads_outside h.accessor 0
  refine forall_mem_linesOf_call (fun t ht d => ?_) (fun d => ?_)
    (fun d => leads_indented (leads_assignment h (leads_pointer h)) d)
    fun _ d => leads_indented (leads_assignment h haccessor) d
  · have hbalanced : ∀ t ∈ ["\x7b", "if (fp) \x7b", "\x7d"], Text.Balanced t := by decide
    exact leads_indented ((hbalanced t ht).leads _ 0) d
  · exact leads_indented ((haccessor.add 1).within (by decide) (by decide)) d

end

/-! ## 3. Functions of struct classes -/

/-- A function between the preprocessor lines that let it be left out. -/
def guardedText (s : StructClass) (name : String) (f : CFunction) : List String :=
  s!"#ifndef NO_{name}" :: f.definition s ++ ["#endif"]

/-- The accessors of a field. -/
def accessorsText (s : StructClass) (g : GeneratedField) : List String :=
  guardedText s (getterName s g.field) (getterOf s g) ++
    if g.settable then guardedText s (setterName s g.field) (setterOf s g) else []

section

variable (s : StructClass) (gs : List GeneratedField)

/-- The block of a function, once it is opened. -/
def opened (head : String) : IndentedText := (IndentedText.line {} head).openBlock "\x7b" "\x7d"

theorem code_function {f : CFunction} {b : IndentedText}
    (h : Adds 1 (opened f.head) b (f.body.map fun t => (Line.indented 1 (t.text s)).text)) :
    b.closeBlock.code = f.definition s := by
  have hhead := Adds.line (d := 0) (b := {}) rfl f.head
  have hall := (hhead.trans (Adds.block hhead.depth h)).code
  simpa [IndentedText.code, CFunction.definition, text_indented_zero] using hall

/-- The cache is filled, and then there is a line for each field. -/
theorem adds_copies (head : String) (write : IndentedText → GeneratedField → IndentedText)
    (step : GeneratedField → CopyStep) (hwrite : ∀ b g, write b g = b.line ((step g).text s)) :
    Adds 1 (opened head) (gs.foldl (underCondition write) ((opened head).line (ensureCached s)))
      ((.fixed (ensureCached s) :: gs.map step).map fun t => (Line.indented 1 (t.text s)).text) := by
  have hensured := Adds.line (d := 1) (b := opened head) rfl (ensureCached s)
  have hwritten : ∀ g b, b.depth = 1 → Adds 1 b (write b g) [(Line.indented 1 ((step g).text s)).text] :=
    fun g b hb => hwrite b g ▸ Adds.line hb ((step g).text s)
  have hfields := Adds.fields hwritten gs hensured.depth
  rw [← List.map_eq_flatMap] at hfields
  rw [List.map_cons, List.map_map]
  exact hensured.trans hfields

theorem code_getFunction : (getFunction s gs).code = (readFunction s gs).definition s := by
  have hcopied := adds_copies s gs (getHead s) (readField s) .read fun _ _ => rfl
  have hall := hcopied.trans (Adds.line hcopied.depth "return lpStruct;")
  refine code_function s (f := readFunction s gs) ?_
  rw [readFunction, List.map_append]
  exact hall

theorem code_setFunction : (setFunction s gs).code = (writeFunction s gs).definition s :=
  code_function s (adds_copies s (gs.filter (·.settable)) (setHead s) (writeField s) .write fun _ _ => rfl)

theorem adds_guarded (name head line : String) {b : IndentedText} (hb : b.depth = 0) :
    Adds 0 b
      ((((((b.line s!"#ifndef NO_{name}").line head).openBlock "\x7b" "\x7d").line line).closeBlock).line "#endif")
      (guardedText s name ⟨head, [.fixed line]⟩) := by
  have hguard := Adds.line hb s!"#ifndef NO_{name}"
  have hhead := hguard.trans (Adds.line hguard.depth head)
  have hdeep : (((b.line s!"#ifndef NO_{name}").line head).openBlock "\x7b" "\x7d").depth = 1 :=
    congrArg (· + 1) hb
  have hbody := hhead.trans (Adds.block hhead.depth (Adds.line hdeep line))
  have hall := hbody.trans (Adds.line hbody.depth "#endif")
  simpa [guardedText, CFunction.definition, CopyStep.text, text_indented_zero] using hall

theorem adds_accessors (g : GeneratedField) {b : IndentedText} (hb : b.depth = 0) :
    Adds 0 b (accessors s b g) (accessorsText s g) := by
  have hget := adds_guarded s (getterName s g.field) (getterOf s g).head
    ("return " ++ toAbi g.mapping ("*" ++ addressOf s g) ++ ";") hb
  unfold accessors accessorsText
  dsimp only
  split
  · rename_i hset
    rw [if_neg (by simpa using hset), List.append_nil]
    exact hget
  · rename_i hset
    rw [if_pos (by simpa using hset)]
    exact hget.trans (adds_guarded s _ _ _ hget.depth)

theorem code_accessorFunctions (g : GeneratedField) : (accessorFunctions s (g :: gs)).code =
    accessorsText s g ++ gs.flatMap fun g => "" :: accessorsText s g := by
  have hfirst := Adds.underCondition (fun b hb => adds_accessors s g hb) (b := {}) rfl
  have hspaced : ∀ g b, b.depth = 0 → Adds 0 b (underCondition (accessors s) (b.line "") g)
      ("" :: accessorsText s g) := fun g b hb =>
    (Adds.line hb "").trans (Adds.underCondition (fun b hb => adds_accessors s g hb) hb)
  exact (hfirst.trans (Adds.foldl hspaced gs hfirst.depth)).code

end

/-- The code of a struct class that is made from the mappings of its fields. -/
def fieldCode (s : StructClass) (gs : List GeneratedField) : List String :=
  (declarations s gs).code ++ (getFunction s gs).code ++ (setFunction s gs).code ++ (accessorFunctions s gs).code

/-- The texts that the code of a field is put together from. -/
structure LeadingField (outside : List String) (g : GeneratedField) : Prop where
  name : Flat g.field.name.toList
  accessor : g.field.accessor ∈ outside
  cType : Leads outside 1 1 g.mapping.cType
  abiType : Flat g.mapping.abiType.toList
  fieldAccessor : Flat g.mapping.fieldAccessor.toList

theorem leadingField_of_generatedFields {e : Mapper} (he : e.rules = standardRules)
    {defines : List (String × String)} {s : StructClass} {gs : List GeneratedField}
    (h : generatedFields e defines s = .ok gs) (hs : ∀ f ∈ s.fields, ∀ k ∈ f.cast, Text.Balanced k)
    (hnames : ∀ f ∈ s.fields, IsWord f.name) :
    ∀ g ∈ gs, LeadingField (s.nativeName :: s.fields.map (·.accessor)) g := by
  intro g hg
  obtain ⟨f, hf, hfg⟩ := exists_of_mem_forall₂ (forall₂_of_mapM h) hg
  have hf := List.mem_of_mem_filter hf
  obtain ⟨mapping, hmapping, hfg⟩ := ok_of_bind hfg
  obtain rfl := Except.ok.inj hfg
  obtain ⟨r, hr⟩ := exists_fieldMapped hmapping
  have hfound := hr.rule
  rw [he] at hfound
  have hrules : ∀ r ∈ standardRules, Flat r.abiType.toList ∧ Flat r.fieldAccessor.toList := by decide +kernel
  obtain ⟨habi, haccessor⟩ := hrules r (of_ruleFor? hfound).1
  exact ⟨flat_word (hnames f hf), List.mem_cons_of_mem _ (List.mem_map_of_mem hf),
    (typed_of_fieldMapping he hmapping (hs f hf)).inner.mono (List.nil_subset _),
    hr.abiType ▸ habi, hr.fieldAccessor ▸ haccessor⟩

/-- The head and the statements of a function are balanced apart from the texts left out. -/
structure LeadingFunction (outside : List String) (s : StructClass) (f : CFunction) : Prop where
  head : Leads outside 0 0 f.head
  body : ∀ t ∈ f.body, Leads outside 0 0 (t.text s)

theorem LeadingFunction.definition {s : StructClass} {f : CFunction} (h : LeadingFunction outside s f) :
    ∀ l ∈ f.definition s, Leads outside 0 0 l := by
  intro l hl
  unfold CFunction.definition at hl
  simp only [List.cons_append, List.mem_cons, List.mem_append, List.mem_map, List.not_mem_nil, or_false] at hl
  rcases hl with rfl | rfl | ⟨t, ht, rfl⟩ | rfl
  · exact h.head
  · exact leads_flat (by decide) 0
  · exact leads_indented (h.body t ht) 1
  · exact leads_flat (by decide) 0

/-- A cast in front of an expression. -/
theorem leads_castTo {type x : String} (ht : Leads outside 1 1 type) (t : ValueMapping) (hx : Leads outside 0 0 x) :
    Leads outside 0 0 (castTo type t x) := by
  have hcast : Leads outside 0 0 ("(" ++ type ++ ")") :=
    ht.within (by decide) (by decide)
  unfold castTo
  split
  · exact (hcast.text (by decide)).append hx
  · exact (hcast.text (by decide)).append hx

section

variable {s : StructClass} (hname : Flat s.name.toList) (hnative : s.nativeName ∈ outside)

include hname

theorem flat_cacheName : Flat (cacheName s).toList := flat_append.2 ⟨hname, by decide⟩

theorem leads_cacheHead : Leads outside 0 0 (cacheHead s) :=
  (leads_flat hname 0).within (by decide) (by decide)

theorem leads_ensureCached : Leads outside 0 0 (ensureCached s) :=
  (((leads_flat (flat_cacheName hname) 1).within (by decide) (by decide)).append (leads_flat hname 0)).text (by decide)

include hnative

theorem leads_getHead : Leads outside 0 0 (getHead s) :=
  (((((leads_outside hnative 0).text (by decide)).append (leads_flat hname 0)).text (by decide)).append
    (leads_outside hnative 1)).text (by decide)

theorem leads_setHead : Leads outside 0 0 (setHead s) :=
  (((leads_flat hname 0).within (by decide) (by decide)).append (leads_outside hnative 1)).text (by decide)

variable {g : GeneratedField} (hg : LeadingField outside g)

include hg

omit hnative in
theorem flat_getterName : Flat (getterName s g.field).toList :=
  flat_append.2 ⟨flat_append.2 ⟨hname, by decide⟩, hg.name⟩

omit hnative in
theorem flat_setterName : Flat (setterName s g.field).toList :=
  flat_append.2 ⟨flat_append.2 ⟨hname, by decide⟩, hg.name⟩

omit hname in
theorem leads_offsetText : Leads outside 0 0 (offsetText s g.field) := by
  unfold offsetText
  split
  · exact leads_flat (flat_int _) 0
  · split
    · exact leads_flat (by decide) 0
    · exact leads_flat (by decide) 0
  · exact (((leads_outside hnative 1).within (by decide) (by decide)).append (leads_outside hg.accessor 1)).text
      (by decide)

omit hname in
theorem leads_addressOf : Leads outside 0 0 (addressOf s g) :=
  (((hg.cType.add 1).within (by decide) (by decide)).append ((leads_offsetText hnative hg).add 2)).text (by decide)

theorem leadingFunction_getterOf : LeadingFunction outside s (getterOf s g) := by
  refine ⟨?_, fun t ht => ?_⟩
  · exact (((leads_flat hg.abiType 0).text (by decide)).append (leads_flat (flat_getterName hname hg) 0)).text
      (by decide)
  · obtain rfl := List.mem_singleton.1 ht
    have hread := leads_castTo (leads_flat hg.abiType 1) g.mapping
      ((leads_flat (s := "*") (by decide) 0).append (leads_addressOf hnative hg))
    exact hread.within (by decide) (by decide)

theorem leadingFunction_setterOf : LeadingFunction outside s (setterOf s g) := by
  refine ⟨?_, fun t ht => ?_⟩
  · exact (((leads_flat (flat_setterName hname hg) 0).within (by decide) (by decide)).append
      (leads_flat hg.abiType 1)).text (by decide)
  · obtain rfl := List.mem_singleton.1 ht
    have hwritten := leads_castTo hg.cType g.mapping (leads_flat (s := "value") (by decide) 0)
    exact (((leads_addressOf hnative hg).within (by decide) (by decide)).append hwritten).text (by decide)

omit hnative in
theorem leads_read : Leads outside 0 0 ((CopyStep.read g).text s) := by
  have hvalue : Leads outside 0 0 (s!"(*env)->Get{g.mapping.fieldAccessor}Field(env, lpObject, " ++
      s!"{cacheName s}.{g.field.name})") :=
    ((leads_flat hg.fieldAccessor 0).within (by decide) (by decide)).append
      ((((leads_flat (flat_cacheName hname) 1).text (by decide)).append (leads_flat hg.name 1)).text (by decide))
  exact (((leads_outside hg.accessor 0).within (by decide) (by decide)).append
    (leads_castTo hg.cType g.mapping hvalue)).text (by decide)

omit hnative in
theorem leads_write : Leads outside 0 0 ((CopyStep.write g).text s) := by
  have hmember : Leads outside 0 0 s!"lpStruct->{g.field.accessor}" :=
    (leads_flat (by decide) 0).append (leads_outside hg.accessor 0)
  have hvalue := (leads_castTo (leads_flat hg.abiType 1) g.mapping hmember).add 1
  exact ((leads_flat hg.fieldAccessor 0).within (by decide) (by decide)).append
    ((((((leads_flat (flat_cacheName hname) 1).text (by decide)).append (leads_flat hg.name 1)).text
      (by decide)).append hvalue).text (by decide))

theorem leads_of_mem_accessorsText : ∀ l ∈ accessorsText s g, Leads outside 0 0 l := by
  have hguarded : ∀ {name f}, Flat name.toList → LeadingFunction outside s f →
      ∀ l ∈ guardedText s name f, Leads outside 0 0 l := by
    intro name f hflat hf l hl
    rcases List.mem_append.1 hl with hl | hl
    · rcases List.mem_cons.1 hl with rfl | hl
      · exact leads_flat (flat_append.2 ⟨by decide, hflat⟩) 0
      · exact hf.definition l hl
    · obtain rfl := List.mem_singleton.1 hl
      exact leads_flat (by decide) 0
  intro l hl
  rcases List.mem_append.1 hl with hl | hl
  · exact hguarded (flat_getterName hname hg) (leadingFunction_getterOf hname hnative hg) l hl
  · split at hl
    · exact hguarded (flat_setterName hname hg) (leadingFunction_setterOf hname hnative hg) l hl
    · cases hl

end

section

variable {s : StructClass} (hname : Flat s.name.toList) (hnative : s.nativeName ∈ outside) {gs : List GeneratedField}
  (hgs : ∀ g ∈ gs, LeadingField outside g)

include hname hnative hgs

theorem leadingFunction_readFunction : LeadingFunction outside s (readFunction s gs) := by
  refine ⟨leads_getHead hname hnative, fun t ht => ?_⟩
  rcases List.mem_append.1 ht with ht | ht
  · rcases List.mem_cons.1 ht with rfl | ht
    · exact leads_ensureCached hname
    · obtain ⟨g, hg, rfl⟩ := List.mem_map.1 ht
      exact leads_read hname (hgs g hg)
  · obtain rfl := List.mem_singleton.1 ht
    exact leads_flat (s := "return lpStruct;") (by decide) 0

theorem leadingFunction_writeFunction : LeadingFunction outside s (writeFunction s gs) := by
  refine ⟨leads_setHead hname hnative, fun t ht => ?_⟩
  rcases List.mem_cons.1 ht with rfl | ht
  · exact leads_ensureCached hname
  · obtain ⟨g, hg, rfl⟩ := List.mem_map.1 ht
    exact leads_write hname (hgs g (List.mem_of_mem_filter hg))

theorem leads_of_mem_functionsOf : ∀ f ∈ functionsOf s gs, Leads outside 0 0 f.head := by
  unfold functionsOf
  rw [List.forall_mem_append]
  refine ⟨?_, fun f hf => ?_⟩
  · simp only [List.forall_mem_cons]
    refine ⟨leads_cacheHead hname, leads_getHead hname hnative, leads_setHead hname hnative, ?_, List.forall_mem_nil _⟩
    exact (leads_flat hname 0).within (by decide) (by decide)
  · obtain ⟨g, hg, hf⟩ := List.mem_flatMap.1 hf
    rcases List.mem_cons.1 hf with rfl | hf
    · exact (leadingFunction_getterOf hname hnative (hgs g hg)).head
    · split at hf
      · obtain rfl := List.mem_singleton.1 hf
        exact (leadingFunction_setterOf hname hnative (hgs g hg)).head
      · cases hf

/-- **The lines of the functions of a struct class are balanced** apart from the texts left out. -/
theorem leads_of_mem_fieldCode : ∀ l ∈ fieldCode s gs, Leads outside 0 0 l := by
  unfold fieldCode
  simp only [List.forall_mem_append]
  refine ⟨⟨⟨fun l hl => ?_, ?_⟩, ?_⟩, fun l hl => ?_⟩
  · rw [code_declarations] at hl
    obtain ⟨f, hf, rfl⟩ := List.mem_map.1 hl
    exact (leads_of_mem_functionsOf hname hnative hgs f hf).text (by decide)
  · rw [code_getFunction]
    exact (leadingFunction_readFunction hname hnative hgs).definition
  · rw [code_setFunction]
    exact (leadingFunction_writeFunction hname hnative hgs).definition
  · cases gs with
    | nil => cases hl
    | cons g gs =>
      rw [List.forall_mem_cons] at hgs
      rw [code_accessorFunctions] at hl
      rcases List.mem_append.1 hl with hl | hl
      · exact leads_of_mem_accessorsText hname hnative hgs.1 l hl
      · obtain ⟨g', hg', hl⟩ := List.mem_flatMap.1 hl
        rcases List.mem_cons.1 hl with rfl | hl
        · exact leads_flat (by decide) 0
        · exact leads_of_mem_accessorsText hname hnative (hgs.2 g' hg') l hl

end

/-! ## 4. The layout comment -/

/-- What stands around the type in the line of a field. -/
theorem layoutLine_eq (x : PlacedField) : ∃ l r : String, layoutLine x = l ++ x.mapping.cType ++ r ∧
    Leads [x.field.accessor] 0 0 l ∧ Text.Balanced r := by
  have hplaces : Flat (fourPlaces x.offset.bytes).toList :=
    flat_append.2 ⟨flat_copies (by decide) (by decide) rfl _, flat_int _⟩
  have hnote : Text.Balanced (if x.field.flags.noGen then " (no_gen)" else "") := by
    split
    · decide
    · decide
  refine ⟨" *   " ++ fourPlaces x.offset.bytes ++ "  " ++ x.field.accessor ++ "  ",
    " " ++ ("(" ++ toString x.mapping.size ++ ")" ++ if x.field.flags.noGen then " (no_gen)" else ""),
    String.append_assoc .., ?_, ?_⟩
  · exact (((leads_flat hplaces 0).within (by decide) (by decide)).append
      (leads_outside (List.mem_singleton_self _) 0)).text (by decide)
  · have hrest : Leads [] 0 0
        (" " ++ ("(" ++ toString x.mapping.size ++ ")" ++ if x.field.flags.noGen then " (no_gen)" else "")) :=
      (leads_flat (by decide) 0).append
        (((leads_flat (flat_int _) 1).within (by decide) (by decide)).append (hnote.leads _ 0))
    exact (balancedApart_iff.2 hrest).balanced (List.forall_mem_nil _)

/-- The line of a field in the comment shows its type as it is. -/
theorem typed_layoutLine {x : PlacedField} {cast : Option String} (h : Typed [] cast x.mapping.cType) :
    ((∀ k ∈ cast, ¬ Chained k) → BalancedApart [x.field.accessor] (layoutLine x)) ∧
      ∀ k ∈ cast, Chained k → Text.Balanced x.field.accessor → ¬ Text.Balanced (layoutLine x) := by
  obtain ⟨l, r, hline, hl, hr⟩ := layoutLine_eq x
  refine ⟨fun hplain => ?_, fun k hk hchained haccessor hbalanced => ?_⟩
  · have htype := (balancedApart_iff.1 (h.whole hplain)).mono (List.nil_subset [x.field.accessor])
    rw [balancedApart_iff, hline]
    exact (hl.append htype).append (hr.leads _ 0)
  · have hleft : Text.Balanced l :=
      (balancedApart_iff.2 hl).balanced (List.forall_mem_singleton.2 haccessor)
    rw [hline] at hbalanced
    exact h.chained k hk hchained (Balanced.of_append hleft hr hbalanced)

end

/-! ## 5. Casts in types, calls and struct classes -/

/-- What becomes of balanced casts. Types are balanced unless a cast is a chain, apart from the C names of struct
classes; the lines of calls, and of the functions of struct classes, are balanced in any case, apart from accessors and
from the C names of struct classes; and so is the layout comment, unless a cast is a chain. -/
structure CastsCarried (e : Mapper) : Prop where
  parameter : ∀ {structs m p t}, e.paramMapping structs m p = .ok t → (∀ k ∈ p.cast, Text.Balanced k) →
    Typed (structs.map (·.nativeName)) p.cast t.cType
  result : ∀ {m t}, e.resultMapping m = .ok t → (∀ k ∈ m.cast, Text.Balanced k) → Typed [] m.cast t.cType
  field : ∀ {f t}, e.fieldMapping f = .ok t → (∀ k ∈ f.cast, Text.Balanced k) → Typed [] f.cast t.cType
  call : ∀ {structs m c}, e.callMapping structs m = .ok c → (∀ k ∈ m.cast, Text.Balanced k) →
    (∀ p ∈ m.parameters, ∀ k ∈ p.cast, Text.Balanced k) →
    ∀ l ∈ linesOf (.call c), BalancedApart (m.accessor :: structs.map (·.nativeName)) l
  struct : ∀ {defines s gs}, generatedFields e defines s = .ok gs →
    (∀ f ∈ s.fields, ∀ k ∈ f.cast, Text.Balanced k) → IsWord s.name → (∀ f ∈ s.fields, IsWord f.name) →
    ∀ l ∈ fieldCode s gs, BalancedApart (s.nativeName :: s.fields.map (·.accessor)) l
  layout : ∀ {s l}, e.layoutOf s = .ok l → (∀ f ∈ s.fields, ∀ k ∈ f.cast, Text.Balanced k) → ∀ x ∈ l.fields,
    ((∀ k ∈ x.field.cast, ¬ Chained k) → BalancedApart [x.field.accessor] (layoutLine x)) ∧
      ∀ k ∈ x.field.cast, Chained k → Text.Balanced x.field.accessor → ¬ Text.Balanced (layoutLine x)

/-- **Under the standard rules casts keep code balanced**, but a chain of casts does not keep its type balanced. In
the models of directories the names of struct classes and of their fields are words. -/
theorem casts_carried {e : Mapper} (he : e.rules = standardRules) : CastsCarried e ∧
    ∀ {t : FileTree} {rules : List Source.Exclusion} {store : Overlay.Store} {root : Path} {m : Model},
      Source.modelAt t rules store root = .ok m → ∀ u ∈ m.units, ∀ s ∈ u.structs,
        IsWord s.name ∧ ∀ f ∈ s.fields, IsWord f.name := by
  refine ⟨⟨typed_of_paramMapping he, typed_of_resultMapping he, typed_of_fieldMapping he, ?_, ?_, ?_⟩, ?_⟩
  · intro structs m c h hm hp l hl
    exact balancedApart_iff.2 (leads_of_mem_linesOf_call (leadingCall_of_callMapping he h hm hp) l hl)
  · intro defines s gs h hs hname hnames l hl
    exact balancedApart_iff.2 (leads_of_mem_fieldCode (flat_word hname) List.mem_cons_self
      (leadingField_of_generatedFields he h hs hnames) l hl)
  · intro s l h hs x hx
    have hlaid := laidOut_of_layoutOf h
    have hmem : x.field ∈ s.fields := by
      have hplaced := List.mem_map_of_mem (f := (·.field)) hx
      rw [hlaid.fields] at hplaced
      exact List.mem_of_mem_filter hplaced
    exact typed_layoutLine (typed_of_fieldMapping he (hlaid.mapped x hx) (hs _ hmem))
  · intro t rules store root m h u hu s hs
    have hspelled := (Source.spelled_of_modelAt h u hu).structs s hs
    exact ⟨hspelled.name, fun f hf => (hspelled.fields f hf).name⟩

/-- A struct class and a method with casts, of which some are chains. -/
def hookFiles : List Source.OutlinedFile :=
  [ { path := ⟨.here, ["OS.java"]⟩
      outline :=
        { package := ""
          classes :=
            [ { name := "Hook", line := 1, natives := [], doc := some ⟨"/** @struct */", 1⟩
                fields := [⟨"run", "int", 2, some ⟨"/** @field cast=(int)(long) */", 2⟩⟩,
                  ⟨"next", "int", 3, some ⟨"/** @field cast=(int (*)(struct a *)) */", 3⟩⟩] },
              { name := "OS", line := 4, fields := []
                natives := [⟨"draw", [⟨"n", "int", 6⟩, ⟨"hook", "Hook", 6⟩], "int", ["native"], 6,
                  some ⟨"/** @method flags=dynamic, cast=((int)(long))\n@param n cast=(int)(long) */", 5⟩⟩] } ] } } ]

theorem casts_carried_hookFiles :
    (∃ m n c, Source.modelOf {} hookFiles = .ok m ∧ n ∈ m.natives ∧
      Mapper.callMapping ⟨"linux", 64, 8, standardRules⟩ m.structs n = .ok c ∧
      c.parameters.map (·.cType) = ["int)(long", "Hook *"] ∧ c.result.cType = "(int)(long)" ∧
      ∀ l ∈ linesOf (.call c), Text.Balanced l) ∧
    ∃ m s gs, Source.modelOf {} hookFiles = .ok m ∧ s ∈ m.structs ∧
      generatedFields ⟨"linux", 64, 8, standardRules⟩ [] s = .ok gs ∧
      gs.map (·.mapping.cType) = ["int)(long", "int (*)(struct a *)"] ∧ ∀ l ∈ fieldCode s gs, Text.Balanced l := by
  have hcarried := (casts_carried (e := ⟨"linux", 64, 8, standardRules⟩) rfl).1
  have hcalled : ∃ m ∈ (Source.modelOf {} hookFiles).toOption, ∃ n ∈ m.natives,
      ∃ c ∈ (Mapper.callMapping ⟨"linux", 64, 8, standardRules⟩ m.structs n).toOption,
        c.parameters.map (·.cType) = ["int)(long", "Hook *"] ∧ c.result.cType = "(int)(long)" ∧
        (∀ k ∈ n.cast, Text.Balanced k) ∧ (∀ p ∈ n.parameters, ∀ k ∈ p.cast, Text.Balanced k) ∧
          ∀ x ∈ n.accessor :: m.structs.map (·.nativeName), Text.Balanced x := by
    decide +kernel
  have hcopied : ∃ m ∈ (Source.modelOf {} hookFiles).toOption, ∃ s ∈ m.structs,
      ∃ gs ∈ (generatedFields ⟨"linux", 64, 8, standardRules⟩ [] s).toOption,
        gs.map (·.mapping.cType) = ["int)(long", "int (*)(struct a *)"] ∧
        (∀ f ∈ s.fields, ∀ k ∈ f.cast, Text.Balanced k) ∧ IsWord s.name ∧ (∀ f ∈ s.fields, IsWord f.name) ∧
          ∀ x ∈ s.nativeName :: s.fields.map (·.accessor), Text.Balanced x := by
    decide +kernel
  constructor
  · obtain ⟨m, hm, n, hn, c, hc, htypes, hresult, hcast, hcasts, houtside⟩ := hcalled
    have hc := ok_of_toOption hc
    exact ⟨m, n, c, ok_of_toOption hm, hn, hc, htypes, hresult,
      fun l hl => (hcarried.call hc hcast hcasts l hl).balanced houtside⟩
  · obtain ⟨m, hm, s, hs, gs, hgs, htypes, hcasts, hname, hnames, houtside⟩ := hcopied
    have hgs := ok_of_toOption hgs
    exact ⟨m, s, gs, ok_of_toOption hm, hs, hgs, htypes,
      fun l hl => (hcarried.struct hgs hcasts hname hnames l hl).balanced houtside⟩

/-- **A chain of casts is balanced, but the type that it gives is not**, neither that of a parameter nor that of a
field, nor is the line of the layout comment about the field. -/
theorem casts_not_carried_hookFiles : ∃ m ∈ (Source.modelOf {} hookFiles).toOption,
    (∃ n ∈ m.natives, ∃ p ∈ n.parameters, p.cast = some "(int)(long)" ∧ Text.Balanced "(int)(long)" ∧
      ∃ t ∈ (Mapper.paramMapping ⟨"linux", 64, 8, standardRules⟩ m.structs n p).toOption,
        t.cType = "int)(long" ∧ ¬ Text.Balanced t.cType) ∧
    ∃ s ∈ m.structs, ∃ l ∈ (Mapper.layoutOf ⟨"linux", 64, 8, standardRules⟩ s).toOption, ∃ x ∈ l.fields,
      x.field.cast = some "(int)(long)" ∧ ¬ Text.Balanced x.mapping.cType ∧ ¬ Text.Balanced (layoutLine x) := by
  decide +kernel

end NativeGlue.Code
