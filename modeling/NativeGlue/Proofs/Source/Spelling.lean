import NativeGlue.Proofs.Code.Inert
import NativeGlue.Proofs.Source.Declared

/-!
# How a model is spelled

The names in the model of a directory are words, and its descriptors and full names are on one line
(`spelled_of_modelAt`): they are made of names, of types and packages as the sources write them without blanks,
and of a few marks.
-/

namespace NativeGlue

open NativeGlue.Code NativeGlue.Java NativeGlue.Text

/-! ## 1. Descriptors -/

theorem unbroken_of_subset {s t : String} (h : Unbroken s) (hs : t.toList ⊆ s.toList) : Unbroken t :=
  ⟨fun hc => h.1 (hs hc), fun hc => h.2 (hs hc)⟩

/-- A descriptor is on one line if the names in it are. -/
theorem HostType.unbroken_descriptor {t : HostType} (hname : Unbroken t.name)
    (hqualified : ∀ q ∈ t.qualified, Unbroken q) : Unbroken t.descriptor := by
  have hclass : Unbroken t.className := by
    unfold HostType.className
    split
    · rename_i q hq
      split
      · exact hname
      · exact hqualified q hq
    · exact hname
  have hletters : ∀ {name d : String}, primitiveDescriptor? name = some d → Unbroken d := by
    intro name d hd
    unfold primitiveDescriptor? at hd
    split at hd
    all_goals first
      | (obtain rfl := Option.some.inj hd; decide)
      | cases hd
  refine unbroken_append.2 ⟨(inert_copies (by decide) _).unbroken, ?_⟩
  unfold HostType.elementDescriptor
  split
  · rename_i hd
    exact hletters hd
  · split
    · decide
    · exact unbroken_append.2 ⟨unbroken_append.2 ⟨by decide, hclass⟩, by decide⟩

namespace Source

theorem dropBrackets_suffix (n : Nat) (s : List Char) : (dropBrackets n s).2 <:+ s := by
  fun_induction dropBrackets n s with
  | case1 n r ih => exact ih.trans ((List.suffix_cons '[' r).trans (List.suffix_cons ']' _))
  | case2 n r => exact List.suffix_refl r

theorem unbroken_baseOf {text : String} (h : Unbroken text) : Unbroken (baseOf text) := by
  refine unbroken_of_subset h fun c hc => ?_
  rw [baseOf, String.toList_ofList, List.mem_reverse] at hc
  exact List.mem_reverse.1 ((dropBrackets_suffix 0 _).subset hc)

theorem unbroken_afterLastDot {s : String} (h : Unbroken s) : Unbroken (afterLastDot s) := by
  refine unbroken_of_subset h fun c hc => ?_
  rw [afterLastDot] at hc
  cases hlast : (splitAt '.' s).getLast? with
  | none =>
    rw [hlast] at hc
    exact absurd hc List.not_mem_nil
  | some piece =>
    rw [hlast, Option.getD_some] at hc
    obtain ⟨l, hl, rfl⟩ := List.mem_map.1 (List.mem_of_getLast? hlast)
    obtain ⟨a, b, hs, -⟩ := exists_of_mem_splitOn hl
    rw [String.toList_ofList] at hc
    rw [hs]
    exact List.mem_append_left b (List.mem_append_right a hc)

theorem unbroken_replaceChars {s : String} (h : Unbroken s) (p : Char → Bool) {new : Char}
    (hnew : new ∉ ['\n', '\r']) : Unbroken (replaceChars p new s) := by
  have hkept : ∀ d ∈ ['\n', '\r'], d ∉ s.toList → d ∉ (replaceChars p new s).toList := by
    intro d hd hs hc
    rw [replaceChars, String.toList_ofList] at hc
    obtain ⟨x, hx, he⟩ := List.mem_map.1 hc
    split at he
    · exact hnew (he ▸ hd)
    · exact hs (he ▸ hx)
  exact ⟨hkept _ (by decide) h.1, hkept _ (by decide) h.2⟩

/-- The type that a text means has its descriptor on one line if the text is, and the full names of classes. -/
theorem Named.unbroken {text : String} (h : Unbroken text) {structs : List String}
    {qualified : List (String × String)} (hq : ∀ q ∈ qualified, Unbroken q.2) {t : HostType}
    (ht : Named text structs qualified t) : Unbroken t.descriptor := by
  have hbase := unbroken_baseOf h
  have hsimple : Unbroken (simpleOf text) := unbroken_afterLastDot hbase
  have hpath : ∀ q ∈ some (pathOf qualified text), Unbroken q := by
    intro q hq'
    rw [← Option.some.inj hq', pathOf]
    split
    · exact unbroken_replaceChars hbase _ (by decide)
    · split
      · rename_i q hfound
        exact hq _ (mem_of_lookup hfound)
      · split
        · exact unbroken_append.2 ⟨by decide, hsimple⟩
        · exact hsimple
  have htext : ∀ q ∈ some "java/lang/String", Unbroken q := by decide
  have hnone : ∀ q ∈ (none : Option String), Unbroken q := by decide
  have hstring : Unbroken "String" := by decide
  have parts : Unbroken t.name ∧ ∀ q ∈ t.qualified, Unbroken q := by
    cases ht with
    | void => exact ⟨by decide, hnone⟩
    | primitive => exact ⟨hbase, hnone⟩
    | array => exact ⟨hbase, hnone⟩
    | string => exact ⟨hstring, htext⟩
    | strings => exact ⟨hstring, htext⟩
    | struct =>
      dsimp only
      exact ⟨hsimple, hpath⟩
    | object =>
      dsimp only
      exact ⟨hsimple, hpath⟩
  exact HostType.unbroken_descriptor parts.1 parts.2

end Source

/-! ## 2. The model -/

/-- The name of a method is a word, and its descriptor is on one line. -/
structure NativeMethod.Spelled (n : NativeMethod) : Prop where
  name : IsWord n.name
  descriptor : Unbroken n.descriptor

/-- The name of a field is a word, and the descriptor of its type is on one line. -/
structure StructMember.Spelled (f : StructMember) : Prop where
  name : IsWord f.name
  descriptor : Unbroken f.type.descriptor

/-- The names of a struct class and of its fields are words. -/
structure StructClass.Spelled (s : StructClass) : Prop where
  name : IsWord s.name
  fields : ∀ f ∈ s.fields, f.Spelled

/-- The names of a unit are words, its full name is on one line, and all that it declares is spelled well. -/
structure ClassUnit.Spelled (u : ClassUnit) : Prop where
  className : IsWord u.className
  fullName : Unbroken u.fullName
  natives : ∀ n ∈ u.natives, n.Spelled
  structs : ∀ s ∈ u.structs, s.Spelled

namespace Source

open NativeGlue.Overlay

theorem unbroken_of_word {s : String} (h : IsWord s) : Unbroken s := (inert_of_word h).unbroken

section

variable {store : Store} {files : List OutlinedFile} {known : List (String × DeclaredClass)}
  {es : List DeclaredClass} {m : Model}

/-- A class of files that are spelled well. -/
theorem spelled_of_mem_classesOf (hf : ∀ f ∈ files, f.outline.Spelled) {c : DeclaredClass}
    (hc : c ∈ classesOf files) : Unblank c.package ∧ c.outline.Spelled := by
  obtain ⟨f, hmem, hpackage, houtline⟩ := exists_file_of_mem_classesOf hc
  rw [hpackage]
  exact ⟨(hf f hmem).package, (hf f hmem).classes _ houtline⟩

/-- The full name of a class is on one line. -/
theorem unbroken_qualified {c : DeclaredClass} (hp : Unblank c.package) (hc : c.outline.Spelled) :
    Unbroken c.qualified := by
  have hname : Unbroken c.name := unbroken_of_word hc.name
  unfold DeclaredClass.qualified
  split
  · exact hname
  · refine unbroken_append.2 ⟨unbroken_append.2 ⟨?_, by decide⟩, hname⟩
    exact unbroken_replaceChars (unbroken_of_unblank hp) _ (by decide)

/-- The classes that a model is made of are spelled well. -/
theorem ModelFrom.spelled (h : ModelFrom store files known es m) (hf : ∀ f ∈ files, f.outline.Spelled)
    {e : DeclaredClass} (he : e ∈ es) : Unblank e.package ∧ e.outline.Spelled := by
  obtain ⟨c, hc, directives, rfl⟩ := h.declared e he
  obtain ⟨hpackage, hspelled⟩ := spelled_of_mem_classesOf hf hc
  exact ⟨hpackage, hspelled⟩

/-- A type in the scope of a model has its descriptor on one line. -/
theorem ModelFrom.unbroken_resolve (h : ModelFrom store files known es m) (hf : ∀ f ∈ files, f.outline.Spelled)
    {text : String} (ht : Unblank text) : Unbroken ((scopeOf store known).resolve text).descriptor := by
  refine (named text _ _).unbroken (unbroken_of_unblank ht) fun q hq => ?_
  obtain ⟨c, hc, hname⟩ := h.qualified q hq
  obtain ⟨hpackage, hspelled⟩ := spelled_of_mem_classesOf hf hc
  rw [hname]
  exact unbroken_qualified hpackage hspelled

theorem NativeFrom.spelled (h : ModelFrom store files known es m) (hf : ∀ f ∈ files, f.outline.Spelled)
    {e : DeclaredClass} {d : NativeDecl} {n : NativeMethod} (hn : NativeFrom (scopeOf store known) e d n)
    (hd : IsWord d.name ∧ Unblank d.returnType ∧ ∀ p ∈ d.parameters, Unblank p.type) : n.Spelled := by
  obtain ⟨hname, hreturn, hparameters⟩ := hd
  refine ⟨?_, ?_⟩
  · have he : n.name = d.name := congrArg Identity.name hn.identity
    rw [he]
    exact hname
  · have hjoined : ∀ {l : List String}, (∀ s ∈ l, Unbroken s) → Unbroken (String.join l) := by
      intro l
      induction l with
      | nil => exact fun _ => by decide
      | cons s r ih =>
        intro hl
        rw [List.forall_mem_cons] at hl
        rw [String.join_cons]
        exact unbroken_append.2 ⟨hl.1, ih hl.2⟩
    have htypes : Unbroken (String.join (n.parameters.map (·.type.descriptor))) := by
      refine hjoined fun s hs => ?_
      obtain ⟨q, hq, rfl⟩ := List.mem_map.1 hs
      obtain ⟨x, hx, hxq⟩ := exists_of_mem_forall₂ hn.parameters hq
      rw [hxq.descriptor]
      exact h.unbroken_resolve hf (hparameters x.1 (List.fst_mem_of_mem_zipIdx hx))
    have hresult : Unbroken n.returnType.descriptor := by
      rw [hn.returnType]
      exact h.unbroken_resolve hf hreturn
    exact unbroken_append.2 ⟨unbroken_append.2 ⟨unbroken_append.2 ⟨by decide, htypes⟩, by decide⟩, hresult⟩

theorem StructFrom.spelled (h : ModelFrom store files known es m) (hf : ∀ f ∈ files, f.outline.Spelled)
    {e : DeclaredClass} {s : StructClass} (hs : StructFrom (scopeOf store known) e s)
    (he : e.outline.Spelled) : s.Spelled := by
  refine ⟨?_, fun f hmem => ?_⟩
  · rw [hs.name]
    exact he.name
  · obtain ⟨d, hd, hname, htype⟩ := hs.fields f hmem
    obtain ⟨hword, hblank⟩ := he.fields d hd
    refine ⟨hname ▸ hword, ?_⟩
    have hresolved : Resolved ((scopeOf store known).resolve d.type) := (named _ _ _).resolved
    rw [htype, descriptor_asPointer hresolved]
    exact h.unbroken_resolve hf hblank

/-- **The names in a model are words**, and its descriptors and full names are on one line. -/
theorem spelled_of_modelFrom (h : ModelFrom store files known es m) (hf : ∀ f ∈ files, f.outline.Spelled) :
    ∀ u ∈ m.units, u.Spelled := by
  intro u hu
  obtain ⟨e, he, hue⟩ := exists_of_mem_forall₂ h.units hu
  obtain ⟨hpackage, hspelled⟩ := h.spelled hf he
  have hclass : IsWord u.className := by
    rw [hue.className]
    exact hspelled.name
  refine ⟨hclass, ?_, fun n hn => ?_, fun s hs => (hue.structs s hs).spelled h hf hspelled⟩
  · unfold ClassUnit.fullName
    split
    · exact unbroken_of_word hclass
    · rw [hue.package]
      exact unbroken_append.2 ⟨unbroken_append.2 ⟨unbroken_of_unblank hpackage, by decide⟩,
        unbroken_of_word hclass⟩
  · obtain ⟨ds, hsub, hds⟩ := hue.natives
    obtain ⟨d, hd, hdn⟩ := exists_of_mem_forall₂ hds hn
    exact hdn.spelled h hf (hspelled.natives d (hsub.subset hd))

end

/-- **The names in the model of a directory are words**, and its descriptors and full names are on one line. -/
theorem spelled_of_modelAt {t : FileTree} {rules : List Exclusion} {store : Store} {root : Path} {m : Model}
    (h : modelAt t rules store root = .ok m) : ∀ u ∈ m.units, u.Spelled := by
  obtain ⟨files, known, es, hfrom, hspelled⟩ := modelFrom_of_modelAt h
  exact spelled_of_modelFrom hfrom hspelled

end Source

end NativeGlue
