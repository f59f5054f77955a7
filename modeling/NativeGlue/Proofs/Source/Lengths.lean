import NativeGlue.Proofs.Source.Declared

/-!
# Arrays and their lengths

A doc comment or the store may say which parameter of a native method holds the length of an array, by its index or
by its name. In a model that was built, every such reference was followed: an array is linked to another parameter
of the method, which is an integral primitive also after casts and flags changed the types, and parameters are
linked only where they are asked to be (`linked_of_modelOf`).
-/

namespace NativeGlue.Source

open NativeGlue.Java NativeGlue.Directive NativeGlue.Overlay NativeGlue.Text

/-! ## 1. References -/

/-- What is said about where the length of an array is: by the doc comment, or else by the store. -/
def lengthReference (inline : DocOptions) (record : Option Record) (p : Parameter) : Option String :=
  (inlineParam inline p.name).length <|> (storedParam record p.index p.name).length

/-- A parameter that may hold the length of an array. -/
structure Countable (p q : Parameter) : Prop where
  isArray : p.type.isArray = true
  other : q.index ≠ p.index
  kind : q.type.kind = .primitive
  integral : q.type.name ∈ integralPrimitives

/-- What a parameter becomes when its reference is followed among the parameters of its method. -/
inductive Follows (inline : DocOptions) (record : Option Record) (ps : List Parameter) (p : Parameter) :
    Parameter → Prop
  | free (h : lengthReference inline record p = none) : Follows inline record ps p p
  | linked {reference : String} {q : Parameter} (h : lengthReference inline record p = some reference)
      (found : referredParam ps reference = .ok (some q)) (count : Countable p q) :
      Follows inline record ps p { p with lengthParam := some q.index }

theorem follows_of_linkLength {path : Path} {inline : DocOptions} {record : Option Record} {ps : List Parameter}
    {p q : Parameter} {line : Nat} (h : linkLength path inline record ps p line = .ok q) :
    Follows inline record ps p q := by
  unfold linkLength at h
  split at h
  · rename_i hnone
    obtain rfl := Except.ok.inj h
    exact .free hnone
  rename_i reference hsome
  dsimp only at h
  split at h
  · obtain ⟨_, hthrow, -⟩ := ok_of_bind h
    exact (not_ok_throw hthrow).elim
  rename_i harray
  rw [Bool.not_eq_true', Bool.not_eq_false] at harray
  obtain ⟨found, hfound, h⟩ := ok_of_bind h
  split at h
  · exact (not_ok_throw h).elim
  split at h
  · exact (not_ok_throw h).elim
  rename_i hother
  split at h
  · rename_i hkind
    obtain rfl := Except.ok.inj h
    exact .linked hsome hfound ⟨harray, hother, hkind.1, List.contains_iff_mem.1 hkind.2⟩
  · exact (not_ok_throw h).elim

/-- A parameter that goes by the same name and place as another one and is of the same type. -/
structure Alike (p q : Parameter) : Prop where
  index : q.index = p.index
  name : q.name = p.name
  type : q.type = p.type

theorem Follows.alike {inline : DocOptions} {record : Option Record} {ps : List Parameter} {p q : Parameter}
    (h : Follows inline record ps p q) : Alike p q := by
  cases h with
  | free => exact ⟨rfl, rfl, rfl⟩
  | linked => exact ⟨rfl, rfl, rfl⟩

theorem exists_alike_at {ps qs : List Parameter} (h : List.Forall₂ Alike ps qs) {k : Nat} {p : Parameter}
    (hp : ps[k]? = some p) : ∃ q, Alike p q ∧ qs[k]? = some q := by
  obtain ⟨hk, rfl⟩ := List.getElem?_eq_some_iff.1 hp
  have hk' : k < qs.length := h.length_eq ▸ hk
  exact ⟨qs[k], h.get hk hk', List.getElem?_eq_getElem hk'⟩

theorem exists_alike_named {ps qs : List Parameter} (h : List.Forall₂ Alike ps qs) {name : String} {p : Parameter}
    (hp : (ps.find? fun p => p.name == name) = some p) :
    ∃ q, Alike p q ∧ (qs.find? fun q => q.name == name) = some q := by
  induction h with
  | nil => cases hp
  | @cons x y ps qs hx _ ih =>
    rw [List.find?_cons] at hp
    rw [List.find?_cons, hx.name]
    cases hxn : x.name == name with
    | true =>
      rw [hxn] at hp
      obtain rfl := Option.some.inj hp
      exact ⟨y, hx, rfl⟩
    | false =>
      rw [hxn] at hp
      exact ih hp

/-- A reference means the same parameter before and after the links are there. -/
theorem referredParam_alike {ps qs : List Parameter} (h : List.Forall₂ Alike ps qs) {reference : String}
    {p : Parameter} (hp : referredParam ps reference = .ok (some p)) :
    ∃ q, Alike p q ∧ referredParam qs reference = .ok (some q) := by
  unfold referredParam at hp ⊢
  dsimp only at hp ⊢
  split at hp
  · rename_i hdigits
    rw [if_pos hdigits]
    split at hp
    · cases hp
    · obtain ⟨q, hq, hqs⟩ := exists_alike_at h (Except.ok.inj hp)
      exact ⟨q, hq, by rw [hqs]⟩
  · rename_i hdigits
    rw [if_neg hdigits]
    obtain ⟨q, hq, hqs⟩ := exists_alike_named h (Except.ok.inj hp)
    exact ⟨q, hq, by rw [hqs]⟩

/-- What a reference means is one of the parameters. -/
theorem mem_of_referredParam {ps : List Parameter} {reference : String} {p : Parameter}
    (h : referredParam ps reference = .ok (some p)) : p ∈ ps := by
  unfold referredParam at h
  dsimp only at h
  split at h
  · split at h
    · cases h
    · exact List.mem_of_getElem? (Except.ok.inj h)
  · exact List.mem_of_find?_eq_some (Except.ok.inj h)

/-! ## 2. Links -/

/-- The links among the parameters of a method are those that were asked for: each from an array to another
parameter that is an integral primitive. -/
structure Linked (inline : DocOptions) (record : Option Record) (ps : List Parameter) : Prop where
  indices : ∀ (k : Nat) (p : Parameter), ps[k]? = some p → p.index = k
  free : ∀ p ∈ ps, p.lengthParam = none → lengthReference inline record p = none
  link : ∀ p ∈ ps, ∀ j, p.lengthParam = some j → ∃ reference q, lengthReference inline record p = some reference ∧
    referredParam ps reference = .ok (some q) ∧ ps[j]? = some q ∧ Countable p q

theorem linked_of_follows {inline : DocOptions} {record : Option Record} {ps qs : List Parameter}
    (hindices : ∀ (k : Nat) (p : Parameter), ps[k]? = some p → p.index = k) (hfree : ∀ p ∈ ps, p.lengthParam = none)
    (h : List.Forall₂ (Follows inline record ps) ps qs) : Linked inline record qs := by
  have halike : List.Forall₂ Alike ps qs := h.imp fun _ _ => Follows.alike
  have hat : ∀ (k : Nat) (q : Parameter), qs[k]? = some q → q.index = k := by
    intro k q hq
    obtain ⟨hk, rfl⟩ := List.getElem?_eq_some_iff.1 hq
    have hk' : k < ps.length := h.length_eq ▸ hk
    have hpq : Alike ps[k] qs[k] := halike.get hk' hk
    exact hpq.index.trans (hindices k _ (List.getElem?_eq_getElem hk'))
  refine ⟨hat, fun q hq hnone => ?_, fun q hq j hj => ?_⟩
  · obtain ⟨p, hp, hpq⟩ := exists_of_mem_forall₂ h hq
    cases hpq with
    | free hfree => exact hfree
    | linked => cases hnone
  · obtain ⟨p, hp, hpq⟩ := exists_of_mem_forall₂ h hq
    cases hpq with
    | free =>
      rw [hfree _ hp] at hj
      cases hj
    | @linked reference target hsome hfound hcount =>
      obtain rfl := Option.some.inj hj
      obtain ⟨target', htarget, hfound'⟩ := referredParam_alike halike hfound
      obtain ⟨i, hi⟩ := List.mem_iff_getElem?.1 (mem_of_referredParam hfound')
      refine ⟨reference, target', hsome, hfound', ?_, hcount.isArray, ?_, ?_, ?_⟩
      · rw [← htarget.index, hat i target' hi]
        exact hi
      · rw [htarget.index]
        exact hcount.other
      · rw [htarget.type]
        exact hcount.kind
      · rw [htarget.type]
        exact hcount.integral

/-! ## 3. Methods -/

theorem lengthParam_of_readParam {path : Path} {inline : DocOptions} {record : Option Record} {scope : Scope}
    {p : NativeParameter} {i : Nat} {q : Parameter} (h : readParam path inline record scope p i = .ok q) :
    q.lengthParam = none := by
  unfold readParam at h
  dsimp only at h
  split at h
  · obtain ⟨_, hthrow, -⟩ := ok_of_bind h
    exact (not_ok_throw hthrow).elim
  · obtain rfl := Except.ok.inj h
    rfl

theorem linked_of_readMethod {store : Store} {scope : Scope} {e : DeclaredClass} {d : NativeDecl}
    {n : NativeMethod} (h : readMethod store scope e d = .ok (.native n)) :
    ∃ inline, directivesOf e.path d.doc = .ok inline ∧ Linked inline (store.lookup n.identity) n.parameters := by
  unfold readMethod at h
  obtain ⟨inline, hinline, h⟩ := ok_of_bind h
  dsimp only at h
  split at h
  · cases Except.ok.inj h
  obtain ⟨_, -, h⟩ := ok_of_bind h
  obtain ⟨ps, hps, h⟩ := ok_of_bind h
  obtain ⟨qs, hqs, h⟩ := ok_of_bind h
  obtain rfl := Declared.native.inj (Except.ok.inj h)
  refine ⟨inline, hinline, ?_⟩
  have hfrom : List.Forall₂ (fun x p => ParamFrom scope x.1 x.2 p ∧ p.lengthParam = none) d.parameters.zipIdx ps :=
    (forall₂_of_mapM hps).imp fun x p hp => ⟨paramFrom_of_readParam hp, lengthParam_of_readParam hp⟩
  have hlength : ps.length = d.parameters.length := by
    rw [← hfrom.length_eq, List.length_zipIdx]
  have hfollows : List.Forall₂ (Follows inline (store.lookup (identityOf scope e.name d)) ps) ps qs := by
    have hzip := List.forall₂_map_left_iff.2 ((forall₂_of_mapM hqs).imp fun x q hq => follows_of_linkLength hq)
    rwa [List.map_fst_zip (Nat.le_of_eq hlength)] at hzip
  refine linked_of_follows (fun k p hp => ?_) (fun p hp => ?_) hfollows
  · obtain ⟨hk, rfl⟩ := List.getElem?_eq_some_iff.1 hp
    have hk' : k < d.parameters.zipIdx.length := hfrom.length_eq ▸ hk
    have hindex := (hfrom.get hk' hk).1.index
    rw [List.get_eq_getElem, List.get_eq_getElem, List.getElem_zipIdx] at hindex
    exact hindex.trans (Nat.zero_add k)
  · obtain ⟨x, -, hx⟩ := exists_of_mem_forall₂ hfrom hp
    exact hx.2

/-- **The links of a model are sound.** The parameters of a native method are numbered by their places, and the links
among them are those that its doc comment or the store asks for. -/
theorem linked_of_modelOf {store : Store} {files : List OutlinedFile} {m : Model} (h : modelOf store files = .ok m)
    {n : NativeMethod} (hn : n ∈ m.natives) :
    ∃ c ∈ classesOf files, ∃ d ∈ c.outline.natives, Origin c d n ∧ ∃ inline,
      directivesOf c.path d.doc = .ok inline ∧ Linked inline (store.lookup n.identity) n.parameters := by
  unfold modelOf at h
  obtain ⟨known, hknown, h⟩ := ok_of_bind h
  obtain ⟨os, hos, h⟩ := ok_of_bind h
  obtain rfl := Except.ok.inj h
  obtain ⟨es, hsub, hunits, -⟩ := units_of_unitOfs (forall₂_of_mapM hos)
  obtain ⟨u, hu, hn⟩ := List.mem_flatMap.1 hn
  obtain ⟨e, he, hue⟩ := exists_of_mem_forall₂ hunits hu
  obtain ⟨rs, structs, hrs, -, rfl⟩ := of_unitOf_some hue
  obtain ⟨r, hr, hrn⟩ := List.mem_filterMap.1 hn
  obtain ⟨d, hd, hdr⟩ := exists_of_mem_forall₂ (forall₂_of_mapM hrs) hr
  obtain ⟨c, -, hc⟩ := List.mem_filterMap.1 (hsub.subset he)
  obtain ⟨hlookup, -⟩ := Option.filter_eq_some_iff.1 hc
  obtain ⟨k, hk, directives, rfl⟩ := (knownFrom_of_classesByName hknown _ (mem_of_lookup hlookup)).declared
  cases r with
  | left => cases hrn
  | native n' =>
    obtain rfl := Option.some.inj hrn
    obtain ⟨inline, hinline, hlinked⟩ := linked_of_readMethod hdr
    cases declaredFrom_of_readMethod hdr with
    | native hfrom =>
      have horigin : Origin k d n' := by
        refine ⟨?_, ?_, hfrom.position, hfrom.names⟩
        · rw [hfrom.identity]
          rfl
        · rw [NativeMethod.name, hfrom.identity]
          rfl
      exact ⟨k, hk, d, hd, horigin, inline, hinline, hlinked⟩

end NativeGlue.Source
