import NativeGlue.Overlay.File
import NativeGlue.Proofs.Fallible
import NativeGlue.Proofs.Keyed
import NativeGlue.Proofs.Sorting

/-!
# Records joined

Joining is associative in every part of a record. In lists of parameters this rests on their order: an
ordered list is known by what it says about each reference (`Ordered.ext`), and two joined lists say about a
reference what both said, joined (`lookup_joinParamLists`). So records may be joined in groups, as long as
the one in the middle does not replace those before it (`Record.merge_merge`). Every record that is read
from a file is ordered and says where it comes from (`ReadFrom.sound`).
-/

namespace NativeGlue

/-! ## 1. Parts -/

theorem StructFlags.union_assoc (a b c : StructFlags) : a ∪ b ∪ c = a ∪ (b ∪ c) := by
  simp [Union.union, Bool.or_assoc]

namespace Overlay

theorem pick_assoc {α : Type} (a b c : Option α) : pick (pick a b) c = pick a (pick b c) := by
  cases c with
  | none => rfl
  | some z => rfl

theorem joinParams_assoc (a b c : ParamOptions) :
    joinParams (joinParams a b) c = joinParams a (joinParams b c) := by
  simp only [joinParams, ParamFlags.union_assoc, pick_assoc]

theorem joinMethods_assoc (a b c : MethodOptions) :
    joinMethods (joinMethods a b) c = joinMethods a (joinMethods b c) := by
  simp only [joinMethods, MethodFlags.union_assoc, pick_assoc]

theorem joinStructs_assoc (a b c : StructOptions) :
    joinStructs (joinStructs a b) c = joinStructs a (joinStructs b c) := by
  simp only [joinStructs, StructFlags.union_assoc, pick_assoc, Bool.or_assoc]

theorem joinFragments_assoc (a b c : AddedCode) :
    joinFragments (joinFragments a b) c = joinFragments a (joinFragments b c) := by
  simp only [joinFragments, pick_assoc]

theorem mem_joinLists {a b : List String} {x : String} : x ∈ joinLists a b ↔ x ∈ a ∨ x ∈ b := by
  induction b generalizing a with
  | nil => simp [joinLists]
  | cons y b ih =>
    rw [joinLists, List.foldl_cons, ← joinLists, ih]
    split
    · rename_i hy
      have hy := List.contains_iff_mem.1 hy
      refine ⟨fun h => h.imp_right (List.mem_cons_of_mem _), fun h => ?_⟩
      rcases h with h | h
      · exact .inl h
      rcases List.mem_cons.1 h with rfl | h
      · exact .inl hy
      · exact .inr h
    · rw [List.mem_append, List.mem_singleton, List.mem_cons, or_assoc]

/-- An item that is added to the second list is added to the joined ones. -/
theorem joinLists_concat (a b : List String) (x : String) :
    joinLists a (if b.contains x then b else b ++ [x]) =
      if (joinLists a b).contains x then joinLists a b else joinLists a b ++ [x] := by
  by_cases hx : x ∈ b
  · rw [if_pos (List.contains_iff_mem.2 hx),
      if_pos (List.contains_iff_mem.2 (mem_joinLists.2 (.inr hx)))]
  · rw [if_neg (mt List.contains_iff_mem.1 hx), joinLists, List.foldl_append]
    rfl

theorem joinLists_assoc (a b c : List String) :
    joinLists (joinLists a b) c = joinLists a (joinLists b c) := by
  induction c generalizing b with
  | nil => rfl
  | cons x c ih =>
    calc joinLists (joinLists a b) (x :: c)
        = joinLists (if (joinLists a b).contains x then joinLists a b else joinLists a b ++ [x]) c := rfl
      _ = joinLists (joinLists a (if b.contains x then b else b ++ [x])) c := by rw [joinLists_concat]
      _ = joinLists a (joinLists (if b.contains x then b else b ++ [x]) c) := ih _
      _ = joinLists a (joinLists b (x :: c)) := rfl

theorem joinFields_assoc (a b c : FieldOptions) :
    joinFields (joinFields a b) c = joinFields a (joinFields b c) := by
  simp only [joinFields, FieldFlags.union_assoc, pick_assoc, joinLists_assoc]

/-- A place as joining reads it: an empty one is none. -/
def told (o : Option String) : Option String := o.filter fun s => !s.isEmpty

/-- Places are joined as far as they are told. -/
theorem joinOrigins_eq (a b : Option String) :
    joinOrigins a b = Option.merge (fun s u => s ++ ", " ++ u) (told a) (told b) := by
  have hplaces : ([a, b].filterMap fun o => o.filter fun s => !s.isEmpty) =
      (told a).toList ++ (told b).toList := by
    show List.filterMap told [a, b] = _
    cases ha : told a <;> cases hb : told b <;> simp [ha, hb]
  rw [joinOrigins, hplaces]
  cases told a <;> cases told b <;> rfl

/-- No joined place is empty. -/
theorem told_joinOrigins (a b : Option String) : told (joinOrigins a b) = joinOrigins a b := by
  have htold : ∀ {o : Option String} {s : String}, told o = some s → s ≠ "" := by
    intro o s h he
    subst he
    simp [told, Option.filter_eq_some_iff] at h
  rw [joinOrigins_eq]
  cases ha : told a with
  | none =>
    cases hb : told b with
    | none => rfl
    | some u => simp [told, Option.filter, htold hb]
  | some s =>
    cases hb : told b with
    | none => simp [told, Option.filter, htold ha]
    | some u => simp [told, Option.filter, htold ha]

theorem joinOrigins_assoc (a b c : Option String) :
    joinOrigins (joinOrigins a b) c = joinOrigins a (joinOrigins b c) := by
  rw [joinOrigins_eq (joinOrigins a b), joinOrigins_eq a (joinOrigins b c), told_joinOrigins,
    told_joinOrigins, joinOrigins_eq, joinOrigins_eq]
  cases told a <;> cases told b <;> cases told c <;> simp [String.append_assoc]

/-- A place that is told. -/
def IsPlace (o : Option String) : Prop := ∃ s, o = some s ∧ s ≠ ""

theorem joinOrigins_of_isPlace {s u : String} (hs : s ≠ "") (hu : u ≠ "") :
    joinOrigins (some s) (some u) = some (s ++ ", " ++ u) := by
  rw [joinOrigins_eq]
  simp [told, Option.filter, hs, hu]

theorem IsPlace.join {a b : Option String} (ha : IsPlace a) (hb : IsPlace b) :
    IsPlace (joinOrigins a b) := by
  obtain ⟨s, rfl, hs⟩ := ha
  obtain ⟨u, rfl, hu⟩ := hb
  refine ⟨_, joinOrigins_of_isPlace hs hu, fun h => hu ?_⟩
  exact (String.append_eq_empty_iff.1 h).2

/-- What is joined to a place is longer. -/
theorem joinOrigins_ne {a b : Option String} (ha : IsPlace a) (hb : IsPlace b) : joinOrigins a b ≠ b := by
  obtain ⟨s, rfl, hs⟩ := ha
  obtain ⟨u, rfl, hu⟩ := hb
  rw [joinOrigins_of_isPlace hs hu]
  intro h
  have hlength := congrArg String.length (Option.some.inj h)
  rw [String.length_append, String.length_append] at hlength
  have hcomma : (", " : String).length = 2 := rfl
  omega

/-! ## 2. Parameters -/

/-- The references are in order, and each occurs once. -/
def Ordered (ps : List (String × ParamOptions)) : Prop := ps.Pairwise fun p q => p.1 < q.1

instance (ps : List (String × ParamOptions)) : Decidable (Ordered ps) :=
  inferInstanceAs (Decidable (List.Pairwise _ _))

section

variable {a b ps : List (String × ParamOptions)}

theorem Ordered.nodup (h : Ordered ps) : (ps.map (·.1)).Nodup := by
  rw [List.Nodup, List.pairwise_map]
  refine List.Pairwise.imp (fun {p q} hpq => ?_) h
  exact fun he => String.lt_irrefl _ (he ▸ hpq)

/-- **Ordered lists that say the same about each reference are the same.** -/
theorem Ordered.ext (ha : Ordered a) (hb : Ordered b) (h : ∀ ref, a.lookup ref = b.lookup ref) :
    a = b := by
  have hmem : ∀ p, p ∈ a ↔ p ∈ b := by
    intro p
    refine ⟨fun hp => mem_of_lookup ?_, fun hp => mem_of_lookup ?_⟩
    · rw [← h]
      exact lookup_of_mem ha.nodup hp
    · rw [h]
      exact lookup_of_mem hb.nodup hp
  have hperm : a.Perm b := (List.perm_ext_iff_of_nodup ha.nodup.of_map hb.nodup.of_map).2 hmem
  exact hperm.eq_of_pairwise (fun p q _ _ hpq hqp => absurd hqp (String.lt_asymm hpq)) ha hb

/-- What is put comes under its reference. -/
theorem mem_putParam {ref : String} {d : ParamOptions} {p : String × ParamOptions}
    (hp : p ∈ putParam ref d ps) : p.1 = ref ∨ p ∈ ps := by
  fun_induction putParam ref d ps with
  | case1 => exact .inl (congrArg Prod.fst (List.mem_singleton.1 hp))
  | case2 e rest =>
    rcases List.mem_cons.1 hp with rfl | hp
    · exact .inl rfl
    · exact .inr (List.mem_cons_of_mem _ hp)
  | case3 r e rest hne hlt =>
    rcases List.mem_cons.1 hp with rfl | hp
    · exact .inl rfl
    · exact .inr hp
  | case4 r e rest hne hlt ih =>
    rcases List.mem_cons.1 hp with rfl | hp
    · exact .inr List.mem_cons_self
    · exact (ih hp).imp_right (List.mem_cons_of_mem _)

theorem Ordered.putParam (h : Ordered ps) (ref : String) (d : ParamOptions) :
    Ordered (putParam ref d ps) := by
  fun_induction Overlay.putParam ref d ps with
  | case1 => exact List.pairwise_singleton _ _
  | case2 e rest =>
    rw [Ordered, List.pairwise_cons] at h ⊢
    exact h
  | case3 r e rest hne hlt =>
    refine List.Pairwise.cons (fun q hq => ?_) h
    rcases List.mem_cons.1 hq with rfl | hq
    · exact hlt
    · exact String.lt_trans hlt ((List.pairwise_cons.1 h).1 q hq)
  | case4 r e rest hne hlt ih =>
    rw [Ordered, List.pairwise_cons] at h
    refine List.Pairwise.cons (fun q hq => ?_) (ih h.2)
    rcases mem_putParam hq with rfl | hq
    · exact ((string_trichotomy q.1 r).resolve_left hlt).resolve_left hne
    · exact h.1 q hq

/-- A reference that comes before all of an ordered list is not in it. -/
theorem Ordered.lookup_of_lt {r : String} {e : ParamOptions} (h : Ordered ((r, e) :: ps)) {ref : String}
    (hr : ref < r) : List.lookup ref ((r, e) :: ps) = none := by
  refine lookup_eq_none.2 fun hm => ?_
  obtain ⟨p, hp, rfl⟩ := List.mem_map.1 hm
  rcases List.mem_cons.1 hp with rfl | hp
  · exact String.lt_irrefl _ hr
  · exact String.lt_asymm hr ((List.pairwise_cons.1 h).1 p hp)

theorem lookup_putParam (ref : String) (d : ParamOptions) (q : String) :
    (Overlay.putParam ref d ps).lookup q = if q = ref then some d else ps.lookup q := by
  fun_induction Overlay.putParam ref d ps with
  | case1 => exact lookup_cons_ite ref d [] q
  | case2 e rest =>
    rw [lookup_cons_ite, lookup_cons_ite]
    split <;> rfl
  | case3 r e rest hne hlt => exact lookup_cons_ite ref d _ q
  | case4 r e rest hne hlt ih =>
    rw [lookup_cons_ite, lookup_cons_ite, ih]
    by_cases hq : q = r
    · rw [if_pos hq, if_pos hq, if_neg fun he => hne (he.symm.trans hq)]
    · rw [if_neg hq, if_neg hq]

/-- To insert is to put what is there joined to what is new. -/
theorem Ordered.insertParam (h : Ordered ps) (ref : String) (d : ParamOptions) :
    insertParam ref d ps = Overlay.putParam ref (((ps.lookup ref).map (joinParams · d)).getD d) ps := by
  fun_induction Overlay.insertParam ref d ps with
  | case1 => rfl
  | case2 e rest => simp [Overlay.putParam]
  | case3 r e rest hne hlt => rw [h.lookup_of_lt hlt, Overlay.putParam, if_neg hne, if_pos hlt]; rfl
  | case4 r e rest hne hlt ih =>
    rw [ih (List.pairwise_cons.1 h).2, Overlay.putParam, if_neg hne, if_neg hlt, lookup_cons_ite,
      if_neg hne]

theorem Ordered.joinParamLists (ha : Ordered a) (b : List (String × ParamOptions)) :
    Ordered (Overlay.joinParamLists a b) := by
  induction b generalizing a with
  | nil => exact ha
  | cons p b ih =>
    rw [Overlay.joinParamLists, List.foldl_cons]
    dsimp only
    rw [ha.insertParam]
    exact ih (ha.putParam _ _)

/-- **Joined lists say about a reference what both lists say, joined.** -/
theorem lookup_joinParamLists (ha : Ordered a) (hb : Ordered b) (ref : String) :
    (joinParamLists a b).lookup ref = Option.merge joinParams (a.lookup ref) (b.lookup ref) := by
  induction b generalizing a with
  | nil =>
    rw [joinParamLists, List.foldl_nil, List.lookup_nil, Option.merge_none_right]
  | cons p b ih =>
    have hnone : b.lookup p.1 = none := by
      refine lookup_eq_none.2 fun hm => ?_
      obtain ⟨q, hq, hqp⟩ := List.mem_map.1 hm
      exact String.lt_irrefl _ (hqp ▸ (List.pairwise_cons.1 hb).1 q hq)
    have hput : Ordered (insertParam p.1 p.2 a) := by
      rw [ha.insertParam]
      exact ha.putParam _ _
    calc (joinParamLists a (p :: b)).lookup ref
        = (joinParamLists (insertParam p.1 p.2 a) b).lookup ref := rfl
      _ = Option.merge joinParams ((insertParam p.1 p.2 a).lookup ref) (b.lookup ref) :=
        ih hput (List.pairwise_cons.1 hb).2
      _ = Option.merge joinParams (a.lookup ref) ((p :: b).lookup ref) := by
        rw [ha.insertParam, lookup_putParam, lookup_cons_ite]
        by_cases hr : ref = p.1
        · subst hr
          rw [if_pos rfl, if_pos rfl, hnone]
          cases a.lookup p.1 with
          | none => rfl
          | some e => rfl
        · rw [if_neg hr, if_neg hr]

theorem joinParamLists_assoc {c : List (String × ParamOptions)} (ha : Ordered a) (hb : Ordered b)
    (hc : Ordered c) :
    joinParamLists (joinParamLists a b) c = joinParamLists a (joinParamLists b c) := by
  refine ((ha.joinParamLists b).joinParamLists c).ext (ha.joinParamLists _) fun ref => ?_
  rw [lookup_joinParamLists (ha.joinParamLists b) hc, lookup_joinParamLists ha hb,
    lookup_joinParamLists ha (hb.joinParamLists c), lookup_joinParamLists hb hc]
  cases a.lookup ref <;> cases b.lookup ref <;> cases c.lookup ref <;>
    simp [Option.merge, joinParams_assoc]

end

/-! ## 3. Records -/

/-- A record as files give it: its parameters are ordered, and it tells where it comes from. -/
structure Record.Sound (r : Record) : Prop where
  ordered : Ordered r.params
  place : IsPlace r.origin

namespace Record

theorem Sound.merge {b r : Record} (hb : b.Sound) (hr : r.Sound) : (b.merge r).Sound := by
  unfold Record.merge
  split
  · exact hr
  · exact ⟨hb.ordered.joinParamLists _, hb.place.join hr.place⟩

theorem merge_of_replace (b : Record) {r : Record} (h : r.replace = true) : b.merge r = r := by
  rw [Record.merge, if_pos h]

theorem replace_merge (b : Record) {r : Record} (h : r.replace = false) :
    (b.merge r).replace = false := by
  rw [Record.merge, h]
  rfl

/-- Joining is associative where the later records replace nothing. -/
theorem merge_assoc {a b c : Record} (ha : Ordered a.params) (hb : Ordered b.params)
    (hc : Ordered c.params) (hb' : b.replace = false) (hc' : c.replace = false) :
    (a.merge b).merge c = a.merge (b.merge c) := by
  have hbc := replace_merge b hc'
  simp only [Record.merge, hb', hc', Bool.false_eq_true, if_false, joinMethods_assoc,
    joinParamLists_assoc ha hb hc, joinFields_assoc, joinStructs_assoc, joinFragments_assoc,
    joinOrigins_assoc]

/-- **Joining is associative** unless the record in the middle replaces what comes before it. What the
last one replaces does not matter: it drops the first two in either order. -/
theorem merge_merge {a b c : Record} (ha : Ordered a.params) (hb : Ordered b.params)
    (hc : Ordered c.params) (hkeep : b.replace = false) :
    (a.merge b).merge c = a.merge (b.merge c) := by
  by_cases hc' : c.replace = true
  · rw [merge_of_replace _ hc', merge_of_replace b hc', merge_of_replace a hc']
  · exact merge_assoc ha hb hc hkeep (Bool.eq_false_iff.2 hc')

/-- Three records about one method: platforms come twice, one says nothing of its place, and one replaces
what comes before it. -/
def paintings : Record × Record × Record :=
  ({ key := "OS.paint", kind := .method, method := { cast := some "(A)" }
     params := [("0", { cast := some "(P)" }), ("p", {})]
     field := { platforms := ["gtk", "gtk", "cocoa"] }, replace := true },
    { key := "OS.paint(J)", kind := .method, method := { accessor := some "draw" }
      params := [("0", { ownership := some .pinned }), ("q", {})]
      field := { platforms := ["cocoa", "win32", "win32"] }, origin := some "" },
    { key := "OS.paint(J)", kind := .method, method := { cast := some "(C)" }
      params := [("a", {}), ("p", { cast := some "(Q)" })]
      field := { platforms := ["win32", "gtk"] }, origin := some "c.yml" })

theorem merge_merge_paintings :
    (paintings.1.merge paintings.2.1).merge paintings.2.2 =
        paintings.1.merge (paintings.2.1.merge paintings.2.2) ∧
      (paintings.1.merge (paintings.2.1.merge paintings.2.2)).field.platforms =
        ["gtk", "gtk", "cocoa", "win32"] ∧
      (paintings.1.merge (paintings.2.1.merge paintings.2.2)).params.map (·.1) = ["0", "a", "p", "q"] ∧
      (paintings.1.merge (paintings.2.1.merge paintings.2.2)).origin = some "c.yml" :=
  ⟨merge_merge (by decide) (by decide) (by decide) rfl, by decide, by decide, by decide⟩

/-- A record that is joined to another one is not that one. -/
theorem merge_ne {b r : Record} (hb : b.Sound) (hr : r.Sound) (h : r.replace = false) :
    b.merge r ≠ r := by
  intro he
  refine joinOrigins_ne hb.place hr.place ?_
  have horigin := congrArg Record.origin he
  rw [Record.merge, h] at horigin
  exact horigin

end Record

/-! ## 4. Files -/

/-- A record and the entry of an override file that it was read from. -/
inductive ReadFrom (v : Data.Value) (r : Record) : Prop
  | method {space name : String} (h : readMethod space name v = .ok r)
  | field {space name : String} (h : readField space name v = .ok r)
  | struct {space : String} (h : readStruct space v = .ok r)

/-- Every record of a namespace was read from an entry. -/
theorem exists_entry_of_namespace {space : String} {v : Data.Value} {rs : List Record}
    (h : readNamespace space v = .ok rs) {r : Record} (hr : r ∈ rs) : ∃ entry, ReadFrom entry r := by
  unfold readNamespace at h
  split at h
  · obtain ⟨_, -, h⟩ := ok_of_bind h
    obtain ⟨_, -, h⟩ := ok_of_bind h
    obtain ⟨methods, hmethods, h⟩ := ok_of_bind h
    obtain ⟨_, -, h⟩ := ok_of_bind h
    obtain ⟨fields, hfields, h⟩ := ok_of_bind h
    have hmembers : r ∈ methods ++ fields → ∃ entry, ReadFrom entry r := by
      intro hr
      rcases List.mem_append.1 hr with hr | hr
      · obtain ⟨x, -, hx⟩ := exists_of_mem_forall₂ (forall₂_of_mapM hmethods) hr
        obtain ⟨_, -, hx⟩ := ok_of_bind hx
        exact ⟨x.2, .method hx⟩
      · obtain ⟨x, -, hx⟩ := exists_of_mem_forall₂ (forall₂_of_mapM hfields) hr
        obtain ⟨_, -, hx⟩ := ok_of_bind hx
        exact ⟨x.2, .field hx⟩
    dsimp only at h
    split at h
    · obtain ⟨structs, hstructs, h⟩ := ok_of_bind h
      obtain rfl := Except.ok.inj hstructs
      obtain rfl := Except.ok.inj h
      rw [List.append_nil] at hr
      exact hmembers hr
    · rename_i entry _
      obtain ⟨x, hx, h⟩ := ok_of_bind h
      obtain ⟨structs, hstructs, h⟩ := ok_of_bind h
      obtain rfl := Except.ok.inj hstructs
      obtain rfl := Except.ok.inj h
      rcases List.mem_append.1 hr with hr | hr
      · exact hmembers hr
      · obtain rfl := List.mem_singleton.1 hr
        exact ⟨entry, .struct hx⟩
  · cases h

/-- Every record of a file was read from an entry. -/
theorem exists_entry_of_recordsOf {stem : String} {v : Data.Value} {rs : List Record}
    (h : recordsOf stem v = .ok rs) {r : Record} (hr : r ∈ rs) : ∃ entry, ReadFrom entry r := by
  unfold recordsOf at h
  split at h
  · obtain rfl := Except.ok.inj h
    cases hr
  · obtain ⟨found, hfound, h⟩ := ok_of_bind h
    obtain rfl := Except.ok.inj h
    obtain ⟨part, hpart, hr⟩ := List.mem_flatten.1 hr
    obtain ⟨x, -, hx⟩ := exists_of_mem_forall₂ (forall₂_of_mapM hfound) hpart
    obtain ⟨_, -, hx⟩ := ok_of_bind hx
    exact exists_entry_of_namespace hx hr
  · cases h

/-- The parameters of a method are ordered. -/
theorem ordered_of_readParams {key : String} {v : Data.Value} {ps : List (String × ParamOptions)}
    (h : readParams key v = .ok ps) : Ordered ps := by
  obtain ⟨pairs, -, h⟩ := ok_of_bind h
  refine keeps_of_foldlM (P := Ordered) (fun a _ acc next hacc hnext => ?_) List.Pairwise.nil h
  obtain ⟨_, -, hnext⟩ := ok_of_bind hnext
  obtain ⟨d, -, hnext⟩ := ok_of_bind hnext
  obtain rfl := Except.ok.inj hnext
  exact hacc.putParam _ _

theorem ReadFrom.ordered {v : Data.Value} {r : Record} (h : ReadFrom v r) : Ordered r.params := by
  cases h with
  | method h =>
    iterate 2 obtain ⟨_, -, h⟩ := ok_of_bind h
    obtain ⟨params, hparams, h⟩ := ok_of_bind h
    iterate 7 obtain ⟨_, -, h⟩ := ok_of_bind h
    obtain rfl := Except.ok.inj h
    exact ordered_of_readParams hparams
  | field h =>
    iterate 8 obtain ⟨_, -, h⟩ := ok_of_bind h
    obtain rfl := Except.ok.inj h
    exact List.Pairwise.nil
  | struct h =>
    iterate 5 obtain ⟨_, -, h⟩ := ok_of_bind h
    obtain rfl := Except.ok.inj h
    exact List.Pairwise.nil

theorem toString_ne_empty (p : Path) : p.toString ≠ "" := by
  unfold Path.toString
  dsimp only
  split
  · decide
  · rename_i hne
    exact fun he => hne (beq_iff_eq.2 he)

/-- Every record of a file was read from an entry, and tells the path of the file. -/
theorem exists_entry_of_readFile {t : FileTree} {path : Path} {rs : List Record}
    (h : readFile t path = .ok rs) {r : Record} (hr : r ∈ rs) :
    ∃ entry x, ReadFrom entry x ∧ r = { x with origin := some path.toString } := by
  unfold readFile at h
  split at h
  · cases h
  split at h
  · cases h
  split at h
  · cases h
  · cases h
  split at h
  · cases h
  · cases h
  rename_i hrecords
  obtain rfl := Except.ok.inj h
  obtain ⟨x, hx, rfl⟩ := List.mem_map.1 hr
  obtain ⟨entry, hentry⟩ := exists_entry_of_recordsOf hrecords hx
  exact ⟨entry, x, hentry, rfl⟩

/-- **Every record that was read from an entry is sound** once it tells the path of its file. -/
theorem ReadFrom.sound {entry : Data.Value} {x : Record} (h : ReadFrom entry x) (path : Path) :
    ({ x with origin := some path.toString } : Record).Sound :=
  ⟨h.ordered, path.toString, rfl, toString_ne_empty path⟩

end Overlay

end NativeGlue
