import Mathlib.Data.List.Infix
import NativeGlue.Text.Substring

/-!
# Where a pattern does not occur

Generated code is put together from texts of its own and texts that come from outside. A pattern that
occurs in none of the parts may still occur where two of them meet, unless the second part begins with
a character that stands in the pattern at most in front (`free_append_cons`). Where a pattern does
occur, it may still go on in known ways only (`Only`).
-/

namespace NativeGlue.Text

/-! ## The characters of a text

What holds of all characters can be decided too, by going over every one there is. The instances for
the characters of a list come first. -/

instance decidableForallMem {q : Char → Prop} [DecidablePred q] (s : List Char) :
    Decidable (∀ c ∈ s, q c) :=
  List.decidableBAll q s

instance decidableExistsMem {q : Char → Prop} [DecidablePred q] (s : List Char) :
    Decidable (∃ c ∈ s, q c) :=
  List.decidableBEx q s

/-! ## Patterns -/

/-- A pattern does not occur in a text. -/
def Free (p s : List Char) : Prop := ¬ p <:+: s

instance (p s : List Char) : Decidable (Free p s) := inferInstanceAs (Decidable (¬ p <:+: s))

/-- Looking for an occurrence finds one if there is one. -/
theorem occursIn_iff {p s : List Char} : occursIn p s = true ↔ p <:+: s := by
  have found : ∀ s : List Char, p <:+: s → (breakOn? p s).isSome = true := by
    intro s
    induction s with
    | nil =>
      intro h
      rw [breakOn?, List.infix_nil.1 h]
      rfl
    | cons c r ih =>
      intro h
      rw [breakOn?]
      split
      · rfl
      · rename_i hn
        rcases List.infix_cons_iff.1 h with ⟨t, ht⟩ | h
        · rw [rest?_eq_some_iff.2 ht.symm] at hn
          cases hn
        · rw [Option.isSome_map]
          exact ih h
  refine ⟨fun h => ?_, found s⟩
  obtain ⟨⟨a, b⟩, hab⟩ := Option.isSome_iff_exists.1 h
  exact ⟨a, b, (eq_of_breakOn? hab).symm⟩

/-! ## Parts of a text -/

/-- Texts that are cut at the first occurrence of a character are the same piece by piece. -/
theorem eq_of_append_cons {c : Char} {a a' b b' : List Char} (h : a ++ c :: b = a' ++ c :: b') (ha : c ∉ a)
    (ha' : c ∉ a') : a = a' ∧ b = b' := by
  have nothing : ∀ {e x y : List Char}, c :: x = e ++ c :: y → c ∉ e → e = [] := by
    intro e x y he hc
    cases e with
    | nil => rfl
    | cons d e =>
      obtain ⟨rfl, -⟩ := List.cons.inj he
      exact absurd List.mem_cons_self hc
  rcases List.append_eq_append_iff.1 h with ⟨e, rfl, he⟩ | ⟨e, rfl, he⟩
  · obtain rfl := nothing he fun hc => ha' (List.mem_append_right _ hc)
    exact ⟨(List.append_nil a).symm, (List.cons.inj he).2⟩
  · obtain rfl := nothing he fun hc => ha (List.mem_append_right _ hc)
    exact ⟨List.append_nil a', (List.cons.inj he).2.symm⟩

section

variable {d : Char} {ps : List Char}

theorem Free.of_part {p s t : List Char} (h : Free p s) (ht : t <:+: s) : Free p t :=
  fun hp => h (hp.trans ht)

/-- A longer pattern occurs in fewer texts. -/
theorem Free.longer {p q s : List Char} (h : Free p s) (hq : p <:+: q) : Free q s :=
  fun hs => h (hq.trans hs)

/-- A text without one of the characters of a pattern is free of it. -/
theorem Free.of_not_mem {p s : List Char} {c : Char} (hp : c ∈ p) (hs : c ∉ s) : Free p s :=
  fun h => hs (h.subset hp)

theorem Free.not_mem {s : List Char} {c : Char} (h : Free [c] s) : c ∉ s := by
  intro hc
  obtain ⟨a, b, rfl⟩ := List.append_of_mem hc
  exact h ⟨a, b, by rw [List.append_assoc, List.singleton_append]⟩

/-- **Two texts are free of a pattern together if each of them is**, where the second begins with a
character that stands in the pattern at most in front. -/
theorem free_append_cons {c : Char} (h : c ∉ ps) (x y : List Char) :
    Free (d :: ps) (x ++ c :: y) ↔ Free (d :: ps) x ∧ Free (d :: ps) (c :: y) := by
  refine ⟨fun hf => ⟨hf.of_part List.infix_append_left, hf.of_part List.infix_append_right⟩, ?_⟩
  rintro ⟨hx, hy⟩ hp
  rcases List.infix_append_iff_ne_nil.1 hp with hp | hp | ⟨a, b, ha, hb, he, hax, hbx⟩
  · exact hx hp
  · exact hy hp
  · obtain ⟨e, a, rfl⟩ := List.exists_cons_of_ne_nil ha
    obtain ⟨f, b, rfl⟩ := List.exists_cons_of_ne_nil hb
    obtain rfl : f = c := (List.cons_prefix_cons.1 hbx).1
    rw [List.cons_append] at he
    rw [(List.cons.inj he).2] at h
    exact h (List.mem_append_right a List.mem_cons_self)

end

/-! ## Texts that keep others apart -/

section

variable {p : List Char} {s t : String}

/-- No occurrence of a pattern ends in a beginning of a text. -/
def Opens (p : List Char) (s : String) : Prop := ∀ a ∈ p.tails, a <+: s.toList → a = []

/-- No occurrence of a pattern begins in an end of a text. -/
def Shuts (p : List Char) (s : String) : Prop := ∀ a ∈ p.inits, a <:+ s.toList → a = []

instance (p : List Char) (s : String) : Decidable (Opens p s) :=
  inferInstanceAs (Decidable (∀ a ∈ p.tails, a <+: s.toList → a = []))

instance (p : List Char) (s : String) : Decidable (Shuts p s) :=
  inferInstanceAs (Decidable (∀ a ∈ p.inits, a <:+ s.toList → a = []))

/-- Two texts are free of a pattern together if no occurrence can reach from one into the other. -/
theorem Free.append (hs : Free p s.toList) (ht : Free p t.toList) (h : Shuts p s ∨ Opens p t) :
    Free p (s ++ t).toList := by
  rw [String.toList_append]
  intro hp
  rcases List.infix_append_iff_ne_nil.1 hp with hp | hp | ⟨a, b, ha, hb, he, has, hbt⟩
  · exact hs hp
  · exact ht hp
  · rcases h with h | h
    · exact ha (h a ((List.mem_inits _ _).2 (he ▸ List.prefix_append a b)) has)
    · exact hb (h b ((List.mem_tails _ _).2 (he ▸ List.suffix_append a b)) hbt)

/-- Parts of a text are free of what the text is free of. -/
theorem Free.left (h : Free p (s ++ t).toList) : Free p s.toList := by
  rw [String.toList_append] at h
  exact h.of_part List.infix_append_left

theorem Free.right (h : Free p (s ++ t).toList) : Free p t.toList := by
  rw [String.toList_append] at h
  exact h.of_part List.infix_append_right

theorem Shuts.append (hs : Shuts p s) (ht : Shuts p t) : Shuts p (s ++ t) := by
  intro a hp ha
  rw [String.toList_append] at ha
  rcases List.suffix_or_suffix_of_suffix ha (List.suffix_append s.toList t.toList) with hat | ⟨b, rfl⟩
  · exact ht a hp hat
  · have hb : b ∈ p.inits :=
      (List.mem_inits _ _).2 ((List.prefix_append _ _).trans ((List.mem_inits _ _).1 hp))
    obtain ⟨x, hx⟩ := ha
    rw [← List.append_assoc] at hx
    obtain rfl := hs b hb ⟨x, List.append_cancel_right hx⟩
    exact ht _ hp (List.suffix_refl _)

/-- A text that keeps a pattern from reaching across it. -/
structure Seal (p : List Char) (s : String) : Prop where
  free : Free p s.toList
  opens : Opens p s
  shuts : Shuts p s
  large : ¬ s.toList <:+: p

instance (p : List Char) (s : String) : Decidable (Seal p s) :=
  decidable_of_iff (Free p s.toList ∧ Opens p s ∧ Shuts p s ∧ ¬ s.toList <:+: p)
    ⟨fun h => ⟨h.1, h.2.1, h.2.2.1, h.2.2.2⟩, fun h => ⟨h.free, h.opens, h.shuts, h.large⟩⟩

/-- A text without occurrences that none can begin in. -/
structure Ended (p : List Char) (s : String) : Prop where
  free : Free p s.toList
  shuts : Shuts p s

instance (p : List Char) (s : String) : Decidable (Ended p s) :=
  decidable_of_iff (Free p s.toList ∧ Shuts p s) ⟨fun h => ⟨h.1, h.2⟩, fun h => ⟨h.free, h.shuts⟩⟩

theorem Seal.ended (h : Seal p s) : Ended p s := ⟨h.free, h.shuts⟩

/-- Behind such a text any text may stand. -/
theorem Ended.then (hs : Ended p s) (ht : Free p t.toList) : Free p (s ++ t).toList :=
  hs.free.append ht (.inl hs.shuts)

theorem Ended.append (hs : Ended p s) (ht : Ended p t) : Ended p (s ++ t) :=
  ⟨hs.then ht.free, hs.shuts.append ht.shuts⟩

/-- Nothing begins in the end of a text that ends with a seal. -/
theorem Seal.shuts_append (ht : Seal p t) (s : String) : Shuts p (s ++ t) := by
  intro a hp ha
  rw [String.toList_append] at ha
  rcases List.suffix_or_suffix_of_suffix ha (List.suffix_append s.toList t.toList) with hat | hta
  · exact ht.shuts a hp hat
  · exact absurd (hta.isInfix.trans ((List.mem_inits _ _).1 hp).isInfix) ht.large

/-- Behind any text a seal may stand. -/
theorem Free.seal (hs : Free p s.toList) (ht : Seal p t) : Ended p (s ++ t) :=
  ⟨hs.append ht.free (.inr ht.opens), ht.shuts_append s⟩

/-- A text in front of a seal makes a larger one. -/
theorem Seal.behind (ht : Seal p t) (hs : Free p s.toList) (ho : Opens p s)
    (hl : ¬ s.toList <:+: p) : Seal p (s ++ t) := by
  refine ⟨(hs.seal ht).free, fun a hp ha => ?_, (hs.seal ht).shuts, fun h => hl ?_⟩
  · rw [String.toList_append] at ha
    rcases List.prefix_or_prefix_of_prefix ha (List.prefix_append s.toList t.toList) with has | hsa
    · exact ho a hp has
    · exact absurd (hsa.isInfix.trans ((List.mem_tails _ _).1 hp).isInfix) hl
  · rw [String.toList_append] at h
    exact List.infix_append_left.trans h

/-- A text that shares no character with a pattern keeps it from reaching across. -/
theorem seal_of_disjoint (hp : p ≠ []) (hs : s.toList ≠ []) (h : ∀ c ∈ s.toList, c ∉ p) : Seal p s := by
  have empty : ∀ a : List Char, a <:+: p → a ⊆ s.toList → a = [] := by
    intro a hap has
    rw [List.eq_nil_iff_forall_not_mem]
    exact fun c hc => h c (has hc) (hap.subset hc)
  refine ⟨fun hi => hp (empty p (List.infix_refl _) hi.subset), fun a ha has => ?_,
    fun a ha has => ?_, fun hi => hs (empty _ hi (List.Subset.refl _))⟩
  · exact empty a ((List.mem_tails _ _).1 ha).isInfix has.subset
  · exact empty a ((List.mem_inits _ _).1 ha).isInfix has.subset

/-- **A text that is put together with seals holds a pattern only if one of its parts does.** -/
theorem free_intercalate {sep : String} (h : Seal p sep) {l : List String} :
    Free p (sep.intercalate l).toList ↔ ∀ a ∈ l, Free p a.toList := by
  induction l with
  | nil =>
    refine ⟨fun _ => nofun, fun _ => h.free.of_part ?_⟩
    rw [String.intercalate_nil]
    exact List.nil_infix
  | cons a l ih =>
    cases l with
    | nil =>
      rw [String.intercalate_singleton]
      exact (List.forall_mem_singleton (p := fun a : String => Free p a.toList)).symm
    | cons b l =>
      rw [String.intercalate_cons_cons, List.forall_mem_cons, ← ih]
      refine ⟨fun hf => ⟨hf.left.left, hf.right⟩, fun hf => ?_⟩
      exact (hf.1.seal h).then hf.2

end

/-! ## How a pattern goes on -/

/-- Wherever a pattern occurs in a text, it goes on in one of some ways. -/
def Only (p : List Char) (ways : List (List Char)) (s : List Char) : Prop :=
  ∀ t ∈ s.tails, p <+: t → ∃ w ∈ ways, p ++ w <+: t

instance (p : List Char) (ways : List (List Char)) (s : List Char) : Decidable (Only p ways s) :=
  inferInstanceAs (Decidable (∀ t ∈ s.tails, p <+: t → ∃ w ∈ ways, p ++ w <+: t))

section

variable {p : List Char} {ways : List (List Char)}

/-- A pattern that does not occur goes on in any way. -/
theorem Free.only {s : List Char} (h : Free p s) : Only p ways s := by
  intro t ht hp
  exact absurd (hp.isInfix.trans ((List.mem_tails _ _).1 ht).isInfix) h

theorem Only.mono {s : List Char} (h : Only p ways s) {more : List (List Char)} (hm : ways ⊆ more) :
    Only p more s := by
  intro t ht hp
  obtain ⟨w, hw, hwt⟩ := h t ht hp
  exact ⟨w, hm hw, hwt⟩

/-- A pattern goes on in known ways in two texts together if it does in each of them and does not
reach from one into the other. -/
theorem Only.append {s t : String} (hs : Only p ways s.toList) (ht : Only p ways t.toList)
    (h : Shuts p s ∨ Opens p t) : Only p ways (s ++ t).toList := by
  rw [String.toList_append]
  intro u hu hp
  rcases List.suffix_or_suffix_of_suffix ((List.mem_tails _ _).1 hu)
    (List.suffix_append s.toList t.toList) with hut | ⟨v, rfl⟩
  · exact ht u ((List.mem_tails _ _).2 hut) hp
  have hv : v <:+ s.toList := by
    obtain ⟨x, hx⟩ := (List.mem_tails _ _).1 hu
    rw [← List.append_assoc] at hx
    exact ⟨x, List.append_cancel_right hx⟩
  -- The occurrence lies in the first text, or else it reaches into the second.
  rcases List.prefix_or_prefix_of_prefix hp (List.prefix_append v t.toList) with hpv | ⟨w, rfl⟩
  · obtain ⟨w, hw, hwv⟩ := hs v ((List.mem_tails _ _).2 hv) hpv
    exact ⟨w, hw, hwv.trans (List.prefix_append _ _)⟩
  rcases h with h | h
  · obtain rfl : v = [] := h v ((List.mem_inits _ _).2 (List.prefix_append v w)) hv
    exact ht _ ((List.mem_tails _ _).2 (List.suffix_refl _)) hp
  · have hwt : w <+: t.toList := (List.prefix_append_right_inj v).1 hp
    obtain rfl : w = [] := h w ((List.mem_tails _ _).2 (List.suffix_append v w)) hwt
    rw [List.append_nil] at hs ⊢
    obtain ⟨x, hx, hxv⟩ := hs v ((List.mem_tails _ _).2 hv) (List.prefix_refl v)
    exact ⟨x, hx, hxv.trans (List.prefix_append _ _)⟩

/-- A pattern does not go on in a way that is not among the known ones. -/
theorem Only.free {s w : List Char} (h : Only p ways s)
    (hw : ∀ x ∈ ways, ¬ x <+: w ∧ ¬ w <+: x) : Free (p ++ w) s := by
  intro hp
  obtain ⟨t, hpt, hts⟩ := List.infix_iff_prefix_suffix.1 hp
  obtain ⟨x, hx, hxt⟩ := h t ((List.mem_tails _ _).2 hts) ((List.prefix_append p w).trans hpt)
  rcases List.prefix_or_prefix_of_prefix hxt hpt with hxw | hwx
  · exact (hw x hx).1 ((List.prefix_append_right_inj p).1 hxw)
  · exact (hw x hx).2 ((List.prefix_append_right_inj p).1 hwx)

/-- A text is not cut at a character that it does not hold. -/
theorem splitAt_of_not_mem {d : Char} {s : String} (h : d ∉ s.toList) : splitAt d s = [s] := by
  rw [splitAt, List.splitOn_eq_singleton h, List.map_singleton, String.ofList_toList]

/-- The pieces of texts that are put together with the character between them are theirs. -/
theorem splitAt_intercalate {d : Char} {sep : String} (hsep : sep.toList = [d]) {ls : List String}
    (h : ls ≠ []) : splitAt d (sep.intercalate ls) = ls.flatMap (splitAt d) := by
  induction ls with
  | nil => exact absurd rfl h
  | cons l ls ih =>
    cases ls with
    | nil => rw [String.intercalate_singleton, List.flatMap_singleton]
    | cons k ls =>
      rw [List.flatMap_cons, ← ih (List.cons_ne_nil _ _), String.intercalate_cons_cons, splitAt,
        String.toList_append, String.toList_append, hsep, List.append_assoc, List.singleton_append,
        List.splitOn_append_cons_self, List.map_append]
      rfl

/-- Texts that do not hold the character are not cut. -/
theorem flatMap_splitAt_of_not_mem {d : Char} {ls : List String} (h : ∀ l ∈ ls, d ∉ l.toList) :
    ls.flatMap (splitAt d) = ls := by
  induction ls with
  | nil => rfl
  | cons l ls ih =>
    rw [List.flatMap_cons, splitAt_of_not_mem (h l List.mem_cons_self),
      ih fun x hx => h x (List.mem_cons_of_mem _ hx), List.singleton_append]

/-- Texts that do not hold the character are what is cut when they are put together with it. -/
theorem splitAt_intercalate_of_not_mem {d : Char} {sep : String} (hsep : sep.toList = [d])
    {ls : List String} (hne : ls ≠ []) (h : ∀ l ∈ ls, d ∉ l.toList) :
    splitAt d (sep.intercalate ls) = ls := by
  rw [splitAt_intercalate hsep hne]
  exact flatMap_splitAt_of_not_mem h

/-- A piece of a text that is cut at a character begins somewhere in the text, and the cut or the end
comes behind it. -/
theorem exists_of_mem_splitOn {d : Char} {s piece : List Char} (h : piece ∈ s.splitOn d) :
    ∃ a b, s = a ++ piece ++ b ∧ (b = [] ∨ ∃ r, b = d :: r) := by
  have joined : ∀ pieces : List (List Char), piece ∈ pieces →
      ∃ a b, [d].intercalate pieces = a ++ piece ++ b ∧ (b = [] ∨ ∃ r, b = d :: r) := by
    intro pieces
    induction pieces with
    | nil => exact nofun
    | cons x r ih =>
      intro hmem
      cases r with
      | nil =>
        obtain rfl := List.mem_singleton.1 hmem
        exact ⟨[], [], by simp, .inl rfl⟩
      | cons y r =>
        rw [List.intercalate_cons_cons]
        rcases List.mem_cons.1 hmem with rfl | hmem
        · exact ⟨[], d :: [d].intercalate (y :: r), by simp, .inr ⟨_, rfl⟩⟩
        · obtain ⟨a, b, hab, hb⟩ := ih hmem
          exact ⟨x ++ d :: a, b, by rw [hab]; simp, hb⟩
  have hjoined := joined _ h
  rwa [List.intercalate_splitOn] at hjoined

/-- **How a pattern goes on is kept when a text is cut** at a character that neither the pattern nor the
ways hold. -/
theorem Only.piece {d : Char} {s piece : List Char} (h : Only p ways s)
    (hd : ∀ w ∈ ways, d ∉ p ++ w) (hpiece : piece ∈ s.splitOn d) : Only p ways piece := by
  obtain ⟨a, b, rfl, hb⟩ := exists_of_mem_splitOn hpiece
  intro t ht hp
  have hsuffix : t ++ b <:+ a ++ piece ++ b := by
    obtain ⟨x, rfl⟩ := (List.mem_tails _ _).1 ht
    exact ⟨a ++ x, by simp only [List.append_assoc]⟩
  obtain ⟨w, hw, hwt⟩ :=
    h (t ++ b) ((List.mem_tails _ _).2 hsuffix) (hp.trans (List.prefix_append t b))
  refine ⟨w, hw, ?_⟩
  rcases List.prefix_or_prefix_of_prefix hwt (List.prefix_append t b) with hwt | ⟨x, hx⟩
  · exact hwt
  have hxb : x <+: b := by
    rw [← hx] at hwt
    exact (List.prefix_append_right_inj t).1 hwt
  cases x with
  | nil =>
    rw [← hx, List.append_nil]
  | cons c x =>
    rcases hb with rfl | ⟨r, rfl⟩
    · cases List.prefix_nil.1 hxb
    · obtain rfl : c = d := (List.cons_prefix_cons.1 hxb).1
      exact absurd (hx ▸ List.mem_append_right t List.mem_cons_self) (hd w hw)

end

/-! ## Replacing -/

/-- A text without the first character of a pattern stays. -/
theorem replaceFrom_of_not_mem {d : Char} {ps s : List Char} (h : d ∉ s) (rep t : List Char) :
    replaceFrom (d :: ps) rep 0 (s ++ t) = s ++ replaceFrom (d :: ps) rep 0 t := by
  induction s with
  | nil => rfl
  | cons c r ih =>
    rw [List.mem_cons, not_or] at h
    have hc : (d == c) = false := beq_eq_false_iff_ne.2 h.1
    rw [List.cons_append, replaceFrom, List.isPrefixOf, hc, Bool.false_and, Bool.and_false,
      if_neg Bool.false_ne_true, ih h.2]
    rfl

/-- What stands in a text after replacing stood there before, or in what it was replaced by. -/
theorem mem_of_mem_replaceFrom {pat rep s : List Char} {n : Nat} {c : Char}
    (h : c ∈ replaceFrom pat rep n s) : c ∈ s ∨ c ∈ rep := by
  fun_induction replaceFrom pat rep n s with
  | case1 => exact .inl h
  | case2 _ _ _ ih => exact (ih h).imp_left (List.mem_cons_of_mem _)
  | case3 _ _ _ ih =>
    rcases List.mem_append.1 h with h | h
    · exact .inr h
    · exact (ih h).imp_left (List.mem_cons_of_mem _)
  | case4 _ _ _ ih =>
    rcases List.mem_cons.1 h with rfl | h
    · exact .inl List.mem_cons_self
    · exact (ih h).imp_left (List.mem_cons_of_mem _)

/-- What is passed over is left out. -/
theorem replaceFrom_skip (p rep s t : List Char) :
    replaceFrom p rep s.length (s ++ t) = replaceFrom p rep 0 t := by
  induction s with
  | nil => rfl
  | cons c r ih =>
    rw [List.cons_append, List.length_cons, replaceFrom]
    exact ih

/-- **A single occurrence is replaced.** -/
theorem replace_single {pre post pat : String} {d : Char} {ps : List Char} (hp : pat.toList = d :: ps)
    (hpre : d ∉ pre.toList) (hpost : d ∉ post.toList) (v : String) :
    replace (pre ++ pat ++ post) pat v = pre ++ v ++ post := by
  have hprefix : (d :: ps).isPrefixOf (d :: (ps ++ post.toList)) = true := by
    rw [List.isPrefixOf_iff_prefix, ← List.cons_append]
    exact List.prefix_append _ _
  have hend : replaceFrom (d :: ps) v.toList 0 post.toList = post.toList := by
    have h := @replaceFrom_of_not_mem d ps _ hpost v.toList []
    rwa [List.append_nil, replaceFrom, List.append_nil] at h
  refine String.toList_injective ?_
  rw [replace, String.toList_ofList, String.toList_append, String.toList_append, hp,
    List.append_assoc, replaceFrom_of_not_mem hpre, List.cons_append, replaceFrom, hprefix]
  simp only [List.isEmpty_cons, Bool.not_false, Bool.and_self, if_true, List.length_cons,
    Nat.add_sub_cancel]
  rw [replaceFrom_skip, hend, String.toList_append, String.toList_append, List.append_assoc]

end NativeGlue.Text
