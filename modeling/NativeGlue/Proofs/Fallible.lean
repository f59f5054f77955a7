import Mathlib.Data.List.Forall2

/-!
# Steps that may fail

What is known when a sequence of steps went well: every one of them did (`ok_of_bind`,
`forall₂_of_mapM`), and what each of them keeps is kept (`keeps_of_foldlM`).
-/

namespace NativeGlue

variable {ε α β : Type}

/-! ## Steps -/

/-- A step behind another one goes well only if that one did. -/
theorem ok_of_bind {x : Except ε α} {f : α → Except ε β} {b : β} (h : x >>= f = .ok b) :
    ∃ a, x = .ok a ∧ f a = .ok b := by
  cases x with
  | error e => cases h
  | ok a => exact ⟨a, rfl, h⟩

/-- Two steps fail if the first one does, or the second one behind it. -/
theorem error_of_bind {x : Except ε α} {f : α → Except ε β} {e : ε} (h : x >>= f = .error e) :
    x = .error e ∨ ∃ a, x = .ok a ∧ f a = .error e := by
  cases x with
  | error e' => exact .inl (congrArg _ (Except.error.inj h))
  | ok a => exact .inr ⟨a, rfl, h⟩

/-- A failure is no result. -/
theorem not_ok_throw {e : ε} {a : α} (h : (throw e : Except ε α) = .ok a) : False := by
  cases h

theorem ok_of_map {x : Except ε α} {f : α → β} {b : β} (h : x.map f = .ok b) :
    ∃ a, x = .ok a ∧ f a = b := by
  cases x with
  | error e => cases h
  | ok a => exact ⟨a, rfl, Except.ok.inj h⟩

theorem ok_of_mapError {ε' : Type} {x : Except ε α} {f : ε → ε'} {a : α}
    (h : x.mapError f = .ok a) : x = .ok a := by
  cases x with
  | error e => cases h
  | ok b => exact congrArg _ (Except.ok.inj h)

theorem ok_of_toOption {x : Except ε α} {a : α} (h : x.toOption = some a) : x = .ok a := by
  cases x with
  | error e => cases h
  | ok b => exact congrArg _ (Option.some.inj h)

/-- A step for every item of a list: each went well, and the results are in the order of the items. -/
theorem forall₂_of_mapM {f : α → Except ε β} {l : List α} {r : List β} (h : l.mapM f = .ok r) :
    List.Forall₂ (fun a b => f a = .ok b) l r := by
  induction l generalizing r with
  | nil =>
    cases h
    exact .nil
  | cons a l ih =>
    rw [List.mapM_cons] at h
    obtain ⟨b, hb, h⟩ := ok_of_bind h
    obtain ⟨bs, hbs, h⟩ := ok_of_bind h
    cases h
    exact .cons hb (ih hbs)

/-- Steps that go as well as others do, item by item, give the same results. -/
theorem ok_of_mapM {f g : α → Except ε β} {l : List α} {r : List β} (h : l.mapM f = .ok r)
    (hg : ∀ a ∈ l, ∀ b, f a = .ok b → g a = .ok b) : l.mapM g = .ok r := by
  induction l generalizing r with
  | nil => exact h
  | cons a l ih =>
    rw [List.mapM_cons] at h ⊢
    obtain ⟨b, hb, h⟩ := ok_of_bind h
    obtain ⟨bs, hbs, h⟩ := ok_of_bind h
    rw [hg a List.mem_cons_self b hb, ih hbs fun x hx => hg x (List.mem_cons_of_mem _ hx)]
    exact h

/-- Steps that do the same for every item come to the same. -/
theorem mapM_congr {f g : α → Except ε β} {l : List α} (h : ∀ a ∈ l, f a = g a) : l.mapM f = l.mapM g := by
  induction l with
  | nil => rfl
  | cons a l ih =>
    rw [List.mapM_cons, List.mapM_cons, h a List.mem_cons_self,
      ih fun x hx => h x (List.mem_cons_of_mem _ hx)]

/-- What is done to every result in the end may be done right after its step. -/
theorem map_mapM {γ : Type} (f : α → Except ε β) (g : β → γ) (l : List α) :
    (l.mapM f).map (List.map g) = l.mapM fun a => (f a).map g := by
  induction l with
  | nil => rfl
  | cons a l ih =>
    rw [List.mapM_cons, List.mapM_cons, ← ih]
    cases f a with
    | error e => rfl
    | ok b => cases l.mapM f <;> rfl

/-- Items whose results are not kept may be left out before. -/
theorem filterMap_mapM_filter {γ : Type} {f : α → Except ε β} {g : β → Option γ} {p : α → Bool} {l : List α}
    (h : ∀ a ∈ l, p a = false → ∃ b, f a = .ok b ∧ g b = none) :
    ((l.filter p).mapM f).map (List.filterMap g) = (l.mapM f).map (List.filterMap g) := by
  induction l with
  | nil => rfl
  | cons a l ih =>
    replace ih := ih fun x hx => h x (List.mem_cons_of_mem _ hx)
    cases hp : p a with
    | false =>
      obtain ⟨b, hb, hg⟩ := h a List.mem_cons_self hp
      rw [List.filter_cons_of_neg (by simp [hp]), ih, List.mapM_cons, hb]
      cases l.mapM f with
      | error e => rfl
      | ok bs => exact congrArg Except.ok (List.filterMap_cons_none hg).symm
    | true =>
      rw [List.filter_cons_of_pos hp, List.mapM_cons, List.mapM_cons]
      cases f a with
      | error e => rfl
      | ok b =>
        cases hl : (l.filter p).mapM f <;> cases hr : l.mapM f <;> rw [hl, hr] at ih
        · exact congrArg Except.error (Except.error.inj ih)
        · cases ih
        · cases ih
        · refine congrArg Except.ok ?_
          rw [List.filterMap_cons, List.filterMap_cons, Except.ok.inj ih]

/-- If a step fails for some item, one of them did. -/
theorem error_of_mapM {f : α → Except ε β} {l : List α} {e : ε} (h : l.mapM f = .error e) :
    ∃ a ∈ l, f a = .error e := by
  induction l with
  | nil => cases h
  | cons a l ih =>
    rw [List.mapM_cons] at h
    rcases error_of_bind h with ha | ⟨b, -, h⟩
    · exact ⟨a, List.mem_cons_self, ha⟩
    rcases error_of_bind h with h | ⟨bs, -, h⟩
    · obtain ⟨x, hx, hxe⟩ := ih h
      exact ⟨x, List.mem_cons_of_mem _ hx, hxe⟩
    · cases h

/-- What every step keeps is true at the end if it was true at the beginning. -/
theorem keeps_of_foldlM {P : β → Prop} {f : β → α → Except ε β} {l : List α}
    (step : ∀ a ∈ l, ∀ b c, P b → f b a = .ok c → P c) {b r : β} (hb : P b)
    (h : l.foldlM f b = .ok r) : P r := by
  induction l generalizing b with
  | nil =>
    cases h
    exact hb
  | cons a l ih =>
    rw [List.foldlM_cons] at h
    obtain ⟨c, hc, h⟩ := ok_of_bind h
    exact ih (fun x hx => step x (List.mem_cons_of_mem _ hx))
      (step a List.mem_cons_self b c hb hc) h

/-- If a fold of steps fails, one of them did. -/
theorem error_of_foldlM {f : β → α → Except ε β} {l : List α} {b : β} {e : ε}
    (h : l.foldlM f b = .error e) : ∃ a ∈ l, ∃ c, f c a = .error e := by
  induction l generalizing b with
  | nil => cases h
  | cons a l ih =>
    rw [List.foldlM_cons] at h
    rcases error_of_bind h with ha | ⟨c, -, h⟩
    · exact ⟨a, List.mem_cons_self, b, ha⟩
    · obtain ⟨x, hx, c, hc⟩ := ih h
      exact ⟨x, List.mem_cons_of_mem _ hx, c, hc⟩

/-! ## Results side by side -/

/-- Every result is what became of an item. -/
theorem exists_of_mem_forall₂ {R : α → β → Prop} {l : List α} {r : List β}
    (h : List.Forall₂ R l r) {b : β} (hb : b ∈ r) : ∃ a ∈ l, R a b := by
  induction h with
  | nil => cases hb
  | @cons a c l r hac _ ih =>
    rcases List.mem_cons.1 hb with rfl | hb
    · exact ⟨a, List.mem_cons_self, hac⟩
    · obtain ⟨x, hx, hxb⟩ := ih hb
      exact ⟨x, List.mem_cons_of_mem _ hx, hxb⟩

/-- What holds between any two items holds between what became of them. -/
theorem pairwise_of_forall₂ {R : α → β → Prop} {S : α → α → Prop} {T : β → β → Prop}
    (hst : ∀ {a a' b b'}, R a b → R a' b' → S a a' → T b b') {l : List α} {r : List β}
    (h : List.Forall₂ R l r) (hl : l.Pairwise S) : r.Pairwise T := by
  induction h with
  | nil => exact .nil
  | @cons a b l r hab hlr ih =>
    rw [List.pairwise_cons] at hl
    refine .cons (fun b' hb' => ?_) (ih hl.2)
    obtain ⟨a', ha', hr⟩ := exists_of_mem_forall₂ hlr hb'
    exact hst hab hr (hl.1 a' ha')

end NativeGlue
