import Mathlib.Data.List.Infix
import Mathlib.Data.Nat.PSub
import NativeGlue.Proofs.Text.Cuts

/-!
# Parentheses

Read from left to right, a text leads from one depth of parentheses to another one (`depthBehind`), and texts that
are put together lead on from where the one before led to. A text is balanced if it leads from no open parenthesis
to none (`balanced_iff`). Inside parentheses a text may close more than it opens before it opens them again; if it
does not come back then, it falls into two texts that are balanced with the parentheses around them
(`exists_of_depthBehind_succ`).

Texts that come from outside are left out of the count: what is put together with them is balanced apart from them
(`BalancedApart`), and balanced if they are (`BalancedApart.balanced`).
-/

namespace NativeGlue.Text

/-! ## 1. Depth -/

/-- How many parentheses are open behind a character; none, if it closes one that is not open. -/
def depthBehindChar (d : Nat) (c : Char) : Option Nat :=
  if c = '(' then some (d + 1) else if c = ')' then d.ppred else some d

/-- How many parentheses are open behind a text; none, if it closes one that is not open. -/
def depthBehind (d : Nat) (s : List Char) : Option Nat := s.foldlM depthBehindChar d

/-- Texts without parentheses leave the depth as it is. -/
def Flat (s : List Char) : Prop := ∀ c ∈ s, c ≠ '(' ∧ c ≠ ')'

instance (s : List Char) : Decidable (Flat s) := List.decidableBAll (fun c => c ≠ '(' ∧ c ≠ ')') s

/-- Characters of a kind that parentheses are not of. -/
theorem flat_of_forall {p : Char → Bool} (hopen : p '(' = false) (hclose : p ')' = false) {s : List Char}
    (h : ∀ c ∈ s, p c = true) : Flat s := by
  intro c hc
  have hkind := h c hc
  constructor
  · rintro rfl
    rw [hopen] at hkind
    cases hkind
  · rintro rfl
    rw [hclose] at hkind
    cases hkind

theorem flat_append {s t : String} : Flat (s ++ t).toList ↔ Flat s.toList ∧ Flat t.toList := by
  rw [String.toList_append, Flat, List.forall_mem_append]
  rfl

section

variable {d e k : Nat} {s t : List Char}

@[simp] theorem depthBehind_nil (d : Nat) : depthBehind d [] = some d := rfl

theorem depthBehind_cons (d : Nat) (c : Char) (r : List Char) :
    depthBehind d (c :: r) = (depthBehindChar d c).bind (depthBehind · r) := rfl

@[simp] theorem depthBehind_open (d : Nat) (r : List Char) :
    depthBehind d ('(' :: r) = depthBehind (d + 1) r := rfl

@[simp] theorem depthBehind_close_zero (r : List Char) : depthBehind 0 (')' :: r) = none := rfl

@[simp] theorem depthBehind_close_succ (d : Nat) (r : List Char) :
    depthBehind (d + 1) (')' :: r) = depthBehind d r := rfl

theorem depthBehind_flat_cons {c : Char} (hopen : c ≠ '(') (hclose : c ≠ ')') (d : Nat) (r : List Char) :
    depthBehind d (c :: r) = depthBehind d r := by
  rw [depthBehind_cons, depthBehindChar, if_neg hopen, if_neg hclose, Option.bind_some]

theorem depthBehind_append (d : Nat) (s t : List Char) :
    depthBehind d (s ++ t) = (depthBehind d s).bind (depthBehind · t) :=
  List.foldlM_append

/-- What a closing parenthesis closes was open in front of it. -/
theorem depthBehind_concat_close : depthBehind d (s ++ [')']) = some e ↔ depthBehind d s = some (e + 1) := by
  rw [depthBehind_append]
  cases depthBehind d s with
  | none => simp
  | some f =>
    cases f with
    | zero => simp
    | succ f => simp

theorem depthBehind_of_flat (h : Flat s) (d : Nat) : depthBehind d s = some d := by
  induction s with
  | nil => rfl
  | cons c r ih =>
    obtain ⟨hc, hr⟩ := List.forall_mem_cons.1 h
    rw [depthBehind_flat_cons hc.1 hc.2, ih hr]

/-- What a text does inside parentheses it does inside more of them. -/
theorem depthBehind_add (h : depthBehind d s = some e) (k : Nat) : depthBehind (d + k) s = some (e + k) := by
  induction s generalizing d with
  | nil =>
    obtain rfl := Option.some.inj h
    rfl
  | cons c r ih =>
    by_cases hopen : c = '('
    · subst hopen
      rw [depthBehind_open] at h ⊢
      rw [Nat.add_right_comm]
      exact ih h
    by_cases hclose : c = ')'
    · subst hclose
      cases d with
      | zero => cases h
      | succ d =>
        rw [depthBehind_close_succ] at h
        rw [Nat.add_right_comm, depthBehind_close_succ]
        exact ih h
    · rw [depthBehind_flat_cons hopen hclose] at h ⊢
      exact ih h

/-- **The depth behind a text by its counts**: no beginning of the text closes more parentheses than were open in
front of it and than it opens, and the text as a whole makes the difference. -/
theorem depthBehind_eq_some_iff : depthBehind d s = some e ↔
    (∀ p, p <+: s → p.count ')' ≤ d + p.count '(') ∧ e + s.count ')' = d + s.count '(' := by
  induction s generalizing d with
  | nil => simp [eq_comm]
  | cons c r ih =>
    have hbegins : (∀ p, p <+: c :: r → p.count ')' ≤ d + p.count '(') ↔
        ∀ p, p <+: r → (c :: p).count ')' ≤ d + (c :: p).count '(' := by
      refine ⟨fun h p hp => h _ (List.cons_prefix_cons.2 ⟨rfl, hp⟩), fun h p hp => ?_⟩
      rcases List.prefix_cons_iff.1 hp with rfl | ⟨q, rfl, hq⟩
      · exact Nat.zero_le _
      · exact h q hq
    rw [hbegins]
    by_cases hopen : c = '('
    · subst hopen
      rw [depthBehind_open, ih]
      simp only [List.count_cons_self, List.count_cons_of_ne (show '(' ≠ ')' by decide), Nat.add_right_comm,
        Nat.add_assoc]
    by_cases hclose : c = ')'
    · subst hclose
      simp only [List.count_cons_self, List.count_cons_of_ne (show ')' ≠ '(' by decide)]
      cases d with
      | zero =>
        simp only [depthBehind_close_zero, reduceCtorEq, false_iff, not_and]
        intro h
        exact absurd (h [] List.nil_prefix) (by simp)
      | succ d =>
        rw [depthBehind_close_succ, ih]
        refine and_congr (forall₂_congr fun p _ => ?_) ?_
        · omega
        · omega
    · rw [depthBehind_flat_cons hopen hclose, ih]
      simp only [List.count_cons_of_ne hopen, List.count_cons_of_ne hclose]

/-- Blanks around a text leave the depth as it is. -/
theorem depthBehind_trimOf (d : Nat) (s : List Char) :
    depthBehind d (trimOf isBlank s) = depthBehind d s := by
  have hfront : Flat (s.takeWhile isBlank) := flat_of_forall rfl rfl fun _ hc => List.mem_takeWhile_imp hc
  obtain ⟨t, ht, hbehind⟩ := dropEnd_append isBlank (s.dropWhile isBlank)
  have hend : Flat t := flat_of_forall rfl rfl hbehind
  conv_rhs => rw [← List.takeWhile_append_dropWhile (p := isBlank) (l := s), depthBehind_append,
    depthBehind_of_flat hfront, Option.bind_some, ht, depthBehind_append]
  cases h : depthBehind d (dropEnd isBlank (s.dropWhile isBlank)) with
  | none => rw [trimOf, h, Option.bind_none]
  | some e => rw [trimOf, h, Option.bind_some, depthBehind_of_flat hend]

/-- **A text inside parentheses that does without one of them, or does not.** If it does not, it falls into two
texts: behind the first one no parenthesis is open, not even those around the text. -/
theorem exists_of_depthBehind_succ (h : depthBehind (d + 1) s = some (e + 1)) :
    depthBehind d s = some e ∨ depthBehind d s = none ∧ ∃ a b, s = a ++ b ∧
      depthBehind (d + 1) a = some 0 ∧ depthBehind 0 b = some (e + 1) := by
  induction s generalizing d with
  | nil =>
    obtain rfl := Nat.succ.inj (Option.some.inj h)
    exact .inl rfl
  | cons c r ih =>
    -- The first part goes on to the place where the parenthesis in question is closed.
    have further : ∀ {d'}, depthBehind (d' + 1) r = some (e + 1) →
        (∀ x, depthBehind d (c :: x) = depthBehind d' x) →
        (∀ x, depthBehind (d + 1) (c :: x) = depthBehind (d' + 1) x) →
        depthBehind d (c :: r) = some e ∨ depthBehind d (c :: r) = none ∧ ∃ a b, c :: r = a ++ b ∧
          depthBehind (d + 1) a = some 0 ∧ depthBehind 0 b = some (e + 1) := by
      intro d' hr hless hmore
      rw [hless]
      refine (ih hr).imp_right ?_
      rintro ⟨hnone, a, b, rfl, ha, hb⟩
      exact ⟨hnone, c :: a, b, rfl, by rw [hmore, ha], hb⟩
    by_cases hopen : c = '('
    · subst hopen
      exact further h (fun _ => rfl) (fun _ => rfl)
    by_cases hclose : c = ')'
    · subst hclose
      cases d with
      | zero => exact .inr ⟨rfl, [')'], r, rfl, rfl, h⟩
      | succ d => exact further h (fun _ => rfl) (fun _ => rfl)
    · rw [depthBehind_flat_cons hopen hclose] at h
      exact further h (depthBehind_flat_cons hopen hclose d) (depthBehind_flat_cons hopen hclose (d + 1))

end

/-! ## 2. Balanced texts -/

/-- A text in which no beginning closes more parentheses than it opens, and which closes as many as it opens. -/
def Balanced (s : String) : Prop :=
  (∀ p, p <+: s.toList → p.count ')' ≤ p.count '(') ∧ s.toList.count '(' = s.toList.count ')'

/-- **A text is balanced if it leads from no open parenthesis to none.** -/
theorem balanced_iff {s : String} : Balanced s ↔ depthBehind 0 s.toList = some 0 := by
  rw [depthBehind_eq_some_iff]
  simp only [Nat.zero_add]
  exact and_congr_right fun _ => eq_comm

/-- What stands between balanced texts is balanced if the whole is. -/
theorem Balanced.of_append {l s r : String} (hl : Balanced l) (hr : Balanced r) (h : Balanced (l ++ s ++ r)) :
    Balanced s := by
  rw [balanced_iff] at *
  rw [String.toList_append, String.toList_append, depthBehind_append, depthBehind_append, hl, Option.bind_some] at h
  obtain ⟨d, hd, hback⟩ := Option.bind_eq_some_iff.1 h
  have hdeep := depthBehind_add hr d
  rw [Nat.zero_add, hback] at hdeep
  rw [hd, ← Option.some.inj hdeep]

instance (s : String) : Decidable (Balanced s) := decidable_of_iff _ balanced_iff.symm

/-! ## 3. Texts from outside -/

/-- What is left of a text when certain texts are left out in places where they stand. -/
inductive LeftOf (outside : List String) : String → String → Prop
  | kept (s : String) : LeftOf outside s s
  | leftOut {s : String} (h : s ∈ outside) : LeftOf outside s ""
  | append {s r t q : String} (hs : LeftOf outside s r) (ht : LeftOf outside t q) :
      LeftOf outside (s ++ t) (r ++ q)

/-- A text that is balanced apart from certain texts that stand in it. -/
def BalancedApart (outside : List String) (s : String) : Prop := ∃ r, LeftOf outside s r ∧ Balanced r

/-- A text that leads from one depth to another one, apart from certain texts that stand in it. -/
def Leads (outside : List String) (d e : Nat) (s : String) : Prop :=
  ∃ r, LeftOf outside s r ∧ depthBehind d r.toList = some e

section

variable {outside : List String} {d e f : Nat} {s t : String}

theorem balancedApart_iff : BalancedApart outside s ↔ Leads outside 0 0 s :=
  exists_congr fun _ => and_congr_right fun _ => balanced_iff

theorem leads_of_depth (h : depthBehind d s.toList = some e) : Leads outside d e s := ⟨s, .kept s, h⟩

theorem leads_flat (h : Flat s.toList) (d : Nat) : Leads outside d d s := leads_of_depth (depthBehind_of_flat h d)

theorem Balanced.leads (h : Balanced s) (outside : List String) (d : Nat) : Leads outside d d s := by
  have hdeep := depthBehind_add (balanced_iff.1 h) d
  rw [Nat.zero_add] at hdeep
  exact leads_of_depth hdeep

theorem leads_outside (h : s ∈ outside) (d : Nat) : Leads outside d d s := ⟨"", .leftOut h, rfl⟩

theorem Leads.append (hs : Leads outside d e s) (ht : Leads outside e f t) : Leads outside d f (s ++ t) := by
  obtain ⟨r, hr, hde⟩ := hs
  obtain ⟨q, hq, hef⟩ := ht
  refine ⟨r ++ q, .append hr hq, ?_⟩
  rw [String.toList_append, depthBehind_append, hde, Option.bind_some, hef]

/-- A text is written behind. -/
theorem Leads.text (h : Leads outside d e s) (ht : depthBehind e t.toList = some f) : Leads outside d f (s ++ t) :=
  h.append (leads_of_depth ht)

/-- Texts are written around, such as parentheses. -/
theorem Leads.within {k : Nat} {l r : String} (h : Leads outside e f s) (hl : depthBehind d l.toList = some e)
    (hr : depthBehind f r.toList = some k) : Leads outside d k (l ++ s ++ r) :=
  ((leads_of_depth hl).append h).text hr

theorem Leads.add (h : Leads outside d e s) (k : Nat) : Leads outside (d + k) (e + k) s := by
  obtain ⟨r, hr, hde⟩ := h
  exact ⟨r, hr, depthBehind_add hde k⟩

theorem LeftOf.mono {outside' : List String} (h : outside ⊆ outside') {r : String} (hs : LeftOf outside s r) :
    LeftOf outside' s r := by
  induction hs with
  | kept s => exact .kept s
  | leftOut hs => exact .leftOut (h hs)
  | append _ _ ihs iht => exact .append ihs iht

theorem Leads.mono {outside' : List String} (h : Leads outside d e s) (hsub : outside ⊆ outside') :
    Leads outside' d e s := by
  obtain ⟨r, hr, hde⟩ := h
  exact ⟨r, hr.mono hsub, hde⟩

/-- Texts that are balanced can be put back where they were left out. -/
theorem LeftOf.depthBehind_eq {r : String} (h : LeftOf outside s r) (ho : ∀ x ∈ outside, Balanced x) (d : Nat) :
    depthBehind d s.toList = depthBehind d r.toList := by
  induction h generalizing d with
  | kept s => rfl
  | leftOut hs =>
    have hdeep := depthBehind_add (balanced_iff.1 (ho _ hs)) d
    rw [Nat.zero_add] at hdeep
    exact hdeep
  | append _ _ ihs iht =>
    rw [String.toList_append, String.toList_append, depthBehind_append, depthBehind_append, ihs]
    exact congrArg _ (funext iht)

/-- **What is balanced apart from balanced texts is balanced.** -/
theorem BalancedApart.balanced (h : BalancedApart outside s) (ho : ∀ x ∈ outside, Balanced x) : Balanced s := by
  obtain ⟨r, hr, hbalanced⟩ := h
  rw [balanced_iff, hr.depthBehind_eq ho]
  exact balanced_iff.1 hbalanced

/-- Texts that are put together with a separator. -/
theorem Leads.intercalate {sep : String} (hsep : Leads outside d d sep) {l : List String}
    (h : ∀ x ∈ l, Leads outside d d x) : Leads outside d d (sep.intercalate l) := by
  induction l with
  | nil => exact leads_of_depth rfl
  | cons x l ih =>
    cases l with
    | nil =>
      rw [String.intercalate_singleton]
      exact h x List.mem_cons_self
    | cons y l =>
      rw [String.intercalate_cons_cons]
      exact ((h x List.mem_cons_self).append hsep).append (ih fun z hz => h z (List.mem_cons_of_mem _ hz))

end

end NativeGlue.Text
