import NativeGlue.Text.Units

/-!
# Units of a text

A character is no surrogate, so it takes either one unit that is none or a pair of two, and the units
of a text stand for that text only (`toText?_ofText`). No other units stand for a text
(`eq_ofText_of_toText?`).
-/

namespace NativeGlue.Text.Units

/-! ## 1. Surrogates -/

theorem lt_of_isHigh {u : Nat} (h : isHigh u = true) : u < 0x10000 := by
  simp only [isHigh, Bool.and_eq_true, decide_eq_true_eq] at h
  omega

theorem lt_of_isLow {u : Nat} (h : isLow u = true) : u < 0x10000 := by
  simp only [isLow, Bool.and_eq_true, decide_eq_true_eq] at h
  omega

theorem not_isLow_of_isHigh {u : Nat} (h : isHigh u = true) : isLow u = false := by
  simp only [isHigh, Bool.and_eq_true, decide_eq_true_eq] at h
  simp only [isLow, Bool.and_eq_false_iff, decide_eq_false_iff_not]
  omega

/-- The two units of a code point beyond 16 bits, and what they stand for. -/
theorem ofCodePoint_pair {p : Nat} (hp : p < 0x110000) (h : ¬p < 0x10000) :
    ∃ u l, ofCodePoint p = [u, l] ∧ isHigh u = true ∧ isLow l = true ∧
      0x10000 + (u - 0xd800) * 0x400 + (l - 0xdc00) = p := by
  refine ⟨_, _, if_neg h, ?_, ?_, ?_⟩
  · simp only [isHigh, Bool.and_eq_true, decide_eq_true_eq]
    omega
  · simp only [isLow, Bool.and_eq_true, decide_eq_true_eq]
    omega
  · omega

/-- A unit of a code point takes 16 bits. -/
theorem lt_of_mem_ofCodePoint {p u : Nat} (hp : p < 0x110000) (h : u ∈ ofCodePoint p) :
    u < 0x10000 := by
  by_cases hlt : p < 0x10000
  · rw [ofCodePoint, if_pos hlt, List.mem_singleton] at h
    omega
  · obtain ⟨x, y, hxy, hx, hy, -⟩ := ofCodePoint_pair hp hlt
    rw [hxy] at h
    simp only [List.mem_cons, List.not_mem_nil, or_false] at h
    rcases h with rfl | rfl
    · exact lt_of_isHigh hx
    · exact lt_of_isLow hy

/-! ## 2. Characters -/

theorem not_isHigh_toNat (c : Char) : isHigh c.toNat = false := by
  have h := c.valid
  simp only [isHigh, Bool.and_eq_false_iff, decide_eq_false_iff_not]
  rcases h with h | h
  · left
    have : c.toNat < 0xd800 := h
    omega
  · right
    have : 0xdfff < c.toNat := h.1
    omega

theorem not_isLow_toNat (c : Char) : isLow c.toNat = false := by
  have h := c.valid
  simp only [isLow, Bool.and_eq_false_iff, decide_eq_false_iff_not]
  rcases h with h | h
  · left
    have : c.toNat < 0xd800 := h
    omega
  · right
    have : 0xdfff < c.toNat := h.1
    omega

theorem lt_of_char (c : Char) : c.toNat < 0x110000 := by
  have h := c.valid
  rcases h with h | h
  · have : c.toNat < 0xd800 := h
    omega
  · exact h.2

/-- A unit that is no surrogate stands for itself, whatever follows. -/
theorem toText?_single {n : Nat} (hh : isHigh n = false) (hl : isLow n = false) (r : List Nat) :
    toText? (n :: r) = (toText? r).map (Char.ofNat n :: ·) := by
  cases r with
  | nil => simp [toText?, hh, hl]
  | cons u r => simp [toText?, hh, hl]

theorem toText?_pair {u l : Nat} (hu : isHigh u = true) (hl : isLow l = true) (r : List Nat) :
    toText? (u :: l :: r) =
      (toText? r).map (Char.ofNat (0x10000 + (u - 0xd800) * 0x400 + (l - 0xdc00)) :: ·) := by
  simp [toText?, hu, hl]

theorem ofText_cons (c : Char) (s : List Char) :
    ofText (c :: s) = ofCodePoint c.toNat ++ ofText s := List.flatMap_cons

/-- **The units of a text stand for the text.** -/
theorem toText?_ofText (s : List Char) : toText? (ofText s) = some s := by
  induction s with
  | nil => rfl
  | cons c r ih =>
    rw [ofText_cons]
    by_cases h : c.toNat < 0x10000
    · rw [ofCodePoint, if_pos h, List.singleton_append,
        toText?_single (not_isHigh_toNat c) (not_isLow_toNat c), ih, Option.map_some,
        Char.ofNat_toNat]
    · obtain ⟨u, l, hul, hu, hl, e⟩ := ofCodePoint_pair (lt_of_char c) h
      rw [hul, List.cons_append, List.singleton_append, toText?_pair hu hl, ih, Option.map_some, e,
        Char.ofNat_toNat]

theorem ofText_injective {s t : List Char} (h : ofText s = ofText t) : s = t := by
  have hs := toText?_ofText s
  rw [h, toText?_ofText] at hs
  exact (Option.some.inj hs).symm

/-- Units that spell a text are the units of it. -/
theorem eq_ofText_of_toText? {us : List Nat} (h : ∀ u ∈ us, u < 0x10000) {s : List Char}
    (hs : toText? us = some s) : us = ofText s := by
  have toNat : ∀ {n : Nat}, n.isValidChar → (Char.ofNat n).toNat = n := fun hv => by
    rw [Char.ofNat, dif_pos hv]
    rfl
  have single : ∀ {n : Nat}, n < 0x10000 → ¬(isHigh n || isLow n) = true →
      ofCodePoint (Char.ofNat n).toNat = [n] := by
    intro n hn hsur
    simp only [isHigh, isLow, Bool.or_eq_true, Bool.and_eq_true, decide_eq_true_eq] at hsur
    rw [toNat (by simp only [Nat.isValidChar]; omega), ofCodePoint, if_pos hn]
  fun_induction toText? us generalizing s with
  | case1 =>
    cases hs
    rfl
  | case2 u l r hpair ih =>
    obtain ⟨t, ht, rfl⟩ := Option.map_eq_some_iff.1 hs
    have ih := ih (fun x hx => h x (List.mem_cons_of_mem _ (List.mem_cons_of_mem _ hx))) ht
    simp only [isHigh, isLow, Bool.and_eq_true, decide_eq_true_eq] at hpair
    rw [ofText_cons, toNat (by simp only [Nat.isValidChar]; omega), ofCodePoint, if_neg (by omega), ih]
    simp only [List.cons_append, List.nil_append, List.cons.injEq, and_true]
    omega
  | case3 => cases hs
  | case4 u l r _ hsur ih =>
    obtain ⟨t, ht, rfl⟩ := Option.map_eq_some_iff.1 hs
    rw [ofText_cons, single (h u List.mem_cons_self) hsur,
      ih (fun x hx => h x (List.mem_cons_of_mem _ hx)) ht]
    rfl
  | case5 => cases hs
  | case6 n hsur =>
    cases hs
    rw [ofText_cons, single (h n List.mem_cons_self) hsur]
    rfl

end NativeGlue.Text.Units
