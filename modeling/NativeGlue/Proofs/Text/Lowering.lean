import NativeGlue.Proofs.Text.Capitals

/-!
# Lower case twice

A text in lower case stays as it is when it is put into lower case once more (`lower_lower`). Beyond ASCII
this rests on the table: none of its runs leads to a character of a run. For the check both sides are marked in
a number, one bit for each character.
-/

namespace NativeGlue.Text

/-! ## 1. Marks -/

/-- The number in which the bits of some numbers are set. -/
def marks (ns : List Nat) : Nat := ns.foldr (fun n m => 1 <<< n ||| m) 0

theorem testBit_marks {ns : List Nat} {n : Nat} (h : n ∈ ns) : (marks ns).testBit n = true := by
  induction ns with
  | nil => cases h
  | cons k ns ih =>
    rw [marks, List.foldr_cons, Nat.testBit_or, Bool.or_eq_true, ← marks]
    rcases List.mem_cons.1 h with rfl | h
    · exact .inl (by simp)
    · exact .inr (ih h)

/-- No number is in both lists: their marks share no bit. -/
def Apart (ns ms : List Nat) : Prop := marks ns &&& marks ms = 0

instance (ns ms : List Nat) : Decidable (Apart ns ms) := inferInstanceAs (Decidable (_ = _))

theorem Apart.not_mem {ns ms : List Nat} (h : Apart ns ms) {n : Nat} (hn : n ∈ ns) : n ∉ ms := by
  intro hm
  have hbit := congrArg (·.testBit n) h
  simp only [Nat.testBit_and, testBit_marks hn, testBit_marks hm, Nat.zero_testBit] at hbit
  cases hbit

/-! ## 2. Runs -/

namespace CaseRun

/-- The characters of a run. -/
def members (r : CaseRun) : List Nat :=
  (List.range ((r.last - r.first) / r.step + 1)).map (r.first + r.step * ·)

/-- The characters that a run leads to. -/
def images (r : CaseRun) : List Nat :=
  (List.range ((r.last - r.first) / r.step + 1)).map (r.target + r.step * ·)

theorem mem_of_otherCase? {r : CaseRun} {n m : Nat} (h : r.otherCase? n = some m) :
    n ∈ r.members ∧ m ∈ r.images := by
  unfold otherCase? at h
  split at h
  · rename_i hn
    obtain rfl := Option.some.inj h
    simp only [Bool.and_eq_true, decide_eq_true_eq, beq_iff_eq] at hn
    obtain ⟨⟨hfirst, hlast⟩, hstep⟩ := hn
    have hmul : r.step * ((n - r.first) / r.step) = n - r.first :=
      Nat.mul_div_cancel' (Nat.dvd_of_mod_eq_zero hstep)
    have hindex : (n - r.first) / r.step ∈ List.range ((r.last - r.first) / r.step + 1) :=
      List.mem_range.2 (Nat.lt_succ_of_le (Nat.div_le_div_right (by omega)))
    refine ⟨List.mem_map.2 ⟨_, hindex, ?_⟩, List.mem_map.2 ⟨_, hindex, ?_⟩⟩
    · rw [hmul]
      omega
    · rw [hmul]
  · cases h

/-- The run of an entry of a table. -/
def ofEntry? : List Nat → Option CaseRun
  | [first, last, step, target] => some ⟨first, last, step, target⟩
  | _ => none

end CaseRun

/-- The dotted capital `I`, which leads to a mark behind a letter, and the capital sigma, which leads to one of
two small letters. Both have a rule of their own. -/
def ownRuns : List CaseRun := [⟨0x130, 0x130, 1, 0x307⟩, ⟨0x3a3, 0x3a3, 1, 0x3c2⟩, ⟨0x3a3, 0x3a3, 1, 0x3c3⟩]

/-- All runs by which a character becomes another one. -/
def smallRuns : List CaseRun := ownRuns ++ lowerRuns.toList

/-- No run leads to a character of a run. -/
def LeadOut (runs : List CaseRun) : Prop :=
  Apart (runs.flatMap CaseRun.members) (runs.flatMap CaseRun.images)

instance (runs : List CaseRun) : Decidable (LeadOut runs) := inferInstanceAs (Decidable (Apart _ _))

/-- What is checked of the characters of a table is true of its runs, beside the own ones. -/
theorem leadOut_of_table {lines : List String} {ls : List (List Char)} (h : lines = ls.map String.ofList)
    (hp : LeadOut (ownRuns ++ (numbersOf ls).filterMap CaseRun.ofEntry?)) :
    LeadOut (ownRuns ++ (CaseRun.ofLines lines).toList) := by
  rw [← hexFields_eq h] at hp
  exact hp

theorem leadOut_smallRuns : LeadOut smallRuns := by
  apply leadOut_of_table
  · repeat apply spelled_cons
    exact List.map_nil.symm
  · decide +kernel

/-- What a run leads to is in no run. -/
theorem otherCase?_of_image {r q : CaseRun} (hr : r ∈ smallRuns) (hq : q ∈ smallRuns) {n m : Nat}
    (hm : r.otherCase? n = some m) : q.otherCase? m = none := by
  cases hk : q.otherCase? m with
  | none => rfl
  | some k =>
    have himage := List.mem_flatMap.2 ⟨r, hr, (CaseRun.mem_of_otherCase? hm).2⟩
    have hmember := List.mem_flatMap.2 ⟨q, hq, (CaseRun.mem_of_otherCase? hk).1⟩
    exact absurd himage (Apart.not_mem leadOut_smallRuns hmember)

/-! ## 3. Small letters -/

/-- A character that lower case leaves alone. -/
def IsSmall (c : Char) : Prop := c.toNat ≠ 0x3a3 ∧ lowerChar c = [c]

/-- What a run leads to is small. -/
theorem isSmall_of_image {r : CaseRun} (hr : r ∈ smallRuns) {n m : Nat} (hm : r.otherCase? n = some m)
    (hcode : 91 ≤ m) : IsSmall (Char.ofNat m) := by
  have hnot : ∀ q ∈ smallRuns, q.otherCase? m = none := fun q hq => otherCase?_of_image hr hq hm
  by_cases hv : ¬m.isValidChar
  · rw [Char.ofNat, dif_neg hv]
    exact ⟨by decide, rfl⟩
  have hv := Decidable.not_not.1 hv
  have htoNat : (Char.ofNat m).toNat = m := by
    rw [Char.ofNat, dif_pos hv]
    rfl
  have hsigma : m ≠ 0x3a3 := by
    rintro rfl
    exact absurd (hnot ⟨0x3a3, 0x3a3, 1, 0x3c2⟩ (by simp [smallRuns, ownRuns])) (by decide)
  refine ⟨by rw [htoNat]; exact hsigma, ?_⟩
  by_cases hascii : m < 128
  · have hlower : ∀ k < 128, 91 ≤ k → (Char.ofNat k).toLower = Char.ofNat k := by decide +kernel
    rw [lowerChar, htoNat, if_pos hascii, hlower m hascii hcode]
  · have hdotted : m ≠ 0x130 := by
      rintro rfl
      exact absurd (hnot ⟨0x130, 0x130, 1, 0x307⟩ (by simp [smallRuns, ownRuns])) (by decide)
    have hnone : lowerRuns.findSome? (·.otherCase? m) = none := by
      refine Array.findSome?_eq_none_iff.2 fun q hq => hnot q ?_
      exact List.mem_append_right _ (Array.mem_toList_iff.2 hq)
    rw [lowerChar, htoNat, if_neg hascii, if_neg (by simpa using hdotted), hnone]

/-- **The lower case of a character is small**, for all but the capital sigma. -/
theorem isSmall_of_mem_lowerChar {c d : Char} (hc : c.toNat ≠ 0x3a3) (hd : d ∈ lowerChar c) : IsSmall d := by
  by_cases hascii : c.toNat < 128
  · rw [lowerChar, if_pos hascii, List.mem_singleton] at hd
    have hlower : ∀ n < 128, (Char.ofNat n).toLower.toNat < 128 ∧
        (Char.ofNat n).toLower.toLower = (Char.ofNat n).toLower := by
      decide +kernel
    have hsmall := hlower c.toNat hascii
    rw [Char.ofNat_toNat, ← hd] at hsmall
    refine ⟨by omega, ?_⟩
    rw [lowerChar, if_pos hsmall.1, hsmall.2]
  rw [lowerChar, if_neg hascii] at hd
  split at hd
  · rcases List.mem_cons.1 hd with rfl | hd
    · exact ⟨by decide, rfl⟩
    · obtain rfl := List.mem_singleton.1 hd
      exact isSmall_of_image (r := ⟨0x130, 0x130, 1, 0x307⟩) (n := 0x130) (by simp [smallRuns, ownRuns]) rfl
        (by decide)
  rename_i hdotted
  generalize ho : lowerRuns.findSome? (·.otherCase? c.toNat) = other at hd
  cases other with
  | some n =>
    obtain rfl := List.mem_singleton.1 hd
    obtain ⟨r, hr, hn⟩ := Array.exists_of_findSome?_eq_some ho
    exact isSmall_of_image (List.mem_append_right _ (Array.mem_toList_iff.2 hr)) hn
      (le_of_findSome_otherCase le_of_mem_lowerRuns ho)
  | none =>
    obtain rfl := List.mem_singleton.1 hd
    exact ⟨hc, by rw [lowerChar, if_neg hascii, if_neg hdotted, ho]⟩

/-! ## 4. Texts -/

theorem isSmall_of_mem_lowerFrom {before s : List Char} {d : Char} (hd : d ∈ lowerFrom before s) :
    IsSmall d := by
  induction s generalizing before with
  | nil => cases hd
  | cons c r ih =>
    rw [lowerFrom] at hd
    rcases List.mem_append.1 hd with hd | hd
    · split at hd
      · obtain rfl := List.mem_singleton.1 hd
        split
        · exact isSmall_of_image (r := ⟨0x3a3, 0x3a3, 1, 0x3c2⟩) (n := 0x3a3) (by simp [smallRuns, ownRuns]) rfl
            (by decide)
        · exact isSmall_of_image (r := ⟨0x3a3, 0x3a3, 1, 0x3c3⟩) (n := 0x3a3) (by simp [smallRuns, ownRuns]) rfl
            (by decide)
      · rename_i hc
        exact isSmall_of_mem_lowerChar (by simpa using hc) hd
    · exact ih hd

theorem lowerFrom_of_isSmall {s : List Char} (h : ∀ c ∈ s, IsSmall c) (before : List Char) :
    lowerFrom before s = s := by
  induction s generalizing before with
  | nil => rfl
  | cons c r ih =>
    obtain ⟨hsigma, hsmall⟩ := h c List.mem_cons_self
    rw [lowerFrom, if_neg (by simpa using hsigma), hsmall, ih fun d hd => h d (List.mem_cons_of_mem _ hd)]
    rfl

/-- **A text in lower case is its own lower case.** -/
theorem lower_lower (s : String) : lower (lower s) = lower s := by
  have hsmall : ∀ d ∈ lowerFrom [] s.toList, IsSmall d := fun _ hd => isSmall_of_mem_lowerFrom hd
  rw [lower, lower, String.toList_ofList, lowerFrom_of_isSmall hsmall]

end NativeGlue.Text
