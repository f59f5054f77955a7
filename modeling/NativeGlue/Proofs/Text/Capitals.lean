import NativeGlue.Proofs.Text.Digits
import NativeGlue.Text.Case

/-!
# Where capitals lie

The capitals of letters and numbers come behind the separators of ASCII (`code_of_mem_upperChar`), and neither
upper case nor lower case brings in a separator (`code_of_mem_upper`, `code_of_mem_lower`).
Beyond ASCII they stand in tables, which are checked entry by entry. The tables are texts; to check
them their characters have to be known (`of_hexFields`).
-/

namespace NativeGlue.Text

/-! ## 1. Tables -/

/-- The numbers in a table, from the characters of its lines. -/
def numbersOf (ls : List (List Char)) : List (List Nat) :=
  (([' '].intercalate ls).splitOn ' ').map fun entry => (entry.splitOn '-').map fun f =>
    f.foldl (fun n c => 16 * n + (CodeSet.hexDigit? c).getD 0) 0

/-- The first line of a table and its characters. -/
theorem spelled_cons {l : List Char} {lines : List String} {ls : List (List Char)}
    (h : lines = ls.map String.ofList) : String.ofList l :: lines = (l :: ls).map String.ofList :=
  congrArg _ h

/-- The entries of a table are the numbers in its characters. -/
theorem hexFields_eq {lines : List String} {ls : List (List Char)} (h : lines = ls.map String.ofList) :
    hexFields lines = numbersOf ls := by
  have hlines : lines.map String.toList = ls := by
    rw [h, List.map_map]
    conv => rhs; rw [← List.map_id ls]
    exact List.map_congr_left fun l _ => String.toList_ofList
  have hblank : (" " : String).toList = [' '] := rfl
  rw [hexFields, String.toList_intercalate, hlines, hblank]
  rfl

/-- What is checked of the characters of a table is true of its entries. -/
theorem of_hexFields {P : List Nat → Prop} {lines : List String} {ls : List (List Char)}
    (h : lines = ls.map String.ofList) (hp : ∀ entry ∈ numbersOf ls, P entry) :
    ∀ entry ∈ hexFields lines, P entry := by
  rw [hexFields_eq h]
  exact hp

set_option maxRecDepth 1000 in
theorem le_of_mem_upperExpansions : ∀ entry ∈ upperExpansions, ∀ n ∈ entry.tail, 48 ≤ n := by
  apply of_hexFields
  · repeat apply spelled_cons
    exact List.map_nil.symm
  · decide +kernel

/-- What is checked of the fourth numbers of a table is true of its runs. -/
theorem target_of_mem_runs {P : Nat → Prop} {lines : List String}
    (h : ∀ entry ∈ hexFields lines, ∀ n ∈ entry[3]?, P n) :
    ∀ r ∈ (CaseRun.ofLines lines).toList, P r.target := by
  intro r hr
  obtain ⟨entry, he, hr⟩ := List.mem_filterMap.1 (show r ∈ List.filterMap _ _ from hr)
  have htarget := h entry he
  split at hr
  · obtain rfl := Option.some.inj hr
    exact htarget _ rfl
  · cases hr

theorem le_of_mem_upperRuns : ∀ r ∈ upperRuns.toList, 48 ≤ r.target := by
  apply target_of_mem_runs
  apply of_hexFields
  · repeat apply spelled_cons
    exact List.map_nil.symm
  · decide +kernel

/-- Small letters come behind the capitals of ASCII. -/
theorem le_of_mem_lowerRuns : ∀ r ∈ lowerRuns.toList, 91 ≤ r.target := by
  apply target_of_mem_runs
  apply of_hexFields
  · repeat apply spelled_cons
    exact List.map_nil.symm
  · decide +kernel

/-- The other case that is found in runs is not smaller than their fourth numbers. -/
theorem le_of_findSome_otherCase {runs : Array CaseRun} {b m n : Nat}
    (h : ∀ r ∈ runs.toList, b ≤ r.target) (hn : runs.findSome? (·.otherCase? m) = some n) : b ≤ n := by
  obtain ⟨r, hr, hother⟩ := Array.exists_of_findSome?_eq_some hn
  have htarget := h r (Array.mem_toList_iff.2 hr)
  unfold CaseRun.otherCase? at hother
  split at hother
  · obtain rfl := Option.some.inj hother
    omega
  · cases hother

/-! ## 2. Capitals -/

/-- The code of a character that stands for a number. -/
theorem code_ofNat {n : Nat} (h : 48 ≤ n) : (Char.ofNat n).toNat = 0 ∨ 48 ≤ (Char.ofNat n).toNat := by
  by_cases hv : n.isValidChar
  · rw [Char.ofNat, dif_pos hv]
    exact .inr h
  · rw [Char.ofNat, dif_neg hv]
    exact .inl rfl

/-- The upper case of a character is the character, or does not come before the digits. A code point that is
none becomes the null character. -/
theorem eq_or_code_of_mem_upperChar {c d : Char} (hd : d ∈ upperChar c) :
    d = c ∨ d.toNat = 0 ∨ 48 ≤ d.toNat := by
  by_cases hascii : c.toNat < 128
  · rw [upperChar, if_pos hascii, List.mem_singleton] at hd
    have hupper : ∀ n < 128,
        (Char.ofNat n).toUpper = Char.ofNat n ∨ 48 ≤ (Char.ofNat n).toUpper.toNat := by
      decide +kernel
    have hcapital := hupper c.toNat hascii
    rw [Char.ofNat_toNat, ← hd] at hcapital
    exact hcapital.imp_right .inr
  rw [upperChar, if_neg hascii] at hd
  -- The tables must not be evaluated: what is found in them is a variable from here on.
  generalize he : upperExpansions.find? (·.head? == some c.toNat) = expansion at hd
  generalize ho : upperRuns.findSome? (·.otherCase? c.toNat) = other at hd
  cases expansion with
  | some entry =>
    obtain ⟨n, hn, rfl⟩ := List.mem_map.1 hd
    exact .inr (code_ofNat (le_of_mem_upperExpansions entry (List.mem_of_find?_eq_some he) n hn))
  | none =>
    cases other with
    | some n =>
      obtain rfl := List.mem_singleton.1 hd
      exact .inr (code_ofNat (le_of_findSome_otherCase le_of_mem_upperRuns ho))
    | none => exact .inl (List.mem_singleton.1 hd)

/-- **The capital of a letter or number does not come before the digits**, unless it is the null character. -/
theorem code_of_mem_upperChar {c d : Char} (hc : c = '_' ∨ isLetterOrNumber c = true)
    (hd : d ∈ upperChar c) : d.toNat = 0 ∨ 48 ≤ d.toNat := by
  rcases eq_or_code_of_mem_upperChar hd with rfl | hd
  · refine .inr ?_
    rcases hc with rfl | hc
    · decide
    · by_cases hascii : d.toNat < 128
      · rw [isLetterOrNumber, if_pos hascii] at hc
        have := isAlphanum_iff.1 hc
        omega
      · omega
  · exact hd

/-- **Upper case brings in no character before the digits** but the null character. -/
theorem code_of_mem_upper {s : String} {d : Char} (hd : d ∈ (upper s).toList) :
    d ∈ s.toList ∨ d.toNat = 0 ∨ 48 ≤ d.toNat := by
  rw [upper, String.toList_ofList] at hd
  obtain ⟨c, hc, hd⟩ := List.mem_flatMap.1 hd
  rcases eq_or_code_of_mem_upperChar hd with rfl | hd
  · exact .inl hc
  · exact .inr hd

/-! ## 3. Small letters -/

/-- The lower case of a character is the character, or does not come before the digits. -/
theorem code_of_mem_lowerChar {c d : Char} (hd : d ∈ lowerChar c) :
    d = c ∨ d.toNat = 0 ∨ 48 ≤ d.toNat := by
  by_cases hascii : c.toNat < 128
  · rw [lowerChar, if_pos hascii, List.mem_singleton] at hd
    have hlower : ∀ n < 128,
        (Char.ofNat n).toLower = Char.ofNat n ∨ 48 ≤ (Char.ofNat n).toLower.toNat := by
      decide +kernel
    have hsmall := hlower c.toNat hascii
    rw [Char.ofNat_toNat, ← hd] at hsmall
    exact hsmall.imp_right .inr
  rw [lowerChar, if_neg hascii] at hd
  split at hd
  · rcases List.mem_cons.1 hd with rfl | hd
    · exact .inr (.inr (by decide))
    · obtain rfl := List.mem_singleton.1 hd
      exact .inr (code_ofNat (by decide))
  generalize ho : lowerRuns.findSome? (·.otherCase? c.toNat) = other at hd
  cases other with
  | some n =>
    obtain rfl := List.mem_singleton.1 hd
    have hn : 91 ≤ n := le_of_findSome_otherCase le_of_mem_lowerRuns ho
    exact .inr (code_ofNat (by omega))
  | none => exact .inl (List.mem_singleton.1 hd)

/-- **Lower case brings in no character before the digits** but the null character. -/
theorem code_of_mem_lower {s : String} {d : Char} (hd : d ∈ (lower s).toList) :
    d ∈ s.toList ∨ d.toNat = 0 ∨ 48 ≤ d.toNat := by
  rw [lower, String.toList_ofList] at hd
  suffices ∀ before r, d ∈ lowerFrom before r → d ∈ r ∨ d.toNat = 0 ∨ 48 ≤ d.toNat from this _ _ hd
  intro before r
  induction r generalizing before with
  | nil => exact .inl
  | cons c r ih =>
    intro hd
    rw [lowerFrom] at hd
    rcases List.mem_append.1 hd with hd | hd
    · split at hd
      · obtain rfl := List.mem_singleton.1 hd
        refine .inr (code_ofNat ?_)
        split
        · decide
        · decide
      · rcases code_of_mem_lowerChar hd with rfl | hd
        · exact .inl List.mem_cons_self
        · exact .inr hd
    · exact (ih _ hd).imp_left (List.mem_cons_of_mem _)

end NativeGlue.Text
