import NativeGlue.Code.Methods
import NativeGlue.Java.Token
import NativeGlue.Proofs.Symbol.Spelling
import NativeGlue.Proofs.Text.Capitals
import NativeGlue.Proofs.Text.Occurrence

/-!
# Names in function bodies

The names that a body is written with hold no line break, no blank and no parenthesis (`IsPlain`): the
words of the language, the prefix of the statistics (`isPlain_statsPrefix`), and the symbols of
methods (`isPlain_methodSymbol`).
-/

namespace NativeGlue.Code

open NativeGlue.Text NativeGlue.Symbol

/-- What separates the names in a line of code. -/
def separators : List Char := ['\n', ' ', '(', '*']

/-- A name without separators. -/
def IsPlain (s : String) : Prop := ∀ c ∈ s.toList, c ∉ separators

instance (s : String) : Decidable (IsPlain s) :=
  inferInstanceAs (Decidable (∀ c ∈ s.toList, c ∉ separators))

/-- Separators come before the digits. -/
theorem not_mem_separators_of_le {c : Char} (h : c.toNat = 0 ∨ 48 ≤ c.toNat) : c ∉ separators := by
  intro hc
  have hrange : ∀ c ∈ separators, c.toNat ≠ 0 ∧ c.toNat < 48 := by decide
  have := hrange c hc
  omega

/-- The words of the language are plain. -/
theorem isPlain_of_word {s : String} (h : ∀ c ∈ s.toList, Java.isWordPart c = true) : IsPlain s := by
  intro c hc hsep
  have hnone : ∀ c ∈ separators, Java.isWordPart c = false := by decide
  have hword := h c hc
  rw [hnone c hsep] at hword
  cases hword

/-! ## Statistics -/

/-- The prefix of the statistics is made of characters that come no earlier than the digits, beside the
character with the code zero. -/
theorem code_statsPrefix (name : String) :
    ∀ c ∈ (statsPrefix name).toList, c.toNat = 0 ∨ 48 ≤ c.toNat := by
  intro c hc
  rw [statsPrefix, upper, String.toList_ofList] at hc
  obtain ⟨d, hd, hcd⟩ := List.mem_flatMap.1 hc
  rw [replaceChars, String.toList_ofList] at hd
  obtain ⟨x, -, rfl⟩ := List.mem_map.1 hd
  refine code_of_mem_upperChar ?_ hcd
  split
  · exact .inl rfl
  · rename_i hx
    rw [Bool.not_eq_true', Bool.not_eq_false] at hx
    exact .inr hx

/-- **The prefix of the statistics is plain**, whatever the statistics are called. -/
theorem isPlain_statsPrefix (name : String) : IsPlain (statsPrefix name) :=
  fun c hc => not_mem_separators_of_le (code_statsPrefix name c hc)

/-! ## Symbols -/

/-- What is mangled comes out as digits, letters and underscores. -/
theorem code_mangle (s : String) : ∀ c ∈ (mangle s).toList, 48 ≤ c.toNat := by
  intro c hc
  rw [mangle, String.toList_ofList] at hc
  obtain ⟨x, -, hcx⟩ := List.mem_flatMap.1 hc
  unfold mangleChar at hcx
  have hclosed : ∀ t ∈ [['_'], ['_', '1'], ['_', '2'], ['_', '3']], ∀ c ∈ t, 48 ≤ c.toNat := by decide
  have halphanum : ∀ {c : Char}, c.isAlphanum = true → 48 ≤ c.toNat := by
    intro c hc
    have := isAlphanum_iff.1 hc
    omega
  split at hcx
  · exact hclosed _ (by decide) c hcx
  split at hcx
  · exact hclosed _ (by decide) c hcx
  split at hcx
  · exact hclosed _ (by decide) c hcx
  split at hcx
  · exact hclosed _ (by decide) c hcx
  split at hcx
  · rename_i halnum
    rw [List.mem_singleton.1 hcx]
    exact halphanum halnum
  · obtain ⟨u, hu, hcu⟩ := List.mem_flatMap.1 hcx
    have hlt := Units.lt_of_mem_ofCodePoint (Units.lt_of_char x) hu
    rw [escapeUnit, hex_four hlt] at hcu
    simp only [List.mem_cons, List.not_mem_nil, or_false] at hcu
    rcases hcu with rfl | rfl | rfl | rfl | rfl | rfl
    · decide
    · decide
    all_goals exact halphanum (isAlphanum_digitChar (by omega))

/-- What the parts of a symbol are put together to. -/
theorem code_symbol (className methodName : String) (signature : Option String) :
    ∀ c ∈ (Symbol.methodSymbol className methodName signature).toList, 48 ≤ c.toNat := by
  have hclosed : ∀ t ∈ ["_", "", "__"], ∀ c ∈ t.toList, 48 ≤ c.toNat := by decide
  have happend : ∀ {s t : String}, (∀ c ∈ s.toList, 48 ≤ c.toNat) → (∀ c ∈ t.toList, 48 ≤ c.toNat) →
      ∀ c ∈ (s ++ t).toList, 48 ≤ c.toNat := by
    intro s t hs ht c hc
    rw [String.toList_append] at hc
    exact (List.mem_append.1 hc).elim (hs c) (ht c)
  unfold Symbol.methodSymbol
  refine happend (happend (happend (code_mangle _) (hclosed _ (by decide))) (code_mangle _)) ?_
  split
  · exact hclosed _ (by decide)
  · exact happend (hclosed _ (by decide)) (code_mangle _)

theorem code_methodSymbol (m : NativeMethod) : ∀ c ∈ (methodSymbol m).toList, 48 ≤ c.toNat :=
  code_symbol _ _ _

/-- **The symbol of a method is plain**, whatever its names. -/
theorem isPlain_methodSymbol (m : NativeMethod) : IsPlain (methodSymbol m) :=
  fun c hc => not_mem_separators_of_le (.inr (code_methodSymbol m c hc))

end NativeGlue.Code
