import NativeGlue.Flag
import NativeGlue.Proofs.Fallible

/-!
# Words of flags

A set of flags that was read from words has just these words (`Worded.mem_iff`), and words that select an owner are
all taken out of a list before (`splitOwnershipFrom_ok`).
-/

namespace NativeGlue

/-! ## 1. Sets -/

/-- The words of a set are those that it was put together from. -/
structure Worded {F : Type} [FlagSet F] (words : F → List String) : Prop where
  empty : words ∅ = []
  union : ∀ f g w, w ∈ words (f ∪ g) ↔ w ∈ words f ∨ w ∈ words g
  single : ∀ w f, FlagSet.ofWord? w = some f → words f = [w]

/-- **A set that was read has the words that it was read from.** -/
theorem Worded.mem_iff {F : Type} [FlagSet F] {words : F → List String} (h : Worded words) {ws : List String}
    {f : F} (hf : readFlags ws = .ok f) (w : String) : w ∈ words f ↔ w ∈ ws := by
  induction ws generalizing f with
  | nil =>
    obtain rfl := Except.ok.inj hf
    rw [h.empty]
  | cons v r ih =>
    rw [readFlags] at hf
    split at hf
    · cases hf
    · rename_i g hg
      obtain ⟨g', hg', rfl⟩ := ok_of_map hf
      rw [h.union, h.single v g hg, ih hg', List.mem_singleton, List.mem_cons]

theorem mem_chosen_iff {l : List (String × Bool)} {w : String} :
    w ∈ l.filterMap (fun (w, b) => if b then some w else none) ↔ (w, true) ∈ l := by
  rw [List.mem_filterMap]
  constructor
  · rintro ⟨⟨v, b⟩, hp, hw⟩
    obtain ⟨rfl, hw⟩ := Option.ite_none_right_eq_some.1 hw
    rwa [← Option.some.inj hw]
  · exact fun h => ⟨_, h, rfl⟩

theorem worded_methodFlags : Worded MethodFlags.words where
  empty := rfl
  union f g w := by
    simp only [MethodFlags.words, mem_chosen_iff, Union.union, List.mem_cons, List.not_mem_nil, Prod.mk.injEq]
    grind
  single w f h := by
    simp only [FlagSet.ofWord?] at h
    split at h <;> cases h <;> rfl

theorem worded_paramFlags : Worded ParamFlags.words where
  empty := rfl
  union f g w := by
    simp only [ParamFlags.words, mem_chosen_iff, Union.union, List.mem_cons, List.not_mem_nil, Prod.mk.injEq]
    grind
  single w f h := by
    simp only [FlagSet.ofWord?] at h
    split at h <;> cases h <;> rfl

theorem worded_fieldFlags : Worded FieldFlags.words where
  empty := rfl
  union f g w := by
    simp only [FieldFlags.words, mem_chosen_iff, Union.union, List.mem_cons, List.not_mem_nil, Prod.mk.injEq]
    grind
  single w f h := by
    simp only [FlagSet.ofWord?] at h
    split at h <;> cases h <;> rfl

theorem worded_structFlags : Worded StructFlags.words where
  empty := rfl
  union f g w := by
    simp only [StructFlags.words, Union.union]
    grind
  single w f h := by
    simp only [FlagSet.ofWord?] at h
    split at h
    · cases h
      rfl
    · cases h

/-! ## 2. Owners -/

/-- **Words that select an owner are taken out**, and the others are left in their order. -/
theorem splitOwnershipFrom_ok {chosen o : Option Ownership} {ws rest : List String}
    (h : splitOwnershipFrom chosen ws = .ok (o, rest)) :
    rest = ws.filter (fun w => (Ownership.ofFlag? w).isNone) ∧
      ∀ p, o = some p ↔ chosen = some p ∨ ∃ w ∈ ws, Ownership.ofFlag? w = some p := by
  induction ws generalizing chosen o rest with
  | nil =>
    obtain ⟨rfl, rfl⟩ := Prod.mk.inj (Except.ok.inj h)
    exact ⟨rfl, fun p => by simp⟩
  | cons w r ih =>
    rw [splitOwnershipFrom] at h
    cases hw : Ownership.ofFlag? w with
    | none =>
      rw [hw] at h
      obtain ⟨⟨o', rest'⟩, hr, heq⟩ := ok_of_map h
      obtain ⟨rfl, rfl⟩ := Prod.mk.inj heq
      obtain ⟨hrest, ho⟩ := ih hr
      refine ⟨by rw [List.filter_cons_of_pos (by rw [hw]; rfl), ← hrest], fun p => ?_⟩
      rw [ho p]
      simp [hw]
    | some q =>
      -- The word is taken out; the owner is then this one, unless another one was chosen before.
      have hnext : splitOwnershipFrom (some q) r = .ok (o, rest) ∧ (chosen = none ∨ chosen = some q) := by
        rw [hw] at h
        cases chosen with
        | none => exact ⟨h, .inl rfl⟩
        | some c =>
          dsimp only at h
          split at h
          · rename_i hc
            exact ⟨hc ▸ h, .inr (congrArg some hc)⟩
          · cases h
      obtain ⟨hrest, ho⟩ := ih hnext.1
      refine ⟨by rw [List.filter_cons_of_neg (by rw [hw]; simp), ← hrest], fun p => ?_⟩
      rw [ho p]
      rcases hnext.2 with rfl | rfl <;> simp [hw]

end NativeGlue
