import Mathlib.Data.List.Basic
import NativeGlue.FileTree
import NativeGlue.Text.CodePoints

/-!
# Sorting

The orders in which lists are sorted are total, transitive and antisymmetric: texts by their characters,
and places and stored keys item by item (`Lexicographic`). So a sorted list is determined by what is in
it, also where only a part of it is looked at (`filter_mergeSort_congr`).
-/

namespace NativeGlue

open NativeGlue.Text

/-! ## 1. Item by item -/

/-- Lists are compared by the first items in which they differ, and a beginning comes first. -/
structure Lexicographic {α : Type} [DecidableEq α] (lt : α → α → Prop) [DecidableRel lt]
    (le : List α → List α → Bool) : Prop where
  nil : ∀ s, le [] s = true
  cons_nil : ∀ a r, le (a :: r) [] = false
  cons : ∀ a r b s, le (a :: r) (b :: s) = if a = b then le r s else decide (lt a b)

namespace Lexicographic

variable {α : Type} [DecidableEq α] {lt : α → α → Prop} [DecidableRel lt]
  {le : List α → List α → Bool}

theorem cons_iff (h : Lexicographic lt le) {a b : α} {r s : List α} :
    le (a :: r) (b :: s) = true ↔ (a = b ∧ le r s = true) ∨ (a ≠ b ∧ lt a b) := by
  rw [h.cons]
  split
  · rename_i hab
    simp [hab]
  · rename_i hab
    simp [hab]

theorem total (h : Lexicographic lt le) (trichotomous : ∀ a b, lt a b ∨ a = b ∨ lt b a)
    (r s : List α) : (le r s || le s r) = true := by
  rw [Bool.or_eq_true_iff]
  induction r generalizing s with
  | nil => exact .inl (h.nil s)
  | cons a r ih =>
    cases s with
    | nil => exact .inr (h.nil _)
    | cons b s =>
      rw [h.cons_iff, h.cons_iff]
      by_cases hab : a = b
      · exact (ih s).imp (fun hr => .inl ⟨hab, hr⟩) fun hs => .inl ⟨hab.symm, hs⟩
      · rcases trichotomous a b with hlt | heq | hgt
        · exact .inl (.inr ⟨hab, hlt⟩)
        · exact absurd heq hab
        · exact .inr (.inr ⟨Ne.symm hab, hgt⟩)

theorem trans (h : Lexicographic lt le) (transitive : ∀ a b c, lt a b → lt b c → lt a c)
    (asymmetric : ∀ a b, lt a b → ¬lt b a) (r s q : List α) (hrs : le r s = true)
    (hsq : le s q = true) : le r q = true := by
  induction r generalizing s q with
  | nil => exact h.nil q
  | cons a r ih =>
    cases s with
    | nil =>
      rw [h.cons_nil] at hrs
      cases hrs
    | cons b s =>
      cases q with
      | nil =>
        rw [h.cons_nil] at hsq
        cases hsq
      | cons c q =>
        rw [h.cons_iff] at hrs hsq ⊢
        rcases hrs with ⟨rfl, hrs⟩ | ⟨hab, hlt⟩
        · rcases hsq with ⟨rfl, hsq⟩ | hac
          · exact .inl ⟨rfl, ih s q hrs hsq⟩
          · exact .inr hac
        · rcases hsq with ⟨rfl, -⟩ | ⟨-, hlt'⟩
          · exact .inr ⟨hab, hlt⟩
          · refine .inr ⟨?_, transitive a b c hlt hlt'⟩
            rintro rfl
            exact asymmetric a b hlt hlt'

theorem antisymm (h : Lexicographic lt le) (asymmetric : ∀ a b, lt a b → ¬lt b a) (r s : List α)
    (hrs : le r s = true) (hsr : le s r = true) : r = s := by
  induction r generalizing s with
  | nil =>
    cases s with
    | nil => rfl
    | cons b s =>
      rw [h.cons_nil] at hsr
      cases hsr
  | cons a r ih =>
    cases s with
    | nil =>
      rw [h.cons_nil] at hrs
      cases hrs
    | cons b s =>
      rw [h.cons_iff] at hrs hsr
      rcases hrs with ⟨rfl, hrs⟩ | ⟨hab, hlt⟩
      · rcases hsr with ⟨-, hsr⟩ | ⟨hne, -⟩
        · rw [ih s hrs hsr]
        · exact absurd rfl hne
      · rcases hsr with ⟨rfl, -⟩ | ⟨-, hgt⟩
        · exact absurd rfl hab
        · exact absurd hgt (asymmetric a b hlt)

end Lexicographic

/-! ## 2. Texts, places and keys -/

theorem string_le_trans (a b c : String) (h : decide (a ≤ b) = true) (h' : decide (b ≤ c) = true) :
    decide (a ≤ c) = true :=
  decide_eq_true (String.le_trans (of_decide_eq_true h) (of_decide_eq_true h'))

theorem string_le_total (a b : String) : (decide (a ≤ b) || decide (b ≤ a)) = true := by
  rw [Bool.or_eq_true_iff, decide_eq_true_eq, decide_eq_true_eq]
  exact String.le_total a b

theorem string_le_antisymm (a b : String) (h : decide (a ≤ b) = true) (h' : decide (b ≤ a) = true) :
    a = b :=
  String.le_antisymm (of_decide_eq_true h) (of_decide_eq_true h')

theorem string_trichotomy (a b : String) : a < b ∨ a = b ∨ b < a := by
  by_cases hab : a < b
  · exact .inl hab
  · by_cases hba : b < a
    · exact .inr (.inr hba)
    · exact .inr (.inl (String.le_antisymm (String.not_lt.1 hba) (String.not_lt.1 hab)))

theorem lexicographic_place : Lexicographic (fun a b : String => a < b) Place.precedes where
  nil _ := rfl
  cons_nil _ _ := rfl
  cons _ _ _ _ := rfl

theorem Place.precedes_total (a b : Place) : (Place.precedes a b || Place.precedes b a) = true :=
  lexicographic_place.total string_trichotomy a b

theorem Place.precedes_trans (a b c : Place) (h : Place.precedes a b = true)
    (h' : Place.precedes b c = true) : Place.precedes a c = true :=
  lexicographic_place.trans (fun _ _ _ => String.lt_trans) (fun _ _ => String.lt_asymm) _ _ _ h h'

theorem Place.precedes_antisymm (a b : Place) (h : Place.precedes a b = true)
    (h' : Place.precedes b a = true) : a = b :=
  lexicographic_place.antisymm (fun _ _ => String.lt_asymm) a b h h'

theorem lexicographic_points : Lexicographic (fun a b : Nat => a < b) CodePoints.pointsPrecede where
  nil _ := rfl
  cons_nil _ _ := rfl
  cons _ _ _ _ := rfl

theorem CodePoints.precedes_total (s t : CodePoints) : (s.precedes t || t.precedes s) = true :=
  lexicographic_points.total Nat.lt_trichotomy s.points t.points

theorem CodePoints.precedes_trans (s t u : CodePoints) (h : s.precedes t = true)
    (h' : t.precedes u = true) : s.precedes u = true :=
  lexicographic_points.trans (fun _ _ _ => Nat.lt_trans) (fun _ _ => Nat.lt_asymm) _ _ _ h h'

/-! ## 3. Parts of sorted lists -/

/-- A part of two sorted lists is the same where it is the same, up to the order, in the lists that
were sorted. -/
theorem filter_mergeSort_congr {α : Type} {le : α → α → Bool} {p : α → Bool} {l m : List α}
    (trans : ∀ a b c, le a b → le b c → le a c) (total : ∀ a b, le a b || le b a)
    (antisymm : ∀ a b, le a b → le b a → a = b) (h : (l.filter p).Perm (m.filter p)) :
    (l.mergeSort le).filter p = (m.mergeSort le).filter p := by
  have hperm : ((l.mergeSort le).filter p).Perm ((m.mergeSort le).filter p) :=
    ((List.mergeSort_perm l le).filter p).trans
      (h.trans ((List.mergeSort_perm m le).filter p).symm)
  exact hperm.eq_of_pairwise (fun a b _ _ => antisymm a b)
    ((List.pairwise_mergeSort trans total l).filter p)
    ((List.pairwise_mergeSort trans total m).filter p)

end NativeGlue
