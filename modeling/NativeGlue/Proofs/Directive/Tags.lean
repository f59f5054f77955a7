import Mathlib.Data.List.Infix
import NativeGlue.Directive.Comment
import NativeGlue.Proofs.Text.Occurrence

/-!
# Tags in a text

A tag is found wherever its word follows an at sign and ends there (`tagWord?_eq_some_iff`). No tag reaches across
a character that is neither an at sign nor part of a word (`lacks_append_cons`), so a text that is put together
with such characters holds no tags but those of its parts. A line that is one tag with a text behind it is cut into
just that (`cutTags_tag`).
-/

namespace NativeGlue.Directive

open NativeGlue.Text

/-! ## 1. The word of a tag -/

/-- The words of tags are made of letters. -/
theorem isWordChar_of_mem_word (k : TagKind) : ∀ c ∈ k.word.toList, isWordChar c = true := by
  cases k <;> decide

/-- No two tags begin alike. -/
theorem word_prefix_inj {j k : TagKind} {s : List Char} (hj : j.word.toList <+: s) (hk : k.word.toList <+: s) :
    j = k := by
  have hapart : ∀ j k : TagKind, j.word.toList.take 1 = k.word.toList.take 1 → j = k := by
    intro j k
    cases j <;> cases k <;> decide
  obtain ⟨a, rfl⟩ := hj
  obtain ⟨b, hb⟩ := hk
  refine hapart j k ?_
  have hfirst := congrArg (List.take 1) hb
  rw [List.take_append_of_le_length (by cases k <;> decide),
    List.take_append_of_le_length (by cases j <;> decide)] at hfirst
  exact hfirst.symm

/-- **A tag is found exactly where its word stands and ends.** -/
theorem tagWord?_eq_some_iff {s : List Char} {k : TagKind} :
    tagWord? s = some k ↔ ∃ r, s = k.word.toList ++ r ∧ endsWord r = true := by
  have hall : ∀ j : TagKind, j ∈ TagKind.all := fun j => by cases j <;> decide
  constructor
  · intro h
    have hfound := List.find?_some h
    split at hfound
    · rename_i r hr
      exact ⟨r, rest?_eq_some_iff.1 hr, hfound⟩
    · cases hfound
  · rintro ⟨r, rfl, hr⟩
    have hk : rest? k.word.toList (k.word.toList ++ r) = some r := rest?_eq_some_iff.2 rfl
    have hsome : (tagWord? (k.word.toList ++ r)).isSome = true :=
      List.find?_isSome.2 ⟨k, hall k, by simp only [hk, hr]⟩
    obtain ⟨j, hj⟩ := Option.isSome_iff_exists.1 hsome
    have hfound := List.find?_some hj
    split at hfound
    · rename_i q hq
      obtain rfl := word_prefix_inj ⟨r, rfl⟩ ⟨q, (rest?_eq_some_iff.1 hq).symm⟩
      exact hj
    · cases hfound

/-! ## 2. Texts without tags -/

/-- A text holds no tag of some kinds. -/
def Lacks (P : TagKind → Prop) (s : List Char) : Prop :=
  ∀ r, '@' :: r <:+ s → ∀ k, tagWord? r = some k → ¬ P k

section

variable {P : TagKind → Prop} {s t : List Char} {c : Char}

theorem Lacks.nil : Lacks P [] := by
  intro r hr
  cases List.eq_nil_of_suffix_nil hr

theorem Lacks.of_suffix (h : Lacks P s) (ht : t <:+ s) : Lacks P t := fun r hr => h r (hr.trans ht)

theorem lacks_cons : Lacks P (c :: s) ↔ (c = '@' → ∀ k, tagWord? s = some k → ¬ P k) ∧ Lacks P s := by
  constructor
  · refine fun h => ⟨?_, h.of_suffix (List.suffix_cons c s)⟩
    rintro rfl
    exact h s (List.suffix_refl _)
  · rintro ⟨hc, hs⟩ r hr
    rcases List.suffix_cons_iff.1 hr with he | hr
    · obtain ⟨rfl, rfl⟩ := List.cons.inj he
      exact hc rfl
    · exact hs r hr

/-- A tag begins with an at sign. -/
theorem lacks_append_of_not_mem (ht : '@' ∉ t) : Lacks P (t ++ s) ↔ Lacks P s := by
  induction t with
  | nil => exact Iff.rfl
  | cons d t ih =>
    rw [List.mem_cons, not_or] at ht
    rw [List.cons_append, lacks_cons, ih ht.2]
    exact and_iff_right fun h => absurd h.symm ht.1

/-- **No tag reaches across a character that is no part of a word.** -/
theorem lacks_append_cons (hc : isWordChar c = false) :
    Lacks P (s ++ c :: t) ↔ Lacks P s ∧ Lacks P (c :: t) := by
  have hends : endsWord (c :: t) = true := by rw [endsWord, hc]; rfl
  have hreach : ∀ s k, tagWord? (s ++ c :: t) = some k ↔ tagWord? s = some k := by
    intro s k
    rw [tagWord?_eq_some_iff, tagWord?_eq_some_iff]
    constructor
    · rintro ⟨r, hr, hword⟩
      rcases List.append_eq_append_iff.1 hr with ⟨a, ha, hb⟩ | ⟨a, rfl, rfl⟩
      · -- The word would have to go on with the character.
        cases a with
        | nil => exact ⟨[], by rw [List.append_nil, ha, List.append_nil], rfl⟩
        | cons d a =>
          obtain ⟨rfl, -⟩ := List.cons.inj hb
          have hmem : c ∈ k.word.toList := ha ▸ List.mem_append_right _ List.mem_cons_self
          rw [isWordChar_of_mem_word k c hmem] at hc
          cases hc
      · exact ⟨a, rfl, by cases a with | nil => rfl | cons d a => exact hword⟩
    · rintro ⟨r, rfl, hword⟩
      refine ⟨r ++ c :: t, List.append_assoc .., ?_⟩
      cases r with
      | nil => exact hends
      | cons d r => exact hword
  induction s with
  | nil => exact (and_iff_right Lacks.nil).symm
  | cons d s ih =>
    rw [List.cons_append, lacks_cons, lacks_cons, and_assoc]
    exact and_congr (by simp only [hreach]) ih

/-- Texts without tags are put together to one, with what is no part of a word between them. -/
theorem lacks_intercalate {sep : String} {c : Char} (hc : isWordChar c = false ∧ c ≠ '@') (hsep : sep.toList = [c])
    {ls : List String} (h : ∀ l ∈ ls, Lacks P l.toList) : Lacks P (sep.intercalate ls).toList := by
  induction ls with
  | nil => exact Lacks.nil
  | cons l ls ih =>
    rw [List.forall_mem_cons] at h
    cases ls with
    | nil =>
      rw [String.intercalate_singleton]
      exact h.1
    | cons l' ls =>
      rw [String.intercalate_cons_cons, String.toList_append, String.toList_append, hsep, List.append_assoc,
        List.singleton_append, lacks_append_cons hc.1, lacks_cons]
      exact ⟨h.1, fun he => absurd he hc.2, ih h.2⟩

theorem lacks_word (k : TagKind) : Lacks P (k.word.toList ++ s) ↔ Lacks P s :=
  lacks_append_of_not_mem (by cases k <;> decide)

end

/-- A text without struct tags has no bare one. -/
theorem hasStructTag_eq_false {s : List Char} (h : Lacks (· = .struct) s) : hasStructTag s = false := by
  induction s with
  | nil => rfl
  | cons c r ih =>
    rw [hasStructTag, ih (lacks_cons.1 h).2, Bool.or_false]
    split
    · rename_i q hq
      obtain ⟨rfl, rfl⟩ := List.cons.inj (rest?_eq_some_iff.1 hq)
      refine Bool.eq_false_iff.2 fun hends => (lacks_cons.1 h).1 rfl .struct ?_ rfl
      exact tagWord?_eq_some_iff.2 ⟨q, rfl, hends⟩
    · rfl

/-! ## 3. Cutting -/

theorem cutTags_skip (current : Option (TagKind × List Char)) (w r : List Char) :
    cutTags current w.length (w ++ r) = cutTags current 0 r := by
  induction w with
  | nil => rfl
  | cons c w ih => rw [List.length_cons, List.cons_append, cutTags, ih]

/-- A text without tags is all about the tag before it. -/
theorem cutTags_of_lacks {s : List Char} (h : Lacks (fun _ => True) s) (k : TagKind) (acc : List Char) :
    cutTags (some (k, acc)) 0 s = [(k, acc.reverse ++ s)] := by
  induction s generalizing acc with
  | nil => rw [cutTags, List.append_nil]; rfl
  | cons c r ih =>
    rw [lacks_cons] at h
    have hnone : (if c = '@' then tagWord? r else none) = none := by
      split
      · rename_i hc
        exact Option.eq_none_iff_forall_ne_some.2 fun j hj => h.1 hc j hj trivial
      · rfl
    rw [cutTags, hnone]
    refine (ih h.2 (c :: acc)).trans ?_
    rw [List.reverse_cons, List.append_assoc, List.singleton_append]

/-- **A tag with a text that holds none is cut into just that.** -/
theorem cutTags_tag (k : TagKind) {c : Char} {s : List Char} (hc : isWordChar c = false)
    (h : Lacks (fun _ => True) (c :: s)) :
    cutTags none 0 ('@' :: (k.word.toList ++ c :: s)) = [(k, c :: s)] := by
  have hfound : tagWord? (k.word.toList ++ c :: s) = some k :=
    tagWord?_eq_some_iff.2 ⟨c :: s, rfl, by rw [endsWord, hc]; rfl⟩
  rw [cutTags, if_pos rfl, hfound]
  dsimp only
  rw [← String.length_toList, cutTags_skip, cutTags_of_lacks h]
  rfl

end NativeGlue.Directive
