import Mathlib.Data.List.Infix
import Mathlib.Data.List.TakeWhile
import NativeGlue.Text.Blank

/-!
# Cuts that undo joins

A text without blanks at its ends is not trimmed (`trimOf_eq_self_iff`), and lines that are put together are cut
apart again (`lines_intercalate`).
-/

namespace NativeGlue.Text

/-! ## 1. Trimming -/

section

variable {p : Char → Bool} {s e : List Char}

theorem dropEnd_eq_self (h : ∀ c ∈ s.getLast?, p c = false) : dropEnd p s = s := by
  rw [dropEnd]
  cases hs : s.reverse with
  | nil => simpa using hs.symm
  | cons c r =>
    have hc : p c = false := h c (by rw [← List.head?_reverse, hs]; rfl)
    rw [List.dropWhile_cons_of_neg (by simp [hc]), ← hs, List.reverse_reverse]

theorem dropEnd_append_of_all (h : ∀ c ∈ e, p c = true) : dropEnd p (s ++ e) = dropEnd p s := by
  have hall : ∀ c ∈ e.reverse, p c = true := fun c hc => h c (List.mem_reverse.1 hc)
  rw [dropEnd, List.reverse_append, List.dropWhile_append_of_pos hall, dropEnd]

theorem isPrefix_dropEnd (p : Char → Bool) (s : List Char) : dropEnd p s <+: s := by
  obtain ⟨t, ht, -⟩ := dropEnd_append p s
  exact ⟨t, ht.symm⟩

/-- A trimmed text is a part of the text. -/
theorem isInfix_trimOf (p : Char → Bool) (s : List Char) : trimOf p s <:+: s :=
  (isPrefix_dropEnd p _).isInfix.trans (List.dropWhile_suffix p).isInfix

/-- A text stays as it is exactly if neither of its ends is dropped. -/
theorem trimOf_eq_self_iff : trimOf p s = s ↔
    (∀ c ∈ s.head?, p c = false) ∧ ∀ c ∈ s.getLast?, p c = false := by
  constructor
  · intro h
    have hlength := (isPrefix_dropEnd p (s.dropWhile p)).length_le
    rw [← trimOf, h] at hlength
    have hwhole : s.dropWhile p = s := (List.dropWhile_suffix p).eq_of_length_le hlength
    refine ⟨fun c hc => ?_, fun c hc => ?_⟩
    · obtain ⟨r, rfl⟩ := List.head?_eq_some_iff.1 hc
      exact Bool.eq_false_iff.2 fun hp => List.dropWhile_eq_self_iff.1 hwhole (by simp) hp
    · refine Bool.eq_false_iff.2 fun hp => ?_
      obtain ⟨r, rfl⟩ := List.getLast?_eq_some_iff.1 hc
      have hshort := (isPrefix_dropEnd p r).length_le
      rw [trimOf, hwhole, dropEnd_append_of_all (by simpa using hp)] at h
      rw [h, List.length_append, List.length_singleton] at hshort
      omega
  · rintro ⟨hhead, hlast⟩
    have hwhole : s.dropWhile p = s := by
      cases s with
      | nil => rfl
      | cons c r => exact List.dropWhile_cons_of_neg (by simp [hhead c rfl])
    rw [trimOf, hwhole, dropEnd_eq_self hlast]

end

/-! ## 2. Lines -/

theorem linesKeptFrom_append {l : List Char} (h : ∀ c ∈ l, isLineEnd c = false) (acc r : List Char) :
    linesKeptFrom acc (l ++ r) = linesKeptFrom (l.reverse ++ acc) r := by
  induction l generalizing acc with
  | nil => rfl
  | cons c l ih =>
    rw [List.forall_mem_cons] at h
    have hreturn : ∀ x, c = '\r' → l ++ r = '\n' :: x → False := by
      rintro x rfl
      exact absurd h.1 (by decide)
    rw [List.cons_append, linesKeptFrom.eq_3 _ _ _ hreturn, if_neg (by simp [h.1]), ih h.2, List.reverse_cons,
      List.append_assoc]
    rfl

/-- The characters that end a line stand at its end. -/
theorem exists_of_mem_linesKeptFrom {acc s l : List Char} (hacc : ∀ c ∈ acc, isLineEnd c = false)
    (h : l ∈ linesKeptFrom acc s) :
    ∃ a e, l = a ++ e ∧ (∀ c ∈ a, isLineEnd c = false) ∧ ∀ c ∈ e, isLineEnd c = true := by
  have hnil : ∀ c ∈ ([] : List Char), isLineEnd c = false := List.forall_mem_nil _
  have hreverse : ∀ c ∈ acc.reverse, isLineEnd c = false := fun c hc => hacc c (List.mem_reverse.1 hc)
  fun_induction linesKeptFrom acc s with
  | case1 => exact absurd h List.not_mem_nil
  | case2 acc =>
    obtain rfl := List.mem_singleton.1 h
    exact ⟨acc.reverse, [], (List.append_nil _).symm, hreverse, List.forall_mem_nil _⟩
  | case3 acc r ih =>
    rcases List.mem_cons.1 h with rfl | h
    · refine ⟨acc.reverse, ['\r', '\n'], ?_, hreverse, List.forall_mem_cons.2 ⟨rfl, List.forall_mem_singleton.2 rfl⟩⟩
      simp
    · exact ih hnil h (by simp)
  | case4 acc c r _ hc ih =>
    rcases List.mem_cons.1 h with rfl | h
    · refine ⟨acc.reverse, [c], List.reverse_cons, hreverse, fun d hd => ?_⟩
      rw [List.mem_singleton.1 hd]
      exact hc
    · exact ih hnil h (by simp)
  | case5 acc c r _ hc ih =>
    have hmore : ∀ d ∈ c :: acc, isLineEnd d = false :=
      List.forall_mem_cons.2 ⟨Bool.eq_false_iff.2 hc, hacc⟩
    exact ih hmore h fun d hd => hmore d (List.mem_reverse.1 hd)

/-- A line of a text is a part of it. -/
theorem subset_of_mem_lines {s l : String} (h : l ∈ lines s) : l.toList ⊆ s.toList := by
  obtain ⟨k, hk, rfl⟩ := List.mem_map.1 h
  intro c hc
  rw [String.toList_ofList] at hc
  have hflat := List.mem_flatten.2 ⟨k, hk, (isPrefix_dropEnd isLineEnd k).subset hc⟩
  rwa [flatten_linesKept] at hflat

/-- **A line holds nothing that ends it.** -/
theorem not_isLineEnd_of_mem_lines {s l : String} (h : l ∈ lines s) : ∀ c ∈ l.toList, isLineEnd c = false := by
  obtain ⟨k, hk, rfl⟩ := List.mem_map.1 h
  obtain ⟨a, e, rfl, ha, he⟩ := exists_of_mem_linesKeptFrom (List.forall_mem_nil _) hk
  intro c hc
  rw [String.toList_ofList, dropEnd_append_of_all he, dropEnd_eq_self fun c hc => ha c (List.mem_of_getLast? hc)] at hc
  exact ha c hc

/-- **Lines that are put together are cut apart again**, if the last one is not empty. -/
theorem lines_intercalate {ls : List String} {last : String}
    (h : ∀ l ∈ ls ++ [last], ∀ c ∈ l.toList, isLineEnd c = false) (hlast : last ≠ "") :
    lines ("\n".intercalate (ls ++ [last])) = ls ++ [last] := by
  induction ls with
  | nil =>
    have hl := h last (List.mem_append_right _ List.mem_cons_self)
    have hne : last.toList.reverse.isEmpty = false := by simpa using hlast
    have hkept : linesKeptFrom [] last.toList = [last.toList] := by
      have happend := linesKeptFrom_append hl [] []
      rw [List.append_nil, List.append_nil] at happend
      rw [happend, linesKeptFrom, hne, if_neg Bool.false_ne_true, List.reverse_reverse]
    rw [List.nil_append, String.intercalate_singleton, lines, hkept, List.map_singleton,
      dropEnd_eq_self fun c hc => hl c (List.mem_of_getLast? hc), String.ofList_toList]
  | cons l ls ih =>
    have hl := h l List.mem_cons_self
    have hrest := ih fun x hx => h x (List.mem_cons_of_mem _ hx)
    obtain ⟨q, qs, hq⟩ := List.exists_cons_of_ne_nil (show ls ++ [last] ≠ [] by simp)
    have hjoined : ("\n".intercalate (l :: (ls ++ [last]))).toList =
        l.toList ++ '\n' :: ("\n".intercalate (ls ++ [last])).toList := by
      rw [hq, String.intercalate_cons_cons, String.toList_append, String.toList_append, List.append_assoc]
      rfl
    have hend : dropEnd isLineEnd (l.toList ++ ['\n']) = l.toList := by
      rw [dropEnd_append_of_all (List.forall_mem_singleton.2 rfl),
        dropEnd_eq_self fun c hc => hl c (List.mem_of_getLast? hc)]
    have hbreak : ∀ acc r, linesKeptFrom acc ('\n' :: r) = (acc.reverse ++ ['\n']) :: linesKeptFrom [] r := by
      intro acc r
      rw [linesKeptFrom.eq_3 _ _ _ fun _ hc => absurd hc (by decide), if_pos (by decide), List.reverse_cons]
    rw [List.cons_append, lines, hjoined, linesKeptFrom_append hl, hbreak, List.map_cons, List.append_nil,
      List.reverse_reverse, hend, String.ofList_toList, ← lines, hrest]

end NativeGlue.Text
