import Mathlib.Data.List.Induction
import NativeGlue.Proofs.FileTree.Built
import NativeGlue.Proofs.Keyed
import NativeGlue.Proofs.Sorting

/-!
# What directories list

Two trees that are the same but for some places list the same names beside those places
(`SameBut.namesIn`, `SameBut.below`). In a tree whose entries all stand in directories nothing is
below a place that is no directory, so what a new directory holds is new (`SameBut.mem_of_below`).
-/

namespace NativeGlue

namespace FileTree

variable {places : List Place} {t u : FileTree}

/-! ## 1. Names in a directory -/

/-- The name by which a place is listed in a directory. -/
def nameIn (directory k : Place) : Option String :=
  if k.length == directory.length + 1 && directory.isPrefixOf k then k.getLast? else none

theorem namesIn_eq (t : FileTree) (directory : Place) :
    t.namesIn directory = ((t.entries.filterMap fun e => nameIn directory e.1).mergeSort
      fun a b => decide (a ≤ b)) :=
  rfl

theorem nameIn_eq_some_iff {directory k : Place} {name : String} :
    nameIn directory k = some name ↔ k = directory ++ [name] := by
  unfold nameIn
  split
  · rename_i h
    rw [Bool.and_eq_true_iff, beq_iff_eq, List.isPrefixOf_iff_prefix] at h
    obtain ⟨hl, r, rfl⟩ := h
    rw [List.length_append] at hl
    obtain ⟨n, rfl⟩ := List.length_eq_one_iff.1 (by omega : r.length = 1)
    rw [List.getLast?_concat]
    constructor
    · intro hn
      rw [Option.some.inj hn]
    · intro hn
      rw [(List.cons.inj (List.append_cancel_left hn)).1]
  · rename_i h
    refine ⟨nofun, fun hk => absurd ?_ h⟩
    rw [hk, Bool.and_eq_true_iff, beq_iff_eq, List.isPrefixOf_iff_prefix]
    exact ⟨List.length_append, List.prefix_append _ _⟩

/-- What is listed in a directory stands in it. -/
theorem mem_namesIn {directory : Place} {name : String} :
    name ∈ t.namesIn directory ↔ ∃ e ∈ t.entries, e.1 = directory ++ [name] := by
  rw [namesIn_eq, List.mem_mergeSort, List.mem_filterMap]
  exact exists_congr fun e => and_congr_right fun _ => nameIn_eq_some_iff

/-- What is picked from the entries beside some places is what is picked of all entries and stands
beside them. -/
theorem filter_filterMap {α : Type} {pick : Place → Option α} {placeOf : α → Place}
    (hpick : ∀ k a, pick k = some a → k = placeOf a) (es : List (Place × Entry)) :
    ((es.filterMap fun e => pick e.1).filter fun a => !places.contains (placeOf a)) =
      (es.filter fun e => !places.contains e.1).filterMap fun e => pick e.1 := by
  rw [List.filter_filterMap, List.filterMap_filter]
  refine List.filterMap_congr fun e _ => ?_
  cases he : pick e.1 with
  | none =>
    rw [Option.filter_none]
    split
    · rfl
    · rfl
  | some a =>
    rw [Option.filter_some, hpick _ _ he]

/-- Beside the touched places a directory lists the same names. -/
theorem SameBut.namesIn (h : SameBut places t u) (directory : Place) :
    ((u.namesIn directory).filter fun name => !places.contains (directory ++ [name])) =
      (t.namesIn directory).filter fun name => !places.contains (directory ++ [name]) := by
  have hpick : ∀ k name, nameIn directory k = some name → k = directory ++ [name] :=
    fun _ _ => nameIn_eq_some_iff.1
  rw [namesIn_eq, namesIn_eq]
  refine filter_mergeSort_congr string_le_trans string_le_total string_le_antisymm ?_
  rw [filter_filterMap hpick, filter_filterMap hpick, h.rest]

/-! ## 2. Places below a directory -/

/-- The names that lead from a directory to a place below it. -/
def namesTo (directory k : Place) : Option Place :=
  if directory.length < k.length && directory.isPrefixOf k then some (k.drop directory.length) else none

theorem namesTo_eq_some_iff {directory k names : Place} :
    namesTo directory k = some names ↔ k = directory ++ names ∧ names ≠ [] := by
  unfold namesTo
  split
  · rename_i h
    rw [Bool.and_eq_true_iff, decide_eq_true_eq, List.isPrefixOf_iff_prefix] at h
    obtain ⟨hl, r, rfl⟩ := h
    have hr : r ≠ [] := by
      rintro rfl
      rw [List.append_nil] at hl
      exact Nat.lt_irrefl _ hl
    rw [List.drop_left]
    constructor
    · intro hn
      obtain rfl := Option.some.inj hn
      exact ⟨rfl, hr⟩
    · rintro ⟨hn, -⟩
      rw [List.append_cancel_left hn]
  · rename_i h
    refine ⟨nofun, fun ⟨hk, hne⟩ => absurd ?_ h⟩
    rw [hk, Bool.and_eq_true_iff, decide_eq_true_eq, List.isPrefixOf_iff_prefix, List.length_append]
    exact ⟨Nat.lt_add_of_pos_right (List.length_pos_iff.2 hne), List.prefix_append _ _⟩

/-- The names that lead to the places below a directory. -/
theorem map_below (t : FileTree) (directory : Place) :
    (t.below directory).map (·.1) =
      (t.entries.filterMap fun e => namesTo directory e.1).mergeSort Place.precedes := by
  unfold below
  dsimp only
  rw [List.map_mergeSort (s := Place.precedes) fun _ _ _ _ => rfl, List.map_filterMap]
  refine congrArg (fun l => List.mergeSort l Place.precedes) ?_
  refine List.filterMap_congr fun e _ => ?_
  unfold namesTo
  split
  · rfl
  · rfl

theorem mem_below {directory names : Place} :
    names ∈ (t.below directory).map (·.1) ↔
      names ≠ [] ∧ ∃ e ∈ t.entries, e.1 = directory ++ names := by
  rw [map_below, List.mem_mergeSort, List.mem_filterMap]
  constructor
  · rintro ⟨e, he, hn⟩
    obtain ⟨hk, hne⟩ := namesTo_eq_some_iff.1 hn
    exact ⟨hne, e, he, hk⟩
  · rintro ⟨hne, e, he, hk⟩
    exact ⟨e, he, namesTo_eq_some_iff.2 ⟨hk, hne⟩⟩

/-- Something stands at the place of an entry. -/
theorem get?_ne_none {e : Place × Entry} (he : e ∈ t.entries) : t.get? e.1 ≠ none := by
  unfold FileTree.get?
  split
  · exact nofun
  · intro hnone
    exact lookup_eq_none.1 hnone (List.mem_map_of_mem he)

/-- Beside the touched places the same places are below a directory. -/
theorem SameBut.below (h : SameBut places t u) (directory : Place) :
    (((u.below directory).map (·.1)).filter fun names => !places.contains (directory ++ names)) =
      ((t.below directory).map (·.1)).filter fun names => !places.contains (directory ++ names) := by
  have hpick : ∀ k names, namesTo directory k = some names → k = directory ++ names :=
    fun _ _ hk => (namesTo_eq_some_iff.1 hk).1
  rw [map_below, map_below]
  refine filter_mergeSort_congr Place.precedes_trans Place.precedes_total Place.precedes_antisymm ?_
  rw [filter_filterMap hpick, filter_filterMap hpick, h.rest]

/-! ## 3. Grounded trees -/

/-- Every entry stands in a directory. -/
def Grounded (t : FileTree) : Prop := ∀ e ∈ t.entries, t.get? e.1.dropLast = some .directory

/-- What has something below it is a directory. -/
theorem Grounded.directory (h : t.Grounded) {q : Place} {e : Place × Entry} (he : e ∈ t.entries)
    (hq : q <+: e.1) (hne : q ≠ e.1) : t.get? q = some .directory := by
  obtain ⟨k, v⟩ := e
  obtain ⟨r, rfl⟩ := hq
  dsimp only at hne
  induction r using List.reverseRecOn generalizing v with
  | nil => exact absurd (List.append_nil q).symm hne
  | append_singleton r name ih =>
    have hparent := h _ he
    rw [← List.append_assoc, List.dropLast_concat] at hparent
    by_cases hr : r = []
    · rw [hr, List.append_nil] at hparent
      exact hparent
    · have hne' : q ++ r ≠ [] := List.append_ne_nil_of_right_ne_nil _ hr
      rw [get?, List.isEmpty_eq_false_iff.2 hne'] at hparent
      refine ih _ (mem_of_lookup hparent) fun hq => hr ?_
      exact List.append_cancel_left (hq.symm.trans (List.append_nil q).symm)

/-- What is below a place that was no directory is new. -/
theorem SameBut.mem_of_below (h : SameBut places t u) (hg : t.Grounded) {q : Place}
    (hq : t.get? q ≠ some .directory) {e : Place × Entry} (he : e ∈ u.entries) (hqe : q <+: e.1)
    (hne : q ≠ e.1) : e.1 ∈ places := by
  refine Classical.byContradiction fun hout => hq ?_
  have hkept : e ∈ u.entries.filter fun e => !places.contains e.1 :=
    List.mem_filter.2 ⟨he, by simpa using hout⟩
  rw [h.rest] at hkept
  exact hg.directory (List.mem_filter.1 hkept).1 hqe hne

end FileTree

end NativeGlue
