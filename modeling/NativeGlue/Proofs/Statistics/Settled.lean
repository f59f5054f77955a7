import NativeGlue.Proofs.Sorting
import NativeGlue.Proofs.Statistics.History

/-!
# Settled tables

A table that was stored after a numbering is settled: when it is loaded and the same model is numbered
again, every key has a number and every symbol is there, so the stored form and all that is generated
from the table stay as they are (`statsFiles_reloaded`).
-/

namespace NativeGlue

open NativeGlue.Text

/-! ## 1. Sorted tables -/

namespace Statistics

/-- The stored entries are in order. -/
theorem pairwise_sortedEntries (t : Statistics) :
    t.sortedEntries.Pairwise fun a b => decide (a.2 ≤ b.2) = true := by
  refine List.pairwise_mergeSort (fun a b c h h' => ?_) (fun a b => ?_) t.entries
  · exact decide_eq_true (Int.le_trans (of_decide_eq_true h) (of_decide_eq_true h'))
  · rw [Bool.or_eq_true_iff, decide_eq_true_eq, decide_eq_true_eq]
    exact Int.le_total a.2 b.2

/-- The stored symbols are in order. -/
theorem pairwise_sortedNames (t : Statistics) :
    t.sortedNames.Pairwise fun a b => a.1.precedes b.1 = true :=
  List.pairwise_mergeSort (fun a b c => CodePoints.precedes_trans a.1 b.1 c.1)
    (fun a b => CodePoints.precedes_total a.1 b.1) t.names

/-- A table that was reloaded has the stored form of the one that was stored. -/
theorem toJson_sorted (t : Statistics) (active : List CodePoints) :
    (⟨t.sortedEntries, t.sortedNames, active⟩ : Statistics).toJson = t.toJson := by
  have he : (t.sortedEntries.mergeSort fun a b => decide (a.2 ≤ b.2)) = t.sortedEntries :=
    List.mergeSort_of_pairwise t.pairwise_sortedEntries
  have hn : (t.sortedNames.mergeSort fun a b => a.1.precedes b.1) = t.sortedNames :=
    List.mergeSort_of_pairwise t.pairwise_sortedNames
  unfold toJson
  dsimp only
  rw [he, hn]
  rfl

/-- The number of counters does not depend on the order of the entries. -/
theorem capacity_perm {t u : Statistics} (h : t.entries.Perm u.entries) : t.capacity = u.capacity := by
  have le : ∀ {t u : Statistics}, t.entries.Perm u.entries → t.entries ≠ [] →
      t.capacity ≤ u.capacity := by
    intro t u h hne
    obtain ⟨e, he, hc⟩ := exists_capacity hne
    have hlt := lt_capacity (h.subset he)
    omega
  by_cases hne : t.entries = []
  · have hu : u.entries = [] := (hne ▸ h.symm).eq_nil
    rw [capacity_of_nil hne, capacity_of_nil hu]
  · exact Int.le_antisymm (le h hne) (le h.symm fun hu => hne (hu ▸ h).eq_nil)

/-! ## 2. Numbering again -/

/-- Numbering keys that have numbers changes nothing. -/
theorem entries_assignFrom {next : Int} {given entries : List (CodePoints × Int)}
    {keys : List CodePoints} (h : ∀ k ∈ keys, k ∈ entries.map (·.1)) :
    (assignFrom next given entries keys).2 = entries := by
  obtain ⟨ks, he, -, hk⟩ := assignFrom_entries next given entries keys
  have hnone : ks = [] := by
    refine List.eq_nil_iff_forall_not_mem.2 fun k hm => ?_
    exact lookup_eq_none.1 (hk k hm).2 (h k (hk k hm).1)
  rw [he, hnone, numbered, List.append_nil]

/-- A table that was reloaded, with the keys of the last numbering. -/
theorem assign_reloaded {t : Statistics} {symbols : List (CodePoints × CodePoints)}
    (hk : ∀ s ∈ symbols, s.1 ∈ t.entries.map (·.1)) (hd : (t.names.map (·.1)).Nodup)
    (hs : ∀ s ∈ symbols, t.names.lookup s.1 = some s.2) :
    ∃ active, (t.reloaded.assign (symbols.map (·.1)) symbols).2 =
      ⟨t.sortedEntries, t.sortedNames, active⟩ := by
  have hentries : (assignFrom t.reloaded.capacity [] t.sortedEntries (symbols.map (·.1))).2 =
      t.sortedEntries := by
    refine entries_assignFrom fun k hm => ?_
    obtain ⟨s, hsym, rfl⟩ := List.mem_map.1 hm
    exact (t.sortedEntries_perm.map _).symm.subset (hk s hsym)
  have hnames : symbols.foldl (fun ns s => putKey s.1 s.2 ns) t.sortedNames = t.sortedNames := by
    refine foldl_putKey_of_lookup fun s hsym => ?_
    rw [← lookup_perm t.sortedNames_perm.symm hd, hs s hsym]
  have hassign : (t.reloaded.assign (symbols.map (·.1)) symbols).2 =
      ⟨(assignFrom t.reloaded.capacity [] t.sortedEntries (symbols.map (·.1))).2,
        symbols.foldl (fun ns s => putKey s.1 s.2 ns) t.sortedNames,
        (t.reloaded.assign (symbols.map (·.1)) symbols).2.active⟩ := rfl
  rw [hentries, hnames] at hassign
  exact ⟨_, hassign⟩

end Statistics

/-! ## 3. The files of a model -/

namespace Code

open Statistics

theorem nodup_storedSymbols (m : Model) : ((storedSymbols m).map (·.1)).Nodup := by
  have hinjective : Function.Injective CodePoints.ofString := fun s t h => by
    rw [← CodePoints.toText_ofString s, h, CodePoints.toText_ofString]
  have h := (nodup_statsSymbols m).map hinjective
  rw [List.map_map] at h
  rw [storedSymbols, List.map_map]
  exact h

/-- A stored table gives the same numbers, count and stored form when it is loaded for the same
model. -/
theorem statsTable_reloaded {m : Model} {t : Statistics} (h : (statsTable m t).Storable) :
    (∀ k, (statsTable m (statsTable m t).reloaded).indexOf? k = (statsTable m t).indexOf? k) ∧
      (statsTable m (statsTable m t).reloaded).capacity = (statsTable m t).capacity ∧
      (statsTable m (statsTable m t).reloaded).toJson = (statsTable m t).toJson := by
  have hkeys : ∀ s ∈ storedSymbols m, s.1 ∈ (statsTable m t).entries.map (·.1) := by
    intro s hs
    obtain ⟨x, hx, rfl⟩ := List.mem_map.1 hs
    obtain ⟨i, hi⟩ := exists_indexOf?_statsTable t hx
    exact List.mem_map_of_mem (mem_of_lookup hi)
  have hnames : ∀ s ∈ storedSymbols m, (statsTable m t).names.lookup s.1 = some s.2 :=
    fun s hs => lookup_foldl_putKey (nodup_storedSymbols m) hs t.names
  obtain ⟨active, hagain⟩ := assign_reloaded hkeys h.namesDiffer hnames
  have hsame : statsTable m (statsTable m t).reloaded =
      ⟨(statsTable m t).sortedEntries, (statsTable m t).sortedNames, active⟩ := hagain
  rw [hsame]
  refine ⟨fun k => ?_, capacity_perm (sortedEntries_perm _), toJson_sorted _ active⟩
  exact h.indexOf?_reloaded k

/-- **A stored table is settled**: where it is loaded for the same model, nothing that is generated
from it changes. -/
theorem statsFiles_reloaded (name : String) {m : Model} {t : Statistics}
    (h : (statsTable m t).Storable) :
    statsFiles name m (statsTable m t).reloaded = statsFiles name m t := by
  obtain ⟨hnumbers, hcount, hstored⟩ := statsTable_reloaded h
  have hentries : statsEntries m (statsTable m (statsTable m t).reloaded) =
      statsEntries m (statsTable m t) := by
    unfold statsEntries
    simp only [hnumbers]
  rw [statsFiles_eq, statsFiles_eq, hcount, hentries, hstored]

end Code

end NativeGlue
