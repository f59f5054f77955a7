import NativeGlue.Proofs.Keyed

/-!
# Numbering

What one numbering does to a table: the new entries stand behind the old ones, their keys are new and
differ, and their numbers run on from the capacity without a gap (`assignFrom_entries`). Since every
number of a table is below its capacity (`lt_capacity`), no number is given twice, whatever gaps and
retired keys the table has.
-/

namespace NativeGlue.Statistics

open NativeGlue.Text

/-! ## 1. The capacity -/

/-- The greatest number of entries that are not empty: one of them has it, and none has more. -/
theorem foldl_max (es : List (CodePoints × Int)) (n : Int) :
    n ≤ es.foldl (fun m e => max m e.2) n ∧ (∀ e ∈ es, e.2 ≤ es.foldl (fun m e => max m e.2) n) ∧
      (es.foldl (fun m e => max m e.2) n = n ∨
        ∃ e ∈ es, e.2 = es.foldl (fun m e => max m e.2) n) := by
  induction es generalizing n with
  | nil => exact ⟨Int.le_refl n, by simp, .inl rfl⟩
  | cons e r ih =>
    obtain ⟨h1, h2, h3⟩ := ih (max n e.2)
    rw [List.foldl_cons]
    refine ⟨by omega, fun x hx => ?_, ?_⟩
    · rcases List.mem_cons.1 hx with rfl | hx
      · omega
      · exact h2 x hx
    · rcases h3 with h3 | ⟨x, hx, h3⟩
      · by_cases hn : e.2 ≤ n
        · rw [h3]
          exact .inl (by omega)
        · exact .inr ⟨e, List.mem_cons_self, by omega⟩
      · exact .inr ⟨x, List.mem_cons_of_mem _ hx, h3⟩

theorem lt_capacity {t : Statistics} {e : CodePoints × Int} (h : e ∈ t.entries) :
    e.2 < t.capacity := by
  unfold capacity
  cases he : t.entries with
  | nil =>
    rw [he] at h
    cases h
  | cons x r =>
    rw [he] at h
    obtain ⟨h1, h2, -⟩ := foldl_max r x.2
    rcases List.mem_cons.1 h with rfl | h
    · exact Int.lt_add_one_of_le h1
    · exact Int.lt_add_one_of_le (h2 e h)

theorem capacity_of_nil {t : Statistics} (h : t.entries = []) : t.capacity = 0 := by
  unfold capacity
  rw [h]

/-- The capacity is one past a number that was given. -/
theorem exists_capacity {t : Statistics} (h : t.entries ≠ []) :
    ∃ e ∈ t.entries, e.2 + 1 = t.capacity := by
  unfold capacity
  cases he : t.entries with
  | nil => exact absurd he h
  | cons x r =>
    obtain ⟨-, -, h3⟩ := foldl_max r x.2
    rcases h3 with h3 | ⟨e, hm, h3⟩
    · exact ⟨x, List.mem_cons_self, congrArg (· + 1) h3.symm⟩
    · exact ⟨e, List.mem_cons_of_mem _ hm, congrArg (· + 1) h3⟩

/-! ## 2. One numbering -/

/-- Keys with the numbers from `next` on. -/
def numbered (next : Int) : List CodePoints → List (CodePoints × Int)
  | [] => []
  | k :: r => (k, next) :: numbered (next + 1) r

theorem keys_numbered (next : Int) (ks : List CodePoints) : (numbered next ks).map (·.1) = ks := by
  induction ks generalizing next with
  | nil => rfl
  | cons k r ih => rw [numbered, List.map_cons, ih]

theorem le_of_mem_numbered {next : Int} {ks : List CodePoints} {e : CodePoints × Int}
    (h : e ∈ numbered next ks) : next ≤ e.2 := by
  induction ks generalizing next with
  | nil => cases h
  | cons k r ih =>
    rcases List.mem_cons.1 h with rfl | h
    · exact Int.le_refl _
    · have := ih h
      omega

theorem lt_of_mem_numbered {next : Int} {ks : List CodePoints} {e : CodePoints × Int}
    (h : e ∈ numbered next ks) : e.2 < next + ks.length := by
  induction ks generalizing next with
  | nil => cases h
  | cons k r ih =>
    rw [List.length_cons]
    rcases List.mem_cons.1 h with rfl | h
    · dsimp only
      omega
    · have := ih h
      omega

theorem nodup_numbered (next : Int) (ks : List CodePoints) :
    ((numbered next ks).map (·.2)).Nodup := by
  induction ks generalizing next with
  | nil => exact .nil
  | cons k r ih =>
    rw [numbered, List.map_cons, List.nodup_cons]
    refine ⟨fun h => ?_, ih (next + 1)⟩
    obtain ⟨e, he, heq⟩ := List.mem_map.1 h
    have := le_of_mem_numbered he
    omega

/-- **The new entries stand behind the old ones and are numbered without a gap**; their keys are
among those asked for, differ, and had no number. -/
theorem assignFrom_entries (next : Int) (given entries : List (CodePoints × Int))
    (keys : List CodePoints) :
    ∃ ks, (assignFrom next given entries keys).2 = entries ++ numbered next ks ∧ ks.Nodup ∧
      ∀ k ∈ ks, k ∈ keys ∧ entries.lookup k = none := by
  fun_induction assignFrom next given entries keys with
  | case1 next given entries => exact ⟨[], (List.append_nil _).symm, .nil, by simp⟩
  | case2 next given entries k r _ ih =>
    obtain ⟨ks, he, hd, hk⟩ := ih
    exact ⟨ks, he, hd, fun x hx => (hk x hx).imp_left (List.mem_cons_of_mem _)⟩
  | case3 next given entries k r _ i _ ih =>
    obtain ⟨ks, he, hd, hk⟩ := ih
    exact ⟨ks, he, hd, fun x hx => (hk x hx).imp_left (List.mem_cons_of_mem _)⟩
  | case4 next given entries k r _ hnone ih =>
    obtain ⟨ks, he, hd, hk⟩ := ih
    have hnew : ∀ x ∈ ks, x ≠ k ∧ entries.lookup x = none := by
      intro x hx
      have hx := lookup_eq_none.1 (hk x hx).2
      rw [List.map_append, List.mem_append, not_or] at hx
      exact ⟨fun e => hx.2 (by simp [e]), lookup_eq_none.2 hx.1⟩
    refine ⟨k :: ks, ?_, List.nodup_cons.2 ⟨fun hm => (hnew k hm).1 rfl, hd⟩, fun x hx => ?_⟩
    · rw [he, numbered, List.append_assoc]
      rfl
    · rcases List.mem_cons.1 hx with rfl | hx
      · exact ⟨List.mem_cons_self, hnone⟩
      · exact ⟨List.mem_cons_of_mem _ (hk x hx).1, (hnew x hx).2⟩

/-- Every key that is asked for has a number afterwards. -/
theorem mem_keys_assignFrom {next : Int} {given entries : List (CodePoints × Int)}
    {keys : List CodePoints} (hg : ∀ k ∈ given.map (·.1), k ∈ entries.map (·.1)) {k : CodePoints}
    (hk : k ∈ keys) : k ∈ ((assignFrom next given entries keys).2).map (·.1) := by
  have kept : ∀ {next given entries keys}, k ∈ entries.map (·.1) →
      k ∈ ((assignFrom next given entries keys).2).map (·.1) := by
    intro next given entries keys h
    obtain ⟨ks, he, -⟩ := assignFrom_entries next given entries keys
    rw [he, List.map_append]
    exact List.mem_append_left _ h
  fun_induction assignFrom next given entries keys with
  | case1 => cases hk
  | case2 next given entries q r hq ih =>
    rcases List.mem_cons.1 hk with rfl | hk
    · refine kept (hg k ?_)
      by_contra hno
      rw [lookup_eq_none.2 hno] at hq
      cases hq
    · exact ih hg hk
  | case3 next given entries q r _ i hi ih =>
    have hq : q ∈ entries.map (·.1) := List.mem_map_of_mem (mem_of_lookup hi)
    rcases List.mem_cons.1 hk with rfl | hk
    · exact kept hq
    · refine ih (fun x hx => ?_) hk
      rw [List.map_append, List.mem_append] at hx
      rcases hx with hx | hx
      · exact hg x hx
      · rw [List.mem_singleton.1 hx]
        exact hq
  | case4 next given entries q r _ hnone ih =>
    rcases List.mem_cons.1 hk with rfl | hk
    · refine kept ?_
      rw [List.map_append]
      exact List.mem_append_right _ List.mem_cons_self
    · refine ih (fun x hx => ?_) hk
      rw [List.map_append, List.mem_append] at hx ⊢
      exact hx.imp_left (hg x)

end NativeGlue.Statistics
