import Mathlib.Data.List.Nodup
import NativeGlue.Statistics

/-!
# Lists by key

Entries that are looked up by a key, and what putting one of them does: a key that is there stays in
its place, a new one comes last, and no key is ever there twice. Where the last entry of several counts, a list
is split there (`exists_last_of_exists`).
-/

namespace NativeGlue

/-! ## 1. Looking up -/

section

variable {κ α : Type} [BEq κ] [LawfulBEq κ]

theorem mem_of_lookup {es : List (κ × α)} {k : κ} {v : α} (h : es.lookup k = some v) :
    (k, v) ∈ es := by
  obtain ⟨l, r, rfl, -⟩ := List.lookup_eq_some_iff.1 h
  exact List.mem_append_right l List.mem_cons_self

theorem lookup_eq_none {es : List (κ × α)} {k : κ} : es.lookup k = none ↔ k ∉ es.map (·.1) := by
  rw [List.lookup_eq_none_iff]
  refine ⟨fun h hk => ?_, fun h e he => bne_iff_ne.2 fun hk => h ?_⟩
  · obtain ⟨e, he, rfl⟩ := List.mem_map.1 hk
    exact bne_iff_ne.1 (h e he) rfl
  · rw [hk]
    exact List.mem_map_of_mem he

theorem exists_lookup {es : List (κ × α)} {k : κ} (h : k ∈ es.map (·.1)) :
    ∃ v, es.lookup k = some v := by
  cases hk : es.lookup k with
  | none => exact absurd h (lookup_eq_none.1 hk)
  | some v => exact ⟨v, rfl⟩

/-- What stands first is found first. -/
theorem lookup_cons_ite [DecidableEq κ] (k : κ) (v : α) (es : List (κ × α)) (q : κ) :
    List.lookup q ((k, v) :: es) = if q = k then some v else es.lookup q := by
  rw [List.lookup_cons]
  by_cases hq : q = k
  · rw [beq_iff_eq.2 hq, if_pos hq]
  · rw [beq_eq_false_iff_ne.2 hq, if_neg hq]

/-- Where no key is there twice, an entry is what its key leads to. -/
theorem lookup_of_mem {es : List (κ × α)} (hd : (es.map (·.1)).Nodup) {k : κ} {v : α}
    (h : (k, v) ∈ es) : es.lookup k = some v := by
  obtain ⟨l, r, rfl⟩ := List.append_of_mem h
  refine List.lookup_eq_some_iff.2 ⟨l, r, rfl, fun e he => bne_iff_ne.2 fun hk => ?_⟩
  rw [List.map_append, List.nodup_append] at hd
  exact hd.2.2 e.1 (List.mem_map_of_mem he) k List.mem_cons_self hk.symm

/-- Where no key is there twice, the order of the entries does not matter. -/
theorem lookup_perm {es fs : List (κ × α)} (h : es.Perm fs) (hd : (es.map (·.1)).Nodup) (k : κ) :
    es.lookup k = fs.lookup k := by
  have hf : (fs.map (·.1)).Nodup := (h.map _).nodup_iff.1 hd
  cases hk : fs.lookup k with
  | none => exact lookup_eq_none.2 fun hm => lookup_eq_none.1 hk ((h.map _).mem_iff.1 hm)
  | some v => exact lookup_of_mem hd (h.mem_iff.2 (mem_of_lookup hk))

end

/-! ## 2. Putting -/

section

variable {κ α : Type} [DecidableEq κ]

theorem mem_of_mem_putKey {k : κ} {v : α} {es : List (κ × α)} {e : κ × α}
    (h : e ∈ putKey k v es) : e ∈ es ∨ e = (k, v) := by
  fun_induction putKey k v es with
  | case1 => exact .inr (List.mem_singleton.1 h)
  | case2 w r =>
    rcases List.mem_cons.1 h with rfl | h
    · exact .inr rfl
    · exact .inl (List.mem_cons_of_mem _ h)
  | case3 q w r hq ih =>
    rcases List.mem_cons.1 h with rfl | h
    · exact .inl List.mem_cons_self
    · exact (ih h).imp_left (List.mem_cons_of_mem _)

/-- A key that is not there comes last. -/
theorem putKey_of_not_mem {k : κ} {es : List (κ × α)} (h : k ∉ es.map (·.1)) (v : α) :
    putKey k v es = es ++ [(k, v)] := by
  induction es with
  | nil => rfl
  | cons e r ih =>
    rw [List.map_cons, List.mem_cons, not_or] at h
    rw [putKey, if_neg (Ne.symm h.1), ih h.2, List.cons_append]

theorem keys_putKey_of_mem {k : κ} {es : List (κ × α)} (h : k ∈ es.map (·.1)) (v : α) :
    (putKey k v es).map (·.1) = es.map (·.1) := by
  fun_induction putKey k v es with
  | case1 => cases h
  | case2 w r => rfl
  | case3 q w r hq ih =>
    rw [List.map_cons, List.mem_cons] at h
    rw [List.map_cons, List.map_cons, ih (h.resolve_left (Ne.symm hq))]

/-- No key is there twice, however often one is put. -/
theorem nodup_putKey (k : κ) (v : α) {es : List (κ × α)} (h : (es.map (·.1)).Nodup) :
    ((putKey k v es).map (·.1)).Nodup := by
  by_cases hk : k ∈ es.map (·.1)
  · rw [keys_putKey_of_mem hk]
    exact h
  · rw [putKey_of_not_mem hk, List.map_append, List.nodup_append]
    refine ⟨h, List.nodup_singleton k, fun a ha b hb hab => ?_⟩
    have hb : b = k := List.mem_singleton.1 hb
    rw [← hb, ← hab] at hk
    exact hk ha

theorem lookup_putKey_self (k : κ) (v : α) (es : List (κ × α)) :
    (putKey k v es).lookup k = some v := by
  fun_induction putKey k v es with
  | case1 => simp
  | case2 w r => simp
  | case3 q w r hq ih =>
    have hne : (k == q) = false := beq_eq_false_iff_ne.2 (Ne.symm hq)
    rw [List.lookup_cons, hne]
    exact ih

theorem lookup_putKey_ne {k q : κ} (h : q ≠ k) (v : α) (es : List (κ × α)) :
    (putKey k v es).lookup q = es.lookup q := by
  have hk : (q == k) = false := beq_eq_false_iff_ne.2 h
  fun_induction putKey k v es with
  | case1 => rw [List.lookup_cons, hk]
  | case2 w r => rw [List.lookup_cons, List.lookup_cons, hk]
  | case3 x w r hx ih => rw [List.lookup_cons, List.lookup_cons, ih]

/-- Putting what is there changes nothing. -/
theorem putKey_of_lookup {k : κ} {v : α} {es : List (κ × α)} (h : es.lookup k = some v) :
    putKey k v es = es := by
  fun_induction putKey k v es with
  | case1 => cases h
  | case2 w r =>
    rw [List.lookup_cons_self] at h
    rw [Option.some.inj h]
  | case3 q w r hq ih =>
    have hne : (k == q) = false := beq_eq_false_iff_ne.2 (Ne.symm hq)
    rw [List.lookup_cons, hne] at h
    rw [ih h]

/-- Several entries put one after the other. -/
theorem lookup_foldl_putKey_ne {k : κ} {ns : List (κ × α)} (h : k ∉ ns.map (·.1))
    (es : List (κ × α)) :
    (ns.foldl (fun es n => putKey n.1 n.2 es) es).lookup k = es.lookup k := by
  induction ns generalizing es with
  | nil => rfl
  | cons n r ih =>
    rw [List.map_cons, List.mem_cons, not_or] at h
    rw [List.foldl_cons, ih h.2, lookup_putKey_ne h.1]

/-- Entries whose keys differ are all there once they were put. -/
theorem lookup_foldl_putKey {ns : List (κ × α)} (hd : (ns.map (·.1)).Nodup) {n : κ × α}
    (hn : n ∈ ns) (es : List (κ × α)) :
    (ns.foldl (fun es n => putKey n.1 n.2 es) es).lookup n.1 = some n.2 := by
  induction ns generalizing es with
  | nil => cases hn
  | cons m r ih =>
    rw [List.map_cons, List.nodup_cons] at hd
    rw [List.foldl_cons]
    rcases List.mem_cons.1 hn with rfl | hn
    · rw [lookup_foldl_putKey_ne hd.1, lookup_putKey_self]
    · exact ih hd.2 hn _

/-- Putting entries that are there changes nothing. -/
theorem foldl_putKey_of_lookup {ns es : List (κ × α)} (h : ∀ n ∈ ns, es.lookup n.1 = some n.2) :
    ns.foldl (fun es n => putKey n.1 n.2 es) es = es := by
  induction ns with
  | nil => rfl
  | cons n r ih =>
    rw [List.foldl_cons, putKey_of_lookup (h n List.mem_cons_self)]
    exact ih fun m hm => h m (List.mem_cons_of_mem _ hm)

end

/-! ## 3. The last of several -/

/-- Of the items of some kind in a list there is a last one. -/
theorem exists_last_of_exists {α : Type} {P : α → Prop} {l : List α} (h : ∃ x ∈ l, P x) :
    ∃ before x after, l = before ++ x :: after ∧ P x ∧ ∀ y ∈ after, ¬ P y := by
  induction l with
  | nil =>
    obtain ⟨x, hx, -⟩ := h
    cases hx
  | cons a l ih =>
    by_cases hl : ∃ x ∈ l, P x
    · obtain ⟨before, x, after, rfl, hx, hlast⟩ := ih hl
      exact ⟨a :: before, x, after, rfl, hx, hlast⟩
    · obtain ⟨x, hx, hp⟩ := h
      obtain rfl := (List.mem_cons.1 hx).resolve_right fun hx => hl ⟨x, hx, hp⟩
      exact ⟨[], x, l, rfl, hp, fun y hy hy' => hl ⟨y, hy, hy'⟩⟩

end NativeGlue
