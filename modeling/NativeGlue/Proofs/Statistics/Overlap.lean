import NativeGlue.Proofs.Statistics.Settled

/-!
# Two numberings of one table

A numbering gives the new keys of a model, in the order in which the model has them, the numbers from
the capacity on (`entries_statsTable`). So two models that are numbered with the same table give one
number to two keys as a rule: what the first gives stands in the table of the second as well exactly if
the new keys of the first are the new keys with which the second begins (`keeps_statsTable_iff`).
-/

namespace NativeGlue

open NativeGlue.Text

namespace Statistics

/-! ## 1. Numbers in a row -/

theorem numbered_append (next : Int) (ks ls : List CodePoints) :
    numbered next (ks ++ ls) = numbered next ks ++ numbered (next + ks.length) ls := by
  induction ks generalizing next with
  | nil => simp [numbered]
  | cons k r ih =>
    have hnext : next + 1 + (r.length : Int) = next + ((k :: r).length : Int) := by
      rw [List.length_cons]
      omega
    rw [List.cons_append, numbered, numbered, ih, hnext, List.cons_append]

/-- Keys have the same numbers in two rows that start alike exactly if the one row is how the other one
begins. -/
theorem lookup_numbered_iff (next : Int) {ks ls : List CodePoints} (hd : ks.Nodup) :
    (∀ k i, (numbered next ks).lookup k = some i → (numbered next ls).lookup k = some i) ↔
      ks <+: ls := by
  constructor
  · intro h
    induction ks generalizing next ls with
    | nil => exact List.nil_prefix
    | cons k r ih =>
      rw [List.nodup_cons] at hd
      have hfirst := h k next List.lookup_cons_self
      cases ls with
      | nil => cases hfirst
      | cons l s =>
        -- only the first key of a row has its first number
        obtain rfl : k = l := by
          rcases List.mem_cons.1 (mem_of_lookup hfirst) with he | hm
          · exact congrArg Prod.fst he
          · have hle := le_of_mem_numbered hm
            omega
        refine List.cons_prefix_cons.2 ⟨rfl, ih (next + 1) hd.2 fun q i hq => ?_⟩
        have hne : (q == k) = false := by
          refine beq_eq_false_iff_ne.2 fun he => hd.1 ?_
          have hm := List.mem_map_of_mem (f := (·.1)) (mem_of_lookup hq)
          rw [keys_numbered] at hm
          exact he ▸ hm
        have hq' : (numbered next (k :: r)).lookup q = some i := by
          rw [numbered, List.lookup_cons, hne]
          exact hq
        have hl := h q i hq'
        rw [numbered, List.lookup_cons, hne] at hl
        exact hl
  · rintro ⟨rest, rfl⟩ k i hi
    rw [numbered_append]
    exact lookup_append_of_some hi

/-- Where no key is asked for twice, the new ones get numbers in the order in which they are asked
for. -/
theorem assignFrom_of_nodup {next : Int} {given entries : List (CodePoints × Int)}
    {keys : List CodePoints} (hd : keys.Nodup) (hg : ∀ k ∈ keys, given.lookup k = none) :
    (assignFrom next given entries keys).2 =
      entries ++ numbered next (keys.filter fun k => (entries.lookup k).isNone) := by
  have later : ∀ {k q : CodePoints} {r : List CodePoints} {i : Int} {es : List (CodePoints × Int)},
      (k :: r).Nodup → q ∈ r → es.lookup q = none → (es ++ [(k, i)]).lookup q = none := by
    intro k q r i es hd hq hnone
    have hne : q ≠ k := fun he => (List.nodup_cons.1 hd).1 (he ▸ hq)
    rw [List.lookup_append, hnone, List.lookup_cons, beq_eq_false_iff_ne.2 hne]
    rfl
  fun_induction assignFrom next given entries keys with
  | case1 next given entries => exact (List.append_nil entries).symm
  | case2 next given entries k r hk ih =>
    rw [hg k List.mem_cons_self] at hk
    cases hk
  | case3 next given entries k r hk i hi ih =>
    rw [ih (List.nodup_cons.1 hd).2 fun q hq => later hd hq (hg q (List.mem_cons_of_mem k hq)),
      List.filter_cons_of_neg (by rw [hi]; exact Bool.false_ne_true)]
  | case4 next given entries k r hk hnone ih =>
    have hsame : (r.filter fun q => ((entries ++ [(k, next)]).lookup q).isNone) =
        r.filter fun q => (entries.lookup q).isNone := by
      refine List.filter_congr fun q hq => ?_
      cases he : entries.lookup q with
      | none => rw [later hd hq he]
      | some i => rw [lookup_append_of_some he]
    rw [ih (List.nodup_cons.1 hd).2 fun q hq => later hd hq (hg q (List.mem_cons_of_mem k hq)),
      hsame, List.filter_cons_of_pos (by rw [hnone]; rfl), numbered, List.append_assoc]
    rfl

end Statistics

namespace Code

open Statistics

/-! ## 2. The new keys of a model -/

/-- The keys of a model to which a table gives no number yet, in the order of the model. -/
def newKeys (m : Model) (t : Statistics) : List CodePoints :=
  ((storedSymbols m).map (·.1)).filter fun k => (t.indexOf? k).isNone

variable {m m' : Model} {t : Statistics}

/-- The keys that are numbered are those of the native methods. -/
theorem mem_keys_storedSymbols {k : CodePoints} :
    k ∈ (storedSymbols m).map (·.1) ↔ ∃ n ∈ m.natives, CodePoints.ofString n.identity.key = k := by
  have hkeys : ∀ key : String, key ∈ (statsSymbols m).map (·.1) ↔
      ∃ n ∈ m.natives, n.identity.key = key := by
    intro key
    constructor
    · intro h
      by_contra hno
      have hnone := (symbols_foldl m.natives [] .nil).2 key fun n hn he => hno ⟨n, hn, he⟩
      exact lookup_eq_none.1 hnone h
    · rintro ⟨n, hn, rfl⟩
      obtain ⟨x, hx, hkey⟩ := exists_isLast hn
      exact hkey ▸ List.mem_map_of_mem (mem_of_lookup (lookup_statsSymbols hx))
  rw [storedSymbols, List.map_map]
  constructor
  · intro h
    obtain ⟨s, hs, rfl⟩ := List.mem_map.1 h
    obtain ⟨n, hn, he⟩ := (hkeys s.1).1 (List.mem_map_of_mem hs)
    exact ⟨n, hn, congrArg CodePoints.ofString he⟩
  · rintro ⟨n, hn, rfl⟩
    obtain ⟨s, hs, he⟩ := List.mem_map.1 ((hkeys n.identity.key).2 ⟨n, hn, rfl⟩)
    exact List.mem_map.2 ⟨s, hs, congrArg CodePoints.ofString he⟩

/-- **The new keys of a model stand behind the entries**, numbered from the capacity on. -/
theorem entries_statsTable (m : Model) (t : Statistics) :
    (statsTable m t).entries = t.entries ++ numbered t.capacity (newKeys m t) := by
  rw [statsTable_eq]
  exact assignFrom_of_nodup (nodup_storedSymbols m) fun _ _ => rfl

theorem indexOf?_statsTable_of_none {k : CodePoints} (h : t.indexOf? k = none) :
    (statsTable m t).indexOf? k = (numbered t.capacity (newKeys m t)).lookup k := by
  rw [indexOf?, entries_statsTable, List.lookup_append, show t.entries.lookup k = none from h,
    Option.none_or]

/-- A table keeps what a model was given by another one: every key of the model has the number. -/
def Keeps (u : Statistics) (m : Model) (t : Statistics) : Prop :=
  ∀ k ∈ (storedSymbols m).map (·.1), ∀ i, (statsTable m t).indexOf? k = some i →
    u.indexOf? k = some i

/-- **Two models number alike only as far as their new keys are the same in the same order.** -/
theorem keeps_statsTable_iff : Keeps (statsTable m' t) m t ↔ newKeys m t <+: newKeys m' t := by
  have hd : (newKeys m t).Nodup := (nodup_storedSymbols m).filter _
  rw [← lookup_numbered_iff t.capacity hd]
  constructor
  · intro h k i hi
    have hk : k ∈ newKeys m t := by
      have hm := List.mem_map_of_mem (f := (·.1)) (mem_of_lookup hi)
      rw [keys_numbered] at hm
      exact hm
    obtain ⟨hmem, hnone⟩ := List.mem_filter.1 hk
    rw [Option.isNone_iff_eq_none] at hnone
    have hgiven := h k hmem i ((indexOf?_statsTable_of_none hnone).trans hi)
    rw [indexOf?_statsTable_of_none hnone] at hgiven
    exact hgiven
  · intro h k hk i hi
    cases hold : t.indexOf? k with
    | some j =>
      obtain ⟨hkept, -⟩ := indexOf?_assign t ((storedSymbols m).map (·.1)) (storedSymbols m)
      obtain ⟨hkept', -⟩ := indexOf?_assign t ((storedSymbols m').map (·.1)) (storedSymbols m')
      obtain rfl := Option.some.inj ((hkept k j hold).symm.trans hi)
      exact hkept' k j hold
    | none =>
      rw [indexOf?_statsTable_of_none hold] at hi ⊢
      exact h k i hi

end Code

end NativeGlue
