import Mathlib.Data.List.Basic
import NativeGlue.Parsing.State

/-!
# What was read behind an item

An item counts parts of a production. These are the symbols that were read last (`Item.Read`), and reading
on keeps it so (`State.Read.after`). So a production is closed behind its own parts and behind nothing else
(`State.Read.parts_of_reduce`).
-/

namespace NativeGlue.Parsing

variable {κ : Type} {t : Tables κ} {symbols : List Nat} {s : State}

/-! ## 1. Items and states -/

/-- The parts of its production that an item counts are the symbols read last; the latest one stands
first. -/
def Item.Read (t : Tables κ) (symbols : List Nat) (i : Item) : Prop :=
  ∃ p done rest, t.productions[i.production]? = some p ∧ p.steps.toList = done ++ rest ∧
    done.length = i.position ∧ (done.map (·.symbol)).reverse <+: symbols

/-- What was read suits every item of a state. -/
def State.Read (t : Tables κ) (symbols : List Nat) (s : State) : Prop :=
  ∀ i ∈ s.items, i.Read t symbols

/-- A production that begins with a symbol. -/
def BeginsWith (ps : Array (Production κ)) (x i : Nat) : Prop :=
  ∃ p step rest, ps[i]? = some p ∧ p.steps.toList = step :: rest ∧ step.symbol = x

/-- The productions that are listed for a symbol begin with it. -/
def Tables.Indexed (t : Tables κ) : Prop :=
  ∀ x, ∀ i ∈ t.starting.getD x [], BeginsWith t.productions x i

theorem mem_getD_modify {α : Type} {acc : Array (List α)} {k x : Nat} {a b : α}
    (h : b ∈ (acc.modify k (a :: ·)).getD x []) : (k = x ∧ b = a) ∨ b ∈ acc.getD x [] := by
  rw [Array.getD_eq_getD_getElem?, Array.getElem?_modify] at h
  rw [Array.getD_eq_getD_getElem?]
  split at h
  · rename_i hk
    cases hacc : acc[x]? with
    | none =>
      rw [hacc] at h
      exact absurd h List.not_mem_nil
    | some l =>
      rw [hacc] at h
      exact (List.mem_cons.1 h).imp (⟨hk, ·⟩) id
  · exact .inr h

theorem indexed_ofProductions (terminals heads : Nat) (ps : List (Production κ)) :
    (Tables.ofProductions terminals heads ps).Indexed := by
  change ∀ x, ∀ i ∈ (startingWith (terminals + heads) ps.toArray).getD x [], BeginsWith ps.toArray x i
  unfold startingWith
  refine List.foldlRecOn (motive := fun acc : Array (List Nat) =>
    ∀ x, ∀ i ∈ acc.getD x [], BeginsWith ps.toArray x i) _ _ (fun x i hi => ?_)
    fun acc hacc k _ x i hi => ?_
  · rw [Array.getD_eq_getD_getElem?, Array.getElem?_replicate] at hi
    split at hi
    · exact absurd hi List.not_mem_nil
    · exact absurd hi List.not_mem_nil
  · split at hi
    · exact hacc x i hi
    · rename_i step hstep
      rcases mem_getD_modify hi with ⟨hx, rfl⟩ | hi
      · obtain ⟨p, hp, hfirst⟩ := Option.bind_eq_some_iff.1 hstep
        rw [← Array.getElem?_toList] at hfirst
        cases hsteps : p.steps.toList with
        | nil =>
          rw [hsteps] at hfirst
          cases hfirst
        | cons first rest =>
          rw [hsteps] at hfirst
          cases hfirst
          exact ⟨p, _, rest, hp, hsteps, hx⟩
      · exact hacc x i hi

/-! ## 2. Reading on -/

/-- Before a text nothing was read. -/
theorem read_initial (t : Tables κ) (finish : Nat) : (State.initial t finish).Read t [] := by
  intro i hi
  obtain ⟨k, -, hk⟩ := List.mem_filterMap.1 hi
  split at hk
  · rename_i hhead
    cases hk
    obtain ⟨p, hp, -⟩ := (Option.any_eq_true _ _).1 hhead
    exact ⟨p, [], _, hp, rfl, rfl, List.nil_prefix⟩
  · cases hk

/-- **Reading a symbol keeps what is known of the parts that were read.** -/
theorem State.Read.after (ht : t.Indexed) (h : s.Read t symbols) (x : Nat) :
    (s.after t x).Read t (x :: symbols) := by
  intro i hi
  rcases List.mem_append.1 hi with hi | hi
  · -- An item that goes on counts one part more.
    obtain ⟨before, hbefore, hi⟩ := List.mem_filterMap.1 hi
    split at hi
    · rename_i hnext
      cases hi
      obtain ⟨p, done, rest, hp, hsteps, hlength, hread⟩ := h before hbefore
      rw [Item.next?, hp, Option.bind_some, ← Array.getElem?_toList, hsteps, ← hlength,
        List.getElem?_append_right (Nat.le_refl _), Nat.sub_self] at hnext
      cases rest with
      | nil => cases hnext
      | cons step rest =>
        obtain rfl : step.symbol = x := Option.some.inj hnext
        refine ⟨p, done ++ [step], rest, hp, ?_, ?_, ?_⟩
        · rw [hsteps, List.append_assoc]
          rfl
        · rw [List.length_append, hlength]
          rfl
        · rw [List.map_append, List.reverse_append]
          exact (List.prefix_cons_inj _).2 hread
    · cases hi
  · -- An item that begins counts this one.
    obtain ⟨k, hk, hi⟩ := List.mem_filterMap.1 hi
    obtain ⟨p, step, rest, hp, hsteps, hsymbol⟩ := ht x k hk
    rw [hp] at hi
    dsimp only at hi
    split at hi
    · cases hi
    · cases hi
      refine ⟨p, [step], rest, hp, hsteps, rfl, ?_⟩
      rw [← hsymbol]
      exact (List.prefix_cons_inj _).2 List.nil_prefix

/-! ## 3. Closing productions -/

/-- A production that is closed is one that some item has come to the end of. -/
theorem exists_of_mem_closing {x i : Nat} (h : i ∈ s.closing t x) :
    ∃ item ∈ s.items, item.production = i ∧ item.next? t = none := by
  unfold State.closing at h
  obtain ⟨item, hitem, rfl⟩ := List.mem_map.1 h
  obtain ⟨hmem, hcomplete⟩ := List.mem_filter.1 (List.mem_of_mem_filter hitem)
  exact ⟨item, hmem, rfl, Option.isNone_iff_eq_none.1 (Bool.and_eq_true_iff.1 hcomplete).1⟩

theorem mem_closing_of_mem_choices {x i : Nat} (h : .reduce i ∈ s.choices t x) : i ∈ s.closing t x := by
  have hclosings : .reduce i ∈ (s.closing t x).map Choice.reduce → i ∈ s.closing t x := by
    intro h
    obtain ⟨k, hk, heq⟩ := List.mem_map.1 h
    cases heq
    exact hk
  have hshift : Choice.reduce i ∉ [Choice.shift] := by
    rw [List.mem_singleton]
    nofun
  unfold State.choices at h
  dsimp only at h
  split at h
  · exact hclosings h
  split at h
  · exact (hshift h).elim
  split at h
  · exact (hshift h).elim
  split at h
  · exact hclosings h
  split at h
  · exact hclosings h
  split at h
  · exact (hshift h).elim
  · exact (List.mem_append.1 h).elim hclosings fun h => (hshift h).elim

/-- **A production is closed behind its own parts.** -/
theorem State.Read.parts_of_reduce (h : s.Read t symbols) {x i : Nat} (hi : .reduce i ∈ s.choices t x) :
    ∃ p, t.productions[i]? = some p ∧ (p.steps.toList.map (·.symbol)).reverse <+: symbols := by
  obtain ⟨item, hmem, rfl, hend⟩ := exists_of_mem_closing (mem_closing_of_mem_choices hi)
  obtain ⟨p, done, rest, hp, hsteps, hlength, hread⟩ := h item hmem
  rw [Item.next?, hp, Option.bind_some, ← Array.getElem?_toList, hsteps, ← hlength,
    List.getElem?_append_right (Nat.le_refl _), Nat.sub_self] at hend
  cases rest with
  | nil =>
    rw [List.append_nil] at hsteps
    exact ⟨p, hp, hsteps ▸ hread⟩
  | cons step rest => cases hend

end NativeGlue.Parsing
