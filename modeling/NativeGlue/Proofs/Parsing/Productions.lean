import Mathlib.Data.List.Basic
import NativeGlue.Parsing.Form

/-!
# What the productions of a grammar are made of

A form is expanded into sequences of symbols, each with what becomes of its trees. What can be told from
the form holds of all its sequences: that it is one symbol of a certain sort (`Form.single`), that its trees
of a kind are made of such symbols (`Form.made`), and that the trees of a phrase go nowhere but into a tree
of a kind (`Form.confined`). These are decided for the forms of a grammar, and so hold of its productions.
-/

namespace NativeGlue.Parsing

variable {τ ν κ : Type} [DecidableEq τ]

/-! ## 1. Numbers -/

theorem terminal_le (n : Numbering τ ν κ) (t : τ) : n.terminal t ≤ n.terminals.length :=
  List.idxOf_le_length

theorem terminal_lt {n : Numbering τ ν κ} {t : τ} (ht : t ∈ n.terminals) : n.terminal t < n.terminals.length :=
  List.idxOf_lt_length_iff.2 ht

theorem terminal_inj {n : Numbering τ ν κ} {t u : τ} (ht : t ∈ n.terminals)
    (h : n.terminal t = n.terminal u) : t = u :=
  (List.idxOf_inj ht).1 h

variable [DecidableEq ν] [DecidableEq κ]

/-! ## 2. Forms -/

namespace Form

/-- Whether a form is one symbol: a terminal that passes a test, or a certain phrase. -/
def single (ok : τ → Bool) (p : ν) : Form τ ν κ → Bool
  | token t => ok t
  | phrase q => q = p
  | either a b => a.single ok p && b.single ok p
  | _ => false

/-- Whether the trees of a kind that a form makes are made of such symbols only. -/
def made (k : κ) (ok : τ → Bool) (p : ν) : Form τ ν κ → Bool
  | empty => true
  | token _ => true
  | phrase _ => true
  | both a b => a.made k ok p && b.made k ok p
  | either a b => a.made k ok p && b.made k ok p
  | repeated a => a.made k ok p
  | marked m a => if m = .node k then a.single ok p else a.made k ok p

/-- Whether a phrase does not occur in a form. -/
def lacks (p : ν) : Form τ ν κ → Bool
  | empty => true
  | token _ => true
  | phrase q => q ≠ p
  | both a b => a.lacks p && b.lacks p
  | either a b => a.lacks p && b.lacks p
  | repeated a => a.lacks p
  | marked _ a => a.lacks p

/-- Whether a phrase occurs in a form only where its trees become one tree of a kind. -/
def confined (p : ν) (k : κ) : Form τ ν κ → Bool
  | empty => true
  | token _ => true
  | phrase q => q ≠ p
  | both a b => a.confined p k && b.confined p k
  | either a b => a.confined p k && b.confined p k
  | repeated a => a.confined p k
  | marked m a => (m = .node k && a = phrase p) || a.lacks p

/-- Where a phrase does not occur it is confined. -/
theorem confined_of_lacks {p : ν} {k : κ} {a : Form τ ν κ} (h : a.lacks p = true) :
    a.confined p k = true := by
  induction a with
  | both a b iha ihb =>
    obtain ⟨ha, hb⟩ := Bool.and_eq_true_iff.1 h
    exact Bool.and_eq_true_iff.2 ⟨iha ha, ihb hb⟩
  | either a b iha ihb =>
    obtain ⟨ha, hb⟩ := Bool.and_eq_true_iff.1 h
    exact Bool.and_eq_true_iff.2 ⟨iha ha, ihb hb⟩
  | repeated a ih => exact ih h
  | marked m a => exact Bool.or_eq_true_iff.2 (.inr h)
  | _ => exact h

/-- What a form has from its parts: it holds of both of two forms, and of a form that is repeated. -/
structure Inherited (P : Form τ ν κ → Prop) : Prop where
  both : ∀ a b, P (.both a b) → P a ∧ P b
  either : ∀ a b, P (.either a b) → P a ∧ P b
  repeated : ∀ a, P (.repeated a) → P a

omit [DecidableEq τ] [DecidableEq ν] [DecidableEq κ] in
/-- **What holds of the parts of a form holds of what is repeated inside it.** -/
theorem Inherited.of_mem_repetitions {P : Form τ ν κ → Prop} (h : Inherited P)
    (hmarked : ∀ m a, P (.marked m a) → a.repetitions = [] ∨ P a) {a b : Form τ ν κ} (ha : P a)
    (hb : b ∈ a.repetitions) : P b := by
  induction a with
  | both a c iha ihc =>
    obtain ⟨ha, hc⟩ := h.both a c ha
    exact (List.mem_append.1 hb).elim (iha ha) (ihc hc)
  | either a c iha ihc =>
    obtain ⟨ha, hc⟩ := h.either a c ha
    exact (List.mem_append.1 hb).elim (iha ha) (ihc hc)
  | repeated a ih =>
    rcases List.mem_cons.1 hb with rfl | hb
    · exact h.repeated _ ha
    · exact ih (h.repeated a ha) hb
  | marked m a ih =>
    rw [repetitions] at hb
    rcases hmarked m a ha with hnone | ha
    · rw [hnone] at hb
      exact absurd hb List.not_mem_nil
    · exact ih ha hb
  | _ => exact absurd hb List.not_mem_nil

omit [DecidableEq τ] [DecidableEq ν] [DecidableEq κ] in
theorem Inherited.and {P Q : Form τ ν κ → Prop} (hp : Inherited P) (hq : Inherited Q) :
    Inherited fun a => P a ∧ Q a :=
  ⟨fun a b h => ⟨⟨(hp.both a b h.1).1, (hq.both a b h.2).1⟩, (hp.both a b h.1).2, (hq.both a b h.2).2⟩,
    fun a b h => ⟨⟨(hp.either a b h.1).1, (hq.either a b h.2).1⟩, (hp.either a b h.1).2, (hq.either a b h.2).2⟩,
    fun a h => ⟨hp.repeated a h.1, hq.repeated a h.2⟩⟩

omit [DecidableEq τ] in
theorem inherited_made (k : κ) (ok : τ → Bool) (p : ν) : Inherited fun a => a.made k ok p = true :=
  ⟨fun _ _ h => Bool.and_eq_true_iff.1 h, fun _ _ h => Bool.and_eq_true_iff.1 h, fun _ h => h⟩

omit [DecidableEq τ] [DecidableEq κ] in
theorem inherited_lacks (p : ν) : Inherited fun a : Form τ ν κ => a.lacks p = true :=
  ⟨fun _ _ h => Bool.and_eq_true_iff.1 h, fun _ _ h => Bool.and_eq_true_iff.1 h, fun _ h => h⟩

theorem inherited_confined (p : ν) (k : κ) : Inherited fun a : Form τ ν κ => a.confined p k = true :=
  ⟨fun _ _ h => Bool.and_eq_true_iff.1 h, fun _ _ h => Bool.and_eq_true_iff.1 h, fun _ h => h⟩

omit [DecidableEq τ] [DecidableEq ν] [DecidableEq κ] in
theorem inherited_tokens (ts : List τ) : Inherited fun a : Form τ ν κ => ∀ t ∈ a.tokens, t ∈ ts :=
  ⟨fun _ _ h => List.forall_mem_append.1 h, fun _ _ h => List.forall_mem_append.1 h, fun _ h => h⟩

theorem confined_of_mem_repetitions {p : ν} {k : κ} {a b : Form τ ν κ} (ha : a.confined p k = true)
    (hb : b ∈ a.repetitions) : b.confined p k = true := by
  refine (inherited_confined p k).of_mem_repetitions (fun m a hm => ?_) ha hb
  rcases Bool.or_eq_true_iff.1 hm with hm | hm
  · rw [of_decide_eq_true (Bool.and_eq_true_iff.1 hm).2]
    exact .inl rfl
  · exact .inr (confined_of_lacks hm)

end Form

/-! ## 3. Sequences -/

/-- A symbol that is a terminal that passes a test, or a certain phrase. -/
def Single (n : Numbering τ ν κ) (ok : τ → Bool) (p : ν) (symbol : Nat) : Prop :=
  (∃ t ∈ n.terminals, ok t = true ∧ symbol = n.terminal t) ∨ symbol = n.terminals.length + n.head p

section

variable {n : Numbering τ ν κ} {k : κ} {a : Form τ ν κ} {x : List (Step κ)}

/-- **What the parts of a form come to holds of every symbol that the form is expanded into.** -/
theorem Form.Inherited.of_mem_expand {P : Form τ ν κ → Prop} (h : Form.Inherited P) {Q : Step κ → Prop}
    (htoken : ∀ t, P (.token t) → Q ⟨n.terminal t, .keep⟩)
    (hphrase : ∀ q, P (.phrase q) → Q ⟨n.terminals.length + n.head q, .keep⟩)
    (hrepeated : ∀ a, Q ⟨n.terminals.length + n.repetitionHead a, .keep⟩)
    (hmarked : ∀ m a, P (.marked m a) → (P a → ∀ x ∈ n.expand a, ∀ s ∈ x, Q s) →
      ∀ x ∈ n.expand a, ∀ s ∈ x, Q { s with mark := m })
    (ha : P a) (hx : x ∈ n.expand a) {s : Step κ} (hs : s ∈ x) : Q s := by
  induction a generalizing x s with
  | empty =>
    rw [List.mem_singleton.1 hx] at hs
    exact absurd hs List.not_mem_nil
  | token t =>
    rw [List.mem_singleton.1 hx, List.mem_singleton] at hs
    rw [hs]
    exact htoken t ha
  | phrase q =>
    rw [List.mem_singleton.1 hx, List.mem_singleton] at hs
    rw [hs]
    exact hphrase q ha
  | both a b iha ihb =>
    obtain ⟨ha, hb⟩ := h.both a b ha
    obtain ⟨y, hy, hx⟩ := List.mem_flatMap.1 hx
    obtain ⟨z, hz, rfl⟩ := List.mem_map.1 hx
    exact (List.mem_append.1 hs).elim (iha ha hy) (ihb hb hz)
  | either a b iha ihb =>
    obtain ⟨ha, hb⟩ := h.either a b ha
    exact (List.mem_append.1 hx).elim (iha ha · hs) (ihb hb · hs)
  | repeated a =>
    rw [List.mem_singleton.1 hx, List.mem_singleton] at hs
    rw [hs]
    exact hrepeated a
  | marked m a ih =>
    obtain ⟨y, hy, rfl⟩ := List.mem_map.1 hx
    obtain ⟨r, hr, rfl⟩ := List.mem_map.1 hs
    exact hmarked m a ha (fun ha _ hx _ hs => ih ha hx hs) y hy r hr

theorem single_of_mem_expand {ok : τ → Bool} {p : ν} (ht : ∀ t ∈ a.tokens, t ∈ n.terminals)
    (ha : a.single ok p = true) (hx : x ∈ n.expand a) : ∃ s, x = [s] ∧ Single n ok p s.symbol := by
  induction a with
  | token t => exact ⟨_, List.mem_singleton.1 hx, .inl ⟨t, ht t (List.mem_singleton_self t), ha, rfl⟩⟩
  | phrase q =>
    obtain rfl := of_decide_eq_true ha
    exact ⟨_, List.mem_singleton.1 hx, .inr rfl⟩
  | either a b iha ihb =>
    obtain ⟨ha, hb⟩ := Bool.and_eq_true_iff.1 ha
    obtain ⟨hta, htb⟩ := List.forall_mem_append.1 ht
    exact (List.mem_append.1 hx).elim (iha hta ha) (ihb htb hb)
  | _ => cases ha

theorem single_of_made {ok : τ → Bool} {p : ν} (ht : ∀ t ∈ a.tokens, t ∈ n.terminals)
    (ha : a.made k ok p = true) (hx : x ∈ n.expand a) {s : Step κ} (hs : s ∈ x)
    (hk : s.mark = .node k) : Single n ok p s.symbol := by
  have hparts := (Form.inherited_tokens n.terminals).and (Form.inherited_made k ok p)
  refine hparts.of_mem_expand (Q := fun s => s.mark = .node k → Single n ok p s.symbol)
    (fun _ _ => nofun) (fun _ _ => nofun) (fun _ => nofun) (fun m a hm _ y hy r hr hk => ?_) ⟨ht, ha⟩ hx hs hk
  obtain ⟨ht, ha⟩ := hm
  rw [Form.made, if_pos hk] at ha
  obtain ⟨r', rfl, hsingle⟩ := single_of_mem_expand (a := a) ht ha hy
  rw [List.mem_singleton.1 hr]
  exact hsingle

/-- The number of a phrase is that of no terminal, of no other phrase and of no repetition. -/
theorem ne_of_mem_phrases {p : ν} (hp : p ∈ n.phrases) : (∀ t ∈ n.terminals, n.terminal t ≠
    n.terminals.length + n.head p) ∧ (∀ q, n.head q = n.head p → q = p) ∧
      ∀ b, n.repetitionHead b ≠ n.head p := by
  have hlt : n.head p < n.phrases.length := List.idxOf_lt_length_iff.2 hp
  refine ⟨fun t ht => ?_, fun q hq => ((List.idxOf_inj hp).1 hq.symm).symm, fun b hb => ?_⟩
  · have := terminal_lt ht
    omega
  · rw [← hb] at hlt
    exact absurd hlt (Nat.not_lt.2 (Nat.le_add_right _ _))

theorem ne_of_lacks {p : ν} (hp : p ∈ n.phrases) (ht : ∀ t ∈ a.tokens, t ∈ n.terminals)
    (ha : a.lacks p = true) (hx : x ∈ n.expand a) {s : Step κ} (hs : s ∈ x) :
    s.symbol ≠ n.terminals.length + n.head p := by
  obtain ⟨hterminals, hphrases, hrepetitions⟩ := ne_of_mem_phrases hp
  have hparts := (Form.inherited_tokens (κ := κ) n.terminals).and (Form.inherited_lacks p)
  refine hparts.of_mem_expand (Q := fun s : Step κ => s.symbol ≠ n.terminals.length + n.head p)
    (fun t h => hterminals t (h.1 t (List.mem_singleton_self t))) (fun q h he => ?_) (fun b he => ?_)
    (fun m a h ih => ih h) ⟨ht, ha⟩ hx hs
  · exact of_decide_eq_true h.2 (hphrases q (Nat.add_left_cancel he))
  · exact hrepetitions b (Nat.add_left_cancel he)

theorem mark_of_confined {p : ν} (hp : p ∈ n.phrases) (ht : ∀ t ∈ a.tokens, t ∈ n.terminals)
    (ha : a.confined p k = true) (hx : x ∈ n.expand a) {s : Step κ} (hs : s ∈ x)
    (hsymbol : s.symbol = n.terminals.length + n.head p) : s.mark = .node k := by
  obtain ⟨hterminals, hphrases, hrepetitions⟩ := ne_of_mem_phrases hp
  have hparts := (Form.inherited_tokens n.terminals).and (Form.inherited_confined p k)
  refine hparts.of_mem_expand
    (Q := fun s => s.symbol = n.terminals.length + n.head p → s.mark = .node k)
    (fun t h he => ?_) (fun q h he => ?_) (fun b he => ?_) (fun m a h _ y hy r hr he => ?_)
    ⟨ht, ha⟩ hx hs hsymbol
  · exact absurd he (hterminals t (h.1 t (List.mem_singleton_self t)))
  · exact absurd (hphrases q (Nat.add_left_cancel he)) (of_decide_eq_true h.2)
  · exact absurd (Nat.add_left_cancel he) (hrepetitions b)
  · rcases Bool.or_eq_true_iff.1 h.2 with hm | hm
    · exact of_decide_eq_true (Bool.and_eq_true_iff.1 hm).1
    · exact absurd he (ne_of_lacks (a := a) (s := r) hp h.1 hm hy hr)

end

/-! ## 4. Productions -/

theorem mem_distinct {α : Type} [DecidableEq α] {xs : List α} {x : α} : x ∈ distinct xs ↔ x ∈ xs := by
  have hfold : ∀ acc : List α, x ∈ xs.foldl (fun acc x => if acc.contains x then acc else x :: acc) acc ↔
      x ∈ acc ∨ x ∈ xs := by
    induction xs with
    | nil => exact fun acc => by rw [List.foldl_nil, or_iff_left List.not_mem_nil]
    | cons y r ih =>
      intro acc
      rw [List.foldl_cons, ih, List.mem_cons]
      split
      · rename_i hy
        have hy : y ∈ acc := List.contains_iff_mem.1 hy
        constructor
        · exact fun h => h.imp id .inr
        · rintro (h | rfl | h)
          · exact .inl h
          · exact .inl hy
          · exact .inr h
      · rw [List.mem_cons]
        exact ⟨fun h => h.elim (fun h => h.elim (.inr ∘ .inl) .inl) (.inr ∘ .inr),
          fun h => h.elim (.inl ∘ .inr) fun h => h.elim (.inl ∘ .inl) .inr⟩
  rw [distinct, List.mem_reverse, hfold, or_iff_right List.not_mem_nil]

section

variable {further : List τ} {g : Grammar τ ν κ} {k : κ}

/-- The forms of a grammar. -/
def Grammar.forms (g : Grammar τ ν κ) : List (Form τ ν κ) := g.flatMap fun (_, bs) => bs.map (·.form)

theorem terminals_of_mem_forms {a : Form τ ν κ} (ha : a ∈ g.forms) {t : τ} (ht : t ∈ a.tokens) :
    t ∈ (Numbering.ofGrammar further g).terminals :=
  mem_distinct.2 (List.mem_append_right _ (List.mem_flatMap.2 ⟨a, ha, ht⟩))

theorem terminals_of_mem_repetitions {a b : Form τ ν κ} (ha : a ∈ g.forms) (hb : b ∈ a.repetitions) :
    ∀ t ∈ b.tokens, t ∈ (Numbering.ofGrammar further g).terminals :=
  (Form.inherited_tokens _).of_mem_repetitions (fun _ _ h => .inr h) (fun _ => terminals_of_mem_forms ha) hb

/-- A production is one of a phrase, or one of a repetition. -/
theorem mem_productions {n : Numbering τ ν κ} {p : Production κ} (h : p ∈ n.productions g) :
    (∃ q bs, (q, bs) ∈ g ∧ p.head = n.head q ∧ ∃ b ∈ bs, p.steps.toList ∈ n.expand b.form) ∨
      ∃ a ∈ n.repetitions, p.head = n.repetitionHead a ∧ ∃ x ∈ n.expand a,
        p.steps.toList = x ∨ p.steps.toList = ⟨n.terminals.length + p.head, .keep⟩ :: x := by
  rcases List.mem_append.1 h with h | h
  · obtain ⟨⟨q, bs⟩, hq, h⟩ := List.mem_flatMap.1 h
    obtain ⟨b, hb, h⟩ := List.mem_flatMap.1 h
    obtain ⟨x, hx, rfl⟩ := List.mem_map.1 h
    exact .inl ⟨q, bs, hq, rfl, b, hb, hx⟩
  · obtain ⟨a, ha, h⟩ := List.mem_flatMap.1 h
    obtain ⟨x, hx, h⟩ := List.mem_flatMap.1 h
    rcases List.mem_cons.1 h with rfl | h
    · exact .inr ⟨a, ha, rfl, x, hx, .inl rfl⟩
    · rw [List.mem_singleton.1 h]
      exact .inr ⟨a, ha, rfl, x, hx, .inr rfl⟩

variable {n : Numbering τ ν κ} (hn : n = .ofGrammar further g)

include hn

/-- **Where the forms of a grammar make trees of a kind of certain symbols only, so do its productions**,
but for those of phrases that are left out. -/
theorem single_of_mem_productions {ok : τ → Bool} {p q : ν}
    (hg : ∀ x ∈ g, x.1 = q ∨ ∀ b ∈ x.2, b.form.made k ok p = true)
    (hrep : ∀ a ∈ g.forms, ∀ b ∈ a.repetitions, b.made k ok p = true) {r : Production κ}
    (hr : r ∈ n.productions g) (hq : r.head ≠ n.head q) {s : Step κ} (hs : s ∈ r.steps.toList)
    (hk : s.mark = .node k) : Single n ok p s.symbol := by
  subst hn
  rcases mem_productions hr with ⟨q', bs, hmem, hhead, b, hb, hx⟩ | ⟨a, ha, -, x, hx, hsteps⟩
  · have hform : b.form ∈ g.forms := List.mem_flatMap.2 ⟨_, hmem, List.mem_map_of_mem hb⟩
    have hmade : b.form.made k ok p = true := by
      refine (hg _ hmem).resolve_left ?_ b hb
      rintro rfl
      exact hq hhead
    exact single_of_made (fun t => terminals_of_mem_forms hform) hmade hx hs hk
  · obtain ⟨form, hform, ha⟩ := List.mem_flatMap.1 (mem_distinct.1 ha)
    have hs : s ∈ x := by
      rcases hsteps with hsteps | hsteps
      · exact hsteps ▸ hs
      · rw [hsteps] at hs
        refine (List.mem_cons.1 hs).resolve_left ?_
        rintro rfl
        cases hk
    exact single_of_made (terminals_of_mem_repetitions hform ha) (hrep _ hform _ ha) hx hs hk

/-- **Where a phrase is confined in the forms of a grammar, so it is in its productions.** -/
theorem mark_of_mem_productions {p : ν} (hp : p ∈ g.map (·.1))
    (hg : ∀ a ∈ g.forms, a.confined p k = true) {r : Production κ} (hr : r ∈ n.productions g)
    {s : Step κ} (hs : s ∈ r.steps.toList) (hsymbol : s.symbol = n.terminals.length + n.head p) :
    s.mark = .node k := by
  subst hn
  rcases mem_productions hr with ⟨q, bs, hmem, -, b, hb, hx⟩ | ⟨a, ha, hhead, x, hx, hsteps⟩
  · have hform : b.form ∈ g.forms := List.mem_flatMap.2 ⟨_, hmem, List.mem_map_of_mem hb⟩
    exact mark_of_confined hp (fun t => terminals_of_mem_forms hform) (hg _ hform) hx hs hsymbol
  · obtain ⟨form, hform, ha⟩ := List.mem_flatMap.1 (mem_distinct.1 ha)
    have hs : s ∈ x := by
      rcases hsteps with hsteps | hsteps
      · exact hsteps ▸ hs
      · rw [hsteps] at hs
        refine (List.mem_cons.1 hs).resolve_left ?_
        rintro rfl
        -- The repetition itself comes first, and its number is that of no phrase.
        obtain ⟨-, -, hrepetitions⟩ := ne_of_mem_phrases (n := Numbering.ofGrammar further g) hp
        exact hrepetitions a (hhead.symm.trans (Nat.add_left_cancel hsymbol))
    exact mark_of_confined hp (terminals_of_mem_repetitions hform ha)
      (Form.confined_of_mem_repetitions (hg _ hform) ha) hx hs hsymbol

/-- **Where all forms of a phrase are one symbol, so are its productions.** -/
theorem exists_single_of_mem_productions {ok : τ → Bool} {p q : ν} (hp : p ∈ g.map (·.1))
    (hg : ∀ x ∈ g, x.1 = p → ∀ b ∈ x.2, b.form.single ok q = true) {r : Production κ}
    (hr : r ∈ n.productions g) (hhead : r.head = n.head p) :
    ∃ s, r.steps.toList = [s] ∧ Single n ok q s.symbol := by
  subst hn
  obtain ⟨-, hphrases, hrepetitions⟩ := ne_of_mem_phrases (n := Numbering.ofGrammar further g) hp
  rcases mem_productions hr with ⟨p', bs, hmem, hsame, b, hb, hx⟩ | ⟨a, -, hsame, -⟩
  · have hform : b.form ∈ g.forms := List.mem_flatMap.2 ⟨_, hmem, List.mem_map_of_mem hb⟩
    exact single_of_mem_expand (fun t => terminals_of_mem_forms hform)
      (hg _ hmem (hphrases p' (hsame.symm.trans hhead)) b hb) hx
  · exact absurd (hsame.symm.trans hhead) (hrepetitions a)

end

end NativeGlue.Parsing
