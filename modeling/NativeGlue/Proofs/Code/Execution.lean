import Mathlib.Data.List.Nodup
import NativeGlue.Code.Methods
import NativeGlue.Proofs.Mapping.StandardRules

/-!
# Running a function body

A body is a small program. Its locals begin as null. A line that acquires does so if its argument is
not null, and jumps to the label if it fails; a check may jump; a line that gives back does so if
argument and local are not null. Whatever happens (`Chance`), what was acquired and has to be given
back is given back once, in reverse order, and nothing else is (`run_statementsOf`).
-/

namespace NativeGlue.Code

open NativeGlue.Mapping

/-! ## 1. Runs -/

/-- What a run meets: which arguments are null, which acquisitions fail, which arrays are too short. -/
structure Chance where
  isNull : Parameter → Bool
  fails : Parameter → Bool
  tooShort : Parameter → Bool

/-- What a run does, in terms of locals. -/
inductive Event where
  | entered
  | acquired (name : String)
  | called
  | released (name : String)
  | exited
  deriving DecidableEq, Repr

namespace Chance

/-- Whether a statement jumps to the label. -/
def jumps (c : Chance) : Statement → Bool
  | .acquire p _ => !c.isNull p && c.fails p
  | .checkLength array _ => !c.isNull array && c.tooShort array
  | _ => false

/-- The local that a statement acquires if it does not fail. -/
def taken? (c : Chance) : Statement → Option String
  | .acquire p _ => if c.isNull p then none else some (localOf p)
  | _ => none

/-- The local that a statement gives back, given the locals that are not null. -/
def given? (c : Chance) (held : List String) : Statement → Option String
  | .release p _ => if !c.isNull p && held.contains (localOf p) then some (localOf p) else none
  | _ => none

/-- What a statement does that does not jump. -/
def events (c : Chance) (held : List String) : Statement → List Event
  | .enter .. => [.entered]
  | .acquire p t => (c.taken? (.acquire p t)).toList.map .acquired
  | .call _ => [.called]
  | .release p t => (c.given? held (.release p t)).toList.map .released
  | .exit .. => [.exited]
  | _ => []

/-- Runs statements; `held` are the locals that are not null, and `seeking` says that a jump is on its
way to the label. A jump that finds no label has no result. -/
def run (c : Chance) : Bool → List String → List Statement → Option (List Event)
  | seeking, _, [] => if seeking then none else some []
  | true, held, s :: r => c.run (s != .failLabel) held r
  | false, held, s :: r =>
    if c.jumps s then c.run true held r
    else (c.run false ((c.taken? s).toList ++ held) r).map (c.events held s ++ ·)

/-! ## 2. Parts of a body -/

variable (c : Chance)

theorem map_append_nil (x : Option (List Event)) : x.map ([] ++ ·) = x := by
  cases x <;> rfl

theorem map_append_append (x : Option (List Event)) (a b : List Event) :
    (x.map (b ++ ·)).map (a ++ ·) = x.map ((a ++ b) ++ ·) := by
  cases x with
  | none => rfl
  | some l => exact congrArg some (List.append_assoc a b l).symm

/-- Statements that do nothing to the locals change nothing. -/
theorem run_idle {l : List Statement} (hj : ∀ s ∈ l, c.jumps s = false)
    (ht : ∀ s ∈ l, c.taken? s = none) (he : ∀ s ∈ l, ∀ held, c.events held s = [])
    (held : List String) (r : List Statement) : c.run false held (l ++ r) = c.run false held r := by
  induction l with
  | nil => rfl
  | cons s l ih =>
    have ih := ih (fun x hx => hj x (List.mem_cons_of_mem _ hx))
      (fun x hx => ht x (List.mem_cons_of_mem _ hx)) (fun x hx => he x (List.mem_cons_of_mem _ hx))
    rw [List.cons_append, run, hj s List.mem_cons_self, if_neg Bool.false_ne_true,
      ht s List.mem_cons_self, he s List.mem_cons_self, map_append_nil]
    exact ih

/-- A jump passes over everything but the label. -/
theorem run_seeking {l : List Statement} (hl : .failLabel ∉ l) (held : List String)
    (r : List Statement) : c.run true held (l ++ r) = c.run true held r := by
  induction l with
  | nil => rfl
  | cons s l ih =>
    rw [List.mem_cons, not_or] at hl
    rw [List.cons_append, run, bne_iff_ne.2 (Ne.symm hl.1)]
    exact ih hl.2

/-- Whether a statement only acquires or checks. -/
def isAttempt : Statement → Bool
  | .acquire .. => true
  | .checkLength .. => true
  | _ => false

theorem events_of_isAttempt {s : Statement} (h : isAttempt s = true) (held : List String) :
    c.events held s = (c.taken? s).toList.map Event.acquired := by
  cases s with
  | acquire p t => rfl
  | checkLength array count => rfl
  | _ => cases h

/-- The locals acquired by statements up to the first jump. -/
def takenBy (l : List Statement) : List String :=
  (l.takeWhile fun s => !c.jumps s).filterMap c.taken?

/-- **Attempts acquire until one of them jumps.** -/
theorem run_attempts {l : List Statement} (hl : ∀ s ∈ l, isAttempt s = true) (held : List String)
    (r : List Statement) :
    c.run false held (l ++ r) =
      (c.run (l.any c.jumps) ((c.takenBy l).reverse ++ held) r).map
        ((c.takenBy l).map Event.acquired ++ ·) := by
  induction l generalizing held with
  | nil => exact (map_append_nil _).symm
  | cons s l ih =>
    have hl' : ∀ x ∈ l, isAttempt x = true := fun x hx => hl x (List.mem_cons_of_mem _ hx)
    rw [List.cons_append, run]
    by_cases hj : c.jumps s = true
    · have htaken : c.takenBy (s :: l) = [] := by
        rw [takenBy, List.takeWhile_cons, hj]
        rfl
      have hlabel : .failLabel ∉ l := fun hm => Bool.false_ne_true (hl' _ hm)
      rw [if_pos hj, List.any_cons, hj, Bool.true_or, htaken, c.run_seeking hlabel]
      exact (map_append_nil _).symm
    · rw [Bool.not_eq_true] at hj
      have htaken : c.takenBy (s :: l) = (c.taken? s).toList ++ c.takenBy l := by
        rw [takenBy, List.takeWhile_cons, hj]
        show (s :: l.takeWhile fun s => !c.jumps s).filterMap c.taken? = _
        rw [List.filterMap_cons, takenBy]
        cases c.taken? s <;> rfl
      have hone : (c.taken? s).toList.reverse = (c.taken? s).toList := by
        cases c.taken? s <;> rfl
      rw [hj, if_neg Bool.false_ne_true, List.any_cons, hj, Bool.false_or, ih hl', htaken,
        c.events_of_isAttempt (hl s List.mem_cons_self), map_append_append, List.map_append,
        List.reverse_append, hone, List.append_assoc]

/-- **Releases give back the locals that are held.** -/
theorem run_releases {l : List Statement} (hl : ∀ s ∈ l, ∃ p t, s = .release p t)
    (held : List String) (r : List Statement) :
    c.run false held (l ++ r) =
      (c.run false held r).map ((l.filterMap (c.given? held)).map Event.released ++ ·) := by
  induction l with
  | nil => exact (map_append_nil _).symm
  | cons s l ih =>
    obtain ⟨p, t, rfl⟩ := hl s List.mem_cons_self
    have ih := ih fun x hx => hl x (List.mem_cons_of_mem _ hx)
    have hfilter : (Statement.release p t :: l).filterMap (c.given? held) =
        (c.given? held (.release p t)).toList ++ l.filterMap (c.given? held) := by
      rw [List.filterMap_cons]
      cases c.given? held (.release p t) <;> rfl
    rw [List.cons_append, run, if_neg (show ¬ c.jumps (.release p t) = true from Bool.false_ne_true)]
    show (c.run false held (l ++ r)).map _ = _
    rw [ih, map_append_append, hfilter, List.map_append]
    rfl

end Chance

/-! ## 3. Whole bodies -/

open Chance

/-- No override adds code to a method. -/
def Unadorned (m : NativeMethod) : Prop :=
  ∀ t ∈ [m.fragments.preCall, m.fragments.body, m.fragments.postCall], t.getD "" = ""

/-- A call is made, or code from an override stands in its place. -/
theorem callOrBody_cases (m : CallMapping) : callOrBody m = .call m ∨
    ∃ t, callOrBody m = .fragment (some t) ∧ m.method.fragments.body = some t := by
  unfold callOrBody
  cases m.method.fragments.body with
  | none => exact .inl rfl
  | some t =>
    dsimp only
    split
    · exact .inl rfl
    · exact .inr ⟨t, rfl, rfl⟩

theorem callOrBody_of_unadorned {m : CallMapping} (h : Unadorned m.method) : callOrBody m = .call m := by
  have hbody : m.method.fragments.body.getD "" = "" := h _ (by simp)
  unfold callOrBody
  cases hb : m.method.fragments.body with
  | none => rfl
  | some b =>
    rw [hb] at hbody
    obtain rfl : b = "" := hbody
    rfl

/-- The length checks of a method. -/
def checks (m : CallMapping) : List Statement :=
  (lengthChecks m.method).map fun (p, count) => .checkLength p count

/-- What stands between the beginning of a body and the call: it acquires and checks. -/
def attempts (m : CallMapping) : List Statement :=
  acquisitions m false ++ checks m ++ acquisitions m true

theorem isAttempt_of_mem_attempts {m : CallMapping} : ∀ s ∈ attempts m, isAttempt s = true := by
  intro s hs
  rcases List.mem_append.1 hs with hs | hs
  · rcases List.mem_append.1 hs with hs | hs
    · obtain ⟨x, -, rfl⟩ := List.mem_map.1 hs
      rfl
    · obtain ⟨x, -, rfl⟩ := List.mem_map.1 hs
      rfl
  · obtain ⟨x, -, rfl⟩ := List.mem_map.1 hs
    rfl

/-- What is acquired, in order: copies come before what is pinned already. -/
theorem acquisitions_append (m : CallMapping) : acquisitions m false ++ acquisitions m true =
    (m.acquiring.filter fun x => !x.2.marshalIn.isEmpty).map fun x => .acquire x.1 x.2 := by
  have apart : ∀ (b : Bool) (l : List (Parameter × ValueMapping)),
      (l.filter fun x => !x.2.marshalIn.isEmpty && x.2.pinned == b) =
        (l.filter fun x => x.2.pinned == b).filter fun x => !x.2.marshalIn.isEmpty := by
    intro b l
    rw [List.filter_filter]
  have hparts : (m.acquiring.filter fun x => x.2.pinned == false) ++
      (m.acquiring.filter fun x => x.2.pinned == true) = m.acquiring := by
    have hnone : ∀ {a b : Bool}, ∀ x : Parameter × ValueMapping,
        ((!x.2.pinned && (x.2.pinned && (a || b))) = false) ∧
          ((x.2.pinned && (!x.2.pinned && (a || b))) = false) := by
      intro a b x
      cases x.2.pinned <;> exact ⟨rfl, rfl⟩
    unfold CallMapping.acquiring
    simp only [List.filter_append, List.filter_filter, beq_false, beq_true, Bool.and_self_left, hnone,
      List.filter_false, List.append_nil, List.nil_append]
  unfold acquisitions
  rw [← List.map_append]
  show ((m.acquiring.filter fun x => !x.2.marshalIn.isEmpty && x.2.pinned == false) ++
    (m.acquiring.filter fun x => !x.2.marshalIn.isEmpty && x.2.pinned == true)).map _ = _
  rw [apart, apart, ← List.filter_append, hparts]

/-- A body can fail if there is anything that it attempts. -/
theorem canFail_iff {m : CallMapping} : canFail m = true ↔ attempts m ≠ [] := by
  have htaken : (m.acquiring.any fun x => !x.2.marshalIn.isEmpty) = true ↔
      acquisitions m false ++ acquisitions m true ≠ [] := by
    rw [acquisitions_append, ne_eq, List.map_eq_nil_iff, List.filter_eq_nil_iff, List.any_eq_true,
      not_forall]
    exact exists_congr fun x => by rw [Classical.not_imp, not_not]
  have hchecks : (!(lengthChecks m.method).isEmpty) = true ↔ checks m ≠ [] := by
    rw [Bool.not_eq_true', List.isEmpty_eq_false_iff, checks, ne_eq, ne_eq, List.map_eq_nil_iff]
  have hnil : attempts m = [] ↔ acquisitions m false ++ acquisitions m true = [] ∧ checks m = [] := by
    unfold attempts
    simp only [List.append_eq_nil_iff]
    tauto
  unfold canFail
  rw [Bool.or_eq_true, hchecks, ne_eq (attempts m), hnil, not_and_or]
  exact or_congr htaken Iff.rfl

section

variable {m : CallMapping} (c : Chance)

/-- The locals that a run acquires, in their order. -/
def Chance.acquiredBy (m : CallMapping) : List String := c.takenBy (attempts m)

/-- Whether what is acquired into a local has to be given back. -/
def givesBack (m : CallMapping) (l : String) : Bool :=
  m.acquiring.any fun x => localOf x.1 == l && !x.2.release.isEmpty

/-- What is acquired belongs to parameters whose argument is not null, in the order of acquisition. -/
theorem acquiredBy_sublist :
    (c.acquiredBy m).Sublist ((m.acquiring.filter fun x => !c.isNull x.1).map fun x => localOf x.1) := by
  have htaken : ∀ l : List (Parameter × ValueMapping),
      (l.map fun x => Statement.acquire x.1 x.2).filterMap c.taken? =
        (l.filter fun x => !c.isNull x.1).map fun x => localOf x.1 := by
    intro l
    induction l with
    | nil => rfl
    | cons x l ih =>
      rw [List.map_cons, List.filterMap_cons, List.filter_cons, ih, Chance.taken?]
      cases c.isNull x.1 <;> rfl
  have hchecks : (checks m).filterMap c.taken? = [] := by
    rw [checks, List.filterMap_map, List.filterMap_eq_nil_iff]
    intro x _
    rfl
  have hattempts : (attempts m).filterMap c.taken? =
      (acquisitions m false ++ acquisitions m true).filterMap c.taken? := by
    rw [attempts, List.filterMap_append, List.filterMap_append, hchecks, List.append_nil,
      List.filterMap_append]
  have hall : (c.acquiredBy m).Sublist ((attempts m).filterMap c.taken?) :=
    (List.takeWhile_sublist _).filterMap _
  rw [hattempts, acquisitions_append, htaken] at hall
  exact hall.trans (((List.filter_sublist).filter _).map _)

/-- The items of a list without repetitions that a sublist keeps. -/
theorem filter_contains_of_sublist {taken names : List String} (hs : taken.Sublist names)
    (hn : names.Nodup) : names.filter taken.contains = taken := by
  induction hs with
  | slnil => rfl
  | @cons s l a hs ih =>
    obtain ⟨ha, hn⟩ := List.nodup_cons.1 hn
    have hout : s.contains a = false := by
      rw [List.contains_eq_mem, decide_eq_false_iff_not]
      exact fun h => ha (hs.subset h)
    rw [List.filter_cons, hout]
    exact ih hn
  | @cons_cons s l a hs ih =>
    obtain ⟨ha, hn⟩ := List.nodup_cons.1 hn
    have hin : (a :: s).contains a = true := by
      rw [List.contains_cons, BEq.rfl, Bool.true_or]
    have hrest : l.filter (a :: s).contains = l.filter s.contains := by
      refine List.filter_congr fun x hx => ?_
      have hne : (x == a) = false := beq_eq_false_iff_ne.2 fun h => ha (h ▸ hx)
      rw [List.contains_cons, hne, Bool.false_or]
    rw [List.filter_cons, hin, if_pos rfl, hrest, ih hn]

/-- Among items with different names, those whose name is taken and for which a condition holds. -/
theorem map_filter_taken {l : List (Parameter × ValueMapping)} {taken : List String}
    (hs : taken.Sublist (l.map fun x => localOf x.1)) (hn : (l.map fun x => localOf x.1).Nodup)
    (r : Parameter × ValueMapping → Bool) :
    (l.filter fun x => taken.contains (localOf x.1) && r x).map (fun x => localOf x.1) =
      taken.filter fun a => l.any fun x => localOf x.1 == a && r x := by
  have hone : ∀ x ∈ l, (l.any fun y => localOf y.1 == localOf x.1 && r y) = r x := by
    intro x hx
    rw [Bool.eq_iff_iff, List.any_eq_true]
    constructor
    · rintro ⟨y, hy, h⟩
      obtain ⟨hname, hr⟩ := Bool.and_eq_true _ _ ▸ h
      rwa [← List.inj_on_of_nodup_map hn hy hx (beq_iff_eq.1 hname)]
    · intro hr
      exact ⟨x, hx, by rw [BEq.rfl, Bool.true_and, hr]⟩
  have hfilter : (l.filter fun x => taken.contains (localOf x.1) && r x) =
      l.filter ((fun a => taken.contains a && l.any fun y => localOf y.1 == a && r y) ∘
        fun x => localOf x.1) := by
    refine List.filter_congr fun x hx => ?_
    rw [Function.comp_apply, hone x hx]
  rw [hfilter, ← List.filter_map]
  conv => rhs; rw [← filter_contains_of_sublist hs hn, List.filter_filter]
  refine List.filter_congr fun a _ => ?_
  rw [Bool.and_comm]

/-- **Of what is held, the releases give back in reverse order what has to be given back.** -/
theorem filterMap_releases (hn : (m.acquiring.map fun x => localOf x.1).Nodup) :
    (releases m).filterMap (c.given? (c.acquiredBy m).reverse) =
      ((c.acquiredBy m).filter (givesBack m)).reverse := by
  have hsub := acquiredBy_sublist c (m := m)
  have hlive : ∀ x ∈ m.acquiring, (c.acquiredBy m).contains (localOf x.1) = true →
      c.isNull x.1 = false := by
    intro x hx hc
    rw [List.contains_eq_mem, decide_eq_true_iff] at hc
    obtain ⟨y, hy, hname⟩ := List.mem_map.1 (hsub.subset hc)
    obtain ⟨hy, hlive⟩ := List.mem_filter.1 hy
    rw [← List.inj_on_of_nodup_map hn hy hx hname]
    exact Bool.not_eq_true' _ ▸ hlive
  have hgiven : ∀ l : List (Parameter × ValueMapping), (∀ x ∈ l, x ∈ m.acquiring) →
      ((l.filter fun x => !x.2.release.isEmpty).map fun x => Statement.release x.1 x.2).filterMap
          (c.given? (c.acquiredBy m).reverse) =
        (l.filter fun x => (c.acquiredBy m).contains (localOf x.1) && !x.2.release.isEmpty).map
          fun x => localOf x.1 := by
    intro l hl
    induction l with
    | nil => rfl
    | cons x l ih =>
      have ih := ih fun y hy => hl y (List.mem_cons_of_mem _ hy)
      rw [List.filter_cons, List.filter_cons]
      cases hr : !x.2.release.isEmpty with
      | false => rwa [Bool.and_false, if_neg Bool.false_ne_true]
      | true =>
        rw [if_pos rfl, List.map_cons, List.filterMap_cons, ih, Chance.given?, List.contains_reverse,
          Bool.and_true]
        cases hc : (c.acquiredBy m).contains (localOf x.1) with
        | false => rw [Bool.and_false]; rfl
        | true => rw [hlive x (hl x List.mem_cons_self) hc]; rfl
  have hreleases : releases m =
      (m.acquiring.reverse.filter fun x => !x.2.release.isEmpty).map fun x => .release x.1 x.2 := rfl
  rw [hreleases, hgiven _ fun x hx => List.mem_reverse.1 hx, List.filter_reverse, List.map_reverse,
    map_filter_taken (hsub.trans ((List.filter_sublist).map _)) hn]
  rfl

/-- What is declared at the beginning of a body. -/
def declaring (m : CallMapping) : List Statement :=
  ((m.parameters.filter fun t => !t.localDecl.isEmpty).map fun t => .declare t.localDecl)
    ++ if returnsValue m then [.declareResult m.result.abiType] else []

/-- The call with the places where overrides may add code. -/
def calling (m : CallMapping) : List Statement :=
  [.fragment m.method.fragments.preCall, callOrBody m, .fragment m.method.fragments.postCall]

/-- What ends a body. -/
def ending (stats : String) (m : CallMapping) : List Statement :=
  .exit stats (methodSymbol m.method) :: if returnsValue m then [.giveBack] else []

theorem statementsOf_eq (stats : String) (m : CallMapping) : statementsOf stats m =
    declaring m ++ (.enter stats (methodSymbol m.method) :: (attempts m ++ (calling m ++
      ((if canFail m then [.failLabel] else []) ++ (releases m ++ ending stats m))))) := by
  simp only [statementsOf, declaring, attempts, checks, calling, ending, List.append_assoc,
    List.cons_append, List.nil_append]

/-- **What was acquired and has to be given back is given back once, in reverse order, and nothing
else is**, whatever is null, fails or is too short; every call is counted once, and so is its end. -/
theorem run_statementsOf {stats : String} (hm : Unadorned m.method)
    (hn : (m.acquiring.map fun x => localOf x.1).Nodup) :
    (c.acquiredBy m).Nodup ∧ c.run false [] (statementsOf stats m) =
      some ([.entered] ++ (c.acquiredBy m).map .acquired
        ++ (if (attempts m).any c.jumps then [] else [.called])
        ++ ((c.acquiredBy m).filter (givesBack m)).reverse.map .released ++ [.exited]) := by
  refine ⟨((acquiredBy_sublist c).trans ((List.filter_sublist).map _)).nodup hn, ?_⟩
  have hidle : ∀ s ∈ declaring m, c.jumps s = false ∧ c.taken? s = none ∧
      ∀ held, c.events held s = [] := by
    intro s hs
    rcases List.mem_append.1 hs with hs | hs
    · obtain ⟨t, -, rfl⟩ := List.mem_map.1 hs
      exact ⟨rfl, rfl, fun _ => rfl⟩
    · split at hs
      · obtain rfl := List.mem_singleton.1 hs
        exact ⟨rfl, rfl, fun _ => rfl⟩
      · cases hs
  have hcalling : calling m =
      [.fragment m.method.fragments.preCall, .call m, .fragment m.method.fragments.postCall] := by
    rw [calling, callOrBody_of_unadorned hm]
  have hending : ∀ held, c.run false held (ending stats m) = some [.exited] := by
    intro held
    unfold ending
    split
    · rfl
    · rfl
  have hreleases : ∀ s ∈ releases m, ∃ p t, s = .release p t := by
    intro s hs
    obtain ⟨x, -, rfl⟩ := List.mem_map.1 hs
    exact ⟨x.1, x.2, rfl⟩
  -- From the label on, all runs go on in the same way.
  have hend : c.run false (c.acquiredBy m).reverse (releases m ++ ending stats m) =
      some (((c.acquiredBy m).filter (givesBack m)).reverse.map .released ++ [.exited]) := by
    rw [c.run_releases hreleases, hending, filterMap_releases c hn]
    rfl
  have hlabel : c.run ((attempts m).any c.jumps) (c.acquiredBy m).reverse
      (calling m ++ ((if canFail m then [.failLabel] else []) ++ (releases m ++ ending stats m))) =
        some ((if (attempts m).any c.jumps then [] else [.called]) ++
          (((c.acquiredBy m).filter (givesBack m)).reverse.map .released ++ [.exited])) := by
    cases hj : (attempts m).any c.jumps with
    | true =>
      have hne : attempts m ≠ [] := by
        intro he
        rw [he] at hj
        cases hj
      rw [hcalling, c.run_seeking (by simp), if_pos (canFail_iff.2 hne), if_pos rfl]
      exact hend
    | false =>
      have hpass : ∀ r, c.run false (c.acquiredBy m).reverse (calling m ++ r) =
          (c.run false (c.acquiredBy m).reverse r).map ([.called] ++ ·) := by
        intro r
        rw [hcalling]
        show ((((c.run false _ r).map ([] ++ ·)).map ([.called] ++ ·)).map ([] ++ ·)) = _
        rw [map_append_nil, map_append_nil]
        rfl
      have hskip : ∀ r, c.run false (c.acquiredBy m).reverse
          ((if canFail m then [.failLabel] else []) ++ r) =
            c.run false (c.acquiredBy m).reverse r := by
        intro r
        split
        · exact map_append_nil _
        · rfl
      rw [hpass, hskip, hend]
      rfl
  rw [statementsOf_eq, c.run_idle (fun s hs => (hidle s hs).1) (fun s hs => (hidle s hs).2.1)
    fun s hs => (hidle s hs).2.2]
  show (c.run false [] (attempts m ++ _)).map ([.entered] ++ ·) = _
  rw [c.run_attempts isAttempt_of_mem_attempts, List.append_nil, ← Chance.acquiredBy, hlabel]
  simp only [Option.map_some, List.append_assoc]

end

end NativeGlue.Code
