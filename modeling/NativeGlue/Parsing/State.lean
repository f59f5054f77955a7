import NativeGlue.Parsing.Form

/-!
# States of reading

What a reader knows at a place in a text: which productions it may be inside of, how far it has come
in each, and which terminals may follow each of them. From a state it can be told which terminals may
come next, and for each of them whether to read on or to close a production. Where both are possible,
the ranks of the productions decide; what they leave open stays open.

States are made when they are needed. A set of terminals is a number whose bits stand for them.
-/

namespace NativeGlue.Parsing

/-! ## 1. Tables -/

/-- A set of terminals. -/
abbrev TerminalSet := Nat

/-- The set of one terminal. -/
def single (t : Nat) : TerminalSet := 1 <<< t

/-- A phrase that another one may begin with: which terminals may come right after it, and whether
what follows the other phrase may do so too. -/
structure Beginning where
  head : Nat
  ahead : TerminalSet
  inherits : Bool
  deriving Repr, Inhabited

/-- What is known of a grammar before any text is read. -/
structure Tables (κ : Type) where
  terminals : Nat
  heads : Nat
  productions : Array (Production κ)
  /-- By symbol: the terminals that it may begin with. -/
  first : Array TerminalSet
  /-- By symbol: the productions that begin with it. -/
  starting : Array (List Nat)
  /-- By phrase: all that it may begin with, itself among it. -/
  beginnings : Array (List Beginning)
  deriving Inhabited

section Building

variable {κ : Type}

/-- Adds to the first terminals of each phrase those of the symbols its productions begin with. -/
def widen (terminals : Nat) (ps : Array (Production κ)) (first : Array TerminalSet) :
    Array TerminalSet :=
  ps.foldl (fun acc p => match p.steps[0]? with
    | none => acc
    | some s => acc.modify (terminals + p.head) (· ||| acc.getD s.symbol 0)) first

/-- Repeats a step until it changes nothing more, a number of times at most. -/
def settle {α : Type} [DecidableEq α] (f : α → α) : Nat → α → α
  | 0, a => a
  | n + 1, a => if f a = a then a else settle f n (f a)

/-- The terminals that each symbol may begin with. -/
def firstSets (terminals heads : Nat) (ps : Array (Production κ)) : Array TerminalSet :=
  settle (widen terminals ps) heads
    (((List.range terminals).map single).toArray ++ Array.replicate heads 0)

/-- By symbol, the productions that begin with it. -/
def startingWith (symbols : Nat) (ps : Array (Production κ)) : Array (List Nat) :=
  (List.range ps.size).reverse.foldl (fun acc i =>
    match ps[i]?.bind (·.steps[0]?) with
    | none => acc
    | some s => acc.modify s.symbol (i :: ·)) (Array.replicate symbols [])

/-- What a phrase begins with at once. -/
def directBeginnings (terminals heads : Nat) (first : Array TerminalSet)
    (ps : Array (Production κ)) : Array (List Beginning) :=
  ps.foldl (fun acc p =>
    match p.steps[0]? with
    | none => acc
    | some s =>
      if s.symbol < terminals then acc
      else acc.modify p.head (⟨s.symbol - terminals,
        match p.steps[1]? with | some s => first.getD s.symbol 0 | none => 0,
        p.steps.size == 1⟩ :: ·)) (Array.replicate heads [])

/-- Joins a beginning to those with the same phrase, and says whether it brings anything new. -/
def joinBeginning (b : Beginning) : List Beginning → List Beginning × Bool
  | [] => ([b], true)
  | x :: r =>
    if x.head = b.head then
      let y : Beginning := ⟨x.head, x.ahead ||| b.ahead, x.inherits || b.inherits⟩
      (y :: r, y.ahead != x.ahead || y.inherits != x.inherits)
    else
      let (r, new) := joinBeginning b r
      (x :: r, new)

/-- Follows beginnings to the beginnings of their phrases. `work` are phrases whose own beginnings are
still to be looked at; the number bounds the steps. -/
def followBeginnings (direct : Array (List Beginning)) :
    Nat → List Nat → List Beginning → List Beginning
  | 0, _, acc => acc
  | _, [], acc => acc
  | n + 1, h :: work, acc =>
    match acc.find? (·.head == h) with
    | none => followBeginnings direct n work acc
    | some source =>
      let (acc, work) := (direct.getD h []).foldl (fun (acc, work) b =>
        let b : Beginning :=
          if b.inherits then ⟨b.head, b.ahead ||| source.ahead, source.inherits⟩ else b
        let (acc, new) := joinBeginning b acc
        (acc, if new && !work.contains b.head then b.head :: work else work)) (acc, work)
      followBeginnings direct n work acc

/-- All that each phrase may begin with. -/
def allBeginnings (terminals heads : Nat) (first : Array TerminalSet) (ps : Array (Production κ)) :
    Array (List Beginning) :=
  let direct := directBeginnings terminals heads first ps
  ((List.range heads).map fun h =>
    followBeginnings direct (heads * heads) [h] [⟨h, 0, true⟩]).toArray

/-- The tables of numbered productions. -/
def Tables.ofProductions (terminals heads : Nat) (productions : List (Production κ)) : Tables κ :=
  let ps := productions.toArray
  let first := firstSets terminals heads ps
  { terminals, heads, productions := ps, first
    starting := startingWith (terminals + heads) ps
    beginnings := allBeginnings terminals heads first ps }

end Building

/-! ## 2. Items and states -/

/-- A production, how many of its parts have been read, and what may follow it. -/
structure Item where
  production : Nat
  position : Nat
  ahead : TerminalSet
  deriving DecidableEq, Repr, Inhabited

/-- A state: the items that are being read, what may follow the phrases that may begin here (nothing
for those that may not), and the terminals that may come next. -/
structure State where
  items : List Item
  opened : Array TerminalSet
  expected : TerminalSet
  deriving Inhabited

section States

variable {κ : Type} (t : Tables κ)

/-- The symbol that an item waits for, if it is not complete. -/
def Item.next? (i : Item) : Option Nat :=
  ((t.productions[i.production]?).bind (·.steps[i.position]?)).map (·.symbol)

/-- What may follow the symbol that an item waits for. -/
def Item.behind (i : Item) : TerminalSet :=
  match ({ i with position := i.position + 1 } : Item).next? t with
  | some s => t.first.getD s 0
  | none => i.ahead

/-- Whether a terminal is in a set. -/
def holds (s : TerminalSet) (x : Nat) : Bool := s.testBit x

/-- Opens the phrases that an item may wait for. -/
def openFor (acc : Array TerminalSet) (i : Item) : Array TerminalSet :=
  match i.next? t with
  | none => acc
  | some s =>
    if s < t.terminals then acc
    else
      let behind := i.behind t
      (t.beginnings.getD (s - t.terminals) []).foldl (fun acc b =>
        acc.modify b.head (· ||| if b.inherits then b.ahead ||| behind else b.ahead)) acc

/-- The state in which some items are being read. -/
def State.ofItems (items : List Item) : State :=
  { items
    opened := items.foldl (openFor t) (Array.replicate t.heads 0)
    expected := items.foldl (fun acc i => acc ||| match i.next? t with
      | some s => t.first.getD s 0
      | none => i.ahead) 0 }

/-- The state before a whole text, behind which a terminal stands. -/
def State.initial (finish : Nat) : State :=
  .ofItems t <| (List.range t.productions.size).filterMap fun i =>
    if (t.productions[i]?).any (·.head == 0) then some ⟨i, 0, single finish⟩ else none

/-- The state behind a symbol. -/
def State.after (s : State) (x : Nat) : State :=
  let going := s.items.filterMap fun i =>
    if i.next? t = some x then some { i with position := i.position + 1 } else none
  let begun := (t.starting.getD x []).filterMap fun i =>
    match t.productions[i]? with
    | none => none
    | some p =>
      let ahead := s.opened.getD p.head 0
      if ahead = 0 then none else some ⟨i, 1, ahead⟩
  .ofItems t (going ++ begun)

/-! ## 3. Choices -/

/-- What to do at a terminal. -/
inductive Choice where
  /-- Read it. -/
  | shift
  /-- Close a production before it. -/
  | reduce (production : Nat)
  deriving DecidableEq, Repr, Inhabited

/-- The productions that may be closed before a terminal: of those that are complete, the ones of the
highest rank. -/
def State.closing (s : State) (x : Nat) : List Nat :=
  let complete := s.items.filter fun i => (i.next? t).isNone && holds i.ahead x
  let rank := fun (i : Item) => ((t.productions[i.production]?).map (·.rank)).getD 0
  let highest := complete.foldl (fun m i => max m (rank i)) ((complete.head?.map rank).getD 0)
  (complete.filter fun i => rank i = highest).map (·.production)

/-- The ranks of the productions that go on with a terminal. -/
def State.goingOn (s : State) (x : Nat) : List Int :=
  s.items.filterMap fun i =>
    match i.next? t with
    | some y =>
      if 0 < i.position ∧ holds (t.first.getD y 0) x then
        (t.productions[i.production]?).map (·.rank)
      else none
    | none => none

/-- Whether a terminal can be read in a state. -/
def State.reads (s : State) (x : Nat) : Bool :=
  s.items.any (fun i => i.next? t = some x) ||
    (t.starting.getD x []).any fun i =>
      (t.productions[i]?).any fun p => s.opened.getD p.head 0 != 0

/-- What can be done at a terminal. Where it can be read and a production can be closed, the higher
rank wins; among equal ranks a grouping to the left closes and one to the right reads on. -/
def State.choices (s : State) (x : Nat) : List Choice :=
  let closing := s.closing t x
  let closings := closing.map Choice.reduce
  if !s.reads t x then closings
  else match closing with
  | [] => [.shift]
  | i :: _ =>
    let rank := ((t.productions[i]?).map (·.rank)).getD 0
    let ranks := s.goingOn t x
    let higher := ranks.any (rank < ·)
    let lower := ranks.any (· < rank)
    let all := fun (g : Grouping) => closing.all fun i =>
      ((t.productions[i]?).map (·.grouping)).getD .free == g
    if higher && !lower then [.shift]
    else if lower && !higher then closings
    else if !higher && !lower && all .left then closings
    else if !higher && !lower && all .right then [.shift]
    else closings ++ [.shift]

end States

end NativeGlue.Parsing
