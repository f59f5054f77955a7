/-!
# Grammars

A grammar as data: the phrases of a language, each with the forms that it may take. Forms are put
together from terminals and phrases. For reading they are expanded into productions, which are plain
sequences of symbols; a repetition becomes a phrase of its own that begins with itself.

Symbols are numbered: first the terminals, then the phrases, then the repetitions.
-/

namespace NativeGlue.Parsing

/-! ## 1. Forms -/

/-- What becomes of the trees that a part of a phrase is read as. -/
inductive Mark (κ : Type) where
  /-- They go on into the phrase. -/
  | keep
  /-- They are not wanted. -/
  | drop
  /-- They become one tree of a kind. -/
  | node (kind : κ)
  deriving DecidableEq, Repr, Inhabited

/-- A form with terminals `τ`, phrases `ν` and kinds of trees `κ`. -/
inductive Form (τ ν κ : Type) where
  | empty
  | token (t : τ)
  | phrase (p : ν)
  | both (a b : Form τ ν κ)
  | either (a b : Form τ ν κ)
  | repeated (a : Form τ ν κ)
  | marked (m : Mark κ) (a : Form τ ν κ)
  deriving DecidableEq, Repr, Inhabited

namespace Form

variable {τ ν κ : Type}

/-- Forms one after the other. -/
def seq : List (Form τ ν κ) → Form τ ν κ
  | [] => empty
  | [a] => a
  | a :: r => both a (seq r)

/-- One of several forms. -/
def oneOf : List (Form τ ν κ) → Form τ ν κ
  | [] => empty
  | [a] => a
  | a :: r => either a (oneOf r)

/-- A form or nothing. -/
def optional (a : Form τ ν κ) : Form τ ν κ := either empty a

/-- A form any number of times. -/
def many (a : Form τ ν κ) : Form τ ν κ := optional (repeated a)

/-- A form that becomes a tree of a kind. -/
def node (k : κ) (a : Form τ ν κ) : Form τ ν κ := marked (.node k) a

/-- A form whose trees are not wanted. -/
def drop (a : Form τ ν κ) : Form τ ν κ := marked .drop a

/-- The terminals of a form. -/
def tokens : Form τ ν κ → List τ
  | empty => []
  | token t => [t]
  | phrase _ => []
  | both a b => a.tokens ++ b.tokens
  | either a b => a.tokens ++ b.tokens
  | repeated a => a.tokens
  | marked _ a => a.tokens

/-- What is repeated inside a form. -/
def repetitions : Form τ ν κ → List (Form τ ν κ)
  | empty => []
  | token _ => []
  | phrase _ => []
  | both a b => a.repetitions ++ b.repetitions
  | either a b => a.repetitions ++ b.repetitions
  | repeated a => a :: a.repetitions
  | marked _ a => a.repetitions

end Form

/-! ## 2. Grammars -/

/-- How a phrase of an operator meets another one of the same rank. -/
inductive Grouping where
  | free
  | left
  | right
  deriving DecidableEq, Repr, Inhabited

/-- A form of a phrase, with the rank by which it binds its parts. -/
structure Branch (τ ν κ : Type) where
  form : Form τ ν κ
  rank : Int := 0
  grouping : Grouping := .free
  deriving Repr, Inhabited

/-- A grammar: the phrases with their branches. The first phrase is what a whole text is. -/
abbrev Grammar (τ ν κ : Type) := List (ν × List (Branch τ ν κ))

/-! ## 3. Productions -/

/-- A part of a production: the number of a symbol, and what becomes of its trees. -/
structure Step (κ : Type) where
  symbol : Nat
  mark : Mark κ
  deriving Repr, Inhabited

/-- A production: the number of the phrase that it makes, counted from the first phrase on, and the
parts that it is made of. -/
structure Production (κ : Type) where
  head : Nat
  steps : Array (Step κ)
  rank : Int := 0
  grouping : Grouping := .free
  deriving Repr, Inhabited

/-- The symbols of a grammar in the order of their numbers. -/
structure Numbering (τ ν κ : Type) where
  terminals : List τ
  phrases : List ν
  repetitions : List (Form τ ν κ)
  deriving Inhabited

section Numbering

variable {τ ν κ : Type} [DecidableEq τ] [DecidableEq ν] [DecidableEq κ]

/-- A list without repeated elements, in the order of their first places. -/
def distinct {α : Type} [DecidableEq α] (xs : List α) : List α :=
  (xs.foldl (fun acc x => if acc.contains x then acc else x :: acc) []).reverse

/-- Numbers the symbols of a grammar; further terminals come first. -/
def Numbering.ofGrammar (further : List τ) (g : Grammar τ ν κ) : Numbering τ ν κ :=
  let forms := g.flatMap fun (_, bs) => bs.map (·.form)
  { terminals := distinct (further ++ forms.flatMap Form.tokens)
    phrases := g.map (·.1)
    repetitions := distinct (forms.flatMap Form.repetitions) }

namespace Numbering

variable (n : Numbering τ ν κ)

/-- The number of a terminal. -/
def terminal (t : τ) : Nat := n.terminals.idxOf t

/-- How many phrases there are, repetitions among them. -/
def heads : Nat := n.phrases.length + n.repetitions.length

/-- The number of a phrase among the phrases. -/
def head (p : ν) : Nat := n.phrases.idxOf p

/-- The number of a repetition among the phrases. -/
def repetitionHead (a : Form τ ν κ) : Nat := n.phrases.length + n.repetitions.idxOf a

/-- The sequences of symbols that a form stands for. -/
def expand : Form τ ν κ → List (List (Step κ))
  | .empty => [[]]
  | .token t => [[⟨n.terminal t, .keep⟩]]
  | .phrase p => [[⟨n.terminals.length + n.head p, .keep⟩]]
  | .both a b => (expand a).flatMap fun x => (expand b).map fun y => x ++ y
  | .either a b => expand a ++ expand b
  | .repeated a => [[⟨n.terminals.length + n.repetitionHead a, .keep⟩]]
  | .marked m a => (expand a).map fun x => x.map fun s => { s with mark := m }

/-- The productions of a repetition: what is repeated, alone or behind an earlier repetition. -/
def ofRepetition (a : Form τ ν κ) : List (Production κ) :=
  let h := n.repetitionHead a
  (n.expand a).flatMap fun x =>
    [{ head := h, steps := x.toArray },
     { head := h, steps := (⟨n.terminals.length + h, .keep⟩ :: x).toArray }]

/-- The productions of a phrase. -/
def ofPhrase (p : ν) (bs : List (Branch τ ν κ)) : List (Production κ) :=
  bs.flatMap fun b => (n.expand b.form).map fun x =>
    { head := n.head p, steps := x.toArray, rank := b.rank, grouping := b.grouping }

/-- All productions of a grammar. -/
def productions (g : Grammar τ ν κ) : List (Production κ) :=
  g.flatMap (fun (p, bs) => n.ofPhrase p bs) ++ n.repetitions.flatMap n.ofRepetition

end Numbering

end Numbering

end NativeGlue.Parsing
