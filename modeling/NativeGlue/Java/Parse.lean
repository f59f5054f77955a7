import NativeGlue.Java.Grammar
import NativeGlue.Java.Tree
import NativeGlue.Parsing.State

/-!
# Reading source files

A file is read from left to right. Where the grammar leaves it open how to read on, all ways are
followed side by side; ways that have read the same symbols become one again. A file follows the
grammar if one of the ways reaches its end.
-/

namespace NativeGlue.Java

open NativeGlue.Parsing

/-! ## 1. The grammar as tables -/

/-- The numbers of the symbols of the grammar. -/
def numbering : Numbering Terminal Phrase NodeKind :=
  .ofGrammar [.finish, .name, .literal, .fragment, .blockFragment] Grammar.all

/-- The tables of the grammar. -/
def tables : Tables NodeKind :=
  .ofProductions numbering.terminals.length numbering.heads (numbering.productions Grammar.all)

/-- The symbols of the language. -/
def symbols : List String :=
  numbering.terminals.filterMap fun | .symbol s => some s | _ => none

/-! ## 2. Ways of reading -/

/-- A symbol that was read, the state behind it, and its piece. -/
structure Frame where
  symbol : Nat
  state : State
  piece : Piece NodeKind
  deriving Inhabited

/-- A way of reading: what was read so far, the latest first, and where it stands. -/
structure Way where
  frames : List Frame
  cursor : Cursor
  deriving Inhabited

/-- The state before a file. -/
def initialState : State := .initial tables (numbering.terminal .finish)

/-- The state on top of frames. -/
def topState : List Frame → State
  | [] => initialState
  | f :: _ => f.state

/-- Whether two ways have read the same symbols. -/
def sameSymbols : List Frame → List Frame → Bool
  | [], [] => true
  | a :: r, b :: s => a.symbol == b.symbol && sameSymbols r s
  | _, _ => false

/-- Whether two ways are one: they stand at the same place and have read the same symbols. -/
def Way.same (a b : Way) : Bool :=
  a.cursor.place.index == b.cursor.place.index && sameSymbols a.frames b.frames

/-- Adds ways to others and drops those that are there already. -/
def mergeWays (ways more : List Way) : List Way :=
  more.foldl (fun acc w => if acc.any w.same then acc else acc ++ [w]) ways

/-- Puts a symbol on top of frames. -/
def pushFrame (frames : List Frame) (symbol : Nat) (piece : Piece NodeKind) : List Frame :=
  ⟨symbol, (topState frames).after tables symbol, piece⟩ :: frames

/-- Closes a production: its parts become one symbol. -/
def closeProduction (frames : List Frame) (p : Production NodeKind) : List Frame :=
  let n := p.steps.size
  let parts := (frames.take n).reverse.map (·.piece)
  pushFrame (frames.drop n) (tables.terminals + p.head)
    (.ofParts (p.steps.toList.map (·.mark)) parts)

/-! ## 3. Reading on -/

/-- Where a step leads: a way behind the token, or the trees of the whole file. -/
inductive Outcome where
  | way (frames : List Frame)
  | done (trees : List (Tree NodeKind))
  deriving Inhabited

/-- The choices at a token, with the token. A word for which the state has no use is read as what else
it may be. -/
def choicesAt (s : State) (t : Token) : Token × List Choice :=
  match s.choices tables (numbering.terminal t.terminal), t.otherwise with
  | [], some other =>
    ({ t with terminal := other, otherwise := none }, s.choices tables (numbering.terminal other))
  | cs, _ => (t, cs)

/-- All that a token leads to. Productions are closed before it as long as there are any; the number
bounds how many. -/
def outcomes : Nat → Token → List Frame → List Outcome
  | 0, _, _ => []
  | n + 1, t, frames =>
    let (t, cs) := choicesAt (topState frames) t
    cs.flatMap fun
      | .shift => [.way (pushFrame frames (numbering.terminal t.terminal) (.ofToken t))]
      | .reduce i =>
        match tables.productions[i]? with
        | none => []
        | some p =>
          let closed := closeProduction frames p
          if p.head = 0 then [.done ((closed.head?.map (·.piece.trees)).getD [])]
          else outcomes n t closed

/-- The next token for some frames. -/
def tokenFor (frames : List Frame) (c : Cursor) : Option (Token × Cursor) :=
  let expected := (topState frames).expected
  nextToken (fun t => holds expected (numbering.terminal t)) symbols (c.plain.length + 1) [] c

/-- Reads on until a way reaches the end or none is left. In each round the ways that are furthest
behind read one token; the number bounds the rounds. -/
def readFrom : Nat → List Way → Option (List (Tree NodeKind))
  | 0, _ => none
  | _, [] => none
  | n + 1, w :: r =>
    let least := r.foldl (fun m x => min m x.cursor.place.index) w.cursor.place.index
    let (now, later) := (w :: r).partition (·.cursor.place.index == least)
    let reached := now.flatMap fun w =>
      match tokenFor w.frames w.cursor with
      | none => []
      | some (t, c) => (outcomes (tables.heads * (w.frames.length + 1)) t w.frames).map (·, c)
    match reached.findSome? fun | (.done ts, _) => some ts | _ => none with
    | some ts => some ts
    | none => readFrom n (mergeWays later (reached.filterMap fun
        | (.way fs, c) => some ⟨fs, c⟩
        | _ => none))

/-- The trees of a source file, or nothing if the file does not follow the grammar. -/
def parse? (source : List (Char × Nat)) : Option (List (Tree NodeKind)) :=
  readFrom (source.length + 2) [⟨[], .ofSource source⟩]

end NativeGlue.Java
