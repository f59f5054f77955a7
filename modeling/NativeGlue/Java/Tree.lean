import NativeGlue.Java.Token
import NativeGlue.Parsing.Form

/-!
# Trees of source files

A tree stands for a stretch of a source file. Each reading of a phrase makes a piece: the stretch that
was read, and the trees inside it that are still wanted.
-/

namespace NativeGlue.Java

open NativeGlue.Parsing

/-- A tree over a stretch of a file: its kind, the place of its first character, the place behind its
last one, the comments before it, and the trees inside it. -/
inductive Tree (κ : Type) where
  | node (kind : κ) (start : Place) (stop : Nat) (comments : List Comment) (children : List (Tree κ))
  deriving Inhabited, Repr

namespace Tree

variable {κ : Type}

/-- The kind of a tree. -/
def kind : Tree κ → κ
  | node k _ _ _ _ => k

/-- The place of the first character of a tree. -/
def start : Tree κ → Place
  | node _ p _ _ _ => p

/-- The place behind the last character of a tree. -/
def stop : Tree κ → Nat
  | node _ _ s _ _ => s

/-- The comments before a tree. -/
def comments : Tree κ → List Comment
  | node _ _ _ cs _ => cs

/-- The trees inside a tree. -/
def children : Tree κ → List (Tree κ)
  | node _ _ _ _ ts => ts

/-- The first tree of a kind inside a tree. -/
def child? [BEq κ] (t : Tree κ) (k : κ) : Option (Tree κ) := t.children.find? (·.kind == k)

end Tree

/-- A stretch of a file that was read as a symbol: where it begins and ends, the comments before it,
and the trees in it that are still wanted. -/
structure Piece (κ : Type) where
  start : Place
  stop : Nat
  comments : List Comment
  trees : List (Tree κ) := []
  deriving Inhabited

namespace Piece

variable {κ : Type}

/-- The piece of a token. -/
def ofToken (t : Token) : Piece κ := ⟨t.start, t.stop, t.comments, []⟩

/-- What becomes of the trees of a piece. -/
def treesBy (p : Piece κ) : Mark κ → List (Tree κ)
  | .keep => p.trees
  | .drop => []
  | .node k => [.node k p.start p.stop p.comments p.trees]

/-- The piece that pieces make as the parts of a production. -/
def ofParts (marks : List (Mark κ)) (ps : List (Piece κ)) : Piece κ :=
  let first : Piece κ := ps.head?.getD default
  { start := first.start
    stop := (ps.getLast?.getD first).stop
    comments := first.comments
    trees := (ps.zip marks).flatMap fun (p, m) => p.treesBy m }

end Piece

end NativeGlue.Java
