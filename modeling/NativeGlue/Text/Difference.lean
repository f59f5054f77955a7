import NativeGlue.Text.Blank

/-!
# Differences of texts

The difference of two texts as a list of changed places with some lines of context. Equal stretches
are found from the longest one outwards: the longest common stretch, the one that begins first among
equals, then the same before it and behind it. Lines that occur very often in a long text start no
stretch, they only make one longer.
-/

namespace NativeGlue.Text

namespace Difference

/-! ## 1. Common stretches -/

/-- A stretch of lines that two texts have in common: where it begins in each, and its length. -/
structure Stretch where
  before : Nat
  after : Nat
  size : Nat
  deriving DecidableEq, Repr, Inhabited

/-- A part of each text: the first lines and the lines behind the last ones. -/
structure Window where
  beforeStart : Nat
  beforeStop : Nat
  afterStart : Nat
  afterStop : Nat
  deriving DecidableEq, Repr, Inhabited

/-- The places of a line in a text; none if the text has at least 200 lines and more than one in a
hundred of them are this one. -/
def placesOf (line : String) (text : List String) : List Nat :=
  let places := text.zipIdx.filterMap fun (l, i) => if l == line then some i else none
  if 200 ≤ text.length && text.length / 100 + 1 < places.length then [] else places

/-- The lengths of the common stretches that end at a line, by the place of their ends in the other
text; `previous` are those that end one line earlier. -/
def endingAt (w : Window) (previous : List (Nat × Nat)) (places : List Nat) : List (Nat × Nat) :=
  (places.filter fun j => w.afterStart ≤ j && j < w.afterStop).map fun j =>
    let before := if j = 0 then 0 else (previous.lookup (j - 1)).getD 0
    (j, before + 1)

/-- The longer of a stretch and those that end at a line; among equals the one found first. -/
def better (i : Nat) (best : Stretch) (ends : List (Nat × Nat)) : Stretch :=
  ends.foldl (fun s (j, k) => if s.size < k then ⟨i + 1 - k, j + 1 - k, k⟩ else s) best

/-- The longest common stretch inside a window, as far as frequent lines do not matter. -/
def longestRare (places : Array (List Nat)) (w : Window) : Stretch :=
  let lines := (List.range (w.beforeStop - w.beforeStart)).map (· + w.beforeStart)
  (lines.foldl (fun (acc : Stretch × List (Nat × Nat)) i =>
    let ends := endingAt w acc.2 (places[i]?.getD [])
    (better i acc.1 ends, ends)) (⟨w.beforeStart, w.afterStart, 0⟩, [])).1

/-- Makes a stretch longer towards the beginning; the number bounds by how much. -/
def growBack (a b : Array String) (w : Window) : Nat → Stretch → Stretch
  | 0, s => s
  | n + 1, s =>
    if w.beforeStart < s.before ∧ w.afterStart < s.after ∧ a[s.before - 1]? = b[s.after - 1]? then
      growBack a b w n ⟨s.before - 1, s.after - 1, s.size + 1⟩
    else s

/-- Makes a stretch longer towards the end; the number bounds by how much. -/
def growOn (a b : Array String) (w : Window) : Nat → Stretch → Stretch
  | 0, s => s
  | n + 1, s =>
    if s.before + s.size < w.beforeStop ∧ s.after + s.size < w.afterStop
        ∧ a[s.before + s.size]? = b[s.after + s.size]? then
      growOn a b w n { s with size := s.size + 1 }
    else s

/-- The longest common stretch inside a window. -/
def longest (a b : Array String) (places : Array (List Nat)) (w : Window) : Stretch :=
  growOn a b w a.size (growBack a b w a.size (longestRare places w))

/-- All common stretches inside a window, in order. The number bounds the depth. -/
def stretchesIn (a b : Array String) (places : Array (List Nat)) : Nat → Window → List Stretch
  | 0, _ => []
  | n + 1, w =>
    let s := longest a b places w
    if s.size = 0 then []
    else
      let left := if w.beforeStart < s.before ∧ w.afterStart < s.after then
          stretchesIn a b places n { w with beforeStop := s.before, afterStop := s.after }
        else []
      let right := if s.before + s.size < w.beforeStop ∧ s.after + s.size < w.afterStop then
          stretchesIn a b places n
            { w with beforeStart := s.before + s.size, afterStart := s.after + s.size }
        else []
      left ++ s :: right

/-- Joins stretches that follow each other directly in both texts. -/
def joinStretches : List Stretch → List Stretch
  | [] => []
  | s :: r =>
    match joinStretches r with
    | [] => [s]
    | t :: rest =>
      if s.before + s.size = t.before ∧ s.after + s.size = t.after then
        { s with size := s.size + t.size } :: rest
      else s :: t :: rest

/-- The common stretches of two texts. -/
def stretches (a b : List String) : List Stretch :=
  let places := (a.map fun l => placesOf l b).toArray
  joinStretches
    (stretchesIn a.toArray b.toArray places (a.length + 1) ⟨0, a.length, 0, b.length⟩)

/-! ## 2. Changes -/

/-- A part of both texts that is equal or not. -/
structure Part where
  equal : Bool
  window : Window
  deriving DecidableEq, Repr, Inhabited

/-- The parts of two texts from some places on, given their common stretches. -/
def partsFrom (i j m n : Nat) : List Stretch → List Part
  | [] => if i < m ∨ j < n then [⟨false, i, m, j, n⟩] else []
  | s :: r =>
    let changed := if i < s.before ∨ j < s.after then [⟨false, i, s.before, j, s.after⟩] else []
    changed ++ ⟨true, s.before, s.before + s.size, s.after, s.after + s.size⟩ ::
      partsFrom (s.before + s.size) (s.after + s.size) m n r

/-- How many lines of context a change has on each side. -/
def context : Nat := 3

/-- The end of an equal part, as context of what follows. -/
def lastLines (w : Window) : Window :=
  { w with beforeStart := max w.beforeStart (w.beforeStop - context),
           afterStart := max w.afterStart (w.afterStop - context) }

/-- The beginning of an equal part, as context of what is before it. -/
def firstLines (w : Window) : Window :=
  { w with beforeStop := min w.beforeStop (w.beforeStart + context),
           afterStop := min w.afterStop (w.afterStart + context) }

/-- Cuts the first part, if equal, down to context. -/
def cutFirst : List Part → List Part
  | ⟨true, w⟩ :: r => ⟨true, lastLines w⟩ :: r
  | ps => ps

/-- Cuts the last part, if equal, down to context. -/
def cutLast : List Part → List Part
  | [] => []
  | [⟨true, w⟩] => [⟨true, firstLines w⟩]
  | p :: r => p :: cutLast r

/-- Parts in groups: an equal part that is longer than the context of both sides separates two. -/
def groupParts (group : List Part) : List Part → List (List Part)
  | [] => if group.isEmpty then [] else [group]
  | p :: r =>
    if p.equal && 2 * context < p.window.beforeStop - p.window.beforeStart then
      (group ++ [⟨true, firstLines p.window⟩]) :: groupParts [⟨true, lastLines p.window⟩] r
    else groupParts (group ++ [p]) r

/-- The groups of changes of two texts. -/
def groups (a b : List String) : List (List Part) :=
  let parts := partsFrom 0 0 a.length b.length (stretches a b)
  (groupParts [] (cutLast (cutFirst parts))).filter fun g => g.any fun p => !p.equal

/-! ## 3. The text of a difference -/

/-- Lines of a text as `first,count`; a single line needs no count. -/
def rangeText (start stop : Nat) : String :=
  let length := stop - start
  if length = 1 then s!"{start + 1}"
  else if length = 0 then s!"{start},0"
  else s!"{start + 1},{length}"

/-- Lines with a mark before each. -/
def marked (mark : String) (lines : List String) : List String := lines.map (mark ++ ·)

/-- The lines of a part. -/
def partLines (a b : List String) (p : Part) : List String :=
  let old := (a.drop p.window.beforeStart).take (p.window.beforeStop - p.window.beforeStart)
  let new := (b.drop p.window.afterStart).take (p.window.afterStop - p.window.afterStart)
  if p.equal then marked " " old else marked "-" old ++ marked "+" new

/-- The lines of a group of changes. -/
def groupLines (a b : List String) (g : List Part) : List String :=
  let w := ((g.head?).map (·.window)).getD default
  let z := ((g.getLast?).map (·.window)).getD default
  s!"@@ -{rangeText w.beforeStart z.beforeStop} +{rangeText w.afterStart z.afterStop} @@\n" ::
    g.flatMap (partLines a b)

end Difference

/-- The difference of two texts, under the names of both; empty if they are equal. -/
def difference (oldName newName old new : String) : String :=
  let a := linesKept old
  let b := linesKept new
  match Difference.groups a b with
  | [] => ""
  | gs => String.join
      (s!"--- {oldName}\n" :: s!"+++ {newName}\n" :: gs.flatMap (Difference.groupLines a b))

end NativeGlue.Text
