import NativeGlue.Yaml.Graph
import NativeGlue.Yaml.Scalar

/-!
# Values of YAML documents

The value of a text that holds one document of plain data, or of none, which is empty. Nodes are read
by their tags, and those without one by their form. A mapping may take the pairs of others in by the
key `<<`; its own pairs win.

A document is read level by level, so of two faults the one on the upper level is reported. What a
collection holds is found out when its level is reached, and by then it may already stand in others;
so a collection may become a member of itself.
-/

namespace NativeGlue.Yaml

open NativeGlue.Data NativeGlue.Text

/-! ## 1. Tags -/

/-- The beginning of the names of all tags for plain data. -/
def tagStart : String := "tag:yaml.org,2002:"

/-- The name of a tag for plain data, without its beginning. -/
def plainTag? (tag : String) : Option String :=
  (rest? tagStart.toList tag.toList).map String.ofList

/-- The name of the tag that stands for a kind of scalars. -/
def ScalarKind.name : ScalarKind → String
  | .null => "null"
  | .truth => "bool"
  | .int => "int"
  | .float => "float"
  | .time => "timestamp"
  | .merge => "merge"
  | .value => "value"
  | .text => "str"

/-- What a node is by its tag or its form; a tag that is not for plain data gives nothing. -/
def Node.kindName? : Node → Option String
  | .scalar (some t) _ _ => plainTag? t
  | .scalar none text plain => some (if plain then (kindOf text).name else "str")
  | .sequence (some t) _ => plainTag? t
  | .sequence none _ => some "seq"
  | .mapping (some t) _ => plainTag? t
  | .mapping none _ => some "map"

/-- The kinds of collections. -/
def collectionKinds : List String := ["seq", "map", "set", "omap", "pairs"]

/-- The kinds of scalars that have values. -/
def scalarKinds : List String := ["null", "bool", "int", "float", "binary", "timestamp", "str"]

/-! ## 2. Merging -/

/-- Whether the key of a pair takes other mappings in. -/
def Graph.isMerge (g : Graph) (p : NodeId × NodeId) : Bool := (g.node p.1).kindName? == some "merge"

/-- The pairs of a mapping. -/
def Graph.pairs (g : Graph) (id : NodeId) : List (NodeId × NodeId) :=
  match g.node id with
  | .mapping _ ps => ps
  | _ => []

/-- Gives a node other pairs. -/
def Graph.setPairs (g : Graph) (id : NodeId) (ps : List (NodeId × NodeId)) : Graph :=
  match g.node id with
  | .mapping tag _ => { g with nodes := g.nodes.setIfInBounds id (.mapping tag ps) }
  | _ => g

/-- Makes the mark `=` a text where it is a key. -/
def Graph.plainKey (g : Graph) (key : NodeId) : Graph :=
  match g.node key with
  | .scalar tag text plain =>
    if (Node.scalar tag text plain).kindName? == some "value" then
      { g with nodes := g.nodes.setIfInBounds key (.scalar none text false) }
    else g
  | _ => g

/-- The number of pairs that still have to take others in. -/
def Graph.mergeCount (g : Graph) : Nat :=
  (List.range g.nodes.size).foldl (fun n id => n + (g.pairs id).countP g.isMerge) 0

/-- Lets a mapping take others in, and those before that: their pairs come first, and of several
mappings in a sequence those of the last one do. `taken` holds the pairs found so far; the number bounds
the pairs that still have to take others in. -/
def Graph.takeIn : Nat → NodeId → List (NodeId × NodeId) → Graph → Except Fault Graph
  | 0, _, _, _ => .error .malformed
  | n + 1, id, taken, g =>
    let ps := g.pairs id
    match ps.findIdx? g.isMerge with
    | none =>
      let whole := if taken.isEmpty then g else g.setPairs id (taken ++ ps)
      .ok ((ps.map (·.1)).foldl Graph.plainKey whole)
    | some i => do
      let source := ((ps[i]?).map (·.2)).getD id
      let g := g.setPairs id (ps.eraseIdx i)
      match g.node source with
      | .mapping .. =>
        let g ← takeIn n source [] g
        takeIn n id (taken ++ g.pairs source) g
      | .sequence _ items =>
        let (found, g) ← items.foldlM (fun (found, g) x => do
          match g.node x with
          | .mapping .. =>
            let g ← takeIn n x [] g
            pure (g.pairs x ++ found, g)
          | _ => throw .malformed) ([], g)
        takeIn n id (taken ++ found) g
      | .scalar .. => throw .malformed

/-! ## 3. Scalars -/

/-- The text of a node that has to be a scalar. A mapping counts as what stands under its key `=`. The
number bounds how often this is so. -/
def Graph.text : Nat → NodeId → Graph → Except Fault String
  | 0, _, _ => .error .tooDeep
  | n + 1, id, g =>
    match g.node id with
    | .scalar _ text _ => .ok text
    | .mapping _ ps =>
      match ps.find? fun p => (g.node p.1).kindName? == some "value" with
      | some p => text n p.2 g
      | none => .error .malformed
    | .sequence .. => .error .malformed

/-- The value of a node whose kind is one of scalars. -/
def Graph.scalarValue (g : Graph) (kind : String) (id : NodeId) : Except Fault Value := do
  if !scalarKinds.contains kind then throw .malformed
  let text ← g.text (g.nodes.size + 1) id
  match kind with
  | "null" => pure .null
  | "bool" => readTruth text
  | "int" => readInt text
  | "float" => readFloat text
  | "binary" => readBytes text
  | "timestamp" => match g.node id with
    | .scalar .. => readTimeValue text
    | _ => throw .timeOfMapping
  | _ => pure (.text text)

/-! ## 4. Reading level by level -/

/-- What was read of a node. Members are given by their numbers. -/
inductive Content where
  | scalar (v : Value)
  | list (items : List NodeId)
  | tuples (pairs : List (NodeId × NodeId × NodeId))
  | set (items : List Value)
  | mapping (pairs : List (Value × NodeId))
  /-- A collection whose level is not reached yet. -/
  | waiting (kind : String)
  deriving Inhabited

/-- The work on a document: its graph, in which mappings take others in as they are reached, what was
read so far, and the collections of the next level, the last one first. -/
structure Reading where
  graph : Graph
  /-- At least the number of pairs that still have to take others in. -/
  merges : Nat
  contents : Array (Option Content)
  next : List NodeId := []
  deriving Inhabited

/-- Reading of contents. -/
abbrev Reader := StateT Reading (Except Fault)

namespace Reader

/-- Notes the content of a node. -/
def note (id : NodeId) (c : Content) : Reader Unit :=
  modify fun r => { r with contents := r.contents.setIfInBounds id (some c) }

/-- Reads a node: a scalar whole, and a collection when its level is reached. -/
def visit (id : NodeId) : Reader Unit := do
  let r ← get
  if ((r.contents[id]?).bind fun c => c).isNone then
    match (r.graph.node id).kindName? with
    | none => throw .malformed
    | some k =>
      if collectionKinds.contains k then
        note id (.waiting k)
        modify fun r => { r with next := id :: r.next }
      else note id (.scalar (← r.graph.scalarValue k id))

/-- Reads a node that is a key. What can change is no key. -/
def visitKey (id : NodeId) : Reader Value := do
  visit id
  match ((← get).contents[id]?).bind fun c => c with
  | some (.scalar v) => pure v
  | _ => throw .malformed

/-- Reads the pairs of a mapping, once it has taken others in. Of two equal keys the first one stays,
with the value of the second one. -/
def mappingPairs (id : NodeId) : Reader (List (Value × NodeId)) := do
  let r ← get
  let g ← r.graph.takeIn (r.merges + 1) id []
  set { r with graph := g }
  match g.node id with
  | .mapping _ ps =>
    ps.foldlM (fun done (k, v) => do
      let key ← visitKey k
      visit v
      pure (putAt key v done)) []
  | _ => throw .malformed
where
  /-- Puts a node under a key; a key that is there stays where it is. -/
  putAt (key : Value) (v : NodeId) : List (Value × NodeId) → List (Value × NodeId)
    | [] => [(key, v)]
    | (k, w) :: r => if k.sameKey key then (k, v) :: r else (k, w) :: putAt key v r

/-- Reads the only pair of a mapping in a sequence of such mappings. -/
def singlePair (id : NodeId) : Reader (NodeId × NodeId × NodeId) := do
  match (← get).graph.node id with
  | .mapping _ [(k, v)] =>
    visit k
    visit v
    pure (id, k, v)
  | _ => throw .malformed

/-- Reads the members of a collection. -/
def visitMembers (id : NodeId) (kind : String) : Reader Content := do
  match kind, (← get).graph.node id with
  | "map", _ => pure (.mapping (← mappingPairs id))
  | "set", _ => pure (.set ((← mappingPairs id).map (·.1)))
  | "seq", .sequence _ items =>
    items.forM visit
    pure (.list items)
  | _, .sequence _ items =>
    if kind == "seq" then throw .malformed else .tuples <$> items.mapM singlePair
  | _, _ => throw .malformed

/-- Reads collections and what is below them; the number bounds the levels. -/
def visitLevels : Nat → List NodeId → Reader Unit
  | 0, _ => pure ()
  | _, [] => pure ()
  | n + 1, level => do
    level.forM fun id => do
      match ((← get).contents[id]?).bind fun c => c with
      | some (.waiting kind) => note id (← visitMembers id kind)
      | _ => pure ()
    let below := (← get).next.reverse
    modify fun r => { r with next := [] }
    visitLevels n below

/-- Reads a whole document. -/
def visitAll : Reader Unit := do
  let r ← get
  visit r.graph.root
  let level := (← get).next
  modify fun r => { r with next := [] }
  visitLevels (r.graph.nodes.size + 1) level

end Reader

/-! ## 5. Putting values together -/

/-- What was read of a document. -/
abbrev Contents := Array (Option Content)

namespace Contents

/-- The members of a node. -/
def members (cs : Contents) (id : NodeId) : List NodeId :=
  match (cs[id]?).bind fun c => c with
  | some (.list items) => items
  | some (.tuples ps) => ps.flatMap fun (_, k, v) => [k, v]
  | some (.mapping ps) => ps.map (·.2)
  | _ => []

/-- The nodes below some nodes, with those already found; the number bounds the steps. -/
def below (cs : Contents) : Nat → List NodeId → List NodeId → List NodeId
  | 0, found, _ => found
  | _, found, [] => found
  | n + 1, found, id :: r =>
    let new := (cs.members id).eraseDups.filter fun x => !found.contains x
    below cs n (found ++ new) (r ++ new)

/-- The nodes that are members of themselves, directly or through others. -/
def onCycles (cs : Contents) : List NodeId :=
  (List.range cs.size).filter fun id => (cs.below (cs.size + 1) [] [id]).contains id

/-- The values that are known already, by node. -/
abbrev Known := Array (Option Value)

/-- The value of a node inside the collections of a path, all of which are members of themselves. The
number bounds the depth. A value that does not depend on the path is kept. -/
def value (cs : Contents) (cycles : List NodeId) : Nat → List NodeId → NodeId → StateM Known Value
  | 0, _, _ => pure .null
  | n + 1, path, id => do
    match ((← get)[id]?).bind fun v => v with
    | some v => pure v
    | none =>
      if path.contains id then pure (.again id (kindOf id))
      else
        let looped := cycles.contains id
        let inner := if looped then id :: path else path
        let v ← match (cs[id]?).bind fun c => c with
          | some (.scalar v) => pure v
          | some (.set items) => pure (.set items)
          | some (.list items) => Value.list <$> items.mapM (value cs cycles n inner)
          | some (.mapping ps) =>
            Value.mapping <$> ps.mapM fun (k, v) => do pure (k, ← value cs cycles n inner v)
          | some (.tuples ps) => Value.list <$> ps.mapM fun (t, k, v) => do
            if path.contains t then pure (.again t .tuple)
            else
              let inner := if looped then t :: inner else inner
              let pair := Value.tuple [← value cs cycles n inner k, ← value cs cycles n inner v]
              pure (if looped then .labelled t pair else pair)
          | _ => pure .null
        if looped then pure (.labelled id v)
        else
          modify fun known => known.setIfInBounds id (some v)
          pure v
where
  /-- The kind of a collection. -/
  kindOf (id : NodeId) : CollectionKind :=
    match (cs[id]?).bind fun c => c with
    | some (.mapping _) => .mapping
    | _ => .list

end Contents

/-- The value of a document. -/
def read (text : String) : Except Fault Value := do
  match ← Graph.ofText? text with
  | none => pure .null
  | some g =>
    let start : Reading :=
      { graph := g, merges := g.mergeCount, contents := Array.replicate g.nodes.size none }
    let (_, r) ← Reader.visitAll.run start
    let cycles := if g.cyclic then Contents.onCycles r.contents else []
    let size := g.nodes.size
    pure (((Contents.value r.contents cycles (2 * size + 2) [] g.root).run
      (Array.replicate size none)).1)

end NativeGlue.Yaml
