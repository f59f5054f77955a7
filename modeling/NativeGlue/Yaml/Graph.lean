import NativeGlue.Yaml.Token

/-!
# Graphs of YAML documents

The nodes of a document: scalars, sequences and mappings, each with the full name of its tag or with
none where the kind of the node decides. A node names its members by their numbers, and an alias is the
number of the node that it stands for; so a node may be a member of several others, and even of itself.
-/

namespace NativeGlue.Yaml

/-! ## 1. Nodes -/

/-- The number of a node in its document. -/
abbrev NodeId := Nat

/-- A node. A scalar without a tag is plain text, whose form decides what it is, or quoted text. -/
inductive Node where
  | scalar (tag : Option String) (text : String) (plain : Bool)
  | sequence (tag : Option String) (items : List NodeId)
  | mapping (tag : Option String) (pairs : List (NodeId × NodeId))
  deriving Repr, Inhabited, DecidableEq

/-- The node where nothing is written. -/
def Node.empty : Node := .scalar none "" true

/-- A document: its nodes, the outermost one, and whether a node is a member of itself, directly or
through others. -/
structure Graph where
  nodes : Array Node
  root : NodeId
  cyclic : Bool
  deriving Repr, Inhabited

/-- A node by its number. -/
def Graph.node (g : Graph) (id : NodeId) : Node := g.nodes[id]?.getD .empty

/-- What is known while a document is read: the tokens that follow, the handles of tags, the nodes so
far, the numbers of nodes by anchor, and those of nodes that are not read to their end. -/
structure GraphState where
  tokens : List Token
  handles : List (String × String)
  nodes : Array Node := #[]
  anchors : List (String × NodeId) := []
  unfinished : List NodeId := []
  cyclic : Bool := false
  deriving Inhabited

/-- Reading of nodes. -/
abbrev GraphReader := StateT GraphState (Except Fault)

namespace GraphReader

/-! ## 2. Single tokens -/

/-- The next token. Where the text is broken there is none. -/
def peek : GraphReader Token := do
  match (← get).tokens.head?.getD .streamEnd with
  | .broken f => throw f
  | t => pure t

/-- Passes the next token over. -/
def advance : GraphReader Unit := modify fun s => { s with tokens := s.tokens.drop 1 }

/-- Passes the next token over if it is a given one. -/
def skip? (t : Token) : GraphReader Bool := do
  if (← peek) == t then
    advance
    pure true
  else pure false

/-- Passes a given token over; another one has no place here. -/
def expect (t : Token) : GraphReader Unit := do
  if !(← skip? t) then throw .malformed

/-- The anchor that comes next, if one does. -/
def anchor? : GraphReader (Option String) := do
  match ← peek with
  | .anchor n =>
    advance
    pure (some n)
  | _ => pure none

/-- The handle and the suffix of the tag that comes next, if one does. -/
def tag? : GraphReader (Option (Option String × String)) := do
  match ← peek with
  | .tag handle suffix =>
    advance
    pure (some (handle, suffix))
  | _ => pure none

/-- The full name of a tag. -/
def tagName (handle : Option String) (suffix : String) : GraphReader String := do
  match handle with
  | none => pure suffix
  | some h => match (← get).handles.lookup h with
    | some start => pure (start ++ suffix)
    | none => throw .malformed

/-- An anchor and the full name of a tag, each of which may be missing, in either order. -/
def properties : GraphReader (Option String × Option String) := do
  match ← anchor? with
  | some n =>
    match ← tag? with
    | some (h, s) => pure (some n, some (← tagName h s))
    | none => pure (some n, none)
  | none =>
    match ← tag? with
    | some (h, s) =>
      let anchor ← anchor?
      pure (anchor, some (← tagName h s))
    | none => pure (none, none)

/-! ## 3. Adding nodes -/

/-- Adds a node. -/
def add (node : Node) : GraphReader NodeId := do
  let s ← get
  set { s with nodes := s.nodes.push node }
  pure s.nodes.size

/-- Adds a node under an anchor, which must be new. -/
def addAs (anchor : Option String) (node : Node) : GraphReader NodeId := do
  match anchor with
  | none => add node
  | some n =>
    if ((← get).anchors.lookup n).isSome then throw .malformed
    else
      let id ← add node
      modify fun s => { s with anchors := (n, id) :: s.anchors }
      pure id

/-- Adds a node whose members are read while the node is there already. -/
def addAround {α : Type} (anchor : Option String) (members : GraphReader α) (node : α → Node) :
    GraphReader NodeId := do
  let id ← addAs anchor .empty
  modify fun s => { s with unfinished := id :: s.unfinished }
  let found ← members
  modify fun s => { s with nodes := s.nodes.setIfInBounds id (node found)
                           unfinished := s.unfinished.drop 1 }
  pure id

/-- The node that an alias stands for. -/
def referenced (name : String) : GraphReader NodeId := do
  match (← get).anchors.lookup name with
  | none => throw .malformed
  | some id =>
    modify fun s => { s with cyclic := s.cyclic || s.unfinished.contains id }
    pure id

/-! ## 4. Nodes -/

/-- Where a node may stand: in a flow collection, in a block, or in a block behind a key, where a
sequence needs no further indentation. -/
inductive Place where
  | flow
  | block
  | behindKey
  deriving DecidableEq, Repr

/-- Whether a token ends an entry of a block collection. -/
def endsBlockEntry (t : Token) : Bool := t == .key || t == .value || t == .blockEnd

/-- How deep collections may be nested. -/
def maxDepth : Nat := 490

mutual

/-- A node. The first number bounds the work, here and below; the second one tells how deep nodes may
still be nested. -/
def node : Nat → Nat → Place → GraphReader NodeId
  | 0, _, _ => throw .malformed
  | n + 1, depth, place => do
    match ← peek with
    | .reference name =>
      advance
      referenced name
    | _ =>
      let (anchor, tag) ← properties
      let name := tag.filter (· != "!")
      let t ← peek
      if place == .behindKey && t == .blockDash then
        if depth = 0 then throw .tooDeep
        addAround anchor (indentless n (depth - 1)) (.sequence name)
      else match t with
      | .scalar text plain =>
        advance
        -- The tag that stands for no tag makes the form of any text decide.
        addAs anchor (.scalar name text (plain || tag == some "!"))
      | .flowSequence =>
        advance
        if depth = 0 then throw .tooDeep
        addAround anchor (flowItems n (depth - 1) true) (.sequence name)
      | .flowMapping =>
        advance
        if depth = 0 then throw .tooDeep
        addAround anchor (flowPairs n (depth - 1) true) (.mapping name)
      | .blockSequence =>
        if place == .flow then throw .malformed
        advance
        if depth = 0 then throw .tooDeep
        addAround anchor (blockItems n (depth - 1)) (.sequence name)
      | .blockMapping =>
        if place == .flow then throw .malformed
        advance
        if depth = 0 then throw .tooDeep
        addAround anchor (blockPairs n (depth - 1)) (.mapping name)
      | _ =>
        if anchor.isSome || tag.isSome then addAs anchor (.scalar name "" true)
        else throw .malformed

/-- The entries of a block sequence. -/
def blockItems : Nat → Nat → GraphReader (List NodeId)
  | 0, _ => throw .malformed
  | n + 1, depth => do
    if ← skip? .blockDash then
      let t ← peek
      let x ← if t == .blockDash || t == .blockEnd then add .empty else node n depth .block
      pure (x :: (← blockItems n depth))
    else
      expect .blockEnd
      pure []

/-- The entries of a sequence that is indented as its key is. -/
def indentless : Nat → Nat → GraphReader (List NodeId)
  | 0, _ => throw .malformed
  | n + 1, depth => do
    if ← skip? .blockDash then
      let t ← peek
      let x ← if t == .blockDash || endsBlockEntry t then add .empty else node n depth .block
      pure (x :: (← indentless n depth))
    else pure []

/-- The entries of a block mapping. -/
def blockPairs : Nat → Nat → GraphReader (List (NodeId × NodeId))
  | 0, _ => throw .malformed
  | n + 1, depth => do
    if ← skip? .key then
      let key ← if endsBlockEntry (← peek) then add .empty else node n depth .behindKey
      let value ← if ← skip? .value then
          if endsBlockEntry (← peek) then add .empty else node n depth .behindKey
        else add .empty
      pure ((key, value) :: (← blockPairs n depth))
    else
      expect .blockEnd
      pure []

/-- The entries of a flow sequence; a key in it makes a mapping of one pair. -/
def flowItems : Nat → Nat → Bool → GraphReader (List NodeId)
  | 0, _, _ => throw .malformed
  | n + 1, depth, first => do
    if ← skip? .flowSequenceEnd then pure []
    else
      if !first then expect .flowComma
      let t ← peek
      if t == .flowSequenceEnd then
        advance
        pure []
      else
        let x ← if t == .key then
            if depth = 0 then throw .tooDeep
            addAround none (flowPair n (depth - 1) .flowSequenceEnd) fun p => .mapping none [p]
          else node n depth .flow
        pure (x :: (← flowItems n depth false))

/-- A pair in a flow collection, from the mark of its key on; `last` is the token that ends the
collection. -/
def flowPair : Nat → Nat → Token → GraphReader (NodeId × NodeId)
  | 0, _, _ => throw .malformed
  | n + 1, depth, last => do
    advance
    let t ← peek
    let key ← if t == .value || t == .flowComma || t == last then add .empty
      else node n depth .flow
    let value ← if ← skip? .value then do
        let t ← peek
        if t == .flowComma || t == last then add .empty else node n depth .flow
      else add .empty
    pure (key, value)

/-- The entries of a flow mapping; one without a colon has no value. -/
def flowPairs : Nat → Nat → Bool → GraphReader (List (NodeId × NodeId))
  | 0, _, _ => throw .malformed
  | n + 1, depth, first => do
    if ← skip? .flowMappingEnd then pure []
    else
      if !first then expect .flowComma
      let t ← peek
      if t == .flowMappingEnd then
        advance
        pure []
      else
        let p ← if t == .key then flowPair n depth .flowMappingEnd
          else do
            let key ← node n depth .flow
            pure (key, ← add .empty)
        pure (p :: (← flowPairs n depth false))

end

/-! ## 5. Documents -/

/-- The handles that every document knows. -/
def standardHandles : List (String × String) := [("!", "!"), ("!!", "tag:yaml.org,2002:")]

/-- The directives before a document: its handles; the version may be given once and is 1. -/
def directives : Nat → Bool → List (String × String) → GraphReader (List (String × String))
  | 0, _, _ => throw .malformed
  | n + 1, versioned, handles => do
    match ← peek with
    | .directive (.version major) =>
      if versioned || major != 1 then throw .malformed
      advance
      directives n true handles
    | .directive (.handle name start) =>
      if (handles.lookup name).isSome then throw .malformed
      advance
      directives n versioned ((name, start) :: handles)
    | .directive .other =>
      advance
      directives n versioned handles
    | _ => pure (handles ++ standardHandles)

/-- Passes the ends of documents over. -/
def documentEnds : Nat → GraphReader Unit
  | 0 => pure ()
  | n + 1 => do if ← skip? .documentEnd then documentEnds n

/-- The beginning of a document that is marked as one. -/
def documentStart (n : Nat) : GraphReader Unit := do
  let handles ← directives n false []
  modify fun s => { s with handles }
  expect .documentStart

/-- A document marked as one. -/
def explicitDocument (n : Nat) : GraphReader NodeId := do
  documentStart n
  match ← peek with
  | .directive _ => add .empty
  | .documentStart => add .empty
  | .documentEnd => add .empty
  | .streamEnd => add .empty
  | _ => node n maxDepth .block

/-- The only document of a text, if it holds one. -/
def document? (n : Nat) : GraphReader (Option NodeId) := do
  let found ← match ← peek with
    | .streamEnd => pure none
    | .directive _ => some <$> explicitDocument n
    | .documentStart => some <$> explicitDocument n
    | _ => some <$> node n maxDepth .block
  documentEnds n
  if (← peek) == .streamEnd then pure found
  else
    documentStart n
    throw .malformed

end GraphReader

/-- The graph of a text, or nothing if the text is empty. -/
def Graph.ofText? (text : String) : Except Fault (Option Graph) := do
  let tokens := tokensOf text.toList
  let start : GraphState := { tokens, handles := GraphReader.standardHandles }
  let (root, s) ← (GraphReader.document? (4 * tokens.length + 8)).run start
  pure (root.map fun id => ⟨s.nodes, id, s.cyclic⟩)

end NativeGlue.Yaml
