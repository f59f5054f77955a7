import NativeGlue.Java.Outline
import NativeGlue.Proofs.Fallible
import NativeGlue.Proofs.Java.Words
import NativeGlue.Proofs.Parsing.Items
import NativeGlue.Proofs.Parsing.Productions

/-!
# Names in source files

A file is read as frames, one on top of the other. Each frame holds what its symbol says
(`Frame.Sound`): a name is a word, and the trees inside it that are names are words, unless it is the
declaration of a package. Reading on and closing a production keep that (`Stacked.close`), so it holds of
every way of reading. The names of the classes, the native methods and the fields in an outline are words,
and the texts of its types and its package hold no blanks (`spelled_of_ofBytes`).
-/

namespace NativeGlue.Java

open NativeGlue.Parsing NativeGlue.Text

variable {source : List (Char × Nat)}

/-! ## 1. The grammar -/

theorem numbering_eq :
    numbering = .ofGrammar [.finish, .name, .literal, .fragment, .blockFragment] Grammar.all := rfl

/-- The number of a phrase among all symbols. -/
def phraseNumber (p : Phrase) : Nat := numbering.terminals.length + numbering.head p

/-- A symbol that is read as one word. -/
def IsWordSymbol (symbol : Nat) : Prop := Single numbering Terminal.isWord .borrowedName symbol

/-- Trees that are names are made of one word, unless they name a package. -/
theorem made_name : ∀ x ∈ Grammar.all, x.1 = .packageDeclaration ∨
    ∀ b ∈ x.2, b.form.made .name Terminal.isWord .borrowedName = true := by
  decide +kernel

theorem made_name_repetitions : ∀ a ∈ Grammar.forms Grammar.all, ∀ b ∈ a.repetitions,
    b.made .name Terminal.isWord .borrowedName = true := by
  decide +kernel

/-- A word of the language that stands for a name is one word. -/
theorem single_borrowedName : .borrowedName ∈ Grammar.all.map (·.1) ∧
    ∀ x ∈ Grammar.all, x.1 = .borrowedName →
      ∀ b ∈ x.2, b.form.single Terminal.isWord Phrase.borrowedName = true := by
  decide +kernel

/-- The trees of the declaration of a package go into a tree of their own. -/
theorem confined_packageDeclaration : .packageDeclaration ∈ Grammar.all.map (·.1) ∧
    ∀ a ∈ Grammar.forms Grammar.all, a.confined .packageDeclaration .package = true := by
  decide +kernel

theorem head_borrowedName_ne_zero : numbering.head .borrowedName ≠ 0 := by
  change (Grammar.all.map (·.1)).idxOf Phrase.borrowedName ≠ 0
  decide +kernel

theorem terminals_ofProductions {κ : Type} (terminals heads : Nat) (ps : List (Production κ)) :
    (Tables.ofProductions terminals heads ps).terminals = terminals := rfl

theorem terminals_tables : tables.terminals = numbering.terminals.length := by
  delta tables
  exact terminals_ofProductions _ _ _

theorem indexed_tables : tables.Indexed := indexed_ofProductions _ _ _

theorem mem_productions_tables {i : Nat} {p : Production NodeKind} (h : tables.productions[i]? = some p) :
    p ∈ numbering.productions Grammar.all :=
  List.mem_toArray.1 (Array.mem_of_getElem? h)

/-! ## 2. Frames -/

/-- The trees that are names are words. -/
def NamesWorded (source : List (Char × Nat)) (ts : List (Tree NodeKind)) : Prop :=
  ∀ t ∈ ts, t.kind = .name → WordAt source t.start.index t.stop

/-- The names inside a tree are words, at any depth, but for that of a package. -/
inductive Legible (source : List (Char × Nat)) : Tree NodeKind → Prop
  | node {k : NodeKind} {start : Place} {stop : Nat} {comments : List Comment}
      {children : List (Tree NodeKind)} (inside : ∀ t ∈ children, Legible source t)
      (names : k ≠ .package → NamesWorded source children) :
      Legible source (.node k start stop comments children)

/-- A frame holds what its symbol says: a token has no trees inside, a word is one, and the trees that are
names are words unless they name a package. -/
structure Frame.Sound (source : List (Char × Nat)) (f : Frame) : Prop where
  token : f.symbol < numbering.terminals.length → f.piece.trees = []
  word : IsWordSymbol f.symbol → WordAt source f.piece.start.index f.piece.stop
  legible : ∀ t ∈ f.piece.trees, Legible source t
  names : f.symbol ≠ phraseNumber .packageDeclaration → NamesWorded source f.piece.trees

/-- Frames that are sound, each with a state that suits what is below it. -/
def Stacked (source : List (Char × Nat)) : List Frame → Prop
  | [] => True
  | f :: r => f.Sound source ∧ f.state.Read tables ((f :: r).map (·.symbol)) ∧ Stacked source r

theorem Stacked.read {fs : List Frame} (h : Stacked source fs) :
    (topState fs).Read tables (fs.map (·.symbol)) := by
  cases fs with
  | nil => exact read_initial tables _
  | cons f r => exact h.2.1

theorem Stacked.drop {fs : List Frame} (h : Stacked source fs) (n : Nat) : Stacked source (fs.drop n) := by
  induction fs generalizing n with
  | nil =>
    rw [List.drop_nil]
    trivial
  | cons f r ih =>
    cases n with
    | zero => exact h
    | succ n => exact ih h.2.2 n

theorem Stacked.sound {fs : List Frame} (h : Stacked source fs) {f : Frame} (hf : f ∈ fs) :
    f.Sound source := by
  induction fs with
  | nil => exact absurd hf List.not_mem_nil
  | cons g r ih =>
    rcases List.mem_cons.1 hf with rfl | hf
    · exact h.1
    · exact ih h.2.2 hf

theorem Stacked.push {fs : List Frame} (h : Stacked source fs) {symbol : Nat} {piece : Piece NodeKind}
    (hf : Frame.Sound source ⟨symbol, (topState fs).after tables symbol, piece⟩) :
    Stacked source (pushFrame fs symbol piece) :=
  ⟨hf, h.read.after indexed_tables symbol, h⟩

/-- The frame of a token. -/
theorem sound_of_token {t : Token} (ht : t.Worded source) (state : State) :
    Frame.Sound source ⟨numbering.terminal t.terminal, state, .ofToken t⟩ := by
  refine ⟨fun _ => rfl, fun hword => ht (.inl ?_), fun t ht => absurd ht List.not_mem_nil,
    fun _ t ht => absurd ht List.not_mem_nil⟩
  rcases hword with ⟨u, hu, hword, hsymbol⟩ | hsymbol
  · dsimp only at hsymbol
    rw [terminal_inj hu hsymbol.symm] at hword
    exact hword
  · -- Only the number of the first phrase could be that of a token.
    have hle := terminal_le numbering t.terminal
    have hhead := head_borrowedName_ne_zero
    dsimp only at hsymbol
    omega

/-! ## 3. Parts of a production -/

/-- A frame that was read as a part of a production. -/
def Reads (source : List (Char × Nat)) (f : Frame) (s : Step NodeKind) : Prop :=
  f.Sound source ∧ f.symbol = s.symbol

/-- The trees of the parts of a production. -/
def treesOf (parts : List Frame) (steps : List (Step NodeKind)) : List (Tree NodeKind) :=
  (parts.zip steps).flatMap fun (f, s) => f.piece.treesBy s.mark

theorem trees_ofParts (parts : List Frame) (steps : List (Step NodeKind)) :
    (Piece.ofParts (steps.map (·.mark)) (parts.map (·.piece))).trees = treesOf parts steps := by
  unfold treesOf
  dsimp only [Piece.ofParts]
  rw [List.zip_map, List.flatMap_map]
  rfl

/-- The trees of parts are legible, unless one is the declaration of a package and becomes something else. -/
theorem legible_treesOf {parts : List Frame} {steps : List (Step NodeKind)}
    (h : List.Forall₂ (Reads source) parts steps)
    (hpackage : ∀ s ∈ steps, s.symbol = phraseNumber .packageDeclaration → s.mark = .node .package) :
    ∀ t ∈ treesOf parts steps, Legible source t := by
  intro t ht
  obtain ⟨⟨f, s⟩, hfs, ht⟩ := List.mem_flatMap.1 ht
  obtain ⟨hf, hsymbol⟩ := (List.forall₂_iff_zip.1 h).2 hfs
  dsimp only at ht
  cases hmark : s.mark with
  | keep =>
    rw [hmark] at ht
    exact hf.legible t ht
  | drop =>
    rw [hmark] at ht
    exact absurd ht List.not_mem_nil
  | node k =>
    rw [hmark] at ht
    obtain rfl := List.mem_singleton.1 ht
    refine .node hf.legible fun hk => hf.names fun he => hk ?_
    have hnode := hpackage s (List.of_mem_zip hfs).2 (hsymbol.symm.trans he)
    rw [hmark] at hnode
    exact Mark.node.inj hnode

theorem namesWorded_treesOf {parts : List Frame} {steps : List (Step NodeKind)}
    (h : List.Forall₂ (Reads source) parts steps)
    (hpackage : ∀ s ∈ steps, s.symbol = phraseNumber .packageDeclaration → s.mark = .node .package)
    (hname : ∀ s ∈ steps, s.mark = .node .name → IsWordSymbol s.symbol) :
    NamesWorded source (treesOf parts steps) := by
  intro t ht hkind
  obtain ⟨⟨f, s⟩, hfs, ht⟩ := List.mem_flatMap.1 ht
  obtain ⟨hf, hsymbol⟩ := (List.forall₂_iff_zip.1 h).2 hfs
  have hs := (List.of_mem_zip hfs).2
  dsimp only at ht
  cases hmark : s.mark with
  | keep =>
    rw [hmark] at ht
    refine hf.names (fun he => ?_) t ht hkind
    have hnode := hpackage s hs (hsymbol.symm.trans he)
    rw [hmark] at hnode
    cases hnode
  | drop =>
    rw [hmark] at ht
    exact absurd ht List.not_mem_nil
  | node k =>
    rw [hmark] at ht
    obtain rfl := List.mem_singleton.1 ht
    obtain rfl : k = .name := hkind
    exact hf.word (hsymbol ▸ hname s hs hmark)

/-! ## 4. Reading on -/

/-- The frames behind which a production is closed are its parts. -/
theorem Stacked.parts {fs : List Frame} (h : Stacked source fs) {p : Production NodeKind}
    (hp : (p.steps.toList.map (·.symbol)).reverse <+: fs.map (·.symbol)) :
    List.Forall₂ (Reads source) (fs.take p.steps.size).reverse p.steps.toList := by
  have hsymbols : (fs.take p.steps.size).reverse.map (·.symbol) = p.steps.toList.map (·.symbol) := by
    have htake := List.prefix_iff_eq_take.1 hp
    rw [List.length_reverse, List.length_map, Array.length_toList, ← List.map_take] at htake
    rw [List.map_reverse, ← htake, List.reverse_reverse]
  rw [← List.forall₂_eq_eq_eq, List.forall₂_map_left_iff, List.forall₂_map_right_iff] at hsymbols
  rw [List.forall₂_iff_zip] at hsymbols ⊢
  refine ⟨hsymbols.1, fun hfs => ⟨h.sound ?_, hsymbols.2 hfs⟩⟩
  exact List.mem_of_mem_take (List.mem_reverse.1 (List.of_mem_zip hfs).1)

/-- **Closing a production keeps the frames sound.** -/
theorem Stacked.close {fs : List Frame} (h : Stacked source fs) {i : Nat} {p : Production NodeKind}
    (hi : tables.productions[i]? = some p)
    (hp : (p.steps.toList.map (·.symbol)).reverse <+: fs.map (·.symbol)) :
    Stacked source (closeProduction fs p) := by
  have hmem := mem_productions_tables hi
  have hparts := h.parts hp
  obtain ⟨hphrase, hconfined⟩ := confined_packageDeclaration
  have hpackage : ∀ s ∈ p.steps.toList, s.symbol = phraseNumber .packageDeclaration →
      s.mark = .node .package := by
    intro s hs hsymbol
    rw [phraseNumber] at hsymbol
    exact mark_of_mem_productions numbering_eq hphrase hconfined hmem hs hsymbol
  have hle : numbering.terminals.length ≤ tables.terminals + p.head := by
    rw [terminals_tables]
    exact Nat.le_add_right _ _
  refine (h.drop _).push ⟨fun hlt => ?_, fun hword => ?_, ?_, fun hne => ?_⟩
  · exact absurd hlt (Nat.not_lt.2 hle)
  · dsimp only at hword ⊢
    rw [terminals_tables] at hword
    rcases hword with ⟨u, hu, -, hsymbol⟩ | hsymbol
    · have := terminal_lt hu
      omega
    · obtain ⟨hborrowed, hsingle⟩ := single_borrowedName
      obtain ⟨s, hs, hone⟩ := exists_single_of_mem_productions numbering_eq hborrowed hsingle hmem
        (Nat.add_left_cancel hsymbol)
      rw [hs] at hparts ⊢
      obtain ⟨f, rest, ⟨hf, hfs⟩, hnil, heq⟩ := List.forall₂_cons_right_iff.1 hparts
      obtain rfl := List.forall₂_nil_right_iff.1 hnil
      rw [heq]
      exact hf.word (hfs ▸ hone)
  · dsimp only
    rw [trees_ofParts]
    exact legible_treesOf hparts hpackage
  · dsimp only at hne ⊢
    rw [terminals_tables] at hne
    rw [trees_ofParts]
    refine namesWorded_treesOf hparts hpackage fun s hs hmark => ?_
    refine single_of_mem_productions numbering_eq made_name made_name_repetitions hmem (fun he => hne ?_) hs hmark
    rw [he, phraseNumber]

/-- What a token leads to is sound. -/
def Outcome.Sound (source : List (Char × Nat)) : Outcome → Prop
  | .way fs => Stacked source fs
  | .done ts => ∀ t ∈ ts, Legible source t

/-- The choices at a token are those of the state; as what else it may be a token is a word, too. -/
theorem choices_of_choicesAt {s : State} {t t' : Token} {cs : List Choice}
    (h : choicesAt s t = (t', cs)) (ht : t.Worded source) :
    t'.Worded source ∧ cs = s.choices tables (numbering.terminal t'.terminal) := by
  unfold choicesAt at h
  split at h
  · rename_i other _ hother
    cases h
    refine ⟨?_, rfl⟩
    rintro (hword | ⟨_, hnone, -⟩)
    · exact ht (.inr ⟨other, hother, hword⟩)
    · cases hnone
  · cases h
    exact ⟨ht, rfl⟩

theorem outcomes_zero (t : Token) (fs : List Frame) : outcomes 0 t fs = [] := by
  delta outcomes
  exact rfl

/-- What a token leads to, without opening the tables of the grammar. -/
theorem outcomes_succ (n : Nat) (t : Token) (fs : List Frame) : outcomes (n + 1) t fs =
    (let (t, cs) := choicesAt (topState fs) t
    cs.flatMap fun
      | .shift => [.way (pushFrame fs (numbering.terminal t.terminal) (.ofToken t))]
      | .reduce i =>
        match tables.productions[i]? with
        | none => []
        | some p =>
          let closed := closeProduction fs p
          if p.head = 0 then [.done ((closed.head?.map (·.piece.trees)).getD [])]
          else outcomes n t closed) := by
  delta outcomes
  with_reducible_and_instances exact rfl

theorem sound_of_mem_outcomes {n : Nat} {t : Token} {fs : List Frame} {o : Outcome}
    (ht : t.Worded source) (h : Stacked source fs) (ho : o ∈ outcomes n t fs) : o.Sound source := by
  induction n generalizing t fs with
  | zero =>
    rw [outcomes_zero] at ho
    exact absurd ho List.not_mem_nil
  | succ n ih =>
    rw [outcomes_succ] at ho
    rcases hchoices : choicesAt (topState fs) t with ⟨t', cs⟩
    obtain ⟨ht', rfl⟩ := choices_of_choicesAt hchoices ht
    rw [hchoices] at ho
    obtain ⟨c, hc, ho⟩ := List.mem_flatMap.1 ho
    cases c with
    | shift =>
      rw [List.mem_singleton.1 ho]
      exact h.push (sound_of_token ht' _)
    | reduce i =>
      obtain ⟨p, hp, hparts⟩ := h.read.parts_of_reduce hc
      have hclosed := h.close hp hparts
      dsimp only at ho
      rw [hp] at ho
      dsimp only at ho
      split at ho
      · rw [List.mem_singleton.1 ho]
        exact hclosed.1.legible
      · exact ih ht' hclosed ho

/-- A way of reading that is sound. -/
structure Way.Sound (source : List (Char × Nat)) (w : Way) : Prop where
  frames : Stacked source w.frames
  cursor : w.cursor.In source

theorem mem_of_mem_mergeWays {ways more : List Way} {w : Way} (h : w ∈ mergeWays ways more) :
    w ∈ ways ∨ w ∈ more := by
  unfold mergeWays at h
  induction more generalizing ways with
  | nil => exact .inl h
  | cons m r ih =>
    rw [List.foldl_cons] at h
    rcases ih h with h | h
    · split at h
      · exact .inl h
      · refine (List.mem_append.1 h).imp id fun h => ?_
        rw [List.mem_singleton.1 h]
        exact List.mem_cons_self
    · exact .inr (List.mem_cons_of_mem _ h)

/-- **The names in a file that was read are words.** -/
theorem legible_of_readFrom {n : Nat} {ways : List Way} {ts : List (Tree NodeKind)}
    (hw : ∀ w ∈ ways, w.Sound source) (h : readFrom n ways = some ts) : ∀ t ∈ ts, Legible source t := by
  induction n generalizing ways with
  | zero => cases h
  | succ n ih =>
    cases ways with
    | nil => cases h
    | cons w r =>
      rw [readFrom, List.partition_eq_filter_filter] at h
      dsimp only at h
      generalize hreached : List.flatMap _ _ = reached at h
      have hsound : ∀ x ∈ reached, x.1.Sound source ∧ x.2.In source := by
        intro x hx
        rw [← hreached] at hx
        obtain ⟨v, hv, hx⟩ := List.mem_flatMap.1 hx
        have hv := hw v (List.mem_of_mem_filter hv)
        split at hx
        · exact absurd hx List.not_mem_nil
        · rename_i t c htoken
          obtain ⟨o, ho, rfl⟩ := List.mem_map.1 hx
          obtain ⟨ht, hc⟩ := word_of_nextToken hv.cursor htoken
          exact ⟨sound_of_mem_outcomes ht hv.frames ho, hc⟩
      split at h
      · rename_i found hfound
        cases h
        obtain ⟨x, hx, hdone⟩ := List.exists_of_findSome?_eq_some hfound
        split at hdone
        · cases hdone
          exact (hsound _ hx).1
        · cases hdone
      · refine ih (fun v hv => ?_) h
        rcases mem_of_mem_mergeWays hv with hv | hv
        · exact hw v (List.mem_of_mem_filter hv)
        · obtain ⟨x, hx, hway⟩ := List.mem_filterMap.1 hv
          split at hway
          · cases hway
            exact ⟨(hsound _ hx).1, (hsound _ hx).2⟩
          · cases hway

theorem legible_of_parse? {ts : List (Tree NodeKind)} (h : parse? source = some ts) :
    ∀ t ∈ ts, Legible source t := by
  refine legible_of_readFrom (fun w hw => ?_) h
  rw [List.mem_singleton.1 hw]
  exact ⟨trivial, in_ofSource source⟩

/-! ## 5. Spelling -/

/-- Every character of a text may stand inside a word. -/
def IsWord (s : String) : Prop := ∀ c ∈ s.toList, isWordPart c = true

instance (s : String) : Decidable (IsWord s) := inferInstanceAs (Decidable (∀ c ∈ s.toList, _))

theorem IsWord.slash_not_mem {s : String} (h : IsWord s) : '/' ∉ s.toList :=
  fun hs => absurd (h '/' hs) (by decide)

/-- A text without blanks. -/
def Unblank (s : String) : Prop := ∀ c ∈ s.toList, isBlank c = false

instance (s : String) : Decidable (Unblank s) := inferInstanceAs (Decidable (∀ c ∈ s.toList, _))

theorem Unblank.append {s t : String} (hs : Unblank s) (ht : Unblank t) : Unblank (s ++ t) := by
  intro c hc
  rw [String.toList_append] at hc
  exact (List.mem_append.1 hc).elim (hs c) (ht c)

theorem unblank_compact (s : String) : Unblank (compact s) := by
  intro c hc
  rw [compact, String.toList_ofList] at hc
  simpa using (List.mem_filter.1 hc).2

theorem Legible.children {t : Tree NodeKind} (h : Legible source t) : ∀ u ∈ t.children, Legible source u := by
  cases h with
  | node inside => exact inside

theorem Legible.isWord {t : Tree NodeKind} (h : Legible source t) (hk : t.kind ≠ .package) :
    IsWord (partText (source.map (·.1)).toArray t .name) := by
  cases h with
  | node _ names =>
    intro c hc
    rw [partText] at hc
    cases hname : Tree.child? (.node _ _ _ _ _) NodeKind.name with
    | none =>
      rw [hname] at hc
      exact absurd hc List.not_mem_nil
    | some u =>
      rw [hname, Option.map_some, Option.getD_some, textOf, String.toList_ofList, Array.toList_extract,
        List.toList_toArray] at hc
      rw [Tree.child?] at hname
      have hkind : u.kind = .name := by simpa using List.find?_some hname
      exact names hk u (List.mem_of_find?_eq_some hname) hkind c hc

/-- The names of a member are words, and its types hold no blanks. -/
def Member.Spelled : Member → Prop
  | .method m => IsWord m.name ∧ Unblank m.returnType ∧ ∀ p ∈ m.parameters, Unblank p.type
  | .field f => Unblank f.type ∧ ∀ v ∈ f.declared, IsWord v.name ∧ Unblank v.brackets
  | .constant _ _ => True
  | .type head _ => IsWord head.name

/-- The names of a type and of its members are words. -/
structure TypeDecl.Spelled (t : TypeDecl) : Prop where
  name : IsWord t.head.name
  members : ∀ m ∈ t.members, m.Spelled

/-- The names in the outline of a class are words, and its types hold no blanks. -/
structure ClassOutline.Spelled (c : ClassOutline) : Prop where
  name : IsWord c.name
  natives : ∀ d ∈ c.natives, IsWord d.name ∧ Unblank d.returnType ∧ ∀ p ∈ d.parameters, Unblank p.type
  fields : ∀ f ∈ c.fields, IsWord f.name ∧ Unblank f.type

instance (c : ClassOutline) : Decidable c.Spelled :=
  decidable_of_iff (IsWord c.name ∧
    (∀ d ∈ c.natives, IsWord d.name ∧ Unblank d.returnType ∧ ∀ p ∈ d.parameters, Unblank p.type) ∧
    ∀ f ∈ c.fields, IsWord f.name ∧ Unblank f.type)
    ⟨fun h => ⟨h.1, h.2.1, h.2.2⟩, fun h => ⟨h.1, h.2, h.3⟩⟩

/-- The names in the outline of a file are words, and its package and its types hold no blanks. -/
structure FileOutline.Spelled (o : FileOutline) : Prop where
  package : Unblank o.package
  classes : ∀ c ∈ o.classes, c.Spelled

instance (o : FileOutline) : Decidable o.Spelled :=
  decidable_of_iff (Unblank o.package ∧ ∀ c ∈ o.classes, c.Spelled) ⟨fun h => ⟨h.1, h.2⟩, fun h => ⟨h.1, h.2⟩⟩

/-! ## 6. Outlines -/

theorem spelled_methodOf {t : Tree NodeKind} (h : Legible source t) (hk : t.kind ≠ .package) :
    (Member.method (methodOf (source.map (·.1)).toArray t)).Spelled := by
  refine ⟨h.isWord hk, unblank_compact _, fun p hp => ?_⟩
  obtain ⟨u, -, rfl⟩ := List.mem_map.1 hp
  exact unblank_compact _

theorem spelled_fieldOf {t : Tree NodeKind} (h : Legible source t) :
    (Member.field (fieldOf (source.map (·.1)).toArray t)).Spelled := by
  refine ⟨unblank_compact _, fun v hv => ?_⟩
  obtain ⟨u, hu, rfl⟩ := List.mem_map.1 hv
  obtain ⟨hu, hkind⟩ := List.mem_filter.1 hu
  refine ⟨(h.children u hu).isWord fun hk => ?_, unblank_compact _⟩
  rw [hk] at hkind
  cases hkind

theorem kind_ne_of_formOf? {k : NodeKind} {form : TypeForm} (h : formOf? k = some form) : k ≠ .package := by
  rintro rfl
  cases h

/-- What a tree declares is spelled well, and so are the members inside it. -/
theorem spelled_of_memberOf? {t : Tree NodeKind} (h : Legible source t) {m : Member}
    (hm : memberOf? (source.map (·.1)).toArray t = some m) : m.Spelled ∧ ∀ head members,
      m = .type head members → members = membersOf (source.map (·.1)).toArray t.children := by
  cases t with
  | node k start stop comments children =>
    unfold memberOf? at hm
    split at hm
    · cases hm
      exact ⟨spelled_methodOf h nofun, nofun⟩
    · cases hm
      exact ⟨spelled_fieldOf h, nofun⟩
    · cases hm
      exact ⟨trivial, nofun⟩
    · obtain ⟨form, hform, rfl⟩ := Option.map_eq_some_iff.1 hm
      refine ⟨h.isWord (kind_ne_of_formOf? hform), fun head members he => ?_⟩
      cases he
      rfl

theorem exists_of_mem_membersOf {chars : Array Char} {ts : List (Tree NodeKind)} {m : Member}
    (h : m ∈ membersOf chars ts) : ∃ t ∈ ts, memberOf? chars t = some m := by
  induction ts with
  | nil =>
    rw [membersOf] at h
    exact absurd h List.not_mem_nil
  | cons t r ih =>
    rw [membersOf] at h
    have hrest : m ∈ membersOf chars r → ∃ u ∈ t :: r, memberOf? chars u = some m :=
      fun h => (ih h).imp fun u hu => ⟨List.mem_cons_of_mem _ hu.1, hu.2⟩
    split at h
    · rename_i hm
      rcases List.mem_cons.1 h with rfl | h
      · exact ⟨t, List.mem_cons_self, hm⟩
      · exact hrest h
    · exact hrest h

theorem spelled_of_mem_membersOf {ts : List (Tree NodeKind)} (h : ∀ t ∈ ts, Legible source t) :
    ∀ m ∈ membersOf (source.map (·.1)).toArray ts, m.Spelled := by
  intro m hm
  obtain ⟨t, ht, hmember⟩ := exists_of_mem_membersOf hm
  exact (spelled_of_memberOf? (h t ht) hmember).1

/-- **The names in a file that follows the grammar are words**, and its package holds no blanks. -/
theorem spelled_of_sourceFile {bytes : ByteArray} {f : SourceFile} (h : SourceFile.ofBytes? bytes = some f) :
    Unblank f.package ∧ ∀ t ∈ f.types, t.Spelled := by
  obtain ⟨ts, hts, h⟩ := Option.bind_eq_some_iff.1 h
  cases h
  refine ⟨unblank_compact _, fun t ht => ?_⟩
  have hlegible := legible_of_parse? hts
  obtain ⟨m, hm, htype⟩ := List.mem_filterMap.1 ht
  split at htype
  · cases htype
    obtain ⟨tree, htree, hmember⟩ := exists_of_mem_membersOf hm
    obtain ⟨hname, hmembers⟩ := spelled_of_memberOf? (hlegible tree htree) hmember
    refine ⟨hname, ?_⟩
    dsimp only
    rw [hmembers _ _ rfl]
    exact spelled_of_mem_membersOf (hlegible tree htree).children
  · cases htype

theorem parameters_of_nativeParameters {ps : List ParameterDecl} {qs : List NativeParameter}
    (h : nativeParameters ps = .ok qs) : ∀ q ∈ qs, ∃ p ∈ ps, q.type = p.type := by
  induction ps generalizing qs with
  | nil =>
    cases h
    exact List.forall_mem_nil _
  | cons p r ih =>
    rw [nativeParameters] at h
    split at h
    · cases h
    · obtain ⟨rest, hrest, rfl⟩ := ok_of_map h
      refine List.forall_mem_cons.2 ⟨⟨p, List.mem_cons_self, rfl⟩, fun q hq => ?_⟩
      obtain ⟨x, hx, htype⟩ := ih hrest q hq
      exact ⟨x, List.mem_cons_of_mem _ hx, htype⟩

/-- Another member keeps the outline of a class spelled well. -/
theorem spelled_of_addMember {c d : ClassOutline × List String} {m : Member} (hm : m.Spelled)
    (hc : c.1.Spelled) (h : addMember c m = .ok d) : d.1.Spelled := by
  unfold addMember at h
  split at h
  · rename_i m
    obtain ⟨hname, hreturn, hparameters⟩ := hm
    split at h
    · split at h
      · rename_i n hn
        cases h
        refine ⟨hc.name, fun x hx => ?_, hc.fields⟩
        rcases List.mem_append.1 hx with hx | hx
        · exact hc.natives x hx
        · rw [List.mem_singleton.1 hx]
          obtain ⟨ps, hps, hn⟩ := ok_of_bind hn
          cases hn
          refine ⟨hname, hreturn, fun q hq => ?_⟩
          obtain ⟨p, hp, htype⟩ := parameters_of_nativeParameters hps q hq
          exact htype ▸ hparameters p hp
      · cases h
    · cases h
      exact hc
  · obtain ⟨htype, hdeclared⟩ := hm
    cases h
    refine ⟨hc.name, hc.natives, fun x hx => ?_⟩
    rcases List.mem_append.1 hx with hx | hx
    · exact hc.fields x hx
    · unfold fieldsOf at hx
      split at hx
      · obtain ⟨v, hv, rfl⟩ := List.mem_map.1 hx
        exact ⟨(hdeclared v hv).1, htype.append (hdeclared v hv).2⟩
      · cases hx
  · cases h
    exact hc
  · cases h
    exact hc

theorem spelled_of_addType {o o' : FileOutline} {t : TypeDecl} (ht : t.Spelled) (ho : o.Spelled)
    (h : addType o t = .ok o') : o'.Spelled := by
  unfold addType at h
  split at h
  · obtain ⟨⟨c, skipped⟩, hc, h⟩ := ok_of_bind h
    cases h
    have hspelled : c.Spelled := keeps_of_foldlM (P := fun d : ClassOutline × List String => d.1.Spelled)
      (fun m hm d d' hd h => spelled_of_addMember (ht.members m hm) hd h)
      ⟨ht.name, List.forall_mem_nil _, List.forall_mem_nil _⟩ hc
    refine ⟨ho.package, fun d hd => ?_⟩
    rcases List.mem_append.1 hd with hd | hd
    · exact ho.classes d hd
    · rw [List.mem_singleton.1 hd]
      exact hspelled
  · cases h
    exact ho
  · cases h
    exact ⟨ho.package, ho.classes⟩

/-- **The names in the outline of a file are words**, and its package and its types hold no blanks. -/
theorem spelled_of_ofBytes {bytes : ByteArray} {o : FileOutline} (h : FileOutline.ofBytes bytes = .ok o) :
    o.Spelled := by
  unfold FileOutline.ofBytes at h
  split at h
  · rename_i f hf
    obtain ⟨hpackage, htypes⟩ := spelled_of_sourceFile hf
    exact keeps_of_foldlM (P := FileOutline.Spelled) (fun t ht _ _ ho h => spelled_of_addType (htypes t ht) ho h)
      ⟨hpackage, List.forall_mem_nil _⟩ h
  · cases h

end NativeGlue.Java
