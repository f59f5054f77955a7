import NativeGlue.Proofs.Output.Unhindered
import NativeGlue.Proofs.Run.Recorded
import NativeGlue.Proofs.Statistics.Overlap

/-!
# Two runs at a time

Two runs write into one output directory. Each loads the table and later, under the lock, stores the
files that it made with it; the lock keeps the two stores apart, but a load takes no lock. If one run
stores before the other one loads, the table in the end has the numbers of both. If both load first, the
run that stores last writes the table of its own, and the numbers of the other one are lost unless it
gave them too (`nothingLost_iff`).

The runs are followed by the tables alone: each move of the runs is a move of the tables
(`follows_move`), and so is a whole schedule (`follows_play`).
-/

namespace NativeGlue.Run

open NativeGlue.Code NativeGlue.FileTree NativeGlue.Output NativeGlue.Text

/-! ## 1. Moves -/

/-- What a run works with besides the tree. -/
structure Job where
  target : Target
  mapper : Mapping.Mapper
  defines : List (String × String) := []
  model : Model

/-- The files that a run makes with a table. -/
def Job.files (j : Job) (table : Statistics) : Except Mapping.Fault (List OutputFile) := do
  targetFiles j.target j.mapper j.defines j.model (← mapUnits j.mapper j.model) table

/-- The header that a run makes with a table gives a key a number. -/
def Job.Gives (j : Job) (table : Statistics) (key : String) (i : Int) : Prop :=
  ∃ n ∈ j.model.natives, n.identity.key = key ∧
    numberLine (methodSymbol n) i ∈ splitAt '\n' (headerText j.target j.model table)

/-- What a run does to the tree, step by step. -/
inductive Phase where
  | load
  | store
  deriving DecidableEq, Repr

/-- A step of one of two runs. -/
structure Move where
  run : Bool
  phase : Phase
  deriving DecidableEq, Repr

/-- The tree that two runs share, and the tables that they have loaded. -/
structure Shared where
  tree : FileTree
  held : Bool → Option Statistics := fun _ => none

/-- The tables that runs hold once one of them has loaded another one. -/
def hold (held : Bool → Option Statistics) (r : Bool) (table : Statistics) : Bool → Option Statistics :=
  fun q => if q = r then some table else held q

theorem hold_self (held : Bool → Option Statistics) (r : Bool) (table : Statistics) :
    hold held r table r = some table :=
  if_pos rfl

/-- A move that goes well. What a run stores under the lock is stored in one step. -/
def move (jobs : Bool → Job) (s : Shared) (m : Move) : Option Shared :=
  match m.phase with
  | .load =>
    (Statistics.load s.tree (statsPath (jobs m.run).target)).toOption.map fun table =>
      { s with held := hold s.held m.run table }
  | .store => do
    let table ← s.held m.run
    let files ← ((jobs m.run).files table).toOption
    let o := writeFiles .write (jobs m.run).target.outputDir s.tree files
    if o.fault = none then some { s with tree := o.tree } else none

/-- Moves that all go well. -/
def play (jobs : Bool → Job) : Shared → List Move → Option Shared
  | s, [] => some s
  | s, m :: r => (move jobs s m).bind fun u => play jobs u r

/-- The moves of two runs in one order. -/
inductive Interleaved : List Move → List Move → List Move → Prop
  | nil : Interleaved [] [] []
  | left {l r ms : List Move} (m : Move) (h : Interleaved l r ms) : Interleaved (m :: l) r (m :: ms)
  | right {l r ms : List Move} (m : Move) (h : Interleaved l r ms) : Interleaved l (m :: r) (m :: ms)

/-- The moves of one run: it loads, then it stores. -/
def movesOf (r : Bool) : List Move := [⟨r, .load⟩, ⟨r, .store⟩]

/-- An order in which one run is over before the other one begins. -/
def Serial (moves : List Move) : Prop := ∃ first, moves = movesOf first ++ movesOf (!first)

/-- Nothing is lost of what two runs published: the table that is there in the end has every key of
either run under a number that the header of the run gave it, and no number was given to two keys. -/
structure NothingLost (jobs : Bool → Job) (path : Path) (s : Shared) : Prop where
  kept : ∃ d, Statistics.load s.tree path = .ok d ∧ ∀ r table, s.held r = some table →
    ∀ n ∈ (jobs r).model.natives, ∃ i, (jobs r).Gives table n.identity.key i ∧
      d.indexOf? n.identity.key = some i
  apart : ∀ r q a b, s.held r = some a → s.held q = some b → ∀ k l i, (jobs r).Gives a k i →
    (jobs q).Gives b l i → k = l

/-! ## 2. The tables -/

/-- The table that is loaded next, and the tables that the runs hold. -/
structure Tables where
  stored : Statistics
  held : Bool → Option Statistics := fun _ => none

/-- A move as the tables see it: what is loaded is what was stored, and what is stored is the numbering
of the table that was loaded. -/
def Tables.move (models : Bool → Model) (s : Tables) (m : Move) : Option Tables :=
  match m.phase with
  | .load => some { s with held := hold s.held m.run s.stored }
  | .store => (s.held m.run).map fun table =>
      { s with stored := (statsTable (models m.run) table).reloaded }

def Tables.play (models : Bool → Model) : Tables → List Move → Option Tables
  | s, [] => some s
  | s, m :: r => (s.move models m).bind fun u => Tables.play models u r

/-- The tables of a shared tree. All that are held can be stored. -/
structure Follows (path : Path) (s : Shared) (t : Tables) : Prop where
  stored : Statistics.load s.tree path = .ok t.stored
  held : s.held = t.held
  storable : ∀ r table, t.held r = some table → table.Storable

section

variable {jobs : Bool → Job} {path : Path} {s u : Shared} {t v : Tables}

/-- What a run stores: generated files, the table that it numbered at the end. -/
theorem Job.files_concat {j : Job} {table : Statistics} {files : List OutputFile}
    (hs : table.Storable) (h : j.files table = .ok files) :
    (∀ g ∈ files, IsGenerated g) ∧ (statsTable j.model table).Storable ∧ ∃ rest stored,
      files = rest ++ [stored] ∧ placeOf j.target.outputDir stored = statsPath j.target ∧
      stored.content = (statsTable j.model table).toJson := by
  obtain ⟨units, hunits, hfiles⟩ := ok_of_bind h
  have hgenerated := isGenerated_of_filesOf ⟨j.mapper, j.defines, units, table, hunits, hfiles⟩
  obtain ⟨hstorable, parts, header, source, stored, hlast, -, -, hplace, hcontent⟩ :=
    statsFiles_of_targetFiles hs hfiles
  refine ⟨hgenerated, hstorable, parts ++ [header, source], stored, ?_, hplace, hcontent⟩
  rw [hlast, List.append_assoc]
  rfl

/-- The file of the table holds the table that a run numbered once it has stored. -/
theorem readBytes_of_store {j : Job} {table : Statistics} {files : List OutputFile} {tree : FileTree}
    (hs : table.Storable) (h : j.files table = .ok files)
    (hw : (writeFiles .write j.target.outputDir tree files).fault = none) :
    (writeFiles .write j.target.outputDir tree files).tree.readBytes (statsPath j.target) =
      .ok (statsTable j.model table).toJson.toUTF8 := by
  obtain ⟨hgenerated, -, rest, stored, rfl, hplace, hcontent⟩ := j.files_concat hs h
  rw [← hplace, ← hcontent]
  exact holds_writeFiles_concat hgenerated hw

/-- The table that a run numbered is loaded once it has stored. -/
theorem load_of_store {j : Job} {table : Statistics} {files : List OutputFile} {tree : FileTree}
    (hs : table.Storable) (h : j.files table = .ok files)
    (hw : (writeFiles .write j.target.outputDir tree files).fault = none) :
    Statistics.load (writeFiles .write j.target.outputDir tree files).tree (statsPath j.target) =
      .ok (statsTable j.model table).reloaded :=
  Statistics.load_toJson (j.files_concat hs h).2.1 (readBytes_of_store hs h hw)

theorem play_cons {m : Move} {moves : List Move} {w : Shared} (h : move jobs s m = some u)
    (hr : play jobs u moves = some w) : play jobs s (m :: moves) = some w := by
  rw [play, h]
  exact hr

theorem move_load {r : Bool} {table : Statistics}
    (h : Statistics.load s.tree (statsPath (jobs r).target) = .ok table) :
    move jobs s ⟨r, .load⟩ = some { s with held := hold s.held r table } := by
  unfold move
  dsimp only
  rw [h]
  rfl

theorem move_store {r : Bool} {table : Statistics} {files : List OutputFile}
    (hr : s.held r = some table) (hfiles : (jobs r).files table = .ok files)
    (hw : (writeFiles .write (jobs r).target.outputDir s.tree files).fault = none) :
    move jobs s ⟨r, .store⟩ =
      some { s with tree := (writeFiles .write (jobs r).target.outputDir s.tree files).tree } := by
  have hoption : ((jobs r).files table).toOption = some files := by
    rw [hfiles]
    rfl
  unfold move
  dsimp only
  rw [hr, Option.bind_eq_bind, Option.bind_some, hoption, Option.bind_eq_bind, Option.bind_some,
    if_pos hw]

/-- A run that is left alone. -/
theorem play_movesOf {j : Job} {tree : FileTree} (r : Bool) {table : Statistics}
    {files : List OutputFile} (h : Statistics.load tree (statsPath j.target) = .ok table)
    (hfiles : j.files table = .ok files)
    (hw : (writeFiles .write j.target.outputDir tree files).fault = none) :
    play (fun _ => j) { tree } (movesOf r) =
      some { tree := (writeFiles .write j.target.outputDir tree files).tree,
             held := hold (fun _ => none) r table } := by
  have hload : move (fun _ => j) { tree } ⟨r, .load⟩ =
      some { tree, held := hold (fun _ => none) r table } := move_load h
  let loaded : Shared := { tree, held := hold (fun _ => none) r table }
  have hheld : loaded.held r = some table := hold_self (fun _ => none) r table
  have hstore : move (fun _ => j) loaded ⟨r, .store⟩ =
      some { loaded with tree := (writeFiles .write j.target.outputDir tree files).tree } :=
    move_store hheld hfiles hw
  exact play_cons hload (play_cons hstore rfl)

/-- A run that holds a table stores its files if nothing stands in the way. -/
theorem move_of_open {r : Bool} {table : Statistics} {files : List OutputFile}
    (hr : s.held r = some table) (hs : table.Storable) (hfiles : (jobs r).files table = .ok files)
    (hu : Unlocked s.tree (jobs r).target.outputDir)
    (hopen : ∀ g ∈ files, Open s.tree (jobs r).target.outputDir g) :
    ∃ w, move jobs s ⟨r, .store⟩ = some { s with tree := w } ∧
      Statistics.load w (statsPath (jobs r).target) =
        .ok (statsTable (jobs r).model table).reloaded ∧
      Unlocked w (jobs r).target.outputDir ∧ Filed s.tree w := by
  obtain ⟨hgenerated, -⟩ := (jobs r).files_concat hs hfiles
  obtain ⟨hfault, hunlocked, hfiled⟩ := writeFiles_of_open hgenerated hu hopen
  exact ⟨_, move_store hr hfiles hfault, load_of_store hs hfiles hfault, hunlocked, hfiled⟩

/-- **Each move of the runs is a move of their tables.** -/
theorem follows_move (hpath : ∀ r, statsPath (jobs r).target = path) {m : Move}
    (hf : Follows path s t) (h : move jobs s m = some u) :
    ∃ v, t.move (fun r => (jobs r).model) m = some v ∧ Follows path u v := by
  obtain ⟨r, phase⟩ := m
  cases phase with
  | load =>
    obtain ⟨table, htable, rfl⟩ := Option.map_eq_some_iff.1 h
    rw [hpath, hf.stored] at htable
    obtain rfl := Option.some.inj htable
    refine ⟨_, rfl, hf.stored, by rw [hf.held], fun q table hq => ?_⟩
    dsimp only [hold] at hq
    split at hq
    · obtain rfl := Option.some.inj hq
      exact Statistics.storable_of_load hf.stored
    · exact hf.storable q table hq
  | store =>
    obtain ⟨table, htable, h⟩ := Option.bind_eq_some_iff.1 h
    obtain ⟨files, hfiles, h⟩ := Option.bind_eq_some_iff.1 h
    dsimp only at h
    split at h
    · rename_i hfault
      cases h
      rw [hf.held] at htable
      have hstored := load_of_store (hf.storable r table htable) (ok_of_toOption hfiles) hfault
      rw [hpath] at hstored
      refine ⟨{ t with stored := (statsTable (jobs r).model table).reloaded }, ?_, hstored, hf.held,
        hf.storable⟩
      rw [Tables.move, htable]
      rfl
    · cases h

/-- **A schedule of the runs is a schedule of their tables.** -/
theorem follows_play (hpath : ∀ r, statsPath (jobs r).target = path) {moves : List Move}
    (hf : Follows path s t) (h : play jobs s moves = some u) :
    ∃ v, t.play (fun r => (jobs r).model) moves = some v ∧ Follows path u v := by
  induction moves generalizing s t with
  | nil =>
    cases h
    exact ⟨t, rfl, hf⟩
  | cons m r ih =>
    obtain ⟨s', hm, h⟩ := Option.bind_eq_some_iff.1 h
    obtain ⟨t', hm', hf'⟩ := follows_move hpath hf hm
    obtain ⟨v, hv, hfollows⟩ := ih hf' h
    refine ⟨v, ?_, hfollows⟩
    rw [Tables.play, hm']
    exact hv

end

/-! ## 3. Schedules -/

theorem Interleaved.symm {l r ms : List Move} (h : Interleaved l r ms) : Interleaved r l ms := by
  induction h with
  | nil => exact .nil
  | left m _ ih => exact .right m ih
  | right m _ ih => exact .left m ih

/-- What remains to be done once one run has loaded. -/
theorem cases_of_loaded {r : Bool} {moves : List Move}
    (h : Interleaved [⟨r, .store⟩] (movesOf (!r)) moves) :
    moves = ⟨r, .store⟩ :: movesOf (!r) ∨ moves = [⟨!r, .load⟩, ⟨r, .store⟩, ⟨!r, .store⟩] ∨
      moves = [⟨!r, .load⟩, ⟨!r, .store⟩, ⟨r, .store⟩] := by
  have alone : ∀ {ms rest : List Move}, Interleaved [] ms rest → rest = ms := by
    intro ms
    induction ms with
    | nil =>
      intro rest h
      cases h
      rfl
    | cons m ms ih =>
      intro rest h
      cases h with
      | right _ h => rw [ih h]
  unfold movesOf at h
  cases h with
  | left _ h => exact .inl (by rw [alone h, movesOf])
  | right _ h =>
    cases h with
    | left _ h => exact .inr (.inl (by rw [alone h]))
    | right _ h => exact .inr (.inr (by rw [alone h.symm]))

/-- Either one run is over before the other one begins, or both load before one of them stores. -/
theorem cases_of_interleaved {moves : List Move}
    (h : Interleaved (movesOf false) (movesOf true) moves) :
    ∃ last, moves.getLast? = some ⟨last, .store⟩ ∧
      (moves = movesOf (!last) ++ movesOf last ∨
        ∃ first, moves = [⟨first, .load⟩, ⟨!first, .load⟩, ⟨!last, .store⟩, ⟨last, .store⟩]) := by
  have first : ∃ r ms, moves = ⟨r, .load⟩ :: ms ∧ Interleaved [⟨r, .store⟩] (movesOf (!r)) ms := by
    cases h with
    | left _ h => exact ⟨false, _, rfl, h⟩
    | right _ h => exact ⟨true, _, rfl, h.symm⟩
  obtain ⟨r, ms, rfl, hloaded⟩ := first
  rcases cases_of_loaded hloaded with rfl | rfl | rfl
  · exact ⟨!r, rfl, .inl (by rw [Bool.not_not]; rfl)⟩
  · exact ⟨!r, rfl, .inr ⟨r, by rw [Bool.not_not]⟩⟩
  · exact ⟨r, rfl, .inr ⟨r, rfl⟩⟩

section

variable {models : Bool → Model} {t v : Tables}

/-- One run after the other: the second loads what the first has stored. -/
theorem play_serial (last : Bool) (h : t.play models (movesOf (!last) ++ movesOf last) = some v) :
    v.held (!last) = some t.stored ∧
      v.held last = some (statsTable (models (!last)) t.stored).reloaded ∧
      v.stored = (statsTable (models last)
        (statsTable (models (!last)) t.stored).reloaded).reloaded := by
  cases last with
  | false =>
    cases h
    exact ⟨rfl, rfl, rfl⟩
  | true =>
    cases h
    exact ⟨rfl, rfl, rfl⟩

/-- Both load before one of them stores: they hold the same table, and the last one stores its own. -/
theorem play_overlapping (first last : Bool) (h : t.play models
    [⟨first, .load⟩, ⟨!first, .load⟩, ⟨!last, .store⟩, ⟨last, .store⟩] = some v) :
    (∀ r, v.held r = some t.stored) ∧ v.stored = (statsTable (models last) t.stored).reloaded := by
  have hboth : ∀ r, hold (hold t.held first t.stored) (!first) t.stored r = some t.stored := by
    intro r
    cases first <;> cases r <;> rfl
  simp only [Tables.play, Tables.move, Option.bind_some] at h
  rw [hboth (!last), Option.map_some, Option.bind_some] at h
  dsimp only at h
  rw [hboth last] at h
  cases h
  exact ⟨hboth, rfl⟩

end

/-! ## 4. What is kept -/

/-- The header gives a key the number that the key has in the table, if symbols are told apart. -/
theorem gives_iff {j : Job} (hm : Distinguished j.model) {table : Statistics} {n : NativeMethod}
    (hn : n ∈ j.model.natives) {i : Int} :
    j.Gives table n.identity.key i ↔
      (statsTable j.model table).indexOf? n.identity.key = some i := by
  obtain ⟨hlines, -⟩ := lines_headerText j.target j.model table
  constructor
  · rintro ⟨x, hx, hkey, hline⟩
    rw [← hkey]
    exact indexOf?_of_mem_statsEntries hm hx ((hlines _ _).1 hline)
  · intro hi
    obtain ⟨x, hx, hkey, hentry⟩ := exists_mem_statsEntries hn hi
    exact ⟨x, hx, hkey, (hlines _ _).2 hentry⟩

section

variable {jobs : Bool → Job} {path : Path} {s : Shared} {t : Tables}

/-- Nothing is lost exactly if the table in the end keeps what each run numbered. -/
theorem nothingLost_iff_keeps (hm : ∀ r, Distinguished (jobs r).model) (hf : Follows path s t) :
    NothingLost jobs path s ↔
      ∀ r table, t.held r = some table → Keeps t.stored (jobs r).model table := by
  constructor
  · rintro ⟨⟨d, hd, hkept⟩, -⟩ r table hr k hk i hi
    obtain rfl := Except.ok.inj (hf.stored.symm.trans hd)
    obtain ⟨n, hn, rfl⟩ := mem_keys_storedSymbols.1 hk
    rw [← hf.held] at hr
    obtain ⟨j, hgives, hj⟩ := hkept r table hr n hn
    rw [gives_iff (hm r) hn, hi] at hgives
    rw [hj, Option.some.inj hgives]
  · intro hkeeps
    have kept : ∀ r table, s.held r = some table → ∀ n ∈ (jobs r).model.natives, ∀ i,
        (jobs r).Gives table n.identity.key i → t.stored.indexOf? n.identity.key = some i := by
      intro r table hr n hn i hi
      rw [hf.held] at hr
      exact hkeeps r table hr _ (mem_keys_storedSymbols.2 ⟨n, hn, rfl⟩) i ((gives_iff (hm r) hn).1 hi)
    refine ⟨⟨t.stored, hf.stored, fun r table hr n hn => ?_⟩, fun r q a b ha hb k l i hk hl => ?_⟩
    · obtain ⟨-, -, hall⟩ := Statistics.indexOf?_assign table
        ((storedSymbols (jobs r).model).map (·.1)) (storedSymbols (jobs r).model)
      obtain ⟨i, hi⟩ := hall n.identity.key (mem_keys_storedSymbols.2 ⟨n, hn, rfl⟩)
      have hgives := (gives_iff (hm r) hn).2 hi
      exact ⟨i, hgives, kept r table hr n hn i hgives⟩
    · obtain ⟨n, hn, rfl, -⟩ := id hk
      obtain ⟨x, hx, rfl, -⟩ := id hl
      have hsame := (Statistics.storable_of_load hf.stored).distinct _ _ i (kept r a ha n hn i hk)
        (kept q b hb x hx i hl)
      rw [← CodePoints.toText_ofString n.identity.key, hsame, CodePoints.toText_ofString]

theorem keeps_reloaded {u table : Statistics} {m : Model} (h : u.reloaded.Storable) :
    Keeps u.reloaded m table ↔ Keeps u m table := by
  have hsame : ∀ k, u.reloaded.indexOf? k = u.indexOf? k :=
    lookup_perm u.sortedEntries_perm h.keysDiffer
  unfold Keeps
  simp only [hsame]

/-- One run after the other loses nothing: the second keeps all numbers that the first has stored. -/
theorem keeps_of_serial {models : Bool → Model} {last : Bool} {v : Tables}
    (h : t.play models (movesOf (!last) ++ movesOf last) = some v) (hs : v.stored.Storable)
    (hheld : ∀ r table, v.held r = some table → table.Storable) :
    ∀ r table, v.held r = some table → Keeps v.stored (models r) table := by
  obtain ⟨hfirst, hlast, hstored⟩ := play_serial last h
  rw [hstored] at hs ⊢
  intro r table hr
  rw [keeps_reloaded hs]
  by_cases hrun : r = last
  · rw [hrun, hlast] at hr
    obtain rfl := Option.some.inj hr
    rw [hrun]
    exact fun k _ i hi => hi
  · obtain rfl := Bool.eq_not.2 hrun
    obtain rfl := Option.some.inj (hfirst.symm.trans hr)
    have hbetween : Keeps (statsTable (models (!last)) t.stored).reloaded (models (!last)) t.stored :=
      (keeps_reloaded (hheld last _ hlast)).2 fun k _ i hi => hi
    obtain ⟨hkept, -⟩ := Statistics.indexOf?_assign (statsTable (models (!last)) t.stored).reloaded
      ((storedSymbols (models last)).map (·.1)) (storedSymbols (models last))
    exact fun k hk i hi => hkept k i (hbetween k hk i hi)

/-- Where both runs have loaded before one of them stores, the numbers of the other one are kept only by
chance. -/
theorem keeps_of_overlapping {models : Bool → Model} {first last : Bool} {v : Tables}
    (h : t.play models
      [⟨first, .load⟩, ⟨!first, .load⟩, ⟨!last, .store⟩, ⟨last, .store⟩] = some v)
    (hs : v.stored.Storable) :
    (∀ r table, v.held r = some table → Keeps v.stored (models r) table) ↔
      newKeys (models !last) t.stored <+: newKeys (models last) t.stored := by
  obtain ⟨hheld, hstored⟩ := play_overlapping first last h
  rw [hstored] at hs ⊢
  rw [← keeps_statsTable_iff]
  constructor
  · intro hkeeps
    exact (keeps_reloaded hs).1 (hkeeps (!last) _ (hheld (!last)))
  · intro hkeeps r table hr
    obtain rfl := Option.some.inj ((hheld r).symm.trans hr)
    rw [keeps_reloaded hs]
    by_cases hrun : r = last
    · rw [hrun]
      exact fun k _ i hi => hi
    · rw [Bool.eq_not.2 hrun]
      exact hkeeps

/-- **What two runs publish is kept exactly if one run is over before the other one loads**, or if the
one that stores last happens to number the new keys of the other one as that one does: they are the new
keys with which it begins. -/
theorem nothingLost_iff {tree : FileTree} {moves : List Move}
    (hpath : ∀ r, statsPath (jobs r).target = path) (hm : ∀ r, Distinguished (jobs r).model)
    (hmoves : Interleaved (movesOf false) (movesOf true) moves)
    (hplay : play jobs { tree } moves = some s) :
    ∃ last table, moves.getLast? = some ⟨last, .store⟩ ∧ Statistics.load tree path = .ok table ∧
      (NothingLost jobs path s ↔ Serial moves ∨
        newKeys (jobs !last).model table <+: newKeys (jobs last).model table) := by
  obtain ⟨last, hlast, hcases⟩ := cases_of_interleaved hmoves
  have hloaded : ∃ table, Statistics.load tree path = .ok table := by
    obtain ⟨r, ms, rfl⟩ : ∃ r ms, moves = ⟨r, .load⟩ :: ms := by
      rcases hcases with rfl | ⟨first, rfl⟩
      · exact ⟨_, _, rfl⟩
      · exact ⟨_, _, rfl⟩
    obtain ⟨u, hu, -⟩ := Option.bind_eq_some_iff.1 hplay
    obtain ⟨table, htable, -⟩ := Option.map_eq_some_iff.1 hu
    exact ⟨table, hpath r ▸ ok_of_toOption htable⟩
  obtain ⟨table, htable⟩ := hloaded
  have hstart : Follows path { tree } ⟨table, fun _ => none⟩ := ⟨htable, rfl, nofun⟩
  obtain ⟨v, hv, hf⟩ := follows_play hpath hstart hplay
  have hstored := Statistics.storable_of_load hf.stored
  refine ⟨last, table, hlast, htable, ?_⟩
  rw [nothingLost_iff_keeps hm hf]
  rcases hcases with rfl | ⟨first, rfl⟩
  · have hserial : Serial (movesOf (!last) ++ movesOf last) := ⟨!last, by rw [Bool.not_not]⟩
    exact ⟨fun _ => .inl hserial, fun _ => keeps_of_serial hv hstored hf.storable⟩
  · have hserial : ¬Serial [⟨first, .load⟩, ⟨!first, .load⟩, ⟨!last, .store⟩, ⟨last, .store⟩] := by
      rintro ⟨r, h⟩
      have hsecond : Phase.load = Phase.store :=
        congrArg Move.phase (List.cons.inj (List.cons.inj h).2).1
      cases hsecond
    rw [or_iff_right hserial]
    exact keeps_of_overlapping hv hstored

/-- **The work on a target is such a run**: where it writes all files, it loads and stores. -/
theorem play_of_workOn {session after : Session} {settings : Settings}
    {defines : List (String × String)} {target : Target} {o : Outcome} (hmode : settings.mode = .write)
    (h : session.workOn settings defines target = (after, .ok o)) (hok : o.ok = true) (r : Bool) :
    ∃ j u, j.target = target ∧ o.model = some j.model ∧ u.tree = after.tree ∧
      play (fun _ => j) { tree := session.tree } (movesOf r) = some u := by
  obtain ⟨p, w, hplan, hw, hfault, rfl, rfl⟩ := planned_of_workOn h hok
  obtain ⟨_, mapper, table, units, -, -, htable, -, hunits, hfiles, -⟩ := plan_eq_ok_iff.1 hplan
  rw [hmode] at hw
  subst hw
  have hmade : (Job.mk target mapper defines p.model).files table = .ok p.files := by
    unfold Job.files
    rw [hunits]
    exact hfiles
  refine ⟨⟨target, mapper, defines, p.model⟩, _, rfl, rfl, rfl, play_movesOf r htable hmade hfault⟩

end

/-! ## 5. Runs that lose numbers and runs that do not -/

/-- Two runs over different sources into one directory. -/
def rivals (r : Bool) : Job := ⟨plainTarget, plainMapper, [], modelWith (if r then "g" else "f")⟩

/-- Nothing stands in the way of either run, with no table and with the one of the first run. -/
theorem files_rivals (r : Bool) {table : Statistics}
    (ht : table ∈ [{}, (statsTable (modelWith "f") {}).reloaded]) :
    ∃ files, (rivals r).files table = .ok files ∧
      ∀ g ∈ files, Open roomyTree plainTarget.outputDir g := by
  have hall : ∀ r : Bool, ∀ table ∈ [{}, (statsTable (modelWith "f") {}).reloaded],
      ∃ files ∈ ((rivals r).files table).toOption,
        ∀ g ∈ files, Open roomyTree plainTarget.outputDir g := by
    decide +kernel
  obtain ⟨files, hfiles, hopen⟩ := hall r table ht
  exact ⟨files, ok_of_toOption hfiles, hopen⟩

theorem unlocked_roomyTree : Unlocked roomyTree plainTarget.outputDir :=
  ⟨by decide +kernel, by rfl, by decide +kernel⟩

theorem distinguished_rivals (r : Bool) : Distinguished (rivals r).model :=
  distinguished_modelWith (if r then "g" else "f")

/-- With no table, each run gives its method the first number. -/
theorem gives_rivals (r : Bool) :
    (rivals r).Gives {} (if r then "A.g()" else "A.f()") 0 := by
  have hkey : ∃ n ∈ (rivals r).model.natives, n.identity.key = if r then "A.g()" else "A.f()" := by
    revert r
    decide +kernel
  obtain ⟨n, hn, hkey⟩ := hkey
  rw [← hkey, gives_iff (distinguished_rivals r) hn, hkey]
  cases r with
  | false => rfl
  | true => rfl

/-- The first run stores in the empty output directory. -/
theorem store_rivals (held : Bool → Option Statistics) (hr : held false = some {}) :
    ∃ w, move rivals ⟨roomyTree, held⟩ ⟨false, .store⟩ = some ⟨w, held⟩ ∧
      Statistics.load w (statsPath plainTarget) =
        .ok (statsTable (modelWith "f") {}).reloaded ∧
      Unlocked w plainTarget.outputDir ∧ Filed roomyTree w := by
  obtain ⟨files, hfiles, hopen⟩ := files_rivals false List.mem_cons_self
  exact move_of_open hr Statistics.storable_empty hfiles unlocked_roomyTree hopen

/-- The second run stores after the first one. -/
theorem store_rivals_again {w : FileTree} (held : Bool → Option Statistics) {table : Statistics}
    (ht : table ∈ [{}, (statsTable (modelWith "f") {}).reloaded]) (hs : table.Storable)
    (hr : held true = some table) (hu : Unlocked w plainTarget.outputDir) (hf : Filed roomyTree w) :
    ∃ v, move rivals ⟨w, held⟩ ⟨true, .store⟩ = some ⟨v, held⟩ ∧
      Statistics.load v (statsPath plainTarget) =
        .ok (statsTable (modelWith "g") table).reloaded := by
  obtain ⟨files, hfiles, hopen⟩ := files_rivals true ht
  obtain ⟨v, hmove, hload, -⟩ :=
    move_of_open (s := ⟨w, held⟩) hr hs hfiles hu fun g hg => (hopen g hg).of_filed hf
  exact ⟨v, hmove, hload⟩

/-- One run after the other, nothing is lost. -/
theorem nothingLost_rivals : ∃ s, play rivals { tree := roomyTree } (movesOf false ++ movesOf true) =
    some s ∧ NothingLost rivals (statsPath plainTarget) s := by
  let first : Bool → Option Statistics := hold (fun _ => none) false {}
  obtain ⟨w, hstore, hload, hu, hf⟩ := store_rivals first (hold_self _ false {})
  let second := hold first true (statsTable (modelWith "f") {}).reloaded
  obtain ⟨v, hstore', -⟩ := store_rivals_again second (List.mem_cons_of_mem _ List.mem_cons_self)
    (Statistics.storable_of_load hload) (hold_self first true _) hu hf
  have hplay : play rivals { tree := roomyTree } (movesOf false ++ movesOf true) =
      some ⟨v, second⟩ := by
    have hload0 : move rivals { tree := roomyTree } ⟨false, .load⟩ = some ⟨roomyTree, first⟩ :=
      move_load rfl
    have hload1 : move rivals ⟨w, first⟩ ⟨true, .load⟩ = some ⟨w, second⟩ := move_load hload
    exact play_cons hload0 (play_cons hstore (play_cons hload1 (play_cons hstore' rfl)))
  have hpath : ∀ r, statsPath (rivals r).target = statsPath plainTarget := fun _ => rfl
  have hmoves : Interleaved (movesOf false) (movesOf true) (movesOf false ++ movesOf true) :=
    .left _ (.left _ (.right _ (.right _ .nil)))
  obtain ⟨last, table, -, -, hiff⟩ := nothingLost_iff hpath distinguished_rivals hmoves hplay
  exact ⟨_, hplay, hiff.2 (.inl ⟨false, rfl⟩)⟩

/-- Both runs load before one of them stores. -/
def racing : List Move := [⟨false, .load⟩, ⟨true, .load⟩, ⟨false, .store⟩, ⟨true, .store⟩]

/-- Both runs publish the first number, and the table in the end knows nothing of the run that stored
first. -/
theorem lost_racing : ∃ s table, play rivals { tree := roomyTree } racing = some s ∧
    Statistics.load s.tree (statsPath plainTarget) = .ok table ∧ table.indexOf? "A.f()" = none ∧
    ¬NothingLost rivals (statsPath plainTarget) s := by
  let both : Bool → Option Statistics := hold (hold (fun _ => none) false {}) true {}
  obtain ⟨w, hstore, -, hu, hf⟩ := store_rivals both rfl
  obtain ⟨v, hstore', hload⟩ :=
    store_rivals_again both List.mem_cons_self Statistics.storable_empty rfl hu hf
  have hplay : play rivals { tree := roomyTree } racing = some ⟨v, both⟩ := by
    have hload0 : move rivals { tree := roomyTree } ⟨false, .load⟩ =
        some ⟨roomyTree, hold (fun _ => none) false {}⟩ := move_load rfl
    have hload1 : move rivals ⟨roomyTree, hold (fun _ => none) false {}⟩ ⟨true, .load⟩ =
        some ⟨roomyTree, both⟩ := move_load rfl
    exact play_cons hload0 (play_cons hload1 (play_cons hstore (play_cons hstore' rfl)))
  refine ⟨_, _, hplay, hload, by decide +kernel, fun h => ?_⟩
  have hsame := h.apart false true {} {} rfl rfl "A.f()" "A.g()" 0 (gives_rivals false)
    (gives_rivals true)
  exact absurd hsame (by decide)

/-- The second run names the directory by way of another one that is not there yet. -/
def detour (r : Bool) : Job :=
  if r then
    { rivals true with target := { plainTarget with outputDir := ⟨.here, ["x", "..", "out"]⟩ } }
  else rivals false

/-- A run that is over before the other one begins is lost as well: the other one looks for the table on
a way that is not there yet, finds none, and makes the way when it comes to storing. -/
theorem lost_detour :
    roomyTree.named (statsPath (detour true).target) = roomyTree.named (statsPath plainTarget) ∧
      ∃ s table, play detour { tree := roomyTree } (movesOf false ++ movesOf true) = some s ∧
        Statistics.load s.tree (statsPath plainTarget) = .ok table ∧
        table.indexOf? "A.f()" = none := by
  have hrun : ∃ files ∈ ((detour false).files {}).toOption,
      ∃ files' ∈ ((detour true).files {}).toOption,
      (∀ g ∈ files, Open roomyTree plainTarget.outputDir g) ∧
      ∃ w ∈ [writeFiles .write plainTarget.outputDir roomyTree files],
        (w.tree.locate (statsPath plainTarget)).toOption.isSome = true ∧
        (Statistics.load w.tree (statsPath (detour true).target)).toOption = some {} ∧
        ∃ u ∈ [takeLock w.tree (detour true).target.outputDir], u.2.isNone = true ∧
          ∀ g ∈ files', Open u.1 (detour true).target.outputDir g := by
    decide +kernel
  obtain ⟨files, hfiles, files', hfiles', hopen, w, hw, hway, hnone, u, hu, hlock, hopen'⟩ := hrun
  obtain rfl := List.mem_singleton.1 hw
  have hfiles := ok_of_toOption hfiles
  have hfiles' := ok_of_toOption hfiles'
  obtain ⟨hgenerated, -⟩ := (detour false).files_concat Statistics.storable_empty hfiles
  obtain ⟨hgenerated', hstorable, -⟩ := (detour true).files_concat Statistics.storable_empty hfiles'
  obtain ⟨hfault, -⟩ := writeFiles_of_open hgenerated unlocked_roomyTree hopen
  have hbuilt := built_writeFiles .write plainTarget.outputDir roomyTree hgenerated
  generalize hfirst : writeFiles .write plainTarget.outputDir roomyTree files = w at *
  have hfault' : (writeFiles .write (detour true).target.outputDir w.tree files').fault = none := by
    rw [writeFiles_of_takeLock (takeLock_of_isNone hu hlock)]
    exact (writeAll_of_open hopen').1
  have hbuilt' := built_writeFiles .write (detour true).target.outputDir w.tree hgenerated'
  have hnamed : roomyTree.named (statsPath (detour true).target) =
      roomyTree.named (statsPath plainTarget) := by rfl
  -- the table stands where the first run had put its own
  have hbytes := fileAt?_of_readBytes (readBytes_of_store Statistics.storable_empty hfiles' hfault')
  rw [hbuilt'.named, hbuilt.named, hnamed, ← hbuilt.named, ← hbuilt'.named] at hbytes
  obtain ⟨q, hq⟩ := Option.isSome_iff_exists.1 hway
  have hload := Statistics.load_toJson hstorable
    (readBytes_of_fileAt? (hbuilt'.locate (ok_of_toOption hq)) hbytes)
  let first : Bool → Option Statistics := hold (fun _ => none) false {}
  have hload0 : move detour { tree := roomyTree } ⟨false, .load⟩ = some ⟨roomyTree, first⟩ :=
    move_load rfl
  have hstore : move detour ⟨roomyTree, first⟩ ⟨false, .store⟩ = some ⟨w.tree, first⟩ := by
    rw [← hfirst] at hfault ⊢
    exact move_store (s := ⟨roomyTree, first⟩) (hold_self (fun _ => none) false {}) hfiles hfault
  have hload1 : move detour ⟨w.tree, first⟩ ⟨true, .load⟩ = some ⟨w.tree, hold first true {}⟩ :=
    move_load (ok_of_toOption hnone)
  have hstore' := move_store (s := ⟨w.tree, hold first true {}⟩) (hold_self first true {}) hfiles' hfault'
  exact ⟨hnamed, _, _, play_cons hload0 (play_cons hstore (play_cons hload1 (play_cons hstore' rfl))),
    hload, by decide +kernel⟩

/-- **The numbers of a run can be lost**: if both runs load before one of them stores, and even if one
run is over before the other one begins, where that one goes by a way that is not there yet. Then both
publish the first number, and the table in the end has one key alone. -/
theorem lost_rivals : Interleaved (movesOf false) (movesOf true) racing ∧
    (rivals false).Gives {} "A.f()" 0 ∧ (rivals true).Gives {} "A.g()" 0 ∧
    (∃ s table, play rivals { tree := roomyTree } racing = some s ∧
      Statistics.load s.tree (statsPath plainTarget) = .ok table ∧ table.indexOf? "A.f()" = none ∧
      ¬NothingLost rivals (statsPath plainTarget) s) ∧
    roomyTree.named (statsPath (detour true).target) = roomyTree.named (statsPath plainTarget) ∧
    ∃ s table, play detour { tree := roomyTree } (movesOf false ++ movesOf true) = some s ∧
      Statistics.load s.tree (statsPath plainTarget) = .ok table ∧ table.indexOf? "A.f()" = none :=
  ⟨.left _ (.right _ (.left _ (.right _ .nil))), gives_rivals false, gives_rivals true, lost_racing,
    lost_detour⟩

end NativeGlue.Run
