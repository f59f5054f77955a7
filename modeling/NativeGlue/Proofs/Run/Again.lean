import NativeGlue.Proofs.Overlay.Reload
import NativeGlue.Proofs.Run.Frame
import NativeGlue.Proofs.Statistics.Settled

/-!
# Running again

A run that wrote all files of a target leaves a tree in which the work is done (`Done`): the same plan
is made from it, and every file holds what the plan says. The plan does not see the tree of the first
run but what that run left: the overrides and sources, which it did not touch, and the table, which it
stored (`plan_again`). Work that is done stays done, and runs on it change nothing
(`workOn_of_done`). So a second run finds all files unchanged (`workOn_again`).

A session keeps the overrides that it loaded. A new one loads them again, which a run can spoil in two
ways: it writes over them (`SparesOverrides`), or makes a directory that is taken for an override file
(`NoOverrideDirectories`).
-/

namespace NativeGlue.Run

open NativeGlue.Code NativeGlue.FileTree NativeGlue.Output

/-! ## 1. The plan -/

/-- The files of a target are the same if they are made with the table that was stored for it. -/
theorem targetFiles_reloaded {target : Target} {e : Mapping.Mapper}
    {defines : List (String × String)} {m : Model} {units : List MappedUnit} {table : Statistics}
    (h : (statsTable m table).Storable) :
    targetFiles target e defines m units (statsTable m table).reloaded =
      targetFiles target e defines m units table := by
  obtain ⟨-, hcount, -⟩ := statsTable_reloaded h
  unfold targetFiles
  rw [hcount, statsFiles_reloaded target.statsName h]

/-- **The same plan is made again** where the table that it holds was stored, and neither sources nor
overrides were touched. -/
theorem plan_again {own : Place → Prop} {s : Settings} {defines : List (String × String)}
    {t u : FileTree} {target : Target} {store : Overlay.Store} {p : Plan} (hg : t.Grounded)
    (h : plan s defines t target (.ok store) = .ok p) (hb : Built own t u)
    (hown : ∀ q, own q → q.ending ≠ some 'a')
    (hh : ∀ g ∈ p.files, Holds u target.outputDir g) :
    plan s defines u target (.ok store) = .ok p := by
  obtain ⟨g, hm, hname, hrun⟩ := statsRun_of_plan h
  have hstored : u.readBytes (statsPath target) = .ok g.content.toUTF8 := by
    have hg := hh g hm
    rw [Holds, placeOf, hname] at hg
    exact hg
  obtain ⟨table, htable, hstorable, -, hreloaded⟩ := loaded_of_statsRun (hrun u hstored)
  obtain ⟨_, mapper, loaded, units, hstore, hmapper, hloaded, hmodel, hunits, hfiles, hwarnings⟩ :=
    plan_eq_ok_iff.1 h
  cases hstore
  obtain rfl : table = loaded := Except.ok.inj (htable.symm.trans hloaded)
  refine plan_eq_ok_iff.2 ⟨store, mapper, (statsTable p.model table).reloaded, units, rfl, hmapper,
    hreloaded, Source.modelAt_of_built hg hb hown hmodel, hunits, ?_, hwarnings⟩
  rw [targetFiles_reloaded hstorable, hfiles]

/-! ## 2. Overrides -/

/-- No override file of a target stands at the place of a generated file, or at that of the temporary
file beside it. -/
def SparesOverrides (t : FileTree) (target : Target) (files : List FileOutcome) : Prop :=
  ∀ p, target.metadata = some p → ∀ f ∈ Overlay.filesAt t (t.absolute p), ∀ r ∈ files,
    ¬Beside t (target.outputDir / Path.ofString r.relativePath) (t.named f)

/-- No directory is new under a name that a search for the override files of a target takes. -/
def NoOverrideDirectories (t u : FileTree) (target : Target) : Prop :=
  ∀ p, target.metadata = some p → Overlay.NothingToFind t u (t.absolute p)

/-- A run that makes no directories makes none of these. -/
theorem noOverrideDirectories {t u : FileTree}
    (h : ∀ e ∈ u.entries, e.2 = .directory → t.get? e.1 = some .directory) (target : Target) :
    NoOverrideDirectories t u target := by
  intro p _ q names _ hnone hnew
  by_cases hroot : (q ++ names).isEmpty = true
  · rw [FileTree.get?, if_pos hroot] at hnone
    cases hnone
  · rw [FileTree.get?, if_neg hroot] at hnew
    rw [h _ (mem_of_lookup hnew) rfl] at hnone
    cases hnone

namespace Session

variable {s : Session} {target : Target} {store : Overlay.Store}

/-- A session remembers the overrides that it has for a target, whatever becomes of the tree. -/
theorem storeFor_remember {u : FileTree} (hr : u.resolve = s.tree.resolve)
    (h : s.storeFor target = .ok store) :
    ({ s.remember target with tree := u } : Session).storeFor target = .ok store := by
  have hpath : ∀ stores, (⟨u, stores⟩ : Session).storePath target = s.storePath target := by
    intro stores
    unfold storePath
    rw [hr]
  cases hp : s.storePath target with
  | error e =>
    rw [storeFor, hp] at h
    cases h
  | ok known =>
    cases known with
    | none =>
      rw [storeFor, hp] at h
      rw [storeFor, hpath, hp]
      exact h
    | some p =>
      have hlookup : (s.remember target).stores.lookup p = some store := by
        rw [storeFor, hp] at h
        rw [remember, hp]
        dsimp only at h ⊢
        split at h
        · rename_i known hknown
          cases h
          rw [hknown, Option.isSome_some, if_pos rfl]
          exact hknown
        · rename_i hunknown
          rw [hunknown, h, Option.isSome_none, if_neg Bool.false_ne_true]
          exact List.lookup_cons_self
      rw [storeFor, hpath, hp]
      dsimp only
      rw [hlookup]

/-- A new session loads the overrides of a target from its tree. -/
theorem storeFor_eq_ok_iff {t : FileTree} {path : Path} (hpath : target.metadata = some path) :
    ({ tree := t } : Session).storeFor target = .ok store ↔
      path.isNameable = true ∧ Overlay.Store.load t (t.absolute path) = .ok store := by
  unfold storeFor storePath
  rw [hpath]
  dsimp only
  unfold resolve
  by_cases hnameable : path.isNameable = true
  · rw [if_pos hnameable]
    exact (and_iff_right hnameable).symm
  · rw [if_neg hnameable]
    exact ⟨nofun, fun h => absurd h.1 hnameable⟩

/-- The overrides of a target are loaded again as they were. -/
theorem storeFor_of_built {own : Place → Prop} {t u : FileTree} (hb : Built own t u)
    (hown : ∀ q, own q → q.ending ≠ some 'l') (hnew : NoOverrideDirectories t u target)
    (hfiles : ∀ p, target.metadata = some p → ∀ f ∈ Overlay.filesAt t (t.absolute p),
      t.get? (t.named f) ≠ none → ¬own (t.named f))
    (h : ({ tree := t } : Session).storeFor target = .ok store) :
    ({ tree := u } : Session).storeFor target = .ok store := by
  obtain ⟨places, hs, -⟩ := id hb
  cases hpath : target.metadata with
  | none =>
    unfold storeFor storePath at h ⊢
    rw [hpath] at h ⊢
    exact h
  | some path =>
    have habsolute : u.absolute path = t.absolute path := by
      rw [absolute, absolute, hs.cwd]
    obtain ⟨hnameable, hload⟩ := (storeFor_eq_ok_iff hpath).1 h
    rw [storeFor_eq_ok_iff hpath, habsolute]
    exact ⟨hnameable, Overlay.load_of_built hb hown (hnew path hpath) (hfiles path hpath) hload⟩

end Session

/-! ## 3. Work that is done -/

/-- The outcome of a target whose plan was carried out. -/
def Plan.outcome (p : Plan) (target : Target) (files : List FileOutcome) : Outcome :=
  { target, stage := .written, history := Stage.written.before, files, warnings := p.warnings,
    model := some p.model }

/-- The files of an outcome, unchanged. -/
def Outcome.unchanged (o : Outcome) : Outcome :=
  { o with files := o.files.map fun r => ⟨r.relativePath, .unchanged, ""⟩ }

/-- The outcome of a target whose plan leaves all files as they are. -/
def Plan.settled (p : Plan) (target : Target) : Outcome :=
  p.outcome target (p.files.map fun g => ⟨g.relativePath, .unchanged, ""⟩)

theorem unchanged_outcome {p : Plan} {files : List FileOutcome}
    (h : files.map (·.relativePath) = p.files.map (·.relativePath)) (target : Target) :
    (p.outcome target files).unchanged = p.settled target := by
  have hfiles : (files.map fun r => (⟨r.relativePath, .unchanged, ""⟩ : FileOutcome)) =
      p.files.map fun g => ⟨g.relativePath, .unchanged, ""⟩ := by
    have h := congrArg (List.map fun path => (⟨path, .unchanged, ""⟩ : FileOutcome)) h
    rw [List.map_map, List.map_map] at h
    exact h
  unfold Outcome.unchanged Plan.settled Plan.outcome
  rw [hfiles]

theorem changed_unchanged (o : Outcome) : o.unchanged.changed = [] := by
  unfold Outcome.changed Outcome.unchanged
  rw [List.filter_map, List.map_eq_nil_iff]
  exact List.filter_eq_nil_iff.2 fun r _ => Bool.false_ne_true

/-- Work that goes well is a plan that was carried out. -/
theorem planned_of_workOn {s after : Session} {settings : Settings}
    {defines : List (String × String)} {target : Target} {o : Outcome}
    (h : s.workOn settings defines target = (after, .ok o)) (hok : o.ok = true) :
    ∃ p w, plan settings defines s.tree target (s.storeFor target) = .ok p ∧
      writeFiles settings.mode target.outputDir s.tree p.files = w ∧ w.fault = none ∧
      after = { s.remember target with tree := w.tree } ∧ o = p.outcome target w.results := by
  have failed : ∀ stage warnings f, (Session.failed target stage warnings f).ok = false :=
    fun _ _ _ => rfl
  unfold Session.workOn at h
  dsimp only at h
  split at h
  · cases h
  · cases h
    rw [failed] at hok
    cases hok
  rename_i p hplan
  split at h
  · cases h
  · cases h
    rw [failed] at hok
    cases hok
  · rename_i hfault
    cases h
    exact ⟨p, _, hplan, rfl, Option.map_eq_none_iff.1 hfault, rfl, rfl⟩

/-- The work on a target is done: all files of its plan are there, and its directory is not locked. -/
structure Done (settings : Settings) (defines : List (String × String)) (target : Target) (p : Plan)
    (s : Session) : Prop where
  planned : plan settings defines s.tree target (s.storeFor target) = .ok p
  held : ∀ g ∈ p.files, Holds s.tree target.outputDir g
  unlocked : Unlocked s.tree target.outputDir

section

variable {s : Session} {settings : Settings} {defines : List (String × String)} {target : Target}
  {p : Plan}

/-- A plan is made with overrides only. -/
theorem storeFor_of_plan (h : plan settings defines s.tree target (s.storeFor target) = .ok p) :
    ∃ store, s.storeFor target = .ok store := by
  obtain ⟨store, _, _, _, hstore, -⟩ := plan_eq_ok_iff.1 h
  exact ⟨store, hstore⟩

/-- **Running again on work that is done changes nothing**, in whatever mode, and leaves it done. -/
theorem workOn_of_done (h : Done settings defines target p s) (mode : Mode) :
    s.workOn { settings with mode := mode } defines target =
        (s.remember target, .ok (p.settled target)) ∧
      Done settings defines target p (s.remember target) := by
  obtain ⟨store, hstore⟩ := storeFor_of_plan h.planned
  have hgenerated := isGenerated_of_filesOf (filesOf_plan h.planned)
  have htree := s.tree_remember target
  have hplan : plan { settings with mode := mode } defines s.tree target (s.storeFor target) = .ok p :=
    h.planned
  constructor
  · unfold Session.workOn
    dsimp only
    rw [hplan]
    dsimp only
    rw [writeFiles_of_holds mode hgenerated h.held h.unlocked]
    dsimp only [Option.map_none]
    rw [← htree]
    rfl
  · have hremembered : (s.remember target).storeFor target = .ok store := by
      have hsame : { s.remember target with tree := s.tree } = s.remember target := by
        rw [← htree]
      rw [← hsame]
      exact Session.storeFor_remember rfl hstore
    refine ⟨?_, ?_, ?_⟩
    · rw [htree, hremembered, ← hstore]
      exact h.planned
    · rw [htree]
      exact h.held
    · rw [htree]
      exact h.unlocked

/-- However often the target is worked on, nothing changes. -/
theorem stepsFrom_of_done (h : Done settings defines target p s) (goOn : Bool) (n : Nat) :
    (s.stepsFrom settings defines goOn (List.replicate n target)).1.tree = s.tree ∧
      (s.stepsFrom settings defines goOn (List.replicate n target)).2.map (·.result) =
        List.replicate n (.ok (p.settled target)) := by
  induction n generalizing s with
  | zero => exact ⟨rfl, rfl⟩
  | succ n ih =>
    obtain ⟨hwork, hdone⟩ := workOn_of_done h settings.mode
    obtain ⟨htree, hresults⟩ := ih hdone
    rw [List.replicate_succ, Session.stepsFrom, hwork]
    dsimp only
    rw [htree, s.tree_remember, List.map_cons, hresults, List.replicate_succ]
    exact ⟨rfl, rfl⟩

end

/-! ## 4. After a run -/

/-- The places of the files of a target. -/
def placesOf (t : FileTree) (target : Target) (files : List FileOutcome) : List Place :=
  files.map fun r => t.named (target.outputDir / Path.ofString r.relativePath)

/-- A run in write mode that went well: its plan, which is made with the overrides of its session, and
what it left. -/
structure Written (settings : Settings) (defines : List (String × String)) (target : Target)
    (s after : Session) (o : Outcome) (p : Plan) : Prop where
  planned : plan settings defines s.tree target (s.storeFor target) = .ok p
  stores : after = { s.remember target with tree := after.tree }
  outcome : o = p.outcome target o.files
  paths : o.files.map (·.relativePath) = p.files.map (·.relativePath)
  built : Built (Touched s.tree target.outputDir p.files) s.tree after.tree
  held : ∀ g ∈ p.files, Holds after.tree target.outputDir g
  unlocked : Unlocked after.tree target.outputDir
  free : s.tree.get? (s.tree.named (lockOf target.outputDir)) = none

/-- Working on a target again, in whatever mode, changes nothing: it goes as before, with all files
unchanged. -/
def Settled (settings : Settings) (defines : List (String × String)) (target : Target) (o : Outcome)
    (s : Session) : Prop :=
  ∀ mode, ∃ last, s.workOn { settings with mode := mode } defines target = (last, .ok o.unchanged) ∧
    last.tree = s.tree

section

variable {s after : Session} {settings : Settings} {defines : List (String × String)}
  {target : Target} {o : Outcome} {p : Plan}

theorem written_of_workOn (hmode : settings.mode = .write)
    (h : s.workOn settings defines target = (after, .ok o)) (hok : o.ok = true)
    (hd : (placesOf s.tree target o.files).Nodup) :
    ∃ p, Written settings defines target s after o p := by
  obtain ⟨p, w, hplan, hw, hfault, rfl, rfl⟩ := planned_of_workOn h hok
  have hpaths : w.results.map (·.relativePath) = p.files.map (·.relativePath) := by
    rw [← hw] at hfault ⊢
    exact relativePaths_writeFiles hfault
  have hplaces : (p.files.map fun g => s.tree.named (placeOf target.outputDir g)).Nodup := by
    have heq := congrArg (List.map fun path =>
      s.tree.named (target.outputDir / Path.ofString path)) hpaths
    rw [List.map_map, List.map_map] at heq
    exact heq ▸ hd
  have hgenerated := isGenerated_of_filesOf (filesOf_plan hplan)
  have hbuilt := built_writeFiles settings.mode target.outputDir s.tree hgenerated
  rw [hmode] at hw hbuilt
  subst hw
  obtain ⟨hheld, hunlocked, hfree⟩ := holds_writeFiles hgenerated hplaces hfault
  exact ⟨p, hplan, rfl, rfl, hpaths, hbuilt, hheld, hunlocked, hfree⟩

namespace Written

/-- What was touched ends as no source and no override file does. -/
theorem ending_ne (h : Written settings defines target s after o p) {c : Char}
    (hc : c ∉ ownEndings) {q : Place} (hq : Touched s.tree target.outputDir p.files q) :
    q.ending ≠ some c :=
  (own_of_touched (isGenerated_of_filesOf (filesOf_plan h.planned)) hq).ending_ne hc

/-- The session that a run leaves has the overrides of the run. -/
theorem storeFor_after (h : Written settings defines target s after o p) :
    after.storeFor target = s.storeFor target := by
  obtain ⟨store, hstore⟩ := storeFor_of_plan h.planned
  obtain ⟨places, hsame, -⟩ := id h.built
  rw [h.stores, hstore]
  exact Session.storeFor_remember (funext (Source.resolve_sameBut hsame)) hstore

/-- A new session loads the overrides of the run again, if the run spared them. -/
theorem storeFor_new (h : Written settings defines target s after o p)
    (hstores : s.storeFor target = ({ tree := s.tree } : Session).storeFor target)
    (hspared : SparesOverrides s.tree target o.files)
    (hnew : NoOverrideDirectories s.tree after.tree target) :
    ({ tree := after.tree } : Session).storeFor target = s.storeFor target := by
  obtain ⟨store, hstore⟩ := storeFor_of_plan h.planned
  rw [hstore]
  refine Session.storeFor_of_built h.built (fun q => h.ending_ne (by decide)) hnew ?_
    (hstores ▸ hstore)
  intro path hpath f hf hthere hown
  rcases hown with ⟨g, hm, hq⟩ | hlock
  · have hname : g.relativePath ∈ o.files.map (·.relativePath) :=
      h.paths ▸ List.mem_map_of_mem hm
    obtain ⟨r, hr, hname⟩ := List.mem_map.1 hname
    refine hspared path hpath f hf r hr ?_
    rw [hname]
    exact hq
  · rw [hlock] at hthere
    exact hthere h.free

/-- **A run leaves work that is done** wherever its overrides are known. -/
theorem done (h : Written settings defines target s after o p) (hg : s.tree.Grounded)
    {again : Session} (ht : again.tree = after.tree)
    (hs : again.storeFor target = s.storeFor target) : Done settings defines target p again := by
  obtain ⟨store, hstore⟩ := storeFor_of_plan h.planned
  have hplan := h.planned
  rw [hstore] at hplan hs
  refine ⟨?_, ?_, ?_⟩
  · rw [hs, ht]
    exact plan_again hg hplan h.built (fun q => h.ending_ne (by decide)) h.held
  · rw [ht]
    exact h.held
  · rw [ht]
    exact h.unlocked

theorem settled (h : Written settings defines target s after o p) (hg : s.tree.Grounded)
    {again : Session} (ht : again.tree = after.tree)
    (hs : again.storeFor target = s.storeFor target) : Settled settings defines target o again := by
  intro mode
  obtain ⟨hwork, -⟩ := workOn_of_done (h.done hg ht hs) mode
  rw [h.outcome, unchanged_outcome h.paths target]
  exact ⟨_, hwork, Session.tree_remember again target⟩

end Written

/-- **A second run changes nothing**: whatever was there before, if a run wrote files that have places
of their own, the next run finds all of them unchanged and leaves the tree as it is, and so does one
that only looks. In the session of the first run this is always so. A new session loads the overrides
again; there it is so if the first run spared them. -/
theorem workOn_again (hg : s.tree.Grounded) (hmode : settings.mode = .write)
    (h : s.workOn settings defines target = (after, .ok o)) (hok : o.ok = true)
    (hd : (placesOf s.tree target o.files).Nodup) :
    o.unchanged.ok = true ∧ o.unchanged.changed = [] ∧
      Settled settings defines target o after ∧
      (s.storeFor target = ({ tree := s.tree } : Session).storeFor target →
        SparesOverrides s.tree target o.files → NoOverrideDirectories s.tree after.tree target →
          Settled settings defines target o { tree := after.tree }) := by
  obtain ⟨p, hw⟩ := written_of_workOn hmode h hok hd
  refine ⟨hok, changed_unchanged o, hw.settled hg rfl hw.storeFor_after, ?_⟩
  intro hstores hspared hnew
  exact hw.settled hg rfl (hw.storeFor_new hstores hspared hnew)

end

/-- A session over a tree that is seen from its root. -/
def sessionOf (entries : List (Place × Entry)) : Session :=
  { tree := { entries, cwd := [], homes := [] } }

/-- A tree with overrides, and with the table of an older run whose native method is gone. -/
def olderSession : Session :=
  sessionOf [(["src"], .directory), (["out"], .directory), (["meta"], .directory),
    (["meta", "os.yml"], .file "OS: \x7b\x7d".toUTF8),
    (["out", "natives_stats.json"],
      .file "\x7b\"version\": 1, \"entries\": \x7b\"OS.open()\": 3\x7d\x7d".toUTF8)]

/-- The target of these overrides. -/
def olderTarget : Target := { plainTarget with metadata := some ⟨.here, ["meta"]⟩ }

/-- The table is stored anew once, and then no more. -/
theorem settled_olderSession : ∃ after o, olderSession.workOn {} [] olderTarget = (after, .ok o) ∧
    o.changed.length = 3 ∧ Settled {} [] olderTarget o after ∧
    Settled {} [] olderTarget o { tree := after.tree } := by
  have hrun : ∃ o ∈ (olderSession.workOn {} [] olderTarget).2.toOption,
      (o.ok = true ∧ o.changed.length = 3 ∧ (placesOf olderSession.tree olderTarget o.files).Nodup) ∧
        (∀ f ∈ Overlay.filesAt olderSession.tree ⟨.root, ["meta"]⟩, ∀ r ∈ o.files,
          olderSession.tree.named f ∉
            [olderSession.tree.named (olderTarget.outputDir / Path.ofString r.relativePath),
              olderSession.tree.named
                (temporaryFor (olderTarget.outputDir / Path.ofString r.relativePath))]) ∧
        ∀ e ∈ (olderSession.workOn {} [] olderTarget).1.tree.entries, e.2 = .directory →
          olderSession.tree.get? e.1 = some .directory := by
    decide +kernel
  obtain ⟨o, ho, ⟨hok, hchanged, hd⟩, hspared, hnew⟩ := hrun
  have hg : olderSession.tree.Grounded := by
    unfold Grounded
    decide
  have hwork : olderSession.workOn {} [] olderTarget =
      ((olderSession.workOn {} [] olderTarget).1, .ok o) := Prod.ext rfl (ok_of_toOption ho)
  obtain ⟨-, -, hsame, hfresh⟩ := workOn_again hg rfl hwork hok hd
  refine ⟨_, o, hwork, hchanged, hsame, hfresh rfl ?_ (noOverrideDirectories hnew olderTarget)⟩
  intro p hp f hf r hr hbeside
  cases hp
  refine hspared f hf r hr ?_
  rcases hbeside with h | h
  · exact h ▸ List.mem_cons_self
  · exact h ▸ List.mem_cons_of_mem _ (List.mem_singleton_self _)

/-! ## 5. Overrides that a run does not spare -/

/-- No work goes well where a directory is taken for an override file. -/
theorem not_ok_of_directory {t : FileTree} {settings : Settings} {defines : List (String × String)}
    {target : Target} {path : Path} (hp : target.metadata = some path) {f : Path}
    (hf : f ∈ Overlay.filesAt t (t.absolute path)) (hd : t.get? (t.named f) = some .directory)
    {last : Session} {o : Outcome}
    (h : ({ tree := t } : Session).workOn settings defines target = (last, .ok o)) : o.ok = false := by
  rw [← Bool.not_eq_true]
  intro hok
  obtain ⟨p, -, hplan, -⟩ := planned_of_workOn h hok
  obtain ⟨store, hstore⟩ := storeFor_of_plan hplan
  exact Overlay.not_directory_of_load ((Session.storeFor_eq_ok_iff hp).1 hstore).2 hf hd

/-- A tree whose overrides stand where a temporary file comes. -/
def besideSession : Session :=
  sessionOf [(["src"], .directory), (["out"], .directory),
    (["out", ".natives_stats.h.tmp"], .file "".toUTF8)]

/-- The target of these overrides. -/
def besideTarget : Target :=
  { plainTarget with metadata := some ⟨.here, ["out", ".natives_stats.h.tmp"]⟩ }

/-- A tree in which a directory holds no overrides yet. -/
def insideSession : Session := sessionOf [(["src"], .directory), (["meta"], .directory)]

/-- A target whose files go into a new directory, which is named like an override file. -/
def insideTarget : Target :=
  { plainTarget with metadata := some ⟨.here, ["meta"]⟩, outputDir := ⟨.here, ["meta", "gen.yml"]⟩ }

/-- A run goes well, and its files have places of their own at which no override file stands; but the
next run, in a new session, does not go well. -/
def Unsettled (s : Session) (target : Target) : Prop :=
  ∃ after o, s.workOn {} [] target = (after, .ok o) ∧ o.ok = true ∧
    (placesOf s.tree target o.files).Nodup ∧
    (∀ p, target.metadata = some p → ∀ f ∈ Overlay.filesAt s.tree (s.tree.absolute p),
      s.tree.named f ∉ placesOf s.tree target o.files) ∧
    ∀ last o', ({ tree := after.tree } : Session).workOn {} [] target = (last, .ok o') → o'.ok = false

/-- **A run may take its own overrides away, or add to them what is none.** -/
theorem unsettled_overrides : (besideSession.tree.Grounded ∧ Unsettled besideSession besideTarget) ∧
    insideSession.tree.Grounded ∧ Unsettled insideSession insideTarget := by
  refine ⟨⟨by unfold Grounded; decide, ?_⟩, by unfold Grounded; decide, ?_⟩
  · have hruns : ∃ o ∈ (besideSession.workOn {} [] besideTarget).2.toOption, o.ok = true ∧
        (placesOf besideSession.tree besideTarget o.files).Nodup ∧
        (∀ f ∈ Overlay.filesAt besideSession.tree ⟨.root, ["out", ".natives_stats.h.tmp"]⟩,
          besideSession.tree.named f ∉ placesOf besideSession.tree besideTarget o.files) ∧
        ∀ o' ∈ (({ tree := (besideSession.workOn {} [] besideTarget).1.tree } : Session).workOn {} []
          besideTarget).2.toOption, o'.ok = false := by
      decide +kernel
    obtain ⟨o, ho, hok, hd, hf, hnext⟩ := hruns
    refine ⟨_, o, Prod.ext rfl (ok_of_toOption ho), hok, hd, ?_, ?_⟩
    · intro p hp
      cases hp
      exact hf
    · intro last o' hlast
      refine hnext o' ?_
      rw [hlast]
      exact Option.mem_some_self o'
  · have hruns : ∃ o ∈ (insideSession.workOn {} [] insideTarget).2.toOption, (o.ok = true ∧
        (placesOf insideSession.tree insideTarget o.files).Nodup ∧
        ∀ f ∈ Overlay.filesAt insideSession.tree ⟨.root, ["meta"]⟩,
          insideSession.tree.named f ∉ placesOf insideSession.tree insideTarget o.files) ∧
        ∀ u ∈ [(insideSession.workOn {} [] insideTarget).1.tree], u.absolute ⟨.here, ["meta"]⟩ =
          ⟨.root, ["meta"]⟩ ∧ u.locate ⟨.root, ["meta"]⟩ = .ok ["meta"] ∧
          u.get? ["meta"] = some .directory ∧ u.get? ["meta", "gen.yml"] = some .directory ∧
          u.named ⟨.root, ["meta", "gen.yml"]⟩ = ["meta", "gen.yml"] := by
      decide +kernel
    obtain ⟨o, ho, ⟨hok, hd, hf⟩, hleft⟩ := hruns
    obtain ⟨hroot, hlocate, hmeta, hinside, hnamed⟩ := hleft _ (List.mem_singleton_self _)
    refine ⟨_, o, Prod.ext rfl (ok_of_toOption ho), hok, hd, ?_, ?_⟩
    · intro p hp
      cases hp
      exact hf
    · intro last o' hlast
      have hthere : (insideSession.workOn {} [] insideTarget).1.tree.get? (["meta"] ++ ["gen.yml"]) ≠
          none := by
        rw [List.singleton_append, hinside]
        exact nofun
      refine not_ok_of_directory rfl (f := ⟨.root, ["meta", "gen.yml"]⟩) ?_ ?_ hlast
      · rw [hroot]
        exact Overlay.mem_filesAt hlocate hmeta (by decide) hthere (by decide)
      · rw [hnamed]
        exact hinside

end NativeGlue.Run
