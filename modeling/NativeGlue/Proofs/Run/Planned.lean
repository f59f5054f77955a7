import NativeGlue.Proofs.Fallible
import NativeGlue.Run.Plan

/-!
# What a plan is made of

A plan is made exactly if every phase goes well (`plan_eq_ok_iff`): the overrides are there, the rules
make a mapper, the table is loaded, the sources become a model, its native methods are mapped, and the
files can be written. The statistics files come last among them (`targetFiles_eq_ok_iff`). What a run
writes depends on its model and on the table that it loaded (`Planned`).
-/

namespace NativeGlue.Run

open NativeGlue.Code

variable {s : Settings} {defines : List (String × String)} {tree : FileTree} {target : Target}

theorem load_eq_ok_iff {store : Overlay.Store} {l : Loaded} :
    load s tree target store = .ok l ↔ Mapping.Mapper.ofRules target s.rules = .ok l.mapper ∧
      Statistics.load tree (statsPath target) = .ok l.table ∧ l.store = store := by
  constructor
  · intro h
    obtain ⟨mapper, hmapper, h⟩ := ok_of_bind h
    obtain ⟨table, htable, h⟩ := ok_of_bind h
    cases h
    exact ⟨ok_of_mapError hmapper, ok_of_mapError htable, rfl⟩
  · rintro ⟨hmapper, htable, rfl⟩
    unfold load
    rw [hmapper, htable]
    rfl

/-- The files are those of the units, and the statistics files behind them. -/
theorem targetFiles_eq_ok_iff {e : Mapping.Mapper} {m : Model} {units : List MappedUnit}
    {table : Statistics} {files : List OutputFile} :
    targetFiles target e defines m units table = .ok files ↔
      ∃ parts, units.mapM (unitFiles target e defines) = .ok parts ∧
        Text.isWritable (statsTable m table).capacity = true ∧
        files = parts.flatten ++ statsFiles target.statsName m table := by
  constructor
  · intro h
    obtain ⟨parts, hparts, h⟩ := ok_of_bind h
    dsimp only at h
    split at h
    · cases h
    · rename_i hwritable
      cases h
      rw [Bool.not_eq_true', Bool.not_eq_false] at hwritable
      exact ⟨parts, hparts, hwritable, rfl⟩
  · rintro ⟨parts, hparts, hwritable, rfl⟩
    unfold targetFiles
    rw [hparts, hwritable]
    rfl

/-- **A plan is made exactly if every phase goes well.** -/
theorem plan_eq_ok_iff {found : Except Overlay.Fault Overlay.Store} {p : Plan} :
    plan s defines tree target found = .ok p ↔
      ∃ store mapper table units, found = .ok store ∧
        Mapping.Mapper.ofRules target s.rules = .ok mapper ∧
        Statistics.load tree (statsPath target) = .ok table ∧
        Source.modelAt tree s.ignore store target.sourceRoot = .ok p.model ∧
        mapUnits mapper p.model = .ok units ∧
        targetFiles target mapper defines p.model units table = .ok p.files ∧
        p.warnings = staleWarnings target store p.model ++
          p.model.units.flatMap (structWarnings defines) := by
  constructor
  · intro h
    unfold plan at h
    split at h
    · cases h
    rename_i store
    split at h
    · cases h
    rename_i loaded hload
    obtain ⟨hmapper, htable, -⟩ := load_eq_ok_iff.1 hload
    split at h
    · cases h
    rename_i model hmodel
    dsimp only at h
    split at h
    · cases h
    rename_i units hunits
    split at h
    · cases h
    rename_i files hfiles
    cases h
    exact ⟨store, loaded.mapper, loaded.table, units, rfl, hmapper, htable, hmodel, hunits, hfiles, rfl⟩
  · rintro ⟨store, mapper, table, units, rfl, hmapper, htable, hmodel, hunits, hfiles, hwarnings⟩
    have hload : load s tree target store = .ok ⟨store, mapper, table⟩ :=
      load_eq_ok_iff.2 ⟨hmapper, htable, rfl⟩
    unfold plan
    dsimp only
    rw [hload]
    dsimp only
    rw [hmodel]
    dsimp only
    rw [hunits]
    dsimp only
    rw [hfiles, ← hwarnings]

/-- The files that are made of a model for a target under the standard rules. -/
def StandardFiles (target : Target) (defines : List (String × String)) (m : Model)
    (files : List OutputFile) : Prop :=
  ∃ e units table, Mapping.Mapper.ofRules target Mapping.standardRules = .ok e ∧
    mapUnits e m = .ok units ∧ targetFiles target e defines m units table = .ok files

/-- The files of a plan are made of its model. -/
theorem standardFiles_of_plan (hrules : s.rules = Mapping.standardRules)
    {found : Except Overlay.Fault Overlay.Store} {p : Plan}
    (h : plan s defines tree target found = .ok p) : StandardFiles target defines p.model p.files := by
  obtain ⟨_, mapper, table, units, -, hmapper, -, -, hunits, hfiles, -⟩ := plan_eq_ok_iff.1 h
  exact ⟨mapper, units, table, hrules ▸ hmapper, hunits, hfiles⟩

/-- What a run is about to write for a target: the table that it loaded from a tree, and the files that
it made with the table for a model. -/
structure Planned (target : Target) (t : FileTree) (m : Model) (table : Statistics)
    (files : List OutputFile) : Prop where
  loaded : Statistics.load t (statsPath target) = .ok table
  made : ∃ e defines units, mapUnits e m = .ok units ∧
    targetFiles target e defines m units table = .ok files

/-- Every plan is about to write what its table and model say. -/
theorem planned_of_plan {found : Except Overlay.Fault Overlay.Store} {p : Plan}
    (h : plan s defines tree target found = .ok p) : ∃ table, Planned target tree p.model table p.files := by
  obtain ⟨_, mapper, table, units, -, -, htable, -, hunits, hfiles, -⟩ := plan_eq_ok_iff.1 h
  exact ⟨table, htable, mapper, defines, units, hunits, hfiles⟩

end NativeGlue.Run
