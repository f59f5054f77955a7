import NativeGlue.Proofs.Run.Recorded
import NativeGlue.Proofs.Source.Skipped

/-!
# Runs without a native method that is left out

Where the classes with fields that such a method takes by value stand for structs anyway, a run comes to the
same as if the method were not declared: it stops at the same stage for the same reason, or makes the same
files (`outlinesResult_dropNative`). Where one of them does not, there are files for its struct
(`structFiles_moverFiles`).
-/

namespace NativeGlue.Run

open NativeGlue.Code NativeGlue.Source

/-! ## 1. What planning comes to -/

/-- The files of a target, or the stage at which work has stopped and why. -/
abbrev Result := Except (Stage × Halt) (List OutputFile)

/-- What a plan comes to. -/
def planResult (p : Except Stopped Plan) : Result :=
  (p.map (·.files)).mapError fun x => (x.stage, x.halt)

section

variable (target : Target) (e : Mapping.Mapper) (defines : List (String × String)) (table : Statistics)

/-- What becomes of a model. -/
def modelResult (m : Model) : Result := do
  let units ← (mapUnits e m).mapError fun f => (.mapping, .ofMapping f)
  (targetFiles target e defines m units table).mapError fun f => (.emitting, .ofMapping f)

/-- What becomes of the outlines of sources. -/
def outlinesResult (store : Overlay.Store) (files : List OutlinedFile) : Result := do
  modelResult target e defines table (← (modelOf store files).mapError fun f => (.modeling, .ofSource f))

/-- A unit without its marks, with the mappings of its native methods. -/
def unmarkedUnit (u : MappedUnit) : MappedUnit := (unmarked u.1, u.2)

theorem natives_unmarkedModel (m : Model) : (unmarkedModel m).natives = m.natives := List.flatMap_map ..

theorem mapUnits_unmarkedModel (m : Model) :
    mapUnits e (unmarkedModel m) = (mapUnits e m).map (List.map unmarkedUnit) := by
  have hstructs : (unmarkedModel m).structs = m.structs := List.flatMap_map ..
  rw [mapUnits, mapUnits, hstructs, map_mapM, unmarkedModel, List.mapM_map]
  refine mapM_congr fun u _ => ?_
  change (u.natives.mapM _ >>= _) = Except.map _ (u.natives.mapM _ >>= _)
  cases u.natives.mapM (e.callMapping (m.structs.filter (·.generated))) <;> rfl

theorem targetFiles_unmarkedModel (m : Model) (units : List MappedUnit) :
    targetFiles target e defines (unmarkedModel m) (units.map unmarkedUnit) table =
      targetFiles target e defines m units table := by
  have hfiles : (units.map unmarkedUnit).mapM (unitFiles target e defines) =
      units.mapM (unitFiles target e defines) := List.mapM_map
  have hsymbols : statsSymbols (unmarkedModel m) = statsSymbols m := by
    rw [statsSymbols, statsSymbols, natives_unmarkedModel]
  have htable : statsTable (unmarkedModel m) table = statsTable m table := by
    rw [statsTable, statsTable, hsymbols]
  have hstats : statsFiles target.statsName (unmarkedModel m) table = statsFiles target.statsName m table := by
    rw [statsFiles, statsFiles, htable, hsymbols]
  rw [targetFiles, targetFiles, hfiles, htable, hstats]

/-- The marks of what was left out change nothing. -/
theorem modelResult_unmarkedModel (m : Model) :
    modelResult target e defines table (unmarkedModel m) = modelResult target e defines table m := by
  rw [modelResult, modelResult, mapUnits_unmarkedModel]
  cases mapUnits e m with
  | error f => simp only [Except.map, Except.mapError, bind, Except.bind]
  | ok units => simp only [Except.map, Except.mapError, bind, Except.bind, targetFiles_unmarkedModel]

/-- What becomes of outlines does not depend on the marks. -/
theorem outlinesResult_congr {store : Overlay.Store} {files files' : List OutlinedFile}
    (h : (modelOf store files').map unmarkedModel = (modelOf store files).map unmarkedModel) :
    outlinesResult target e defines table store files' = outlinesResult target e defines table store files := by
  have hmodels : ∀ x : Except Source.Fault Model,
      (x.mapError fun f => (Stage.modeling, Halt.ofSource f)) >>= modelResult target e defines table =
        ((x.map unmarkedModel).mapError fun f => (Stage.modeling, Halt.ofSource f)) >>=
          modelResult target e defines table := by
    intro x
    cases x with
    | error f => rfl
    | ok m => exact (modelResult_unmarkedModel target e defines table m).symm
  rw [outlinesResult, outlinesResult, hmodels, h, ← hmodels]

end

/-! ## 2. Sources in a tree -/

/-- The sources of a target in a tree have these outlines. -/
def Outlines (tree : FileTree) (ignore : List Exclusion) (root : Path) (files : List OutlinedFile) : Prop :=
  ∃ place names, rootOf tree root = .ok place ∧ sourcesOf tree ignore place = .ok names ∧
    outlinesOf tree place names = .ok files

theorem modelAt_of_outlines {tree : FileTree} {ignore : List Exclusion} {root : Path}
    {files : List OutlinedFile} (h : Outlines tree ignore root files) (store : Overlay.Store) :
    modelAt tree ignore store root = modelOf store files := by
  obtain ⟨place, names, hplace, hnames, hfiles⟩ := h
  unfold modelAt
  rw [hplace]
  change (sourcesOf tree ignore place >>= _) = _
  rw [hnames]
  change (outlinesOf tree place names >>= _) = _
  rw [hfiles]
  rfl

/-- **What a plan comes to is what becomes of the outlines of the sources**, once all else is loaded. -/
theorem planResult_of_outlines {s : Settings} {defines : List (String × String)} {tree : FileTree}
    {target : Target} {store : Overlay.Store} {l : Loaded} {files : List OutlinedFile}
    (hload : load s tree target store = .ok l) (h : Outlines tree s.ignore target.sourceRoot files) :
    planResult (plan s defines tree target (.ok store)) =
      outlinesResult target l.mapper defines l.table store files := by
  unfold plan outlinesResult
  dsimp only
  rw [hload, modelAt_of_outlines h store]
  dsimp only
  cases modelOf store files with
  | error f => rfl
  | ok m =>
    dsimp only [Except.mapError, bind, Except.bind]
    rw [modelResult]
    cases mapUnits l.mapper m with
    | error f => rfl
    | ok units =>
      dsimp only [Except.mapError, bind, Except.bind]
      cases targetFiles target l.mapper defines m units l.table with
      | error f => rfl
      | ok files => rfl

/-! ## 3. Runs with the method and without it -/

/-- **A native method that is left out changes nothing**, if the classes that it takes by value are structs
anyway: a run stops at the same stage for the same reason as one without the declaration, or makes the same
files. -/
theorem outlinesResult_dropNative {store : Overlay.Store} {files : List OutlinedFile} {c : DeclaredClass}
    {d : Java.NativeDecl} (hd : ((classesOf files).map (·.name)).Nodup) (hskipped : Skipped store files c d)
    (htaken : ∀ x ∈ classesOf files, Takes d x →
      IsStruct store (classesOf (dropNative c.name d.name files)) x) :
    (∀ target e defines table, outlinesResult target e defines table store (dropNative c.name d.name files) =
      outlinesResult target e defines table store files) ∧
    ∀ (s : Settings) defines target tree tree',
      Outlines tree s.ignore target.sourceRoot files →
      Outlines tree' s.ignore target.sourceRoot (dropNative c.name d.name files) →
      load s tree' target store = load s tree target store →
      planResult (plan s defines tree' target (.ok store)) =
        planResult (plan s defines tree target (.ok store)) := by
  have hmodels := modelOf_dropNative hd hskipped htaken
  refine ⟨fun target e defines table => outlinesResult_congr target e defines table hmodels, ?_⟩
  intro s defines target tree tree' hsources hsources' hload
  cases hl : load s tree target store with
  | error halt =>
    unfold plan
    dsimp only
    rw [hload, hl]
  | ok l =>
    rw [planResult_of_outlines hl hsources, planResult_of_outlines (hload.trans hl) hsources']
    exact outlinesResult_congr target l.mapper defines l.table hmodels

/-- A method that is left out. -/
def skippedMove : Java.NativeDecl :=
  ⟨"move", [⟨"p", "P", 6⟩], "void", ["native"], 6, some ⟨"/** @method flags=no_gen */", 5⟩⟩

/-- The outline of the class of the method. -/
def moverOutline : Java.ClassOutline :=
  { name := "OS", line := 4, fields := [], natives := [skippedMove, ⟨"beep", [], "void", ["native"], 7, none⟩] }

/-- A file with the class of the method and the class that the method takes. -/
def moverFiles (doc : Option Java.DocComment) : List OutlinedFile :=
  [ { path := ⟨.here, ["OS.java"]⟩
      outline :=
        { package := ""
          classes :=
            [ { name := "P", line := 1, natives := [], fields := [⟨"x", "int", 2, none⟩], doc },
              moverOutline ] } } ]

/-- The class of the method in this file. -/
def mover : DeclaredClass :=
  { place := (0, 1), path := ⟨.here, ["OS.java"]⟩, package := "", outline := moverOutline }

theorem skipped_mover (doc : Option Java.DocComment) : Skipped {} (moverFiles doc) mover skippedMove where
  declared := List.mem_cons_of_mem _ (List.mem_singleton_self mover)
  alone := by decide
  others := by decide
  marked := by
    have hread : ∃ inline ∈ (directivesOf mover.path skippedMove.doc).toOption,
        (askedFlags inline none).noGen = true := by
      decide +kernel
    obtain ⟨inline, hinline, hmarked⟩ := hread
    exact ⟨inline, ok_of_toOption hinline, hmarked⟩

/-- A doc comment that makes a class stand for a struct. -/
def structDoc : Java.DocComment := ⟨"/** @struct */", 1⟩

theorem outlinesResult_structDoc :
    Skipped {} (moverFiles (some structDoc)) mover skippedMove ∧
      ∃ made, outlinesResult plainTarget plainMapper [] {} {} (moverFiles (some structDoc)) = .ok made ∧
        outlinesResult plainTarget plainMapper [] {} {}
          (dropNative "OS" "move" (moverFiles (some structDoc))) = .ok made := by
  have hmade : ∃ made ∈ (outlinesResult plainTarget plainMapper [] {} {}
      (moverFiles (some structDoc))).toOption, made.length = 7 := by
    decide +kernel
  obtain ⟨made, hmade, -⟩ := hmade
  have htagged : ∀ x ∈ classesOf (moverFiles (some structDoc)),
      x.outline.fields.isEmpty = true ∨ (heard x).directives.struct.isSome = true := by
    decide +kernel
  have hskipped := skipped_mover (some structDoc)
  have hsame := (outlinesResult_dropNative (by decide) hskipped fun x hx htakes =>
    .tagged ((htagged x hx).resolve_left fun hnone => htakes.1 (List.isEmpty_iff.1 hnone))).1
      plainTarget plainMapper [] {}
  exact ⟨hskipped, made, ok_of_toOption hmade, hsame.trans (ok_of_toOption hmade)⟩

/-- **A method that is left out makes a struct of a class**: of a class with fields that no other method takes
there are struct files, and without the declaration there are none. -/
theorem structFiles_moverFiles :
    ((classesOf (moverFiles none)).map (·.name)).Nodup ∧ Skipped {} (moverFiles none) mover skippedMove ∧
      ∃ made ∈ (outlinesResult plainTarget plainMapper [] {} {} (moverFiles none)).toOption,
        ∃ rest ∈ (outlinesResult plainTarget plainMapper [] {} {}
          (dropNative "OS" "move" (moverFiles none))).toOption,
          "p_structs.h" ∈ made.map (·.relativePath) ∧ "p_structs.h" ∉ rest.map (·.relativePath) :=
  ⟨by decide, skipped_mover none, by decide +kernel⟩

end NativeGlue.Run
