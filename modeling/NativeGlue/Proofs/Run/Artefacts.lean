import Mathlib.Data.List.Basic
import Mathlib.Data.List.Nodup
import Mathlib.Data.List.Perm.Basic
import NativeGlue.Output
import NativeGlue.Proofs.Run.Planned
import NativeGlue.Proofs.Text.Capitals
import NativeGlue.Proofs.Text.Occurrence

/-!
# The files of a target

Every generated file is named by a stem and an ending: the class of a unit in lower case, the same with
a mark for structs, or the name of the statistics with theirs. So two files share a name exactly if two
stems meet, and the stems of structs and of statistics never do (`nodup_relativePaths_iff`).
-/

namespace NativeGlue.Run

open NativeGlue.Code NativeGlue.Text

/-! ## 1. Stems -/

/-- The stem of the header and source of a unit's native methods, if it has any. -/
def nativeStem? (u : ClassUnit) : Option String :=
  if u.natives.isEmpty then none else some (fileStem u.className)

/-- The stem of the header and source of a unit's structs before the mark, if it has any. -/
def structStem? (u : ClassUnit) : Option String :=
  if (u.structs.filter (·.generated)).isEmpty then none else some (fileStem u.className)

/-- The stems of the units that have native methods. -/
def nativeStems (m : Model) : List String := m.units.filterMap nativeStem?

/-- The stems of the units that stand for structs, before the mark. -/
def structStems (m : Model) : List String := m.units.filterMap structStem?

/-- The stems of a unit. -/
def unitStems (u : ClassUnit) : List String :=
  (nativeStem? u).toList ++ (structStem? u).toList.map (· ++ "_structs")

theorem mem_unitStems {u : ClassUnit} {s : String} (h : s ∈ unitStems u) :
    s = fileStem u.className ∨ s = fileStem u.className ++ "_structs" := by
  rcases List.mem_append.1 h with h | h
  · unfold nativeStem? at h
    split at h
    · cases h
    · exact .inl (List.mem_singleton.1 h)
  · unfold structStem? at h
    split at h
    · cases h
    · exact .inr (List.mem_singleton.1 h)

/-- The header and the source of a stem. -/
def headerAndSource (stem : String) : List String := [stem ++ ".h", stem ++ ".c"]

/-- No two files share a name: no classes differ in case only, and no class is named like the structs
of another one or like the statistics. -/
structure Apart (m : Model) (statsName : String) : Prop where
  natives : (nativeStems m).Nodup
  structs : (structStems m).Nodup
  marked : ∀ s ∈ structStems m, s ++ "_structs" ∉ nativeStems m
  stats : statsName ++ "_stats" ∉ nativeStems m

/-- The files that are made of a model for a target. -/
def FilesOf (target : Target) (m : Model) (files : List OutputFile) : Prop :=
  ∃ e defines units table, mapUnits e m = .ok units ∧
    targetFiles target e defines m units table = .ok files

/-- The files of a plan are made of its model. -/
theorem filesOf_plan {s : Settings} {defines : List (String × String)} {tree : FileTree}
    {target : Target} {store : Except Overlay.Fault Overlay.Store} {p : Plan}
    (h : plan s defines tree target store = .ok p) : FilesOf target p.model p.files := by
  obtain ⟨_, mapper, table, units, -, -, -, -, hunits, hfiles, -⟩ := plan_eq_ok_iff.1 h
  exact ⟨mapper, defines, units, table, hunits, hfiles⟩

/-! ## 2. Names -/

/-- The struct headers that methods need are those of their parameters. -/
theorem mem_structHeaders {ms : List Mapping.CallMapping} {x : String} : x ∈ structHeaders ms ↔
    ∃ c ∈ ms, ∃ p ∈ c.method.parameters, p.type.kind = .struct ∧
      fileStem p.type.name ++ "_structs.h" = x := by
  simp only [structHeaders, List.mem_mergeSort, List.mem_eraseDups, List.mem_flatMap, List.mem_map,
    List.mem_filter, beq_iff_eq, and_assoc]

theorem relativePaths_nativesFiles (statsName : String) {u : ClassUnit}
    {ms : List Mapping.CallMapping} (h : ms.isEmpty = u.natives.isEmpty) :
    (nativesFiles statsName u ms).map (·.relativePath) =
      (nativeStem? u).toList.flatMap headerAndSource := by
  unfold nativesFiles nativeStem?
  rw [h]
  split
  · rfl
  · rfl

theorem relativePaths_structsFiles {e : Mapping.Mapper} {defines : List (String × String)}
    {u : ClassUnit} {files : List OutputFile} (h : structsFiles e defines u = .ok files) :
    files.map (·.relativePath) =
      ((structStem? u).toList.map (· ++ "_structs")).flatMap headerAndSource := by
  unfold structsFiles at h
  unfold structStem?
  dsimp only at h
  split at h
  · rename_i hnone
    cases h
    rw [if_pos hnone]
    rfl
  · rename_i hsome
    obtain ⟨rendered, -, h⟩ := ok_of_bind h
    cases h
    rw [if_neg hsome]
    have hh : ("_structs.h" : String) = "_structs" ++ ".h" := rfl
    have hc : ("_structs.c" : String) = "_structs" ++ ".c" := rfl
    rw [hh, hc, ← String.append_assoc, ← String.append_assoc]
    rfl

theorem relativePaths_statsFiles (statsName : String) (m : Model) (table : Statistics) :
    (statsFiles statsName m table).map (·.relativePath) =
      headerAndSource (statsName ++ "_stats") ++ [tableFile statsName] := by
  have hh : ("_stats.h" : String) = "_stats" ++ ".h" := rfl
  have hc : ("_stats.c" : String) = "_stats" ++ ".c" := rfl
  unfold statsFiles
  rw [hh, hc, ← String.append_assoc, ← String.append_assoc]
  rfl

theorem relativePaths_unitFiles {target : Target} {e : Mapping.Mapper}
    {defines : List (String × String)} {u : MappedUnit} {files : List OutputFile}
    (hl : u.1.natives.length = u.2.length) (h : unitFiles target e defines u = .ok files) :
    files.map (·.relativePath) = (unitStems u.1).flatMap headerAndSource := by
  obtain ⟨structs, hstructs, h⟩ := ok_of_bind h
  cases h
  have hempty : u.2.isEmpty = u.1.natives.isEmpty := by
    rw [Bool.eq_iff_iff, List.isEmpty_iff_length_eq_zero, List.isEmpty_iff_length_eq_zero]
    omega
  rw [List.map_append, relativePaths_structsFiles hstructs, relativePaths_nativesFiles _ hempty,
    unitStems, List.flatMap_append]

theorem relativePaths_unitsFiles {target : Target} {e : Mapping.Mapper}
    {defines : List (String × String)} {us : List ClassUnit} {units : List MappedUnit}
    {parts : List (List OutputFile)}
    (hunits : List.Forall₂ (fun u v => u = v.1 ∧ u.natives.length = v.2.length) us units)
    (hparts : List.Forall₂ (fun v files => unitFiles target e defines v = .ok files) units parts) :
    parts.flatten.map (·.relativePath) = (us.flatMap unitStems).flatMap headerAndSource := by
  induction hunits generalizing parts with
  | nil =>
    cases hparts
    rfl
  | cons hmapped _ ih =>
    cases hparts with
    | cons hfiles hrest =>
      obtain ⟨rfl, hl⟩ := hmapped
      rw [List.flatten_cons, List.map_append, ih hrest, List.flatMap_cons, List.flatMap_append,
        relativePaths_unitFiles hl hfiles]

/-- The names of all files, in order. -/
theorem relativePaths_of_filesOf {target : Target} {m : Model} {files : List OutputFile}
    (h : FilesOf target m files) :
    files.map (·.relativePath) =
      (m.units.flatMap unitStems ++ [target.statsName ++ "_stats"]).flatMap headerAndSource ++
        [tableFile target.statsName] := by
  obtain ⟨e, defines, units, table, hunits, hfiles⟩ := h
  obtain ⟨parts, hparts, -, rfl⟩ := targetFiles_eq_ok_iff.1 hfiles
  have hmapped : List.Forall₂ (fun u v => u = v.1 ∧ u.natives.length = v.2.length) m.units units := by
    refine (forall₂_of_mapM hunits).imp fun u v h => ?_
    obtain ⟨ms, hms, h⟩ := ok_of_bind h
    cases h
    exact ⟨rfl, (forall₂_of_mapM hms).length_eq⟩
  rw [List.map_append, relativePaths_statsFiles,
    relativePaths_unitsFiles hmapped (forall₂_of_mapM hparts), List.flatMap_append,
    List.flatMap_singleton, List.append_assoc]

/-! ## 3. Distinct names -/

/-- Texts whose last pieces are equally long are the same piece by piece. -/
theorem eq_of_append {s t a b : String} (h : s ++ a = t ++ b)
    (hl : a.toList.length = b.toList.length) : s = t ∧ a = b := by
  have h := congrArg String.toList h
  rw [String.toList_append, String.toList_append] at h
  obtain ⟨hs, ha⟩ := List.append_inj' h hl
  exact ⟨String.toList_injective hs, String.toList_injective ha⟩

theorem mem_headerAndSource {stem path : String} :
    path ∈ headerAndSource stem ↔ path = stem ++ ".h" ∨ path = stem ++ ".c" := by
  rw [headerAndSource, List.mem_cons, List.mem_singleton]

/-- The two endings, which are equally long and not the same. -/
theorem endings :
    (".h" : String).toList.length = (".c" : String).toList.length ∧ (".h" : String) ≠ ".c" := by
  decide

/-- Stems that share a file are the same. -/
theorem disjoint_headerAndSource {s t : String} :
    (headerAndSource s).Disjoint (headerAndSource t) ↔ s ≠ t := by
  obtain ⟨hl, hends⟩ := endings
  constructor
  · rintro h rfl
    exact h (mem_headerAndSource.2 (.inl rfl)) (mem_headerAndSource.2 (.inl rfl))
  · intro hne p hp hq
    rcases mem_headerAndSource.1 hp with rfl | rfl
    · rcases mem_headerAndSource.1 hq with h | h
      · exact hne (eq_of_append h rfl).1
      · exact hends (eq_of_append h hl).2
    · rcases mem_headerAndSource.1 hq with h | h
      · exact hends (eq_of_append h hl.symm).2.symm
      · exact hne (eq_of_append h rfl).1

theorem nodup_headerAndSource (s : String) : (headerAndSource s).Nodup := by
  obtain ⟨hl, hends⟩ := endings
  rw [headerAndSource, List.nodup_cons]
  refine ⟨fun h => ?_, List.nodup_singleton _⟩
  exact hends (eq_of_append (List.mem_singleton.1 h) hl).2

/-- The table is named like no header and no source. -/
theorem not_mem_headerAndSource (stem statsName : String) :
    tableFile statsName ∉ headerAndSource stem := by
  have htable : ("_stats.json" : String) = "_stats.jso" ++ "n" := rfl
  have hheader : (".h" : String) = "." ++ "h" := rfl
  have hsource : (".c" : String) = "." ++ "c" := rfl
  rw [mem_headerAndSource, tableFile, htable, hheader, hsource, ← String.append_assoc,
    ← String.append_assoc, ← String.append_assoc]
  rintro (h | h)
  · exact absurd (eq_of_append h (by decide)).2 (by decide)
  · exact absurd (eq_of_append h (by decide)).2 (by decide)

theorem nodup_files {stems : List String} {statsName : String} :
    (stems.flatMap headerAndSource ++ [tableFile statsName]).Nodup ↔ stems.Nodup := by
  rw [List.nodup_append, List.nodup_flatMap]
  constructor
  · rintro ⟨⟨-, h⟩, -⟩
    exact h.imp fun h => disjoint_headerAndSource.1 h
  · intro h
    refine ⟨⟨fun s _ => nodup_headerAndSource s, h.imp fun h => disjoint_headerAndSource.2 h⟩,
      List.nodup_singleton _, fun p hp q hq hpq => ?_⟩
    obtain ⟨s, -, hp⟩ := List.mem_flatMap.1 hp
    rw [hpq, List.mem_singleton.1 hq] at hp
    exact not_mem_headerAndSource s statsName hp

/-- The stems of structs and of statistics end differently. -/
theorem marked_ne_stats (s t : String) : s ++ "_structs" ≠ t ++ "_stats" := by
  have hstructs : ("_structs" : String) = "_s" ++ "tructs" := rfl
  rw [hstructs, ← String.append_assoc]
  intro h
  exact absurd (eq_of_append h (by decide)).2 (by decide)

/-- The stems of all files are distinct exactly if the files are apart. -/
theorem nodup_stems_iff {m : Model} {statsName : String} :
    (m.units.flatMap unitStems ++ [statsName ++ "_stats"]).Nodup ↔ Apart m statsName := by
  have hperm : (m.units.flatMap unitStems).Perm
      (nativeStems m ++ (structStems m).map (· ++ "_structs")) := by
    rw [nativeStems, structStems, List.filterMap_eq_flatMap_toList, List.filterMap_eq_flatMap_toList,
      List.map_flatMap]
    exact (List.flatMap_append_perm _ _ _).symm
  have hmarked : Function.Injective fun s : String => s ++ "_structs" :=
    fun s t h => (eq_of_append h rfl).1
  rw [(hperm.append_right _).nodup_iff, List.nodup_append, List.nodup_append,
    List.nodup_map_iff hmarked]
  constructor
  · rintro ⟨⟨hn, hs, hcross⟩, -, hstats⟩
    refine ⟨hn, hs, fun s hs' hm => ?_, fun hm => ?_⟩
    · exact hcross _ hm _ (List.mem_map_of_mem hs') rfl
    · exact hstats _ (List.mem_append_left _ hm) _ (List.mem_singleton_self _) rfl
  · rintro ⟨hn, hs, hcross, hstats⟩
    refine ⟨⟨hn, hs, fun a ha b hb hab => ?_⟩, List.nodup_singleton _, fun a ha b hb hab => ?_⟩
    · obtain ⟨s, hs', rfl⟩ := List.mem_map.1 hb
      exact hcross s hs' (hab ▸ ha)
    · rw [List.mem_singleton.1 hb] at hab
      rcases List.mem_append.1 ha with ha | ha
      · exact hstats (hab ▸ ha)
      · obtain ⟨s, -, hs'⟩ := List.mem_map.1 ha
        exact marked_ne_stats s statsName (hs'.trans hab)

/-! ## 4. Distinct places -/

/-- A text without slashes is a path of one name. -/
theorem ofString_name {s : String} (hs : '/' ∉ s.toList) (hne : s ≠ "") (hdot : s ≠ ".") :
    Path.ofString s = ⟨.here, [s]⟩ := by
  have hanchor : Path.anchorOf s.toList = .here := by
    unfold Path.anchorOf
    split
    · rename_i h
      exact absurd (h ▸ List.mem_cons_self) hs
    · rename_i h
      exact absurd (h ▸ List.mem_cons_self) hs
    · rename_i h
      exact absurd (h ▸ List.mem_cons_self) hs
    · rfl
  rw [Path.ofString, hanchor, splitAt_of_not_mem hs, List.filter_singleton, bne_iff_ne.2 hne,
    bne_iff_ne.2 hdot]
  rfl

/-- A name of a file that is one name of a path: it holds no slash and more than one character. -/
def OneName (s : String) : Prop := '/' ∉ s.toList ∧ 1 < s.toList.length

theorem ofString_of_oneName {s : String} (h : OneName s) : Path.ofString s = ⟨.here, [s]⟩ := by
  obtain ⟨hslash, hlong⟩ := h
  have hshort : ∀ t : String, t.toList.length ≤ 1 → s ≠ t := by
    rintro t ht rfl
    omega
  exact ofString_name hslash (hshort "" (by decide)) (hshort "." (by decide))

/-- Files whose names are distinct and of one name each have places of their own. -/
theorem nodup_places {files : List OutputFile} (h : (files.map (·.relativePath)).Nodup)
    (hs : ∀ s ∈ files.map (·.relativePath), OneName s) (directory : Path) :
    (files.map (Output.placeOf directory)).Nodup := by
  have hplace : files.map (Output.placeOf directory) =
      (files.map (·.relativePath)).map fun s => (⟨directory.anchor, directory.parts ++ [s]⟩ : Path) := by
    rw [List.map_map]
    refine List.map_congr_left fun g hg => ?_
    rw [Output.placeOf, ofString_of_oneName (hs _ (List.mem_map_of_mem hg))]
    rfl
  rw [hplace]
  refine h.map fun s t hst => ?_
  exact (List.cons.inj (List.append_cancel_left (Path.mk.inj hst).2)).1

/-- A text of two pieces without slashes, the second of which is not short, is one name. -/
theorem oneName_append {s t : String} (hs : '/' ∉ s.toList) (ht : OneName t) : OneName (s ++ t) := by
  rw [OneName, String.toList_append, List.length_append, List.mem_append]
  exact ⟨not_or.2 ⟨hs, ht.1⟩, by have := ht.2; omega⟩

/-- Names without slashes have stems without slashes. -/
theorem slash_not_mem_fileStem {name : String} (h : '/' ∉ name.toList) :
    '/' ∉ (fileStem name).toList := by
  intro hm
  rcases code_of_mem_lower hm with hm | hm
  · exact h hm
  · exact absurd hm (by decide)

/-- The names of all files are one name each if those of the classes and of the statistics hold no
slash. -/
theorem oneName_of_filesOf {target : Target} {m : Model} {files : List OutputFile}
    (h : FilesOf target m files) (hclasses : ∀ u ∈ m.units, '/' ∉ u.className.toList)
    (hstats : '/' ∉ target.statsName.toList) : ∀ s ∈ files.map (·.relativePath), OneName s := by
  have endings : OneName ".h" ∧ OneName ".c" ∧ OneName "_stats.json" ∧ OneName "_structs" ∧
      OneName "_stats" := by
    refine ⟨?_, ?_, ?_, ?_, ?_⟩ <;> exact ⟨by decide, by decide⟩
  obtain ⟨hh, hc, htable, hmark, hcounters⟩ := endings
  have both : ∀ stem s : String, '/' ∉ stem.toList → s ∈ headerAndSource stem → OneName s := by
    intro stem s hstem hs
    rcases mem_headerAndSource.1 hs with rfl | rfl
    · exact oneName_append hstem hh
    · exact oneName_append hstem hc
  intro s hs
  rw [relativePaths_of_filesOf h, List.mem_append, List.mem_flatMap, List.mem_singleton] at hs
  rcases hs with ⟨stem, hstem, hs⟩ | rfl
  · refine both stem s ?_ hs
    rcases List.mem_append.1 hstem with hstem | hstem
    · obtain ⟨u, hu, hstem⟩ := List.mem_flatMap.1 hstem
      have hname := slash_not_mem_fileStem (hclasses u hu)
      rcases mem_unitStems hstem with rfl | rfl
      · exact hname
      · exact (oneName_append hname hmark).1
    · rw [List.mem_singleton.1 hstem]
      exact (oneName_append hstats hcounters).1
  · exact oneName_append hstats htable

/-! ## 5. The files of a run -/

/-- **The files of a target have names of their own exactly if they are apart**: no two classes with
native methods differ in case only, no two struct classes do, and no class with native methods is named
like the structs of another class or like the statistics. If no name holds a slash, the files then have
places of their own in every directory. -/
theorem nodup_relativePaths_iff {target : Target} {m : Model} {files : List OutputFile}
    (h : FilesOf target m files) :
    ((files.map (·.relativePath)).Nodup ↔ Apart m target.statsName) ∧
      (Apart m target.statsName → (∀ u ∈ m.units, '/' ∉ u.className.toList) →
        '/' ∉ target.statsName.toList → ∀ directory, (files.map (Output.placeOf directory)).Nodup) := by
  have hnames : (files.map (·.relativePath)).Nodup ↔ Apart m target.statsName := by
    rw [relativePaths_of_filesOf h, nodup_files, nodup_stems_iff]
  exact ⟨hnames, fun hapart hclasses hstats =>
    nodup_places (hnames.2 hapart) (oneName_of_filesOf h hclasses hstats)⟩

/-- Two files: one with a struct class and a class with a native method, and one with another class. -/
def pairFiles (name : String) : List Source.OutlinedFile :=
  [ { path := ⟨.here, ["OS.java"]⟩
      outline :=
        { package := ""
          classes :=
            [ { name := "Point", line := 1, natives := [], fields := [⟨"x", "int", 2, none⟩],
                doc := some ⟨"/** @struct */", 1⟩ },
              { name := "OS", line := 4, fields := []
                natives := [⟨"move", [⟨"x", "int", 5⟩], "void", ["native"], 5, none⟩] } ] } },
    { path := ⟨.here, [name ++ ".java"]⟩
      outline :=
        { package := ""
          classes :=
            [ { name, line := 1, fields := []
                natives := [⟨"beep", [], "void", ["native"], 2, none⟩] } ] } } ]

/-- A target with the usual settings. -/
def plainTarget : Target :=
  { platform := "gtk", outputDir := ⟨.here, ["out"]⟩, sourceRoot := ⟨.here, ["src"]⟩ }

/-- Three classes that are apart. -/
theorem nodup_relativePaths_pairFiles : ∃ m files, Source.modelOf {} (pairFiles "Bell") = .ok m ∧
    FilesOf plainTarget m files ∧ files.length = 9 ∧ Apart m plainTarget.statsName ∧
    ∀ directory, (files.map (Output.placeOf directory)).Nodup := by
  have hbuilt : ∃ m ∈ (Source.modelOf {} (pairFiles "Bell")).toOption,
      ∃ units ∈ (mapUnits ⟨"gtk", 64, 8, Mapping.standardRules⟩ m).toOption,
      ∃ files ∈ (targetFiles plainTarget ⟨"gtk", 64, 8, Mapping.standardRules⟩ [] m units {}).toOption,
        ((files.map (·.relativePath)).Nodup ∧ files.length = 9) ∧
          ∀ u ∈ m.units, '/' ∉ u.className.toList := by
    decide +kernel
  obtain ⟨m, hm, units, hu, files, hf, ⟨hd, hl⟩, hslash⟩ := hbuilt
  have hfiles : FilesOf plainTarget m files := ⟨_, _, units, _, ok_of_toOption hu, ok_of_toOption hf⟩
  have hapart : Apart m plainTarget.statsName := (nodup_relativePaths_iff hfiles).1.1 hd
  exact ⟨m, files, ok_of_toOption hm, hfiles, hl, hapart,
    (nodup_relativePaths_iff hfiles).2 hapart hslash (by decide)⟩

/-- **Classes whose names differ in case only share their files.** -/
theorem shared_pairFiles : ∃ m files, Source.modelOf {} (pairFiles "Os") = .ok m ∧
    ((pairFiles "Os").flatMap fun f => f.outline.classes.map (·.name)).Nodup ∧
    FilesOf plainTarget m files ∧ ¬(files.map (·.relativePath)).Nodup := by
  have hbuilt : ∃ m ∈ (Source.modelOf {} (pairFiles "Os")).toOption,
      ∃ units ∈ (mapUnits ⟨"gtk", 64, 8, Mapping.standardRules⟩ m).toOption,
      ∃ files ∈ (targetFiles plainTarget ⟨"gtk", 64, 8, Mapping.standardRules⟩ [] m units {}).toOption,
        ¬(files.map (·.relativePath)).Nodup := by
    decide +kernel
  obtain ⟨m, hm, units, hu, files, hf, hd⟩ := hbuilt
  exact ⟨m, files, ok_of_toOption hm, by decide,
    ⟨_, _, units, _, ok_of_toOption hu, ok_of_toOption hf⟩, hd⟩

end NativeGlue.Run
