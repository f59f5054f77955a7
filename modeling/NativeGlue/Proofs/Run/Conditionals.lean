import NativeGlue.Proofs.Code.BalancedMethods
import NativeGlue.Proofs.Code.BalancedStructs
import NativeGlue.Proofs.Run.Recorded
import NativeGlue.Proofs.Source.Spelling

/-!
# Conditionals in the files of a run

Every header and every source that a run makes under the standard rules has its conditionals balanced, as long as
the texts that come from outside the sources hold no number signs, and no line breaks but in fragments
(`balanced_files`). The names in a model are words, so nothing has to be said about the sources.
-/

namespace NativeGlue.Run

open NativeGlue.Code NativeGlue.Mapping NativeGlue.Text

/-! ## 1. Texts from outside -/

/-- The texts from outside are inert: the words of the target, the symbols of the platforms, and what is said about
the methods and struct classes of a model. -/
structure InertInputs (target : Target) (defines : List (String × String)) (m : Model) : Prop where
  platform : Inert target.platform
  statsName : Inert target.statsName
  defines : ∀ d ∈ defines, Inert d.2
  natives : ∀ n ∈ m.natives, InertMethod n
  structs : ∀ s ∈ m.structs, InertClass s

instance (target : Target) (defines : List (String × String)) (m : Model) :
    Decidable (InertInputs target defines m) :=
  decidable_of_iff (Inert target.platform ∧ Inert target.statsName ∧ (∀ d ∈ defines, Inert d.2) ∧
    (∀ n ∈ m.natives, InertMethod n) ∧ ∀ s ∈ m.structs, InertClass s)
    ⟨fun h => ⟨h.1, h.2.1, h.2.2.1, h.2.2.2.1, h.2.2.2.2⟩, fun h => ⟨h.1, h.2, h.3, h.4, h.5⟩⟩

/-- The lines of a file, none of which leaves a conditional open. -/
def EvenFile (f : OutputFile) : Prop := ∃ ls, f.content = fileText ls ∧ Even ls

theorem EvenFile.balanced {f : OutputFile} (h : EvenFile f) : Balanced (splitAt '\n' f.content) := by
  obtain ⟨ls, hls, heven⟩ := h
  rw [hls]
  exact balanced_fileText heven

/-! ## 2. The files of a unit -/

/-- The headers that the methods of a unit need are named after struct classes. -/
theorem inert_structHeaders {structs : List StructClass} (hs : ∀ s ∈ structs, InertNames s)
    {ns : List NativeMethod} {ms : List CallMapping} (h : List.Forall₂ (MethodMapped structs) ns ms) :
    ∀ x ∈ structHeaders ms, Inert x := by
  intro x hx
  obtain ⟨m, hm, p, hp, hkind, rfl⟩ := mem_structHeaders.1 hx
  obtain ⟨n, -, hmapped⟩ := exists_of_mem_forall₂ h hm
  rw [hmapped.method] at hp
  obtain ⟨t, -, r, c, ht⟩ := exists_of_mem_forall₂ hmapped.parameters.flip hp
  obtain ⟨s, -, hfound⟩ := ht.named hkind
  obtain ⟨hmem, hname⟩ := of_structClassNamed? hfound
  rw [← hname]
  exact inert_append.2 ⟨inert_lower (hs s hmem).1, by decide⟩

theorem evenFile_of_nativesFiles {structs : List StructClass} (hs : ∀ s ∈ structs, InertNames s)
    {statsName : String} (hstats : Inert statsName) {u : ClassUnit} (hu : u.Spelled)
    (hn : ∀ n ∈ u.natives, InertMethod n) {ms : List CallMapping}
    (h : List.Forall₂ (MethodMapped structs) u.natives ms) :
    ∀ f ∈ nativesFiles statsName u ms, EvenFile f := by
  have hfunctions : ∀ g ∈ ms.map (nativeFunction (statsPrefix statsName) u.package), EvenFunction g := by
    intro g hg
    obtain ⟨m, hm, rfl⟩ := List.mem_map.1 hg
    obtain ⟨n, hmem, hmapped⟩ := exists_of_mem_forall₂ h hm
    refine evenFunction_nativeFunction _ (inert_statsPrefix statsName)
      (inertCall_of_methodMapped hmapped hs (hn n hmem)) ?_
    rw [hmapped.method]
    exact hu.natives n hmem
  intro f hf
  unfold nativesFiles at hf
  split at hf
  · cases hf
  · rcases List.mem_cons.1 hf with rfl | hf
    · exact ⟨_, rfl, even_nativesHeader hu.className hfunctions⟩
    · rw [List.mem_singleton.1 hf]
      exact ⟨_, rfl, even_nativesSource hu hstats (inert_structHeaders hs h) hfunctions⟩

theorem evenFile_of_structsFiles {e : Mapper} (he : e.rules = standardRules) (hplatform : Inert e.platform)
    {defines : List (String × String)} (hd : ∀ d ∈ defines, Inert d.2) {u : ClassUnit} (hu : u.Spelled)
    (hs : ∀ s ∈ u.structs, InertClass s) {files : List OutputFile} (h : structsFiles e defines u = .ok files) :
    ∀ f ∈ files, EvenFile f := by
  unfold structsFiles at h
  dsimp only at h
  split at h
  · cases h
    exact nofun
  · obtain ⟨rendered, hrendered, h⟩ := ok_of_bind h
    cases h
    have hinert : ∀ r ∈ rendered, InertRendered r := by
      intro r hr
      obtain ⟨s, hmem, hsr⟩ := exists_of_mem_forall₂ (forall₂_of_mapM hrendered) hr
      have hmem := List.mem_of_mem_filter hmem
      exact inertRendered_of_renderStruct he (fun d hmem => (hd d hmem).unbroken) (hs s hmem).writable
        (hu.structs s hmem) hsr
    intro f hf
    rcases List.mem_cons.1 hf with rfl | hf
    · exact ⟨_, rfl, even_structsHeader hplatform hu.className hinert⟩
    · rw [List.mem_singleton.1 hf]
      exact ⟨_, rfl, even_structsSource hu.className hinert⟩

/-! ## 3. All files -/

/-- The files of the statistics, beside the table. -/
theorem evenFile_of_statsFiles {statsName : String} (hstats : Inert statsName) (m : Model) (table : Statistics)
    {f : OutputFile} (hf : f ∈ statsFiles statsName m table) (hne : f.relativePath ≠ tableFile statsName) :
    EvenFile f := by
  have hprefix : Inert (statsPrefix statsName) := inert_statsPrefix statsName
  have hentries : ∀ e ∈ statsEntries m (statsTable m table), Inert e.symbol := by
    intro e he
    obtain ⟨x, hx, rfl⟩ := List.mem_map.1 he
    obtain ⟨n, -, -, hn⟩ := exists_native_of_mem_statsSymbols (Prod.eta x ▸ hx)
    exact hn ▸ inert_methodSymbol n
  rw [statsFiles_eq, List.mem_cons, List.mem_cons, List.mem_singleton] at hf
  rcases hf with rfl | rfl | rfl
  · exact ⟨_, rfl, even_statsHeader hprefix _ hentries⟩
  · exact ⟨_, rfl, even_statsSource hstats hprefix _ hentries⟩
  · exact absurd rfl hne

/-- The name of the table does not end like that of a header or a source. -/
theorem endsWith_tableFile (statsName : String) :
    endsWith (tableFile statsName) ".h" = false ∧ endsWith (tableFile statsName) ".c" = false := by
  have hlast : ∀ ending : String, ending.toList.getLast? ≠ some 'n' → ending ≠ "" →
      endsWith (tableFile statsName) ending = false := by
    intro ending hn hne
    refine Bool.eq_false_iff.2 fun h => hn ?_
    obtain ⟨before, hb⟩ := List.isSuffixOf_iff_suffix.1 h
    have htable : (tableFile statsName).toList.getLast? = some 'n' := by
      rw [tableFile, String.toList_append, List.getLast?_append]
      rfl
    rwa [← hb, List.getLast?_append_of_ne_nil _ fun hnil => hne (String.toList_injective hnil)] at htable
  exact ⟨hlast ".h" (by decide) (by decide), hlast ".c" (by decide) (by decide)⟩

/-- The files that are made of a model whose names are words. -/
theorem evenFile_of_targetFiles {target : Target} {e : Mapper} (he : e.rules = standardRules)
    (hplatform : e.platform = target.platform) {defines : List (String × String)} {m : Model}
    (hm : ∀ u ∈ m.units, u.Spelled) (hinert : InertInputs target defines m) {units : List MappedUnit}
    (hunits : mapUnits e m = .ok units) {table : Statistics} {files : List OutputFile}
    (hfiles : targetFiles target e defines m units table = .ok files) {f : OutputFile} (hf : f ∈ files)
    (hne : f.relativePath ≠ tableFile target.statsName) : EvenFile f := by
  obtain ⟨parts, hparts, -, rfl⟩ := targetFiles_eq_ok_iff.1 hfiles
  have hnames : ∀ s ∈ m.structs.filter (·.generated), InertNames s := by
    intro s hs
    have hs := List.mem_of_mem_filter hs
    obtain ⟨u, hu, hsu⟩ := List.mem_flatMap.1 hs
    exact ⟨inert_of_word ((hm u hu).structs s hsu).name, (hinert.structs s hs).nativeName⟩
  rcases List.mem_append.1 hf with hf | hf
  · obtain ⟨part, hpart, hf⟩ := List.mem_flatten.1 hf
    obtain ⟨v, hv, hpart⟩ := exists_of_mem_forall₂ (forall₂_of_mapM hparts) hpart
    obtain ⟨u, hu, hmapped⟩ := exists_of_mem_forall₂ (forall₂_of_mapM hunits) hv
    obtain ⟨ms, hms, hmapped⟩ := ok_of_bind hmapped
    cases hmapped
    obtain ⟨structs, hstructs, hpart⟩ := ok_of_bind hpart
    cases hpart
    rcases List.mem_append.1 hf with hf | hf
    · have hcalls := (forall₂_of_mapM hms).imp fun n c h => methodMapped he h
      exact evenFile_of_nativesFiles hnames hinert.statsName (hm u hu)
        (fun n hn => hinert.natives n (List.mem_flatMap_of_mem hu hn)) hcalls f hf
    · exact evenFile_of_structsFiles he (hplatform ▸ hinert.platform) hinert.defines (hm u hu)
        (fun s hs => hinert.structs s (List.mem_flatMap_of_mem hu hs)) hstructs f hf
  · exact evenFile_of_statsFiles hinert.statsName m table hf hne

/-- Every header and every source among files has its conditionals balanced. -/
def BalancedFiles (files : List OutputFile) : Prop :=
  ∀ f ∈ files, endsWith f.relativePath ".h" = true ∨ endsWith f.relativePath ".c" = true →
    Balanced (splitAt '\n' f.content)

theorem balancedFiles_of_spelled {target : Target} {defines : List (String × String)} {m : Model}
    (hinert : InertInputs target defines m) {files : List OutputFile}
    (h : StandardFiles target defines m files) (hm : ∀ u ∈ m.units, u.Spelled) : BalancedFiles files := by
  obtain ⟨e, units, table, hmapper, hunits, hfiles⟩ := h
  have he := eq_of_ofRules hmapper
  intro f hf hcode
  have hne : f.relativePath ≠ tableFile target.statsName := by
    intro htable
    obtain ⟨hheader, hsource⟩ := endsWith_tableFile target.statsName
    rw [htable, hheader, hsource] at hcode
    simp at hcode
  exact (evenFile_of_targetFiles (congrArg Mapper.rules he) (congrArg Mapper.platform he) hm hinert hunits
    hfiles hf hne).balanced

/-- **The conditionals are balanced in every header and every source** that is made of a model under the standard
rules, if the texts from outside the sources are inert and the names in the model are words; and the names in a
model that is read from a directory are. -/
theorem balanced_files {target : Target} {defines : List (String × String)} {m : Model}
    (hinert : InertInputs target defines m) {files : List OutputFile}
    (h : StandardFiles target defines m files) :
    ((∀ u ∈ m.units, u.Spelled) → BalancedFiles files) ∧
      ∀ tree rules store root, Source.modelAt tree rules store root = .ok m → BalancedFiles files :=
  ⟨balancedFiles_of_spelled hinert h, fun _ _ _ _ hm =>
    balancedFiles_of_spelled hinert h (Source.spelled_of_modelAt hm)⟩

/-- A struct class with a field that is there on one platform only, and a method that takes it. -/
def paintingFiles : List Source.OutlinedFile :=
  [ { path := ⟨.here, ["OS.java"]⟩
      outline :=
        { package := "p"
          classes :=
            [ { name := "Point", line := 1, natives := []
                fields := [⟨"x", "int", 3, some ⟨"/** @field platform=gtk */", 2⟩⟩, ⟨"y", "int", 4, none⟩]
                doc := some ⟨"/** @struct */", 1⟩ },
              { name := "OS", line := 5, fields := []
                natives := [⟨"paint", [⟨"point", "Point", 6⟩], "int", ["native"], 6, none⟩] } ] } } ]

theorem balanced_paintingFiles : ∃ m files, Source.modelOf {} paintingFiles = .ok m ∧
    InertInputs plainTarget [("gtk", "GTK")] m ∧ StandardFiles plainTarget [("gtk", "GTK")] m files ∧
    files.length = 7 ∧ BalancedFiles files := by
  have hbuilt : ∃ m ∈ (Source.modelOf {} paintingFiles).toOption,
      ∃ e ∈ (Mapper.ofRules plainTarget standardRules).toOption, ∃ units ∈ (mapUnits e m).toOption,
      ∃ files ∈ (targetFiles plainTarget e [("gtk", "GTK")] m units {}).toOption, files.length = 7 ∧
        InertInputs plainTarget [("gtk", "GTK")] m := by
    decide +kernel
  obtain ⟨m, hm, e, he, units, hu, files, hf, hl, hinert⟩ := hbuilt
  have hm := ok_of_toOption hm
  have hfiles : StandardFiles plainTarget [("gtk", "GTK")] m files :=
    ⟨e, units, {}, ok_of_toOption he, ok_of_toOption hu, ok_of_toOption hf⟩
  obtain ⟨known, es, hfrom⟩ := Source.modelFrom_of_modelOf hm
  have hspelled := Source.spelled_of_modelFrom hfrom (by decide)
  exact ⟨m, files, hm, hinert, hfiles, hl, (balanced_files hinert hfiles).1 hspelled⟩

end NativeGlue.Run
