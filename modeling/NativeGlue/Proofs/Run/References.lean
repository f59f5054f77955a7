import NativeGlue.Proofs.Mapping.Structs
import NativeGlue.Proofs.Run.Artefacts
import NativeGlue.Proofs.Run.Constants

/-!
# What generated sources refer to

The source of a unit includes headers, calls the functions of struct classes and counts calls under constants, and
three parts of the program write what it refers to, each on its own. Under the standard rules every header that it
includes is made in the same run, the functions of a struct class are declared in one of them, and so are the
constants (`closed_standardFiles`). A constant is declared once where the symbols of native methods are different,
which is so for types that are written without comments; a comment may make two methods share a symbol
(`twice_clashingFiles`).
-/

namespace NativeGlue.Run

open NativeGlue.Code NativeGlue.Mapping NativeGlue.Text

/-! ## 1. Declared functions -/

/-- A file declares a function: the head of the function with a semicolon is a line of code that the file is made
of. -/
def Declares (f : OutputFile) (head : String) : Prop :=
  ∃ ls, f.content = fileText ls ∧ ∃ b : IndentedText, b.render ∈ ls ∧ Line.indented 0 (head ++ ";") ∈ b.lines

/-- What is written about fields comes behind what is there. -/
theorem lines_prefix_declarations (s : StructClass) (gs : List GeneratedField) (b : IndentedText) :
    b.lines <+: (gs.foldl (underCondition (declareAccessors s)) b).lines := by
  have pushed : ∀ (b : IndentedText) (l : Line), b.lines <+: (b.push l).lines := fun b l =>
    List.prefix_append _ _
  have declared : ∀ (b : IndentedText) (g : GeneratedField), b.lines <+: (declareAccessors s b g).lines := by
    intro b g
    unfold declareAccessors
    dsimp only
    split
    · exact (pushed b _).trans (pushed _ _)
    · exact pushed b _
  have conditional : ∀ (b : IndentedText) (g : GeneratedField),
      b.lines <+: (underCondition (declareAccessors s) b g).lines := by
    intro b g
    unfold underCondition openCondition closeCondition
    cases g.condition with
    | none => exact declared b g
    | some c => exact ((pushed b _).trans (declared _ g)).trans (pushed _ _)
  induction gs generalizing b with
  | nil => exact List.prefix_refl _
  | cons g gs ih => exact (conditional b g).trans (ih _)

/-- The functions that copy a whole struct are declared. -/
theorem heads_mem_declarations (s : StructClass) (gs : List GeneratedField) :
    Line.indented 0 (getHead s ++ ";") ∈ (declarations s gs).lines ∧
      Line.indented 0 (setHead s ++ ";") ∈ (declarations s gs).lines := by
  have hkept := lines_prefix_declarations s gs (IndentedText.addLines {} [cacheHead s ++ ";", getHead s ++ ";",
    setHead s ++ ";", s!"jint {s.name}_sizeof(void);"])
  rw [(IndentedText.lines_addLines _ _).1] at hkept
  refine ⟨hkept.subset ?_, hkept.subset ?_⟩
  · simp
  · simp

/-- **The struct header of a unit declares the functions of its struct classes.** -/
theorem declares_of_structsFiles {e : Mapper} {defines : List (String × String)} {u : ClassUnit}
    {files : List OutputFile} (h : structsFiles e defines u = .ok files) {s : StructClass}
    (hs : s ∈ u.structs.filter (·.generated)) :
    ∃ f ∈ files, f.relativePath = fileStem u.className ++ "_structs.h" ∧ Declares f (getHead s) ∧
      Declares f (setHead s) := by
  unfold structsFiles at h
  dsimp only at h
  split at h
  · rename_i hempty
    rw [List.isEmpty_iff.1 hempty] at hs
    cases hs
  obtain ⟨rendered, hrendered, h⟩ := ok_of_bind h
  cases h
  obtain ⟨r, hr, hsr⟩ := exists_of_mem_forall₂ (forall₂_of_mapM hrendered).flip hs
  have hstruct : r.struct = s := by
    obtain ⟨layout, -, hsr⟩ := ok_of_bind hsr
    obtain ⟨fields, -, hsr⟩ := ok_of_bind hsr
    dsimp only at hsr
    split at hsr
    · cases hsr
      rfl
    · exact (not_ok_throw hsr).elim
  have hcode : (declarations s r.fields).render ∈ structsHeader e u.className rendered := by
    unfold structsHeader
    refine List.mem_append_left _ (List.mem_append_right _ (List.mem_flatMap.2 ⟨r, hr, ?_⟩))
    unfold structHeaderPart
    rw [hstruct]
    exact List.mem_append_right _ List.mem_cons_self
  obtain ⟨hget, hset⟩ := heads_mem_declarations s r.fields
  exact ⟨_, List.mem_cons_self, rfl, ⟨_, rfl, _, hcode, hget⟩, ⟨_, rfl, _, hcode, hset⟩⟩

/-! ## 2. Closed sources -/

/-- The source of a unit refers to what the same run makes: the headers that it includes are made, one of them
declares the functions that carry a struct, and the header of the statistics declares the constants that it counts
calls under, each once if no method with another key has the symbol. -/
structure ClosedSource (target : Target) (m : Model) (files : List OutputFile) (u : ClassUnit)
    (ms : List CallMapping) (source : OutputFile) : Prop where
  mem : source ∈ files
  path : source.relativePath = fileStem u.className ++ ".c"
  content : source.content = fileText (nativesSource u target.statsName (structHeaders ms)
    (ms.map (nativeFunction (statsPrefix target.statsName) u.package)))
  methods : ms.map (·.method) = u.natives
  included : ∀ x ∈ [fileStem u.className ++ ".h", target.statsName ++ "_stats.h"] ++ structHeaders ms,
    ∃ f ∈ files, f.relativePath = x
  carried : ∀ c ∈ ms, ∀ x ∈ c.mapped, x.1.type.kind = .struct → ∃ s ∈ m.structs, CarriedBy s x.1 x.2 ∧
    ∃ f ∈ files, f.relativePath = fileStem s.name ++ "_structs.h" ∧ f.relativePath ∈ structHeaders ms ∧
      Declares f (getHead s) ∧ Declares f (setHead s)
  counted : ∃ f ∈ files, f.relativePath = target.statsName ++ "_stats.h" ∧
    ∀ c ∈ ms, ∀ stats symbol, .enter stats symbol ∈ statementsOf (statsPrefix target.statsName) c ∨
        .exit stats symbol ∈ statementsOf (statsPrefix target.statsName) c →
      0 < timesDeclared symbol f.content ∧ (timesDeclared symbol f.content = 1 ↔
        ∀ n ∈ m.natives, methodSymbol n = symbol → n.identity.key = c.method.identity.key)

/-- A body counts calls under the symbol of its method only. -/
theorem symbol_of_mem_statementsOf {pre stats symbol : String} {c : CallMapping}
    (h : .enter stats symbol ∈ statementsOf pre c ∨ .exit stats symbol ∈ statementsOf pre c) :
    symbol = methodSymbol c.method := by
  have hcall : .enter stats symbol ≠ callOrBody c ∧ .exit stats symbol ≠ callOrBody c := by
    unfold callOrBody
    split
    · exact ⟨nofun, nofun⟩
    · split
      · exact ⟨nofun, nofun⟩
      · exact ⟨nofun, nofun⟩
  obtain ⟨-, hsymbol⟩ : stats = pre ∧ symbol = methodSymbol c.method := by
    simpa [statementsOf, acquisitions, releases, hcall.1, hcall.2] using h
  exact hsymbol

/-- The header and the source of a unit that has native methods. -/
theorem mem_nativesFiles (statsName : String) (u : ClassUnit) {ms : List CallMapping} (h : ms ≠ []) :
    let functions := ms.map (nativeFunction (statsPrefix statsName) u.package)
    ⟨fileStem u.className ++ ".h", fileText (nativesHeader u functions)⟩ ∈ nativesFiles statsName u ms ∧
      ⟨fileStem u.className ++ ".c", fileText (nativesSource u statsName (structHeaders ms) functions)⟩ ∈
        nativesFiles statsName u ms := by
  unfold nativesFiles
  rw [if_neg (List.isEmpty_iff.not.2 h)]
  exact ⟨List.mem_cons_self, List.mem_cons_of_mem _ List.mem_cons_self⟩

/-- What is made of a unit: its methods are mapped, and the files of its methods and of its structs are written. -/
theorem exists_files_of_unit {target : Target} {e : Mapper} {defines : List (String × String)} {m : Model}
    {units : List MappedUnit} {parts : List (List OutputFile)} (hunits : mapUnits e m = .ok units)
    (hparts : units.mapM (unitFiles target e defines) = .ok parts) {u : ClassUnit} (hu : u ∈ m.units) :
    ∃ ms structs, u.natives.mapM (e.callMapping (m.structs.filter (·.generated))) = .ok ms ∧
      structsFiles e defines u = .ok structs ∧
      ∀ f ∈ nativesFiles target.statsName u ms ++ structs, f ∈ parts.flatten := by
  obtain ⟨v, hv, hmapped⟩ := exists_of_mem_forall₂ (forall₂_of_mapM hunits).flip hu
  obtain ⟨ms, hms, hmapped⟩ := ok_of_bind hmapped
  cases hmapped
  obtain ⟨part, hpart, hfiles⟩ := exists_of_mem_forall₂ (forall₂_of_mapM hparts).flip hv
  obtain ⟨structs, hstructs, hfiles⟩ := ok_of_bind hfiles
  cases hfiles
  exact ⟨ms, structs, hms, hstructs, fun f hf => List.mem_flatten.2 ⟨_, hpart, hf⟩⟩

section

variable {store : Overlay.Store} {sources : List Source.OutlinedFile}
  {known : List (String × Source.DeclaredClass)} {es : List Source.DeclaredClass} {m : Model}
  (h : Source.ModelFrom store sources known es m)

include h

/-- A struct class is in the unit that is named like it. -/
theorem exists_unit_of_struct {s : StructClass} (hs : s ∈ m.structs) :
    ∃ u ∈ m.units, s ∈ u.structs ∧ u.className = s.name := by
  obtain ⟨u, hu, hsu⟩ := List.mem_flatMap.1 hs
  obtain ⟨e, -, hue⟩ := exists_of_mem_forall₂ h.units hu
  exact ⟨u, hu, hsu, hue.className.trans (hue.structs s hsu).name.symm⟩

/-- A parameter that stands for a struct is no array. -/
theorem isArray_of_struct {n : NativeMethod} (hn : n ∈ m.natives) {p : Parameter} (hp : p ∈ n.parameters)
    (hkind : p.type.kind = .struct) : p.type.isArray = false := by
  obtain ⟨c, -, d, -, horigin, -, htypes⟩ := h.origin hn
  obtain ⟨x, hx⟩ := horigin.exists_mem_zip hp
  exact (structText_of_type (htypes _ hx) hkind).isArray

/-- **The functions of every struct class that code is generated for are declared.** -/
theorem exists_structHeader {target : Target} {e : Mapper} {defines : List (String × String)}
    {units : List MappedUnit} {parts : List (List OutputFile)} (hunits : mapUnits e m = .ok units)
    (hparts : units.mapM (unitFiles target e defines) = .ok parts) {s : StructClass}
    (hs : s ∈ m.structs.filter (·.generated)) :
    ∃ f ∈ parts.flatten, f.relativePath = fileStem s.name ++ "_structs.h" ∧ Declares f (getHead s) ∧
      Declares f (setHead s) := by
  obtain ⟨hs, hgenerated⟩ := List.mem_filter.1 hs
  obtain ⟨u, hu, hsu, hname⟩ := exists_unit_of_struct h hs
  obtain ⟨ms, structs, -, hstructs, hfiles⟩ := exists_files_of_unit hunits hparts hu
  obtain ⟨f, hf, hpath, hdeclares⟩ := declares_of_structsFiles hstructs (List.mem_filter.2 ⟨hsu, hgenerated⟩)
  exact ⟨f, hfiles f (List.mem_append_right _ hf), hname ▸ hpath, hdeclares⟩

/-- **A parameter that stands for a struct has a header**, the one that is named after its type. -/
theorem exists_header_of_mapped {target : Target} {e : Mapper} {defines : List (String × String)}
    {units : List MappedUnit} {parts : List (List OutputFile)}
    (hunits : mapUnits e m = .ok units) (hparts : units.mapM (unitFiles target e defines) = .ok parts)
    {n : NativeMethod} (hn : n ∈ m.natives) {c : CallMapping}
    (hc : MethodMapped (m.structs.filter (·.generated)) n c) {x : Parameter × ValueMapping}
    (hx : x ∈ c.mapped) (hkind : x.1.type.kind = .struct) :
    ∃ s ∈ m.structs, CarriedBy s x.1 x.2 ∧ s.name = x.1.type.name ∧
      ∃ f ∈ parts.flatten, f.relativePath = fileStem s.name ++ "_structs.h" ∧ Declares f (getHead s) ∧
        Declares f (setHead s) := by
  obtain ⟨hp, r, k, hmapped⟩ := hc.of_mem_mapped hx
  obtain ⟨s, hfound, hcarried⟩ := carriedBy_of_mapped hmapped hkind (isArray_of_struct h hn hp hkind)
  obtain ⟨hs, hname⟩ := of_structClassNamed? hfound
  exact ⟨s, List.mem_of_mem_filter hs, hcarried, hname, exists_structHeader h hunits hparts hs⟩

/-- The source of a unit with native methods is among the files, and refers to what they hold. -/
theorem closedSource_of_modelFrom (hf : ∀ f ∈ sources, f.outline.Spelled) {target : Target}
    {defines : List (String × String)} {files : List OutputFile} (hfiles : StandardFiles target defines m files)
    {u : ClassUnit} (hu : u ∈ m.units) (hne : u.natives ≠ []) :
    ∃ ms source, ClosedSource target m files u ms source := by
  obtain ⟨e, units, table, hmapper, hunits, hfiles⟩ := hfiles
  have he : e.rules = standardRules := congrArg Mapper.rules (eq_of_ofRules hmapper)
  obtain ⟨parts, hparts, -, rfl⟩ := targetFiles_eq_ok_iff.1 hfiles
  obtain ⟨ms, structs, hms, -, hunit⟩ := exists_files_of_unit hunits hparts hu
  have hcalls := (forall₂_of_mapM hms).imp fun n c hc => methodMapped he hc
  have hmethods : ms.map (·.method) = u.natives :=
    List.forall₂_eq_eq_eq ▸ (List.forall₂_map_left_iff.2 (hcalls.flip.imp fun c n hc => hc.method))
  have hmade : ms ≠ [] := by
    rintro rfl
    exact hne hmethods.symm
  have hown : ∀ f ∈ nativesFiles target.statsName u ms, f ∈ parts.flatten ++ statsFiles target.statsName m table :=
    fun f hmem => List.mem_append_left _ (hunit f (List.mem_append_left _ hmem))
  have hheader : ⟨target.statsName ++ "_stats.h", headerText target m table⟩ ∈
      parts.flatten ++ statsFiles target.statsName m table :=
    List.mem_append_right _ List.mem_cons_self
  have called : ∀ c ∈ ms, ∃ n ∈ m.natives, MethodMapped (m.structs.filter (·.generated)) n c := by
    intro c hc
    obtain ⟨n, hn, hnc⟩ := exists_of_mem_forall₂ hcalls hc
    exact ⟨n, List.mem_flatMap_of_mem hu hn, hnc⟩
  obtain ⟨hfirst, hsecond⟩ := mem_nativesFiles target.statsName u hmade
  refine ⟨ms, _, hown _ hsecond, rfl, rfl, hmethods, fun x hx => ?_, fun c hc x hx hkind => ?_, _, hheader, rfl,
    fun c hc stats symbol hsymbol => ?_⟩
  · rcases List.mem_append.1 hx with hx | hx
    · rcases List.mem_cons.1 hx with rfl | hx
      · exact ⟨_, hown _ hfirst, rfl⟩
      · exact ⟨_, hheader, (List.mem_singleton.1 hx).symm⟩
    · obtain ⟨c, hc, p, hp, hkind, rfl⟩ := mem_structHeaders.1 hx
      obtain ⟨n, hn, hnc⟩ := called c hc
      rw [hnc.method, ← hnc.map_fst_mapped] at hp
      obtain ⟨y, hy, rfl⟩ := List.mem_map.1 hp
      obtain ⟨s, -, -, hname, f, hmem, hpath, -⟩ := exists_header_of_mapped h hunits hparts hn hnc hy hkind
      exact ⟨f, List.mem_append_left _ hmem, hname ▸ hpath⟩
  · obtain ⟨n, hn, hnc⟩ := called c hc
    obtain ⟨s, hs, hcarried, hname, f, hmem, hpath, hdeclares⟩ :=
      exists_header_of_mapped h hunits hparts hn hnc hx hkind
    refine ⟨s, hs, hcarried, f, List.mem_append_left _ hmem, hpath, mem_structHeaders.2 ?_, hdeclares⟩
    exact ⟨c, hc, x.1, (List.of_mem_zip hx).1, hkind, by rw [hpath, hname]⟩
  · obtain rfl := symbol_of_mem_statementsOf hsymbol
    have hmem : c.method ∈ m.natives :=
      List.mem_flatMap.2 ⟨u, hu, hmethods ▸ List.mem_map_of_mem hc⟩
    exact declared_of_sameSymbol (sameSymbol_of_modelFrom h hf) hmem target table

end

/-- Where the table is empty, the files are made once those of the units are. -/
theorem standardFiles_of_parts {target : Target} {e : Mapper} (he : Mapper.ofRules target standardRules = .ok e)
    {defines : List (String × String)} {m : Model} {units : List MappedUnit} (hunits : mapUnits e m = .ok units)
    {parts : List (List OutputFile)} (hparts : units.mapM (unitFiles target e defines) = .ok parts)
    (hcount : m.natives.length < unwritable) :
    StandardFiles target defines m (parts.flatten ++ statsFiles target.statsName m {}) :=
  ⟨e, units, {}, he, hunits, targetFiles_eq_ok_iff.2 ⟨parts, hparts, isWritable_capacity hcount, rfl⟩⟩

/-- **The sources of a run refer to what the run makes.** The source of every unit with native methods includes
headers of the run only, one of which declares the functions that carry a struct, and the header of the statistics
declares every constant that it counts calls under. A constant is declared once exactly if no method with another
key has its symbol, and none has where types are written without comments. That names are words is so in every file
that is read (`Source.spelled_of_outlineFile`). -/
theorem closed_standardFiles {store : Overlay.Store} {sources : List Source.OutlinedFile} {m : Model}
    (h : Source.modelOf store sources = .ok m) (hf : ∀ f ∈ sources, f.outline.Spelled) {target : Target}
    {defines : List (String × String)} {files : List OutputFile} (hfiles : StandardFiles target defines m files) :
    (∀ u ∈ m.units, u.natives ≠ [] → ∃ ms source, ClosedSource target m files u ms source) ∧
      ((∀ f ∈ sources, Symbol.WellNamed f.outline) → Distinguished m) := by
  obtain ⟨known, es, hm⟩ := Source.modelFrom_of_modelOf h
  exact ⟨fun u hu hne => closedSource_of_modelFrom hm hf hfiles hu hne, distinguished_of_modelFrom hm⟩

/-- A struct class, and a class with a method that takes it and one that does not. -/
def drawingFiles : List Source.OutlinedFile :=
  [ { path := ⟨.here, ["OS.java"]⟩
      outline :=
        { package := ""
          classes :=
            [ { name := "Point", line := 1, natives := [], fields := [⟨"x", "int", 2, none⟩] },
              { name := "OS", line := 4, fields := []
                natives :=
                  [ ⟨"move", [⟨"point", "Point", 5⟩], "void", ["native"], 5, none⟩,
                    ⟨"beep", [], "void", ["native"], 6, none⟩ ] } ] } } ]

theorem closed_drawingFiles : ∃ m files, Source.modelOf {} drawingFiles = .ok m ∧
    StandardFiles plainTarget [] m files ∧ m.natives.length = 2 ∧ m.structs.length = 1 ∧
    (∀ u ∈ m.units, u.natives ≠ [] → ∃ ms source, ClosedSource plainTarget m files u ms source) ∧
    Distinguished m := by
  have hbuilt : ∃ m ∈ (Source.modelOf {} drawingFiles).toOption,
      ∃ e ∈ (Mapper.ofRules plainTarget standardRules).toOption, ∃ units ∈ (mapUnits e m).toOption,
      ∃ parts ∈ (units.mapM (unitFiles plainTarget e [])).toOption,
        m.natives.length = 2 ∧ m.structs.length = 1 := by
    decide +kernel
  obtain ⟨m, hm, e, he, units, hu, parts, hp, hnatives, hstructs⟩ := hbuilt
  have hm := ok_of_toOption hm
  have hfiles := standardFiles_of_parts (ok_of_toOption he) (ok_of_toOption hu) (ok_of_toOption hp)
    (hnatives ▸ by decide +kernel)
  have hnamed : ∀ f ∈ drawingFiles, Symbol.WellNamed f.outline := by
    have types : ∀ f ∈ drawingFiles, ∀ c ∈ f.outline.classes, ∀ n ∈ c.natives, ∀ p ∈ n.parameters,
        p.type = "Point" := by decide
    refine fun f hf => ⟨.inl ?_, ?_, ?_, fun c hc n hn p hp => ?_⟩
    · revert f
      decide
    · revert f
      decide
    · revert f
      decide
    · rw [types f hf c hc n hn p hp]
      exact ⟨["Point".toList], 0, by decide, by decide, rfl⟩
  obtain ⟨hclosed, hdistinguished⟩ := closed_standardFiles hm (by decide) hfiles
  exact ⟨m, _, hm, hfiles, hnatives, hstructs, hclosed, hdistinguished hnamed⟩

/-- A file with two methods of one name, each of which takes a class whose name is written with a comment
inside. -/
def clashingFiles : List Source.OutlinedFile :=
  [ { path := ⟨.here, ["OS.java"]⟩
      outline :=
        { package := ""
          classes :=
            [ { name := "OS", line := 1, fields := []
                natives :=
                  [ ⟨"move", [⟨"point", "p/*)*/.Point", 2⟩], "void", ["native"], 2, none⟩,
                    ⟨"move", [⟨"rect", "p/*)*/.Rect", 3⟩], "void", ["native"], 3, none⟩ ] },
              { name := "Point", line := 5, natives := [], fields := [⟨"x", "int", 5, none⟩] },
              { name := "Rect", line := 6, natives := [], fields := [⟨"x", "int", 6, none⟩] } ] } } ]

/-- The methods of the file by their lines. -/
theorem written_of_clashingFiles {known : List (String × Source.DeclaredClass)} {es : List Source.DeclaredClass}
    {m : Model} (h : Source.ModelFrom {} clashingFiles known es m) {n : NativeMethod} (hn : n ∈ m.natives) :
    ∃ e d, Source.NativeFrom (Source.scopeOf {} known) e d n ∧ e.name = "OS" ∧ d.name = "move" ∧
      (n.position.line = 2 → d.parameters.map (·.type) = ["p/*)*/.Point"]) ∧
      (n.position.line = 3 → d.parameters.map (·.type) = ["p/*)*/.Rect"]) := by
  obtain ⟨e, he, d, hd, hdn⟩ := h.native hn
  obtain ⟨c, hc, directives, rfl⟩ := h.declared e he
  have hwritten : ∀ c ∈ Source.classesOf clashingFiles, ∀ d ∈ c.outline.natives, c.name = "OS" ∧
      d.name = "move" ∧ (d.line = 2 → d.parameters.map (·.type) = ["p/*)*/.Point"]) ∧
      (d.line = 3 → d.parameters.map (·.type) = ["p/*)*/.Rect"]) := by
    decide
  rw [hdn.position]
  exact ⟨_, d, hdn, hwritten c hc d hd⟩

/-- **A constant may be declared twice**: the comment closes the parentheses too early, so both methods go by what
stands before it. -/
theorem twice_clashingFiles : ∃ m files, Source.modelOf {} clashingFiles = .ok m ∧
    StandardFiles plainTarget [] m files ∧ ∃ n ∈ m.natives, ∃ f ∈ files, f.relativePath = "natives_stats.h" ∧
      timesDeclared (methodSymbol n) f.content = 2 := by
  have hbuilt : ∃ m ∈ (Source.modelOf {} clashingFiles).toOption,
      ∃ e ∈ (Mapper.ofRules plainTarget standardRules).toOption, ∃ units ∈ (mapUnits e m).toOption,
      ∃ parts ∈ (units.mapM (unitFiles plainTarget e [])).toOption,
        m.natives.map (·.position.line) = [2, 3] ∧ ∀ n ∈ m.natives, n.overloaded = true := by
    decide +kernel
  obtain ⟨m, hm, e, he, units, hu, parts, hp, hlines, hover⟩ := hbuilt
  have hm := ok_of_toOption hm
  obtain ⟨known, es, hfrom⟩ := Source.modelFrom_of_modelOf hm
  have hlength : m.natives.length = 2 := by rw [← List.length_map, hlines]; rfl
  have hfiles := standardFiles_of_parts (ok_of_toOption he) (ok_of_toOption hu) (ok_of_toOption hp)
    (hlength ▸ by decide +kernel)
  obtain ⟨n, k, hnatives⟩ := List.length_eq_two.1 hlength
  have hmem : n ∈ m.natives ∧ k ∈ m.natives := by simp [hnatives]
  obtain ⟨hn, hk⟩ : n.position.line = 2 ∧ k.position.line = 3 := by simpa [hnatives] using hlines
  obtain ⟨en, dn, hdn, hen, hnn, hpoint, -⟩ := written_of_clashingFiles hfrom hmem.1
  obtain ⟨ek, dk, hdk, hek, hnk, -, hrect⟩ := written_of_clashingFiles hfrom hmem.2
  have hsn : n.identity.signature = "Lp/*)*//Point;" :=
    hdn.signature_of_dotted (hpoint hn) ⟨by decide, by decide, by decide⟩ (by decide) (by decide)
      (by decide +kernel)
  have hsk : k.identity.signature = "Lp/*)*//Rect;" :=
    hdk.signature_of_dotted (hrect hk) ⟨by decide, by decide, by decide⟩ (by decide) (by decide)
      (by decide +kernel)
  have hkeys : n.identity.key = "OS.move(Lp/*)*//Point;)" ∧ k.identity.key = "OS.move(Lp/*)*//Rect;)" := by
    rw [key_of_nativeFrom hdn, key_of_nativeFrom hdk, hen, hek, hnn, hnk, hsn, hsk]
    decide
  have hsymbols : methodSymbol n = "OS_move__Lp__0002a" ∧ methodSymbol k = "OS_move__Lp__0002a" := by
    rw [symbol_of_overload hdn (hover n hmem.1), symbol_of_overload hdk (hover k hmem.2), hen, hek, hnn, hnk,
      hsn, hsk]
    decide +kernel
  refine ⟨m, _, hm, hfiles, n, hmem.1, _, List.mem_append_right _ List.mem_cons_self, rfl, ?_⟩
  show timesDeclared (methodSymbol n) (headerText plainTarget m {}) = 2
  rw [timesDeclared_headerText, statsSymbols, hnatives, hsymbols.1]
  simp only [List.foldl_cons, List.foldl_nil, hkeys.1, hkeys.2, hsymbols.1, hsymbols.2]
  decide +kernel

end NativeGlue.Run
