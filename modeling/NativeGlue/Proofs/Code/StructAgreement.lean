import NativeGlue.Proofs.Code.BalancedStructs

/-!
# Header and source of struct classes

The preprocessor reads the struct header of a unit, and then its source, which includes the header. Whatever
symbols are set, as long as none of them turns code off, header and source are about the same fields: those whose
conditions hold. What the one declares is what the other defines, function by function, and the identifiers that
its functions use are members of the cache (`files_agree`).
-/

namespace NativeGlue.Code

open NativeGlue.Mapping NativeGlue.Text

/-! ## 1. Reading files -/

/-- What is known behind a header that is read for the first time. -/
theorem preprocess_guarded {guard : String} (hinert : Inert guard) {isSet : String → Bool}
    (hguard : isSet (symbolOf guard.toList) = false) {ls left : List String}
    (h : Leaves (fun s => isSet s || s == symbolOf guard.toList) ls left) :
    preprocess isSet (splitAt '\n' (fileText
      ([banner, s!"#ifndef {guard}", s!"#define {guard}"] ++ ls ++ [s!"#endif /* {guard} */"]))) =
      { isSet := fun s => isSet s || s == symbolOf guard.toList, code := banner :: left } := by
  have hbanner : IsCode banner := by decide
  have hopens : Reads (some .opens) ("#ifndef " ++ guard) := (Settled.append (by decide) hinert.unbroken).reads
  have hdefine : Reads none ("#define " ++ guard) := (Settled.append (by decide) hinert.unbroken).reads
  have hcloses : Reads (some .closes) ("#endif /* " ++ guard ++ " */") :=
    ((Settled.append (by decide) hinert.unbroken).append (by decide)).reads
  have hword : directive? ("#define " ++ guard) = some "define" :=
    (settles_append (p := "#define ") (by decide) guard).2
  have hargument : argument ("#define " ++ guard) = " ".toList ++ guard.toList :=
    argument_append (p := "#define ") (by decide) guard
  have hcond : conditionOf isSet ("#ifndef " ++ guard) = true := by
    rw [conditionOf_ifndef, hguard]
    rfl
  have hset : ∀ r : Reading, r.plain ("#define " ++ guard) = r.define (symbolOf guard.toList) := by
    intro r
    unfold Reading.plain
    rw [hword, hargument]
    rfl
  have hcut : cut ([banner, "#ifndef " ++ guard, "#define " ++ guard] ++ ls ++ ["#endif /* " ++ guard ++ " */"]) =
      banner :: ("#ifndef " ++ guard) :: ("#define " ++ guard) :: (cut ls ++ ["#endif /* " ++ guard ++ " */"]) := by
    rw [cut_append, cut_append, cut_cons_of_unbroken hbanner.unbroken, cut_cons_of_unbroken hopens.unbroken,
      cut_cons_of_unbroken hdefine.unbroken, cut_cons_of_unbroken hcloses.unbroken]
    rfl
  have hcounted := h.counted
    { isSet := fun s => isSet s || s == symbolOf guard.toList, parts := [true], code := [banner] } rfl rfl
  calc
    _ = (cut ([banner, "#ifndef " ++ guard, "#define " ++ guard] ++ ls ++ ["#endif /* " ++ guard ++ " */"])).foldl
          Reading.step { isSet } := preprocess_fileText (even_guarded hinert h.even).not_return isSet
    _ = (cut ls ++ ["#endif /* " ++ guard ++ " */"]).foldl Reading.step
          { isSet := fun s => isSet s || s == symbolOf guard.toList, parts := [true], code := [banner] } := by
      rw [hcut, List.foldl_cons, Reading.step_plain hbanner.reads.turn rfl, hbanner.plain, List.foldl_cons,
        Reading.step_opens hopens.turn, List.foldl_cons]
      show List.foldl _ (Reading.step (Reading.enter _ (conditionOf isSet _)) _) _ = _
      rw [hcond, Reading.step_plain hdefine.turn rfl, hset]
      rfl
    _ = _ := by
      rw [List.foldl_append, hcounted, List.foldl_cons, Reading.step_closes hcloses.turn]
      rfl

/-- What is known behind the text of a source, where symbols are set already. -/
theorem preprocess_leaves {isSet : String → Bool} {ls left : List String} (h : Leaves isSet ls left) :
    preprocess isSet (splitAt '\n' (fileText ls)) = { isSet, code := left } := by
  rw [preprocess_fileText h.even.not_return, h.counted { isSet } rfl rfl]
  rfl

/-- What is known behind a header that is read where its guard is set already. -/
theorem preprocess_passed {guard : String} (hinert : Inert guard) {isSet : String → Bool}
    (hguard : isSet (symbolOf guard.toList) = true) {ls : List String} (h : Even ls) :
    preprocess isSet (splitAt '\n' (fileText
      ([banner, s!"#ifndef {guard}", s!"#define {guard}"] ++ ls ++ [s!"#endif /* {guard} */"]))) =
      { isSet, code := [banner] } := by
  have hbanner : IsCode banner := by decide
  have hopens : Reads (some .opens) ("#ifndef " ++ guard) := (Settled.append (by decide) hinert.unbroken).reads
  have hdefine : Reads none ("#define " ++ guard) := (Settled.append (by decide) hinert.unbroken).reads
  have hcloses : Reads (some .closes) ("#endif /* " ++ guard ++ " */") :=
    ((Settled.append (by decide) hinert.unbroken).append (by decide)).reads
  have hcond : conditionOf isSet ("#ifndef " ++ guard) = false := by
    rw [conditionOf_ifndef, hguard]
    rfl
  exact preprocess_leaves
    ((Leaves.line hbanner).append (.passed hopens hcond ((Even.line hdefine).append h) hcloses))

/-! ## 2. Fields -/

/-- **The fields that are shown** are those that code is generated for and that are there. -/
theorem map_field_shown (isSet : String → Bool) {e : Mapper} {defines : List (String × String)} {s : StructClass}
    {gs : List GeneratedField} (h : generatedFields e defines s = .ok gs) :
    (shown isSet gs).map (·.field) = s.fields.filter fun f => isThere isSet defines f && !f.flags.noGen := by
  rw [← List.filter_filter]
  have hmade : List.Forall₂ (fun f g => g.field = f ∧ g.condition = fieldCondition defines f)
      (s.fields.filter fun f => !f.flags.noGen) gs := by
    refine (forall₂_of_mapM h).imp fun f g hfg => ?_
    obtain ⟨mapping, -, hfg⟩ := ok_of_bind hfg
    obtain rfl := Except.ok.inj hfg
    exact ⟨rfl, rfl⟩
  clear h
  generalize s.fields.filter (fun f => !f.flags.noGen) = fs at hmade ⊢
  induction hmade with
  | nil => rfl
  | @cons f g fs gs hfg _ ih =>
    obtain ⟨rfl, hcondition⟩ := hfg
    have hthere : g.there isSet = isThere isSet defines g.field := by
      rw [GeneratedField.there, hcondition, isThere]
    rw [shown, List.filter_cons, List.filter_cons, hthere]
    split
    · exact congrArg (g.field :: ·) ih
    · exact ih

/-! ## 3. Header and source -/

/-- The code that is left of a header and of a source is about the same fields of struct classes.

The header declares the functions that the source defines, in the same order and with the same heads. They are made
for the fields that code is generated for and that are there, and what they use of the cache is a member of it. -/
structure Agreement (e : Mapper) (defines : List (String × String)) (rs : List RenderedStruct)
    (isSet : String → Bool) (header source : List String) : Prop where
  declared : header = banner :: rs.flatMap fun r => headerText e r (shown isSet r.fields)
  defined : source = banner :: rs.flatMap fun r => sourceText r.struct (shown isSet r.fields)
  fields : ∀ r ∈ rs, (shown isSet r.fields).map (·.field) =
    r.struct.fields.filter fun f => isThere isSet defines f && !f.flags.noGen
  there : ∀ r ∈ rs, ∀ f ∈ r.struct.fields, (∀ q ∈ f.platforms, '|' ∉ (platformSymbol defines q).toList) →
    (isThere isSet defines f = true ↔
      f.platforms = [] ∨ ∃ q ∈ f.platforms, isSet (platformSymbol defines q) = true)
  cached : ∀ r ∈ rs, ∀ f ∈ functionsOf r.struct (shown isSet r.fields), ∀ t ∈ f.body, ∀ id, t.id? = some id →
    cacheMember id ∈ cacheType r.struct (shown isSet r.fields)

/-- The files about the struct classes of a unit agree where symbols are set: the header is read first, which sets
the symbol that guards it, and then the source. -/
def FilesAgree (e : Mapper) (defines : List (String × String)) (u : ClassUnit) (isSet : String → Bool)
    (files : List OutputFile) : Prop :=
  ∃ rs, (u.structs.filter (·.generated)).mapM (renderStruct e defines) = .ok rs ∧ (rs = [] → files = []) ∧
    (rs ≠ [] → ∃ header source, files = [⟨fileStem u.className ++ "_structs.h", header⟩,
        ⟨fileStem u.className ++ "_structs.c", source⟩] ∧
      ∃ before behind, preprocess isSet (splitAt '\n' header) = before ∧
        preprocess before.isSet (splitAt '\n' source) = behind ∧ before.parts = [] ∧ behind.parts = [] ∧
        (∀ s, before.isSet s = (isSet s || s == symbolOf (headerGuard u.className).toList)) ∧
        Agreement e defines rs before.isSet before.code behind.code)

/-- The files about the struct classes of a unit, if it has any. -/
theorem rendered_of_structsFiles {e : Mapper} {defines : List (String × String)} {u : ClassUnit}
    {files : List OutputFile} (h : structsFiles e defines u = .ok files) :
    ∃ rs, (u.structs.filter (·.generated)).mapM (renderStruct e defines) = .ok rs ∧ (rs = [] ∧ files = [] ∨
      rs ≠ [] ∧ files = [⟨fileStem u.className ++ "_structs.h", fileText (structsHeader e u.className rs)⟩,
        ⟨fileStem u.className ++ "_structs.c", fileText (structsSource u.className rs)⟩]) := by
  unfold structsFiles at h
  dsimp only at h
  split at h
  · rename_i hnone
    cases h
    rw [List.isEmpty_iff] at hnone
    rw [hnone]
    exact ⟨[], rfl, .inl ⟨rfl, rfl⟩⟩
  · rename_i hsome
    obtain ⟨rs, hrs, h⟩ := ok_of_bind h
    cases h
    refine ⟨rs, hrs, .inr ⟨?_, rfl⟩⟩
    rintro rfl
    exact hsome (List.isEmpty_iff.2 (List.forall₂_nil_right_iff.1 (forall₂_of_mapM hrs)))

theorem structsFiles_of_rendered {e : Mapper} {defines : List (String × String)} {u : ClassUnit}
    {rs : List RenderedStruct} (h : (u.structs.filter (·.generated)).mapM (renderStruct e defines) = .ok rs)
    (hne : rs ≠ []) : structsFiles e defines u =
      .ok [⟨fileStem u.className ++ "_structs.h", fileText (structsHeader e u.className rs)⟩,
        ⟨fileStem u.className ++ "_structs.c", fileText (structsSource u.className rs)⟩] := by
  have hsome : ¬(u.structs.filter (·.generated)).isEmpty = true := by
    intro hnone
    rw [List.isEmpty_iff.1 hnone] at h
    exact hne (Except.ok.inj h).symm
  rw [structsFiles]
  dsimp only
  rw [if_neg hsome, h]
  rfl

/-- What is shown of the struct classes of a unit is inert. -/
theorem inertRendered_of_mem {e : Mapper} (he : e.rules = standardRules) {defines : List (String × String)}
    (hd : ∀ d ∈ defines, Unbroken d.2) {u : ClassUnit}
    (hs : ∀ s ∈ u.structs, s.generated = true → WritableClass s) (hu : u.Spelled) {rs : List RenderedStruct}
    (hrs : (u.structs.filter (·.generated)).mapM (renderStruct e defines) = .ok rs) :
    ∀ r ∈ rs, InertRendered r := by
  intro r hr
  obtain ⟨s, hmem, hsr⟩ := exists_of_mem_forall₂ (forall₂_of_mapM hrs) hr
  obtain ⟨hmem, hgenerated⟩ := List.mem_filter.1 hmem
  exact inertRendered_of_renderStruct he hd (hs s hmem hgenerated) (hu.structs s hmem) hsr

section

variable {e : Mapper} (he : e.rules = standardRules) (hplatform : Inert e.platform)
  {defines : List (String × String)} (hd : ∀ d ∈ defines, Unbroken d.2) {u : ClassUnit}
  (hs : ∀ s ∈ u.structs, s.generated = true → WritableClass s) {files : List OutputFile}
  (hfiles : structsFiles e defines u = .ok files) {isSet : String → Bool} (hon : AllOn isSet)
  (hguard : isSet (symbolOf (headerGuard u.className).toList) = false)

/-- The symbol that guards a header turns no code off. -/
theorem allOn_guarded (className : String) (hon : AllOn isSet) :
    AllOn fun s => isSet s || s == symbolOf (headerGuard className).toList := by
  intro name
  have hguard : headerGuard className = "INC_" ++ (upper (fileStem className) ++ "_STRUCTS_H") :=
    String.append_assoc ..
  have hsymbol := symbolOf_append (p := "INC_".toList) (by decide) (by decide)
    (upper (fileStem className) ++ "_STRUCTS_H").toList
  rw [← String.toList_append] at hsymbol
  have hne : "NO_" ++ name ≠ symbolOf (headerGuard className).toList := by
    intro hsame
    rw [hguard, hsymbol] at hsame
    have hhead := congrArg (·.toList.head?) hsame
    simp [String.toList_append] at hhead
  show (isSet ("NO_" ++ name) || "NO_" ++ name == _) = false
  rw [hon, beq_eq_false_iff_ne.2 hne]
  rfl

include he hplatform hd hs hfiles hon hguard

theorem filesAgree_of_spelled (hu : u.Spelled) : FilesAgree e defines u isSet files := by
  obtain ⟨rs, hrs, hfiles⟩ := rendered_of_structsFiles hfiles
  refine ⟨rs, hrs, fun hnil => (hfiles.resolve_right fun h => h.1 hnil).2, fun hne => ?_⟩
  obtain ⟨-, rfl⟩ := hfiles.resolve_left fun h => hne h.1
  have hinert := inertRendered_of_mem he hd hs hu hrs
  have hset := allOn_guarded u.className hon
  have hparts := fun r hr => leaves_structHeaderPart (hinert r hr) hplatform hset
  have hheader := preprocess_guarded (inert_headerGuard hu.className) hguard
    (leaves_headerLines hu.className hparts)
  rw [← structsHeader_eq] at hheader
  have hsource := preprocess_leaves (leaves_structsSource hu.className hinert hset)
  refine ⟨_, _, rfl, _, _, hheader, hsource, rfl, rfl, fun _ => rfl, rfl, rfl, fun r hr => ?_,
    fun _ _ _ _ hbars => isThere_iff hbars, fun r _ f hf t ht id hid => cacheMember_mem_cacheType hf ht hid⟩
  obtain ⟨s, hmem, hsr⟩ := exists_of_mem_forall₂ (forall₂_of_mapM hrs) hr
  obtain ⟨hsame, -, hfields⟩ := of_renderStruct hsr
  rw [hsame]
  exact map_field_shown _ hfields

end

/-- Where only one symbol is set, and it is not one that turns code off. -/
theorem allOn_beq {symbol : String} (h : symbol.toList.head? ≠ some 'N') : AllOn (· == symbol) := by
  intro name
  refine beq_eq_false_iff_ne.2 fun hsame => h ?_
  rw [← hsame, String.toList_append]
  rfl

/-- A struct class with a field for two platforms, a field that is only read, and one without code. -/
def cornerFiles : List Source.OutlinedFile :=
  [ { path := ⟨.here, ["OS.java"]⟩
      outline :=
        { package := ""
          classes :=
            [ { name := "Corner", line := 1, natives := []
                fields :=
                  [⟨"x", "int", 3, some ⟨"/** @field platform=gtk,carbon */", 2⟩⟩,
                    ⟨"y", "int", 5, some ⟨"/** @field flags=no_set */", 4⟩⟩,
                    ⟨"z", "short", 7, some ⟨"/** @field flags=no_gen */", 6⟩⟩]
                doc := some ⟨"/** @struct */", 1⟩ } ] } } ]

/-- The names of the files for the class. -/
def cornerNames : List String := ["corner_structs.h", "corner_structs.c"]

/-- A function is declared in the header or defined in the source, and not both. -/
def Disagree (isSet : String → Bool) (files : List OutputFile) (head : String) : Prop :=
  ∃ header source before behind, files.map (·.content) = [header, source] ∧
    preprocess isSet (splitAt '\n' header) = before ∧ preprocess before.isSet (splitAt '\n' source) = behind ∧
    ¬(head ++ ";" ∈ before.code ↔ head ∈ behind.code)

section

variable {e : Mapper} {defines : List (String × String)} {u : ClassUnit} (hu : u.Spelled) {rs : List RenderedStruct}
  (hrs : (u.structs.filter (·.generated)).mapM (renderStruct e defines) = .ok rs) (hne : rs ≠ [])
  (hinert : ∀ r ∈ rs, InertRendered r) {isSet : String → Bool} (hon : AllOn isSet) {head : String}

include hu hrs hne hinert hon

/-- A function that the comment about a layout declares does not have to be defined. -/
theorem disagree_of_note (hguard : isSet (symbolOf (headerGuard u.className).toList) = false) {note : List String}
    (hnote : ∀ r ∈ rs, ∀ isSet, Leaves isSet (layoutNote e r.layout) note) (hdeclared : head ++ ";" ∈ note)
    (hundefined : head ∉ banner :: rs.flatMap fun r => sourceText r.struct
      (shown (fun s => isSet s || s == symbolOf (headerGuard u.className).toList) r.fields)) :
    ∃ files, structsFiles e defines u = .ok files ∧ Disagree isSet files head := by
  have hset := allOn_guarded u.className hon
  have hparts := fun r hr => leaves_structHeaderPart_of_note (hinert r hr) (hnote r hr _) hset
  have hheader := preprocess_guarded (inert_headerGuard hu.className) hguard
    (leaves_headerLines hu.className hparts)
  rw [← structsHeader_eq] at hheader
  have hsource := preprocess_leaves (leaves_structsSource hu.className hinert hset)
  refine ⟨_, structsFiles_of_rendered hrs hne, _, _, _, _, rfl, hheader, hsource,
    fun hsame => hundefined (hsame.1 ?_)⟩
  obtain ⟨r, hr⟩ := List.exists_mem_of_ne_nil rs hne
  exact List.mem_cons_of_mem _ (List.mem_flatMap.2 ⟨r, hr, List.mem_append_left _ hdeclared⟩)

/-- Where the header has been read before, it declares nothing. -/
theorem disagree_of_passed (hguard : isSet (symbolOf (headerGuard u.className).toList) = true)
    (hplatform : Inert e.platform) (hhead : head ++ ";" ≠ banner)
    (hdefined : head ∈ banner :: rs.flatMap fun r => sourceText r.struct (shown isSet r.fields)) :
    ∃ files, structsFiles e defines u = .ok files ∧ Disagree isSet files head := by
  have hparts := fun r hr => leaves_structHeaderPart (hinert r hr) hplatform hon
  have hheader := preprocess_passed (inert_headerGuard hu.className) hguard
    (leaves_headerLines hu.className hparts).even
  rw [← structsHeader_eq] at hheader
  have hsource := preprocess_leaves (leaves_structsSource hu.className hinert hon)
  exact ⟨_, structsFiles_of_rendered hrs hne, _, _, _, _, rfl, hheader, hsource,
    fun hsame => hhead (List.mem_singleton.1 (hsame.2 hdefined))⟩

end

/-- A platform whose name ends the comment that it stands in, and declares a function. -/
def strayPlatform : String := "gtk */\njint Corner_get_z(jlong ptr);\n/*"

/-- The lines of the comment about the layout for this platform. -/
def strayNote : List String :=
  ["/*", " * Corner layout (gtk */", "jint Corner_get_z(jlong ptr);", "/*, 64-bit): size 8, alignment 4",
    " *      0  y  jint (4)", " *      4  z  jshort (2) (no_gen)", " */"]

/-- The comment as it is written, with three lines in one. -/
def strayText : List String :=
  strayNote.take 1 ++ ["\n".intercalate (strayNote.extract 1 4)] ++ strayNote.drop 4

theorem leaves_strayText (isSet : String → Bool) : Leaves isSet strayText strayNote := by
  have hopen : Leaves isSet (strayNote.take 1) (strayNote.take 1) := .lines (by decide +kernel)
  have htitle : Leaves isSet (strayNote.extract 1 4) (strayNote.extract 1 4) := .lines (by decide +kernel)
  have hfields : Leaves isSet (strayNote.drop 4) (strayNote.drop 4) := .lines (by decide +kernel)
  exact (hopen.append htitle.joined).append hfields

/-- A field that lists a word for a platform that goes on behind line breaks. -/
def brokenMember : StructMember := memberOf "y" (primitiveType "int") ["a)\nint y;\nb"]

end NativeGlue.Code
