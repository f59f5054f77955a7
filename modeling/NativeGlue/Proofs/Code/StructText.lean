import NativeGlue.Proofs.Code.BalancedMethods
import NativeGlue.Proofs.Code.Preprocessing
import NativeGlue.Proofs.Mapping.Layout

/-!
# Struct classes behind the preprocessor

What the header and the source say about a struct class for a list of fields, without any conditionals: the type of
the cache (`cacheType`), and functions (`functionsOf`), which the header declares and the source defines. Each
field is written under its own condition wherever it is mentioned, so whatever symbols are set, the preprocessor
leaves what is said for the fields that are shown then (`shown`), in each part of the header and of the source
(`leaves_structHeaderPart`, `leaves_structSourcePart`).
-/

namespace NativeGlue.Code

open NativeGlue.Java NativeGlue.Mapping NativeGlue.Text

/-! ## 1. Fields that are shown -/

/-- Whether a field is there under its condition. -/
def GeneratedField.there (isSet : String → Bool) (g : GeneratedField) : Bool := g.condition.all (holds isSet)

/-- The fields that are there. -/
def shown (isSet : String → Bool) (gs : List GeneratedField) : List GeneratedField := gs.filter (·.there isSet)

theorem flatMap_shown (isSet : String → Bool) {α : Type} (f : GeneratedField → List α) (gs : List GeneratedField) :
    (shown isSet gs).flatMap f = gs.flatMap fun g => if g.there isSet then f g else [] := by
  induction gs with
  | nil => rfl
  | cons g gs ih =>
    rw [List.flatMap_cons, ← ih, shown, List.filter_cons]
    split
    · rfl
    · rfl

theorem shown_filter (isSet : String → Bool) (p : GeneratedField → Bool) (gs : List GeneratedField) :
    shown isSet (gs.filter p) = (shown isSet gs).filter p := by
  rw [shown, shown, List.filter_filter, List.filter_filter]
  exact List.filter_congr fun g _ => Bool.and_comm _ _

/-- Whether a field of a struct class is there where symbols are set. -/
def isThere (isSet : String → Bool) (defines : List (String × String)) (f : StructMember) : Bool :=
  (fieldCondition defines f).all (holds isSet)

/-- **A field is there if it lists no platforms, or the symbol of one that it lists is set.** -/
theorem isThere_iff {isSet : String → Bool} {defines : List (String × String)} {f : StructMember}
    (h : ∀ q ∈ f.platforms, '|' ∉ (platformSymbol defines q).toList) :
    isThere isSet defines f = true ↔
      f.platforms = [] ∨ ∃ q ∈ f.platforms, isSet (platformSymbol defines q) = true := by
  unfold isThere fieldCondition
  split
  · rename_i hempty
    simp [List.isEmpty_iff.1 hempty]
  · rename_i hempty
    have hne : f.platforms ≠ [] := by simpa using hempty
    have hmap : (f.platforms.map fun q => "defined(" ++ platformSymbol defines q ++ ")") =
        (f.platforms.map (platformSymbol defines)).map fun s => "defined(" ++ s ++ ")" := by
      rw [List.map_map]
      rfl
    have hsymbols : ∀ s ∈ f.platforms.map (platformSymbol defines), '|' ∉ s.toList := by
      intro s hs
      obtain ⟨q, hq, rfl⟩ := List.mem_map.1 hs
      exact h q hq
    rw [hmap, Option.all_some, holds_intercalate isSet hsymbols (by simpa using hne), List.any_map,
      List.any_eq_true]
    simp [hne]

/-! ## 2. What is said of fields -/

/-- A statement of a function that copies fields: one that is the same whatever the fields are, or one that looks
up the identifier of a field, copies the field into the struct, or copies it back. -/
inductive CopyStep where
  | fixed (text : String)
  | find (g : GeneratedField)
  | read (g : GeneratedField)
  | write (g : GeneratedField)

namespace CopyStep

/-- A statement as it is written. -/
def text (s : StructClass) : CopyStep → String
  | fixed text => text
  | find g =>
    s!"{cacheName s}.{g.field.name} = (*env)->GetFieldID(env, {cacheName s}.clazz, " ++
      s!"\"{g.field.name}\", \"{g.field.type.descriptor}\");"
  | read g =>
    let value := s!"(*env)->Get{g.mapping.fieldAccessor}Field(env, lpObject, " ++ s!"{cacheName s}.{g.field.name})"
    s!"lpStruct->{g.field.accessor} = {toNative g.mapping value};"
  | write g =>
    let value := toAbi g.mapping s!"lpStruct->{g.field.accessor}"
    s!"(*env)->Set{g.mapping.fieldAccessor}Field(env, lpObject, " ++ s!"{cacheName s}.{g.field.name}, {value});"

/-- The cached identifier that a statement stores or uses. -/
def id? : CopyStep → Option String
  | fixed _ => none
  | find g => some g.field.name
  | read g => some g.field.name
  | write g => some g.field.name

end CopyStep

/-- A function: its head, and its statements. -/
structure CFunction where
  head : String
  body : List CopyStep

/-- A function as it is declared. -/
def CFunction.declaration (f : CFunction) : String := f.head ++ ";"

/-- A function as it is defined. -/
def CFunction.definition (s : StructClass) (f : CFunction) : List String :=
  f.head :: "\x7b" :: f.body.map (fun t => (Line.indented 1 (t.text s)).text) ++ ["\x7d"]

/-- The function that looks up the identifiers of fields. -/
def cacheFunction (s : StructClass) (gs : List GeneratedField) : CFunction where
  head := cacheHead s
  body := .fixed s!"if ({cacheName s}.cached) return;" ::
    .fixed s!"{cacheName s}.clazz = (*env)->GetObjectClass(env, lpObject);" ::
    gs.map .find ++ [.fixed s!"{cacheName s}.cached = 1;"]

/-- The function that copies fields into a struct. -/
def readFunction (s : StructClass) (gs : List GeneratedField) : CFunction where
  head := getHead s
  body := .fixed (ensureCached s) :: gs.map .read ++ [.fixed "return lpStruct;"]

/-- The function that copies fields back, those that may be written. -/
def writeFunction (s : StructClass) (gs : List GeneratedField) : CFunction where
  head := setHead s
  body := .fixed (ensureCached s) :: (gs.filter (·.settable)).map .write

/-- The function that tells the size of a struct. -/
def sizeFunction (s : StructClass) : CFunction where
  head := s!"jint {s.name}_sizeof(void)"
  body := [.fixed s!"return (jint)sizeof({s.nativeName});"]

/-- The function that reads one field. -/
def getterOf (s : StructClass) (g : GeneratedField) : CFunction where
  head := s!"{g.mapping.abiType} {getterName s g.field}(jlong ptr)"
  body :=
    let value := toAbi g.mapping ("*" ++ addressOf s g)
    [.fixed s!"return {value};"]

/-- The function that writes one field. -/
def setterOf (s : StructClass) (g : GeneratedField) : CFunction where
  head := s!"void {setterName s g.field}(jlong ptr, {g.mapping.abiType} value)"
  body :=
    let value := toNative g.mapping "value"
    [.fixed s!"*{addressOf s g} = {value};"]

/-- The getter of a field, and its setter if it may be written. -/
def accessorsOf (s : StructClass) (g : GeneratedField) : List CFunction :=
  getterOf s g :: if g.settable then [setterOf s g] else []

/-- The functions of a struct class. -/
def functionsOf (s : StructClass) (gs : List GeneratedField) : List CFunction :=
  [cacheFunction s gs, readFunction s gs, writeFunction s gs, sizeFunction s] ++ gs.flatMap (accessorsOf s)

/-- The member of the cache for the identifier of a field. -/
def cacheMember (id : String) : String := (Line.indented 1 s!"jfieldID {id};").text

/-- The type of the cache. -/
def cacheType (s : StructClass) (gs : List GeneratedField) : List String :=
  s!"typedef struct {s.name}_FID_CACHE \x7b" ::
    ["int cached;", "jclass clazz;"].map (fun t => (Line.indented 1 t).text) ++
      gs.map (fun g => cacheMember g.field.name) ++ [s!"\x7d {s.name}_FID_CACHE;"]

/-- What the header says about a struct class. -/
def headerText (e : Mapper) (r : RenderedStruct) (gs : List GeneratedField) : List String :=
  layoutNote e r.layout ++ (functionsOf r.struct gs).map (·.declaration)

/-- What the source says about a struct class. -/
def sourceText (s : StructClass) (gs : List GeneratedField) : List String :=
  cacheType s gs ++ s!"static {s.name}_FID_CACHE {cacheName s};" ::
    (functionsOf s gs).flatMap (·.definition s)

/-- **What is used of the cache is a member of its type.** -/
theorem cacheMember_mem_cacheType {s : StructClass} {gs : List GeneratedField} {f : CFunction}
    (hf : f ∈ functionsOf s gs) {t : CopyStep} (ht : t ∈ f.body) {id : String} (hid : t.id? = some id) :
    cacheMember id ∈ cacheType s gs := by
  have hmember : ∀ g ∈ gs, cacheMember g.field.name ∈ cacheType s gs := by
    intro g hg
    unfold cacheType
    exact List.mem_append_left _ (List.mem_append_right _ (List.mem_map_of_mem hg))
  have hof : ∀ gs' ⊆ gs, ∀ (c : GeneratedField → CopyStep), (∀ g, (c g).id? = some g.field.name) →
      t ∈ gs'.map c → cacheMember id ∈ cacheType s gs := by
    intro gs' hsub c hc ht
    obtain ⟨g, hg, rfl⟩ := List.mem_map.1 ht
    obtain rfl := Option.some.inj ((hc g).symm.trans hid)
    exact hmember g (hsub hg)
  have hfixed : ∀ text, t ≠ .fixed text := by
    rintro text rfl
    cases hid
  rcases List.mem_append.1 hf with hf | hf
  · simp only [List.mem_cons, List.not_mem_nil, or_false] at hf
    rcases hf with rfl | rfl | rfl | rfl
    · simp only [cacheFunction, List.cons_append, List.mem_cons, List.mem_append, List.not_mem_nil, or_false,
        hfixed, false_or] at ht
      exact hof gs (List.Subset.refl gs) .find (fun _ => rfl) ht
    · simp only [readFunction, List.cons_append, List.mem_cons, List.mem_append, List.not_mem_nil, or_false,
        hfixed, false_or] at ht
      exact hof gs (List.Subset.refl gs) .read (fun _ => rfl) ht
    · simp only [writeFunction, List.mem_cons, hfixed, false_or] at ht
      exact hof _ (List.filter_subset_self gs) .write (fun _ => rfl) ht
    · simp only [sizeFunction, List.mem_cons, List.not_mem_nil, or_false, hfixed] at ht
  · obtain ⟨g, -, hf⟩ := List.mem_flatMap.1 hf
    have haccessor : f = getterOf s g ∨ f = setterOf s g := by
      unfold accessorsOf at hf
      split at hf
      · simpa using hf
      · simpa using Or.inl hf
    rcases haccessor with rfl | rfl
    · simp only [getterOf, List.mem_cons, List.not_mem_nil, or_false, hfixed] at ht
    · simp only [setterOf, List.mem_cons, List.not_mem_nil, or_false, hfixed] at ht

/-! ## 3. Texts from outside -/

/-- What is said about a field from outside can be written: the member of the struct and the cast are inert, and
the platforms are on one line. -/
structure WritableMember (f : StructMember) : Prop where
  accessor : Inert f.accessor
  cast : ∀ k, f.cast = some k → Inert k
  platforms : ∀ q ∈ f.platforms, Unbroken q

instance (f : StructMember) : Decidable (WritableMember f) :=
  decidable_of_iff (Inert f.accessor ∧ (∀ k ∈ f.cast, Inert k) ∧ ∀ q ∈ f.platforms, Unbroken q)
    ⟨fun h => ⟨h.1, h.2.1, h.2.2⟩, fun h => ⟨h.1, h.2, h.3⟩⟩

/-- What is said about a struct class from outside can be written. -/
structure WritableClass (s : StructClass) : Prop where
  nativeName : Inert s.nativeName
  fields : ∀ f ∈ s.fields, WritableMember f

instance (s : StructClass) : Decidable (WritableClass s) :=
  decidable_of_iff (Inert s.nativeName ∧ ∀ f ∈ s.fields, WritableMember f)
    ⟨fun h => ⟨h.1, h.2⟩, fun h => ⟨h.1, h.2⟩⟩

/-- A field that code is generated for has a name on one line and inert texts, and its condition is on one line. -/
structure InertGenerated (g : GeneratedField) : Prop where
  name : Inert g.field.name
  descriptor : Unbroken g.field.type.descriptor
  accessor : Inert g.field.accessor
  mapping : InertField g.mapping
  condition : ∀ c, g.condition = some c → Unbroken c

/-- The symbol of a platform is on one line. -/
theorem unbroken_platformSymbol {defines : List (String × String)} (hd : ∀ d ∈ defines, Unbroken d.2)
    {q : String} (hq : Unbroken q) : Unbroken (platformSymbol defines q) := by
  unfold platformSymbol
  cases hl : defines.lookup q with
  | none => exact unbroken_append.2 ⟨by decide, unbroken_upper hq⟩
  | some d => exact hd _ (mem_of_lookup hl)

theorem unbroken_fieldCondition {defines : List (String × String)} (hd : ∀ d ∈ defines, Unbroken d.2)
    {f : StructMember} (hf : WritableMember f) {c : String} (h : fieldCondition defines f = some c) :
    Unbroken c := by
  unfold fieldCondition at h
  split at h
  · cases h
  · obtain rfl := Option.some.inj h
    refine unbroken_intercalate (by decide) fun x hx => ?_
    obtain ⟨q, hq, rfl⟩ := List.mem_map.1 hx
    have hsymbol := unbroken_platformSymbol hd (hf.platforms q hq)
    exact unbroken_append.2 ⟨unbroken_append.2 ⟨by decide, hsymbol⟩, by decide⟩

/-- **The texts of the fields that code is generated for are inert** under the standard rules. -/
theorem inert_of_generatedFields {e : Mapper} (he : e.rules = standardRules) {defines : List (String × String)}
    (hd : ∀ d ∈ defines, Unbroken d.2) {s : StructClass} (hs : WritableClass s) (hspelled : s.Spelled)
    {gs : List GeneratedField} (h : generatedFields e defines s = .ok gs) : ∀ g ∈ gs, InertGenerated g := by
  intro g hg
  obtain ⟨f, hf, hfg⟩ := exists_of_mem_forall₂ (forall₂_of_mapM h) hg
  have hf := List.mem_of_mem_filter hf
  obtain ⟨mapping, hmapping, hfg⟩ := ok_of_bind hfg
  obtain rfl := Except.ok.inj hfg
  exact ⟨inert_of_word (hspelled.fields f hf).name, (hspelled.fields f hf).descriptor, (hs.fields f hf).accessor,
    inert_of_fieldMapping he hmapping (hs.fields f hf).cast,
    fun c hc => unbroken_fieldCondition hd (hs.fields f hf) hc⟩

/-! ## 4. Expressions -/

theorem inert_castTo {type : String} (ht : Inert type) (t : ValueMapping) {x : String} (hx : Inert x) :
    Inert (castTo type t x) := by
  unfold castTo
  split
  · simp +decide [inert_append, ht, hx]
  · simp +decide [inert_append, ht, hx]

theorem inert_toNative {t : ValueMapping} (h : InertField t) {x : String} (hx : Inert x) :
    Inert (toNative t x) := inert_castTo h.cType t hx

theorem inert_toAbi {t : ValueMapping} (h : InertField t) {x : String} (hx : Inert x) :
    Inert (toAbi t x) := inert_castTo h.abiType t hx

section

variable {s : StructClass} (hs : InertNames s) {g : GeneratedField} (hg : InertGenerated g)

include hs

theorem inert_cacheName : Inert (cacheName s) := inert_append.2 ⟨hs.1, by decide⟩

theorem inert_cacheHead : Inert (cacheHead s) := by
  simp +decide [cacheHead, inert_append, toString, hs.1]

theorem inert_getHead : Inert (getHead s) := by
  simp +decide [getHead, inert_append, toString, hs.1, hs.2]

theorem inert_setHead : Inert (setHead s) := by
  simp +decide [setHead, inert_append, toString, hs.1, hs.2]

theorem inert_ensureCached : Inert (ensureCached s) := by
  simp +decide [ensureCached, inert_append, toString, hs.1, inert_cacheName hs]

include hg

theorem inert_getterName : Inert (getterName s g.field) := by
  simp +decide [getterName, inert_append, hs.1, hg.name]

theorem inert_setterName : Inert (setterName s g.field) := by
  simp +decide [setterName, inert_append, hs.1, hg.name]

theorem inert_offsetText : Inert (offsetText s g.field) := by
  unfold offsetText
  split
  · exact Int.toString_eq_repr ▸ inert_int _
  · split
    · decide
    · decide
  · simp +decide [inert_append, toString, hs.2, hg.accessor]

theorem inert_addressOf : Inert (addressOf s g) := by
  simp +decide [addressOf, inert_append, toString, hg.mapping.cType, inert_offsetText hs hg]

theorem inert_getterHead : Inert (getterOf s g).head := by
  simp +decide [getterOf, inert_append, toString, hg.mapping.abiType, inert_getterName hs hg]

theorem inert_setterHead : Inert (setterOf s g).head := by
  simp +decide [setterOf, inert_append, toString, hg.mapping.abiType, inert_setterName hs hg]

/-- The statements about a field are code. -/
theorem isCode_find : IsCode ((CopyStep.find g).text s) := by
  have hcache := inert_cacheName hs
  -- The descriptor may hold number signs, so the line is known from its beginning.
  have hbegin : Inert s!"{cacheName s}.{g.field.name} = (*env)->GetFieldID(env, {cacheName s}.clazz, " := by
    simp +decide [inert_append, toString, hcache, hg.name]
  have hsettled := hbegin.settled (c := '=') (by simp [toString, String.toList_append]) (by decide)
  have hrest : Unbroken s!"\"{g.field.name}\", \"{g.field.type.descriptor}\");" := by
    simp +decide [unbroken_append, toString, hg.name.unbroken, hg.descriptor]
  exact (hbegin.isCode (by simp [toString])).append hsettled.settles hrest

theorem isCode_read : IsCode ((CopyStep.read g).text s) := by
  have hcache := inert_cacheName hs
  have hread : Inert (s!"(*env)->Get{g.mapping.fieldAccessor}Field(env, lpObject, " ++
      s!"{cacheName s}.{g.field.name})") := by
    simp +decide [inert_append, toString, hg.mapping.fieldAccessor, hcache, hg.name]
  have hvalue := inert_toNative hg.mapping hread
  have hline : ∀ v, Inert v → IsCode s!"lpStruct->{g.field.accessor} = {v};" := by
    intro v hv
    refine Inert.isCode ?_ (by simp [toString])
    simp +decide [inert_append, toString, hg.accessor, hv]
  exact hline _ hvalue

theorem isCode_write : IsCode ((CopyStep.write g).text s) := by
  have hcache := inert_cacheName hs
  have hmember : Inert s!"lpStruct->{g.field.accessor}" := inert_append.2 ⟨by decide, hg.accessor⟩
  have hvalue := inert_toAbi hg.mapping hmember
  have hline : ∀ v, Inert v → IsCode (s!"(*env)->Set{g.mapping.fieldAccessor}Field(env, lpObject, " ++
      s!"{cacheName s}.{g.field.name}, {v});") := by
    intro v hv
    refine Inert.isCode ?_ (by simp [toString])
    simp +decide [inert_append, toString, hg.mapping.fieldAccessor, hcache, hg.name, hv]
  exact hline _ hvalue

end

/-! ## 5. Fields under conditions -/

section

variable {isSet : String → Bool} {d : Nat}

/-- **What is written about a field is left if the field is there.** -/
theorem writes_underCondition {write : IndentedText → GeneratedField → IndentedText} {g : GeneratedField}
    (hg : InertGenerated g) {out : List String} (h : ∀ b, b.depth = d → Writes isSet d b (write b g) out)
    {b : IndentedText} (hb : b.depth = d) :
    Writes isSet d b (underCondition write b g) (if g.there isSet then out else []) := by
  unfold underCondition openCondition closeCondition GeneratedField.there
  cases hc : g.condition with
  | none => exact h b hb
  | some c =>
    have hopens : Reads (some .opens) (Line.flush ("#if " ++ c)).text :=
      (Settled.append (by decide) (hg.condition c hc)).reads
    have hcloses : Reads (some .closes) (Line.flush "#endif").text := reads_endif
    exact (Writes.refl isSet hb).enclosed hopens (conditionOf_if isSet c) (h _ hb) hcloses

/-- What is written about every field. -/
theorem Writes.fields {b b' : IndentedText} {left : List String} (hw : Writes isSet d b b' left)
    {write : IndentedText → GeneratedField → IndentedText} {gs : List GeneratedField}
    (hg : ∀ g ∈ gs, InertGenerated g) {out : GeneratedField → List String}
    (h : ∀ g ∈ gs, ∀ b, b.depth = d → Writes isSet d b (write b g) (out g)) :
    Writes isSet d b (gs.foldl (underCondition write) b') (left ++ (shown isSet gs).flatMap out) := by
  rw [flatMap_shown]
  exact hw.foldl fun g hmem b hb => writes_underCondition (hg g hmem) (h g hmem) hb

/-- What is written about every field in a line of its own. -/
theorem Writes.fieldLines {b b' : IndentedText} {left : List String} (hw : Writes isSet d b b' left)
    (write : IndentedText → GeneratedField → IndentedText) {line : GeneratedField → String}
    (hline : ∀ b g, write b g = b.line (line g)) {gs : List GeneratedField}
    (hg : ∀ g ∈ gs, InertGenerated g) (h : ∀ g ∈ gs, IsCode (line g)) :
    Writes isSet d b (gs.foldl (underCondition write) b')
      (left ++ (shown isSet gs).map fun g => (Line.indented d (line g)).text) := by
  rw [List.map_eq_flatMap]
  refine hw.fields hg fun g hmem b hb => ?_
  rw [hline]
  exact (Writes.refl isSet hb).line (h g hmem)

end

/-! ## 6. Parts of the files -/

section

variable {isSet : String → Bool} {s : StructClass} (hs : InertNames s) {g : GeneratedField} (hg : InertGenerated g)

theorem declaration_getterOf (s : StructClass) (g : GeneratedField) :
    (getterOf s g).declaration = s!"{g.mapping.abiType} {getterName s g.field}(jlong ptr);" :=
  String.append_assoc ..

theorem declaration_setterOf (s : StructClass) (g : GeneratedField) :
    (setterOf s g).declaration = s!"void {setterName s g.field}(jlong ptr, {g.mapping.abiType} value);" :=
  String.append_assoc ..

include hs hg

theorem writes_declareAccessors {b : IndentedText} (hb : b.depth = 0) :
    Writes isSet 0 b (declareAccessors s b g) ((accessorsOf s g).map (·.declaration)) := by
  have hgetter : IsCode (getterOf s g).declaration :=
    (inert_append.2 ⟨inert_getterHead hs hg, by decide⟩).isCode (by simp)
  have hsetter : IsCode (setterOf s g).declaration :=
    (inert_append.2 ⟨inert_setterHead hs hg, by decide⟩).isCode (by simp)
  have hget := (Writes.refl isSet hb).line hgetter
  unfold declareAccessors accessorsOf
  rw [← declaration_getterOf, ← declaration_setterOf]
  dsimp only
  split
  · have hboth := hget.line hsetter
    simpa [text_indented_zero] using hboth
  · simpa [text_indented_zero] using hget

omit hs hg in
/-- A function that stands in a conditional of its own. -/
theorem writes_guarded (hon : AllOn isSet) {name head line : String} (hname : Inert name) (hhead : IsCode head)
    (hline : IsCode line) {b : IndentedText} (hb : b.depth = 0) :
    Writes isSet 0 b
      ((((((b.line s!"#ifndef NO_{name}").line head).openBlock "\x7b" "\x7d").line line).closeBlock).line
        "#endif")
      (CFunction.definition s ⟨head, [.fixed line]⟩) := by
  have hfirst := (Writes.refl isSet (b := b.line s!"#ifndef NO_{name}") hb).line hhead
  have hbody := (hfirst.opened "\x7b" "\x7d").line hline
  have hall := (Writes.refl isSet hb).enclosedLines (reads_guard hname) (conditionOf_guard hon name)
    (hfirst.block (by decide) hbody (by decide)) reads_endif
  simpa [CFunction.definition, CopyStep.text, text_indented_zero] using hall

theorem writes_accessors (hon : AllOn isSet) {b : IndentedText} (hb : b.depth = 0) :
    Writes isSet 0 b (accessors s b g) ((accessorsOf s g).flatMap (·.definition s)) := by
  have hplace : Inert ("*" ++ addressOf s g) := inert_append.2 ⟨by decide, inert_addressOf hs hg⟩
  have hvalue : Inert "value" := by decide
  have hread : IsCode ("return " ++ toAbi g.mapping ("*" ++ addressOf s g) ++ ";") := by
    refine Inert.isCode ?_ (by simp)
    simp +decide [inert_append, inert_toAbi hg.mapping hplace]
  have hwrite : IsCode ("*" ++ addressOf s g ++ " = " ++ toNative g.mapping "value" ++ ";") := by
    refine Inert.isCode ?_ (by simp)
    simp +decide [inert_append, inert_addressOf hs hg, inert_toNative hg.mapping hvalue]
  have hgetter := (inert_getterHead hs hg).isCode (by simp [getterOf, toString])
  have hsetter := (inert_setterHead hs hg).isCode (by simp [setterOf, toString])
  have hget := writes_guarded (s := s) hon (inert_getterName hs hg) hgetter hread hb
  unfold accessors accessorsOf
  dsimp only
  split
  · rename_i hset
    rw [if_neg (by simpa using hset), List.flatMap_singleton]
    exact hget
  · rename_i hset
    rw [if_pos (by simpa using hset), List.flatMap_cons, List.flatMap_singleton]
    exact hget.trans (writes_guarded hon (inert_setterName hs hg) hsetter hwrite hget.depth)

end

section

variable {isSet : String → Bool} {s : StructClass} (hs : InertNames s) {gs : List GeneratedField}
  (hg : ∀ g ∈ gs, InertGenerated g)

include hs hg

theorem leaves_declarations :
    Leaves isSet [(declarations s gs).render] ((functionsOf s (shown isSet gs)).map (·.declaration)) := by
  have hsize : Inert s!"jint {s.name}_sizeof(void);" := by
    simp +decide [inert_append, toString, hs.1]
  have hsemicolon : ∀ t, Inert t → IsCode (t ++ ";") := fun t ht =>
    (inert_append.2 ⟨ht, by decide⟩).isCode (by simp)
  have hfixed : ∀ t ∈ [cacheHead s ++ ";", getHead s ++ ";", setHead s ++ ";", s!"jint {s.name}_sizeof(void);"],
      IsCode t := by
    simp only [List.forall_mem_cons]
    exact ⟨hsemicolon _ (inert_cacheHead hs), hsemicolon _ (inert_getHead hs), hsemicolon _ (inert_setHead hs),
      hsize.isCode (by simp [toString]), List.forall_mem_nil _⟩
  have hall := (((Writes.refl isSet (b := {}) rfl).addLines hfixed).fields hg
    fun g hmem b hb => writes_declareAccessors hs (hg g hmem) hb).render
  have hlast : (sizeFunction s).declaration = s!"jint {s.name}_sizeof(void);" := String.append_assoc ..
  rw [functionsOf, List.map_append, List.map_flatMap, List.map_cons, List.map_cons, List.map_cons, List.map_cons,
    hlast]
  simp only [text_indented_zero, List.map_id', List.nil_append] at hall
  exact hall

theorem leaves_cacheDeclaration :
    Leaves isSet [(cacheDeclaration s gs).render] (cacheType s (shown isSet gs)) := by
  have hheader : Inert s!"typedef struct {s.name}_FID_CACHE \x7b" := by
    simp +decide [inert_append, toString, hs.1]
  have hfooter : Inert s!"\x7d {s.name}_FID_CACHE;" := by
    simp +decide [inert_append, toString, hs.1]
  have hfixed : ∀ t ∈ ["int cached;", "jclass clazz;"], IsCode t := by decide
  have hfield : ∀ g ∈ gs, IsCode s!"jfieldID {g.field.name};" := by
    intro g hmem
    refine Inert.isCode ?_ (by simp [toString])
    simp +decide [inert_append, toString, (hg g hmem).name]
  have hopened := (Writes.refl isSet (b := {}) rfl).opened
    s!"typedef struct {s.name}_FID_CACHE \x7b" s!"\x7d {s.name}_FID_CACHE;"
  have hall := ((Writes.refl isSet rfl).block (hheader.isCode (by simp [toString]))
    ((hopened.addLines hfixed).fieldLines _ (fun _ _ => rfl) hg hfield)
    (hfooter.isCode (by simp [toString]))).render
  simp only [text_indented_zero, List.nil_append] at hall
  exact hall

theorem leaves_cacheFiller :
    Leaves isSet [(cacheFiller s gs).render] ((cacheFunction s (shown isSet gs)).definition s) := by
  have hcache := inert_cacheName hs
  have hchecked : Inert s!"if ({cacheName s}.cached) return;" := by
    simp +decide [inert_append, toString, hcache]
  have hclass : Inert s!"{cacheName s}.clazz = (*env)->GetObjectClass(env, lpObject);" := by
    simp +decide [inert_append, toString, hcache]
  have hdone : Inert s!"{cacheName s}.cached = 1;" := by
    simp +decide [inert_append, toString, hcache]
  have hfixed : ∀ t ∈ [s!"if ({cacheName s}.cached) return;",
      s!"{cacheName s}.clazz = (*env)->GetObjectClass(env, lpObject);"], IsCode t := by
    simp only [List.forall_mem_cons]
    exact ⟨hchecked.isCode (by simp [toString]), hclass.isCode (by simp [toString]), List.forall_mem_nil _⟩
  have hhead := (Writes.refl isSet (b := {}) rfl).line
    ((inert_cacheHead hs).isCode (by simp [cacheHead, toString]))
  have hinner := (((hhead.opened "\x7b" "\x7d").addLines hfixed).fieldLines (cacheField s)
    (fun _ _ => rfl) hg fun g hmem => isCode_find hs (hg g hmem)).line (hdone.isCode (by simp [toString]))
  have hall := (hhead.block (by decide) hinner (by decide)).render
  unfold cacheFiller
  simpa [CFunction.definition, cacheFunction, Function.comp_def, CopyStep.text, text_indented_zero] using hall

theorem leaves_getFunction :
    Leaves isSet [(getFunction s gs).render] ((readFunction s (shown isSet gs)).definition s) := by
  have hensured := (inert_ensureCached hs).isCode (by simp [ensureCached, toString])
  have hhead := (Writes.refl isSet (b := {}) rfl).line
    ((inert_getHead hs).isCode (by simp [getHead, toString]))
  have hinner := (((hhead.opened "\x7b" "\x7d").line hensured).fieldLines (readField s)
    (fun _ _ => rfl) hg fun g hmem => isCode_read hs (hg g hmem)).line (t := "return lpStruct;") (by decide)
  have hall := (hhead.block (by decide) hinner (by decide)).render
  unfold getFunction
  simpa [CFunction.definition, readFunction, Function.comp_def, CopyStep.text, text_indented_zero] using hall

theorem leaves_setFunction :
    Leaves isSet [(setFunction s gs).render] ((writeFunction s (shown isSet gs)).definition s) := by
  have hset : ∀ g ∈ gs.filter (·.settable), InertGenerated g := fun g hmem => hg g (List.mem_of_mem_filter hmem)
  have hensured := (inert_ensureCached hs).isCode (by simp [ensureCached, toString])
  have hhead := (Writes.refl isSet (b := {}) rfl).line
    ((inert_setHead hs).isCode (by simp [setHead, toString]))
  have hinner := ((hhead.opened "\x7b" "\x7d").line hensured).fieldLines (writeField s)
    (fun _ _ => rfl) hset fun g hmem => isCode_write hs (hset g hmem)
  have hall := (hhead.block (by decide) hinner (by decide)).render
  rw [shown_filter] at hall
  unfold setFunction
  simpa [CFunction.definition, writeFunction, Function.comp_def, CopyStep.text, text_indented_zero] using hall

theorem leaves_accessorFunctions (hon : AllOn isSet) :
    Leaves isSet [(accessorFunctions s gs).render]
      ((shown isSet gs).flatMap fun g => (accessorsOf s g).flatMap (·.definition s)) := by
  cases gs with
  | nil => exact (Writes.refl isSet (b := {}) rfl).render
  | cons g gs =>
    rw [List.forall_mem_cons] at hg
    have hspaced : ∀ g ∈ gs, ∀ b : IndentedText, b.depth = 0 →
        Writes isSet 0 b (underCondition (accessors s) (b.line "") g)
          (if g.there isSet then (accessorsOf s g).flatMap (·.definition s) else []) := by
      intro g hmem b hb
      have hempty := (Writes.refl isSet hb).emptyLine
      exact hempty.trans (writes_underCondition (hg.2 g hmem)
        (fun b hb => writes_accessors hs (hg.2 g hmem) hon hb) hempty.depth)
    have hfirst := writes_underCondition hg.1 (fun b hb => writes_accessors hs hg.1 hon hb) (b := {}) rfl
    have hall := (hfirst.foldl hspaced).render
    rw [flatMap_shown, List.flatMap_cons]
    exact hall

end

/-- What the files of a struct class show is inert. -/
structure InertRendered (r : RenderedStruct) : Prop where
  names : InertNames r.struct
  layout : Inert r.layout.struct.nativeName
  placed : ∀ x ∈ r.layout.fields, Inert x.field.accessor ∧ InertField x.mapping
  fields : ∀ g ∈ r.fields, InertGenerated g

/-- What is prepared for a struct class: its layout, and the fields that code is generated for. -/
theorem of_renderStruct {e : Mapper} {defines : List (String × String)} {s : StructClass} {r : RenderedStruct}
    (h : renderStruct e defines s = .ok r) :
    r.struct = s ∧ e.layoutOf s = .ok r.layout ∧ generatedFields e defines s = .ok r.fields := by
  obtain ⟨layout, hlayout, h⟩ := ok_of_bind h
  obtain ⟨fields, hfields, h⟩ := ok_of_bind h
  dsimp only at h
  split at h
  · obtain rfl := Except.ok.inj h
    exact ⟨rfl, hlayout, hfields⟩
  · exact (not_ok_throw h).elim

/-- **What is shown of a struct class is inert** under the standard rules. -/
theorem inertRendered_of_renderStruct {e : Mapper} (he : e.rules = standardRules)
    {defines : List (String × String)} (hd : ∀ d ∈ defines, Unbroken d.2) {s : StructClass} (hs : WritableClass s)
    (hspelled : s.Spelled) {r : RenderedStruct} (h : renderStruct e defines s = .ok r) : InertRendered r := by
  obtain ⟨hstruct, hlayout, hfields⟩ := of_renderStruct h
  obtain ⟨l, hl, hlayout⟩ := ok_of_bind hlayout
  have hlayout := Except.ok.inj hlayout
  refine ⟨?_, ?_, fun x hx => ?_, inert_of_generatedFields he hd hs hspelled hfields⟩
  · rw [hstruct]
    exact ⟨inert_of_word hspelled.name, hs.nativeName⟩
  · rw [← hlayout]
    exact hs.nativeName
  · rw [← hlayout] at hx
    obtain ⟨hmem, hmapping⟩ := mapped_of_layoutOfFrom hl x hx
    exact ⟨(hs.fields _ hmem).accessor, inert_of_fieldMapping he hmapping (hs.fields _ hmem).cast⟩

theorem isCode_layoutLine {x : PlacedField} (ha : Inert x.field.accessor) (hm : InertField x.mapping) :
    IsCode (layoutLine x) := by
  have hoffset : Inert (fourPlaces x.offset.bytes) :=
    inert_append.2 ⟨inert_copies (by decide) _, Int.toString_eq_repr ▸ inert_int _⟩
  have hline : ∀ note, Inert note → IsCode (
      s!" *   {fourPlaces x.offset.bytes}  {x.field.accessor}  {x.mapping.cType} " ++
        s!"({x.mapping.size}){note}") := by
    intro note hnote
    refine Inert.isCode ?_ (by simp [toString])
    simp +decide [inert_append, toString, hoffset, ha, hm.cType, inert_int, hnote]
  refine hline _ ?_
  split
  · decide
  · decide

/-- The function that tells the size of a struct, as the source has it. -/
theorem definition_sizeFunction (s : StructClass) : (sizeFunction s).definition s =
    [s!"jint {s.name}_sizeof(void)", "\x7b", s!"\treturn (jint)sizeof({s.nativeName});", "\x7d"] := by
  have hline : (Line.indented 1 s!"return (jint)sizeof({s.nativeName});").text =
      s!"\treturn (jint)sizeof({s.nativeName});" := by
    rw [text_indented (by simp [toString])]
    show "\t" ++ (("return (jint)sizeof(" ++ s.nativeName) ++ ");") = _
    rw [← String.append_assoc, ← String.append_assoc]
    rfl
  rw [← hline]
  rfl

section

variable {isSet : String → Bool} {r : RenderedStruct} (h : InertRendered r)

include h

/-- The comment about the layout is left. -/
theorem leaves_layoutNote {e : Mapper} (he : Inert e.platform) :
    Leaves isSet (layoutNote e r.layout) (layoutNote e r.layout) := by
  have htitle : IsCode (s!" * {r.layout.struct.nativeName} layout ({e.platform}, {e.wordSize}-bit): " ++
      s!"size {r.layout.size}, alignment {r.layout.alignment}") := by
    refine Inert.isCode ?_ (by simp [toString])
    simp +decide [inert_append, toString, h.layout, he, inert_int]
  have hlines : ∀ l ∈ r.layout.fields.map layoutLine, IsCode l := by
    intro l hl
    obtain ⟨x, hx, rfl⟩ := List.mem_map.1 hl
    exact isCode_layoutLine (h.placed x hx).1 (h.placed x hx).2
  have hopen : IsCode "/*" := by decide
  have hclose : IsCode " */" := by decide
  exact (((Leaves.line hopen).append (.line htitle)).append (.lines hlines)).append (.line hclose)

/-- Between the comment about the layout and the alternative, a header declares the functions for the fields that
are shown. -/
theorem leaves_structHeaderPart_of_note {e : Mapper} {note : List String}
    (hnote : Leaves isSet (layoutNote e r.layout) note) (hon : AllOn isSet) : Leaves isSet (structHeaderPart e r)
      (note ++ (functionsOf r.struct (shown isSet r.fields)).map (·.declaration)) := by
  have hu := h.names.1.unbroken
  have helse : Reads (some .alternates) "#else" := by decide
  have hdefine : ∀ p ∈ ["#define cache", "#define get", "#define set"], Settled none p := by decide
  have defined : ∀ p t, Settled none p → Unbroken t → Reads none (p ++ r.struct.name ++ t) := fun p t hp ht =>
    ((hp.append hu).append ht).reads
  have hdefines : Even [s!"#define cache{r.struct.name}Fields(a,b)",
      s!"#define get{r.struct.name}Fields(a,b,c) NULL", s!"#define set{r.struct.name}Fields(a,b,c)"] := by
    refine even_of_forall ?_
    simp only [List.forall_mem_cons]
    exact ⟨defined _ _ (hdefine _ (by decide)) (by decide), defined _ _ (hdefine _ (by decide)) (by decide),
      defined _ _ (hdefine _ (by decide)) (by decide), List.forall_mem_nil _⟩
  have hall := Leaves.empty.append (.alternatives (reads_guard h.names.1) (conditionOf_guard hon _)
    (hnote.append (leaves_declarations h.names h.fields)) helse hdefines reads_endif)
  unfold structHeaderPart
  simpa only [List.append_assoc, List.cons_append, List.nil_append] using hall

/-- **The lines of a header about a struct class leave what is said for the fields that are shown.** -/
theorem leaves_structHeaderPart {e : Mapper} (he : Inert e.platform) (hon : AllOn isSet) :
    Leaves isSet (structHeaderPart e r) (headerText e r (shown isSet r.fields)) :=
  leaves_structHeaderPart_of_note h (leaves_layoutNote h he) hon

/-- **The lines of a source about a struct class leave what is said for the fields that are shown.** -/
theorem leaves_structSourcePart (hon : AllOn isSet) :
    Leaves isSet (structSourcePart r) (sourceText r.struct (shown isSet r.fields)) := by
  have hname := h.names.1
  have hcache : IsCode s!"static {r.struct.name}_FID_CACHE {cacheName r.struct};" := by
    refine Inert.isCode ?_ (by simp [toString])
    simp +decide [inert_append, toString, hname, inert_cacheName h.names]
  have hsize : IsCode s!"jint {r.struct.name}_sizeof(void)" := by
    refine Inert.isCode ?_ (by simp [toString])
    simp +decide [inert_append, toString, hname]
  have hreturn : IsCode s!"\treturn (jint)sizeof({r.struct.nativeName});" := by
    refine Inert.isCode ?_ (by simp [toString])
    simp +decide [inert_append, toString, h.names.2]
  have hleft : IsCode "\x7b" := by decide
  have hright : IsCode "\x7d" := by decide
  have hempty : Leaves isSet [""] [] := .empty
  have hsizeof : Leaves isSet [s!"jint {r.struct.name}_sizeof(void)", "\x7b",
      s!"\treturn (jint)sizeof({r.struct.nativeName});", "\x7d"] ((sizeFunction r.struct).definition r.struct) := by
    rw [definition_sizeFunction]
    refine .lines ?_
    simp only [List.forall_mem_cons]
    exact ⟨hsize, hleft, hreturn, hright, List.forall_mem_nil _⟩
  have hfunctions := ((((leaves_cacheFiller h.names h.fields).append hempty).append
    (leaves_getFunction h.names h.fields)).append hempty).append (leaves_setFunction h.names h.fields)
  have hcached := ((leaves_cacheDeclaration h.names h.fields).append hempty).append (.line hcache)
  have hinner := ((((((hcached.append hempty).append hfunctions).append hempty).append hsizeof).append
    hempty).append (leaves_accessorFunctions h.names h.fields hon))
  have hall := hempty.append (.enclosed (reads_guard hname) (conditionOf_guard hon _) hinner reads_endif)
  rw [if_pos rfl] at hall
  unfold structSourcePart sourceText functionsOf
  rw [List.flatMap_append, List.flatMap_assoc]
  simpa only [List.append_nil, List.nil_append, List.append_assoc, List.flatMap_cons, List.flatMap_nil,
    List.cons_append] using hall

end

/-! ## 7. Files -/

/-- The lines of a struct header between those that guard it. -/
def headerLines (e : Mapper) (className : String) (rs : List RenderedStruct) : List String :=
  let custom := upper className ++ "_CUSTOM_HEADER"
  ["", "#include <jni.h>", "#include <stddef.h>", "#include <stdint.h>",
    s!"#ifdef {custom}", s!"#include {custom}", "#endif"]
  ++ rs.flatMap (structHeaderPart e) ++ [""]

/-- What guards a struct header. -/
def headerGuard (className : String) : String := s!"INC_{upper (fileStem className)}_STRUCTS_H"

theorem structsHeader_eq (e : Mapper) (className : String) (rs : List RenderedStruct) :
    structsHeader e className rs =
      [banner, s!"#ifndef {headerGuard className}", s!"#define {headerGuard className}"] ++
        headerLines e className rs ++ [s!"#endif /* {headerGuard className} */"] := by
  unfold structsHeader headerLines
  simp only [List.append_assoc, List.cons_append, List.nil_append]
  rfl

theorem inert_headerGuard {className : String} (hc : IsWord className) : Inert (headerGuard className) := by
  have hstem : Inert (upper (fileStem className)) := inert_upper (inert_lower (inert_of_word hc))
  simp +decide [headerGuard, inert_append, toString, hstem]

section

variable {isSet : String → Bool} {className : String} (hc : IsWord className) {rs : List RenderedStruct}

include hc

/-- **A struct header leaves what its parts about the struct classes leave.** -/
theorem leaves_headerLines {e : Mapper} {left : RenderedStruct → List String}
    (h : ∀ r ∈ rs, Leaves isSet (structHeaderPart e r) (left r)) :
    Leaves isSet (headerLines e className rs) (rs.flatMap left) := by
  have hcustom : Unbroken (upper className ++ "_CUSTOM_HEADER") :=
    (inert_append.2 ⟨inert_upper (inert_of_word hc), by decide⟩).unbroken
  have hopens : Reads (some .opens) ("#ifdef " ++ (upper className ++ "_CUSTOM_HEADER")) :=
    (Settled.append (by decide) hcustom).reads
  have hinclude : Leaves isSet ["#include " ++ (upper className ++ "_CUSTOM_HEADER")] [] :=
    .directive (Settled.append (by decide) hcustom).reads (settles_append (p := "#include ") (by decide) _).2
      (by decide)
  have hplace := Leaves.enclosed hopens rfl hinclude reads_endif
  rw [ite_self] at hplace
  have hsystem : Leaves isSet ["#include <jni.h>", "#include <stddef.h>", "#include <stdint.h>"] [] :=
    .directives "include" (by decide) (by decide)
  have hall := (((Leaves.empty.append hsystem).append hplace).append (.flatMap h)).append .empty
  rw [List.append_nil] at hall
  exact hall

/-- **A struct source leaves what is said of every struct class.** -/
theorem leaves_structsSource (h : ∀ r ∈ rs, InertRendered r) (hon : AllOn isSet) :
    Leaves isSet (structsSource className rs)
      (banner :: rs.flatMap fun r => sourceText r.struct (shown isSet r.fields)) := by
  have hbanner : IsCode banner := by decide
  have hstem := (inert_lower (inert_of_word hc)).unbroken
  have hinclude : Leaves isSet [s!"#include \"{fileStem className}_structs.h\""] [] := by
    have hbegin : Settled none ("#include \"" ++ fileStem className) := Settled.append (by decide) hstem
    have hword : directive? ("#include \"" ++ fileStem className ++ "_structs.h\"") = some "include" := by
      rw [(settles_append hbegin.settles _).2]
      exact (settles_append (p := "#include \"") (by decide) _).2
    exact .directive (hbegin.append (by decide)).reads hword (by decide)
  exact ((Leaves.line hbanner).append hinclude).append
    (.flatMap fun r hr => leaves_structSourcePart (h r hr) hon)

end

end NativeGlue.Code
