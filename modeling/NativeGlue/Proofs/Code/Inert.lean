import NativeGlue.Code.FieldTransfer
import NativeGlue.Proofs.Code.Conditionals
import NativeGlue.Proofs.Code.Names
import NativeGlue.Proofs.Code.Wording
import NativeGlue.Proofs.Java.Names

/-!
# Inert texts

A text without line breaks and without number signs is a line that is no directive, and so is what inert texts
are put together to. Names are inert, in capitals and small letters too, and symbols are. Under the standard
rules the texts that carry a parameter, a result or a field are inert if what they are asked to be written with
from outside is (`inert_of_mapped`, `inert_of_resultMapped`, `inert_of_fieldMapping`).
-/

namespace NativeGlue.Code

open NativeGlue.Mapping NativeGlue.Text

/-! ## 1. Texts -/

/-- What ends a line or begins a directive. -/
def lineMarks : List Char := ['\n', '\r', '#']

/-- A text without line breaks and number signs. -/
def Inert (s : String) : Prop := ∀ c ∈ s.toList, c ∉ lineMarks

instance (s : String) : Decidable (Inert s) := inferInstanceAs (Decidable (∀ c ∈ s.toList, c ∉ lineMarks))

theorem Inert.unbroken {s : String} (h : Inert s) : Unbroken s :=
  ⟨fun hc => h _ hc (by decide), fun hc => h _ hc (by decide)⟩

/-- An inert text is a line that is no directive. -/
theorem Inert.reads {s : String} (h : Inert s) : Reads none s :=
  reads_of_not_mem h.unbroken fun hc => h _ hc (by decide)

/-- An inert text that is not blank stays a line that is no directive whatever comes behind it. -/
theorem Inert.settled {s : String} (h : Inert s) {c : Char} (hc : c ∈ s.toList) (hb : isBlank c = false) :
    Settled none s := by
  refine ⟨?_, h.reads⟩
  unfold settles
  split
  · rename_i hnil
    rw [List.dropWhile_eq_nil_iff.1 hnil c hc] at hb
    cases hb
  · rename_i r hr
    have hhash : '#' ∈ s.toList := (List.dropWhile_suffix _).subset (hr ▸ List.mem_cons_self)
    exact absurd (by decide) (h _ hhash)
  · rfl

theorem inert_append {s t : String} : Inert (s ++ t) ↔ Inert s ∧ Inert t := by
  simp only [Inert, String.toList_append, List.mem_append, or_imp, forall_and]

theorem unbroken_append {s t : String} : Unbroken (s ++ t) ↔ Unbroken s ∧ Unbroken t := by
  simp only [Unbroken, String.toList_append, List.mem_append, not_or]
  exact and_and_and_comm

theorem Inert.of_isInfix {s t : String} (h : Inert s) (ht : t.toList <:+: s.toList) : Inert t :=
  fun c hc => h c (ht.subset hc)

theorem inert_intercalate {sep : String} (hsep : Inert sep) {l : List String} (h : ∀ s ∈ l, Inert s) :
    Inert (sep.intercalate l) := by
  intro c hc hmark
  refine not_mem_intercalate (fun hs => hsep c hs hmark) (fun s hs hcs => ?_) hc
  exact h s hs c hcs hmark

theorem unbroken_intercalate {sep : String} (hsep : Unbroken sep) {l : List String} (h : ∀ s ∈ l, Unbroken s) :
    Unbroken (sep.intercalate l) :=
  ⟨not_mem_intercalate hsep.1 fun s hs => (h s hs).1, not_mem_intercalate hsep.2 fun s hs => (h s hs).2⟩

theorem inert_copies {s : String} (h : Inert s) (n : Nat) : Inert (copies n s) := by
  intro c hc
  rw [toList_copies] at hc
  obtain ⟨l, hl, hc⟩ := List.mem_flatten.1 hc
  rw [(List.mem_replicate.1 hl).2] at hc
  exact h c hc

theorem inert_replace {s rep : String} (hs : Inert s) (hrep : Inert rep) (pat : String) :
    Inert (replace s pat rep) := by
  intro c hc
  rw [replace, String.toList_ofList] at hc
  exact (mem_of_mem_replaceFrom hc).elim (hs c) (hrep c)

theorem unbroken_replace {s rep : String} (hs : Unbroken s) (hrep : Unbroken rep) (pat : String) :
    Unbroken (replace s pat rep) := by
  unfold Unbroken
  rw [replace, String.toList_ofList]
  exact ⟨fun hc => (mem_of_mem_replaceFrom hc).elim hs.1 hrep.1,
    fun hc => (mem_of_mem_replaceFrom hc).elim hs.2 hrep.2⟩

/-- What ends a line or begins a directive comes before the digits. -/
theorem not_mem_lineMarks_of_code {c : Char} (h : c.toNat = 0 ∨ 48 ≤ c.toNat) : c ∉ lineMarks := by
  intro hc
  have hrange : ∀ c ∈ lineMarks, c.toNat ≠ 0 ∧ c.toNat < 48 := by decide
  have := hrange c hc
  omega

theorem inert_of_code {s : String} (h : ∀ c ∈ s.toList, c.toNat = 0 ∨ 48 ≤ c.toNat) : Inert s :=
  fun c hc => not_mem_lineMarks_of_code (h c hc)

theorem inert_upper {s : String} (h : Inert s) : Inert (upper s) :=
  fun c hc => (code_of_mem_upper hc).elim (h c) not_mem_lineMarks_of_code

theorem unbroken_upper {s : String} (h : Unbroken s) : Unbroken (upper s) := by
  have hmarks : ∀ c ∈ ['\n', '\r'], c ∈ lineMarks := by decide
  have hkept : ∀ c ∈ ['\n', '\r'], c ∉ s.toList → c ∉ (upper s).toList := fun c hc hs hu =>
    (code_of_mem_upper hu).elim hs fun hcode => not_mem_lineMarks_of_code hcode (hmarks c hc)
  exact ⟨hkept _ (by decide) h.1, hkept _ (by decide) h.2⟩

theorem inert_lower {s : String} (h : Inert s) : Inert (lower s) :=
  fun c hc => (code_of_mem_lower hc).elim (h c) not_mem_lineMarks_of_code

theorem inert_int (i : Int) : Inert i.repr := by
  intro c hc
  rw [← Int.toString_eq_repr] at hc
  have hsign : '-' ∉ lineMarks := by decide
  rcases eq_or_isDigit_of_mem_toString hc with rfl | hdigit
  · exact hsign
  · have := isDigit_iff.1 hdigit
    exact not_mem_lineMarks_of_code (.inr this.1)

/-! ## 2. Lines of code that is added -/

/-- **The lines of a text without number signs are inert.** -/
theorem inert_of_mem_lines {s : String} (h : '#' ∉ s.toList) : ∀ l ∈ lines s, Inert l := by
  intro l hl c hc hmark
  have hends : ∀ c ∈ lineMarks, c = '#' ∨ isLineEnd c = true := by decide
  rcases hends c hmark with rfl | hend
  · exact h (subset_of_mem_lines hl hc)
  · rw [not_isLineEnd_of_mem_lines hl c hc] at hend
    cases hend

theorem inert_of_mem_fragmentLines {text : String} (h : '#' ∉ text.toList) :
    ∀ l ∈ IndentedText.fragmentLines text, Inert l := by
  intro l hl
  obtain ⟨k, hk, rfl⟩ := List.mem_map.1 hl
  have hinner : '#' ∉ (String.ofList (trimOf (· == '\n') text.toList)).toList := by
    rw [String.toList_ofList]
    exact fun hc => h ((isInfix_trimOf _ _).subset hc)
  refine (inert_of_mem_lines hinner k hk).of_isInfix ?_
  rw [trimEnd, String.toList_ofList]
  exact (isPrefix_dropEnd _ _).isInfix

/-! ## 3. Names -/

/-- The words of the language are inert. -/
theorem inert_of_word {s : String} (h : Java.IsWord s) : Inert s := by
  intro c hc hmark
  have hnone : ∀ c ∈ lineMarks, Java.isWordPart c = false := by decide
  have hword := h c hc
  rw [hnone c hmark] at hword
  cases hword

/-- A text without blanks is on one line. -/
theorem unbroken_of_unblank {s : String} (h : Java.Unblank s) : Unbroken s := by
  have hblank : ∀ c ∈ ['\n', '\r'], isBlank c = true := by decide
  constructor
  · intro hc
    cases (h _ hc).symm.trans (hblank '\n' (by decide))
  · intro hc
    cases (h _ hc).symm.trans (hblank '\r' (by decide))

theorem inert_statsPrefix (name : String) : Inert (statsPrefix name) := inert_of_code (code_statsPrefix name)

theorem inert_methodSymbol (n : NativeMethod) : Inert (methodSymbol n) :=
  inert_of_code fun c hc => .inr (code_methodSymbol n c hc)

theorem inert_entryPoint (n : NativeMethod) (package : String) : Inert (entryPoint n package) :=
  inert_append.2 ⟨by decide, inert_of_code fun c hc => .inr (code_symbol _ _ _ c hc)⟩

theorem inert_arg (p : Parameter) : Inert p.arg :=
  inert_append.2 ⟨by decide, inert_int p.index⟩

theorem inert_localOf (p : Parameter) : Inert (localOf p) := inert_append.2 ⟨by decide, inert_arg p⟩

/-! ## 4. Parameters -/

/-- The type in an inert cast is inert. -/
theorem inert_castType {cast : Option String} (h : ∀ k, cast = some k → Inert k) {c : String}
    (hc : castType? cast = some c) : Inert c := by
  obtain ⟨k, hk, hck⟩ := infix_castType hc
  exact (h k hk).of_isInfix hck

theorem inert_taken (p : Parameter) {source : String} (h : Inert source) : Inert (taken p source) := by
  simp +decide [taken, inert_append, inert_arg, inert_localOf, h]

theorem inert_given (p : Parameter) {action : String} (h : Inert action) : Inert (given p action) := by
  simp +decide [given, inert_append, inert_arg, inert_localOf, h]

theorem inert_getCall (p : Parameter) {f : String} (h : Inert f) : Inert (getCall f p) := by
  simp +decide [getCall, inert_append, inert_arg, h]

theorem inert_giveCall (p : Parameter) {f more : String} (hf : Inert f) (hm : Inert more) :
    Inert (giveCall f p more) := by
  simp +decide [giveCall, inert_append, inert_arg, inert_localOf, hf, hm]

theorem inert_modeOf (p : Parameter) : Inert (modeOf p) := by
  unfold modeOf
  split
  · decide
  · decide

/-- The texts of a parameter are inert. -/
structure InertParameter (t : ValueMapping) : Prop where
  abiType : Inert t.abiType
  cType : Inert t.cType
  localDecl : Inert t.localDecl
  marshalIn : Inert t.marshalIn
  release : Inert t.release
  callArg : Inert t.callArg

/-- The names of a struct class and of its C type are inert. -/
def InertNames (s : StructClass) : Prop := Inert s.name ∧ Inert s.nativeName

/-- The names that the primitive types bring in are inert. -/
theorem inert_primitive : ∀ q ∈ primitiveTypes, Inert q.name ∧ Inert q.accessor := by decide

section

variable {structs : List StructClass} {p : Parameter} {t : ValueMapping}

/-- A name that belongs to a struct class, if there is one. -/
theorem inert_ofStruct {f : StructClass → String} (hs : ∀ s ∈ structs, Inert (f s)) {name : String}
    (h : name = "" ∨ ∃ s ∈ structs, f s = name) : Inert name := by
  rcases h with rfl | ⟨s, hmem, rfl⟩
  · decide
  · exact hs s hmem

theorem inert_structDecl {native : String} (h : Inert native) (p : Parameter) :
    Inert (native ++ " _" ++ p.arg ++ ", *" ++ localOf p ++ "=NULL;") := by
  simp +decide [inert_append, inert_arg, inert_localOf, h]

/-- The lines of a parameter that crosses are inert. -/
theorem inert_of_crossing (h : Crossing structs p t) (hs : ∀ s ∈ structs, InertNames s) :
    Inert t.localDecl ∧ Inert t.marshalIn ∧ Inert t.release := by
  have hempty : Inert "" := by decide
  have hlocal := inert_localOf p
  have hmode : Inert (", " ++ modeOf p) := inert_append.2 ⟨by decide, inert_modeOf p⟩
  cases h with
  | value hdecl hin hout =>
    rw [hdecl, hin, hout]
    exact ⟨hempty, hempty, hempty⟩
  | copied q hq _ hdecl hin hout =>
    obtain ⟨hname, haccessor⟩ := inert_primitive q hq
    rw [hdecl, hin, hout]
    refine ⟨?_, inert_taken p (inert_getCall p ?_), inert_given p (inert_giveCall p ?_ hmode)⟩
    · simp +decide [inert_append, hname, hlocal]
    · simp +decide [inert_append, haccessor]
    · simp +decide [inert_append, haccessor]
  | pinned q hq _ hdecl hin hout =>
    obtain ⟨hname, -⟩ := inert_primitive q hq
    rw [hdecl, hin, hout]
    refine ⟨?_, inert_taken p (inert_getCall p (by decide)), inert_given p (inert_giveCall p (by decide) hmode)⟩
    simp +decide [inert_append, hname, hlocal]
  | text _ hdecl hin hout =>
    rw [hdecl, hin, hout]
    refine ⟨?_, inert_taken p (inert_getCall p (by decide)), inert_given p (inert_giveCall p (by decide) hempty)⟩
    simp +decide [inert_append, hlocal]
  | struct name native hname hnative _ hdecl hin hout =>
    have hname := inert_ofStruct (fun s hmem => (hs s hmem).1) hname
    have hnative := inert_ofStruct (fun s hmem => (hs s hmem).2) hnative
    rw [hdecl]
    refine ⟨inert_structDecl hnative p, ?_, ?_⟩
    · rcases hin with hin | hin
      · rw [hin]
        refine inert_taken p ?_
        simp +decide [inert_append, hname, inert_arg]
      · rw [hin]
        exact inert_taken p (inert_append.2 ⟨by decide, inert_arg p⟩)
    · rcases hout with hout | hout
      · rw [hout]
        refine inert_given p (inert_giveCall p ?_ hempty)
        simp +decide [inert_append, hname]
      · rw [hout]
        exact hempty

theorem inert_of_unpinnable (h : Unpinnable structs p t) (hs : ∀ s ∈ structs, InertNames s) :
    Inert t.localDecl ∧ Inert t.marshalIn ∧ Inert t.release := by
  obtain ⟨native, hnative, hdecl⟩ := h.localDecl
  rw [hdecl, h.release]
  refine ⟨inert_structDecl (inert_ofStruct (fun s hmem => (hs s hmem).2) hnative) p, ?_, by decide⟩
  rcases h.marshalIn with hin | hin
  · rw [hin]
    decide
  · rw [hin]
    exact inert_taken p (inert_append.2 ⟨by decide, inert_arg p⟩)

/-- What the rules write themselves is inert. -/
theorem inert_standardRules : ∀ r ∈ standardRules, Inert r.abiType ∧ Inert r.cType ∧ Inert r.fieldAccessor := by
  decide +kernel

theorem inert_ownTypes : ∀ c ∈ ownTypes, Inert c := by decide +kernel

/-- **The texts of a parameter are inert** if its cast is, and the names of the struct classes are. -/
theorem inert_of_mapped {m : NativeMethod} {r : Rule} {c : Option StructClass}
    (h : Mapped standardRules structs m p t r c) (hs : ∀ s ∈ structs, InertNames s)
    (hp : ∀ k, p.cast = some k → Inert k) : InertParameter t := by
  obtain ⟨hr, -⟩ := of_ruleFor? h.rule
  obtain ⟨hdecl, hin, hout⟩ := (crossing_or_unpinnable h).elim (inert_of_crossing · hs) (inert_of_unpinnable · hs)
  refine ⟨?_, ?_, hdecl, hin, hout, ?_⟩
  · rw [h.abiType]
    exact (inert_standardRules r hr).1
  · rcases cType_of_mapped h with hcast | hown | ⟨native, hnative, htype⟩
    · exact inert_castType hp hcast
    · exact inert_ownTypes _ hown
    · rw [htype]
      exact inert_append.2 ⟨inert_ofStruct (fun s hmem => (hs s hmem).2) hnative, by decide⟩
  · obtain ⟨k, a, hk, ha, harg⟩ := callArg_of_mapped h
    rw [harg]
    refine inert_append.2 ⟨?_, ?_⟩
    · rcases hk with rfl | rfl | hk
      · decide
      · decide
      · exact hp k hk
    · rcases ha with rfl | rfl | rfl
      · exact inert_arg p
      · exact inert_localOf p
      · exact inert_append.2 ⟨by decide, inert_arg p⟩

end

/-! ## 5. Results and fields -/

/-- The texts of a result are inert. -/
structure InertResult (t : ValueMapping) : Prop where
  abiType : Inert t.abiType
  cType : Inert t.cType
  marshalOut : Inert t.marshalOut

/-- **The texts of a result are inert** if its cast is. -/
theorem inert_of_resultMapped {m : NativeMethod} {t : ValueMapping} (h : ResultMapped m t)
    (hm : ∀ k, m.cast = some k → Inert k) : InertResult t := by
  refine ⟨?_, ?_, ?_⟩
  · rcases h.abiType with habi | habi
    · rw [habi]
      decide
    · exact inert_ownTypes _ habi
  · obtain ⟨c, hc, htype⟩ := h.cType
    have hinert : Inert c := hc.elim (inert_castType hm) (inert_ownTypes c)
    rcases htype with htype | htype
    · rw [htype]
      exact hinert
    · rw [htype]
      exact inert_append.2 ⟨by decide, hinert⟩
  · have hframes : ∀ f ∈ resultFrames, Inert (f.1 ++ value ++ f.2) := by decide
    rcases h.marshalOut with hout | ⟨f, hf, hout⟩
    · rw [hout]
      decide
    · rw [hout]
      exact hframes f hf

/-- The texts of a field are inert. -/
structure InertField (t : ValueMapping) : Prop where
  abiType : Inert t.abiType
  cType : Inert t.cType
  fieldAccessor : Inert t.fieldAccessor

/-- **The texts of a field are inert** if its cast is. -/
theorem inert_of_fieldMapping {e : Mapper} (he : e.rules = standardRules) {f : StructMember}
    {t : ValueMapping} (h : e.fieldMapping f = .ok t) (hf : ∀ k, f.cast = some k → Inert k) : InertField t := by
  obtain ⟨r, hr⟩ := exists_fieldMapped h
  have hfound := hr.rule
  rw [he] at hfound
  obtain ⟨habi, hcType, haccessor⟩ := inert_standardRules r (of_ruleFor? hfound).1
  refine ⟨hr.abiType ▸ habi, ?_, hr.fieldAccessor ▸ haccessor⟩
  rw [hr.cType]
  cases hc : castType? f.cast with
  | none => exact hcType
  | some c => exact inert_castType hf hc

end NativeGlue.Code
