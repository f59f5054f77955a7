import NativeGlue.Code.Methods
import NativeGlue.Proofs.Source.Declared
import NativeGlue.Proofs.Symbol.Descriptor

/-!
# No symbol twice

The symbols of the native methods of a model are pairwise different, those that a virtual machine
looks for and those in guards and statistics. Inside a unit methods differ in their names or in the
descriptors of their parameters, and methods of one name all show their signature; across units the
class names differ, and a symbol determines its class.
-/

namespace NativeGlue.Symbol

open NativeGlue.Text NativeGlue.Source

/-! ## 1. Signatures -/

theorem toList_join (l : List String) : (String.join l).toList = (l.map String.toList).flatten := by
  rw [String.toList_join, List.flatMap_def]

/-- The signature in the descriptor of a method: the descriptors of its parameters side by side. -/
theorem toList_signaturePart {n : NativeMethod}
    (h : ∀ p ∈ n.parameters, IsDescriptor p.type.descriptor.toList) :
    (signaturePart n.descriptor).toList =
      (n.parameters.map fun p => p.type.descriptor.toList).flatten := by
  have hjoin : (String.join (n.parameters.map (·.type.descriptor))).toList =
      (n.parameters.map fun p => p.type.descriptor.toList).flatten := by
    rw [toList_join, List.map_map]
    rfl
  have hopen : ')' ∉ (String.join (n.parameters.map (·.type.descriptor))).toList := by
    rw [hjoin]
    intro hc
    obtain ⟨d, hd, hcd⟩ := List.mem_flatten.1 hc
    obtain ⟨p, hp, rfl⟩ := List.mem_map.1 hd
    exact (h p hp).not_mem (.inr rfl) hcd
  rw [NativeMethod.descriptor, (signaturePart_eq_iff _ _).2 hopen, hjoin]

/-- **Two methods with one signature have the same descriptors, one by one.** -/
theorem descriptors_of_signaturePart {n k : NativeMethod}
    (hn : ∀ p ∈ n.parameters, IsDescriptor p.type.descriptor.toList)
    (hk : ∀ p ∈ k.parameters, IsDescriptor p.type.descriptor.toList)
    (h : signaturePart n.descriptor = signaturePart k.descriptor) :
    n.parameters.map (·.type.descriptor) = k.parameters.map (·.type.descriptor) := by
  have h := congrArg String.toList h
  rw [toList_signaturePart hn, toList_signaturePart hk] at h
  have all : ∀ {m : NativeMethod}, (∀ p ∈ m.parameters, IsDescriptor p.type.descriptor.toList) →
      ∀ d ∈ m.parameters.map fun p => p.type.descriptor.toList, IsDescriptor d := by
    intro m hm d hd
    obtain ⟨p, hp, rfl⟩ := List.mem_map.1 hd
    exact hm p hp
  have heq := flatten_injective (all hn) (all hk) h
  have strings : ∀ m : NativeMethod, (m.parameters.map fun p => p.type.descriptor.toList) =
      (m.parameters.map (·.type.descriptor)).map String.toList := by
    intro m
    rw [List.map_map]
    rfl
  rw [strings, strings] at heq
  exact (List.map_injective_iff.2 fun _ _ => String.toList_injective) heq

theorem isSignature_overloadSignature {n : NativeMethod}
    (h : ∀ p ∈ n.parameters, IsDescriptor p.type.descriptor.toList) :
    ∀ s ∈ Code.overloadSignature n, IsSignature s.toList := by
  intro s hs
  unfold Code.overloadSignature at hs
  split at hs
  · obtain rfl := Option.some.inj hs
    rw [toList_signaturePart h]
    refine isSignature_flatten fun d hd => ?_
    obtain ⟨p, hp, rfl⟩ := List.mem_map.1 hd
    exact h p hp
  · cases hs

/-! ## 2. Units -/

/-- A unit whose symbols can be read: its names are identifiers, and overloads show their signatures. -/
structure Legible (u : ClassUnit) : Prop where
  className : IsIdentifier u.className.toList
  enclosing : ∀ n ∈ u.natives, n.identity.enclosing = u.className
  names : ∀ n ∈ u.natives, IsIdentifier n.name.toList
  descriptors : ∀ n ∈ u.natives, ∀ p ∈ n.parameters, IsDescriptor p.type.descriptor.toList
  overloads : u.natives.Pairwise fun n k =>
    n.name = k.name → n.overloaded = true ∧ k.overloaded = true

/-- A unit whose methods can be told apart by name and signature. -/
structure Tellable (u : ClassUnit) : Prop extends Legible u where
  distinct : (u.natives.map fun n => (n.name, n.parameters.map (·.type.descriptor))).Nodup

/-- A symbol of a unit says which class, which name and which signature it is made of. -/
theorem Legible.eq_of_methodSymbol {u v : ClassUnit} (hu : Legible u) (hv : Legible v) {c d : String}
    {ss ts : List (List Char)} (hc : IsDotted c ss) (hd : IsDotted d ts) {n k : NativeMethod}
    (hn : n ∈ u.natives) (hk : k ∈ v.natives)
    (h : methodSymbol c n.name (Code.overloadSignature n) =
      methodSymbol d k.name (Code.overloadSignature k)) :
    ss = ts ∧ n.name = k.name ∧ Code.overloadSignature n = Code.overloadSignature k :=
  methodSymbol_injective hc hd (hu.names n hn) (hv.names k hk)
    (isSignature_overloadSignature (hu.descriptors n hn))
    (isSignature_overloadSignature (hv.descriptors k hk)) h

/-- Overloads of one signature have the same descriptors. -/
theorem Legible.descriptors_of_overloads {u : ClassUnit} (h : Legible u) {n k : NativeMethod}
    (hn : n ∈ u.natives) (hk : k ∈ u.natives) (hover : n.overloaded = true ∧ k.overloaded = true)
    (hsig : Code.overloadSignature n = Code.overloadSignature k) :
    n.parameters.map (·.type.descriptor) = k.parameters.map (·.type.descriptor) := by
  unfold Code.overloadSignature at hsig
  rw [hover.1, hover.2, if_pos rfl, if_pos rfl] at hsig
  exact descriptors_of_signaturePart (h.descriptors n hn) (h.descriptors k hk) (Option.some.inj hsig)

/-- The symbols of a unit are pairwise different, by whatever class name they go. -/
theorem Tellable.nodup {u : ClassUnit} (h : Tellable u) {c : String} {ss : List (List Char)}
    (hc : IsDotted c ss) :
    (u.natives.map fun n => methodSymbol c n.name (Code.overloadSignature n)).Nodup := by
  have hd := List.pairwise_map.1 h.distinct
  rw [List.Nodup, List.pairwise_map]
  refine (hd.and h.overloads).imp_of_mem fun {n k} hn hk hnk he => ?_
  obtain ⟨hdistinct, hover⟩ := hnk
  obtain ⟨-, hname, hsig⟩ := h.toLegible.eq_of_methodSymbol h.toLegible hc hc hn hk he
  have hds := h.descriptors_of_overloads hn hk (hover hname) hsig
  exact hdistinct (by rw [hname, hds])

/-- **The symbols of units with different classes are pairwise different**, whether the class goes by
its own name or by that and its package. -/
theorem nodup_symbols {us : List ClassUnit} (h : ∀ u ∈ us, Tellable u)
    (hnames : us.Pairwise fun u v => u.className ≠ v.className) {classOf : ClassUnit → String}
    (hclass : ∀ u ∈ us, ∃ ss, IsDotted (classOf u) (ss ++ [u.className.toList])) :
    (us.flatMap fun u => u.natives.map fun n =>
      methodSymbol (classOf u) n.name (Code.overloadSignature n)).Nodup := by
  rw [List.Nodup, List.pairwise_flatMap]
  constructor
  · intro u hu
    obtain ⟨ss, hc⟩ := hclass u hu
    exact (h u hu).nodup hc
  · refine hnames.imp_of_mem fun {u v} hu hv huv s hs t ht hst => huv ?_
    obtain ⟨n, hn, rfl⟩ := List.mem_map.1 hs
    obtain ⟨k, hk, rfl⟩ := List.mem_map.1 ht
    obtain ⟨ss, hcu⟩ := hclass u hu
    obtain ⟨ts, hcv⟩ := hclass v hv
    obtain ⟨hseg, -, -⟩ := (h u hu).eq_of_methodSymbol (h v hv).toLegible hcu hcv hn hk hst
    obtain ⟨-, hlast⟩ := List.append_inj' hseg rfl
    exact String.toList_injective (List.cons.inj hlast).1

/-! ## 3. Models -/

/-- A source file whose names are what the language allows. -/
structure WellNamed (f : Java.FileOutline) : Prop where
  package : f.package = "" ∨ ∃ ss, ss ≠ [] ∧ (∀ s ∈ ss, IsIdentifier s) ∧
    f.package.toList = ['.'].intercalate ss
  classes : ∀ c ∈ f.classes, IsIdentifier c.name.toList
  methods : ∀ c ∈ f.classes, ∀ n ∈ c.natives, IsIdentifier n.name.toList
  parameters : ∀ c ∈ f.classes, ∀ n ∈ c.natives, ∀ p ∈ n.parameters, IsTypeText p.type

/-- A class name behind its package. -/
theorem isDotted_append {package name : String} {ss : List (List Char)} (hne : ss ≠ [])
    (hs : ∀ s ∈ ss, IsIdentifier s) (hp : package.toList = ['.'].intercalate ss)
    (hn : IsIdentifier name.toList) : IsDotted (package ++ "." ++ name) (ss ++ [name.toList]) := by
  refine ⟨List.append_ne_nil_of_left_ne_nil hne _, fun s hm => ?_, ?_⟩
  · rcases List.mem_append.1 hm with hm | hm
    · exact hs s hm
    · rw [List.mem_singleton.1 hm]
      exact hn
  · have hname : slashed name.toList = name.toList := slashed_of_not_mem (hn.not_mem rfl)
    have hdot : (".": String).toList = ['.'] := rfl
    rw [String.toList_append, String.toList_append, hp, hdot, joined_append hne,
      ← slashed_intercalate hs]
    conv => rhs; rw [← hname]
    simp only [slashed, List.map_append, List.append_assoc]
    rfl

theorem isDotted_singleton {name : String} (hn : IsIdentifier name.toList) :
    IsDotted name [name.toList] := by
  refine ⟨List.cons_ne_nil _ _, fun s hs => ?_, ?_⟩
  · rw [List.mem_singleton.1 hs]
    exact hn
  · rw [joined_singleton, slashed_of_not_mem (hn.not_mem rfl)]

/-- The name of a class behind its package is a class name in segments. -/
theorem isClassPath_qualified {files : List OutlinedFile} (hf : ∀ f ∈ files, WellNamed f.outline)
    {c : DeclaredClass} (hc : c ∈ classesOf files) : IsClassPath c.qualified := by
  obtain ⟨f, hfm, hpackage, houtline⟩ := exists_file_of_mem_classesOf hc
  have hname : IsIdentifier c.name.toList := (hf f hfm).classes _ houtline
  unfold DeclaredClass.qualified
  rw [hpackage]
  split
  · exact isClassPath_of_isIdentifier hname
  rename_i hne
  rcases (hf f hfm).package with he | ⟨ss, hss, hs, hp⟩
  · rw [he] at hne
    exact absurd rfl hne
  · refine ⟨ss ++ [c.name.toList], List.append_ne_nil_of_left_ne_nil hss _,
      (isDotted_append hss hs hp hname).identifiers, ?_⟩
    have hslash : (replaceChars (· == '.') '/' f.outline.package).toList = joined ss := by
      rw [replaceChars, String.toList_ofList, hp, ← slashed_intercalate hs, slashed]
      simp only [beq_iff_eq]
    rw [String.toList_append, String.toList_append, hslash, joined_append hss, List.append_assoc]
    rfl

/-- The symbols of a model that was built from well named files can be read. -/
theorem legible_of_modelFrom {store : Overlay.Store} {files : List OutlinedFile}
    {known : List (String × DeclaredClass)} {es : List DeclaredClass} {m : Model}
    (h : ModelFrom store files known es m) (hf : ∀ f ∈ files, WellNamed f.outline)
    {u : ClassUnit} (hu : u ∈ m.units) : Legible u := by
  obtain ⟨e, he, hue⟩ := exists_of_mem_forall₂ h.units hu
  obtain ⟨c, hc, directives, rfl⟩ := h.declared e he
  obtain ⟨f, hfm, -, houtline⟩ := exists_file_of_mem_classesOf hc
  have hwell := hf f hfm
  obtain ⟨ds, hsub, hds⟩ := hue.natives
  have hqualified : ∀ q ∈ (scopeOf store known).qualified, IsClassPath q.2 := by
    intro q hq
    obtain ⟨k, hk, hqk⟩ := h.qualified q hq
    rw [hqk]
    exact isClassPath_qualified hf hk
  refine ⟨?_, fun n hn => ?_, fun n hn => ?_, fun n hn p hp => ?_, overloads_of_nativesFrom hsub hds⟩
  · rw [hue.className]
    exact hwell.classes _ houtline
  · obtain ⟨d, -, hdn⟩ := exists_of_mem_forall₂ hds hn
    rw [hdn.identity, hue.className]
    rfl
  · obtain ⟨d, hdm, hdn⟩ := exists_of_mem_forall₂ hds hn
    rw [NativeMethod.name, hdn.identity]
    exact hwell.methods _ houtline d (hsub.subset hdm)
  · obtain ⟨d, hdm, hdn⟩ := exists_of_mem_forall₂ hds hn
    obtain ⟨⟨q, i⟩, hq, hqp⟩ := exists_of_mem_forall₂ hdn.parameters hp
    have htext : IsTypeText q.type :=
      hwell.parameters _ houtline d (hsub.subset hdm) q (List.fst_mem_of_mem_zipIdx hq)
    rw [hqp.descriptor]
    exact isDescriptor_typeNamed htext _ hqualified

/-- The full class name of a unit ends in the name of its class. -/
theorem exists_isDotted_fullName {store : Overlay.Store} {files : List OutlinedFile}
    {known : List (String × DeclaredClass)} {es : List DeclaredClass} {m : Model}
    (h : ModelFrom store files known es m)
    (hf : ∀ f ∈ files, WellNamed f.outline) {u : ClassUnit} (hu : u ∈ m.units)
    (hname : IsIdentifier u.className.toList) :
    ∃ ss, IsDotted u.fullName (ss ++ [u.className.toList]) := by
  obtain ⟨e, he, hue⟩ := exists_of_mem_forall₂ h.units hu
  obtain ⟨c, hc, directives, rfl⟩ := h.declared e he
  obtain ⟨f, hfm, hpackage, -⟩ := exists_file_of_mem_classesOf hc
  unfold ClassUnit.fullName
  rw [hue.package, hpackage]
  split
  · exact ⟨[], isDotted_singleton hname⟩
  rename_i hne
  rcases (hf f hfm).package with hempty | ⟨ss, hss, hs, hp⟩
  · rw [hempty] at hne
    exact absurd rfl hne
  · exact ⟨ss, isDotted_append hss hs hp hname⟩

/-- **No two native methods of a model share a symbol**, neither the one that a virtual machine looks
for nor the one in guards and statistics, if no class declares a name twice with the same parameter
types. -/
theorem nodup_symbols_of_modelOf {store : Overlay.Store} {files : List OutlinedFile} {m : Model}
    (h : modelOf store files = .ok m) (hf : ∀ f ∈ files, WellNamed f.outline)
    (hd : ∀ u ∈ m.units,
      (u.natives.map fun n => (n.name, n.parameters.map (·.type.descriptor))).Nodup) :
    (m.units.flatMap fun u => u.natives.map fun n => Code.entryPoint n u.package).Nodup ∧
      (m.natives.map Code.methodSymbol).Nodup := by
  obtain ⟨known, es, hm⟩ := modelFrom_of_modelOf h
  have tellable : ∀ u ∈ m.units, Tellable u := fun u hu => ⟨legible_of_modelFrom hm hf hu, hd u hu⟩
  have hnames : m.units.Pairwise fun u v => u.className ≠ v.className := by
    refine pairwise_of_forall₂ (fun {e e' u v} hu hv hne => ?_) hm.units hm.names
    rw [hu.className, hv.className]
    exact hne
  constructor
  · have hclass : ∀ u ∈ m.units, ∃ ss, IsDotted u.fullName (ss ++ [u.className.toList]) := fun u hu =>
      exists_isDotted_fullName hm hf hu (tellable u hu).className
    have hentry : (m.units.flatMap fun u => u.natives.map fun n => Code.entryPoint n u.package) =
        (m.units.flatMap fun u => u.natives.map fun n =>
          methodSymbol u.fullName n.name (Code.overloadSignature n)).map
            (String.ofList entryMark ++ ·) := by
      rw [List.map_flatMap]
      refine List.flatMap_congr fun u hu => ?_
      rw [List.map_map]
      refine List.map_congr_left fun n hn => ?_
      rw [Code.entryPoint, (tellable u hu).enclosing n hn]
      rfl
    rw [hentry]
    exact (nodup_symbols tellable hnames hclass).map fun _ _ => (String.append_right_inj _).1
  · have hclass : ∀ u ∈ m.units, ∃ ss, IsDotted u.className (ss ++ [u.className.toList]) :=
      fun u hu => ⟨[], isDotted_singleton (tellable u hu).className⟩
    have hsymbol : m.natives.map Code.methodSymbol = m.units.flatMap fun u => u.natives.map fun n =>
        methodSymbol u.className n.name (Code.overloadSignature n) := by
      rw [Model.natives, List.map_flatMap]
      refine List.flatMap_congr fun u hu => ?_
      refine List.map_congr_left fun n hn => ?_
      rw [Code.methodSymbol, (tellable u hu).enclosing n hn]
    rw [hsymbol]
    exact nodup_symbols tellable hnames hclass

/-- Two files, one of them in a package, with overloads and with names that need escapes. -/
def escapedFiles : List OutlinedFile :=
  [ { path := ⟨.here, ["P_.java"]⟩
      outline :=
        { package := "a.b_1"
          classes :=
            [ { name := "P_", line := 1, fields := []
                natives :=
                  [ ⟨"f", [⟨"x", "int", 2⟩], "void", ["native"], 2, none⟩,
                    ⟨"f", [⟨"x", "a.Q[]", 3⟩], "void", ["native"], 3, none⟩,
                    ⟨"é1", [], "int", ["native"], 4, none⟩ ] } ] } },
    { path := ⟨.here, ["P.java"]⟩
      outline :=
        { package := ""
          classes :=
            [ { name := "P", line := 1, fields := []
                natives := [⟨"_f", [⟨"x", "String", 2⟩], "void", ["native"], 2, none⟩] } ] } } ]

theorem wellNamed_escapedFiles : ∀ f ∈ escapedFiles, WellNamed f.outline := by
  have packages : ∀ f ∈ escapedFiles, f.outline.package = "" ∨ f.outline.package = "a.b_1" := by decide
  have types : ∀ f ∈ escapedFiles, ∀ c ∈ f.outline.classes, ∀ n ∈ c.natives, ∀ p ∈ n.parameters,
      p.type = "int" ∨ p.type = "a.Q[]" ∨ p.type = "String" := by decide
  refine fun f hf => ⟨(packages f hf).imp_right fun h => ?_, ?_, ?_, fun c hc n hn p hp => ?_⟩
  · rw [h]
    exact ⟨["a".toList, "b_1".toList], by decide, by decide, rfl⟩
  · revert f
    decide
  · revert f
    decide
  · rcases types f hf c hc n hn p hp with h | h | h
    all_goals rw [h]
    · exact ⟨["int".toList], 0, by decide, by decide, rfl⟩
    · exact ⟨["a".toList, "Q".toList], 1, by decide, by decide, rfl⟩
    · exact ⟨["String".toList], 0, by decide, by decide, rfl⟩


/-- Its symbols for the virtual machine are `Java_a_b_11_P_1_f__I`, `Java_a_b_11_P_1_f___3La_Q_2`,
`Java_a_b_11_P_1__000e91` and `Java_P__1f`. -/
theorem nodup_symbols_escapedFiles :
    ∃ m, modelOf {} escapedFiles = .ok m ∧ m.natives.length = 4 ∧
      (∀ u ∈ m.units,
        (u.natives.map fun n => (n.name, n.parameters.map (·.type.descriptor))).Nodup) ∧
      (m.units.flatMap fun u => u.natives.map fun n => Code.entryPoint n u.package).Nodup ∧
      (m.natives.map Code.methodSymbol).Nodup := by
  have hbuilt : ∃ m ∈ (modelOf {} escapedFiles).toOption, m.natives.length = 4 ∧
      ∀ u ∈ m.units,
        (u.natives.map fun n => (n.name, n.parameters.map (·.type.descriptor))).Nodup := by
    decide +kernel
  obtain ⟨m, hm, hlength, hdistinct⟩ := hbuilt
  have hm : modelOf {} escapedFiles = .ok m := ok_of_toOption hm
  exact ⟨m, hm, hlength, hdistinct, nodup_symbols_of_modelOf hm wellNamed_escapedFiles hdistinct⟩

end NativeGlue.Symbol
