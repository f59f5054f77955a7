import NativeGlue.Proofs.Mapping.StandardRules
import NativeGlue.Proofs.Source.Classes

/-!
# Which struct class a parameter stands for

A parameter that stands for a struct is carried by the functions of the struct class that goes by its
simple name (`carriedBy_of_mapped`), and there is exactly one (`structClassNamed?_of_mem`). Its
descriptor names the class that the declaration writes. The two are the same class if the declaration
writes a simple name, or the full name of that class (`mirrored_of_modelOf`); a class of another package
by the same simple name is registered as what it is and carried as what it is not (`strayed_farFiles`).
-/

namespace NativeGlue.Mapping

open NativeGlue.Template NativeGlue.Source NativeGlue.Java NativeGlue.Text

/-! ## 1. The struct class of a name -/

/-- A struct class is found by its name where no other goes by it. -/
theorem structClassNamed?_of_mem {structs : List StructClass} (h : (structs.map (·.name)).Nodup)
    {s : StructClass} (hs : s ∈ structs) : structClassNamed? structs s.name = some s := by
  cases hfound : structClassNamed? structs s.name with
  | none =>
    have hnone := List.find?_eq_none.1 hfound s (List.mem_reverse.2 hs)
    exact absurd (beq_self_eq_true _) hnone
  | some t =>
    obtain ⟨ht, hname⟩ := of_structClassNamed? hfound
    rw [List.inj_on_of_nodup_map h ht hs hname]

section

variable {store : Overlay.Store} {files : List OutlinedFile} {known : List (String × DeclaredClass)}
  {es : List DeclaredClass} {model : Model}

/-- No two struct classes of a model share a name. -/
theorem nodup_name_structs (h : ModelFrom store files known es model) :
    (model.structs.map (·.name)).Nodup := by
  unfold Model.structs
  rw [List.Nodup, List.pairwise_map, List.pairwise_flatMap]
  refine ⟨fun u hu => ?_, ?_⟩
  · obtain ⟨e, -, hue⟩ := exists_of_mem_forall₂ h.units hu
    have hcount : u.structs.length ≤ 1 := by
      rw [hue.count]
      split <;> decide
    match u.structs, hcount with
    | [], _ => exact .nil
    | [s], _ => exact List.pairwise_singleton _ s
  · refine pairwise_of_forall₂ (fun {e f u v} hu hv hne s hs t ht => ?_) h.units h.names
    rw [(hu.structs s hs).name, (hv.structs t ht).name]
    exact hne

/-- **A name that stands for a struct has a struct class**, and the name means the class that this
one comes from. -/
theorem exists_struct_of_mem (h : ModelFrom store files known es model) {name : String}
    (hn : name ∈ (scopeOf store known).structClassNames) :
    ∃ s ∈ model.structs, s.name = name ∧
      (scopeOf store known).qualified.lookup name = some s.qualified ∧
      ∃ c ∈ classesOf files, c.name = name ∧ s.qualified = c.qualified := by
  have hk := knownFrom_of_classesByName h.index
  obtain ⟨e, he⟩ := exists_of_mem_structClassNames hk hn
  obtain ⟨rfl, -⟩ := mem_chosenClasses hk he
  have hmem := h.complete e he (.inr hn)
  obtain ⟨u, hu, hue⟩ := exists_of_mem_forall₂ h.units.flip hmem
  have hcount := hue.count
  rw [if_pos (List.contains_iff_mem.2 hn)] at hcount
  obtain ⟨s, hs⟩ := List.length_eq_one_iff.1 hcount
  have hsu : s ∈ u.structs := hs ▸ List.mem_cons_self
  have hfrom := hue.structs s hsu
  obtain ⟨c, hc, directives, hec⟩ := h.declared e hmem
  refine ⟨s, List.mem_flatMap_of_mem hu hsu, hfrom.name, ?_, c, hc, ?_, ?_⟩
  · rw [lookup_qualified, he, hfrom.qualified]
    rfl
  · rw [hec]
    rfl
  · rw [hfrom.qualified, hec]
    rfl

end

/-! ## 2. The functions of a struct class -/

/-- A parameter is carried by the functions of a struct class. -/
structure CarriedBy (s : StructClass) (p : Parameter) (t : ValueMapping) : Prop where
  abiType : t.abiType = "jobject"
  descriptor : t.descriptor = "L" ++ s.qualified ++ ";"
  localDecl : t.localDecl = s.nativeName ++ " _" ++ p.arg ++ ", *" ++ localOf p ++ "=NULL;"
  marshalIn : t.marshalIn = if p.flags.noIn then taken p ("&_" ++ p.arg)
    else taken p ("get" ++ s.name ++ "Fields(env, " ++ p.arg ++ ", &_" ++ p.arg ++ ")")
  release : t.release = if p.ownership = .borrowed then ""
    else given p (giveCall ("set" ++ s.name ++ "Fields") p "")

/-- **A struct is carried by the functions of the struct class that goes by its name.** -/
theorem carriedBy_of_mapped {structs : List StructClass} {m : NativeMethod} {p : Parameter}
    {t : ValueMapping} {r : Rule} {c : Option StructClass} (h : Mapped standardRules structs m p t r c)
    (hs : p.type.kind = .struct) (ha : p.type.isArray = false) :
    ∃ s, structClassNamed? structs p.type.name = some s ∧ CarriedBy s p t := by
  obtain ⟨hr, hkey⟩ := of_ruleFor? h.rule
  have hrule : ∀ r ∈ standardRules, r.key = "struct" → r = structRule := by decide +kernel
  obtain rfl := hrule r hr (hkey.trans (key_of_struct hs))
  obtain ⟨s, rfl, hfound⟩ := h.named hs
  have hp : isPinned p m = false := by
    rw [isPinned, ha, Bool.false_and]
  refine ⟨s, hfound, h.abiType, Except.ok.inj (h.descriptor.symm.trans fill_structDescriptor),
    Except.ok.inj (h.localDecl.symm.trans fill_structDecl), ?_, ?_⟩
  · have htake := h.marshalIn
    have hno : structRule.noIn.isEmpty = false := by decide +kernel
    unfold marshalTemplates at htake
    rw [hp, if_neg Bool.false_ne_true, hno, Bool.not_false, Bool.and_true] at htake
    dsimp only at htake
    split at htake
    · rename_i hflag
      rw [if_pos hflag]
      exact Except.ok.inj (htake.symm.trans fill_structNoIn)
    · rename_i hflag
      rw [if_neg hflag]
      exact Except.ok.inj (htake.symm.trans fill_structIn)
  · have hgive := h.release
    unfold marshalTemplates at hgive
    rw [hp, if_neg Bool.false_ne_true] at hgive
    dsimp only at hgive
    split at hgive
    · rename_i hborrowed
      rw [if_pos hborrowed.1]
      exact Except.ok.inj (hgive.symm.trans fill_empty)
    · rename_i hborrowed
      rw [if_neg fun ho => hborrowed ⟨ho, hs⟩]
      exact Except.ok.inj (hgive.symm.trans fill_structOut)

/-! ## 3. The class that is written -/

/-- A parameter that stands for a struct class, and the text that names its type. -/
structure Mirrored (model : Model) (n : NativeMethod) (text : String) (p : Parameter)
    (s : StructClass) : Prop where
  mem : s ∈ model.structs
  found : structClassNamed? model.structs p.type.name = some s
  unique : ∀ k ∈ model.structs, k.name = p.type.name → k = s
  descriptor : p.type.descriptor = "L" ++ s.qualified ++ ";" ↔
    ('.' ∈ text.toList → replaceChars (· == '.') '/' text = s.qualified)
  carried : ∀ (e : Mapper) (t : ValueMapping), e.rules = standardRules →
    e.paramMapping model.structs n p = .ok t → CarriedBy s p t

section

variable {scope : Scope} {text : String} {p : Parameter}

/-- What the text says of a parameter that stands for a struct. -/
structure StructText (scope : Scope) (text : String) (p : Parameter) : Prop where
  type : p.type = scope.resolve text
  names : NamesClass text
  member : p.type.name ∈ scope.structClassNames
  pairs : pairsOf text = 0
  name : p.type.name = simpleOf text
  isArray : p.type.isArray = false

theorem structText_of_type (hp : p.type = asPointer (scope.resolve text) p.flags.callback p.cast)
    (hs : p.type.kind = .struct) : StructText scope text p := by
  have hresolve : p.type = scope.resolve text := by
    rw [hp] at hs
    exact hp.trans (asPointer_of_struct hs)
  have hnamed := named text scope.structClassNames scope.qualified
  rw [← Scope.resolve, ← hresolve] at hnamed
  obtain ⟨hnames, hmember, hpairs⟩ := hnamed.of_struct hs
  obtain ⟨-, hname, hone, -⟩ := hnamed.of_class hnames
  refine ⟨hresolve, hnames, hname ▸ hmember, hpairs, hname, ?_⟩
  rw [HostType.isArray, hone, hpairs]
  rfl

/-- A full name is registered as it is written. -/
theorem StructText.descriptor_of_dotted (h : StructText scope text p) (hd : '.' ∈ text.toList)
    (hn : primitiveDescriptor? p.type.name = none) :
    p.type.descriptor = "L" ++ replaceChars (· == '.') '/' text ++ ";" := by
  rw [h.type, Source.descriptor_of_dotted h.names h.pairs hd (h.name ▸ hn)]

/-- A simple name is registered as the class that goes by it. -/
theorem StructText.descriptor_of_undotted (h : StructText scope text p) (hd : '.' ∉ text.toList)
    (hn : primitiveDescriptor? p.type.name = none) {c : DeclaredClass} (hc : p.type.name = c.name)
    (hq : scope.qualified.lookup p.type.name = some c.qualified) :
    p.type.descriptor = "L" ++ c.qualified ++ ";" := by
  have hbase := baseOf_of_pairsOf h.pairs
  have hname : p.type.name = text :=
    h.name.trans ((simpleOf_of_undotted (hbase.symm ▸ hd)).trans hbase)
  have hsimple : SimpleName text :=
    ⟨hd, h.pairs, hname ▸ hn, fun hstring => h.names.string (.inl (hbase.trans hstring))⟩
  rw [h.type, descriptor_of_lookup hsimple (hc.symm.trans hname) (hname ▸ hq)]

end

section

variable {store : Overlay.Store} {files : List OutlinedFile} {known : List (String × DeclaredClass)}
  {es : List DeclaredClass} {model : Model}

theorem mirrored_of_modelFrom (h : ModelFrom store files known es model)
    (hw : ∀ f ∈ files, ∀ c ∈ f.outline.classes, primitiveDescriptor? c.name = none)
    {n : NativeMethod} {text : String} {p : Parameter}
    (hp : p.type = asPointer ((scopeOf store known).resolve text) p.flags.callback p.cast)
    (hs : p.type.kind = .struct) : ∃ s, Mirrored model n text p s := by
  have htext := structText_of_type hp hs
  obtain ⟨s, hsm, hname, hlookup, c, hc, hcname, hcq⟩ := exists_struct_of_mem h htext.member
  have hnodup := nodup_name_structs h
  have hfound : structClassNamed? model.structs p.type.name = some s := by
    rw [← hname]
    exact structClassNamed?_of_mem hnodup hsm
  have hprimitive : primitiveDescriptor? p.type.name = none := by
    obtain ⟨f, hf, -, hfc⟩ := exists_file_of_mem_classesOf hc
    rw [← hcname]
    exact hw f hf _ hfc
  refine ⟨s, hsm, hfound, fun k hk hkn => List.inj_on_of_nodup_map hnodup hk hsm (hkn.trans hname.symm),
    ?_, fun e t he ht => ?_⟩
  · by_cases hd : '.' ∈ text.toList
    · rw [htext.descriptor_of_dotted hd hprimitive]
      refine ⟨fun hsame _ => ?_, fun hsame => by rw [hsame hd]⟩
      exact (String.append_right_inj _).1 ((String.append_left_inj _).1 hsame)
    · rw [htext.descriptor_of_undotted hd hprimitive hcname.symm (hcq ▸ hlookup), hcq]
      exact iff_of_true rfl fun hdot => absurd hdot hd
  · obtain ⟨r, c, hmapped⟩ := exists_mapped ht
    rw [he] at hmapped
    obtain ⟨k, hk, hcarried⟩ := carriedBy_of_mapped hmapped hs htext.isArray
    rw [hfound] at hk
    rwa [Option.some.inj hk]

end

/-- **A parameter that stands for a struct is carried as the class that it is registered for**, if its
declaration writes the simple name of a class, or the full name of the class that goes by it. -/
theorem mirrored_of_modelOf {store : Overlay.Store} {files : List OutlinedFile} {model : Model}
    (h : modelOf store files = .ok model)
    (hw : ∀ f ∈ files, ∀ c ∈ f.outline.classes, primitiveDescriptor? c.name = none)
    {n : NativeMethod} (hn : n ∈ model.natives) :
    ∃ c ∈ classesOf files, ∃ d ∈ c.outline.natives, Origin c d n ∧
      ∀ x ∈ d.parameters.zip n.parameters, x.2.type.kind = .struct →
        ∃ s, Mirrored model n x.1.type x.2 s := by
  obtain ⟨known, es, hm⟩ := modelFrom_of_modelOf h
  obtain ⟨c, hc, d, hd, horigin, -, htypes⟩ := hm.origin hn
  exact ⟨c, hc, d, hd, horigin, fun x hx hs => mirrored_of_modelFrom hm hw (htypes x hx) hs⟩

/-- A file with a method that takes a struct class by its simple name and by its full name. -/
def nearFiles : List OutlinedFile :=
  [ { path := ⟨.here, ["OS.java"]⟩
      outline :=
        { package := "p"
          classes :=
            [ { name := "Point", line := 2, natives := [], fields := [⟨"x", "int", 3, none⟩] },
              { name := "OS", line := 5, fields := []
                natives :=
                  [⟨"move", [⟨"a", "Point", 6⟩, ⟨"b", "p.Point", 6⟩], "void", ["native"], 6, none⟩] } ] } } ]

theorem mirrored_nearFiles :
    ∃ m n, modelOf {} nearFiles = .ok m ∧ n ∈ m.natives ∧ n.parameters.length = 2 ∧
      (∀ p ∈ n.parameters, p.type.kind = .struct) ∧
      ∃ c ∈ classesOf nearFiles, ∃ d ∈ c.outline.natives, Origin c d n ∧
        ∀ x ∈ d.parameters.zip n.parameters, x.2.type.kind = .struct →
          ∃ s, Mirrored m n x.1.type x.2 s := by
  have hbuilt : ∃ m ∈ (modelOf {} nearFiles).toOption, ∃ n ∈ m.natives, n.parameters.length = 2 ∧
      ∀ p ∈ n.parameters, p.type.kind = .struct := by
    decide +kernel
  obtain ⟨m, hm, n, hn, hlength, hstructs⟩ := hbuilt
  have hm := ok_of_toOption hm
  exact ⟨m, n, hm, hn, hlength, hstructs, mirrored_of_modelOf hm (by decide) hn⟩

/-- A file with a method that takes a class of another package. -/
def farFiles : List OutlinedFile :=
  [ { path := ⟨.here, ["OS.java"]⟩
      outline :=
        { package := "p"
          classes :=
            [ { name := "Point", line := 2, natives := [], fields := [⟨"x", "int", 3, none⟩] },
              { name := "OS", line := 5, fields := []
                natives := [⟨"move", [⟨"point", "q.Point", 6⟩], "void", ["native"], 6, none⟩] } ] } } ]

/-- **A class may be carried as another one**: the method is registered for instances of `q.Point`, and
the fields of `p.Point` are read from them. -/
theorem strayed_farFiles :
    ∃ m n p s t, modelOf {} farFiles = .ok m ∧ n ∈ m.natives ∧ p ∈ n.parameters ∧
      p.type.kind = .struct ∧ p.type.descriptor = "Lq/Point;" ∧
      structClassNamed? m.structs p.type.name = some s ∧ s.qualified = "p/Point" ∧
      Mapper.paramMapping ⟨"linux", 64, 8, standardRules⟩ m.structs n p = .ok t ∧
      t.descriptor = "Lp/Point;" := by
  have hbuilt : ∃ m ∈ (modelOf {} farFiles).toOption, ∃ n ∈ m.natives, ∃ p ∈ n.parameters,
      ∃ s ∈ structClassNamed? m.structs p.type.name,
        ∃ t ∈ (Mapper.paramMapping ⟨"linux", 64, 8, standardRules⟩ m.structs n p).toOption,
          p.type.kind = .struct ∧ primitiveDescriptor? p.type.name = none ∧ s.qualified = "p/Point" ∧
            t.descriptor = "Lp/Point;" := by
    decide +kernel
  obtain ⟨m, hm, n, hn, p, hp, s, hs, t, ht, hkind, hname, hqualified, hcarried⟩ := hbuilt
  have hm := ok_of_toOption hm
  obtain ⟨known, es, hfrom⟩ := modelFrom_of_modelOf hm
  obtain ⟨c, hc, d, hd, horigin, -, htypes⟩ := hfrom.origin hn
  obtain ⟨x, hx⟩ := horigin.exists_mem_zip hp
  have htext : ∀ c ∈ classesOf farFiles, ∀ d ∈ c.outline.natives, ∀ x ∈ d.parameters,
      x.type = "q.Point" := by
    decide
  have htype := htypes _ hx
  rw [htext c hc d hd x (List.of_mem_zip hx).1] at htype
  have hdescriptor := (structText_of_type htype hkind).descriptor_of_dotted (by decide) hname
  exact ⟨m, n, p, s, t, hm, hn, hp, hkind, hdescriptor, hs, hqualified, ok_of_toOption ht, hcarried⟩

end NativeGlue.Mapping
