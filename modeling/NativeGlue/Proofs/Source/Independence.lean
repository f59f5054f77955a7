import NativeGlue.Code.Methods
import NativeGlue.Proofs.Source.Classes
import NativeGlue.Proofs.Symbol.Descriptor

/-!
# What directives cannot change

Directives in doc comments and in the store turn classes into structs, numbers into pointers and native
methods into omissions. The identities of what is declared, and the symbols and descriptors of the
native methods that are left, are the same whatever they say (`sameDeclarations_of_modelOf`): all of them
come from the texts of the declarations and from the full names of classes.

The part of a descriptor between its parentheses is the signature of the identity as long as the
signature holds no parenthesis (`signaturePart_of_mem`). A name may be written with a comment inside, so
that it does (`cut_commentFiles`).
-/

namespace NativeGlue.Source

open NativeGlue.Java NativeGlue.Directive NativeGlue.Overlay NativeGlue.Text

/-! ## 1. Sources without doc comments -/

/-- A native method without its doc comment. -/
def bareMethod (d : NativeDecl) : NativeDecl := { d with doc := none }

/-- A class without its doc comments. -/
def bareOutline (c : ClassOutline) : ClassOutline :=
  { c with natives := c.natives.map bareMethod, fields := c.fields.map ({ · with doc := none })
           doc := none }

/-- A file without its doc comments. -/
def bareFile (f : OutlinedFile) : OutlinedFile :=
  { f with outline := { f.outline with classes := f.outline.classes.map bareOutline } }

/-- A class of a file without its doc comments. -/
def bareClass (c : DeclaredClass) : DeclaredClass := { c with outline := bareOutline c.outline }

/-- The classes of files without doc comments. -/
theorem classesOf_map_bareFile (files : List OutlinedFile) :
    classesOf (files.map bareFile) = (classesOf files).map bareClass :=
  classesOf_map_outline bareOutline files

/-- What two classes that differ in their doc comments have in common. -/
structure SameClass (c k : DeclaredClass) : Prop where
  name : c.name = k.name
  path : c.path = k.path
  package : c.package = k.package
  natives : c.outline.natives.map bareMethod = k.outline.natives.map bareMethod

theorem sameClass_of_bareClass {c k : DeclaredClass} (h : bareClass c = bareClass k) :
    SameClass c k :=
  ⟨(congrArg DeclaredClass.name h :), (congrArg DeclaredClass.path h :),
    (congrArg DeclaredClass.package h :), (congrArg (·.outline.natives) h :)⟩

theorem SameClass.qualified {c k : DeclaredClass} (h : SameClass c k) : c.qualified = k.qualified := by
  rw [DeclaredClass.qualified, DeclaredClass.qualified, h.package, h.name]

/-- How many methods of a class share a name does not depend on doc comments. -/
theorem SameClass.overloads {c k : DeclaredClass} (h : SameClass c k) (name : String) :
    (c.outline.natives.filter (·.name == name)).length =
      (k.outline.natives.filter (·.name == name)).length := by
  have hcount : ∀ ds : List NativeDecl,
      (ds.filter (·.name == name)).length = ((ds.map bareMethod).filter (·.name == name)).length := by
    intro ds
    rw [List.filter_map, List.length_map]
    rfl
  rw [hcount c.outline.natives, hcount k.outline.natives, h.natives]

/-! ## 2. Classes that are known by their names -/

/-- Where no two classes share a name, every class stands for its own. -/
theorem lookup_of_nodup {store : Store} {classes : List DeclaredClass}
    {known : List (String × DeclaredClass)} (h : classesByName store classes = .ok known)
    (hd : (classes.map (·.name)).Nodup) {c : DeclaredClass} (hc : c ∈ classes) :
    known.lookup c.name = some (heard c) := by
  rcases stands_of_classesByName h c.name with ⟨-, hempty⟩ | ⟨s, hs, hstands⟩
  · have hmem := heard_mem_homonyms hc
    rw [hempty] at hmem
    cases hmem
  · obtain ⟨k, hk, rfl⟩ := List.mem_map.1 hstands.mem
    obtain ⟨hk, hname⟩ := List.mem_filter.1 hk
    rw [hs, List.inj_on_of_nodup_map hd hk hc (beq_iff_eq.1 hname)]

theorem lookup_of_not_mem {store : Store} {classes : List DeclaredClass}
    {known : List (String × DeclaredClass)} (h : classesByName store classes = .ok known)
    {name : String} (hn : ∀ c ∈ classes, c.name ≠ name) : known.lookup name = none := by
  rcases stands_of_classesByName h name with ⟨hnone, -⟩ | ⟨s, -, hstands⟩
  · exact hnone
  · obtain ⟨c, hc, -⟩ := List.mem_map.1 hstands.mem
    obtain ⟨hc, hname⟩ := List.mem_filter.1 hc
    exact absurd (beq_iff_eq.1 hname) (hn c hc)

section

variable {store store' : Store} {classes classes' : List DeclaredClass}
  {known known' : List (String × DeclaredClass)}

/-- **The full names of classes do not depend on doc comments and on the store.** -/
theorem lookup_qualified_eq (hs : classes.map bareClass = classes'.map bareClass)
    (hd : (classes.map (·.name)).Nodup) (h : classesByName store classes = .ok known)
    (h' : classesByName store' classes' = .ok known') (name : String) :
    (scopeOf store known).qualified.lookup name = (scopeOf store' known').qualified.lookup name := by
  have hnames : classes.map (·.name) = classes'.map (·.name) := by
    have hname := congrArg (List.map DeclaredClass.name) hs
    rwa [List.map_map, List.map_map] at hname
  rw [lookup_qualified, lookup_qualified]
  by_cases hmem : ∃ c ∈ classes, c.name = name
  · obtain ⟨c, hc, rfl⟩ := hmem
    obtain ⟨k, hk, hck⟩ := List.mem_map.1 (hs ▸ List.mem_map_of_mem hc)
    have hsame := sameClass_of_bareClass hck
    rw [lookup_of_nodup h hd hc, ← hsame.name, lookup_of_nodup h' (hnames ▸ hd) hk]
    exact congrArg some hsame.qualified.symm
  · have hnone : ∀ c ∈ classes, c.name ≠ name := fun c hc he => hmem ⟨c, hc, he⟩
    have hnone' : ∀ c ∈ classes', c.name ≠ name := by
      intro k hk he
      obtain ⟨c, hc, hname⟩ := List.mem_map.1 (hnames.symm ▸ List.mem_map_of_mem hk)
      exact hnone c hc (hname.trans he)
    rw [lookup_of_not_mem h hnone, lookup_of_not_mem h' hnone']

end

/-! ## 3. Methods -/

/-- The descriptors of the parameters are the signature of the identity. -/
theorem NativeFrom.signature {scope : Scope} {e : DeclaredClass} {d : NativeDecl} {n : NativeMethod}
    (h : NativeFrom scope e d n) :
    String.join (n.parameters.map (·.type.descriptor)) = n.identity.signature := by
  have hdescriptors : ∀ {i : Nat} {ds : List NativeParameter} {qs : List Parameter},
      List.Forall₂ (fun x q => ParamFrom scope x.1 x.2 q) (ds.zipIdx i) qs →
        qs.map (·.type.descriptor) = ds.map fun p => (scope.resolve p.type).descriptor := by
    intro i ds
    induction ds generalizing i with
    | nil =>
      intro qs h
      cases h
      rfl
    | cons p ds ih =>
      intro qs h
      rw [List.zipIdx_cons] at h
      cases h with
      | cons hp h =>
        rw [List.map_cons, List.map_cons, ih h, hp.descriptor]
  rw [hdescriptors h.parameters, h.identity]
  rfl

theorem NativeFrom.descriptor {scope : Scope} {e : DeclaredClass} {d : NativeDecl} {n : NativeMethod}
    (h : NativeFrom scope e d n) : n.descriptor =
      "(" ++ n.identity.signature ++ ")" ++ (scope.resolve d.returnType).descriptor := by
  rw [NativeMethod.descriptor, h.signature, h.returnType]

/-- What two native methods of two models have in common. -/
structure SameAbi (n k : NativeMethod) : Prop where
  identity : n.identity = k.identity
  descriptor : n.descriptor = k.descriptor
  overloaded : n.overloaded = k.overloaded
  entryPoint : ∀ package, Code.entryPoint n package = Code.entryPoint k package
  methodSymbol : Code.methodSymbol n = Code.methodSymbol k

section

variable {scope scope' : Scope} {c k : DeclaredClass} {d b : NativeDecl}

/-- Identities do not depend on which classes stand for structs. -/
theorem identityOf_eq (hq : ∀ name, scope.qualified.lookup name = scope'.qualified.lookup name)
    (hc : c.name = k.name) (hd : bareMethod d = bareMethod b) :
    identityOf scope c.name d = identityOf scope' k.name b := by
  have hname : d.name = b.name := (congrArg NativeDecl.name hd :)
  have hparameters : d.parameters = b.parameters := (congrArg NativeDecl.parameters hd :)
  have hdescriptors : (d.parameters.map fun p => (scope.resolve p.type).descriptor) =
      b.parameters.map fun p => (scope'.resolve p.type).descriptor := by
    rw [hparameters]
    exact List.map_congr_left fun p _ => descriptor_typeNamed _ _ _ hq
  rw [identityOf, identityOf, hc, hname, hdescriptors]

theorem sameAbi_of_nativeFrom (hq : ∀ name, scope.qualified.lookup name = scope'.qualified.lookup name)
    (hc : SameClass c k) (hd : bareMethod d = bareMethod b) {n m : NativeMethod}
    (hn : NativeFrom scope c d n) (hm : NativeFrom scope' k b m) : SameAbi n m := by
  have hidentity : n.identity = m.identity := by
    rw [hn.identity, hm.identity, identityOf_eq hq hc.name hd]
  have hresult : d.returnType = b.returnType := (congrArg NativeDecl.returnType hd :)
  have hname : d.name = b.name := (congrArg NativeDecl.name hd :)
  have hdescriptor : n.descriptor = m.descriptor := by
    rw [hn.descriptor, hm.descriptor, hidentity, hresult, Scope.resolve, Scope.resolve,
      descriptor_typeNamed _ _ scope'.structClassNames hq]
  have hoverloaded : n.overloaded = m.overloaded := by
    rw [hn.overloaded, hm.overloaded, hname, hc.overloads]
  have hsignature : Code.overloadSignature n = Code.overloadSignature m := by
    rw [Code.overloadSignature, Code.overloadSignature, hoverloaded, hdescriptor]
  refine ⟨hidentity, hdescriptor, hoverloaded, fun package => ?_, ?_⟩
  · rw [Code.entryPoint, Code.entryPoint, NativeMethod.name, NativeMethod.name, hidentity, hsignature]
  · rw [Code.methodSymbol, Code.methodSymbol, NativeMethod.name, NativeMethod.name, hidentity,
      hsignature]

end

/-! ## 4. Models -/

/-- The identity of what became of a declaration. -/
def Declared.identity : Declared → Identity
  | .native n => n.identity
  | .left t => t.identity

/-- The position of what became of a declaration. -/
def Declared.position : Declared → Position
  | .native n => n.position
  | .left t => t.position

/-- What a unit has and leaves out, in the order of the declarations of its class. -/
structure Merged (c : DeclaredClass) (u : ClassUnit) (rs : List Declared) : Prop where
  natives : u.natives = nativesAmong rs
  tombstones : u.tombstones = leftAmong rs
  positions : rs.map Declared.position = c.outline.natives.map fun d => ⟨c.path, d.line⟩

/-- The units of a class in two models: they have and leave out the same identities, and what both have
goes by the same symbols and descriptors. -/
structure SameDeclarations (c : DeclaredClass) (u v : ClassUnit) : Prop where
  className : u.className = c.name ∧ v.className = c.name
  package : u.package = c.package ∧ v.package = c.package
  merged : ∃ rs ss, Merged c u rs ∧ Merged c v ss ∧ rs.map Declared.identity = ss.map Declared.identity ∧
    List.Forall₂ (fun r s => ∀ n m, r = .native n → s = .native m → SameAbi n m) rs ss

section

variable {scope scope' : Scope} {c k : DeclaredClass}

theorem DeclaredFrom.identity {d : NativeDecl} {r : Declared} (h : DeclaredFrom scope c d r) :
    r.identity = identityOf scope c.name d := by
  cases h with
  | native hn => exact hn.identity
  | left hidentity => exact hidentity

theorem DeclaredFrom.position {d : NativeDecl} {r : Declared} (h : DeclaredFrom scope c d r) :
    r.position = ⟨c.path, d.line⟩ := by
  cases h with
  | native hn => exact hn.position
  | left _ hposition => exact hposition

/-- **The declarations of a class become the same in two models**, but for what is left out. -/
theorem same_of_declaredFrom (hq : ∀ name, scope.qualified.lookup name = scope'.qualified.lookup name)
    (hc : SameClass c k) {ds bs : List NativeDecl} (hd : ds.map bareMethod = bs.map bareMethod)
    {rs ss : List Declared} (hr : List.Forall₂ (DeclaredFrom scope c) ds rs)
    (hs : List.Forall₂ (DeclaredFrom scope' k) bs ss) :
    rs.map Declared.identity = ss.map Declared.identity ∧
      rs.map Declared.position = (ds.map fun d => ⟨c.path, d.line⟩) ∧
      ss.map Declared.position = (ds.map fun d => ⟨c.path, d.line⟩) ∧
      List.Forall₂ (fun r s => ∀ n m, r = .native n → s = .native m → SameAbi n m) rs ss := by
  induction hr generalizing bs ss with
  | nil =>
    cases bs with
    | cons b bs => cases hd
    | nil =>
      cases hs
      exact ⟨rfl, rfl, rfl, .nil⟩
  | @cons d r ds rs hdr _ ih =>
    cases hs with
    | nil => cases hd
    | @cons b s bs ss hbs hs =>
      rw [List.map_cons, List.map_cons, List.cons.injEq] at hd
      obtain ⟨hidentities, hpositions, hpositions', hall⟩ := ih hd.2 hs
      have hline : d.line = b.line := (congrArg NativeDecl.line hd.1 :)
      refine ⟨?_, ?_, ?_, .cons ?_ hall⟩
      · rw [List.map_cons, List.map_cons, hdr.identity, hbs.identity, identityOf_eq hq hc.name hd.1,
          hidentities]
      · rw [List.map_cons, List.map_cons, hdr.position, hpositions]
      · rw [List.map_cons, List.map_cons, hbs.position, hpositions', hc.path, hline]
      · rintro n m rfl rfl
        cases hdr with
        | native hn =>
          cases hbs with
          | native hm => exact sameAbi_of_nativeFrom hq hc hd.1 hn hm

end

section

variable {store : Store} {files : List OutlinedFile} {known : List (String × DeclaredClass)}
  {es : List DeclaredClass} {m : Model}

/-- Every class that declares native methods has a unit. -/
theorem exists_unit_of_mem (h : ModelFrom store files known es m)
    (hd : ((classesOf files).map (·.name)).Nodup) {c : DeclaredClass} (hc : c ∈ classesOf files)
    (hne : c.outline.natives ≠ []) : ∃ u ∈ m.units, UnitFrom (scopeOf store known) (heard c) u := by
  have hknown := lookup_of_nodup h.index hd hc
  exact exists_of_mem_forall₂ h.units.flip (h.complete (heard c) hknown (.inl hne))

/-- The signature of a native method is what stands between the parentheses of its descriptor, unless
it holds one itself. -/
theorem signaturePart_of_mem (h : ModelFrom store files known es m) {n : NativeMethod}
    (hn : n ∈ m.natives) :
    Symbol.signaturePart n.descriptor = n.identity.signature ↔ ')' ∉ n.identity.signature.toList := by
  obtain ⟨e, -, d, -, hdn⟩ := h.native hn
  rw [hdn.descriptor]
  exact Symbol.signaturePart_eq_iff _ _

end

/-- **Identities, symbols and descriptors depend on the declarations alone**: whatever doc comments and
the store say, the classes of the same files have and leave out the same identities, and a native method
that is not left out has the same symbols and the same descriptor. -/
theorem sameDeclarations_of_modelOf {store store' : Store} {files files' : List OutlinedFile}
    {m m' : Model} (hs : files.map bareFile = files'.map bareFile)
    (hd : ((classesOf files).map (·.name)).Nodup) (h : modelOf store files = .ok m)
    (h' : modelOf store' files' = .ok m') :
    (∀ c ∈ classesOf files, c.outline.natives ≠ [] →
      ∃ u ∈ m.units, ∃ v ∈ m'.units, SameDeclarations c u v) ∧
    ∀ n ∈ m.natives, Symbol.signaturePart n.descriptor = n.identity.signature ↔
      ')' ∉ n.identity.signature.toList := by
  obtain ⟨known, es, hm⟩ := modelFrom_of_modelOf h
  obtain ⟨known', es', hm'⟩ := modelFrom_of_modelOf h'
  have hclasses : (classesOf files).map bareClass = (classesOf files').map bareClass := by
    rw [← classesOf_map_bareFile, ← classesOf_map_bareFile, hs]
  have hd' : ((classesOf files').map (·.name)).Nodup := by
    have hnames := congrArg (List.map DeclaredClass.name) hclasses
    rw [List.map_map, List.map_map] at hnames
    exact hnames ▸ hd
  have hq := lookup_qualified_eq hclasses hd hm.index hm'.index
  refine ⟨fun c hc hne => ?_, fun n hn => signaturePart_of_mem hm hn⟩
  obtain ⟨k, hk, hck⟩ := List.mem_map.1 (hclasses ▸ List.mem_map_of_mem hc)
  have hsame := sameClass_of_bareClass hck.symm
  have hne' : k.outline.natives ≠ [] := by
    intro hempty
    have hnatives := hsame.natives
    rw [hempty, List.map_nil, List.map_eq_nil_iff] at hnatives
    exact hne hnatives
  obtain ⟨u, hu, hcu⟩ := exists_unit_of_mem hm hd hc hne
  obtain ⟨v, hv, hkv⟩ := exists_unit_of_mem hm' hd' hk hne'
  obtain ⟨rs, hrs, hnatives, hleft⟩ := hcu.declared
  obtain ⟨ss, hss, hnatives', hleft'⟩ := hkv.declared
  have hheard : SameClass (heard c) (heard k) :=
    ⟨hsame.name, hsame.path, hsame.package, hsame.natives⟩
  obtain ⟨hidentities, hpositions, hpositions', hall⟩ :=
    same_of_declaredFrom hq hheard hsame.natives hrs hss
  exact ⟨u, hu, v, hv, ⟨hcu.className, hkv.className.trans hsame.name.symm⟩,
    ⟨hcu.package, hkv.package.trans hsame.package.symm⟩, rs, ss, ⟨hnatives, hleft, hpositions⟩,
    ⟨hnatives', hleft', hpositions'⟩, hidentities, hall⟩

/-- A file without directives. -/
def plainFiles : List OutlinedFile :=
  [ { path := ⟨.here, ["OS.java"]⟩
      outline :=
        { package := ""
          classes :=
            [ { name := "Span", line := 1, natives := [], fields := [] },
              { name := "OS", line := 4, fields := []
                natives :=
                  [ ⟨"fill", [⟨"s", "Span", 6⟩, ⟨"at", "long", 6⟩], "void", ["native"], 6, none⟩,
                    ⟨"fill", [⟨"n", "int", 8⟩], "int", ["native"], 8, none⟩,
                    ⟨"drop", [], "void", ["native"], 10, none⟩ ] } ] } } ]

/-- The same file with directives that make a class a struct and a number a pointer, and leave a method
out. -/
def toldFiles : List OutlinedFile :=
  [ { path := ⟨.here, ["OS.java"]⟩
      outline :=
        { package := ""
          classes :=
            [ { name := "Span", line := 1, natives := [], fields := []
                doc := some ⟨"/** @struct accessor=span */", 1⟩ },
              { name := "OS", line := 4, fields := []
                natives :=
                  [ ⟨"fill", [⟨"s", "Span", 6⟩, ⟨"at", "long", 6⟩], "void", ["native"], 6,
                      some ⟨"/** @param at cast=(char *) */", 5⟩⟩,
                    ⟨"fill", [⟨"n", "int", 8⟩], "int", ["native"], 8, none⟩,
                    ⟨"drop", [], "void", ["native"], 10, some ⟨"/** @method flags=no_gen */", 9⟩⟩ ] } ] } } ]

theorem sameDeclarations_toldFiles :
    ∃ m m', modelOf {} plainFiles = .ok m ∧ modelOf {} toldFiles = .ok m' ∧
      (m.natives.length = 3 ∧ m.structs = []) ∧ (m'.natives.length = 2 ∧ m'.structs.length = 1) ∧
      (∀ c ∈ classesOf plainFiles, c.outline.natives ≠ [] →
        ∃ u ∈ m.units, ∃ v ∈ m'.units, SameDeclarations c u v) ∧
      ∀ n ∈ m.natives, Symbol.signaturePart n.descriptor = n.identity.signature ↔
        ')' ∉ n.identity.signature.toList := by
  have hbuilt : (∃ m ∈ (modelOf {} plainFiles).toOption, m.natives.length = 3 ∧ m.structs = []) ∧
      ∃ m ∈ (modelOf {} toldFiles).toOption, m.natives.length = 2 ∧ m.structs.length = 1 := by
    decide +kernel
  obtain ⟨⟨m, hm, hplain⟩, m', hm', htold⟩ := hbuilt
  have hm := ok_of_toOption hm
  have hm' := ok_of_toOption hm'
  have hsame : plainFiles.map bareFile = toldFiles.map bareFile := by
    rfl
  have hnames : ((classesOf plainFiles).map (·.name)).Nodup := by decide +kernel
  exact ⟨m, m', hm, hm', hplain, htold, sameDeclarations_of_modelOf hsame hnames hm hm'⟩

/-- The signature of a method with one parameter whose type is written with its full name. -/
theorem NativeFrom.signature_of_dotted {scope : Scope} {e : DeclaredClass} {d : NativeDecl} {n : NativeMethod}
    (h : NativeFrom scope e d n) {text : String} (htypes : d.parameters.map (·.type) = [text])
    (hn : NamesClass text) (hp : pairsOf text = 0) (hd : '.' ∈ text.toList)
    (hw : primitiveDescriptor? (simpleOf text) = none) :
    n.identity.signature = "L" ++ replaceChars (· == '.') '/' text ++ ";" := by
  have hmap := congrArg (List.map fun t => (scope.resolve t).descriptor) htypes
  rw [List.map_map, List.map_singleton, descriptor_of_dotted hn hp hd hw] at hmap
  rw [h.identity]
  exact congrArg String.join hmap

/-- A file with a method that takes a class whose name is written with a comment inside. -/
def commentFiles : List OutlinedFile :=
  [ { path := ⟨.here, ["OS.java"]⟩
      outline :=
        { package := ""
          classes :=
            [ { name := "OS", line := 1, fields := []
                natives :=
                  [⟨"move", [⟨"point", "p/*)*/.Point", 2⟩], "void", ["native"], 2, none⟩] } ] } } ]

/-- **A comment may close the parentheses too early**: what is cut out of the descriptor is not the
signature of the method. -/
theorem cut_commentFiles :
    ∃ m n, modelOf {} commentFiles = .ok m ∧ n ∈ m.natives ∧
      n.identity.signature = "Lp/*)*//Point;" ∧
      Symbol.signaturePart n.descriptor ≠ n.identity.signature := by
  have hbuilt : ∃ m ∈ (modelOf {} commentFiles).toOption, ∃ n ∈ m.natives, n.name = "move" := by
    decide +kernel
  obtain ⟨m, hm, n, hn, -⟩ := hbuilt
  have hm := ok_of_toOption hm
  obtain ⟨known, es, hfrom⟩ := modelFrom_of_modelOf hm
  obtain ⟨e, he, d, hd, hdn⟩ := hfrom.native hn
  obtain ⟨c, hc, directives, rfl⟩ := hfrom.declared e he
  have hwritten : ∀ c ∈ classesOf commentFiles, ∀ d ∈ c.outline.natives,
      d.parameters.map (·.type) = ["p/*)*/.Point"] := by
    decide
  have hnames : NamesClass "p/*)*/.Point" := ⟨by decide, by decide, by decide⟩
  have hsignature : n.identity.signature = "Lp/*)*//Point;" :=
    hdn.signature_of_dotted (hwritten c hc d hd) hnames (by decide) (by decide) (by decide +kernel)
  refine ⟨m, n, hm, hn, hsignature, fun hcut => ?_⟩
  have hfree := (signaturePart_of_mem hfrom hn).1 hcut
  rw [hsignature] at hfree
  exact hfree (by decide)

end NativeGlue.Source
