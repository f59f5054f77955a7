import Mathlib.Data.List.Sigma
import NativeGlue.Proofs.Fallible
import NativeGlue.Proofs.Java.Names
import NativeGlue.Proofs.Keyed
import NativeGlue.Proofs.Source.Types
import NativeGlue.Source.Reading

/-!
# What the model says of the sources

A model that was built comes from the outlines of its files (`modelFrom_of_modelOf`): every unit is a
class of a file, and what it has and leaves out are the declarations of that class in their order, each
with its parameters. No two units have one class name, and two methods of a unit that share a name know
that they do (`overloads_of_nativesFrom`).
-/

namespace NativeGlue.Source

open NativeGlue.Java NativeGlue.Directive NativeGlue.Overlay NativeGlue.Text

/-! ## 1. Methods -/

/-- A parameter of the model and the declaration it comes from. -/
structure ParamFrom (scope : Scope) (p : NativeParameter) (i : Nat) (q : Parameter) : Prop where
  index : q.index = i
  name : q.name = p.name
  type : q.type = asPointer (scope.resolve p.type) q.flags.callback q.cast
  callback : q.flags.callback = true → q.type.kind = .callback

/-- A method of the model and the declaration it comes from. -/
structure NativeFrom (scope : Scope) (e : DeclaredClass) (d : NativeDecl) (n : NativeMethod) :
    Prop where
  identity : n.identity = identityOf scope e.name d
  position : n.position = ⟨e.path, d.line⟩
  parameters : List.Forall₂ (fun x q => ParamFrom scope x.1 x.2 q) d.parameters.zipIdx n.parameters
  returnType : n.returnType = scope.resolve d.returnType
  overloaded : n.overloaded = decide (1 < (e.outline.natives.filter (·.name == d.name)).length)

/-- A native method is what a declaration of a class says, but for its types. -/
structure Origin (c : DeclaredClass) (d : NativeDecl) (n : NativeMethod) : Prop where
  enclosing : n.identity.enclosing = c.name
  name : n.name = d.name
  position : n.position = ⟨c.path, d.line⟩
  parameters : n.parameters.map (fun p => (p.name, p.index)) =
    d.parameters.zipIdx.map fun x => (x.1.name, x.2)

/-- Every parameter comes from one of the declaration. -/
theorem Origin.exists_mem_zip {c : DeclaredClass} {d : NativeDecl} {n : NativeMethod}
    (h : Origin c d n) {p : Parameter} (hp : p ∈ n.parameters) :
    ∃ x, (x, p) ∈ d.parameters.zip n.parameters := by
  have hlength := congrArg List.length h.parameters
  rw [List.length_map, List.length_map, List.length_zipIdx] at hlength
  have hsnd := List.map_snd_zip (Nat.le_of_eq hlength)
  rw [← hsnd] at hp
  obtain ⟨x, hx, rfl⟩ := List.mem_map.1 hp
  exact ⟨x.1, hx⟩

/-- What became of a declaration. -/
inductive DeclaredFrom (scope : Scope) (e : DeclaredClass) (d : NativeDecl) : Declared → Prop
  | native {n : NativeMethod} (h : NativeFrom scope e d n) : DeclaredFrom scope e d (.native n)
  | left {t : Omission} (identity : t.identity = identityOf scope e.name d)
      (position : t.position = ⟨e.path, d.line⟩) : DeclaredFrom scope e d (.left t)

theorem paramFrom_of_readParam {path : Path} {inline : DocOptions} {record : Option Record}
    {scope : Scope} {p : NativeParameter} {i : Nat} {q : Parameter}
    (h : readParam path inline record scope p i = .ok q) : ParamFrom scope p i q := by
  unfold readParam at h
  dsimp only at h
  split at h
  · obtain ⟨_, hthrow, -⟩ := ok_of_bind h
    exact (not_ok_throw hthrow).elim
  · rename_i hc
    obtain rfl := Except.ok.inj h
    refine ⟨rfl, rfl, ?_, fun hf => ?_⟩
    · dsimp only
    dsimp only at hf ⊢
    rw [hf, Bool.true_and, bne_iff_ne, ne_eq, not_not] at hc
    rw [hf]
    exact hc

theorem ParamFrom.resolved {scope : Scope} {p : NativeParameter} {i : Nat} {q : Parameter}
    (h : ParamFrom scope p i q) : Resolved q.type := by
  rw [h.type]
  exact (named _ _ _).resolved.asPointer _ _

/-- A type that stands for a struct is no array. -/
theorem ParamFrom.isArray {scope : Scope} {p : NativeParameter} {i : Nat} {q : Parameter}
    (h : ParamFrom scope p i q) (hs : q.type.kind = .struct) : q.type.isArray = false :=
  h.resolved.isArray (by rw [hs]; decide) (by rw [hs]; decide)

/-- The descriptor of a parameter is that of what its text means. -/
theorem ParamFrom.descriptor {scope : Scope} {p : NativeParameter} {i : Nat} {q : Parameter}
    (h : ParamFrom scope p i q) : q.type.descriptor = (scope.resolve p.type).descriptor := by
  rw [h.type]
  exact descriptor_asPointer (named _ _ _).resolved _ _

/-- Parameters keep their names and are numbered by their places. -/
theorem NativeFrom.names {scope : Scope} {e : DeclaredClass} {d : NativeDecl} {n : NativeMethod}
    (h : NativeFrom scope e d n) : n.parameters.map (fun p => (p.name, p.index)) =
      d.parameters.zipIdx.map fun x => (x.1.name, x.2) := by
  have hnames : ∀ {xs : List (NativeParameter × Nat)} {qs : List Parameter},
      List.Forall₂ (fun x q => ParamFrom scope x.1 x.2 q) xs qs →
        qs.map (fun p => (p.name, p.index)) = xs.map fun x => (x.1.name, x.2) := by
    intro xs qs hq
    induction hq with
    | nil => rfl
    | cons hp _ ih => rw [List.map_cons, List.map_cons, ih, hp.name, hp.index]
  exact hnames h.parameters

theorem NativeFrom.indices {scope : Scope} {e : DeclaredClass} {d : NativeDecl} {n : NativeMethod}
    (h : NativeFrom scope e d n) : (n.parameters.map (·.index)).Nodup := by
  have hindex := congrArg (List.map Prod.snd) h.names
  rw [List.map_map, List.map_map] at hindex
  have hindex : n.parameters.map (·.index) = d.parameters.zipIdx.map Prod.snd := hindex
  rw [hindex]
  exact List.nodup_zipIdx_map_snd _

/-- A link to a length changes nothing else. -/
theorem ParamFrom.linked {path : Path} {inline : DocOptions} {record : Option Record} {scope : Scope}
    {ps : List Parameter} {p q : Parameter} {d : NativeParameter} {line i : Nat}
    (hp : ParamFrom scope d i p) (h : linkLength path inline record ps p line = .ok q) :
    ParamFrom scope d i q := by
  unfold linkLength at h
  split at h
  · cases h
    exact hp
  dsimp only at h
  split at h
  · obtain ⟨_, hthrow, -⟩ := ok_of_bind h
    exact (not_ok_throw hthrow).elim
  obtain ⟨o, -, h⟩ := ok_of_bind h
  split at h
  · exact (not_ok_throw h).elim
  split at h
  · exact (not_ok_throw h).elim
  split at h
  · obtain rfl := Except.ok.inj h
    exact ⟨hp.index, hp.name, hp.type, hp.callback⟩
  · exact (not_ok_throw h).elim

/-- Links to lengths, one after the other. -/
theorem paramsFrom_linked {path : Path} {inline : DocOptions} {record : Option Record} {scope : Scope}
    {all : List Parameter} {xs : List (NativeParameter × Nat)} {ps : List Parameter}
    (hps : List.Forall₂ (fun x q => ParamFrom scope x.1 x.2 q) xs ps) {ds : List NativeParameter}
    (hlen : ds.length = ps.length) {qs : List Parameter}
    (h : (ps.zip ds).mapM (fun (p, d) => linkLength path inline record all p d.line) = .ok qs) :
    List.Forall₂ (fun x q => ParamFrom scope x.1 x.2 q) xs qs := by
  replace h := forall₂_of_mapM h
  induction hps generalizing ds qs with
  | nil =>
    cases h
    exact .nil
  | @cons x p xs ps hp _ ih =>
    cases ds with
    | nil => cases hlen
    | cons d ds =>
      rw [List.zip_cons_cons] at h
      cases h with
      | cons hq h => exact .cons (hp.linked hq) (ih (Nat.succ.inj hlen) h)

/-- **What a declaration becomes has its name, its types and the parameters in their order.** -/
theorem declaredFrom_of_readMethod {store : Store} {scope : Scope} {e : DeclaredClass} {d : NativeDecl}
    {r : Declared} (h : readMethod store scope e d = .ok r) : DeclaredFrom scope e d r := by
  unfold readMethod at h
  obtain ⟨inline, -, h⟩ := ok_of_bind h
  dsimp only at h
  split at h
  · obtain rfl := Except.ok.inj h
    exact .left rfl rfl
  obtain ⟨_, -, h⟩ := ok_of_bind h
  obtain ⟨ps, hps, h⟩ := ok_of_bind h
  obtain ⟨qs, hqs, h⟩ := ok_of_bind h
  obtain rfl := Except.ok.inj h
  have hps : List.Forall₂ (fun x q => ParamFrom scope x.1 x.2 q) d.parameters.zipIdx ps :=
    (forall₂_of_mapM hps).imp fun x q hq => paramFrom_of_readParam hq
  have hlen : d.parameters.length = ps.length := by
    rw [← hps.length_eq, List.length_zipIdx]
  have hparams := paramsFrom_linked hps hlen hqs
  refine .native ⟨?_, ?_, hparams, ?_, ?_⟩
  all_goals dsimp only

/-- Two methods that share a name know that they do. -/
theorem overloads_of_nativesFrom {scope : Scope} {e : DeclaredClass} {ds : List NativeDecl}
    {ns : List NativeMethod} (hs : ds.Sublist e.outline.natives)
    (h : List.Forall₂ (NativeFrom scope e) ds ns) :
    ns.Pairwise fun n k => n.name = k.name → n.overloaded = true ∧ k.overloaded = true := by
  have hcount : ds.Pairwise fun d c => d.name = c.name →
      1 < (e.outline.natives.filter (·.name == d.name)).length := by
    rw [List.pairwise_iff_forall_sublist]
    intro d c hdc hname
    have hsub := (hdc.trans hs).filter (·.name == d.name)
    have hboth : [d, c].filter (·.name == d.name) = [d, c] := by
      simp [hname]
    rw [hboth] at hsub
    exact hsub.length_le
  refine pairwise_of_forall₂ (fun {d c n k} hn hk hdc hname => ?_) h hcount
  have hd : n.name = d.name := congrArg Identity.name hn.identity
  have hc : k.name = c.name := congrArg Identity.name hk.identity
  have hdc' : d.name = c.name := by rw [← hd, ← hc, hname]
  rw [hn.overloaded, hk.overloaded, ← hdc', decide_eq_true_iff]
  exact ⟨hdc hdc', hdc hdc'⟩

/-! ## 2. Units -/

/-- A struct class of the model and the class it comes from. -/
structure StructFrom (scope : Scope) (e : DeclaredClass) (s : StructClass) : Prop where
  name : s.name = e.name
  qualified : s.qualified = e.qualified
  fields : ∀ f ∈ s.fields, ∃ d ∈ e.outline.fields, f.name = d.name ∧
    f.type = asPointer (scope.resolve d.type) false f.cast

/-- A unit of the model and the class it comes from. -/
structure UnitFrom (scope : Scope) (e : DeclaredClass) (u : ClassUnit) : Prop where
  className : u.className = e.name
  package : u.package = e.package
  declared : ∃ rs, List.Forall₂ (DeclaredFrom scope e) e.outline.natives rs ∧
    u.natives = nativesAmong rs ∧ u.tombstones = leftAmong rs
  structs : ∀ s ∈ u.structs, StructFrom scope e s
  count : u.structs.length = if scope.structClassNames.contains e.name then 1 else 0

theorem structFrom_of_readStructClass {store : Store} {scope : Scope} {e : DeclaredClass}
    {s : StructClass} (h : readStructClass store scope e = .ok s) : StructFrom scope e s := by
  unfold readStructClass at h
  obtain ⟨fields, hfields, h⟩ := ok_of_bind h
  obtain rfl := Except.ok.inj h
  refine ⟨rfl, rfl, fun f hf => ?_⟩
  obtain ⟨d, hd, hdf⟩ := exists_of_mem_forall₂ (forall₂_of_mapM hfields) hf
  unfold readField at hdf
  obtain ⟨inline, -, hdf⟩ := ok_of_bind hdf
  obtain rfl := Except.ok.inj hdf
  refine ⟨d, hd, rfl, ?_⟩
  dsimp only

/-- Declarations that are left out take nothing away from the others. -/
theorem nativesFrom_of_declaredFrom {scope : Scope} {e : DeclaredClass} {ds : List NativeDecl}
    {rs : List Declared} (h : List.Forall₂ (DeclaredFrom scope e) ds rs) :
    ∃ kept, kept.Sublist ds ∧ List.Forall₂ (NativeFrom scope e) kept (nativesAmong rs) := by
  induction h with
  | nil => exact ⟨[], .slnil, .nil⟩
  | @cons d r ds rs hd _ ih =>
    obtain ⟨kept, hsub, hkept⟩ := ih
    cases hd with
    | native hn => exact ⟨d :: kept, hsub.cons_cons d, .cons hn hkept⟩
    | left => exact ⟨kept, hsub.cons d, hkept⟩

theorem UnitFrom.natives {scope : Scope} {e : DeclaredClass} {u : ClassUnit} (h : UnitFrom scope e u) :
    ∃ ds, ds.Sublist e.outline.natives ∧ List.Forall₂ (NativeFrom scope e) ds u.natives := by
  obtain ⟨rs, hrs, hnatives, -⟩ := h.declared
  rw [hnatives]
  exact nativesFrom_of_declaredFrom hrs

/-- What the unit of a class is put together from. -/
theorem of_unitOf_some {store : Store} {scope : Scope} {e : DeclaredClass} {u : ClassUnit}
    (h : unitOf store scope e = .ok (some u)) :
    ∃ rs structs, e.outline.natives.mapM (readMethod store scope e) = .ok rs ∧
      (if scope.structClassNames.contains e.name then
          (readStructClass store scope e).map fun s => [s]
        else .ok []) = .ok structs ∧
      u = { path := e.path, className := e.name, package := e.package
            natives := nativesAmong rs, structs, tombstones := leftAmong rs } := by
  unfold unitOf at h
  dsimp only at h
  split at h
  · cases Except.ok.inj h
  obtain ⟨rs, hrs, h⟩ := ok_of_bind h
  split at h
  · rename_i hstruct
    obtain ⟨structs, hstructs, h⟩ := ok_of_bind h
    exact ⟨rs, structs, hrs, (if_pos hstruct).trans hstructs, (Option.some.inj (Except.ok.inj h)).symm⟩
  · rename_i hstruct
    obtain ⟨structs, hstructs, h⟩ := ok_of_bind h
    exact ⟨rs, structs, hrs, (if_neg hstruct).trans hstructs, (Option.some.inj (Except.ok.inj h)).symm⟩

theorem unitFrom_of_unitOf {store : Store} {scope : Scope} {e : DeclaredClass} {u : ClassUnit}
    (h : unitOf store scope e = .ok (some u)) : UnitFrom scope e u := by
  obtain ⟨rs, structs, hrs, hstructs, rfl⟩ := of_unitOf_some h
  have hdeclared : List.Forall₂ (DeclaredFrom scope e) e.outline.natives rs :=
    (forall₂_of_mapM hrs).imp fun d r hr => declaredFrom_of_readMethod hr
  split at hstructs
  · rename_i hstruct
    obtain ⟨s, hs, rfl⟩ := ok_of_map hstructs
    refine ⟨rfl, rfl, ⟨rs, hdeclared, rfl, rfl⟩, fun x hx => ?_, (if_pos hstruct).symm⟩
    rw [List.mem_singleton.1 hx]
    exact structFrom_of_readStructClass hs
  · rename_i hstruct
    obtain rfl := Except.ok.inj hstructs
    exact ⟨rfl, rfl, ⟨rs, hdeclared, rfl, rfl⟩, List.forall_mem_nil _, (if_neg hstruct).symm⟩

/-- A class without a unit declares nothing that matters. -/
theorem of_unitOf_none {store : Store} {scope : Scope} {e : DeclaredClass}
    (h : unitOf store scope e = .ok none) :
    e.outline.natives = [] ∧ e.name ∉ scope.structClassNames := by
  unfold unitOf at h
  dsimp only at h
  split at h
  · rename_i hnone
    rw [Bool.and_eq_true, Bool.not_eq_true'] at hnone
    exact ⟨List.isEmpty_iff.1 hnone.1, fun hm => Bool.false_ne_true
      (hnone.2.symm.trans (List.contains_iff_mem.2 hm))⟩
  · obtain ⟨_, -, h⟩ := ok_of_bind h
    split at h
    · obtain ⟨_, -, h⟩ := ok_of_bind h
      cases Except.ok.inj h
    · cases Except.ok.inj h

/-! ## 3. Classes -/

/-- A class known by name is a class of a file, with the directives of its doc comment. -/
structure KnownFrom (classes : List DeclaredClass) (x : String × DeclaredClass) : Prop where
  key : x.1 = x.2.name
  declared : ∃ c ∈ classes, ∃ directives, x.2 = { c with directives }

theorem putClass_eq_putKey (e : DeclaredClass) (known : List (String × DeclaredClass)) :
    putClass e known = putKey e.name e known := by
  induction known with
  | nil => rfl
  | cons x r ih =>
    rw [putClass, putKey, ih]

/-- A class with the directives of its doc comment. -/
def heard (c : DeclaredClass) : DeclaredClass :=
  { c with directives := ((directivesOf c.path c.outline.doc).toOption).getD {} }

/-- A class that is read is put under its name, unless there is one that matters: then it is left out if
it does not matter itself. -/
theorem addClass_cases {store : Store} {known known' : List (String × DeclaredClass)}
    {c : DeclaredClass} (h : addClass store known c = .ok known') :
    (known' = putKey c.name (heard c) known ∧
        ∀ s, known.lookup c.name = some s → s.hasBindings store = false) ∨
      known' = known ∧ (heard c).hasBindings store = false ∧
        ∃ s, known.lookup c.name = some s ∧ s.hasBindings store = true := by
  unfold addClass at h
  obtain ⟨directives, hdirectives, h⟩ := ok_of_bind h
  have hheard : { c with directives } = heard c := by
    rw [heard, hdirectives]
    rfl
  have hname : (heard c).name = c.name := rfl
  dsimp only at h
  rw [hheard, hname, putClass_eq_putKey, hname] at h
  split at h
  · rename_i hnone
    refine .inl ⟨(Except.ok.inj h).symm, fun s hs => ?_⟩
    rw [hnone] at hs
    cases hs
  · rename_i s hs
    split at h
    · rename_i hfree
      refine .inl ⟨(Except.ok.inj h).symm, fun t ht => ?_⟩
      rw [← Option.some.inj (hs.symm.trans ht)]
      exact Bool.not_eq_true' _ ▸ hfree
    rename_i hbinds
    split at h
    · exact (not_ok_throw h).elim
    · rename_i hfree
      exact .inr ⟨(Except.ok.inj h).symm, Bool.eq_false_iff.2 hfree, s, hs, by simpa using hbinds⟩

theorem knownFrom_of_classesByName {store : Store} {classes : List DeclaredClass}
    {known : List (String × DeclaredClass)} (h : classesByName store classes = .ok known) :
    ∀ x ∈ known, KnownFrom classes x := by
  refine keeps_of_foldlM (P := fun known => ∀ x ∈ known, KnownFrom classes x) ?_ ?_ h
  · intro c hc before after hb h
    rcases addClass_cases h with ⟨rfl, -⟩ | ⟨rfl, -⟩
    · intro x hx
      rcases mem_of_mem_putKey hx with hx | rfl
      · exact hb x hx
      · exact ⟨rfl, c, hc, _, rfl⟩
    · exact hb
  · intro x hx
    cases hx

/-- What is done to the outline of every class of the files is done to every class. -/
theorem classesOf_map_outline (g : ClassOutline → ClassOutline) (files : List OutlinedFile) :
    classesOf (files.map fun f =>
        { f with outline := { f.outline with classes := f.outline.classes.map g } }) =
      (classesOf files).map fun c => { c with outline := g c.outline } := by
  unfold classesOf
  rw [List.zipIdx_map, List.flatMap_map, List.map_flatMap]
  refine List.flatMap_congr fun x _ => ?_
  obtain ⟨f, i⟩ := x
  show List.map _ ((f.outline.classes.map g).zipIdx) = _
  rw [List.zipIdx_map, List.map_map, List.map_map]
  rfl

/-- No two classes stand in one place. -/
theorem pairwise_place_classesOf (files : List OutlinedFile) :
    (classesOf files).Pairwise fun c d => c.place ≠ d.place := by
  have apart : ∀ {α : Type} (l : List α), l.zipIdx.Pairwise fun x y => x.2 ≠ y.2 := fun l =>
    List.pairwise_map.1 (List.nodup_zipIdx_map_snd l)
  unfold classesOf
  rw [List.pairwise_flatMap]
  constructor
  · intro x _
    rw [List.pairwise_map]
    exact (apart _).imp fun h he => h (Prod.mk.inj he).2
  · refine (apart files).imp fun h c hc d hd he => h ?_
    obtain ⟨y, -, rfl⟩ := List.mem_map.1 hc
    obtain ⟨z, -, rfl⟩ := List.mem_map.1 hd
    exact (Prod.mk.inj he).1

/-- A class stands in a file. -/
theorem exists_file_of_mem_classesOf {files : List OutlinedFile} {c : DeclaredClass}
    (h : c ∈ classesOf files) :
    ∃ f ∈ files, c.package = f.outline.package ∧ c.outline ∈ f.outline.classes := by
  obtain ⟨⟨f, i⟩, hf, hc⟩ := List.mem_flatMap.1 h
  obtain ⟨⟨o, k⟩, ho, rfl⟩ := List.mem_map.1 hc
  exact ⟨f, List.fst_mem_of_mem_zipIdx hf, rfl, List.fst_mem_of_mem_zipIdx ho⟩

/-- The class that stands for a name is one of the chosen. -/
theorem mem_chosenClasses {known : List (String × DeclaredClass)} {classes : List DeclaredClass}
    (hk : ∀ x ∈ known, KnownFrom classes x) {name : String} {e : DeclaredClass}
    (h : known.lookup name = some e) : e.name = name ∧ e ∈ chosenClasses known classes := by
  have hfrom := hk _ (mem_of_lookup h)
  have hkey : name = e.name := hfrom.key
  obtain ⟨c, hc, directives, he⟩ := hfrom.declared
  have he : e = { c with directives } := he
  refine ⟨hkey.symm, List.mem_filterMap.2 ⟨c, hc, Option.filter_eq_some_iff.2 ⟨?_, ?_⟩⟩⟩
  · have hname : c.name = name := by
      rw [hkey, he]
      rfl
    rw [hname, h]
  · rw [he]
    exact beq_self_eq_true _

/-- **Of several classes with one name at most one stands for it.** -/
theorem pairwise_name_chosenClasses {known : List (String × DeclaredClass)}
    {classes : List DeclaredClass} (hk : ∀ x ∈ known, KnownFrom classes x)
    (hc : classes.Pairwise fun c d => c.place ≠ d.place) :
    (chosenClasses known classes).Pairwise fun e f => e.name ≠ f.name := by
  unfold chosenClasses
  rw [List.pairwise_filterMap]
  refine hc.imp fun {c d} hcd e he f hf hname => hcd ?_
  have chosen : ∀ {c e : DeclaredClass},
      ((known.lookup c.name).filter fun e => e.place == c.place) = some e →
        known.lookup e.name = some e ∧ e.place = c.place := by
    intro c e he
    obtain ⟨hl, hp⟩ := Option.filter_eq_some_iff.1 he
    have hkey := (hk _ (mem_of_lookup hl)).key
    dsimp only at hkey
    rw [← hkey]
    exact ⟨hl, beq_iff_eq.1 hp⟩
  obtain ⟨hle, hpe⟩ := chosen he
  obtain ⟨hlf, hpf⟩ := chosen hf
  rw [hname, hlf] at hle
  rw [← hpe, ← hpf, Option.some.inj hle]

/-- The classes that stand for structs are known. -/
theorem exists_of_mem_structClassNames {store : Store} {classes : List DeclaredClass}
    {known : List (String × DeclaredClass)} (hk : ∀ x ∈ known, KnownFrom classes x) {name : String}
    (h : name ∈ (scopeOf store known).structClassNames) : ∃ e, known.lookup name = some e := by
  unfold scopeOf at h
  dsimp only at h
  rcases List.mem_append.1 h with h | h
  · rcases List.mem_append.1 h with h | h
    · obtain ⟨⟨k, e⟩, he, hname⟩ := List.mem_filterMap.1 h
      dsimp only at hname
      split at hname
      · obtain rfl := Option.some.inj hname
        exact exists_lookup (List.mem_map_of_mem he)
      · cases hname
    · exact Option.isSome_iff_exists.1 (List.mem_filter.1 h).2
  · unfold passedByValue at h
    obtain ⟨⟨k, e⟩, -, h⟩ := List.mem_flatMap.1 h
    obtain ⟨d, -, h⟩ := List.mem_flatMap.1 h
    obtain ⟨p, -, h⟩ := List.mem_filterMap.1 h
    split at h
    · rename_i x hx
      split at h
      · cases h
      · obtain rfl := Option.some.inj h
        rw [(mem_chosenClasses hk hx).1]
        exact ⟨x, hx⟩
    · cases h

/-- The full name of a class that is known. -/
theorem lookup_qualified (store : Store) (known : List (String × DeclaredClass)) (name : String) :
    (scopeOf store known).qualified.lookup name = (known.lookup name).map (·.qualified) := by
  show (known.map fun x => (x.1, x.2.qualified)).lookup name = _
  induction known with
  | nil => rfl
  | cons x r ih =>
    rw [List.map_cons, List.lookup_cons, List.lookup_cons, ih]
    cases name == x.1 <;> rfl

/-! ## 4. The model -/

/-- The units of results, each with the class it was put together from. -/
theorem units_of_unitOfs {store : Store} {scope : Scope} {es : List DeclaredClass}
    {os : List (Option ClassUnit)}
    (h : List.Forall₂ (fun e o => unitOf store scope e = .ok o) es os) :
    ∃ kept, kept.Sublist es ∧
      List.Forall₂ (fun e u => unitOf store scope e = .ok (some u)) kept (os.filterMap id) ∧
      ∀ e ∈ es, e.outline.natives ≠ [] ∨ e.name ∈ scope.structClassNames → e ∈ kept := by
  induction h with
  | nil => exact ⟨[], .slnil, .nil, List.forall_mem_nil _⟩
  | @cons e o es os he _ ih =>
    obtain ⟨kept, hsub, hkept, hall⟩ := ih
    cases o with
    | none =>
      obtain ⟨hnatives, hstruct⟩ := of_unitOf_none he
      refine ⟨kept, hsub.cons e, hkept, List.forall_mem_cons.2 ⟨fun h => ?_, hall⟩⟩
      exact (h.elim (fun hn => hn hnatives) hstruct).elim
    | some u =>
      exact ⟨e :: kept, hsub.cons_cons e, .cons he hkept,
        List.forall_mem_cons.2 ⟨fun _ => List.mem_cons_self,
          fun x hx h => List.mem_cons_of_mem _ (hall x hx h)⟩⟩

/-- What a model is made of: classes of the files, no two of one name, among them every class that
stands for its name and declares something that matters, and for each of them a unit. -/
structure ModelFrom (store : Store) (files : List OutlinedFile) (known : List (String × DeclaredClass))
    (es : List DeclaredClass) (m : Model) : Prop where
  index : classesByName store (classesOf files) = .ok known
  declared : ∀ e ∈ es, ∃ c ∈ classesOf files, ∃ directives, e = { c with directives }
  names : es.Pairwise fun e f => e.name ≠ f.name
  units : List.Forall₂ (UnitFrom (scopeOf store known)) es m.units
  complete : ∀ e, known.lookup e.name = some e →
    e.outline.natives ≠ [] ∨ e.name ∈ (scopeOf store known).structClassNames → e ∈ es

/-- **A model that was built comes from its files.** -/
theorem modelFrom_of_modelOf {store : Store} {files : List OutlinedFile} {m : Model}
    (h : modelOf store files = .ok m) : ∃ known es, ModelFrom store files known es m := by
  unfold modelOf at h
  obtain ⟨known, hknown, h⟩ := ok_of_bind h
  obtain ⟨os, hos, h⟩ := ok_of_bind h
  obtain rfl := Except.ok.inj h
  have hk := knownFrom_of_classesByName hknown
  obtain ⟨es, hsub, hunits, hall⟩ := units_of_unitOfs (forall₂_of_mapM hos)
  have hfrom := hunits.imp fun _ _ => unitFrom_of_unitOf
  refine ⟨known, es, hknown, fun e he => ?_, ?_, hfrom, fun e he => hall e (mem_chosenClasses hk he).2⟩
  · obtain ⟨c, -, hc⟩ := List.mem_filterMap.1 (hsub.subset he)
    obtain ⟨hl, -⟩ := Option.filter_eq_some_iff.1 hc
    exact (hk _ (mem_of_lookup hl)).declared
  · exact (pairwise_name_chosenClasses hk (pairwise_place_classesOf files)).sublist hsub

section

variable {store : Store} {files : List OutlinedFile} {known : List (String × DeclaredClass)}
  {es : List DeclaredClass} {m : Model}

/-- A full name in scope is that of a class of a file. -/
theorem ModelFrom.qualified (h : ModelFrom store files known es m) :
    ∀ q ∈ (scopeOf store known).qualified, ∃ c ∈ classesOf files, q.2 = c.qualified := by
  intro q hq
  obtain ⟨⟨k, e⟩, hx, rfl⟩ := List.mem_map.1 hq
  obtain ⟨c, hc, directives, he⟩ := (knownFrom_of_classesByName h.index _ hx).declared
  dsimp only at he
  rw [he]
  exact ⟨c, hc, rfl⟩

/-- A native method of a model comes from a declaration. -/
theorem ModelFrom.native (h : ModelFrom store files known es m) {n : NativeMethod}
    (hn : n ∈ m.natives) :
    ∃ e ∈ es, ∃ d ∈ e.outline.natives, NativeFrom (scopeOf store known) e d n := by
  obtain ⟨u, hu, hn⟩ := List.mem_flatMap.1 hn
  obtain ⟨e, he, hue⟩ := exists_of_mem_forall₂ h.units hu
  obtain ⟨ds, hsub, hds⟩ := hue.natives
  obtain ⟨d, hd, hdn⟩ := exists_of_mem_forall₂ hds hn
  exact ⟨e, he, d, hsub.subset hd, hdn⟩

/-- **A native method of a model is what a class of a file declares**, with the types that the texts of
the declaration mean. -/
theorem ModelFrom.origin (h : ModelFrom store files known es m) {n : NativeMethod}
    (hn : n ∈ m.natives) :
    ∃ c ∈ classesOf files, ∃ d ∈ c.outline.natives, Origin c d n ∧
      n.returnType = (scopeOf store known).resolve d.returnType ∧
      ∀ x ∈ d.parameters.zip n.parameters,
        x.2.type = asPointer ((scopeOf store known).resolve x.1.type) x.2.flags.callback x.2.cast := by
  obtain ⟨e, he, d, hd, hdn⟩ := h.native hn
  obtain ⟨c, hc, directives, rfl⟩ := h.declared e he
  refine ⟨c, hc, d, hd, ⟨?_, ?_, hdn.position, hdn.names⟩, hdn.returnType, fun x hx => ?_⟩
  · rw [hdn.identity]
    rfl
  · rw [NativeMethod.name, hdn.identity]
    rfl
  · obtain ⟨i, hi, rfl⟩ := List.getElem_of_mem hx
    rw [List.length_zip] at hi
    rw [List.getElem_zip]
    have hparam := hdn.parameters.get (i := i) (by rw [List.length_zipIdx]; omega) (by omega)
    rw [List.get_eq_getElem, List.get_eq_getElem, List.getElem_zipIdx] at hparam
    exact hparam.type

/-- What the results and parameters of a model can be. -/
theorem ModelFrom.resolved (h : ModelFrom store files known es m) {n : NativeMethod}
    (hn : n ∈ m.natives) : Resolved n.returnType ∧ ∀ p ∈ n.parameters, Resolved p.type := by
  obtain ⟨e, -, d, -, hd⟩ := h.native hn
  refine ⟨?_, fun p hp => ?_⟩
  · rw [hd.returnType]
    exact (named _ _ _).resolved
  · obtain ⟨x, -, hx⟩ := exists_of_mem_forall₂ hd.parameters hp
    exact hx.resolved

/-- What the fields of a model can be. -/
theorem ModelFrom.resolved_field (h : ModelFrom store files known es m) {s : StructClass}
    (hs : s ∈ m.structs) {f : StructMember} (hf : f ∈ s.fields) : Resolved f.type := by
  obtain ⟨u, hu, hs⟩ := List.mem_flatMap.1 hs
  obtain ⟨e, -, hue⟩ := exists_of_mem_forall₂ h.units hu
  obtain ⟨d, -, -, hd⟩ := (hue.structs s hs).fields f hf
  rw [hd]
  exact (named _ _ _).resolved.asPointer _ _

/-- A class that a model is made of stands in a file. -/
theorem ModelFrom.outline (h : ModelFrom store files known es m) {e : DeclaredClass} (he : e ∈ es) :
    ∃ f ∈ files, e.outline ∈ f.outline.classes := by
  obtain ⟨c, hc, directives, rfl⟩ := h.declared e he
  obtain ⟨f, hf, -, hfc⟩ := exists_file_of_mem_classesOf hc
  exact ⟨f, hf, hfc⟩

/-- A unit of a model goes by the name of a class of a file. -/
theorem ModelFrom.unit (h : ModelFrom store files known es m) {u : ClassUnit} (hu : u ∈ m.units) :
    ∃ f ∈ files, ∃ c ∈ f.outline.classes, u.className = c.name := by
  obtain ⟨e, he, hue⟩ := exists_of_mem_forall₂ h.units hu
  obtain ⟨f, hf, hfe⟩ := h.outline he
  exact ⟨f, hf, e.outline, hfe, hue.className⟩

/-- A struct class of a model goes by the name of a class of a file. -/
theorem ModelFrom.struct (h : ModelFrom store files known es m) {s : StructClass}
    (hs : s ∈ m.structs) : ∃ f ∈ files, ∃ c ∈ f.outline.classes, s.name = c.name := by
  obtain ⟨u, hu, hs⟩ := List.mem_flatMap.1 hs
  obtain ⟨e, he, hue⟩ := exists_of_mem_forall₂ h.units hu
  obtain ⟨f, hf, hfe⟩ := h.outline he
  exact ⟨f, hf, e.outline, hfe, (hue.structs s hs).name⟩

end

/-! ## 5. Names -/

theorem spelled_of_outlineFile {t : FileTree} {root : Path} {names : List String} {f : OutlinedFile}
    (h : outlineFile t root names = .ok f) : f.outline.Spelled := by
  unfold outlineFile at h
  dsimp only at h
  split at h
  · cases h
  split at h
  · rename_i hbytes
    cases h
    exact spelled_of_ofBytes hbytes
  · cases h
  · cases h

/-- **The model of a directory comes from files whose names are words.** -/
theorem modelFrom_of_modelAt {t : FileTree} {rules : List Exclusion} {store : Store} {root : Path} {m : Model}
    (h : modelAt t rules store root = .ok m) :
    ∃ files known es, ModelFrom store files known es m ∧ ∀ f ∈ files, f.outline.Spelled := by
  obtain ⟨root, -, h⟩ := ok_of_bind h
  obtain ⟨names, -, h⟩ := ok_of_bind h
  obtain ⟨files, hfiles, h⟩ := ok_of_bind h
  obtain ⟨known, es, hfrom⟩ := modelFrom_of_modelOf h
  refine ⟨files, known, es, hfrom, fun f hf => ?_⟩
  obtain ⟨ns, -, houtline⟩ := exists_of_mem_forall₂ (forall₂_of_mapM hfiles) hf
  exact spelled_of_outlineFile (ok_of_mapError houtline)

/-- **The name of every unit of a model is a word.** -/
theorem word_of_modelAt {t : FileTree} {rules : List Exclusion} {store : Store} {root : Path} {m : Model}
    (h : modelAt t rules store root = .ok m) : ∀ u ∈ m.units, IsWord u.className := by
  obtain ⟨files, known, es, hfrom, hspelled⟩ := modelFrom_of_modelAt h
  intro u hu
  obtain ⟨f, hf, c, hc, hname⟩ := hfrom.unit hu
  rw [hname]
  exact ((hspelled f hf).classes c hc).name

end NativeGlue.Source
