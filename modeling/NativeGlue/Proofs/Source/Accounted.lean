import NativeGlue.Proofs.Source.Classes

/-!
# Every declaration is accounted for

A model has an entry for each native method that its classes declare, in the order of the declarations: the
method itself, or the mark that it is left out where its doc comment or the store says so
(`accounts_of_readMethod`). A class with native methods stands for its name whatever else goes by it
(`lookup_of_natives`), so it has a unit, and only one (`accounted_of_modelOf`). Two such classes of one name
are refused.
-/

namespace NativeGlue.Source

open NativeGlue.Java NativeGlue.Directive NativeGlue.Overlay

/-! ## 1. Methods -/

/-- The doc comment of a method or the store says that it is to be left out. -/
def AskedOut (store : Store) (scope : Scope) (c : DeclaredClass) (d : NativeDecl) : Prop :=
  (∃ o, directivesOf c.path d.doc = .ok o ∧ (o.method.getD {}).flags.noGen = true) ∨
    ∃ r, store.lookup (identityOf scope c.name d) = some r ∧ r.method.flags.noGen = true

/-- A declaration and its entry: the method, or the mark that it is left out. -/
structure Accounts (store : Store) (scope : Scope) (c : DeclaredClass) (d : NativeDecl) (r : Declared) :
    Prop where
  declared : DeclaredFrom scope c d r
  left : (∃ t, r = .left t) ↔ AskedOut store scope c d

/-- A method is left out exactly if its doc comment or the store says so. -/
theorem left_iff_of_readMethod {store : Store} {scope : Scope} {c : DeclaredClass} {d : NativeDecl}
    {r : Declared} (h : readMethod store scope c d = .ok r) :
    (∃ t, r = .left t) ↔ AskedOut store scope c d := by
  unfold readMethod at h
  obtain ⟨inline, hinline, h⟩ := ok_of_bind h
  dsimp only at h
  have hflags : ((inline.method.getD {}).flags ∪
      (((store.lookup (identityOf scope c.name d)).map Record.method).getD {}).flags).noGen = true ↔
        AskedOut store scope c d := by
    show (_ || _) = true ↔ _
    rw [Bool.or_eq_true, AskedOut, hinline]
    refine or_congr ⟨fun hf => ⟨inline, rfl, hf⟩, ?_⟩ ?_
    · rintro ⟨o, ho, hf⟩
      rwa [Except.ok.inj ho]
    · cases store.lookup (identityOf scope c.name d) with
      | none => simp
      | some r => simp
  split at h
  · rename_i hleft
    obtain rfl := Except.ok.inj h
    exact iff_of_true ⟨_, rfl⟩ (hflags.1 hleft)
  · rename_i hkept
    iterate 3 obtain ⟨_, -, h⟩ := ok_of_bind h
    obtain rfl := Except.ok.inj h
    exact iff_of_false nofun fun hasked => hkept (hflags.2 hasked)

/-- **What a declaration becomes accounts for it.** -/
theorem accounts_of_readMethod {store : Store} {scope : Scope} {c : DeclaredClass} {d : NativeDecl}
    {r : Declared} (h : readMethod store scope c d = .ok r) : Accounts store scope c d r :=
  ⟨declaredFrom_of_readMethod h, left_iff_of_readMethod h⟩

/-- The directives of a class play no part in what its declarations become. -/
theorem Accounts.of_heard {store : Store} {scope : Scope} {c : DeclaredClass} {d : NativeDecl}
    {r : Declared} (h : Accounts store scope (heard c) d r) : Accounts store scope c d r := by
  refine ⟨?_, h.left⟩
  cases h.declared with
  | native hn => exact .native ⟨hn.identity, hn.position, hn.parameters, hn.returnType, hn.overloaded⟩
  | left hidentity hposition => exact .left hidentity hposition

/-! ## 2. Units -/

/-- A unit and the class it is about. It has an entry for each method that the class declares; the methods
and the marks each keep the order of the declarations. -/
structure Covers (store : Store) (scope : Scope) (c : DeclaredClass) (u : ClassUnit) : Prop where
  path : u.path = c.path
  className : u.className = c.name
  package : u.package = c.package
  entries : ∃ rs, List.Forall₂ (Accounts store scope c) c.outline.natives rs ∧
    u.natives = nativesAmong rs ∧ u.tombstones = leftAmong rs

theorem covers_of_unitOf {store : Store} {scope : Scope} {c : DeclaredClass} {u : ClassUnit}
    (h : unitOf store scope (heard c) = .ok (some u)) : Covers store scope c u := by
  obtain ⟨rs, structs, hrs, -, rfl⟩ := of_unitOf_some h
  refine ⟨rfl, rfl, rfl, rs, ?_, rfl, rfl⟩
  exact (forall₂_of_mapM hrs).imp fun d r hr => (accounts_of_readMethod hr).of_heard

/-! ## 3. Classes -/

/-- Results of a partial function are those of a total one on the items that have a result. -/
theorem filterMap_eq_map_filter {α β : Type} {f : α → Option β} {g : α → β} {l : List α}
    (h : ∀ a ∈ l, ∀ b, f a = some b → b = g a) :
    l.filterMap f = (l.filter fun a => (f a).isSome).map g := by
  induction l with
  | nil => rfl
  | cons a l ih =>
    have hrest := ih fun x hx => h x (List.mem_cons_of_mem _ hx)
    cases ha : f a with
    | none => rw [List.filterMap_cons_none ha, List.filter_cons_of_neg (by simp [ha]), hrest]
    | some b =>
      rw [List.filterMap_cons_some ha, List.filter_cons_of_pos (by simp [ha]), List.map_cons, hrest,
        h a List.mem_cons_self b ha]

section

variable {store : Store} {files : List OutlinedFile} {known : List (String × DeclaredClass)}

/-- Two classes of the files that stand in one place are one. -/
theorem eq_of_place {c k : DeclaredClass} (hc : c ∈ classesOf files) (hk : k ∈ classesOf files)
    (h : c.place = k.place) : c = k := by
  have hplaces : ((classesOf files).map (·.place)).Nodup :=
    List.pairwise_map.2 (pairwise_place_classesOf files)
  exact List.inj_on_of_nodup_map hplaces hc hk h

/-- The chosen classes are classes of the files, in their order, each with its directives. -/
theorem chosenClasses_eq (h : classesByName store (classesOf files) = .ok known) :
    chosenClasses known (classesOf files) = ((classesOf files).filter fun c =>
      ((known.lookup c.name).filter fun e => e.place == c.place).isSome).map heard := by
  refine filterMap_eq_map_filter fun c hc e he => ?_
  obtain ⟨hlookup, hplace⟩ := Option.filter_eq_some_iff.1 he
  rcases stands_of_classesByName h c.name with ⟨hnone, -⟩ | ⟨s, hs, hstands⟩
  · rw [hlookup] at hnone
    cases hnone
  · obtain rfl := Option.some.inj (hlookup.symm.trans hs)
    obtain ⟨k, hk, rfl⟩ := List.mem_map.1 hstands.mem
    rw [eq_of_place (List.mem_filter.1 hk).1 hc (beq_iff_eq.1 hplace)]

/-- **A class with native methods stands for its name**, whatever else goes by it. -/
theorem lookup_of_natives (h : classesByName store (classesOf files) = .ok known) {c : DeclaredClass}
    (hc : c ∈ classesOf files) (hn : c.outline.natives ≠ []) : known.lookup c.name = some (heard c) := by
  have hmem := heard_mem_homonyms hc
  have hbinds : (heard c).hasBindings store = true := by
    show (!c.outline.natives.isEmpty || _ || _) = true
    simp [hn]
  rcases stands_of_classesByName h c.name with ⟨-, hempty⟩ | ⟨s, hs, hstands⟩
  · rw [hempty] at hmem
    cases hmem
  · cases hstands with
    | bound _ _ only => rw [hs, only _ hmem hbinds]
    | last free =>
      rw [free _ hmem] at hbinds
      cases hbinds

/-- What may be wrong with the names of classes, or with the directives that are read on the way. -/
def IsIndexFault (f : Fault) : Prop :=
  ∃ g, f = .source g ∧ ((∃ name first, g.cause = .duplicateClass name first) ∨ ∃ d, g.cause = .directive d)

theorem isIndexFault_of_classesByName {classes : List DeclaredClass} {f : Fault}
    (h : classesByName store classes = .error f) : IsIndexFault f := by
  obtain ⟨c, -, before, hc⟩ := error_of_foldlM h
  rcases error_of_bind hc with hdoc | ⟨directives, -, hc⟩
  · unfold directivesOf at hdoc
    split at hdoc
    · cases hdoc
    · rename_i d _
      cases hread : readComment (some d.text) d.line with
      | ok o =>
        rw [hread] at hdoc
        cases hdoc
      | error x =>
        rw [hread] at hdoc
        exact ⟨_, (Except.error.inj hdoc).symm, .inr ⟨x.2, rfl⟩⟩
  · dsimp only at hc
    split at hc
    · cases hc
    split at hc
    · cases hc
    split at hc
    · exact ⟨_, (Except.error.inj hc).symm, .inl ⟨_, _, rfl⟩⟩
    · cases hc

end

/-! ## 4. The model -/

/-- A model is made of the units of some classes of the files, in their order: no two of one name, and among
them every class with native methods. -/
def Accounted (store : Store) (files : List OutlinedFile) (m : Model) : Prop :=
  ∃ known cs, classesByName store (classesOf files) = .ok known ∧ cs.Sublist (classesOf files) ∧
    List.Forall₂ (Covers store (scopeOf store known)) cs m.units ∧
    (∀ c ∈ classesOf files, c.outline.natives ≠ [] → c ∈ cs) ∧ cs.Pairwise fun c k => c.name ≠ k.name

theorem Accounted.of_modelOf {store : Store} {files : List OutlinedFile} {m : Model}
    (h : modelOf store files = .ok m) : Accounted store files m := by
  obtain ⟨known, hknown, h⟩ := ok_of_bind h
  obtain ⟨os, hos, h⟩ := ok_of_bind h
  obtain rfl := Except.ok.inj h
  obtain ⟨kept, hsub, hunits, hall⟩ := units_of_unitOfs (forall₂_of_mapM hos)
  have hnames := (pairwise_name_chosenClasses (knownFrom_of_classesByName hknown)
    (pairwise_place_classesOf files)).sublist hsub
  have hchosen := hsub
  rw [chosenClasses_eq hknown] at hchosen
  obtain ⟨cs, hcs, rfl⟩ := List.sublist_map_iff.1 hchosen
  refine ⟨known, cs, hknown, hcs.trans List.filter_sublist, ?_, fun c hc hn => ?_,
    (List.pairwise_map.1 hnames :)⟩
  · rw [List.forall₂_map_left_iff] at hunits
    exact hunits.imp fun c u hu => covers_of_unitOf hu
  · have hstands := lookup_of_natives hknown hc hn
    obtain ⟨-, hmem⟩ := mem_chosenClasses (knownFrom_of_classesByName hknown) hstands
    obtain ⟨k, hk, hkc⟩ := List.mem_map.1 (hall (heard c) hmem (.inl hn))
    have hplace : k.place = c.place := (congrArg DeclaredClass.place hkc :)
    rw [← eq_of_place (List.mem_of_mem_filter (hcs.subset hk)) hc hplace]
    exact hk

/-- **No native method is lost, and none is there twice.** A model that was built has the units of some
classes of the files in their order, among them every class with native methods, and no two of one name; each
unit has one entry for each declaration of its class, and it is the mark of one left out exactly if directives
say so. Two classes of one name that both declare native methods are refused. -/
theorem accounted_of_modelOf (store : Store) (files : List OutlinedFile) :
    (∀ m, modelOf store files = .ok m → Accounted store files m) ∧
      ∀ c ∈ classesOf files, ∀ k ∈ classesOf files, c.place ≠ k.place → c.name = k.name →
        c.outline.natives ≠ [] → k.outline.natives ≠ [] →
          ∃ f, modelOf store files = .error f ∧ IsIndexFault f := by
  refine ⟨fun m h => .of_modelOf h, fun c hc k hk hplace hname hcn hkn => ?_⟩
  cases hindex : classesByName store (classesOf files) with
  | ok known =>
    have hc' := lookup_of_natives hindex hc hcn
    rw [hname, lookup_of_natives hindex hk hkn] at hc'
    exact absurd (congrArg DeclaredClass.place (Option.some.inj hc')).symm hplace
  | error f =>
    refine ⟨f, ?_, isIndexFault_of_classesByName hindex⟩
    unfold modelOf
    dsimp only
    rw [hindex]
    rfl

/-- Two files. A doc comment leaves out one method and the store another one; a class goes by a name that
matters elsewhere, two classes of one name do not matter, and one is a struct class alone. -/
def accountFiles : List OutlinedFile :=
  [ { path := ⟨.here, ["a", "OS.java"]⟩
      outline :=
        { package := "a"
          classes :=
            [ { name := "OS", line := 2, fields := []
                natives := [ ⟨"open", [⟨"p", "Point", 3⟩], "int", ["native"], 3, none⟩,
                             ⟨"drop", [], "void", ["native"], 5, some ⟨"/** @method flags=no_gen */", 4⟩⟩,
                             ⟨"read", [⟨"n", "int", 6⟩], "void", ["native"], 6, none⟩,
                             ⟨"close", [], "void", ["native"], 7, none⟩ ] },
              { name := "N", line := 9, fields := [], natives := [] } ] } },
    { path := ⟨.here, ["b", "Point.java"]⟩
      outline :=
        { package := "b"
          classes := [ { name := "OS", line := 2, fields := [⟨"x", "int", 2, none⟩], natives := [] },
                       { name := "Point", line := 3, fields := [⟨"x", "int", 3, none⟩], natives := [] },
                       { name := "N", line := 4, fields := [], natives := [] } ] } } ]

/-- A store that leaves out a method. -/
def accountStore : Store := .ofRecords [{ key := "OS.read", kind := .method, method.flags.noGen := true }]

/-- Two files with a class of one name each, and native methods in both. -/
def rivalFiles : List OutlinedFile :=
  ["a", "b"].map fun package =>
    { path := ⟨.here, [package, "OS.java"]⟩
      outline := { package, classes := [ { name := "OS", line := 2, fields := []
                                           natives := [⟨package, [], "void", ["native"], 3, none⟩] } ] } }

theorem accounted_accountFiles :
    (∃ m, modelOf accountStore accountFiles = .ok m ∧ m.units.map (·.className) = ["OS", "Point"] ∧
      m.natives.map (·.name) = ["open", "close"] ∧ Accounted accountStore accountFiles m) ∧
      ∃ f, modelOf {} rivalFiles = .error f ∧ IsIndexFault f := by
  have hbuilt : ∃ m ∈ (modelOf accountStore accountFiles).toOption,
      m.units.map (·.className) = ["OS", "Point"] ∧ m.natives.map (·.name) = ["open", "close"] := by
    decide +kernel
  obtain ⟨m, hm, hunits, hnatives⟩ := hbuilt
  have hm := ok_of_toOption hm
  have hrivals : ∃ c ∈ classesOf rivalFiles, ∃ k ∈ classesOf rivalFiles, c.place ≠ k.place ∧
      c.name = k.name ∧ c.outline.natives ≠ [] ∧ k.outline.natives ≠ [] := by
    decide
  obtain ⟨c, hc, k, hk, hplace, hname, hcn, hkn⟩ := hrivals
  exact ⟨⟨m, hm, hunits, hnatives, (accounted_of_modelOf accountStore accountFiles).1 m hm⟩,
    (accounted_of_modelOf {} rivalFiles).2 c hc k hk hplace hname hcn hkn⟩

end NativeGlue.Source
