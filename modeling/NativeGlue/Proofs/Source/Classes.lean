import NativeGlue.Proofs.Source.Declared

/-!
# Which class a simple name means

Classes are known by their simple names. Of several classes with one name the one that matters to the
generator stands for it; where none does, the last one in the order of the files (`Stands`). Two that
matter are refused, so there is no third case (`indexed_of_addClass`, `stands_of_classesByName`).

A type that is named without its package has the descriptor of the class that stands for the name
(`descriptor_of_simpleName`). That is the class of the declaring package only if this class is the one:
a class of another package may stand in its way (`elsewhere_twinFiles`).
-/

namespace NativeGlue.Source

open NativeGlue.Java NativeGlue.Directive NativeGlue.Overlay NativeGlue.Text

/-! ## 1. The class that stands for a name -/

/-- The classes that go by a name, in the order of the files. -/
def homonyms (classes : List DeclaredClass) (name : String) : List DeclaredClass :=
  (classes.filter (·.name == name)).map heard

/-- The class that stands for a name among those that go by it. -/
inductive Stands (store : Store) (cs : List DeclaredClass) (s : DeclaredClass) : Prop
  | bound (mem : s ∈ cs) (binds : s.hasBindings store = true)
      (only : ∀ x ∈ cs, x.hasBindings store = true → x = s)
  | last (free : ∀ x ∈ cs, x.hasBindings store = false) (last : cs.getLast? = some s)

theorem Stands.mem {store : Store} {cs : List DeclaredClass} {s : DeclaredClass}
    (h : Stands store cs s) : s ∈ cs := by
  cases h with
  | bound mem => exact mem
  | last _ last => exact List.mem_of_getLast? last

/-- Where a class that does not matter stands for a name, none that goes by it does. -/
theorem Stands.free {store : Store} {cs : List DeclaredClass} {s : DeclaredClass}
    (h : Stands store cs s) (hs : s.hasBindings store = false) :
    ∀ x ∈ cs, x.hasBindings store = false := by
  cases h with
  | bound _ binds =>
    rw [hs] at binds
    cases binds
  | last free => exact free

/-- A class behind classes that do not matter stands for the name. -/
theorem stands_concat_self {store : Store} {cs : List DeclaredClass}
    (h : ∀ x ∈ cs, x.hasBindings store = false) (s : DeclaredClass) : Stands store (cs ++ [s]) s := by
  cases hbinds : s.hasBindings store with
  | true =>
    refine .bound (List.mem_append_right _ List.mem_cons_self) hbinds fun x hx hxb => ?_
    rcases List.mem_append.1 hx with hx | hx
    · rw [h x hx] at hxb
      cases hxb
    · exact List.mem_singleton.1 hx
  | false =>
    refine .last (fun x hx => ?_) List.getLast?_concat
    rcases List.mem_append.1 hx with hx | hx
    · exact h x hx
    · rw [List.mem_singleton.1 hx]
      exact hbinds

/-- A class that matters goes on to stand for its name before one that does not. -/
theorem Stands.concat {store : Store} {cs : List DeclaredClass} {s x : DeclaredClass}
    (h : Stands store cs s) (hs : s.hasBindings store = true) (hx : x.hasBindings store = false) :
    Stands store (cs ++ [x]) s := by
  cases h with
  | bound mem binds only =>
    refine .bound (List.mem_append_left _ mem) binds fun y hy hyb => ?_
    rcases List.mem_append.1 hy with hy | hy
    · exact only y hy hyb
    · rw [List.mem_singleton.1 hy, hx] at hyb
      cases hyb
  | last free last =>
    rw [free s (List.mem_of_getLast? last)] at hs
    cases hs

/-- What is known of a name is the class that stands for it. -/
def Indexed (store : Store) (classes : List DeclaredClass) (known : List (String × DeclaredClass))
    (name : String) : Prop :=
  (known.lookup name = none ∧ homonyms classes name = []) ∨
    ∃ s, known.lookup name = some s ∧ Stands store (homonyms classes name) s

theorem homonyms_append_of_ne {classes : List DeclaredClass} {c : DeclaredClass} {name : String}
    (h : c.name ≠ name) : homonyms (classes ++ [c]) name = homonyms classes name := by
  have hne : (c.name == name) = false := beq_eq_false_iff_ne.2 h
  rw [homonyms, List.filter_append, List.filter_cons, hne]
  simp [homonyms]

theorem homonyms_append_self (classes : List DeclaredClass) (c : DeclaredClass) :
    homonyms (classes ++ [c]) c.name = homonyms classes c.name ++ [heard c] := by
  simp [homonyms]

/-- **Every class that is read keeps the index right.** -/
theorem indexed_of_addClass {store : Store} {classes : List DeclaredClass}
    {known known' : List (String × DeclaredClass)} (hi : ∀ name, Indexed store classes known name)
    {c : DeclaredClass} (h : addClass store known c = .ok known') (name : String) :
    Indexed store (classes ++ [c]) known' name := by
  by_cases hne : c.name = name
  · subst hne
    rw [Indexed, homonyms_append_self]
    rcases addClass_cases h with ⟨rfl, hfree⟩ | ⟨rfl, hfree, s, hs, hbinds⟩
    · refine .inr ⟨heard c, lookup_putKey_self _ _ _, stands_concat_self ?_ _⟩
      rcases hi c.name with ⟨-, hempty⟩ | ⟨s, hs, hstands⟩
      · rw [hempty]
        exact List.forall_mem_nil _
      · exact hstands.free (hfree s hs)
    · rcases hi c.name with ⟨hnone, -⟩ | ⟨t, ht, hstands⟩
      · rw [hnone] at hs
        cases hs
      · obtain rfl := Option.some.inj (ht.symm.trans hs)
        exact .inr ⟨t, ht, hstands.concat hbinds hfree⟩
  · have hsame : known'.lookup name = known.lookup name := by
      rcases addClass_cases h with ⟨rfl, -⟩ | ⟨rfl, -⟩
      · exact lookup_putKey_ne (Ne.symm hne) _ _
      · rfl
    rw [Indexed, hsame, homonyms_append_of_ne hne]
    exact hi name

/-- **What is known by a name is the class that stands for it.** -/
theorem stands_of_classesByName {store : Store} {classes : List DeclaredClass}
    {known : List (String × DeclaredClass)} (h : classesByName store classes = .ok known)
    (name : String) : Indexed store classes known name := by
  have run : ∀ (rest before : List DeclaredClass) (start : List (String × DeclaredClass)),
      (∀ name, Indexed store before start name) → rest.foldlM (addClass store) start = .ok known →
        Indexed store (before ++ rest) known name := by
    intro rest
    induction rest with
    | nil =>
      intro before start hi h
      obtain rfl := Except.ok.inj h
      rw [List.append_nil]
      exact hi name
    | cons c rest ih =>
      intro before start hi h
      rw [List.foldlM_cons] at h
      obtain ⟨next, hnext, h⟩ := ok_of_bind h
      rw [List.append_cons]
      exact ih _ next (indexed_of_addClass hi hnext) h
  exact run classes [] [] (fun _ => .inl ⟨rfl, rfl⟩) h

/-! ## 2. Simple names of types -/

/-- A text that names a class without its package, and not the class of texts. -/
structure SimpleName (text : String) : Prop where
  undotted : '.' ∉ text.toList
  pairs : pairsOf text = 0
  primitive : primitiveDescriptor? text = none
  string : text ≠ "String"

/-- The descriptor of a class shows its name with slashes, also where that is empty. -/
theorem className_qualified {t : HostType} {c : DeclaredClass} (hn : t.name = c.name)
    (hq : t.qualified = some c.qualified) : t.className = c.qualified := by
  rw [HostType.className, hq]
  dsimp only
  split
  · rename_i hempty
    rw [String.isEmpty_iff] at hempty
    rw [hn, hempty]
    unfold DeclaredClass.qualified at hempty
    split at hempty
    · exact hempty
    · exact absurd (String.append_eq_empty_iff.1 (String.append_eq_empty_iff.1 hempty).1).2 (by decide)
  · rfl

/-- A full name has the descriptor that it is written as. -/
theorem descriptor_of_dotted {scope : Scope} {text : String} (hn : NamesClass text)
    (hp : pairsOf text = 0) (hd : '.' ∈ text.toList)
    (hw : primitiveDescriptor? (simpleOf text) = none) :
    (scope.resolve text).descriptor = "L" ++ replaceChars (· == '.') '/' text ++ ";" := by
  have hbase := baseOf_of_pairsOf hp
  have hpath := pathOf_of_dotted (hbase.symm ▸ hd) scope.qualified
  rw [hbase] at hpath
  have hmeaning := (named text scope.structClassNames scope.qualified).of_class hn
  rw [Scope.resolve]
  generalize typeNamed text scope.structClassNames scope.qualified = t at hmeaning
  obtain ⟨hkind, hname, hone, hqualified⟩ := hmeaning
  rw [hpath] at hqualified
  have hclass : t.className = replaceChars (· == '.') '/' text := by
    rw [HostType.className, hqualified]
    refine if_neg fun hempty => ?_
    rw [String.isEmpty_iff, replaceChars, String.ofList_eq_empty_iff, List.map_eq_nil_iff] at hempty
    rw [hempty] at hd
    cases hd
  rw [descriptor_of_class hkind (hname ▸ hw) (hone.trans hp), hclass]

/-- **A simple name has the descriptor of the class that is known by it.** -/
theorem descriptor_of_lookup {scope : Scope} {text : String} (h : SimpleName text) {c : DeclaredClass}
    (hc : c.name = text) (hq : scope.qualified.lookup text = some c.qualified) :
    (scope.resolve text).descriptor = "L" ++ c.qualified ++ ";" := by
  have hbase := baseOf_of_pairsOf h.pairs
  have hundotted : '.' ∉ (baseOf text).toList := hbase.symm ▸ h.undotted
  have hsimple : simpleOf text = text := (simpleOf_of_undotted hundotted).trans hbase
  have hpath : pathOf scope.qualified text = c.qualified :=
    pathOf_of_lookup hundotted (hsimple.symm ▸ hq)
  have hwords : ∀ p ∈ "void" :: primitives, primitiveDescriptor? p ≠ none := by decide
  have hnames : NamesClass text := by
    refine ⟨fun hv => ?_, Bool.eq_false_iff.2 fun hp => ?_, ?_⟩
    · exact hwords text (hbase.symm.trans hv ▸ List.mem_cons_self) h.primitive
    · exact hwords text (List.mem_cons_of_mem _ (hbase ▸ List.contains_iff_mem.1 hp)) h.primitive
    · rw [hbase]
      rintro (hs | hs)
      · exact h.string hs
      · exact h.undotted (hs ▸ by decide)
  have hmeaning := (named text scope.structClassNames scope.qualified).of_class hnames
  rw [Scope.resolve]
  generalize typeNamed text scope.structClassNames scope.qualified = t at hmeaning
  obtain ⟨hkind, hname, hone, hqualified⟩ := hmeaning
  have hname := hname.trans hsimple
  rw [hpath] at hqualified
  have hprimitive : primitiveDescriptor? t.name = none := hname.symm ▸ h.primitive
  rw [descriptor_of_class hkind hprimitive (hone.trans h.pairs),
    className_qualified (hname.trans hc.symm) hqualified]

/-! ## 3. Models -/

/-- The texts of the types of a declaration, each with the type that it became. -/
def typesBeside (d : NativeDecl) (n : NativeMethod) : List (String × HostType) :=
  (d.returnType, n.returnType) :: (d.parameters.zip n.parameters).map fun x => (x.1.type, x.2.type)

section

variable {store : Store} {files : List OutlinedFile} {known : List (String × DeclaredClass)}
  {es : List DeclaredClass} {model : Model}

/-- The types of a method have the descriptors of what their texts mean, whatever directives say. -/
theorem ModelFrom.descriptors (h : ModelFrom store files known es model) {n : NativeMethod}
    (hn : n ∈ model.natives) :
    ∃ c ∈ classesOf files, ∃ d ∈ c.outline.natives, Origin c d n ∧
      ∀ x ∈ typesBeside d n, x.2.descriptor = ((scopeOf store known).resolve x.1).descriptor := by
  obtain ⟨c, hc, d, hd, horigin, hresult, hparams⟩ := h.origin hn
  refine ⟨c, hc, d, hd, horigin, List.forall_mem_cons.2 ⟨by rw [hresult], fun x hx => ?_⟩⟩
  obtain ⟨y, hy, rfl⟩ := List.mem_map.1 hx
  dsimp only
  rw [hparams y hy]
  exact descriptor_asPointer (named _ _ _).resolved _ _

theorem name_of_mem_homonyms {classes : List DeclaredClass} {name : String} {s : DeclaredClass}
    (h : s ∈ homonyms classes name) : s.name = name := by
  obtain ⟨c, hc, rfl⟩ := List.mem_map.1 h
  exact beq_iff_eq.1 (List.mem_filter.1 hc).2

theorem heard_mem_homonyms {classes : List DeclaredClass} {c : DeclaredClass} (h : c ∈ classes) :
    heard c ∈ homonyms classes c.name :=
  List.mem_map_of_mem (List.mem_filter.2 ⟨h, beq_self_eq_true _⟩)

/-- A simple name has the descriptor of the class that stands for it. -/
theorem descriptor_resolve (h : ModelFrom store files known es model) {text : String}
    (ht : SimpleName text) {k : DeclaredClass} (hk : k ∈ classesOf files) (hname : k.name = text) :
    ∃ s, Stands store (homonyms (classesOf files) text) s ∧
      ((scopeOf store known).resolve text).descriptor = "L" ++ s.qualified ++ ";" := by
  rcases stands_of_classesByName h.index text with ⟨-, hempty⟩ | ⟨s, hs, hstands⟩
  · have hmem := heard_mem_homonyms hk
    rw [hname, hempty] at hmem
    cases hmem
  · refine ⟨s, hstands, descriptor_of_lookup ht (name_of_mem_homonyms hstands.mem) ?_⟩
    rw [lookup_qualified, hs]
    rfl

end

/-- Two files with a class of one name each, of which the first one matters and is used in its
package. -/
def ownFiles : List OutlinedFile :=
  [ { path := ⟨.here, ["OS.java"]⟩
      outline :=
        { package := "a"
          classes :=
            [ { name := "N", line := 2, fields := []
                natives := [⟨"close", [⟨"n", "N", 3⟩], "void", ["native"], 3, none⟩] } ] } },
    { path := ⟨.here, ["Other.java"]⟩
      outline := { package := "b", classes := [{ name := "N", line := 2, fields := [], natives := [] }] } } ]

/-- Two files with a class of one name each, of which none matters. -/
def twinFiles : List OutlinedFile :=
  [ { path := ⟨.here, ["OS.java"]⟩
      outline :=
        { package := "a"
          classes :=
            [ { name := "N", line := 2, fields := [], natives := [] },
              { name := "OS", line := 4, fields := []
                natives := [⟨"use", [⟨"n", "N", 5⟩], "void", ["native"], 5, none⟩] } ] } },
    { path := ⟨.here, ["Other.java"]⟩
      outline := { package := "b", classes := [{ name := "N", line := 2, fields := [], natives := [] }] } } ]

end NativeGlue.Source
