import NativeGlue.Proofs.Source.Declared

/-!
# Sources in which no two classes share a name

There every class stands for its name, so all of them are known, in the order of the files
(`classesByName_of_nodup`), and the model is made of all their units (`modelOf_of_nodup`). A class stands for
a struct if a directive or an override says so, or if a native method of any class takes it by value
(`mem_structClassNames_iff`).
-/

namespace NativeGlue.Source

open NativeGlue.Java NativeGlue.Directive NativeGlue.Overlay NativeGlue.Text

/-! ## 1. The index -/

/-- All classes under their names. -/
def indexOf (classes : List DeclaredClass) : List (String × DeclaredClass) :=
  classes.map fun c => (c.name, heard c)

theorem keys_indexOf (classes : List DeclaredClass) : (indexOf classes).map (·.1) = classes.map (·.name) :=
  List.map_map

theorem lookup_indexOf {classes : List DeclaredClass} (hd : (classes.map (·.name)).Nodup) {c : DeclaredClass}
    (hc : c ∈ classes) : (indexOf classes).lookup c.name = some (heard c) :=
  lookup_of_mem (keys_indexOf classes ▸ hd) (List.mem_map_of_mem (f := fun c => (c.name, heard c)) hc)

/-- What is known by a name is a class of this name. -/
theorem exists_of_lookup_indexOf {classes : List DeclaredClass} {name : String} {x : DeclaredClass}
    (h : (indexOf classes).lookup name = some x) : ∃ c ∈ classes, c.name = name ∧ heard c = x := by
  obtain ⟨c, hc, he⟩ := List.mem_map.1 (mem_of_lookup h)
  exact ⟨c, hc, (Prod.mk.inj he).1, (Prod.mk.inj he).2⟩

/-- A class whose name is not known yet comes last. -/
theorem addClass_of_not_mem {store : Store} {known : List (String × DeclaredClass)} {c : DeclaredClass}
    (h : c.name ∉ known.map (·.1)) :
    addClass store known c =
      (directivesOf c.path c.outline.doc).map fun _ => known ++ [(c.name, heard c)] := by
  unfold addClass
  cases hd : directivesOf c.path c.outline.doc with
  | error f => rfl
  | ok directives =>
    have hheard : { c with directives } = heard c := by
      rw [heard, hd]
      rfl
    dsimp only [bind, Except.bind]
    rw [hheard]
    have hnone : known.lookup (heard c).name = none := lookup_eq_none.2 h
    rw [hnone]
    dsimp only
    rw [putClass_eq_putKey]
    exact congrArg Except.ok (putKey_of_not_mem h _)

/-- **Where no two classes share a name, all of them are known**, unless a doc comment cannot be read. -/
theorem classesByName_of_nodup (store : Store) {classes : List DeclaredClass}
    (hd : (classes.map (·.name)).Nodup) :
    classesByName store classes =
      (classes.mapM fun c => directivesOf c.path c.outline.doc).map fun _ => indexOf classes := by
  have run : ∀ rest before : List DeclaredClass, ((before ++ rest).map (·.name)).Nodup →
      rest.foldlM (addClass store) (indexOf before) =
        (rest.mapM fun c => directivesOf c.path c.outline.doc).map fun _ => indexOf (before ++ rest) := by
    intro rest
    induction rest with
    | nil =>
      intro before _
      rw [List.append_nil]
      rfl
    | cons c rest ih =>
      intro before hd
      have hfresh : c.name ∉ (indexOf before).map (·.1) := by
        rw [keys_indexOf]
        rw [List.map_append, List.map_cons, List.nodup_append] at hd
        exact fun hc => hd.2.2 _ hc _ List.mem_cons_self rfl
      have hnext : indexOf before ++ [(c.name, heard c)] = indexOf (before ++ [c]) := by
        rw [indexOf, indexOf, List.map_append, List.map_singleton]
      rw [List.append_cons] at hd ⊢
      rw [List.foldlM_cons, addClass_of_not_mem hfresh, hnext, List.mapM_cons]
      cases directivesOf c.path c.outline.doc with
      | error f => rfl
      | ok directives =>
        refine (ih (before ++ [c]) hd).trans ?_
        cases rest.mapM fun c => directivesOf c.path c.outline.doc <;> rfl
  exact run classes [] hd

/-! ## 2. The model -/

/-- Every class is chosen. -/
theorem chosenClasses_indexOf {classes : List DeclaredClass} (hd : (classes.map (·.name)).Nodup) :
    chosenClasses (indexOf classes) classes = classes.map heard := by
  rw [chosenClasses, ← List.filterMap_eq_map]
  refine List.filterMap_congr fun c hc => ?_
  rw [lookup_indexOf hd hc]
  exact if_pos (beq_self_eq_true c.place)

/-- **Where no two classes share a name, the model is made of the units of all classes.** -/
theorem modelOf_of_nodup (store : Store) {files : List OutlinedFile}
    (hd : ((classesOf files).map (·.name)).Nodup) :
    modelOf store files = (do
      let _ ← (classesOf files).mapM fun c => directivesOf c.path c.outline.doc
      let units ← (classesOf files).mapM fun c =>
        unitOf store (scopeOf store (indexOf (classesOf files))) (heard c)
      pure ⟨units.filterMap id⟩) := by
  unfold modelOf
  dsimp only
  rw [classesByName_of_nodup store hd]
  cases (classesOf files).mapM fun c => directivesOf c.path c.outline.doc with
  | error f => rfl
  | ok directives =>
    dsimp only [Except.map, bind, Except.bind]
    rw [chosenClasses_indexOf hd, List.mapM_map]
    rfl

/-! ## 3. Struct classes -/

/-- A native method takes a class with fields by value. -/
def Takes (d : NativeDecl) (x : DeclaredClass) : Prop :=
  x.outline.fields ≠ [] ∧ ∃ p ∈ d.parameters, afterLastDot p.type = x.name

/-- A class stands for a struct: a directive or an override says so, or a native method takes it by value. -/
inductive IsStruct (store : Store) (classes : List DeclaredClass) (x : DeclaredClass) : Prop
  | tagged (h : (heard x).directives.struct.isSome = true)
  | stored (h : x.name ∈ store.structClassNames)
  | taken {c : DeclaredClass} {d : NativeDecl} (hc : c ∈ classes) (hd : d ∈ c.outline.natives) (h : Takes d x)

theorem mem_passedByValue_iff {classes : List DeclaredClass} (hd : (classes.map (·.name)).Nodup)
    {x : DeclaredClass} (hx : x ∈ classes) :
    x.name ∈ passedByValue (indexOf classes) ↔ ∃ c ∈ classes, ∃ d ∈ c.outline.natives, Takes d x := by
  constructor
  · intro h
    obtain ⟨⟨k, e⟩, he, h⟩ := List.mem_flatMap.1 h
    obtain ⟨c, hc, he⟩ := List.mem_map.1 he
    obtain ⟨rfl, rfl⟩ := Prod.mk.inj he
    obtain ⟨d, hde, h⟩ := List.mem_flatMap.1 h
    obtain ⟨p, hp, h⟩ := List.mem_filterMap.1 h
    split at h
    · rename_i y hy
      obtain ⟨z, hz, hname, rfl⟩ := exists_of_lookup_indexOf hy
      split at h
      · cases h
      · rename_i hfields
        obtain rfl := List.inj_on_of_nodup_map hd hz hx (Option.some.inj h)
        exact ⟨c, hc, d, hde, fun hnone => hfields (List.isEmpty_iff.2 hnone), p, hp, hname.symm⟩
    · cases h
  · rintro ⟨c, hc, d, hdc, hfields, p, hp, hname⟩
    refine List.mem_flatMap.2 ⟨_, List.mem_map_of_mem hc, List.mem_flatMap.2 ⟨d, hdc, ?_⟩⟩
    refine List.mem_filterMap.2 ⟨p, hp, ?_⟩
    rw [hname, lookup_indexOf hd hx]
    exact if_neg fun hnone => hfields (List.isEmpty_iff.1 hnone)

/-- **A class is a struct class if something says so or a native method takes it by value.** -/
theorem mem_structClassNames_iff {store : Store} {classes : List DeclaredClass}
    (hd : (classes.map (·.name)).Nodup) {x : DeclaredClass} (hx : x ∈ classes) :
    x.name ∈ (scopeOf store (indexOf classes)).structClassNames ↔ IsStruct store classes x := by
  unfold scopeOf
  dsimp only
  constructor
  · intro h
    rcases List.mem_append.1 h with h | h
    · rcases List.mem_append.1 h with h | h
      · obtain ⟨⟨k, e⟩, he, hk⟩ := List.mem_filterMap.1 h
        obtain ⟨c, hc, he⟩ := List.mem_map.1 he
        obtain ⟨rfl, rfl⟩ := Prod.mk.inj he
        dsimp only at hk
        split at hk
        · rename_i hsome
          obtain rfl := List.inj_on_of_nodup_map hd hc hx (Option.some.inj hk)
          exact .tagged hsome
        · cases hk
      · exact .stored (List.mem_filter.1 h).1
    · obtain ⟨c, hc, d, hdc, htakes⟩ := (mem_passedByValue_iff hd hx).1 h
      exact .taken hc hdc htakes
  · intro h
    cases h with
    | tagged h =>
      refine List.mem_append_left _ (List.mem_append_left _ ?_)
      exact List.mem_filterMap.2 ⟨_, List.mem_map_of_mem hx, if_pos h⟩
    | stored h =>
      refine List.mem_append_left _ (List.mem_append_right _ (List.mem_filter.2 ⟨h, ?_⟩))
      rw [lookup_indexOf hd hx]
      rfl
    | taken hc hdc h => exact List.mem_append_right _ ((mem_passedByValue_iff hd hx).2 ⟨_, hc, _, hdc, h⟩)

/-- Names of struct classes are names of classes. -/
theorem exists_of_structClass {store : Store} {classes : List DeclaredClass} {name : String}
    (h : name ∈ (scopeOf store (indexOf classes)).structClassNames) : ∃ x ∈ classes, x.name = name := by
  have hknown : ∀ y ∈ indexOf classes, KnownFrom classes y := by
    intro y hy
    obtain ⟨c, hc, rfl⟩ := List.mem_map.1 hy
    exact ⟨rfl, c, hc, _, rfl⟩
  obtain ⟨e, he⟩ := exists_of_mem_structClassNames hknown h
  obtain ⟨x, hx, hname, -⟩ := exists_of_lookup_indexOf he
  exact ⟨x, hx, hname⟩

end NativeGlue.Source
