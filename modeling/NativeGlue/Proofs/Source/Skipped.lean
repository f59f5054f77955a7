import NativeGlue.Proofs.Source.Distinct
import NativeGlue.Proofs.Source.Independence

/-!
# Native methods that are left out

A native method that a directive leaves out has one effect besides its mark: a class with fields that it takes
by value stands for a struct, as for any other native method. Where that class stands for a struct anyway,
the model is the same as if the method were not declared, but for the mark (`modelOf_dropNative`).
-/

namespace NativeGlue.Source

open NativeGlue.Java NativeGlue.Overlay

/-! ## 1. Sources without a native method -/

/-- A class without the native methods of a name. -/
def withoutMethod (cls name : String) (o : ClassOutline) : ClassOutline :=
  { o with natives := o.natives.filter fun d => !(o.name == cls && d.name == name) }

/-- A class of a file without the native methods of a name. -/
def dropped (cls name : String) (c : DeclaredClass) : DeclaredClass :=
  { c with outline := withoutMethod cls name c.outline }

/-- Files without the native methods of a name in a class. -/
def dropNative (cls name : String) (files : List OutlinedFile) : List OutlinedFile :=
  files.map fun f =>
    { f with outline := { f.outline with classes := f.outline.classes.map (withoutMethod cls name) } }

theorem classesOf_dropNative (cls name : String) (files : List OutlinedFile) :
    classesOf (dropNative cls name files) = (classesOf files).map (dropped cls name) :=
  classesOf_map_outline (withoutMethod cls name) files

/-- The names of the classes are the same. -/
theorem nodup_dropNative {files : List OutlinedFile} (hd : ((classesOf files).map (·.name)).Nodup)
    (cls name : String) : ((classesOf (dropNative cls name files)).map (·.name)).Nodup := by
  rw [classesOf_dropNative, List.map_map]
  exact hd

/-- What is left are the other methods. -/
theorem mem_dropped_iff {cls name : String} {c : DeclaredClass} {d : NativeDecl} :
    d ∈ (dropped cls name c).outline.natives ↔ d ∈ c.outline.natives ∧ ¬(c.name = cls ∧ d.name = name) := by
  refine List.mem_filter.trans (and_congr_right fun _ => ?_)
  rw [Bool.not_eq_true', ← Bool.not_eq_true, Bool.and_eq_true, beq_iff_eq, beq_iff_eq]
  rfl

/-- As many methods share the name of a method that is left as before. -/
theorem homonyms_dropped {cls name : String} {c : DeclaredClass} {d : NativeDecl}
    (h : d ∈ (dropped cls name c).outline.natives) :
    (dropped cls name c).outline.natives.filter (·.name == d.name) =
      c.outline.natives.filter (·.name == d.name) := by
  refine List.filter_filter.trans (List.filter_congr fun x _ => ?_)
  by_cases hx : x.name = d.name
  · have hkept := (List.mem_filter.1 h).2
    rw [beq_iff_eq.2 hx, Bool.true_and, hx]
    exact hkept
  · rw [beq_eq_false_iff_ne.2 hx, Bool.false_and]

/-- The scope of the declarations alone. -/
def declaredScope (files : List OutlinedFile) : Scope :=
  ⟨[], (classesOf files).map fun c => (c.name, c.qualified)⟩

/-- The flags of a native method: those in its doc comment, and those in the store. -/
def askedFlags (inline : Directive.DocOptions) (record : Option Record) : MethodFlags :=
  (inline.method.getD {}).flags ∪ ((record.map Record.method).getD {}).flags

/-- A native method of a class is left out, by its doc comment or by an override. In its class it is the only
one of its name, but not the only one. -/
structure Skipped (store : Store) (files : List OutlinedFile) (c : DeclaredClass) (d : NativeDecl) : Prop where
  declared : c ∈ classesOf files
  alone : c.outline.natives.filter (·.name == d.name) = [d]
  others : c.outline.natives ≠ [d]
  marked : ∃ inline, directivesOf c.path d.doc = .ok inline ∧
    (askedFlags inline (store.lookup (identityOf (declaredScope files) c.name d))).noGen = true

section

variable {store : Store} {files : List OutlinedFile} {c : DeclaredClass} {d : NativeDecl}

/-- No other method goes by the name. -/
theorem Skipped.eq_of_name (h : Skipped store files c d) {n : NativeDecl} (hn : n ∈ c.outline.natives)
    (hname : n.name = d.name) : n = d := by
  have hmem : n ∈ c.outline.natives.filter (·.name == d.name) := List.mem_filter.2 ⟨hn, beq_iff_eq.2 hname⟩
  rwa [h.alone, List.mem_singleton] at hmem

/-- A class has methods left if it had any. -/
theorem Skipped.isEmpty_dropped (h : Skipped store files c d) (hd : ((classesOf files).map (·.name)).Nodup)
    {k : DeclaredClass} (hk : k ∈ classesOf files) :
    (dropped c.name d.name k).outline.natives.isEmpty = k.outline.natives.isEmpty := by
  rw [Bool.eq_iff_iff, List.isEmpty_iff, List.isEmpty_iff]
  refine ⟨fun hnone => ?_, fun hnone => ?_⟩
  · have hall : ∀ n ∈ k.outline.natives, k.name = c.name ∧ n.name = d.name := fun n hn =>
      Classical.not_not.1 fun hkept => List.not_mem_nil (hnone ▸ mem_dropped_iff.2 ⟨hn, hkept⟩)
    refine Classical.byContradiction fun hne => ?_
    obtain ⟨n, hn⟩ := List.exists_mem_of_ne_nil _ hne
    obtain rfl := List.inj_on_of_nodup_map hd hk h.declared (hall n hn).1
    refine h.others ((List.filter_eq_self.2 fun n hn => ?_).symm.trans h.alone)
    exact beq_iff_eq.2 (hall n hn).2
  · refine List.eq_nil_iff_forall_not_mem.2 fun n hn => ?_
    have hmem := (mem_dropped_iff.1 hn).1
    rw [hnone] at hmem
    cases hmem

/-- A method that is left out leaves its mark. -/
theorem Skipped.left (h : Skipped store files c d) :
    ∃ t, readMethod store (scopeOf store (indexOf (classesOf files))) (heard c) d = .ok (.left t) := by
  obtain ⟨inline, hinline, hmarked⟩ := h.marked
  have hidentity : identityOf (scopeOf store (indexOf (classesOf files))) c.name d =
      identityOf (declaredScope files) c.name d := by
    refine identityOf_eq (fun name => ?_) rfl rfl
    rw [scopeOf, indexOf, declaredScope, List.map_map]
    rfl
  rw [← hidentity] at hmarked
  refine ⟨⟨identityOf (scopeOf store (indexOf (classesOf files))) c.name d, ⟨c.path, d.line⟩⟩, ?_⟩
  unfold readMethod
  change (directivesOf c.path d.doc >>= _) = _
  rw [hinline]
  exact if_pos hmarked

/-! ## 2. Scopes -/

/-- Two scopes give names the same meaning. -/
structure SameScope (s s' : Scope) : Prop where
  structs : ∀ name, s.structClassNames.contains name = s'.structClassNames.contains name
  qualified : s.qualified = s'.qualified

theorem SameScope.resolve {s s' : Scope} (h : SameScope s s') : s.resolve = s'.resolve := by
  funext text
  rw [Scope.resolve, Scope.resolve, typeNamed, typeNamed, h.qualified]
  simp only [h.structs]

/-- A class is a struct class without a method, if it is one anyway where that method takes it. -/
theorem Skipped.isStruct_dropped_iff (h : Skipped store files c d) (hd : ((classesOf files).map (·.name)).Nodup)
    {x : DeclaredClass}
    (htaken : Takes d x → IsStruct store (classesOf (dropNative c.name d.name files)) x) :
    IsStruct store (classesOf (dropNative c.name d.name files)) (dropped c.name d.name x) ↔
      IsStruct store (classesOf files) x := by
  rw [classesOf_dropNative] at htaken ⊢
  constructor
  · intro hstruct
    cases hstruct with
    | tagged ht => exact .tagged ht
    | stored hm => exact .stored hm
    | taken hk hn ht =>
      obtain ⟨k, hk', rfl⟩ := List.mem_map.1 hk
      exact .taken hk' (mem_dropped_iff.1 hn).1 ht
  · intro hstruct
    cases hstruct with
    | tagged ht => exact .tagged ht
    | stored hm => exact .stored hm
    | @taken k n hk hn ht =>
      by_cases hdropped : k.name = c.name ∧ n.name = d.name
      · obtain rfl := List.inj_on_of_nodup_map hd hk h.declared hdropped.1
        rw [h.eq_of_name hn hdropped.2] at ht
        cases htaken ht with
        | tagged ht => exact .tagged ht
        | stored hm => exact .stored hm
        | taken hk hn ht => exact .taken hk hn ht
      · exact .taken (List.mem_map_of_mem hk) (mem_dropped_iff.2 ⟨hn, hdropped⟩) ht

/-- **Without a native method names mean the same**, if the classes that it takes are structs anyway. -/
theorem Skipped.sameScope (h : Skipped store files c d) (hd : ((classesOf files).map (·.name)).Nodup)
    (htaken : ∀ x ∈ classesOf files, Takes d x →
      IsStruct store (classesOf (dropNative c.name d.name files)) x) :
    SameScope (scopeOf store (indexOf (classesOf (dropNative c.name d.name files))))
      (scopeOf store (indexOf (classesOf files))) := by
  have hd' := nodup_dropNative hd c.name d.name
  have hmem : ∀ x ∈ classesOf files,
      dropped c.name d.name x ∈ classesOf (dropNative c.name d.name files) := by
    intro x hx
    rw [classesOf_dropNative]
    exact List.mem_map_of_mem hx
  have hsame : ∀ x ∈ classesOf files,
      x.name ∈ (scopeOf store (indexOf (classesOf (dropNative c.name d.name files)))).structClassNames ↔
        x.name ∈ (scopeOf store (indexOf (classesOf files))).structClassNames := fun x hx =>
    (mem_structClassNames_iff hd' (hmem x hx)).trans
      ((h.isStruct_dropped_iff hd (htaken x hx)).trans (mem_structClassNames_iff hd hx).symm)
  refine ⟨fun name => ?_, ?_⟩
  · rw [Bool.eq_iff_iff, List.contains_iff_mem, List.contains_iff_mem]
    refine ⟨fun hname => ?_, fun hname => ?_⟩
    · obtain ⟨y, hy, rfl⟩ := exists_of_structClass hname
      rw [classesOf_dropNative] at hy
      obtain ⟨x, hx, rfl⟩ := List.mem_map.1 hy
      exact (hsame x hx).1 hname
    · obtain ⟨x, hx, rfl⟩ := exists_of_structClass hname
      exact (hsame x hx).2 hname
  · rw [classesOf_dropNative, scopeOf, scopeOf, indexOf, indexOf, List.map_map, List.map_map, List.map_map]
    rfl

end

/-! ## 3. Units -/

/-- A unit without the marks of what was left out. -/
def unmarked (u : ClassUnit) : ClassUnit := { u with tombstones := [] }

section

variable {store : Store} {scope scope' : Scope} {e : DeclaredClass} {cls name : String}

/-- What becomes of a native method depends on what names mean, and on how many methods share its name. -/
theorem readMethod_congr (hs : SameScope scope scope') {k : DeclaredClass} {n : NativeDecl}
    (hname : k.name = e.name) (hpath : k.path = e.path)
    (hcount : k.outline.natives.filter (·.name == n.name) = e.outline.natives.filter (·.name == n.name)) :
    readMethod store scope k n = readMethod store scope' e n := by
  have hidentity : identityOf scope = identityOf scope' := by
    funext className d
    rw [identityOf, identityOf, hs.resolve]
  have hparam : ∀ path inline record,
      readParam path inline record scope = readParam path inline record scope' := by
    intro path inline record
    funext p i
    rw [readParam, readParam, hs.resolve]
  unfold readMethod
  rw [hname, hpath, hcount, hidentity, hs.resolve]
  simp only [hparam]

theorem readStructClass_congr (hs : SameScope scope scope') :
    readStructClass store scope e = readStructClass store scope' e := by
  have hfield : readField store scope e = readField store scope' e := by
    funext f
    rw [readField, readField, hs.resolve]
  rw [readStructClass, readStructClass, hfield]

/-- A unit without its marks: the marks do not show what else is in it. -/
theorem map_unmarked_unitOf : (unitOf store scope e).map (Option.map unmarked) =
    if e.outline.natives.isEmpty && !scope.structClassNames.contains e.name then .ok none
    else (do
      let natives ← (e.outline.natives.mapM (readMethod store scope e)).map nativesAmong
      let structs ← if scope.structClassNames.contains e.name then
        (readStructClass store scope e).map fun s => [s] else pure []
      .ok (some { path := e.path, className := e.name, package := e.package, natives, structs })) := by
  unfold unitOf
  dsimp only
  split
  · rfl
  cases e.outline.natives.mapM (readMethod store scope e) with
  | error f => rfl
  | ok ds =>
    split
    · cases readStructClass store scope e <;> rfl
    · rfl

/-- **The unit of a class is the same without methods that are left out**, but for their marks. -/
theorem unitOf_dropped (hs : SameScope scope scope')
    (hleft : ∀ n ∈ e.outline.natives, e.name = cls ∧ n.name = name →
      ∃ t, readMethod store scope' e n = .ok (.left t))
    (hempty : (dropped cls name e).outline.natives.isEmpty = e.outline.natives.isEmpty) :
    (unitOf store scope (dropped cls name e)).map (Option.map unmarked) =
      (unitOf store scope' e).map (Option.map unmarked) := by
  have hnatives : ((dropped cls name e).outline.natives.mapM (readMethod store scope (dropped cls name e))).map
      nativesAmong = (e.outline.natives.mapM (readMethod store scope' e)).map nativesAmong := by
    have hkept : ∀ n ∈ (dropped cls name e).outline.natives,
        readMethod store scope (dropped cls name e) n = readMethod store scope' e n := fun n hn =>
      readMethod_congr hs rfl rfl (homonyms_dropped hn)
    rw [mapM_congr hkept]
    refine filterMap_mapM_filter fun n hn hdropped => ?_
    rw [Bool.not_eq_false', Bool.and_eq_true, beq_iff_eq, beq_iff_eq] at hdropped
    obtain ⟨t, ht⟩ := hleft n hn hdropped
    exact ⟨_, ht, rfl⟩
  have hstruct : scope.structClassNames.contains (dropped cls name e).name =
      scope'.structClassNames.contains e.name := hs.structs _
  have hfields : readStructClass store scope (dropped cls name e) = readStructClass store scope' e :=
    readStructClass_congr (e := e) hs
  rw [map_unmarked_unitOf, map_unmarked_unitOf, hempty, hstruct, hnatives, hfields]
  rfl

end

/-! ## 4. Models -/

/-- A model without the marks of what was left out. -/
def unmarkedModel (m : Model) : Model := ⟨m.units.map unmarked⟩

theorem map_unmarkedModel (units : Except Fault (List (Option ClassUnit))) :
    (do pure (⟨(← units).filterMap id⟩ : Model)).map unmarkedModel =
      (units.map (List.map (Option.map unmarked))).map fun us => ⟨us.filterMap id⟩ := by
  cases units with
  | error f => rfl
  | ok us =>
    refine congrArg (fun us => Except.ok (Model.mk us)) ?_
    rw [List.map_filterMap, List.filterMap_map]
    rfl

/-- **Without a native method that is left out the model is the same**, or fails for the same reason, but for
the mark: if the classes that the method takes by value are structs anyway. -/
theorem modelOf_dropNative {store : Store} {files : List OutlinedFile} {c : DeclaredClass} {d : NativeDecl}
    (hd : ((classesOf files).map (·.name)).Nodup) (hskipped : Skipped store files c d)
    (htaken : ∀ x ∈ classesOf files, Takes d x →
      IsStruct store (classesOf (dropNative c.name d.name files)) x) :
    (modelOf store (dropNative c.name d.name files)).map unmarkedModel =
      (modelOf store files).map unmarkedModel := by
  have hscope := hskipped.sameScope hd htaken
  rw [modelOf_of_nodup store (nodup_dropNative hd c.name d.name), modelOf_of_nodup store hd]
  generalize scopeOf store (indexOf (classesOf (dropNative c.name d.name files))) = scope' at hscope ⊢
  rw [classesOf_dropNative, List.mapM_map, List.mapM_map]
  have hunits : ((classesOf files).mapM fun k => unitOf store scope' (dropped c.name d.name (heard k))).map
        (List.map (Option.map unmarked)) =
      ((classesOf files).mapM fun k =>
        unitOf store (scopeOf store (indexOf (classesOf files))) (heard k)).map
          (List.map (Option.map unmarked)) := by
    rw [map_mapM, map_mapM]
    refine mapM_congr fun k hk => ?_
    have hempty : (dropped c.name d.name (heard k)).outline.natives.isEmpty =
        (heard k).outline.natives.isEmpty := hskipped.isEmpty_dropped hd (k := k) hk
    refine unitOf_dropped hscope (fun n hn hname => ?_) hempty
    obtain rfl := List.inj_on_of_nodup_map hd hk hskipped.declared hname.1
    rw [hskipped.eq_of_name hn hname.2]
    exact hskipped.left
  show ((classesOf files).mapM (fun k => directivesOf k.path k.outline.doc) >>= _).map _ = _
  cases (classesOf files).mapM fun k => directivesOf k.path k.outline.doc with
  | error f => rfl
  | ok directives =>
    exact (map_unmarkedModel _).trans ((congrArg _ hunits).trans (map_unmarkedModel _).symm)

end NativeGlue.Source
