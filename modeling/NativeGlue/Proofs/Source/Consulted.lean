import NativeGlue.Proofs.Sorting
import NativeGlue.Proofs.Source.Independence

/-!
# What is asked of the store

While a model is built, the store is asked about one declaration after the other. `askModel` builds the model and
writes down every identity that it asks about. It builds what `modelOf` builds, and what it asks about are the
identities that the model has in the end, each as often as it has it (`asks_modelOf`). So the keys that are left
unmatched are those that were never asked for, in order (`unmatchedKeys_of_modelOf`).
-/

namespace NativeGlue.Source

open NativeGlue.Java NativeGlue.Directive NativeGlue.Overlay

/-! ## 1. Building with a record of what is asked -/

/-- A part of the building of a model that writes down the identities that it asks the store about. -/
abbrev Asking := StateT (List Identity) (Except Fault)

/-- Asks the store about a declaration. -/
def ask (store : Store) (i : Identity) : Asking (Option Record) := do
  modify (· ++ [i])
  pure (store.lookup i)

/-- What a native method becomes, from its doc comment and what the store says about it. -/
def methodWith (scope : Scope) (e : DeclaredClass) (n : NativeDecl) (inline : DocOptions)
    (record : Option Record) : Except Fault Declared := do
  let identity := identityOf scope e.name n
  let position : Position := ⟨e.path, n.line⟩
  let asked := inline.method.getD {}
  let stored := (record.map (·.method)).getD {}
  let flags := asked.flags ∪ stored.flags
  if flags.noGen then pure (.left ⟨identity, position⟩)
  else
    for (name, _) in inline.params do
      if !n.parameters.any (·.name == name) then
        throw (faultAt e.path ((n.doc.map (·.line)).getD 0) (.unknownParameter name))
    let ps ← n.parameters.zipIdx.mapM fun (p, i) => readParam e.path inline record scope p i
    let linked ← (ps.zip n.parameters).mapM fun (p, d) =>
      linkLength e.path inline record ps p d.line
    pure (.native
      { identity, parameters := linked, returnType := scope.resolve n.returnType, flags
        accessor := (asked.accessor <|> stored.accessor).getD (usualNativeName n.name)
        position, cast := asked.cast <|> stored.cast
        fragments := (record.map (·.fragments)).getD {}
        overloaded := decide (1 < (e.outline.natives.filter (·.name == n.name)).length) })

theorem readMethod_eq (store : Store) (scope : Scope) (e : DeclaredClass) (n : NativeDecl) :
    readMethod store scope e n = (do
      let inline ← directivesOf e.path n.doc
      let record ← .ok (store.lookup (identityOf scope e.name n))
      methodWith scope e n inline record) := rfl

/-- `readMethod`, with what it asks. -/
def askMethod (store : Store) (scope : Scope) (e : DeclaredClass) (n : NativeDecl) : Asking Declared := do
  let inline ← directivesOf e.path n.doc
  let record ← ask store (identityOf scope e.name n)
  methodWith scope e n inline record

/-- A field of a struct class, from its doc comment and what the store says about it. -/
def fieldWith (scope : Scope) (e : DeclaredClass) (f : InstanceField) (inline : DocOptions)
    (record : Option Record) : StructMember :=
  let asked := inline.field.getD {}
  let stored := (record.map (·.field)).getD {}
  let cast := asked.cast <|> stored.cast
  { identity := { enclosing := e.name, name := f.name, kind := .field }
    type := asPointer (scope.resolve f.type) false cast
    accessor := (asked.accessor <|> stored.accessor).getD f.name
    position := ⟨e.path, f.line⟩, cast
    platforms := if asked.platforms.isEmpty then stored.platforms else asked.platforms
    offset := asked.offset <|> stored.offset
    flags := asked.flags ∪ stored.flags }

theorem readField_eq (store : Store) (scope : Scope) (e : DeclaredClass) (f : InstanceField) :
    readField store scope e f = (do
      let inline ← directivesOf e.path f.doc
      let record ← .ok (store.lookup { enclosing := e.name, name := f.name, kind := .field })
      pure (fieldWith scope e f inline record)) := rfl

/-- `readField`, with what it asks. -/
def askField (store : Store) (scope : Scope) (e : DeclaredClass) (f : InstanceField) : Asking StructMember := do
  let inline ← directivesOf e.path f.doc
  let record ← ask store { enclosing := e.name, name := f.name, kind := .field }
  pure (fieldWith scope e f inline record)

/-- A struct class, from its doc comment, what the store says about it, and its fields. -/
def structClassWith (e : DeclaredClass) (record : Option Record) (fields : List StructMember) : StructClass :=
  let asked := e.directives.struct.getD {}
  let stored := (record.map (·.struct)).getD {}
  { identity := { enclosing := e.name, name := "", kind := .struct }
    qualified := e.qualified, fields
    nativeName := (asked.accessor <|> stored.accessor).getD e.name
    position := ⟨e.path, e.outline.line⟩, flags := asked.flags ∪ stored.flags }

theorem readStructClass_eq (store : Store) (scope : Scope) (e : DeclaredClass) :
    readStructClass store scope e = (do
      let record ← .ok (store.lookup { enclosing := e.name, name := "", kind := .struct })
      let fields ← e.outline.fields.mapM (readField store scope e)
      pure (structClassWith e record fields)) := rfl

/-- `readStructClass`, with what it asks. -/
def askStructClass (store : Store) (scope : Scope) (e : DeclaredClass) : Asking StructClass := do
  let record ← ask store { enclosing := e.name, name := "", kind := .struct }
  let fields ← e.outline.fields.mapM (askField store scope e)
  pure (structClassWith e record fields)

/-- `unitOf`, with what it asks. -/
def askUnit (store : Store) (scope : Scope) (e : DeclaredClass) : Asking (Option ClassUnit) := do
  let isStruct := scope.structClassNames.contains e.name
  if e.outline.natives.isEmpty && !isStruct then pure none
  else
    let ds ← e.outline.natives.mapM (askMethod store scope e)
    let structs ← if isStruct then (askStructClass store scope e).map fun s => [s] else pure []
    pure (some { path := e.path, className := e.name, package := e.package
                 natives := nativesAmong ds, structs, tombstones := leftAmong ds })

/-- `modelOf`, with what it asks. -/
def askModel (store : Store) (files : List OutlinedFile) : Asking Model := do
  let classes := classesOf files
  let known ← classesByName store classes
  let units ← (chosenClasses known classes).mapM (askUnit store (scopeOf store known))
  pure ⟨units.filterMap id⟩

/-! ## 2. What a part asks -/

/-- A part does what another one does that writes nothing down, and asks about the identities of its result, in some
order. -/
structure Asks {α : Type} (x : Asking α) (y : Except Fault α) (ids : α → List Identity) : Prop where
  ok : ∀ a, y = .ok a → ∀ log, ∃ asked, x.run log = .ok (a, log ++ asked) ∧ asked.Perm (ids a)
  error : ∀ f, y = .error f → ∀ log, x.run log = .error f

namespace Asks

variable {α β : Type} {x : Asking α} {y : Except Fault α} {ids : α → List Identity}

/-- What asks nothing. -/
protected theorem lift (y : Except Fault α) : Asks (liftM y) y fun _ => [] := by
  constructor
  · rintro a rfl log
    exact ⟨[], by rw [List.append_nil]; rfl, .refl _⟩
  · rintro f rfl log
    rfl

protected theorem pure (a : α) (h : ids a = []) : Asks (pure a) (.ok a) ids := by
  constructor
  · intro b hb log
    obtain rfl := Except.ok.inj hb
    exact ⟨[], by rw [List.append_nil]; rfl, by rw [h]⟩
  · intro f hf
    cases hf

/-- One question. -/
protected theorem ask (store : Store) (i : Identity) :
    Asks (ask store i) (.ok (store.lookup i)) fun _ => [i] := by
  constructor
  · intro r hr log
    obtain rfl := Except.ok.inj hr
    exact ⟨[i], rfl, .refl _⟩
  · intro f hf
    cases hf

/-- A part and what follows it ask what both of them ask. -/
protected theorem bind {g : α → Asking β} {f : α → Except Fault β} {all : β → List Identity} (hx : Asks x y ids)
    (more : α → β → List Identity) (hg : ∀ a, y = .ok a → Asks (g a) (f a) (more a))
    (hall : ∀ a b, y = .ok a → f a = .ok b → (ids a ++ more a b).Perm (all b)) : Asks (x >>= g) (y >>= f) all := by
  constructor
  · intro b hb log
    obtain ⟨a, ha, hb⟩ := ok_of_bind hb
    obtain ⟨asked, hrun, hasked⟩ := hx.ok a ha log
    obtain ⟨asked', hrun', hasked'⟩ := (hg a ha).ok b hb (log ++ asked)
    refine ⟨asked ++ asked', ?_, (hasked.append hasked').trans (hall a b ha hb)⟩
    rw [StateT.run_bind, hrun, ← List.append_assoc]
    exact hrun'
  · intro e he log
    rcases error_of_bind he with he | ⟨a, ha, he⟩
    · rw [StateT.run_bind, hx.error e he log]
      rfl
    · obtain ⟨asked, hrun, -⟩ := hx.ok a ha log
      rw [StateT.run_bind, hrun]
      exact (hg a ha).error e he _

/-- What follows a part and asks nothing. -/
theorem bind_pure {g : α → β} {all : β → List Identity} (hx : Asks x y ids)
    (hall : ∀ a, y = .ok a → (ids a).Perm (all (g a))) :
    Asks (x >>= fun a => pure (g a)) (y >>= fun a => .ok (g a)) all :=
  hx.bind (fun _ _ => []) (fun a _ => Asks.pure (g a) rfl) fun a b ha hb => by
    rw [List.append_nil, ← Except.ok.inj hb]
    exact hall a ha

protected theorem map {g : α → β} {all : β → List Identity} (hx : Asks x y ids)
    (hall : ∀ a, y = .ok a → (ids a).Perm (all (g a))) : Asks (StateT.map g x) (y.map g) all :=
  hx.bind_pure hall

/-- Items one after the other ask what each of them asks. -/
protected theorem mapM {ids : β → List Identity} {g : α → Asking β} {f : α → Except Fault β}
    (h : ∀ a, Asks (g a) (f a) ids) (l : List α) : Asks (l.mapM g) (l.mapM f) fun bs => bs.flatMap ids := by
  induction l with
  | nil => exact Asks.pure [] rfl
  | cons a r ih =>
    rw [List.mapM_cons, List.mapM_cons]
    refine (h a).bind (fun b bs => bs.tail.flatMap ids) (fun b _ => ?_) ?_
    · exact ih.bind_pure fun bs _ => .refl _
    · intro b bs _ hbs
      obtain ⟨bs', -, hbs⟩ := ok_of_bind hbs
      obtain rfl := Except.ok.inj hbs
      exact .refl _

end Asks

/-! ## 3. What the building of a model asks -/

theorem identity_of_methodWith {scope : Scope} {e : DeclaredClass} {n : NativeDecl} {inline : DocOptions}
    {record : Option Record} {d : Declared} (h : methodWith scope e n inline record = .ok d) :
    d.identity = identityOf scope e.name n := by
  unfold methodWith at h
  dsimp only at h
  split at h
  · obtain rfl := Except.ok.inj h
    rfl
  · obtain ⟨_, -, h⟩ := ok_of_bind h
    obtain ⟨_, -, h⟩ := ok_of_bind h
    obtain ⟨_, -, h⟩ := ok_of_bind h
    obtain rfl := Except.ok.inj h
    rfl

section

variable (store : Store) (scope : Scope) (e : DeclaredClass)

/-- A native method asks about itself, also if it is left out. -/
theorem asks_readMethod (n : NativeDecl) :
    Asks (askMethod store scope e n) (readMethod store scope e n) fun d => [d.identity] := by
  rw [readMethod_eq, askMethod]
  refine (Asks.lift _).bind (fun _ d => [d.identity]) (fun inline _ => ?_) fun _ _ _ _ => .refl _
  refine (Asks.ask store _).bind (fun _ _ => []) (fun record _ => Asks.lift _) fun _ d hrecord hd => ?_
  obtain rfl := Except.ok.inj hrecord
  rw [identity_of_methodWith hd]
  exact .refl _

theorem asks_readField (f : InstanceField) :
    Asks (askField store scope e f) (readField store scope e f) fun m => [m.identity] := by
  rw [readField_eq, askField]
  refine (Asks.lift _).bind (fun _ m => [m.identity]) (fun inline _ => ?_) fun _ _ _ _ => .refl _
  exact (Asks.ask store _).bind_pure fun _ _ => .refl _

/-- The identities of a struct class and its fields. -/
def structIdentities (s : StructClass) : List Identity := s.identity :: s.fields.map (·.identity)

/-- A struct class asks about itself and about its fields. -/
theorem asks_readStructClass :
    Asks (askStructClass store scope e) (readStructClass store scope e) structIdentities := by
  rw [readStructClass_eq, askStructClass]
  refine (Asks.ask store _).bind (fun _ (s : StructClass) => s.fields.map (·.identity))
    (fun record _ => ?_) ?_
  · refine (Asks.mapM (asks_readField store scope e) _).bind_pure fun fields _ => ?_
    rw [← List.map_eq_flatMap]
    exact .refl _
  · intro record s _ hs
    obtain ⟨fields, -, hs⟩ := ok_of_bind hs
    obtain rfl := Except.ok.inj hs
    exact .refl _

end

/-- Declared methods are native methods of the model or left out. -/
theorem perm_identities (ds : List Declared) :
    (ds.map Declared.identity).Perm
      ((nativesAmong ds).map (·.identity) ++ (leftAmong ds).map (·.identity)) := by
  induction ds with
  | nil => exact .refl _
  | cons d r ih =>
    cases d with
    | native m => exact ih.cons _
    | left t => exact (ih.cons _).trans List.perm_middle.symm

/-- A class asks about the identities of its unit. -/
theorem asks_unitOf (store : Store) (scope : Scope) (e : DeclaredClass) :
    Asks (askUnit store scope e) (unitOf store scope e) fun u => u.toList.flatMap Model.identitiesOf := by
  unfold askUnit unitOf
  dsimp only
  split
  · exact Asks.pure none rfl
  refine (Asks.mapM (asks_readMethod store scope e) _).bind
    (fun _ u => u.toList.flatMap fun u => u.structs.flatMap structIdentities) (fun ds _ => ?_) ?_
  · split
    · have hstruct : Asks ((askStructClass store scope e).map fun s => [s])
          ((readStructClass store scope e).map fun s => [s]) (·.flatMap structIdentities) :=
        (asks_readStructClass store scope e).map fun s _ => by rw [List.flatMap_singleton]
      refine hstruct.bind_pure fun structs _ => ?_
      rw [Option.toList_some, List.flatMap_singleton]
    · have hnone : Asks (pure []) (.ok []) fun (_ : List StructClass) => [] := Asks.pure [] rfl
      refine hnone.bind_pure fun structs hempty => ?_
      rw [← Except.ok.inj hempty]
      rfl
  · intro ds u _ hu
    have hunit : ∃ structs, u = some { path := e.path, className := e.name, package := e.package,
                                       natives := nativesAmong ds, structs, tombstones := leftAmong ds } := by
      split at hu
      all_goals
        obtain ⟨structs, -, hu⟩ := ok_of_bind hu
        exact ⟨structs, (Except.ok.inj hu).symm⟩
    obtain ⟨structs, rfl⟩ := hunit
    rw [← List.map_eq_flatMap, Option.toList_some, List.flatMap_singleton, List.flatMap_singleton]
    refine ((perm_identities ds).append_right _).trans ?_
    rw [Model.identitiesOf, List.append_assoc, List.append_assoc]
    exact List.perm_append_comm.append_left _

/-- **The building of a model asks about the identities that the model has**, each as often as the model has it. -/
theorem asks_modelOf (store : Store) (files : List OutlinedFile) :
    Asks (askModel store files) (modelOf store files) Model.identities := by
  unfold askModel modelOf
  dsimp only
  refine (Asks.lift _).bind (fun _ m => m.identities) (fun known _ => ?_) fun _ _ _ _ => .refl _
  refine (Asks.mapM (asks_unitOf store _) _).bind_pure fun units _ => ?_
  rw [Model.identities, List.filterMap_eq_flatMap_toList, List.flatMap_assoc]
  exact .refl _

/-! ## 4. What is left unmatched -/

/-- What the store says about a declaration depends on two of its keys. -/
theorem lookup_congr {store other : Store} {i : Identity} (hkey : other.get? i.key = store.get? i.key)
    (hbase : other.get? i.baseKey = store.get? i.baseKey) : other.lookup i = store.lookup i := by
  rw [Store.lookup, Store.lookup, hkey, hbase]

/-- **The keys that are left unmatched** when a model was built are in order, and they are the keys of the store that
are neither the key nor the bare key of a declaration that the store was asked about. So no record that was found
is among them, and whatever the store has under them it answers the same. -/
theorem unmatchedKeys_of_modelOf {store : Store} {files : List OutlinedFile} {m : Model}
    (h : modelOf store files = .ok m) :
    ∃ asked, (askModel store files).run [] = .ok (m, asked) ∧ asked.Perm m.identities ∧
      (store.unmatchedKeys m.identities).Pairwise (· ≤ ·) ∧
      (store.unmatchedKeys m.identities).Perm
        ((store.records.map (·.1)).filter fun k => asked.all fun i => k ≠ i.key ∧ k ≠ i.baseKey) ∧
      ∀ i ∈ asked, i.key ∉ store.unmatchedKeys m.identities ∧ i.baseKey ∉ store.unmatchedKeys m.identities ∧
        ∀ other : Store, (∀ k ∉ store.unmatchedKeys m.identities, other.get? k = store.get? k) →
          other.lookup i = store.lookup i := by
  obtain ⟨asked, hrun, hasked⟩ := (asks_modelOf store files).ok m h []
  have hmem : ∀ i ∈ asked, ∀ k, k = i.key ∨ k = i.baseKey → k ∉ store.unmatchedKeys m.identities := by
    intro i hi k hk hstale
    have hnone := (List.mem_filter.1 hstale).2
    have hany : m.identities.any (fun i => i.key == k || i.baseKey == k) = true :=
      List.any_eq_true.2 ⟨i, hasked.subset hi, by rcases hk with rfl | rfl <;> simp⟩
    rw [hany] at hnone
    cases hnone
  refine ⟨asked, hrun, hasked, ?_, ?_, fun i hi => ⟨hmem i hi _ (.inl rfl), hmem i hi _ (.inr rfl), ?_⟩⟩
  · have hsorted := List.pairwise_mergeSort string_le_trans string_le_total (store.records.map (·.1))
    exact (hsorted.sublist List.filter_sublist).imp of_decide_eq_true
  · refine ((List.mergeSort_perm _ _).filter _).trans (.of_eq (List.filter_congr fun k _ => ?_))
    rw [← hasked.any_eq, List.not_any_eq_all_not]
    refine List.all_congr rfl fun i => ?_
    grind
  · intro other hother
    exact lookup_congr (hother _ (hmem i hi _ (.inl rfl))) (hother _ (hmem i hi _ (.inr rfl)))

/-- A class with two native methods, and one that a native method takes. -/
def consultedFiles : List OutlinedFile :=
  [ { path := ⟨.here, ["OS.java"]⟩
      outline :=
        { package := ""
          classes :=
            [ { name := "OS", line := 1, fields := []
                natives := [ ⟨"read", [⟨"n", "int", 2⟩], "void", ["native"], 2, none⟩,
                             ⟨"move", [⟨"p", "Point", 3⟩], "int", ["native"], 3, none⟩ ] },
              { name := "Point", line := 5, fields := [⟨"x", "int", 6, none⟩], natives := [] } ] } } ]

/-- A store that leaves out a method, speaks about a field, and about a method and a field that do not exist. -/
def consultedStore : Store :=
  .ofRecords [ { key := "OS.read(I)", kind := .method, method.flags.noGen := true },
               { key := "Point#y", kind := .field }, { key := "Point#x", kind := .field },
               { key := "OS.gone", kind := .method } ]

theorem unmatchedKeys_consultedStore :
    ∃ m asked, modelOf consultedStore consultedFiles = .ok m ∧
      (askModel consultedStore consultedFiles).run [] = .ok (m, asked) ∧
      asked.map (fun i => (i.enclosing, i.name)) = [("OS", "read"), ("OS", "move"), ("Point", ""), ("Point", "x")] ∧
      (consultedStore.unmatchedKeys m.identities).Perm ["Point#y", "OS.gone"] := by
  have hbuilt : ∃ m ∈ (modelOf consultedStore consultedFiles).toOption,
      ∃ asked ∈ ((askModel consultedStore consultedFiles).run []).toOption.map (·.2),
        asked.map (fun i => (i.enclosing, i.name)) = [("OS", "read"), ("OS", "move"), ("Point", ""), ("Point", "x")] ∧
        ((consultedStore.records.map (·.1)).filter fun k => asked.all fun i => k ≠ i.key ∧ k ≠ i.baseKey) =
          ["Point#y", "OS.gone"] := by
    decide +kernel
  obtain ⟨m, hm, asked, hasked, hnames, hfilter⟩ := hbuilt
  have hm := ok_of_toOption hm
  obtain ⟨asked', hrun, -, -, hperm, -⟩ := unmatchedKeys_of_modelOf hm
  rw [hrun] at hasked
  obtain rfl := Option.some.inj hasked
  exact ⟨m, asked', hm, hrun, hnames, hfilter ▸ hperm⟩

end NativeGlue.Source
