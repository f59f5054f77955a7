import NativeGlue.Config
import NativeGlue.Proofs.Mapping.Layout
import NativeGlue.Proofs.Overlay.Lookup
import NativeGlue.Proofs.Text.Lowering
import NativeGlue.Run.Plan

/-!
# Platforms of fields

The words for platforms are read in lower case, in doc comments (`platforms_of_directivesOf`) and in override
files (`platforms_of_readField`), and the names of the configured platforms as they are. So a field that lists
a platform is there on it exactly if the name of the platform is in lower case (`present_iff_lower`). Such a
field stands under a condition with the symbol of the platform, and no warning is given; for a platform with a
capital all of that fails (`absent_capitalPlatform`).
-/

namespace NativeGlue.Code

open NativeGlue.Data NativeGlue.Directive NativeGlue.Java NativeGlue.Mapping NativeGlue.Overlay
open NativeGlue.Run NativeGlue.Source NativeGlue.Text

/-! ## 1. Words as they are written -/

/-- Words without blanks around them, as they are written; what is empty is no word. -/
def writtenWords (ws : List String) : List String :=
  ws.filterMap fun w => if (trim w).isEmpty then none else some (trim w)

theorem lowerWords_eq (ws : List String) : Value.lowerWords ws = (writtenWords ws).map lower := by
  rw [Value.lowerWords, writtenWords, List.map_filterMap]
  refine congrArg (List.filterMap · ws) (funext fun w => ?_)
  dsimp only
  split <;> rfl

/-- The words of a value as they are written. -/
def writtenWords? (v : Value) : Option (List String) :=
  let ofMembers := fun (xs : List Value) =>
    (xs.mapM Value.written?).map fun ts => writtenWords (ts.flatMap Value.listWords)
  match v.opened with
  | .null => some []
  | .text s => some (writtenWords (Value.listWords s))
  | .list xs => ofMembers xs
  | .tuple xs => ofMembers xs
  | .set xs => ofMembers xs
  | _ => v.written?.map fun t => writtenWords [t]

/-- The words of a value are those that are written, in lower case. -/
theorem words?_eq (v : Value) : v.words? = (writtenWords? v).map (List.map lower) := by
  have hmembers : ∀ xs : List Value,
      ((xs.mapM Value.written?).map fun ts => Value.lowerWords (ts.flatMap Value.listWords)) =
        ((xs.mapM Value.written?).map fun ts => writtenWords (ts.flatMap Value.listWords)).map
          (List.map lower) := by
    intro xs
    simp only [lowerWords_eq, Option.map_map]
    rfl
  unfold Value.words? writtenWords?
  cases v.opened with
  | null => rfl
  | text s => exact congrArg some (lowerWords_eq _)
  | list xs => exact hmembers xs
  | tuple xs => exact hmembers xs
  | set xs => exact hmembers xs
  | _ => simp only [lowerWords_eq, Option.map_map, Function.comp_def]

/-! ## 2. Doc comments -/

/-- The pairs of a field tag, if it gives any. -/
def fieldPairs? (t : Tag) : Option (List (String × String)) :=
  if t.kind = .field then (readPairs t).toOption.join.map (·.2) else none

/-- The words for platforms in a doc comment, as they are written: of several field tags the last one counts. -/
def listedInline (doc : Option DocComment) : List String :=
  match doc with
  | none => []
  | some d =>
    if startsWith d.text "/**" then
      (((((tagsOfComment d.text d.line).filterMap fieldPairs?).getLast?).bind (·.lookup "platform")).map
        fun s => writtenWords (Value.listWords s)).getD []
    else []

theorem platforms_of_readPairs {ps : List (String × String)} {o : FieldOptions}
    (h : Directive.readField ps = .ok o) : o.platforms = Directive.wordsOf ps "platform" := by
  unfold Directive.readField at h
  split at h
  · obtain ⟨_, -, h⟩ := ok_of_bind h
    obtain ⟨_, -, h⟩ := ok_of_bind h
    obtain rfl := Except.ok.inj h
    rfl
  · split at h
    · cases h
    · obtain ⟨_, -, h⟩ := ok_of_bind h
      obtain ⟨_, -, h⟩ := ok_of_bind h
      obtain rfl := Except.ok.inj h
      rfl

/-- What a tag says about platforms goes in place of what was said before. -/
theorem platforms_of_applyTag {d d' : DocOptions} {t : Tag} (h : applyTag d t = .ok d') :
    d'.field.map (·.platforms) =
      ((fieldPairs? t).map (Directive.wordsOf · "platform")).or (d.field.map (·.platforms)) := by
  obtain ⟨found, hfound, h⟩ := ok_of_bind h
  rw [fieldPairs?, hfound]
  cases found with
  | none =>
    obtain rfl := Except.ok.inj h
    split <;> rfl
  | some x =>
    obtain ⟨subject, ps⟩ := x
    dsimp only at h
    split at h
    · rename_i hkind
      obtain ⟨_, -, h⟩ := ok_of_bind h
      obtain rfl := Except.ok.inj h
      rw [hkind]
      rfl
    · rename_i hkind
      obtain ⟨_, -, h⟩ := ok_of_bind h
      obtain rfl := Except.ok.inj h
      rw [hkind]
      rfl
    · rename_i hkind
      obtain ⟨field, hfield, h⟩ := ok_of_bind h
      obtain rfl := Except.ok.inj h
      rw [hkind, Option.map_some, platforms_of_readPairs hfield]
      rfl
    · rename_i hkind
      obtain ⟨_, -, h⟩ := ok_of_bind h
      obtain rfl := Except.ok.inj h
      rw [hkind]
      rfl

theorem platforms_of_applyTags {d d' : DocOptions} {ts : List Tag} (h : applyTags d ts = .ok d') :
    d'.field.map (·.platforms) =
      ((ts.filterMap fieldPairs?).getLast?.map (Directive.wordsOf · "platform")).or
        (d.field.map (·.platforms)) := by
  induction ts generalizing d with
  | nil =>
    obtain rfl := Except.ok.inj h
    rfl
  | cons t ts ih =>
    obtain ⟨d₁, hd₁, h⟩ := ok_of_bind h
    rw [ih h, platforms_of_applyTag (ok_of_mapError hd₁), List.filterMap_cons]
    cases fieldPairs? t with
    | none => rfl
    | some ps =>
      dsimp only
      rw [List.getLast?_cons]
      cases (ts.filterMap fieldPairs?).getLast? <;> rfl

/-- **What a doc comment says about platforms is what it lists, in lower case.** -/
theorem platforms_of_directivesOf {path : Path} {doc : Option DocComment} {d : DocOptions}
    (h : directivesOf path doc = .ok d) : (d.field.getD {}).platforms = (listedInline doc).map lower := by
  cases doc with
  | none =>
    obtain rfl := Except.ok.inj h
    rfl
  | some c =>
    replace h := ok_of_mapError h
    unfold readComment at h
    rw [listedInline]
    dsimp only at h ⊢
    split at h
    · rename_i hstart
      obtain rfl := Except.ok.inj h
      rw [if_neg (by simpa using hstart)]
      rfl
    · rename_i hstart
      rw [if_pos (by simpa using hstart)]
      obtain ⟨d₁, hd₁, h⟩ := ok_of_bind h
      have hfield : d.field = d₁.field := by
        split at h
        · obtain rfl := Except.ok.inj h
          rfl
        · obtain rfl := Except.ok.inj h
          rfl
      have hplatforms := platforms_of_applyTags hd₁
      rw [hfield]
      generalize ((tagsOfComment c.text c.line).filterMap fieldPairs?).getLast? = last at hplatforms ⊢
      cases hd : d₁.field with
      | none =>
        rw [hd] at hplatforms
        cases last with
        | none => rfl
        | some ps => cases hplatforms
      | some o =>
        rw [hd] at hplatforms
        cases last with
        | none => cases hplatforms
        | some ps =>
          have ho : o.platforms = Directive.wordsOf ps "platform" := Option.some.inj hplatforms
          rw [Option.getD_some, ho, Directive.wordsOf, Option.bind_some]
          cases ps.lookup "platform" with
          | none => rfl
          | some s =>
            rw [Option.map_some, Option.map_some, Option.getD_some, Option.getD_some, Value.textWords,
              lowerWords_eq]

/-! ## 3. Override files -/

/-- The words for platforms in an entry about a field, as they are written. -/
def listedInEntry (entry : Value) : List String :=
  match entry.opened with
  | .mapping ps =>
    (writtenWords? ((Value.member? ps "platforms").getD (Value.member ps "platform"))).getD []
  | _ => []

/-- **What an entry says about platforms is what it lists, in lower case.** -/
theorem platforms_of_readField {space name : String} {entry : Value} {r : Record}
    (h : Overlay.readField space name entry = .ok r) :
    r.field.platforms = (listedInEntry entry).map lower := by
  obtain ⟨ps, hps, h⟩ := ok_of_bind h
  obtain ⟨_, -, h⟩ := ok_of_bind h
  obtain ⟨_, -, h⟩ := ok_of_bind h
  obtain ⟨platforms, hplatforms, h⟩ := ok_of_bind h
  iterate 4 obtain ⟨_, -, h⟩ := ok_of_bind h
  obtain rfl := Except.ok.inj h
  have hwords : writtenWords? ((Value.member? ps "platforms").getD (Value.member ps "platform")) =
      some ((writtenWords? ((Value.member? ps "platforms").getD (Value.member ps "platform"))).getD []) ∧
      platforms = ((writtenWords? ((Value.member? ps "platforms").getD
        (Value.member ps "platform"))).getD []).map lower := by
    unfold Overlay.wordsOf at hplatforms
    rw [words?_eq] at hplatforms
    cases hw : writtenWords? ((Value.member? ps "platforms").getD (Value.member ps "platform")) with
    | none =>
      rw [hw] at hplatforms
      cases hplatforms
    | some ws =>
      rw [hw] at hplatforms
      exact ⟨rfl, (Except.ok.inj hplatforms).symm⟩
  dsimp only
  rw [hwords.2, listedInEntry]
  unfold asPairs at hps
  split at hps
  · rename_i hopened
    obtain rfl := Except.ok.inj hps
    rw [hopened]
    rfl
  · rename_i hopened
    obtain rfl := Except.ok.inj hps
    rw [hopened]
  · cases hps

/-- Whether all platforms of a record are in lower case. -/
def Lowered (r : Record) : Prop := ∀ p ∈ r.field.platforms, lower p = p

theorem lowered_of_map {ws : List String} : ∀ p ∈ ws.map lower, lower p = p := by
  intro p hp
  obtain ⟨w, -, rfl⟩ := List.mem_map.1 hp
  exact lower_lower w

theorem lowered_of_readFrom {entry : Value} {r : Record} (h : ReadFrom entry r) : Lowered r := by
  cases h with
  | method h =>
    iterate 10 obtain ⟨_, -, h⟩ := ok_of_bind h
    obtain rfl := Except.ok.inj h
    exact nofun
  | field h =>
    rw [Lowered, platforms_of_readField h]
    exact lowered_of_map
  | struct h =>
    iterate 5 obtain ⟨_, -, h⟩ := ok_of_bind h
    obtain rfl := Except.ok.inj h
    exact nofun

theorem mem_platforms_merge {b r : Record} (hr : r.replace = false) {p : String} :
    p ∈ (b.merge r).field.platforms ↔ p ∈ b.field.platforms ∨ p ∈ r.field.platforms := by
  rw [Record.merge, if_neg (by simp [hr])]
  exact mem_joinLists

theorem Lowered.merge {b r : Record} (hb : Lowered b) (hr : Lowered r) : Lowered (b.merge r) := by
  intro p hp
  cases hreplace : r.replace with
  | true =>
    rw [Record.merge_of_replace b hreplace] at hp
    exact hr p hp
  | false => exact ((mem_platforms_merge hreplace).1 hp).elim (hb p) (hr p)

/-- What is said about platforms in stored records is in lower case. -/
theorem lowered_of_get? {t : FileTree} {paths : List Path} {found : List (List Record)}
    (hfound : paths.mapM (readFile t) = .ok found) {key : String} {r : Record}
    (hr : (Store.ofRecords found.flatten).get? key = some r) : Lowered r := by
  rw [get?_ofRecords] at hr
  refine keeps_of_joined (P := Lowered) (fun _ _ => Lowered.merge) (fun q hq => ?_) hr
  obtain ⟨entry, x, path, hentry, rfl⟩ := exists_entry_of_mapM hfound (List.mem_of_mem_filter hq)
  exact fun p hp => lowered_of_readFrom hentry p hp

/-- A record counts for a key: no later one replaces it. -/
def Counts (rs : List Record) (key : String) (r : Record) : Prop :=
  ∃ front rest, under key rs = front ++ r :: rest ∧ ∀ q ∈ rest, q.replace = false

/-- **What a record that counts says about platforms is stored.** -/
theorem Counts.platforms {rs : List Record} {key : String} {r : Record} (h : Counts rs key r) :
    ∃ b, (Store.ofRecords rs).get? key = some b ∧ ∀ p ∈ r.field.platforms, p ∈ b.field.platforms := by
  obtain ⟨front, rest, hunder, hrest⟩ := h
  have hfold : ∀ c : Record, ∀ p ∈ c.field.platforms,
      p ∈ (rest.foldl Record.merge c).field.platforms := by
    clear hunder
    induction rest with
    | nil => exact fun c p hp => hp
    | cons q rest ih =>
      intro c p hp
      rw [List.forall_mem_cons] at hrest
      exact ih hrest.2 _ p ((mem_platforms_merge hrest.1).2 (.inl hp))
  rw [get?_ofRecords, hunder]
  cases front with
  | nil => exact ⟨_, rfl, hfold r⟩
  | cons c front =>
    refine ⟨_, congrArg some (List.foldl_append ..), fun p hp => ?_⟩
    rw [List.foldl_cons]
    refine hfold _ p ?_
    cases hreplace : r.replace with
    | true =>
      rw [Record.merge_of_replace _ hreplace]
      exact hp
    | false => exact (mem_platforms_merge hreplace).2 (.inr hp)

/-! ## 4. Fields -/

/-- The directive of a field that counts lists a platform: that in its doc comment, or, if that one lists none,
an entry of the override files. -/
inductive Lists (rs : List Record) (f : InstanceField) (key platform : String) : Prop
  | inline (h : platform ∈ listedInline f.doc)
  | stored {space name : String} {entry : Value} {x : Record} {origin : Option String}
      (hdoc : listedInline f.doc = []) (hread : Overlay.readField space name entry = .ok x)
      (hcounts : Counts rs key { x with origin }) (h : platform ∈ listedInEntry entry)

section

variable {t : FileTree} {paths : List Path} {found : List (List Record)} {scope : Scope}
variable {c : DeclaredClass} {f : InstanceField} {m : StructMember}

/-- A field says about platforms what its doc comment lists, or else what is stored. -/
theorem platforms_eq {store : Store} (hread : Source.readField store scope c f = .ok m) :
    m.platforms = if listedInline f.doc = [] then
        ((store.get? m.identity.key).map (·.field.platforms)).getD []
      else (listedInline f.doc).map lower := by
  obtain ⟨d, hd, hm⟩ := ok_of_bind hread
  obtain rfl := Except.ok.inj hm
  dsimp only
  have hkind : DeclarationKind.field ≠ .method := by decide
  rw [platforms_of_directivesOf hd, lookup_of_ne_method store hkind]
  by_cases hdoc : listedInline f.doc = []
  · rw [hdoc, if_pos rfl]
    cases store.get? (Identity.key { enclosing := c.name, name := f.name, kind := .field }) <;> rfl
  · have hlisted : ((listedInline f.doc).map lower).isEmpty = false := by simpa using hdoc
    rw [if_neg hdoc, hlisted]
    rfl

/-- What a field says about platforms is in lower case. -/
theorem lower_of_mem_platforms (hfound : paths.mapM (readFile t) = .ok found)
    (hread : Source.readField (.ofRecords found.flatten) scope c f = .ok m) :
    ∀ p ∈ m.platforms, lower p = p := by
  intro p hp
  rw [platforms_eq hread] at hp
  split at hp
  · cases hr : (Store.ofRecords found.flatten).get? m.identity.key with
    | none =>
      rw [hr] at hp
      cases hp
    | some r =>
      rw [hr] at hp
      exact lowered_of_get? hfound hr p hp
  · exact lowered_of_map p hp

/-- **What the directive of a field lists is there in lower case.** -/
theorem Lists.mem_platforms {platform : String}
    (hread : Source.readField (.ofRecords found.flatten) scope c f = .ok m)
    (h : Lists found.flatten f m.identity.key platform) : lower platform ∈ m.platforms := by
  rw [platforms_eq hread]
  cases h with
  | inline h =>
    rw [if_neg (List.ne_nil_of_mem h)]
    exact List.mem_map_of_mem h
  | stored hdoc hentry hcounts h =>
    obtain ⟨b, hb, hp⟩ := hcounts.platforms
    rw [if_pos hdoc, hb]
    refine hp _ ?_
    dsimp only
    rw [platforms_of_readField hentry]
    exact List.mem_map_of_mem h

end

/-! ## 5. Conditions -/

/-- The symbol of a configured platform is known in a run, whatever targets it has. -/
theorem lookup_knownDefines {settings : Settings} {key symbol : String}
    (h : settings.defines.lookup key = some symbol) (targets : List Target) :
    (knownDefines settings targets).lookup key = some symbol := by
  unfold knownDefines
  generalize settings.defines = defines at h
  induction targets generalizing defines with
  | nil => exact h
  | cons target targets ih =>
    rw [List.foldl_cons]
    refine ih _ ?_
    split
    · exact h
    · exact lookup_append_of_some h

/-- The symbol under the name of a platform is that of the settings for it. -/
theorem lookup_platformSymbols (c : Config) (name : String) :
    c.platformSymbols.lookup name =
      (c.platforms.find? (·.platform == name)).map fun p => guardSymbol p.platform p.define := by
  unfold Config.platformSymbols
  induction c.platforms with
  | nil => rfl
  | cons p ps ih =>
    rw [List.map_cons, List.find?_cons, List.lookup_cons, ih, Bool.beq_comm]
    cases p.platform == name <;> rfl

theorem target_eq {c : Config} {name : String} {out src : Option Path} {target : Target}
    (h : c.target name out src = .ok target) :
    target.platform = name ∧ ∃ p, c.platforms.find? (·.platform == name) = some p := by
  unfold Config.target at h
  split at h
  · cases h
  · rename_i p hp
    split at h
    · cases h
    · obtain rfl := Except.ok.inj h
      exact ⟨rfl, p, hp⟩

section

variable {c : Config} {name : String} {outputDir sourceRoot : Option Path} {target : Target}
variable {rules : List Rule} {e : Mapper} {settings : Settings}
variable {t : FileTree} {paths : List Path} {found : List (List Record)} {scope : Scope}
variable {declared : DeclaredClass} {f : InstanceField} {m : StructMember}

/-- **A field that lists a configured platform is there on it exactly if the name of the platform is in lower
case.** Then it also stands under a condition with the symbol of the platform, and no warning is given. -/
theorem present_iff_lower (htarget : c.target name outputDir sourceRoot = .ok target)
    (he : Mapper.ofRules target rules = .ok e) (hdefines : settings.defines = c.platformSymbols)
    (targets : List Target) (hfound : paths.mapM (readFile t) = .ok found)
    (hread : Source.readField (.ofRecords found.flatten) scope declared f = .ok m)
    (hlists : Lists found.flatten f m.identity.key name) :
    (∀ s : StructClass, m ∈ s.fields →
      ((∃ l, e.layoutOf s = .ok l) ↔ ∀ g ∈ s.fields, ∃ v, e.fieldMapping g = .ok v) ∧
        ∀ l, e.layoutOf s = .ok l → ((∃ x ∈ l.fields, x.field = m) ↔ lower name = name)) ∧
      (lower name = name →
        (∃ p ∈ c.platforms.find? (·.platform == name), ∃ terms,
          "defined(" ++ guardSymbol name p.define ++ ")" ∈ terms ∧
          ∀ s gs, generatedFields e (knownDefines settings targets) s = .ok gs → ∀ g ∈ gs, g.field = m →
            ∀ b, openCondition b g = b.raw ("#if " ++ " || ".intercalate terms)) ∧
        fieldWarning? (knownDefines settings targets) m = none) := by
  obtain ⟨htarget, p, hp⟩ := target_eq htarget
  have hplatform : e.platform = name := (congrArg Mapper.platform (eq_of_ofRules he)).trans htarget
  have hlisted : lower name ∈ m.platforms := hlists.mem_platforms hread
  have hmem : name ∈ m.platforms ↔ lower name = name := by
    refine ⟨lower_of_mem_platforms hfound hread name, fun h => ?_⟩
    rw [h] at hlisted
    exact hlisted
  have hsome : m.platforms.isEmpty = false := List.isEmpty_eq_false_iff.2 (List.ne_nil_of_mem hlisted)
  refine ⟨fun s hs => ⟨layoutOf_ok_iff, fun l hl => ?_⟩, fun hlower => ?_⟩
  · rw [mem_layoutOf_iff hl hs, presentOn, hsome, hplatform, Bool.false_or, List.contains_iff_mem, hmem]
  have hname : p.platform = name := by
    simpa using List.find?_some hp
  have hlookup : (knownDefines settings targets).lookup name = some (guardSymbol name p.define) := by
    refine lookup_knownDefines ?_ targets
    rw [hdefines, lookup_platformSymbols, hp, Option.map_some, hname]
  refine ⟨⟨p, hp, m.platforms.map fun q =>
    "defined(" ++ platformSymbol (knownDefines settings targets) q ++ ")", ?_, ?_⟩, ?_⟩
  · refine List.mem_map.2 ⟨name, hmem.2 hlower, ?_⟩
    rw [platformSymbol, hlookup, Option.getD_some]
  · intro s gs hgs g hg hgm b
    obtain ⟨f', -, hf'⟩ := exists_of_mem_forall₂ (forall₂_of_mapM hgs) hg
    obtain ⟨v, -, hf'⟩ := ok_of_bind hf'
    obtain rfl := Except.ok.inj hf'
    obtain rfl := hgm
    rw [openCondition, fieldCondition, hsome]
    rfl
  · rw [fieldWarning?, hsome, Bool.false_or, if_pos]
    refine List.any_eq_true.2 ⟨name, hmem.2 hlower, ?_⟩
    rw [hlookup]
    rfl

end

/-- A configuration of one platform. -/
def platformConfig (name : String) : Config :=
  { root := ⟨.root, []⟩
    platforms := [{ platform := name, outputDir := some ⟨.here, ["out"]⟩, define := some "GTK_ON" }] }

/-- Its target. -/
def platformTarget (name : String) : Target :=
  { platform := name, outputDir := ⟨.here, ["out"]⟩, sourceRoot := ⟨.root, []⟩, define := "GTK_ON" }

/-- Settings with the symbols of this configuration. -/
def platformSettings (name : String) : Settings :=
  { defines := (platformConfig name).platformSymbols }

/-- A field whose doc comment lists a platform. -/
def taggedField (platform : String) : InstanceField :=
  { name := "x", type := "int", line := 3, doc := some ⟨"/** @field platform=" ++ platform ++ " */", 2⟩ }

/-- The class of the field. -/
def fieldHolder : DeclaredClass :=
  { place := (0, 0), path := ⟨.here, ["P.java"]⟩, package := ""
    outline := { name := "P", line := 1, natives := [], fields := [] } }

/-- The struct class of a field alone. -/
def structOf (m : StructMember) : StructClass :=
  { identity := { enclosing := "P", name := "", kind := .struct }, qualified := "P", fields := [m]
    nativeName := "P", position := ⟨⟨.here, ["P.java"]⟩, 1⟩ }

theorem present_lowerPlatform :
    ∃ e m, Mapper.ofRules (platformTarget "gtk") standardRules = .ok e ∧
      Source.readField {} ⟨[], []⟩ fieldHolder (taggedField "gtk") = .ok m ∧
      (∃ l, e.layoutOf (structOf m) = .ok l ∧ ∃ x ∈ l.fields, x.field = m) ∧
      fieldWarning? (knownDefines (platformSettings "gtk") []) m = none := by
  have hmade : ∃ e ∈ (Mapper.ofRules (platformTarget "gtk") standardRules).toOption,
      ∃ m ∈ (Source.readField {} ⟨[], []⟩ fieldHolder (taggedField "gtk")).toOption,
        ∃ v ∈ (e.fieldMapping m).toOption, v.cType = "jint" := by
    decide +kernel
  obtain ⟨e, he, m, hm, v, hv, -⟩ := hmade
  have he := ok_of_toOption he
  have hm := ok_of_toOption hm
  have htarget : (platformConfig "gtk").target "gtk" none none = .ok (platformTarget "gtk") := rfl
  have hdefines : (platformSettings "gtk").defines = (platformConfig "gtk").platformSymbols := rfl
  have hfound : ([] : List Path).mapM (readFile default) = .ok [] := rfl
  have hstore : ({} : Store) = .ofRecords ([] : List (List Record)).flatten := rfl
  have hlisted : "gtk" ∈ listedInline (taggedField "gtk").doc := by decide +kernel
  have hlower : lower "gtk" = "gtk" := by decide +kernel
  have hread := hm
  rw [hstore] at hread
  obtain ⟨hlayout, hguard⟩ := present_iff_lower htarget he hdefines [] hfound hread (.inline hlisted)
  obtain ⟨hok, hpresent⟩ := hlayout (structOf m) (List.mem_singleton_self m)
  obtain ⟨l, hl⟩ := hok.2 fun g hg => by
    rw [List.mem_singleton.1 hg]
    exact ⟨v, ok_of_toOption hv⟩
  exact ⟨e, m, he, hm, ⟨l, hl, (hpresent l hl).2 hlower⟩, (hguard hlower).2⟩

/-- **A platform with a capital is not found under its name**: the field is left out of the layout, stands under
a symbol that nobody configured, and is warned about. -/
theorem absent_capitalPlatform :
    (platformConfig "GTK").target "GTK" none none = .ok (platformTarget "GTK") ∧
      "GTK" ∈ listedInline (taggedField "GTK").doc ∧
      ∃ e ∈ (Mapper.ofRules (platformTarget "GTK") standardRules).toOption,
        ∃ m ∈ (Source.readField {} ⟨[], []⟩ fieldHolder (taggedField "GTK")).toOption,
          (∃ l ∈ (e.layoutOf (structOf m)).toOption, l.fields = []) ∧
          fieldCondition (knownDefines (platformSettings "GTK") []) m = some "defined(JNIGEN_GTK)" ∧
          (fieldWarning? (knownDefines (platformSettings "GTK") []) m).isSome = true :=
  ⟨rfl, by decide +kernel, by decide +kernel⟩

end NativeGlue.Code
