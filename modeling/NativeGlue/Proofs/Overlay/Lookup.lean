import NativeGlue.Proofs.Overlay.Joining
import NativeGlue.Proofs.Overlay.Reload
import NativeGlue.Source.Reading

/-!
# What the store says about a method

A store holds, under each key, all records about the key joined in the order of the files
(`get?_ofRecords`), and a method is told what stands under its bare name joined to what stands under its
exact key. That is all records joined one after the other, the exact ones last, exactly if no record in the
middle of the exact ones replaces those before it (`lookup_eq_joined_iff`): behind such a record the mark is
lost, and what stands under the bare name comes back (`returned_reopenedFiles`).

For a parameter, what a record says by name goes before what any record says by index. So the exact record
wins unless it speaks by index and the other one by name (`stored_param_iff`, `overruled_paramFile`).
-/

namespace NativeGlue.Overlay

open NativeGlue.Source

/-! ## 1. Records under a key -/

/-- Records joined one after the other. -/
def joined : List Record → Option Record
  | [] => none
  | r :: rs => some (rs.foldl Record.merge r)

/-- The records of a key. -/
def under (key : String) (rs : List Record) : List Record := rs.filter (·.key == key)

variable {rs : List Record} {b e r : Record}

theorem get?_add (s : Store) (r : Record) (key : String) :
    (s.add r).get? key = if key = r.key then joined ((s.get? key).toList ++ [r]) else s.get? key := by
  split
  · rename_i hkey
    subst hkey
    rw [Store.get?, Store.add, Store.get?_addTo_self, Store.get?]
    cases s.records.lookup r.key with
    | none => rfl
    | some e => rfl
  · rename_i hkey
    exact Store.get?_addTo_ne hkey s.records

/-- Records that are joined already count as one. -/
theorem joined_append (rs qs : List Record) : joined (rs ++ qs) = joined ((joined rs).toList ++ qs) := by
  cases rs with
  | nil => rfl
  | cons r rs => simp [joined, List.foldl_append]

/-- **Under each key stands what all its records say, joined in their order.** -/
theorem get?_ofRecords (rs : List Record) (key : String) :
    (Store.ofRecords rs).get? key = joined (under key rs) := by
  have hfold : ∀ s : Store, (rs.foldl Store.add s).get? key =
      joined ((s.get? key).toList ++ under key rs) := by
    induction rs with
    | nil =>
      intro s
      cases hs : s.get? key <;> simp [under, joined, hs]
    | cons r rs ih =>
      intro s
      rw [List.foldl_cons, ih, get?_add]
      by_cases hkey : key = r.key
      · have hunder : under key (r :: rs) = [r] ++ under key rs :=
          List.filter_cons_of_pos (beq_iff_eq.2 hkey.symm)
        rw [if_pos hkey, ← joined_append, hunder, List.append_assoc]
      · have hunder : under key (r :: rs) = under key rs :=
          List.filter_cons_of_neg fun h => hkey (beq_iff_eq.1 h).symm
        rw [if_neg hkey, hunder]
  exact hfold {}

/-! ## 2. Joining in groups -/

/-- What is true of records and kept by joining is true of joined records. -/
theorem keeps_of_joined {P : Record → Prop} (hmerge : ∀ b r, P b → P r → P (b.merge r))
    (h : ∀ r ∈ rs, P r) (hj : joined rs = some b) : P b := by
  cases rs with
  | nil => cases hj
  | cons r rs =>
    obtain rfl := Option.some.inj hj
    rw [List.forall_mem_cons] at h
    obtain ⟨hr, h⟩ := h
    induction rs generalizing r with
    | nil => exact hr
    | cons q rs ih =>
      rw [List.forall_mem_cons] at h
      exact ih (r.merge q) rfl (hmerge r q hr h.1) h.2

theorem sound_of_joined (h : ∀ r ∈ rs, r.Sound) (hj : joined rs = some b) : b.Sound :=
  keeps_of_joined (fun _ _ => Record.Sound.merge) h hj

/-- Behind other records, the join of records keeps no mark. -/
theorem replace_of_joined (hrs : rs ≠ []) (h : ∀ q ∈ rs, q.replace = false)
    (hj : joined (r :: rs) = some e) : e.replace = false := by
  obtain ⟨front, last, rfl⟩ := (List.eq_nil_or_concat rs).resolve_left hrs
  obtain rfl := Option.some.inj hj
  rw [List.concat_eq_append, List.foldl_concat]
  exact Record.replace_merge _ (h last (by simp))

/-- **Records that replace nothing may be joined first.** -/
theorem joined_of_keep {qs : List Record} (hrs : ∀ r ∈ rs, r.Sound) (hqs : ∀ q ∈ qs, q.Sound)
    (hkeep : ∀ q ∈ qs, q.replace = false) :
    joined (rs ++ qs) = Option.merge Record.merge (joined rs) (joined qs) := by
  cases rs with
  | nil => rw [List.nil_append, joined, Option.merge_none_left]
  | cons r rs =>
    cases qs with
    | nil => rw [List.append_nil, joined, joined, Option.merge_none_right]
    | cons q qs =>
      have hfold : ∀ b e : Record, b.Sound → e.Sound → e.replace = false →
          qs.foldl Record.merge (b.merge e) = b.merge (qs.foldl Record.merge e) := by
        induction qs with
        | nil => exact fun b e _ _ _ => rfl
        | cons x qs ih =>
          intro b e hb he hr
          have hx := hqs x (by simp)
          have hxr := hkeep x (by simp)
          rw [List.foldl_cons, List.foldl_cons, Record.merge_assoc hb.ordered he.ordered hx.ordered hr hxr]
          exact ih (fun y hy => hqs y (by grind)) (fun y hy => hkeep y (by grind)) b (e.merge x) hb
            (he.merge hx) (Record.replace_merge e hxr)
      have hb := sound_of_joined hrs rfl
      rw [joined, joined, Option.merge_some_some, ← hfold _ q hb (hqs q List.mem_cons_self)
        (hkeep q List.mem_cons_self), List.cons_append, joined, List.foldl_append, List.foldl_cons]

/-- A record that replaces those before it comes first in effect. -/
theorem joined_of_replace (front : List Record) (hr : r.replace = true) (rest : List Record) :
    joined (front ++ r :: rest) = joined (r :: rest) := by
  cases front with
  | nil => rfl
  | cons q front =>
    rw [List.cons_append, joined, List.foldl_append, List.foldl_cons, Record.merge_of_replace _ hr,
      joined]

/-- **Two groups may be joined apart exactly if** the first one is empty, or no record but the last one of
the second replaces those before it. -/
theorem merge_joined_iff {qs : List Record} (hrs : ∀ r ∈ rs, r.Sound) (hqs : ∀ q ∈ qs, q.Sound) :
    Option.merge Record.merge (joined rs) (joined qs) = joined (rs ++ qs) ↔
      rs = [] ∨ (∀ q ∈ qs, q.replace = false) ∨ ∃ q ∈ qs.getLast?, q.replace = true := by
  by_cases hnil : rs = []
  · subst hnil
    simp [joined]
  by_cases hkeep : ∀ q ∈ qs, q.replace = false
  · exact iff_of_true (joined_of_keep hrs hqs hkeep).symm (.inr (.inl hkeep))
  have hreplace : ∃ q ∈ qs, q.replace = true := by simpa using hkeep
  obtain ⟨front, r, rest, rfl, hr, hrest⟩ := exists_last_of_exists hreplace
  replace hrest : ∀ q ∈ rest, q.replace = false := fun q hq => Bool.eq_false_iff.2 (hrest q hq)
  obtain ⟨b, hb⟩ : ∃ b, joined rs = some b := by
    cases rs with
    | nil => exact absurd rfl hnil
    | cons x rs => exact ⟨_, rfl⟩
  rw [← List.append_assoc, joined_of_replace _ hr, joined_of_replace _ hr, hb]
  by_cases hrest' : rest = []
  · subst hrest'
    simp [joined, Record.merge_of_replace b hr, hr]
  · obtain ⟨e, he⟩ : ∃ e, joined (r :: rest) = some e := ⟨_, rfl⟩
    have hlast : ¬∃ q ∈ (front ++ r :: rest).getLast?, q.replace = true := by
      rintro ⟨q, hq, hqr⟩
      have hmem : q ∈ rest.getLast? := by
        rw [List.getLast?_append_cons, List.getLast?_cons_of_ne_nil hrest'] at hq
        exact hq
      rw [hrest q (List.mem_of_mem_getLast? hmem)] at hqr
      cases hqr
    have hsound : e.Sound := by
      refine sound_of_joined (fun q hq => hqs q ?_) he
      exact List.mem_append_right front hq
    have hne := Record.merge_ne (sound_of_joined hrs hb) hsound (replace_of_joined hrest' hrest he)
    simp only [he, Option.merge_some_some, Option.some.injEq, hne, hnil, hkeep, hlast, or_self]

/-! ## 3. What a store says about a method -/

theorem baseKey_ne_key {i : Identity} (hi : i.kind = .method) : i.baseKey ≠ i.key := by
  intro h
  have hlength := congrArg String.length h
  simp only [Identity.baseKey, Identity.key, hi, String.length_append] at hlength
  have hopen : ("(" : String).length = 1 := rfl
  omega

theorem lookup_of_method (s : Store) {i : Identity} (hi : i.kind = .method) :
    s.lookup i = Option.merge Record.merge (s.get? i.baseKey) (s.get? i.key) := by
  rw [Store.lookup, if_neg (baseKey_ne_key hi)]
  cases s.get? i.baseKey <;> cases s.get? i.key <;> rfl

/-- Fields and struct classes have one key each. -/
theorem lookup_of_ne_method (s : Store) {i : Identity} (hi : i.kind ≠ .method) :
    s.lookup i = s.get? i.key := by
  have hkey : i.baseKey = i.key := by
    cases hk : i.kind with
    | method => exact absurd hk hi
    | field => rw [Identity.baseKey, hk]
    | struct => rw [Identity.baseKey, hk]
  rw [Store.lookup, if_pos hkey]
  cases s.get? i.key <;> rfl

/-- Every record of files that were read was read from an entry of one of them. -/
theorem exists_entry_of_mapM {t : FileTree} {paths : List Path} {found : List (List Record)}
    (h : paths.mapM (readFile t) = .ok found) (hr : r ∈ found.flatten) :
    ∃ entry x, ∃ path : Path, ReadFrom entry x ∧ r = { x with origin := some path.toString } := by
  obtain ⟨part, hpart, hr⟩ := List.mem_flatten.1 hr
  obtain ⟨path, -, hpath⟩ := exists_of_mem_forall₂ (forall₂_of_mapM h) hpart
  obtain ⟨entry, x, hentry, rfl⟩ := exists_entry_of_readFile hpath hr
  exact ⟨entry, x, path, hentry, rfl⟩

theorem sound_of_mapM {t : FileTree} {paths : List Path} {found : List (List Record)}
    (h : paths.mapM (readFile t) = .ok found) : ∀ r ∈ found.flatten, r.Sound := by
  intro r hr
  obtain ⟨entry, x, path, hentry, rfl⟩ := exists_entry_of_mapM h hr
  exact hentry.sound path

theorem found_of_load {t : FileTree} {path : Path} {s : Store} (h : Store.load t path = .ok s) :
    ∃ found, (filesAt t path).mapM (readFile t) = .ok found ∧ s = Store.ofRecords found.flatten := by
  unfold Store.load at h
  split at h
  · cases h
  · cases h
  · obtain ⟨found, hfound, hs⟩ := ok_of_map h
    exact ⟨found, hfound, hs.symm⟩

theorem load_of_mapM {t : FileTree} {path : Path} {e : Entry} {found : List (List Record)}
    (hlook : t.look path = .ok (some e)) (h : (filesAt t path).mapM (readFile t) = .ok found) :
    Store.load t path = .ok (Store.ofRecords found.flatten) := by
  rw [Store.load, hlook]
  dsimp only
  rw [h]
  rfl

/-- **A method is told all records about it, joined one after the other, those under its bare name first,
exactly if** none stands under the bare name, or no record but the last one under the exact key replaces those
before it. Where a record under the exact key does, those before it under that key are dropped. -/
theorem lookup_eq_joined_iff {t : FileTree} {path : Path} {s : Store} (h : Store.load t path = .ok s)
    {i : Identity} (hi : i.kind = .method) :
    ∃ found, (filesAt t path).mapM (readFile t) = .ok found ∧
      (s.lookup i = joined (under i.baseKey found.flatten ++ under i.key found.flatten) ↔
        under i.baseKey found.flatten = [] ∨
          (∀ r ∈ under i.key found.flatten, r.replace = false) ∨
          ∃ r ∈ (under i.key found.flatten).getLast?, r.replace = true) ∧
      ∀ front r rest, under i.key found.flatten = front ++ r :: rest → r.replace = true →
        s.lookup i = Option.merge Record.merge (joined (under i.baseKey found.flatten))
          (joined (r :: rest)) := by
  obtain ⟨found, hfound, rfl⟩ := found_of_load h
  have hsound : ∀ key, ∀ r ∈ under key found.flatten, r.Sound := fun key r hr =>
    sound_of_mapM hfound r (List.mem_of_mem_filter hr)
  have hlookup : (Store.ofRecords found.flatten).lookup i = Option.merge Record.merge
      (joined (under i.baseKey found.flatten)) (joined (under i.key found.flatten)) := by
    rw [lookup_of_method _ hi, get?_ofRecords, get?_ofRecords]
  refine ⟨found, hfound, ?_, fun front r rest hparts hr => ?_⟩
  · rw [hlookup]
    exact merge_joined_iff (hsound _) (hsound _)
  · rw [hlookup, hparts, joined_of_replace front hr]

/-- A tree with a directory of override files. -/
def overrideTree (files : List (String × String)) : FileTree :=
  { entries := (["meta"], .directory) :: files.map fun x => (["meta", x.1], .file x.2.toUTF8)
    cwd := [], homes := [] }

/-- The directory. -/
def overridePath : Path := ⟨.root, ["meta"]⟩

/-- Files whose names are in order are found in that order. -/
theorem filesAt_overrideTree (files : List (String × String))
    (hsorted : files.Pairwise fun x y => Place.precedes [x.1] [y.1] = true)
    (hends : ∀ x ∈ files, isOverride ⟨.root, ["meta", x.1]⟩ = true) :
    filesAt (overrideTree files) overridePath = files.map fun x => ⟨.root, ["meta", x.1]⟩ := by
  have hbelow : (overrideTree files).below ["meta"] =
      files.map fun x => ([x.1], Entry.file x.2.toUTF8) := by
    rw [FileTree.below, overrideTree, List.filterMap_cons, List.filterMap_map]
    refine (congrArg (List.mergeSort · _) ?_).trans (List.mergeSort_of_pairwise ?_)
    · rw [← List.filterMap_eq_map]
      rfl
    · rw [List.pairwise_map]
      exact hsorted
  rw [filesAt_of_directory (q := ["meta"]) rfl rfl, hbelow, List.map_map, List.filter_map, List.map_map]
  exact congrArg (List.map _) (List.filter_eq_self.2 hends)

/-- A method that files speak of. -/
def painter : Identity := { enclosing := "OS", name := "paint", signature := "J" }

/-- A file about all methods of the name, and one that replaces what it says about one of them. -/
def replacedFiles : List (String × String) :=
  [("a.yml", "OS: \x7bmethods: \x7bpaint: \x7baccessor: draw\x7d\x7d\x7d"),
    ("b.yml", "OS: \x7bmethods: \x7b\"paint(J)\": \x7bcast: (B), replace: true\x7d\x7d\x7d")]

theorem lookup_replacedFiles : ∃ s, Store.load (overrideTree replacedFiles) overridePath = .ok s ∧
    ∃ found, (filesAt (overrideTree replacedFiles) overridePath).mapM
        (readFile (overrideTree replacedFiles)) = .ok found ∧
      under painter.baseKey found.flatten ≠ [] ∧
      s.lookup painter = joined (under painter.baseKey found.flatten ++ under painter.key found.flatten) := by
  have hread : ∃ found ∈ ((filesAt (overrideTree replacedFiles) overridePath).mapM
      (readFile (overrideTree replacedFiles))).toOption, under painter.baseKey found.flatten ≠ [] ∧
        ∃ r ∈ (under painter.key found.flatten).getLast?, r.replace = true := by
    rw [filesAt_overrideTree replacedFiles (by decide +kernel) (by decide +kernel)]
    decide +kernel
  obtain ⟨found, hfound, hbare, hreplace⟩ := hread
  have hfound := ok_of_toOption hfound
  have hload : Store.load (overrideTree replacedFiles) overridePath =
      .ok (Store.ofRecords found.flatten) := load_of_mapM rfl hfound
  obtain ⟨_, hsame, hiff, -⟩ := lookup_eq_joined_iff (i := painter) hload rfl
  obtain rfl := Except.ok.inj (hfound.symm.trans hsame)
  exact ⟨_, hload, found, hsame, hbare, hiff.2 (.inr (.inr hreplace))⟩

/-- A third file adds to what the second one says. -/
def reopenedFiles : List (String × String) :=
  replacedFiles ++
    [("c.yml", "OS: \x7bmethods: \x7b\"paint(J)\": \x7bflags: critical\x7d\x7d\x7d")]

/-- **A file that adds to a record brings back what the record has replaced.** The accessor comes
from the first file alone. -/
theorem returned_reopenedFiles : ∃ s, Store.load (overrideTree reopenedFiles) overridePath = .ok s ∧
    ∃ found, (filesAt (overrideTree reopenedFiles) overridePath).mapM
        (readFile (overrideTree reopenedFiles)) = .ok found ∧
      s.lookup painter ≠ joined (under painter.baseKey found.flatten ++ under painter.key found.flatten) ∧
      (∃ r ∈ s.lookup painter, r.method.accessor = some "draw") ∧
      (∃ r ∈ under painter.key found.flatten, r.replace = true) ∧
      ∀ r ∈ under painter.key found.flatten, r.method.accessor = none := by
  have hread : ∃ found ∈ ((filesAt (overrideTree reopenedFiles) overridePath).mapM
      (readFile (overrideTree reopenedFiles))).toOption,
      (Store.ofRecords found.flatten).lookup painter ≠
          joined (under painter.baseKey found.flatten ++ under painter.key found.flatten) ∧
        (∃ r ∈ (Store.ofRecords found.flatten).lookup painter, r.method.accessor = some "draw") ∧
        (∃ r ∈ under painter.key found.flatten, r.replace = true) ∧
        ∀ r ∈ under painter.key found.flatten, r.method.accessor = none := by
    rw [filesAt_overrideTree reopenedFiles (by decide +kernel) (by decide +kernel)]
    decide +kernel
  obtain ⟨found, hfound, hreturned⟩ := hread
  have hfound := ok_of_toOption hfound
  exact ⟨_, load_of_mapM rfl hfound, found, hfound, hreturned⟩

/-! ## 4. What a store says about a parameter -/

/-- What a record says under one reference to a parameter. -/
def said (r : Record) (ref : String) : ParamOptions := (r.params.lookup ref).getD {}

/-- Every record of a store has its parameters in order. -/
def Store.Ordered (s : Store) : Prop := ∀ key r, s.get? key = some r → Overlay.Ordered r.params

theorem ordered_of_load {t : FileTree} {path : Path} {s : Store} (h : Store.load t path = .ok s) :
    s.Ordered := by
  obtain ⟨found, hfound, rfl⟩ := found_of_load h
  intro key r hr
  rw [get?_ofRecords] at hr
  exact (sound_of_joined (fun q hq => sound_of_mapM hfound q (List.mem_of_mem_filter hq)) hr).ordered

@[simp] theorem joinParams_default (d : ParamOptions) : joinParams d {} = d := by
  simp [joinParams, pick, Union.union, EmptyCollection.emptyCollection]

@[simp] theorem default_joinParams (d : ParamOptions) : joinParams {} d = d := by
  simp [joinParams, pick, Union.union, EmptyCollection.emptyCollection]

/-- What a record says by index comes before what it says by name. -/
theorem storedParam_some (r : Record) (index : Nat) (name : String) :
    storedParam (some r) index name = joinParams (said r (toString index)) (said r name) := by
  rw [storedParam, Option.bind_some, Record.param?, said, said]
  cases r.params.lookup (toString index) <;> cases r.params.lookup name <;> simp

theorem said_merge (hb : Ordered b.params) (he : Ordered e.params) (hr : e.replace = false)
    (ref : String) : said (b.merge e) ref = joinParams (said b ref) (said e ref) := by
  rw [said, Record.merge, if_neg (by simp [hr])]
  dsimp only
  rw [lookup_joinParamLists hb he, said, said]
  cases b.params.lookup ref <;> cases e.params.lookup ref <;> simp

/-- The later record has a value by index, and the earlier one another value by name. -/
def Overtaken {α : Type} (f : ParamOptions → Option α) (b e : Record) (index : Nat) (name : String) : Prop :=
  f (said e name) = none ∧
    ∃ v w, f (said b name) = some v ∧ f (said e (toString index)) = some w ∧ v ≠ w

/-- Of four values, two of each record, the later record's win unless it is overtaken. -/
theorem pick_iff {α : Type} (bi bn ei en : Option α) :
    pick (pick bi ei) (pick bn en) = pick (pick bi bn) (pick ei en) ↔
      ¬(en = none ∧ ∃ v w, bn = some v ∧ ei = some w ∧ v ≠ w) := by
  cases bi <;> cases bn <;> cases ei <;> cases en <;> simp [pick]

/-- **For each parameter the record of the exact key wins exactly if** it does not speak by index alone where
the record of the bare name says something else by name. Flags add up in any case. -/
theorem stored_param_iff {s : Store} (hs : s.Ordered) {i : Identity} (hi : i.kind = .method)
    (hb : s.get? i.baseKey = some b) (he : s.get? i.key = some e) (hr : e.replace = false) (index : Nat)
    (name : String) :
    (storedParam (s.lookup i) index name).flags =
        (storedParam (some b) index name).flags ∪ (storedParam (some e) index name).flags ∧
      ((storedParam (s.lookup i) index name).cast =
          pick (storedParam (some b) index name).cast (storedParam (some e) index name).cast ↔
        ¬Overtaken (·.cast) b e index name) ∧
      ((storedParam (s.lookup i) index name).ownership =
          pick (storedParam (some b) index name).ownership (storedParam (some e) index name).ownership ↔
        ¬Overtaken (·.ownership) b e index name) ∧
      ((storedParam (s.lookup i) index name).length =
          pick (storedParam (some b) index name).length (storedParam (some e) index name).length ↔
        ¬Overtaken (·.length) b e index name) := by
  have hordered := hs _ b hb
  have hordered' := hs _ e he
  rw [lookup_of_method s hi, hb, he, Option.merge_some_some, storedParam_some, storedParam_some,
    storedParam_some, said_merge hordered hordered' hr, said_merge hordered hordered' hr]
  refine ⟨?_, pick_iff .., pick_iff .., pick_iff ..⟩
  dsimp only [joinParams]
  rw [ParamFlags.union_assoc, ParamFlags.union_assoc, ← ParamFlags.union_assoc (said e _).flags,
    ParamFlags.union_comm (said e _).flags, ParamFlags.union_assoc (said b name).flags]

/-- A file that speaks of a parameter twice: under the bare name, and under the exact key by a reference. -/
def paramFile (reference : String) : List (String × String) :=
  [("a.yml", "OS: \x7bmethods: \x7bpaint: \x7bparams: \x7bp: \x7bcast: (A)\x7d\x7d\x7d, \"paint(J)\": " ++
    "\x7bparams: \x7b" ++ reference ++ ": \x7bcast: (B)\x7d\x7d\x7d\x7d\x7d")]

theorem stored_param_paramFile : ∃ s, Store.load (overrideTree (paramFile "p")) overridePath = .ok s ∧
    ∃ b e, s.get? painter.baseKey = some b ∧ s.get? painter.key = some e ∧
      (storedParam (some b) 0 "p").cast = some "(A)" ∧
      (storedParam (s.lookup painter) 0 "p").cast = some "(B)" := by
  have hread : ∃ s ∈ (Store.load (overrideTree (paramFile "p")) overridePath).toOption,
      ∃ b ∈ s.get? painter.baseKey, ∃ e ∈ s.get? painter.key, e.replace = false ∧
        (said e "p").cast ≠ none ∧ (storedParam (some b) 0 "p").cast = some "(A)" ∧
        pick (storedParam (some b) 0 "p").cast (storedParam (some e) 0 "p").cast = some "(B)" := by
    decide +kernel
  obtain ⟨s, hs, b, hb, e, he, hr, hname, hbare, hexact⟩ := hread
  have hload := ok_of_toOption hs
  have hwins := (stored_param_iff (ordered_of_load hload) rfl hb he hr 0 "p").2.1
  exact ⟨s, hload, b, e, hb, he, hbare, (hwins.2 fun h => hname h.1).trans hexact⟩

/-- **Where the exact record speaks by index and the other one by name, the other one wins.** -/
theorem overruled_paramFile : ∃ s ∈ (Store.load (overrideTree (paramFile "0")) overridePath).toOption,
    ∃ b ∈ s.get? painter.baseKey, ∃ e ∈ s.get? painter.key, e.replace = false ∧
      (storedParam (some b) 0 "p").cast = some "(A)" ∧ (storedParam (some e) 0 "p").cast = some "(B)" ∧
      (storedParam (s.lookup painter) 0 "p").cast = some "(A)" := by
  decide +kernel

end NativeGlue.Overlay
