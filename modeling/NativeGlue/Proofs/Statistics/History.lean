import NativeGlue.Proofs.Run.Planned
import NativeGlue.Proofs.Statistics.Storing

/-!
# Histories of runs

A run loads the table of a target, numbers the native methods of a model and stores the table that
results (`StatsRun`); runs follow each other, each over a model of its own (`StatsRuns`). Over all
of them the table is append-only (`tables_of_statsRuns`): a key keeps its number for ever, whether or
not the sources still declare it, no number belongs to two keys, and a new key gets a number above all
that were loaded. The files that a run makes agree with the table that it stores.

One run is treated first (`loaded_of_statsRun`); what holds over many is an induction on the runs.
-/

namespace NativeGlue

open NativeGlue.Text

/-! ## 1. Tables -/

namespace Statistics

/-- Every key of a table has the same number in another one. -/
def Kept (t u : Statistics) : Prop := ∀ k i, t.indexOf? k = some i → u.indexOf? k = some i

/-- No two keys share a number. -/
def Distinct (t : Statistics) : Prop := ∀ k l i, t.indexOf? k = some i → t.indexOf? l = some i → k = l

/-- A key that only the later table has is above all numbers of the earlier one. -/
def NewAbove (t u : Statistics) : Prop :=
  ∀ k i, t.indexOf? k = none → u.indexOf? k = some i → ∀ l j, t.indexOf? l = some j → j < i

/-- A count that is one past the largest number of a table, and zero if it has none. -/
def IsCount (t : Statistics) (count : Int) : Prop :=
  (∀ k i, t.indexOf? k = some i → i < count) ∧
    ((∀ k, t.indexOf? k = none) → count = 0) ∧
    ((∃ k i, t.indexOf? k = some i) → ∃ k, t.indexOf? k = some (count - 1))

theorem Kept.trans {t u v : Statistics} (h : t.Kept u) (h' : u.Kept v) : t.Kept v :=
  fun k i hi => h' k i (h k i hi)

theorem Storable.distinct {t : Statistics} (h : t.Storable) : t.Distinct := by
  intro k l i hk hl
  have hk := mem_of_lookup hk
  have hl := mem_of_lookup hl
  have := List.inj_on_of_nodup_map h.numbersDiffer hk hl rfl
  exact congrArg Prod.fst this

/-- One past the greatest number of a table is its count. -/
theorem isCount_capacity {t : Statistics} (h : t.Storable) : t.IsCount t.capacity := by
  refine ⟨fun k i hi => lt_capacity (mem_of_lookup hi), fun hnone => ?_, fun ⟨k, i, hi⟩ => ?_⟩
  · refine capacity_of_nil (List.eq_nil_iff_forall_not_mem.2 fun e he => ?_)
    exact lookup_eq_none.1 (hnone e.1) (List.mem_map_of_mem he)
  · have hne : t.entries ≠ [] := List.ne_nil_of_mem (mem_of_lookup hi)
    obtain ⟨e, he, hc⟩ := exists_capacity hne
    have hi : t.indexOf? e.1 = some e.2 := lookup_of_mem h.keysDiffer he
    have hc : e.2 = t.capacity - 1 := by omega
    exact ⟨e.1, hc ▸ hi⟩

/-- A numbering keeps all numbers, gives new ones above them, and leaves no key without one. -/
theorem indexOf?_assign (t : Statistics) (keys : List CodePoints)
    (names : List (CodePoints × CodePoints)) :
    t.Kept (t.assign keys names).2 ∧ t.NewAbove (t.assign keys names).2 ∧
      ∀ k ∈ keys, ∃ i, (t.assign keys names).2.indexOf? k = some i := by
  refine ⟨fun k i hi => lookup_assign_of_some hi, fun k i hnone hi l j hl => ?_, fun k hk => ?_⟩
  · obtain ⟨ks, he, -, -⟩ := assignFrom_entries t.capacity [] t.entries keys
    have hi : (t.entries ++ numbered t.capacity ks).lookup k = some i := by
      rw [← he]
      exact hi
    rw [List.lookup_append, show t.entries.lookup k = none from hnone, Option.none_or] at hi
    have hle := le_of_mem_numbered (mem_of_lookup hi)
    have hlt := lt_capacity (mem_of_lookup hl)
    exact Int.lt_of_lt_of_le hlt hle
  · have hg : ∀ k ∈ ([] : List (CodePoints × Int)).map (·.1), k ∈ t.entries.map (·.1) := by simp
    exact exists_lookup (mem_keys_assignFrom hg hk)

/-- The table that is loaded once another one was stored. -/
def reloaded (t : Statistics) : Statistics := ⟨t.sortedEntries, t.sortedNames, []⟩

theorem Storable.indexOf?_reloaded {t : Statistics} (h : t.Storable) (k : CodePoints) :
    t.reloaded.indexOf? k = t.indexOf? k :=
  (lookup_perm t.sortedEntries_perm.symm h.keysDiffer k).symm

end Statistics

/-! ## 2. The symbols of a model -/

namespace Code

/-- Symbols are put one after the other, so each key is there once and has the symbol that was put
last. -/
theorem symbols_foldl (l : List NativeMethod) (ns : List (String × String))
    (hd : (ns.map (·.1)).Nodup) :
    (((l.foldl (fun ns n => putKey n.identity.key (methodSymbol n) ns) ns).map (·.1)).Nodup) ∧
      ∀ k, (∀ n ∈ l, n.identity.key ≠ k) →
        (l.foldl (fun ns n => putKey n.identity.key (methodSymbol n) ns) ns).lookup k =
          ns.lookup k := by
  induction l generalizing ns with
  | nil => exact ⟨hd, fun _ _ => rfl⟩
  | cons n r ih =>
    obtain ⟨h1, h2⟩ := ih (putKey n.identity.key (methodSymbol n) ns)
      (nodup_putKey n.identity.key (methodSymbol n) hd)
    refine ⟨h1, fun k hk => ?_⟩
    have hn : k ≠ n.identity.key := fun e => hk n List.mem_cons_self e.symm
    rw [List.foldl_cons, h2 k fun x hx => hk x (List.mem_cons_of_mem _ hx), lookup_putKey_ne hn]

theorem nodup_statsSymbols (m : Model) : ((statsSymbols m).map (·.1)).Nodup :=
  (symbols_foldl m.natives [] .nil).1

/-- The last native method of a key. -/
def IsLast (m : Model) (n : NativeMethod) : Prop :=
  ∃ before after, m.natives = before ++ n :: after ∧
    ∀ x ∈ after, x.identity.key ≠ n.identity.key

/-- The last native method of a key gives the key its symbol. -/
theorem lookup_statsSymbols {m : Model} {n : NativeMethod} (h : IsLast m n) :
    (statsSymbols m).lookup n.identity.key = some (methodSymbol n) := by
  obtain ⟨before, after, hn, hlast⟩ := h
  rw [statsSymbols, hn, List.foldl_append, List.foldl_cons]
  have hd := nodup_putKey n.identity.key (methodSymbol n) (symbols_foldl before [] .nil).1
  rw [(symbols_foldl after _ hd).2 n.identity.key hlast, lookup_putKey_self]

/-- Every native method shares its key with a last one. -/
theorem exists_isLast {m : Model} {n : NativeMethod} (h : n ∈ m.natives) :
    ∃ x, IsLast m x ∧ x.identity.key = n.identity.key := by
  have hsame : ∃ y ∈ m.natives, y.identity.key = n.identity.key := ⟨n, h, rfl⟩
  obtain ⟨before, x, after, hl, hx, hlast⟩ := exists_last_of_exists hsame
  exact ⟨x, ⟨before, after, hl, fun y hy => hx ▸ hlast y hy⟩, hx⟩

/-- The keys and symbols of a model as they are stored. -/
def storedSymbols (m : Model) : List (CodePoints × CodePoints) :=
  (statsSymbols m).map fun n => (CodePoints.ofString n.1, CodePoints.ofString n.2)

theorem statsTable_eq (m : Model) (t : Statistics) :
    statsTable m t = (t.assign ((storedSymbols m).map (·.1)) (storedSymbols m)).2 := rfl

theorem storable_statsTable {m : Model} {t : Statistics} (h : t.Storable)
    (hc : isWritable (statsTable m t).capacity = true) : (statsTable m t).Storable := by
  rw [statsTable_eq] at hc ⊢
  refine h.assign (fun k hk => ?_) (fun n hn => ?_) hc
  · obtain ⟨n, hn, rfl⟩ := List.mem_map.1 hk
    obtain ⟨x, -, rfl⟩ := List.mem_map.1 hn
    exact CodePoints.isText_ofString x.1
  · obtain ⟨x, -, rfl⟩ := List.mem_map.1 hn
    exact ⟨CodePoints.isText_ofString x.1, CodePoints.isText_ofString x.2⟩

/-- Every key of the symbols has a number once they are numbered. -/
theorem exists_indexOf?_statsTable {m : Model} (t : Statistics) {s : String × String}
    (h : s ∈ statsSymbols m) : ∃ i, (statsTable m t).indexOf? s.1 = some i := by
  refine (Statistics.indexOf?_assign t ((storedSymbols m).map (·.1)) (storedSymbols m)).2.2 s.1 ?_
  rw [storedSymbols, List.map_map]
  exact List.mem_map.2 ⟨s, h, rfl⟩

/-- The entries of the statistics files: the symbols with the numbers of their keys. -/
def statsEntries (m : Model) (t : Statistics) : List StatsEntry :=
  (statsSymbols m).map fun s => ⟨s.2, (t.indexOf? s.1).getD 0⟩

theorem statsFiles_eq (name : String) (m : Model) (t : Statistics) :
    statsFiles name m t =
      [⟨name ++ "_stats.h", fileText (statsHeader (statsPrefix name) (statsTable m t).capacity
          (statsEntries m (statsTable m t)))⟩,
        ⟨name ++ "_stats.c", fileText (statsSource name (statsPrefix name) (statsTable m t).capacity
          (statsEntries m (statsTable m t)))⟩,
        ⟨tableFile name, (statsTable m t).toJson⟩] := rfl

/-- An entry of the files has a number of the table. -/
theorem mem_statsEntries {m : Model} {t : Statistics} {e : StatsEntry}
    (h : e ∈ statsEntries m (statsTable m t)) :
    ∃ k, (statsTable m t).indexOf? k = some e.index := by
  obtain ⟨s, hs, rfl⟩ := List.mem_map.1 h
  obtain ⟨i, hi⟩ := exists_indexOf?_statsTable t hs
  refine ⟨s.1, ?_⟩
  rw [hi]
  rfl

/-- The last native method of a key is in the files, with its symbol and the number of its key. -/
theorem exists_statsEntry {m : Model} (t : Statistics) {n : NativeMethod} (h : IsLast m n) :
    ∃ i, (statsTable m t).indexOf? n.identity.key = some i ∧
      ⟨methodSymbol n, i⟩ ∈ statsEntries m (statsTable m t) := by
  have hm := mem_of_lookup (lookup_statsSymbols h)
  obtain ⟨i, hi⟩ := exists_indexOf?_statsTable t hm
  refine ⟨i, hi, List.mem_map.2 ⟨_, hm, ?_⟩⟩
  rw [hi]
  rfl

/-! ## 3. The files of a run -/

/-- What the statistics files say about a table: the header numbers every native method by the number
that its key has, and what is numbered, counted and dimensioned fits together. Of native methods that
share a key the last one stands for all. -/
structure Agrees (name : String) (m : Model) (t : Statistics) (header source : List String) :
    Prop where
  numbered : ∀ n ∈ m.natives, ∃ x i, IsLast m x ∧ x.identity.key = n.identity.key ∧
    t.indexOf? n.identity.key = some i ∧ s!"\t{methodSymbol x}_FUNC = {i}," ∈ header
  counted : ∃ count size entries, t.IsCount count ∧
    s!"\t{statsPrefix name}_FUNC_COUNT = {count}" ∈ header ∧
    s!"int {statsPrefix name}_nativeFunctionCallCount[{size}];" ∈ source ∧
    s!"char *{statsPrefix name}_nativeFunctionNames[{size}] = \x7b" ∈ source ∧
    header = statsHeader (statsPrefix name) count entries ∧
    source = statsSource name (statsPrefix name) count entries ∧
    ∀ e ∈ entries, 0 ≤ e.index ∧ e.index < count ∧ e.index < size

/-- The files agree with every table that has the same numbers as the one that they are made from. -/
theorem agrees_statsFiles (name : String) {m : Model} {t u : Statistics}
    (h : (statsTable m t).Storable) (hu : ∀ k, u.indexOf? k = (statsTable m t).indexOf? k) :
    Agrees name m u
      (statsHeader (statsPrefix name) (statsTable m t).capacity (statsEntries m (statsTable m t)))
      (statsSource name (statsPrefix name) (statsTable m t).capacity
        (statsEntries m (statsTable m t))) where
  numbered n hn := by
    obtain ⟨x, hx, hk⟩ := exists_isLast hn
    obtain ⟨i, hi, hm⟩ := exists_statsEntry t hx
    refine ⟨x, i, hx, hk, (hu _).trans (hk ▸ hi), ?_⟩
    unfold statsHeader
    exact List.mem_append_left _ (List.mem_append_right _ (List.mem_map.2 ⟨_, hm, rfl⟩))
  counted := by
    have hcount : u.IsCount (statsTable m t).capacity := by
      have hc := Statistics.isCount_capacity h
      unfold Statistics.IsCount at hc ⊢
      simpa only [hu] using hc
    refine ⟨(statsTable m t).capacity, max (statsTable m t).capacity 1, _, hcount, ?_, ?_, ?_, rfl,
      rfl, fun e he => ?_⟩
    · unfold statsHeader
      exact List.mem_append_right _ List.mem_cons_self
    · unfold statsSource
      simp
    · unfold statsSource
      simp
    · obtain ⟨k, hk⟩ := mem_statsEntries he
      have hm := mem_of_lookup hk
      have h0 := h.nonneg _ hm
      have hlt := Statistics.lt_capacity hm
      exact ⟨h0, hlt, by omega⟩

end Code

/-! ## 4. Runs -/

/-- One run over a model that goes well: the table is loaded, its capacity can be written once the
native methods of the model are numbered, and the table that results is stored. What else the run does
to the tree is left open. -/
def StatsRun (path : Path) (m : Model) (before after : FileTree) : Prop :=
  ∃ t, Statistics.load before path = .ok t ∧
    isWritable (Code.statsTable m t).capacity = true ∧
    after.readBytes path = .ok (Code.statsTable m t).toJson.toUTF8

/-- Runs that follow each other, each over a model of its own. -/
inductive StatsRuns (path : Path) : FileTree → FileTree → Prop
  | none (t : FileTree) : StatsRuns path t t
  | next {t u v : FileTree} {m : Model} (h : StatsRuns path t u) (last : StatsRun path m u v) :
      StatsRuns path t v

/-- A plan that is made for a target is such a run, once the table among its files is written. -/
theorem statsRun_of_plan {s : Run.Settings} {defines : List (String × String)} {tree : FileTree}
    {target : Target} {store : Except Overlay.Fault Overlay.Store} {p : Run.Plan}
    (h : Run.plan s defines tree target store = .ok p) :
    ∃ g ∈ p.files, g.relativePath = Code.tableFile target.statsName ∧
      ∀ after : FileTree, after.readBytes (Run.statsPath target) = .ok g.content.toUTF8 →
        StatsRun (Run.statsPath target) p.model tree after := by
  obtain ⟨_, _, table, _, -, -, htable, -, -, hfiles, -⟩ := Run.plan_eq_ok_iff.1 h
  obtain ⟨parts, -, hwritable, hfiles⟩ := Run.targetFiles_eq_ok_iff.1 hfiles
  refine ⟨⟨Code.tableFile target.statsName, (Code.statsTable p.model table).toJson⟩, ?_, rfl,
    fun after ha => ⟨table, htable, hwritable, ha⟩⟩
  rw [hfiles, Code.statsFiles_eq]
  exact List.mem_append_right _ (List.mem_cons_of_mem _ (List.mem_cons_of_mem _ List.mem_cons_self))

/-- **After a run the table that it stored is loaded.** It can be stored, and has the numbers that the
numbering gave. -/
theorem loaded_of_statsRun {path : Path} {m : Model} {v w : FileTree} (h : StatsRun path m v w) :
    ∃ t, Statistics.load v path = .ok t ∧ (Code.statsTable m t).Storable ∧
      w.readBytes path = .ok (Code.statsTable m t).toJson.toUTF8 ∧
      Statistics.load w path = .ok (Code.statsTable m t).reloaded := by
  obtain ⟨t, hload, hc, hw⟩ := h
  have hs := Code.storable_statsTable (Statistics.storable_of_load hload) hc
  exact ⟨t, hload, hs, hw, Statistics.load_toJson hs hw⟩

/-- A run keeps every number, and gives new ones above them. -/
theorem kept_of_statsRun {path : Path} {m : Model} {v w : FileTree} {t : Statistics}
    (hload : Statistics.load v path = .ok t) (h : StatsRun path m v w) :
    ∃ u, Statistics.load w path = .ok u ∧ t.Kept u ∧ t.NewAbove u := by
  obtain ⟨t', hload', hs, -, hw⟩ := loaded_of_statsRun h
  rw [hload] at hload'
  cases hload'
  obtain ⟨hkept, hnew, -⟩ :=
    Statistics.indexOf?_assign t ((Code.storedSymbols m).map (·.1)) (Code.storedSymbols m)
  refine ⟨_, hw, fun k i hi => ?_, fun k i hnone hi => ?_⟩
  · rw [hs.indexOf?_reloaded]
    exact hkept k i hi
  · rw [hs.indexOf?_reloaded] at hi
    exact hnew k i hnone hi

/-- Runs keep every number: by induction on the runs, from one run. -/
theorem kept_of_statsRuns {path : Path} {t u : FileTree} {a : Statistics}
    (start : Statistics.load t path = .ok a) (h : StatsRuns path t u) :
    ∃ b, Statistics.load u path = .ok b ∧ a.Kept b := by
  induction h with
  | none => exact ⟨a, start, fun _ _ hi => hi⟩
  | next h last ih =>
    obtain ⟨b, hb, hab⟩ := ih
    obtain ⟨c, hc, hbc, -⟩ := kept_of_statsRun hb last
    exact ⟨c, hc, hab.trans hbc⟩

/-- **The table of a target is append-only over every history of runs.** Between any two points of a
history every key keeps its number, and no number belongs to two keys; in a run new keys are numbered
above all that were loaded, and the files that the run makes agree with the table that it stores, which
is the one that is loaded next. A stored table in which two keys have one number is refused. -/
theorem tables_of_statsRuns {path : Path} {name : String} {t u v w : FileTree} {m : Model}
    {a : Statistics} (start : Statistics.load t path = .ok a) (earlier : StatsRuns path t u)
    (later : StatsRuns path u v) (last : StatsRun path m v w) :
    (∃ b c d header source json,
      Statistics.load u path = .ok b ∧ Statistics.load v path = .ok c ∧
      Statistics.load w path = .ok d ∧
      (a.Kept b ∧ b.Kept c ∧ c.Kept d) ∧
      (a.Distinct ∧ b.Distinct ∧ c.Distinct ∧ d.Distinct) ∧
      c.NewAbove d ∧
      Code.statsFiles name m c = [⟨name ++ "_stats.h", Code.fileText header⟩,
        ⟨name ++ "_stats.c", Code.fileText source⟩, ⟨Code.tableFile name, json⟩] ∧
      w.readBytes path = .ok json.toUTF8 ∧
      Code.Agrees name m d header source) ∧
    ∀ (tree : FileTree) (bytes : ByteArray) (text : String) (entries : List (CodePoints × Int))
      (names : List (CodePoints × CodePoints)), tree.readBytes path = .ok bytes →
      decodeText? bytes = some text → Statistics.Holds path text entries names →
      (∃ k l i, (k, i) ∈ entries ∧ (l, i) ∈ entries ∧ k ≠ l) →
      ∃ k l i, Statistics.load tree path = .error (.collision i k l) ∧ k ≠ l ∧
        (k, i) ∈ entries ∧ (l, i) ∈ entries := by
  refine ⟨?_, fun tree bytes text entries names hb ht hh ⟨k, l, i, hk, hl, hne⟩ => ?_⟩
  · obtain ⟨b, hb, hab⟩ := kept_of_statsRuns start earlier
    obtain ⟨c, hc, hbc⟩ := kept_of_statsRuns hb later
    obtain ⟨c', hc', hs, hbytes, hd⟩ := loaded_of_statsRun last
    obtain ⟨d, hd', hcd, hnew⟩ := kept_of_statsRun hc last
    rw [hc] at hc'
    cases hc'
    rw [hd] at hd'
    cases hd'
    have distinct : ∀ {tree x}, Statistics.load tree path = .ok x → x.Distinct :=
      fun h => (Statistics.storable_of_load h).distinct
    exact ⟨b, c, _, _, _, _, hb, hc, hd, ⟨hab, hbc, hcd⟩,
      ⟨distinct start, distinct hb, distinct hc, distinct hd⟩, hnew, Code.statsFiles_eq name m c,
      hbytes, Code.agrees_statsFiles name hs hs.indexOf?_reloaded⟩
  · have hdup : ¬(entries.map (·.2)).Nodup := fun hd =>
      hne (congrArg Prod.fst (List.inj_on_of_nodup_map hd hk hl rfl))
    obtain ⟨i, a, b, hload, hab, ha, hb'⟩ := Statistics.load_collision hb ht hh hdup
    exact ⟨a, b, i, hload, hab, ha, hb'⟩

/-- A tree that holds a table and nothing else. -/
def treeWith (t : Statistics) : FileTree :=
  ⟨[(["natives_stats.json"], .file t.toJson.toUTF8)], [], []⟩

/-- A model with a single native method. -/
def modelWith (name : String) : Model :=
  let path : Path := ⟨.here, ["A.java"]⟩
  let method : NativeMethod :=
    { identity := { enclosing := "A", name }, parameters := [],
      returnType := { kind := .void, name := "void" }, accessor := name, position := ⟨path, 1⟩ }
  ⟨[{ path, className := "A", package := "", natives := [method] }]⟩

/-- A method that is gone in the second run keeps its number, and the new one gets the next. -/
theorem tables_of_two_runs :
    let path : Path := ⟨.here, ["natives_stats.json"]⟩
    let first := Code.statsTable (modelWith "f") {}
    let second := Code.statsTable (modelWith "g") first.reloaded
    ∃ c d header source, Statistics.load (treeWith first) path = .ok c ∧
      Statistics.load (treeWith second) path = .ok d ∧ c.Kept d ∧ c.NewAbove d ∧ d.Distinct ∧
      Code.Agrees "natives" (modelWith "g") d header source := by
  intro path first second
  have two : isWritable 2 = true := by
    have h : 10 ^ 1 ≤ 10 ^ maxDecimalDigits := Nat.pow_le_pow_right (by decide) (by decide)
    exact isWritable_iff.2 (Nat.lt_of_lt_of_le (by decide) h)
  have hf : first.capacity = 1 := rfl
  have hrun : StatsRun path (modelWith "f") ⟨[], [], []⟩ (treeWith first) :=
    ⟨{}, rfl, isWritable_of_lt (by decide) (by rw [hf]; decide) two, rfl⟩
  obtain ⟨t, ht, -, -, hload⟩ := loaded_of_statsRun hrun
  cases ht
  have hs : second.capacity = 2 := by
    have he : first.entries = [(CodePoints.ofString "A.f()", 0)] := rfl
    show (Code.statsTable (modelWith "g") first.reloaded).capacity = 2
    unfold Statistics.reloaded Statistics.sortedEntries
    rw [he, List.mergeSort_singleton]
    rfl
  have hrun' : StatsRun path (modelWith "g") (treeWith first) (treeWith second) :=
    ⟨first.reloaded, hload, hs ▸ two, rfl⟩
  obtain ⟨⟨b, c, d, header, source, json, -, hc, hd, hk, hdist, hnew, -, -, hagree⟩, -⟩ :=
    @tables_of_statsRuns path "natives" ⟨[], [], []⟩ _ _ _ _ _ rfl (.next (.none _) hrun) (.none _)
      hrun'
  exact ⟨c, d, header, source, hc, hd, hk.2.2, hnew, hdist.2.2.2, hagree⟩

end NativeGlue
