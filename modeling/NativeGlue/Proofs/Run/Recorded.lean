import NativeGlue.Proofs.Code.HeaderLines
import NativeGlue.Proofs.Output.Progress
import NativeGlue.Proofs.Run.Again

/-!
# Published numbers

The statistics header publishes the numbers of native methods, and the table records them for the runs
to come. A number that is published should be recorded (`Recorded`). A run writes the header before the
table, so where it stops between the two this holds only if the table had all numbers before
(`recorded_of_planned`), and a later run may give a published number to another key
(`unrecorded_blockedTree`). Before the header and after the table it always holds, and then the
numbers are kept for ever.
-/

namespace NativeGlue.Run

open NativeGlue.Code NativeGlue.FileTree NativeGlue.Output NativeGlue.Text

/-! ## 1. What is on disk -/

/-- The path of the statistics header of a target. -/
def headerPath (target : Target) : Path :=
  target.outputDir / Path.ofString (target.statsName ++ "_stats.h")

/-- The statistics header that stands in a tree. -/
def headerOf? (target : Target) (t : FileTree) : Option ByteArray :=
  t.fileAt? (t.named (headerPath target))

/-- The table that stands in a tree. -/
def tableOf? (target : Target) (t : FileTree) : Option ByteArray :=
  t.fileAt? (t.named (statsPath target))

/-- The header in a tree gives a symbol a number. -/
def Announces (target : Target) (t : FileTree) (symbol : String) (i : Int) : Prop :=
  ∃ bytes text, headerOf? target t = some bytes ∧ decodeText? bytes = some text ∧
    numberLine symbol i ∈ splitAt '\n' text

/-- The table in a tree gives a key a number. -/
def Stores (target : Target) (t : FileTree) (key : CodePoints) (i : Int) : Prop :=
  ∃ bytes text table, tableOf? target t = some bytes ∧ decodeText? bytes = some text ∧
    Statistics.ofText (statsPath target) text = .ok table ∧ table.indexOf? key = some i

/-- Every number that the header gives to the symbol of a native method is recorded for its key. -/
def Recorded (target : Target) (m : Model) (t : FileTree) : Prop :=
  ∀ n ∈ m.natives, ∀ i, Announces target t (methodSymbol n) i → Stores target t n.identity.key i

/-- Native methods with different keys have different symbols. -/
def Distinguished (m : Model) : Prop :=
  ∀ n ∈ m.natives, ∀ x ∈ m.natives, methodSymbol n = methodSymbol x →
    n.identity.key = x.identity.key

/-- A key has a number in the table of a tree, and no other key has it. -/
def Reserved (path : Path) (t : FileTree) (key : CodePoints) (i : Int) : Prop :=
  ∃ table, Statistics.load t path = .ok table ∧ table.indexOf? key = some i ∧
    ∀ k, table.indexOf? k = some i → k = key

/-- The text of the header that is made for a model with a table. -/
def headerText (target : Target) (m : Model) (table : Statistics) : String :=
  fileText (statsHeader (statsPrefix target.statsName) (statsTable m table).capacity
    (statsEntries m (statsTable m table)))

section

variable {target : Target} {m : Model} {table : Statistics} {t u v : FileTree}

theorem Announces.of_headerOf? (h : headerOf? target v = headerOf? target t) {s : String} {i : Int} :
    Announces target v s i ↔ Announces target t s i := by
  unfold Announces
  rw [h]

theorem Stores.of_tableOf? (h : tableOf? target v = tableOf? target t) {k : CodePoints} {i : Int} :
    Stores target v k i ↔ Stores target t k i := by
  unfold Stores
  rw [h]

/-! ## 2. What is made for a model -/

/-- Every symbol in the statistics is that of a native method, under its key. -/
theorem exists_native_of_mem_statsSymbols {k s : String} (h : (k, s) ∈ statsSymbols m) :
    ∃ n ∈ m.natives, n.identity.key = k ∧ methodSymbol n = s := by
  have all : ∀ (l : List NativeMethod) (ns : List (String × String)),
      (∀ n ∈ l, n ∈ m.natives) →
      (∀ x ∈ ns, ∃ n ∈ m.natives, n.identity.key = x.1 ∧ methodSymbol n = x.2) →
      ∀ x ∈ l.foldl (fun ns n => putKey n.identity.key (methodSymbol n) ns) ns,
        ∃ n ∈ m.natives, n.identity.key = x.1 ∧ methodSymbol n = x.2 := by
    intro l
    induction l with
    | nil => exact fun ns _ hns => hns
    | cons n r ih =>
      intro ns hl hns
      refine ih _ (fun x hx => hl x (List.mem_cons_of_mem _ hx)) fun x hx => ?_
      rcases mem_of_mem_putKey hx with hx | rfl
      · exact hns x hx
      · exact ⟨n, hl n List.mem_cons_self, rfl, rfl⟩
  exact all m.natives [] (fun n hn => hn) nofun (k, s) h

/-- The header of a model numbers its entries, and nothing else; no line of it is broken. -/
theorem lines_headerText (target : Target) (m : Model) (table : Statistics) :
    (∀ s i, numberLine s i ∈ splitAt '\n' (headerText target m table) ↔
      ⟨s, i⟩ ∈ statsEntries m (statsTable m table)) ∧
      '\r' ∉ (headerText target m table).toList := by
  have hunbroken : ∀ e ∈ statsEntries m (statsTable m table), Unbroken e.symbol := by
    intro e he
    obtain ⟨x, hx, rfl⟩ := List.mem_map.1 he
    obtain ⟨n, -, -, hs⟩ := exists_native_of_mem_statsSymbols (Prod.eta x ▸ hx)
    exact hs ▸ unbroken_of_code fun c hc => .inr (code_methodSymbol n c hc)
  obtain ⟨hlines, hreturn⟩ :=
    numberLine_mem_text target.statsName (statsTable m table).capacity hunbroken
  exact ⟨hlines, hreturn⟩

/-- The entry of a symbol has the number of the key, if symbols are told apart. -/
theorem indexOf?_of_mem_statsEntries (hm : Distinguished m) {n : NativeMethod} (hn : n ∈ m.natives)
    {i : Int} (hi : ⟨methodSymbol n, i⟩ ∈ statsEntries m (statsTable m table)) :
    (statsTable m table).indexOf? n.identity.key = some i := by
  obtain ⟨⟨k, s⟩, hx, he⟩ := List.mem_map.1 hi
  obtain ⟨rfl, hindex⟩ := StatsEntry.mk.inj he
  obtain ⟨x, hxm, rfl, hs⟩ := exists_native_of_mem_statsSymbols hx
  obtain ⟨j, hj⟩ := exists_indexOf?_statsTable table hx
  dsimp only at hj hindex hs
  rw [hm n hn x hxm hs.symm, hj, ← hindex, hj]
  rfl

/-- The number of every key is in the entries, under a symbol of the key. -/
theorem exists_mem_statsEntries {n : NativeMethod} (hn : n ∈ m.natives) {i : Int}
    (hi : (statsTable m table).indexOf? n.identity.key = some i) :
    ∃ x ∈ m.natives, x.identity.key = n.identity.key ∧
      ⟨methodSymbol x, i⟩ ∈ statsEntries m (statsTable m table) := by
  obtain ⟨x, hlast, hkey⟩ := exists_isLast hn
  obtain ⟨j, hj, hentry⟩ := exists_statsEntry table hlast
  rw [hkey, hi] at hj
  obtain rfl := Option.some.inj hj
  obtain ⟨before, after, hsplit, -⟩ := id hlast
  exact ⟨x, hsplit ▸ List.mem_append_right _ List.mem_cons_self, hkey, hentry⟩

/-- The header that was made for a model announces its entries, and nothing else. -/
theorem announces_iff (h : headerOf? target v = some (headerText target m table).toUTF8) {s : String}
    {i : Int} : Announces target v s i ↔ ⟨s, i⟩ ∈ statsEntries m (statsTable m table) := by
  obtain ⟨hlines, hreturn⟩ := lines_headerText target m table
  have hdecode : decodeText? (headerText target m table).toUTF8 = some (headerText target m table) :=
    decodeText?_toUTF8 hreturn
  rw [← hlines]
  constructor
  · rintro ⟨bytes, text, hbytes, htext, hline⟩
    obtain rfl := Option.some.inj (h.symm.trans hbytes)
    obtain rfl := Option.some.inj (hdecode.symm.trans htext)
    exact hline
  · exact fun hline => ⟨_, _, h, hdecode, hline⟩

/-- What the header announces for a native method is the number of its key, if symbols are told
apart. -/
theorem indexOf?_of_announces (hm : Distinguished m)
    (h : headerOf? target v = some (headerText target m table).toUTF8) {n : NativeMethod}
    (hn : n ∈ m.natives) {i : Int} (hi : Announces target v (methodSymbol n) i) :
    (statsTable m table).indexOf? n.identity.key = some i :=
  indexOf?_of_mem_statsEntries hm hn ((announces_iff h).1 hi)

/-- The header that was made for a model announces the number of every key, under a symbol of the
key. -/
theorem exists_announces (h : headerOf? target v = some (headerText target m table).toUTF8)
    {n : NativeMethod} (hn : n ∈ m.natives) {i : Int}
    (hi : (statsTable m table).indexOf? n.identity.key = some i) :
    ∃ x ∈ m.natives, x.identity.key = n.identity.key ∧ Announces target v (methodSymbol x) i := by
  obtain ⟨x, hx, hkey, hentry⟩ := exists_mem_statsEntries hn hi
  exact ⟨x, hx, hkey, (announces_iff h).2 hentry⟩

/-- The table that was made for a model gives every key the number that it has. -/
theorem stores_iff (hs : (statsTable m table).Storable)
    (h : tableOf? target v = some (statsTable m table).toJson.toUTF8) {k : CodePoints} {i : Int} :
    Stores target v k i ↔ (statsTable m table).indexOf? k = some i := by
  have hdecode := decodeText?_toUTF8 (Statistics.not_return_toJson hs)
  have htext := Statistics.ofText_toJson (statsPath target) hs
  rw [← hs.indexOf?_reloaded]
  constructor
  · rintro ⟨bytes, text, d, hbytes, hdecoded, hd, hi⟩
    obtain rfl := Option.some.inj (h.symm.trans hbytes)
    obtain rfl := Option.some.inj (hdecode.symm.trans hdecoded)
    obtain rfl := Except.ok.inj (htext.symm.trans hd)
    exact hi
  · exact fun hi => ⟨_, _, _, h, hdecode, htext, hi⟩

/-- **Where the header of a model is written, its numbers are recorded exactly if the table is written
too or had them all before.** -/
theorem recorded_iff (hs : (statsTable m table).Storable) (hm : Distinguished m)
    (hheader : headerOf? target v = some (headerText target m table).toUTF8)
    (htable : tableOf? target v = some (statsTable m table).toJson.toUTF8 ∨
      tableOf? target v = tableOf? target t) :
    Recorded target m v ↔ tableOf? target v = some (statsTable m table).toJson.toUTF8 ∨
      ∀ n ∈ m.natives, ∀ i, (statsTable m table).indexOf? n.identity.key = some i →
        Stores target t n.identity.key i := by
  constructor
  · intro hrecorded
    refine htable.imp_right fun hsame n hn i hi => ?_
    obtain ⟨x, hx, hkey, hannounced⟩ := exists_announces hheader hn hi
    rw [← hkey, ← Stores.of_tableOf? hsame]
    exact hrecorded x hx i hannounced
  · intro h n hn i hannounced
    have hi := indexOf?_of_announces hm hheader hn hannounced
    by_cases hwritten : tableOf? target v = some (statsTable m table).toJson.toUTF8
    · exact (stores_iff hs hwritten).2 hi
    · rw [Stores.of_tableOf? (htable.resolve_left hwritten)]
      exact h.resolve_left hwritten n hn i hi

/-- **A number that is recorded is kept for ever**: whatever runs come, the key has it, and no other
key does. -/
theorem reserved_of_stores {k : CodePoints} {i : Int} (h : Stores target v k i) {q : Place}
    (hq : v.locate (statsPath target) = .ok q) {w : FileTree}
    (hruns : StatsRuns (statsPath target) v w) : Reserved (statsPath target) w k i := by
  obtain ⟨bytes, text, d, hbytes, hdecode, hd, hi⟩ := h
  have hload : Statistics.load v (statsPath target) = .ok d := by
    unfold Statistics.load
    rw [readBytes_of_fileAt? hq hbytes]
    dsimp only
    rw [hdecode]
    exact hd
  obtain ⟨e, he, hkept⟩ := kept_of_statsRuns hload hruns
  have hdistinct := (Statistics.storable_of_load he).distinct
  exact ⟨e, he, hkept k i hi, fun l hl => hdistinct l k i hl (hkept k i hi)⟩

end

/-! ## 3. A run that stops -/

section

variable {t u : FileTree} {target : Target} {m : Model} {table : Statistics} {files : List OutputFile}

theorem Planned.isGenerated (h : Planned target t m table files) : ∀ g ∈ files, IsGenerated g := by
  obtain ⟨e, defines, units, hunits, hfiles⟩ := h.made
  exact isGenerated_of_filesOf ⟨e, defines, units, table, hunits, hfiles⟩

/-- The statistics files come last, the header first and the table at the end. -/
theorem statsFiles_of_targetFiles {e : Mapping.Mapper} {defines : List (String × String)}
    {units : List MappedUnit} (hs : table.Storable)
    (h : targetFiles target e defines m units table = .ok files) :
    (statsTable m table).Storable ∧ ∃ units header source stored,
      files = units ++ [header, source, stored] ∧
      placeOf target.outputDir header = headerPath target ∧
      header.content = headerText target m table ∧
      placeOf target.outputDir stored = statsPath target ∧
      stored.content = (statsTable m table).toJson := by
  obtain ⟨parts, -, hwritable, hfiles⟩ := targetFiles_eq_ok_iff.1 h
  rw [statsFiles_eq] at hfiles
  exact ⟨storable_statsTable hs hwritable, parts.flatten, _, _, _, hfiles, rfl, rfl, rfl, rfl⟩

theorem Planned.statsFiles (h : Planned target t m table files) :
    (statsTable m table).Storable ∧ ∃ units header source stored,
      files = units ++ [header, source, stored] ∧
      placeOf target.outputDir header = headerPath target ∧
      header.content = headerText target m table ∧
      placeOf target.outputDir stored = statsPath target ∧
      stored.content = (statsTable m table).toJson := by
  obtain ⟨e, defines, units, -, hfiles⟩ := h.made
  exact statsFiles_of_targetFiles (Statistics.storable_of_load h.loaded) hfiles

/-- **Wherever a run stops, its table is not written before its header.** Where nothing stops it, both
are. -/
theorem Planned.progress (h : Planned target t m table files)
    (hlock : takeLock t target.outputDir = (u, none))
    (hd : (files.map fun g => t.named (placeOf target.outputDir g)).Nodup) (n : Nat) {v : FileTree}
    (hv : v = (writeAll .write target.outputDir u (files.take n)).tree ∨
      v = releaseLock (writeAll .write target.outputDir u (files.take n)).tree target.outputDir) :
    ((headerOf? target v = headerOf? target t ∧ tableOf? target v = tableOf? target t) ∨
        (headerOf? target v = some (headerText target m table).toUTF8 ∧
          (tableOf? target v = some (statsTable m table).toJson.toUTF8 ∨
            tableOf? target v = tableOf? target t))) ∧
      ((writeAll .write target.outputDir u (files.take n)).fault = none → files.length ≤ n →
        headerOf? target v = some (headerText target m table).toUTF8 ∧
          tableOf? target v = some (statsTable m table).toJson.toUTF8) := by
  obtain ⟨-, units, header, source, stored, hfiles, hheader, hnumbers, hstored, hentries⟩ :=
    h.statsFiles
  obtain ⟨k, hfirst, hrest, hall⟩ := exists_progress_locked h.isGenerated hlock hd n hv
  unfold headerOf? tableOf?
  rw [← hheader, ← hnumbers, ← hstored, ← hentries]
  constructor
  · rw [hfiles] at hfirst hrest
    by_cases hk : k ≤ units.length
    · -- the run stopped before its header
      rw [List.drop_append_of_le_length hk] at hrest
      left
      exact ⟨hrest header (by simp), hrest stored (by simp)⟩
    · obtain ⟨j, rfl⟩ : ∃ j, k = units.length + (j + 1) := ⟨k - units.length - 1, by omega⟩
      rw [List.take_length_add_append] at hfirst
      rw [List.drop_length_add_append] at hrest
      right
      refine ⟨hfirst header (by simp), ?_⟩
      have hlast : stored ∈ [source, stored].take j ++ [source, stored].drop j := by
        rw [List.take_append_drop]
        exact List.mem_cons_of_mem _ List.mem_cons_self
      refine (List.mem_append.1 hlast).imp (fun h => ?_) fun h => hrest stored h
      exact hfirst stored (List.mem_append_right _ (List.mem_cons_of_mem _ h))
  · intro hnone hn
    have hk : files.take k = files := by
      rw [hall hnone, Nat.min_eq_right hn, List.take_length]
    rw [hk, hfiles] at hfirst
    exact ⟨hfirst header (by simp), hfirst stored (by simp)⟩

/-- **A published number is recorded, but between the header and the table.** Wherever a run stops,
either the header is as before, and what was recorded still is; or it is the one of the run, and then
all its numbers are recorded exactly if the table is written too or had them all before. A run that
writes all files records what it publishes. What is recorded is kept for ever: no run to come gives the
number to another key. -/
theorem recorded_of_planned (h : Planned target t m table files)
    (hlock : takeLock t target.outputDir = (u, none))
    (hd : (files.map fun g => t.named (placeOf target.outputDir g)).Nodup)
    (hm : Distinguished m) (n : Nat) {v : FileTree}
    (hv : v = (writeAll .write target.outputDir u (files.take n)).tree ∨
      v = releaseLock (writeAll .write target.outputDir u (files.take n)).tree target.outputDir) :
    ((headerOf? target v = headerOf? target t ∧
        ∀ m', Recorded target m' t → Recorded target m' v) ∨
      (headerOf? target v = some (headerText target m table).toUTF8 ∧
        (Recorded target m v ↔ tableOf? target v = some (statsTable m table).toJson.toUTF8 ∨
          ∀ n ∈ m.natives, ∀ i, (statsTable m table).indexOf? n.identity.key = some i →
            Stores target t n.identity.key i))) ∧
      ((writeAll .write target.outputDir u (files.take n)).fault = none → files.length ≤ n →
        Recorded target m v) ∧
      ∀ m', Recorded target m' v → ∀ n ∈ m'.natives, ∀ i, Announces target v (methodSymbol n) i →
        ∀ q, v.locate (statsPath target) = .ok q → ∀ w, StatsRuns (statsPath target) v w →
          Reserved (statsPath target) w n.identity.key i := by
  obtain ⟨hstorable, -⟩ := h.statsFiles
  obtain ⟨hprogress, hall⟩ := h.progress hlock hd n hv
  refine ⟨?_, fun hnone hn => ?_, fun m' hrecorded n hn i hi q hq w hruns => ?_⟩
  · rcases hprogress with ⟨hheader, htable⟩ | ⟨hheader, htable⟩
    · refine .inl ⟨hheader, fun m' hrecorded n hn i hi => ?_⟩
      rw [Stores.of_tableOf? htable]
      exact hrecorded n hn i ((Announces.of_headerOf? hheader).1 hi)
    · exact .inr ⟨hheader, recorded_iff hstorable hm hheader htable⟩
  · obtain ⟨hheader, htable⟩ := hall hnone hn
    exact (recorded_iff (t := t) hstorable hm hheader (.inl htable)).2 (.inl htable)
  · exact reserved_of_stores (hrecorded n hn i hi) hq hruns

end

/-! ## 4. Runs that stop and runs that do not -/

/-- The usual mapper. -/
def plainMapper : Mapping.Mapper := ⟨"gtk", 64, 8, Mapping.standardRules⟩

/-- The files that a first run makes for a model. -/
def firstFiles (m : Model) : Except Mapping.Fault (List OutputFile) := do
  targetFiles plainTarget plainMapper [] m (← mapUnits plainMapper m) {}

theorem planned_firstFiles {t : FileTree} {m : Model} {files : List OutputFile}
    (hload : Statistics.load t (statsPath plainTarget) = .ok {}) (h : firstFiles m = .ok files) :
    Planned plainTarget t m {} files := by
  obtain ⟨units, hunits, hfiles⟩ := ok_of_bind h
  exact ⟨hload, plainMapper, [], units, hunits, hfiles⟩

/-- A tree over an empty output directory. -/
def roomyTree : FileTree := { entries := [(["out"], .directory)], cwd := [], homes := [] }

/-- A tree in which a directory stands where the statistics source comes. -/
def blockedTree : FileTree :=
  { entries := [(["out"], .directory), (["out", "natives_stats.c"], .directory)], cwd := [], homes := [] }

theorem distinguished_modelWith (name : String) : Distinguished (modelWith name) := by
  intro n hn x hx _
  rw [List.mem_singleton.1 hn, List.mem_singleton.1 hx]

/-- The only native method of this model, and its number in a first run. -/
theorem native_modelWith : (∃ n ∈ (modelWith "f").natives, n.identity.key = "A.f()") ∧
    (∀ n ∈ (modelWith "f").natives, methodSymbol n = "A_f" ∧ n.identity.key = "A.f()") ∧
    (statsTable (modelWith "f") {}).indexOf? "A.f()" = some 0 ∧
    (statsTable (modelWith "g") {}).indexOf? "A.g()" = some 0 := by
  refine ⟨by decide +kernel, by decide +kernel, rfl, rfl⟩

/-- Where the header of this model is written, it announces the number. -/
theorem announces_modelWith {v : FileTree}
    (h : headerOf? plainTarget v = some (headerText plainTarget (modelWith "f") {}).toUTF8) :
    Announces plainTarget v "A_f" 0 := by
  obtain ⟨⟨n, hn, hkey⟩, hall, hi, -⟩ := native_modelWith
  rw [← hkey] at hi
  obtain ⟨x, hx, -, hannounced⟩ := exists_announces h hn hi
  rw [← (hall x hx).1]
  exact hannounced

theorem takeLock_of_isNone {t : FileTree} {directory : Path} {u : FileTree × Option Fault}
    (hu : u ∈ [takeLock t directory]) (h : u.2.isNone = true) : takeLock t directory = (u.1, none) := by
  rw [← List.mem_singleton.1 hu]
  exact Prod.ext rfl (Option.isNone_iff_eq_none.1 h)

/-- A first run records the number of its method for ever. -/
theorem recorded_roomyTree : ∃ files w, Planned plainTarget roomyTree (modelWith "f") {} files ∧
    writeFiles .write plainTarget.outputDir roomyTree files = w ∧
    Recorded plainTarget (modelWith "f") w.tree ∧ Announces plainTarget w.tree "A_f" 0 ∧
    Reserved (statsPath plainTarget) w.tree "A.f()" 0 := by
  have hrun : ∃ files ∈ (firstFiles (modelWith "f")).toOption,
      (files.map fun g => roomyTree.named (placeOf plainTarget.outputDir g)).Nodup ∧
      (∃ u ∈ [takeLock roomyTree plainTarget.outputDir], u.2.isNone = true) ∧
      ∃ w ∈ [writeFiles .write plainTarget.outputDir roomyTree files],
        w.fault.isNone = true ∧ (w.tree.locate (statsPath plainTarget)).toOption.isSome = true := by
    decide +kernel
  obtain ⟨files, hfiles, hd, ⟨u, hu, hnone⟩, w, hw, hfault, hlocate⟩ := hrun
  have hplanned := planned_firstFiles (t := roomyTree) rfl (ok_of_toOption hfiles)
  have hlock := takeLock_of_isNone hu hnone
  have hwrite := writeFiles_of_takeLock hlock files
  rw [List.mem_singleton.1 hw, hwrite] at hfault hlocate
  obtain ⟨q, hq⟩ := Option.isSome_iff_exists.1 hlocate
  obtain ⟨⟨n, hn, hkey⟩, hall, -⟩ := native_modelWith
  have hfault : (writeAll .write plainTarget.outputDir u.1 (files.take files.length)).fault = none := by
    rw [List.take_length]
    exact Option.isNone_iff_eq_none.1 hfault
  obtain ⟨-, hrecorded, hkept⟩ := recorded_of_planned hplanned hlock hd (distinguished_modelWith "f")
    files.length (.inr rfl)
  obtain ⟨hheader, -⟩ := (hplanned.progress hlock hd files.length (.inr rfl)).2 hfault le_rfl
  have hrecorded := hrecorded hfault le_rfl
  have hannounced := announces_modelWith hheader
  rw [List.take_length] at hrecorded hkept hannounced
  refine ⟨files, _, hplanned, hwrite, hrecorded, hannounced, ?_⟩
  rw [← hkey]
  refine hkept _ hrecorded n hn 0 ?_ q (ok_of_toOption hq) _ (.none _)
  rw [(hall n hn).1]
  exact hannounced

/-- **A number can be published and not recorded**: the statistics source cannot be written, so the run
stops behind its header. The next run finds no table, and gives the number to any other key. -/
theorem unrecorded_blockedTree : ∃ files w, Planned plainTarget blockedTree (modelWith "f") {} files ∧
    writeFiles .write plainTarget.outputDir blockedTree files = w ∧ w.fault ≠ none ∧
    (∀ m, Recorded plainTarget m blockedTree) ∧ Announces plainTarget w.tree "A_f" 0 ∧
    ¬Recorded plainTarget (modelWith "f") w.tree ∧
    Statistics.load w.tree (statsPath plainTarget) = .ok {} ∧
    (statsTable (modelWith "g") {}).indexOf? "A.g()" = some 0 := by
  have hrun : ∃ files ∈ (firstFiles (modelWith "f")).toOption,
      (files.map fun g => blockedTree.named (placeOf plainTarget.outputDir g)).Nodup ∧
      (∃ u ∈ [takeLock blockedTree plainTarget.outputDir], u.2.isNone = true) ∧
      ∃ w ∈ [writeFiles .write plainTarget.outputDir blockedTree files], w.fault.isSome = true ∧
        (headerOf? plainTarget w.tree).isSome = true ∧ (tableOf? plainTarget w.tree).isNone = true ∧
        (Statistics.load w.tree (statsPath plainTarget)).toOption = some {} := by
    decide +kernel
  obtain ⟨files, hfiles, hd, ⟨u, hu, hnone⟩, w, hw, hfault, hheader, htable, hload⟩ := hrun
  have hplanned := planned_firstFiles (t := blockedTree) rfl (ok_of_toOption hfiles)
  have hwrite := writeFiles_of_takeLock (takeLock_of_isNone hu hnone) files
  rw [List.mem_singleton.1 hw, hwrite] at hfault hheader htable hload
  have hbefore : headerOf? plainTarget blockedTree = none := rfl
  obtain ⟨hprogress, -⟩ :=
    hplanned.progress (takeLock_of_isNone hu hnone) hd files.length (.inr rfl)
  rw [List.take_length] at hprogress
  obtain ⟨hwritten, -⟩ := hprogress.resolve_left fun h => by
    rw [h.1, hbefore] at hheader
    cases hheader
  refine ⟨files, _, hplanned, hwrite, fun h => ?_, ?_, announces_modelWith hwritten, fun h => ?_,
    ok_of_toOption hload, rfl⟩
  · rw [h] at hfault
    cases hfault
  · rintro m n - i ⟨bytes, text, hbytes, -⟩
    rw [hbefore] at hbytes
    cases hbytes
  · obtain ⟨⟨n, hn, -⟩, hall, -⟩ := native_modelWith
    obtain ⟨bytes, text, table, hbytes, -⟩ := h n hn 0 ((hall n hn).1 ▸ announces_modelWith hwritten)
    rw [Option.isNone_iff_eq_none] at htable
    rw [htable] at hbytes
    cases hbytes

end NativeGlue.Run
