import NativeGlue.Proofs.Json.Documents
import NativeGlue.Proofs.Statistics.Numbering

/-!
# Storing and loading the table

A table can be stored if its keys differ, its numbers differ, no number is negative or too long, and
its keys and symbols are texts (`Storable`). Every table that was loaded is such a table
(`storable_of_ofText`), numbering keeps it so as long as the capacity can be written
(`Storable.assign`), and what was stored is loaded with the same number for every key
(`ofText_toJson`). A stored table in which two keys have one number is refused
(`load_collision`).
-/

namespace NativeGlue.Statistics

open NativeGlue.Data NativeGlue.Text

/-! ## 1. Tables that can be stored -/

/-- A table whose stored form is read back. -/
structure Storable (t : Statistics) : Prop where
  keysDiffer : (t.entries.map (·.1)).Nodup
  numbersDiffer : (t.entries.map (·.2)).Nodup
  keys : ∀ e ∈ t.entries, e.1.IsText
  nonneg : ∀ e ∈ t.entries, 0 ≤ e.2
  writable : ∀ e ∈ t.entries, isWritable e.2 = true
  namesDiffer : (t.names.map (·.1)).Nodup
  names : ∀ n ∈ t.names, n.1.IsText ∧ n.2.IsText

theorem storable_empty : Storable {} where
  keysDiffer := .nil
  numbersDiffer := .nil
  keys := by simp
  nonneg := by simp
  writable := by simp
  namesDiffer := .nil
  names := by simp

theorem Storable.zero_le_capacity {t : Statistics} (h : t.Storable) : 0 ≤ t.capacity := by
  by_cases he : t.entries = []
  · exact Int.le_of_eq (capacity_of_nil he).symm
  · obtain ⟨e, hm, hc⟩ := exists_capacity he
    have := h.nonneg e hm
    omega

/-- Symbols that are taken over keep the keys of a table apart, and its texts texts. -/
theorem names_assign {names ns : List (CodePoints × CodePoints)} (hd : (ns.map (·.1)).Nodup)
    (hn : ∀ n ∈ ns, n.1.IsText ∧ n.2.IsText) (hnew : ∀ n ∈ names, n.1.IsText ∧ n.2.IsText) :
    ((names.foldl (fun ns n => putKey n.1 n.2 ns) ns).map (·.1)).Nodup ∧
      ∀ n ∈ names.foldl (fun ns n => putKey n.1 n.2 ns) ns, n.1.IsText ∧ n.2.IsText := by
  induction names generalizing ns with
  | nil => exact ⟨hd, hn⟩
  | cons x r ih =>
    refine ih (nodup_putKey x.1 x.2 hd) (fun n hm => ?_) fun n hm => hnew n (List.mem_cons_of_mem _ hm)
    rcases mem_of_mem_putKey hm with hm | rfl
    · exact hn n hm
    · exact hnew x List.mem_cons_self

theorem Storable.assign {t : Statistics} (h : t.Storable) {keys : List CodePoints}
    {names : List (CodePoints × CodePoints)} (hk : ∀ k ∈ keys, k.IsText)
    (hn : ∀ n ∈ names, n.1.IsText ∧ n.2.IsText)
    (hc : isWritable (t.assign keys names).2.capacity = true) : (t.assign keys names).2.Storable := by
  obtain ⟨ks, he, hd, hks⟩ := assignFrom_entries t.capacity [] t.entries keys
  have he : (t.assign keys names).2.entries = t.entries ++ numbered t.capacity ks := he
  have hcap := h.zero_le_capacity
  have old : ∀ e ∈ (t.assign keys names).2.entries, e ∈ t.entries ∨ e ∈ numbered t.capacity ks := by
    intro e hm
    rw [he] at hm
    exact List.mem_append.1 hm
  have nonneg : ∀ e ∈ (t.assign keys names).2.entries, 0 ≤ e.2 := by
    intro e hm
    rcases old e hm with hm | hm
    · exact h.nonneg e hm
    · exact Int.le_trans hcap (le_of_mem_numbered hm)
  refine ⟨?_, ?_, ?_, nonneg, fun e hm => ?_, ?_, ?_⟩
  · rw [he, List.map_append, keys_numbered, List.nodup_append]
    refine ⟨h.keysDiffer, hd, fun a ha b hb hab => ?_⟩
    exact lookup_eq_none.1 (hks b hb).2 (hab ▸ ha)
  · rw [he, List.map_append, List.nodup_append]
    refine ⟨h.numbersDiffer, nodup_numbered t.capacity ks, fun a ha b hb hab => ?_⟩
    obtain ⟨e, hm, rfl⟩ := List.mem_map.1 ha
    obtain ⟨f, hf, rfl⟩ := List.mem_map.1 hb
    have := lt_capacity hm
    have := le_of_mem_numbered hf
    omega
  · intro e hm
    rcases old e hm with hm | hm
    · exact h.keys e hm
    · have hm := List.mem_map_of_mem (f := (·.1)) hm
      rw [keys_numbered] at hm
      exact hk e.1 (hks e.1 hm).1
  · exact isWritable_of_lt (nonneg e hm) (lt_capacity hm) hc
  · exact (names_assign h.namesDiffer h.names hn).1
  · exact (names_assign h.namesDiffer h.names hn).2

/-! ## 2. Collisions -/

/-- No collision is found where all numbers differ, from each other and from those seen before. -/
theorem findCollision_eq_none {owners : List (Int × CodePoints)} {es : List (CodePoints × Int)} :
    findCollision owners es = none ↔
      (es.map (·.2)).Nodup ∧ ∀ e ∈ es, owners.lookup e.2 = none := by
  induction es generalizing owners with
  | nil => simp [findCollision]
  | cons e r ih =>
    obtain ⟨k, i⟩ := e
    rw [findCollision]
    cases ho : owners.lookup i with
    | some first =>
      refine ⟨nofun, fun h => ?_⟩
      rw [h.2 (k, i) List.mem_cons_self] at ho
      cases ho
    | none =>
      dsimp only
      rw [ih, List.map_cons, List.nodup_cons]
      have other : ∀ x ∈ r, ((i, k) :: owners).lookup x.2 = none ↔
          x.2 ≠ i ∧ owners.lookup x.2 = none := by
        intro x hx
        rw [List.lookup_cons]
        by_cases hxi : x.2 = i
        · rw [beq_iff_eq.2 hxi]
          exact ⟨nofun, fun h => absurd hxi h.1⟩
        · rw [beq_eq_false_iff_ne.2 hxi]
          exact ⟨fun h => ⟨hxi, h⟩, fun h => h.2⟩
      constructor
      · rintro ⟨hd, hr⟩
        refine ⟨⟨fun hm => ?_, hd⟩, fun x hx => ?_⟩
        · obtain ⟨x, hx, hxi⟩ := List.mem_map.1 hm
          exact ((other x hx).1 (hr x hx)).1 hxi
        · rcases List.mem_cons.1 hx with rfl | hx
          · exact ho
          · exact ((other x hx).1 (hr x hx)).2
      · rintro ⟨⟨hi, hd⟩, hr⟩
        refine ⟨hd, fun x hx => (other x hx).2 ⟨fun hxi => hi ?_, hr x (List.mem_cons_of_mem _ hx)⟩⟩
        exact List.mem_map.2 ⟨x, hx, hxi⟩

/-- A collision names a number and two of the keys that have it. -/
theorem mem_of_findCollision {owners : List (Int × CodePoints)} {es : List (CodePoints × Int)}
    {f : StatsFault} (h : findCollision owners es = some f) (hd : (es.map (·.1)).Nodup)
    (ho : ∀ o ∈ owners, o.2 ∉ es.map (·.1)) :
    ∃ i a b, f = .collision i a b ∧ a ≠ b ∧ ((i, a) ∈ owners ∨ (a, i) ∈ es) ∧ (b, i) ∈ es := by
  induction es generalizing owners with
  | nil => cases h
  | cons e r ih =>
    obtain ⟨k, i⟩ := e
    rw [List.map_cons, List.nodup_cons] at hd
    rw [findCollision] at h
    split at h
    · rename_i first hf
      cases h
      have hm := mem_of_lookup hf
      refine ⟨i, first, k, rfl, fun e => ho _ hm ?_, .inl hm, List.mem_cons_self⟩
      rw [List.map_cons]
      exact List.mem_cons.2 (.inl e)
    · have howners : ∀ o ∈ (i, k) :: owners, o.2 ∉ r.map (·.1) := by
        intro o hm
        rcases List.mem_cons.1 hm with rfl | hm
        · exact hd.1
        · exact fun hr => ho o hm (List.mem_cons_of_mem _ hr)
      obtain ⟨j, a, b, rfl, hab, hja, hb⟩ := ih h hd.2 howners
      refine ⟨j, a, b, rfl, hab, ?_, List.mem_cons_of_mem _ hb⟩
      rcases hja with hja | hja
      · rcases List.mem_cons.1 hja with hja | hja
        · cases hja
          exact .inr List.mem_cons_self
        · exact .inl hja
      · exact .inr (List.mem_cons_of_mem _ hja)

/-- A table is made of entries whose numbers differ, and of no others. -/
theorem ofEntries_ok {entries : List (CodePoints × Int)} {names : List (CodePoints × CodePoints)}
    (h : (entries.map (·.2)).Nodup) : ofEntries entries names = .ok ⟨entries, names, []⟩ := by
  have hperm : (entries.mergeSort fun a b => a.1.precedes b.1).Perm entries := List.mergeSort_perm _ _
  have hnone : findCollision [] (entries.mergeSort fun a b => a.1.precedes b.1) = none :=
    findCollision_eq_none.2 ⟨(hperm.map (·.2)).nodup_iff.2 h, by simp⟩
  unfold ofEntries
  rw [hnone]

theorem eq_of_ofEntries {entries : List (CodePoints × Int)}
    {names : List (CodePoints × CodePoints)} {t : Statistics}
    (h : ofEntries entries names = .ok t) :
    t = ⟨entries, names, []⟩ ∧ (entries.map (·.2)).Nodup := by
  have hperm : (entries.mergeSort fun a b => a.1.precedes b.1).Perm entries := List.mergeSort_perm _ _
  unfold ofEntries at h
  split at h
  · cases h
  · rename_i hnone
    exact ⟨(Except.ok.inj h).symm, (hperm.map (·.2)).nodup_iff.1 (findCollision_eq_none.1 hnone).1⟩

/-- **Entries in which two keys have one number are refused**, with the number and two of its keys. -/
theorem ofEntries_collision {entries : List (CodePoints × Int)}
    {names : List (CodePoints × CodePoints)} (hd : (entries.map (·.1)).Nodup)
    (h : ¬(entries.map (·.2)).Nodup) :
    ∃ i a b, ofEntries entries names = .error (.collision i a b) ∧ a ≠ b ∧ (a, i) ∈ entries ∧
      (b, i) ∈ entries := by
  have hperm : (entries.mergeSort fun a b => a.1.precedes b.1).Perm entries := List.mergeSort_perm _ _
  unfold ofEntries
  cases hf : findCollision [] (entries.mergeSort fun a b => a.1.precedes b.1) with
  | none => exact absurd ((hperm.map (·.2)).nodup_iff.1 (findCollision_eq_none.1 hf).1) h
  | some f =>
    obtain ⟨i, a, b, rfl, hab, ha, hb⟩ :=
      mem_of_findCollision hf ((hperm.map (·.1)).nodup_iff.2 hd) (by simp)
    refine ⟨i, a, b, rfl, hab, ?_, hperm.mem_iff.1 hb⟩
    rcases ha with ha | ha
    · cases ha
    · exact hperm.mem_iff.1 ha

/-! ## 3. Loading -/

/-- What a list of members has to be for its numbers to be taken over. -/
theorem storedEntries_cons {path : Path} {k : CodePoints} {v : Json} {r : List (CodePoints × Json)}
    {es : List (CodePoints × Int)} (h : storedEntries path ((k, v) :: r) = .ok es) :
    ∃ i fs, v = .int i ∧ 0 ≤ i ∧ storedEntries path r = .ok fs ∧ es = (k, i) :: fs := by
  unfold storedEntries at h
  split at h
  · cases h
  · rename_i i hi
    obtain ⟨fs, hfs, he⟩ := ok_of_map h
    unfold storedIndex? at hi
    split at hi
    · split at hi
      · cases hi
      · rename_i n hn
        cases hi
        exact ⟨i, fs, rfl, Int.not_lt.1 hn, hfs, he.symm⟩
    · cases hi

theorem keys_storedEntries {path : Path} {ms : List (CodePoints × Json)}
    {es : List (CodePoints × Int)} (h : storedEntries path ms = .ok es) :
    es.map (·.1) = ms.map (·.1) := by
  induction ms generalizing es with
  | nil =>
    cases h
    rfl
  | cons m r ih =>
    obtain ⟨i, fs, -, -, hfs, rfl⟩ := storedEntries_cons h
    rw [List.map_cons, List.map_cons, ih hfs]

/-- Stored numbers are integers that are not negative. -/
theorem mem_of_storedEntries {path : Path} {ms : List (CodePoints × Json)}
    {es : List (CodePoints × Int)} (h : storedEntries path ms = .ok es) {e : CodePoints × Int}
    (he : e ∈ es) : 0 ≤ e.2 ∧ (e.1, .int e.2) ∈ ms := by
  induction ms generalizing es with
  | nil =>
    cases h
    cases he
  | cons m r ih =>
    obtain ⟨k, v⟩ := m
    obtain ⟨i, fs, rfl, hi, hfs, rfl⟩ := storedEntries_cons h
    rcases List.mem_cons.1 he with rfl | he
    · exact ⟨hi, List.mem_cons_self⟩
    · exact (ih hfs he).imp_right (List.mem_cons_of_mem _)

theorem storedEntries_int (path : Path) {es : List (CodePoints × Int)} (h : ∀ e ∈ es, 0 ≤ e.2) :
    storedEntries path (es.map fun e => (e.1, .int e.2)) = .ok es := by
  induction es with
  | nil => rfl
  | cons e r ih =>
    obtain ⟨k, i⟩ := e
    have hi : 0 ≤ i := h (k, i) List.mem_cons_self
    rw [List.map_cons, storedEntries, storedIndex?, if_neg (Int.not_lt.2 hi),
      ih fun x hx => h x (List.mem_cons_of_mem _ hx)]
    rfl

/-- A document in which entries and symbols are stored, whether or not the numbers of the entries
differ. -/
def Holds (path : Path) (text : String) (entries : List (CodePoints × Int))
    (names : List (CodePoints × CodePoints)) : Prop :=
  ∃ ms es ns, Json.read text = .ok (.object ms) ∧
    (Json.member? ms "version").bind Json.asInt? = some version ∧
    Json.member? ms "entries" = some (.object es) ∧
    (Json.member? ms "names").getD (.object []) = .object ns ∧
    storedEntries path es = .ok entries ∧ names = ns.map fun n => (n.1, n.2.plain)

/-- A document that holds entries and symbols makes the table of them. -/
theorem ofText_of_holds {path : Path} {text : String} {entries : List (CodePoints × Int)}
    {names : List (CodePoints × CodePoints)} (h : Holds path text entries names) :
    ofText path text = ofEntries entries names := by
  obtain ⟨ms, es, ns, hread, hv, he, hn, hes, rfl⟩ := h
  unfold ofText
  rw [hread]
  dsimp only
  rw [hv, he, hn]
  simp only [bne_self_eq_false, Bool.false_eq_true, if_false, hes, bind, Except.bind]

/-- Only such a document makes a table. -/
theorem holds_of_ofText {path : Path} {text : String} {t : Statistics}
    (h : ofText path text = .ok t) :
    ∃ entries names, Holds path text entries names ∧ ofEntries entries names = .ok t := by
  unfold ofText at h
  split at h
  · cases h
  · cases h
  · cases h
  · rename_i ms hread
    split at h
    · cases h
    rename_i hv
    split at h
    · rename_i es ns he hn
      obtain ⟨entries, hes, h⟩ := ok_of_bind h
      refine ⟨entries, _, ⟨ms, es, ns, hread, ?_, he, hn, hes, rfl⟩, h⟩
      simpa using hv
    · cases h
  · cases h

theorem mem_of_member? {ms : List (CodePoints × Json)} {name : String} {v : Json}
    (h : Json.member? ms name = some v) : ∃ m ∈ ms, m.2 = v := by
  obtain ⟨m, hm, rfl⟩ := Option.map_eq_some_iff.1 h
  exact ⟨m, List.mem_of_find?_eq_some hm, rfl⟩

/-- The keys and texts of a document that was read are texts, and no key is there twice. -/
theorem Holds.texts {path : Path} {text : String} {entries : List (CodePoints × Int)}
    {names : List (CodePoints × CodePoints)} (h : Holds path text entries names) :
    (entries.map (·.1)).Nodup ∧
      (∀ e ∈ entries, e.1.IsText ∧ 0 ≤ e.2 ∧ isWritable e.2 = true) ∧
      (names.map (·.1)).Nodup ∧ ∀ n ∈ names, n.1.IsText ∧ n.2.IsText := by
  obtain ⟨ms, es, ns, hread, -, he, hn, hes, rfl⟩ := h
  cases Json.sound_of_read hread with
  | object _ _ values =>
    have member : ∀ {name v}, Json.member? ms name = some v → v.Sound := by
      intro name v hv
      obtain ⟨m, hm, rfl⟩ := mem_of_member? hv
      exact values m hm
    have hns : Json.Sound (.object ns) := by
      cases hv : Json.member? ms "names" with
      | none =>
        rw [hv] at hn
        cases hn
        exact .object .nil (by simp) (by simp)
      | some v =>
        rw [hv, Option.getD_some] at hn
        exact hn ▸ member hv
    cases member he with
    | object hd hk hv =>
      cases hns with
      | object hd' hk' hv' =>
        refine ⟨?_, fun e hm => ?_, ?_, fun n hm => ?_⟩
        · rw [keys_storedEntries hes]
          exact hd
        · obtain ⟨h0, hm⟩ := mem_of_storedEntries hes hm
          cases hv _ hm with
          | int hw => exact ⟨hk _ hm, h0, hw⟩
        · rw [List.map_map]
          exact hd'
        · obtain ⟨m, hmn, rfl⟩ := List.mem_map.1 hm
          exact ⟨hk' m hmn, (hv' m hmn).isText_plain⟩

/-- **Every table that was loaded can be stored.** -/
theorem storable_of_ofText {path : Path} {text : String} {t : Statistics}
    (h : ofText path text = .ok t) : t.Storable := by
  obtain ⟨entries, names, hh, h⟩ := holds_of_ofText h
  obtain ⟨rfl, hnum⟩ := eq_of_ofEntries h
  obtain ⟨hd, he, hn, hnt⟩ := hh.texts
  exact ⟨hd, hnum, fun e hm => (he e hm).1, fun e hm => (he e hm).2.1, fun e hm => (he e hm).2.2, hn,
    hnt⟩

/-! ## 4. Storing -/

/-- The entries in the order in which they are stored. -/
def sortedEntries (t : Statistics) : List (CodePoints × Int) :=
  t.entries.mergeSort fun a b => decide (a.2 ≤ b.2)

/-- The symbols in the order in which they are stored. -/
def sortedNames (t : Statistics) : List (CodePoints × CodePoints) :=
  t.names.mergeSort fun a b => a.1.precedes b.1

theorem sortedEntries_perm (t : Statistics) : t.sortedEntries.Perm t.entries :=
  List.mergeSort_perm _ _

theorem sortedNames_perm (t : Statistics) : t.sortedNames.Perm t.names :=
  List.mergeSort_perm _ _

/-- The members in which the entries are stored. -/
def entryMembers (t : Statistics) : List Json.Member :=
  t.sortedEntries.map fun e => ⟨e.1, toString e.2, .int e.2⟩

/-- The members in which the symbols are stored. -/
def nameMembers (t : Statistics) : List Json.Member :=
  t.sortedNames.map fun n => ⟨n.1, Json.writeString n.2, .text n.2⟩

/-- The members of the stored form. -/
def storedMembers (t : Statistics) : List Json.Member :=
  [⟨"version", toString version, .int version⟩,
    ⟨"entries", Json.writeObject 1 (t.entryMembers.map fun m => (m.key, m.text)),
      .object (t.entryMembers.map fun m => (m.key, m.value))⟩,
    ⟨"names", Json.writeObject 1 (t.nameMembers.map fun m => (m.key, m.text)),
      .object (t.nameMembers.map fun m => (m.key, m.value))⟩]

/-- The stored form is the object of these members. -/
theorem toJson_eq (t : Statistics) :
    t.toJson = Json.writeObject 0 (t.storedMembers.map fun m => (m.key, m.text)) ++ "\n" := by
  simp only [toJson, storedMembers, entryMembers, nameMembers, List.map_cons, List.map_nil,
    List.map_map]
  rfl

/-- The text of a number that is not negative. -/
theorem toList_toString {i : Int} (h : 0 ≤ i) : (toString i).toList = Nat.toDigits 10 i.toNat := by
  obtain ⟨n, rfl⟩ := Int.eq_ofNat_of_zero_le h
  exact Nat.toList_repr

theorem readsAs_number {i : Int} (h0 : 0 ≤ i) (hw : isWritable i = true) (depth : Nat) :
    Json.ReadsAs depth (toString i).toList (.int i) := by
  obtain ⟨n, rfl⟩ := Int.eq_ofNat_of_zero_le h0
  rw [toList_toString h0]
  exact Json.readsAs_nat hw depth

theorem isWritable_version : isWritable version = true := by
  have h0 : maxDecimalDigits ≠ 0 := by decide
  exact isWritable_iff.2 (Nat.one_lt_pow h0 (by decide))

section

variable {t : Statistics}

theorem Storable.entryMembers (h : t.Storable) :
    (t.entryMembers.map (·.key)).Nodup ∧ ∀ m ∈ t.entryMembers, ∀ depth, m.Reads depth := by
  refine ⟨?_, fun m hm depth => ?_⟩
  · rw [Statistics.entryMembers, List.map_map]
    exact (t.sortedEntries_perm.map (·.1)).nodup_iff.2 h.keysDiffer
  · obtain ⟨e, he, rfl⟩ := List.mem_map.1 hm
    have he := t.sortedEntries_perm.mem_iff.1 he
    exact ⟨h.keys e he, readsAs_number (h.nonneg e he) (h.writable e he) depth⟩

theorem Storable.nameMembers (h : t.Storable) :
    (t.nameMembers.map (·.key)).Nodup ∧ ∀ m ∈ t.nameMembers, ∀ depth, m.Reads depth := by
  refine ⟨?_, fun m hm depth => ?_⟩
  · rw [Statistics.nameMembers, List.map_map]
    exact (t.sortedNames_perm.map (·.1)).nodup_iff.2 h.namesDiffer
  · obtain ⟨n, hn, rfl⟩ := List.mem_map.1 hm
    have hn := t.sortedNames_perm.mem_iff.1 hn
    exact ⟨(h.names n hn).1, Json.readsAs_string (h.names n hn).2 depth⟩

/-- The members of the stored form differ, and each is read at any depth below the top. -/
theorem Storable.storedMembers (h : t.Storable) :
    (t.storedMembers.map (·.key)).Nodup ∧
      ∀ m ∈ t.storedMembers, ∀ depth, m.Reads (depth + 1) := by
  refine ⟨?_, fun m hm depth => ?_⟩
  · rw [Statistics.storedMembers]
    simp only [List.map_cons, List.map_nil]
    decide
  · obtain ⟨hed, her⟩ := h.entryMembers
    obtain ⟨hnd, hnr⟩ := h.nameMembers
    simp only [Statistics.storedMembers, List.mem_cons, List.not_mem_nil, or_false] at hm
    rcases hm with rfl | rfl | rfl
    · exact ⟨CodePoints.isText_ofString _, readsAs_number (by decide) isWritable_version _⟩
    · exact ⟨CodePoints.isText_ofString _, Json.readsAs_object hed fun m hm => her m hm depth⟩
    · exact ⟨CodePoints.isText_ofString _, Json.readsAs_object hnd fun m hm => hnr m hm depth⟩

/-- **The stored form is read back as the document that was meant.** -/
theorem read_toJson (h : t.Storable) :
    Json.read t.toJson = .ok (.object (t.storedMembers.map fun m => (m.key, m.value))) := by
  obtain ⟨hd, hr⟩ := h.storedMembers
  rw [toJson_eq]
  have hdepth : Json.maxDepth = 988 + 1 + 1 := rfl
  refine Json.read_of_readsAs ?_
  rw [hdepth]
  exact Json.readsAs_object hd fun m hm => hr m hm 988

/-- The document holds the entries in the order of their numbers, and the symbols in the order of
their keys. -/
theorem holds_toJson (path : Path) (h : t.Storable) :
    Holds path t.toJson t.sortedEntries t.sortedNames := by
  refine ⟨_, _, _, read_toJson h, rfl, rfl, rfl, ?_, ?_⟩
  · rw [entryMembers, List.map_map]
    exact storedEntries_int path fun e he => h.nonneg e (t.sortedEntries_perm.mem_iff.1 he)
  · rw [nameMembers, List.map_map, List.map_map]
    exact (List.map_id _).symm

/-- **What was stored is loaded again**: the same entries and the same symbols, in the order in which
they are stored. -/
theorem ofText_toJson (path : Path) (h : t.Storable) :
    ofText path t.toJson = .ok ⟨t.sortedEntries, t.sortedNames, []⟩ := by
  rw [ofText_of_holds (holds_toJson path h)]
  exact ofEntries_ok ((t.sortedEntries_perm.map (·.2)).nodup_iff.2 h.numbersDiffer)

theorem not_return_toJson (h : t.Storable) : '\r' ∉ t.toJson.toList := by
  have number : ∀ {i : Int}, 0 ≤ i → '\r' ∉ (toString i).toList := by
    intro i hi hr
    rw [toList_toString hi] at hr
    cases Nat.isDigit_of_mem_toDigits (by omega) (by omega) hr
  have entries : ∀ m ∈ t.entryMembers, '\r' ∉ m.text.toList := by
    intro m hm
    obtain ⟨e, he, rfl⟩ := List.mem_map.1 hm
    exact number (h.nonneg e (t.sortedEntries_perm.mem_iff.1 he))
  have names : ∀ m ∈ t.nameMembers, '\r' ∉ m.text.toList := by
    intro m hm
    obtain ⟨n, hn, rfl⟩ := List.mem_map.1 hm
    exact Json.not_return_writeString (h.names n (t.sortedNames_perm.mem_iff.1 hn)).2
  have members : ∀ m ∈ t.storedMembers, '\r' ∉ m.text.toList := by
    intro m hm
    simp only [Statistics.storedMembers, List.mem_cons, List.not_mem_nil, or_false] at hm
    rcases hm with rfl | rfl | rfl
    · exact number (by decide)
    · exact Json.not_return_writeObject 1 (fun m hm => (h.entryMembers.2 m hm 0).key) entries
    · exact Json.not_return_writeObject 1 (fun m hm => (h.nameMembers.2 m hm 0).key) names
  rw [toJson_eq, String.toList_append, List.mem_append, not_or]
  refine ⟨Json.not_return_writeObject 0 (fun m hm => (h.storedMembers.2 m hm 0).key) members, ?_⟩
  decide

/-- **What was written to a file is loaded again.** -/
theorem load_toJson {tree : FileTree} {path : Path} (h : t.Storable)
    (hf : tree.readBytes path = .ok t.toJson.toUTF8) :
    load tree path = .ok ⟨t.sortedEntries, t.sortedNames, []⟩ := by
  unfold load
  rw [hf]
  dsimp only
  rw [decodeText?_toUTF8 (not_return_toJson h)]
  exact ofText_toJson path h

end

/-- A table that was loaded can be stored. -/
theorem storable_of_load {tree : FileTree} {path : Path} {t : Statistics}
    (h : load tree path = .ok t) : t.Storable := by
  unfold load at h
  split at h
  · split at h
    · cases h
      exact storable_empty
    · cases h
  · split at h
    · cases h
    · exact storable_of_ofText h

/-- **A stored table in which two keys have one number is refused**, with the number and two of its
keys. -/
theorem load_collision {tree : FileTree} {path : Path} {bytes : ByteArray} {text : String}
    {entries : List (CodePoints × Int)} {names : List (CodePoints × CodePoints)}
    (hb : tree.readBytes path = .ok bytes) (ht : decodeText? bytes = some text)
    (hh : Holds path text entries names) (h : ¬(entries.map (·.2)).Nodup) :
    ∃ i a b, load tree path = .error (.collision i a b) ∧ a ≠ b ∧ (a, i) ∈ entries ∧
      (b, i) ∈ entries := by
  unfold load
  rw [hb]
  dsimp only
  rw [ht]
  dsimp only
  rw [ofText_of_holds hh]
  exact ofEntries_collision hh.texts.1 h

end NativeGlue.Statistics
