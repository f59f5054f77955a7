import Mathlib.Data.List.Nodup
import Mathlib.Data.List.Perm.Basic
import NativeGlue.Proofs.FileTree.Straight
import NativeGlue.Proofs.Source.Rescan
import NativeGlue.Proofs.Text.Occurrence

/-!
# What is discovered

The discovery walks down from the root of the sources and does not enter a directory that is left out, so
what lies below such a directory is not looked at, whatever the rules say about it. Here stands what comes
of it, said of one file at a time and without a walk: a source is a regular file with the right ending that
the rules keep, and each directory above it is one that is entered (`IsSource`). The rules leave names out
if the last rule that is about them does not take them back in (`LeftOut`, `isIgnored_iff`).

The main statement is `discover_exact`: the discovery gives just these files, each once, in order of their
paths, and the same ones in the same order if the directories list their names in another order.
-/

namespace NativeGlue.Source

open NativeGlue.FileTree NativeGlue.Text

/-! ## 1. The rule that decides -/

/-- Whether a rule is about names that lead down from the root of the walk: a rule that is tied to the root
or holds a slash is about the whole path, any other one about each name. -/
def Exclusion.Fits (r : Exclusion) (names : List String) (isDirectory : Bool) : Prop :=
  (r.directoryOnly = true → isDirectory = true) ∧
    if r.anchored = true ∨ '/' ∈ r.pattern.toList then Wildcard.fits r.pattern (relativePath names) = true
    else ∃ name ∈ names, Wildcard.fits r.pattern name = true

/-- The last rule about the names leaves them out. -/
def LeftOut (rules : List Exclusion) (names : List String) (isDirectory : Bool) : Prop :=
  ∃ before r after, rules = before ++ r :: after ∧ r.Fits names isDirectory ∧ r.negate = false ∧
    ∀ later ∈ after, ¬later.Fits names isDirectory

/-- Names as directories list them: there is at least one, and none holds a slash. -/
structure Plain (names : List String) : Prop where
  some : names ≠ []
  whole : ∀ name ∈ names, '/' ∉ name.toList

/-- The names in a path are those that it was put together from. -/
theorem splitAt_relativePath {names : List String} (h : Plain names) :
    splitAt '/' (relativePath names) = names :=
  splitAt_intercalate_of_not_mem rfl h.some h.whole

/-- Different names make different paths. -/
theorem relativePath_injective {names names' : List String} (h : Plain names) (h' : Plain names')
    (he : relativePath names = relativePath names') : names = names' := by
  rw [← splitAt_relativePath h, he, splitAt_relativePath h']

theorem isAbout_iff {r : Exclusion} {names : List String} (h : Plain names) (isDirectory : Bool) :
    r.isAbout (relativePath names) isDirectory = true ↔ r.Fits names isDirectory := by
  unfold Exclusion.isAbout Exclusion.Fits
  by_cases hslash : r.anchored = true ∨ '/' ∈ r.pattern.toList
  · have hwhole : (r.anchored || r.pattern.contains '/') = true := by simpa using hslash
    rw [if_pos hslash, if_pos hwhole]
    cases r.directoryOnly <;> cases isDirectory <;> simp
  · have hwhole : (r.anchored || r.pattern.contains '/') = false := by simpa using hslash
    rw [if_neg hslash, hwhole, splitAt_relativePath h]
    cases r.directoryOnly <;> cases isDirectory <;> simp

/-- **Names are left out just if the last rule about them is not one that takes them back in.** -/
theorem isIgnored_iff {names : List String} (h : Plain names) (rules : List Exclusion) (isDirectory : Bool) :
    isIgnored rules (relativePath names) isDirectory = true ↔ LeftOut rules names isDirectory := by
  -- a rule at the end decides if it is about the names, and otherwise leaves it to those before
  induction rules using List.reverseRecOn with
  | nil => simp [isIgnored, LeftOut]
  | append_singleton rules r ih =>
    have hstep : isIgnored (rules ++ [r]) (relativePath names) isDirectory =
        if r.isAbout (relativePath names) isDirectory then !r.negate
        else isIgnored rules (relativePath names) isDirectory := by
      simp [isIgnored]
    by_cases hr : r.Fits names isDirectory
    · rw [hstep, if_pos ((isAbout_iff h isDirectory).2 hr), Bool.not_eq_true']
      constructor
      · exact fun hn => ⟨rules, r, [], rfl, hr, hn, nofun⟩
      · rintro ⟨before, q, after, heq, -, hq, hlater⟩
        rcases List.eq_nil_or_concat after with rfl | ⟨after, x, rfl⟩
        · rw [(List.append_singleton_inj.1 heq).2, hq]
        · have hlast : rules ++ [r] = (before ++ q :: after) ++ [x] := by rw [heq]; simp
          rw [(List.append_singleton_inj.1 hlast).2] at hr
          exact absurd hr (hlater x (by simp))
    · rw [hstep, if_neg fun ha => hr ((isAbout_iff h isDirectory).1 ha), ih]
      constructor
      · rintro ⟨before, q, after, rfl, hq, hn, hlater⟩
        refine ⟨before, q, after ++ [r], by simp, hq, hn, fun x hx => ?_⟩
        rcases List.mem_append.1 hx with hx | hx
        · exact hlater x hx
        · exact List.mem_singleton.1 hx ▸ hr
      · rintro ⟨before, q, after, heq, hq, hn, hlater⟩
        rcases List.eq_nil_or_concat after with rfl | ⟨after, x, rfl⟩
        · exact absurd ((List.append_singleton_inj.1 heq).2 ▸ hq) hr
        · have hlast : rules ++ [r] = (before ++ q :: after) ++ [x] := by rw [heq]; simp
          exact ⟨before, q, after, (List.append_singleton_inj.1 hlast).1, hq, hn,
            fun y hy => hlater y (by simp [hy])⟩

/-! ## 2. Sources -/

/-- A directory into which the walk goes: its name is neither hidden nor one of those that hold no sources
by convention, and it is not left out. -/
def Entered (rules : List Exclusion) (names : List String) : Prop :=
  (∃ name, names.getLast? = some name ∧ name ∉ excludedDirectories ∧ ¬".".toList <+: name.toList) ∧
    ¬LeftOut rules names true

/-- A source below a root, by the names that lead to it. -/
structure IsSource (t : FileTree) (rules : List Exclusion) (root : Place) (names : List String) : Prop where
  /-- A regular file is there. -/
  file : ∃ bytes, t.get? (root ++ names) = some (.file bytes)
  /-- It has the name of a source. -/
  named : ∃ name, names.getLast? = some name ∧ ".java".toList <:+ name.toList
  /-- It is not left out. -/
  kept : ¬LeftOut rules names false
  /-- Each directory above it, up to the root, is entered. -/
  reached : ∀ above, above <+: names → above ≠ [] → above ≠ names → Entered rules above

theorem entersDirectory_iff {rules : List Exclusion} {names : List String} (h : Plain names) :
    entersDirectory rules names = true ↔ Entered rules names := by
  obtain ⟨r, name, rfl⟩ := (List.eq_nil_or_concat names).resolve_left h.some
  unfold entersDirectory Entered
  rw [← isIgnored_iff h, List.concat_eq_append, List.getLast?_concat]
  simp [startsWith, ← Bool.not_eq_true, List.isPrefixOf_iff_prefix, and_assoc]

theorem keepsFile_iff {rules : List Exclusion} {names : List String} (h : Plain names) :
    keepsFile rules names = true ↔
      (∃ name, names.getLast? = some name ∧ ".java".toList <:+ name.toList) ∧ ¬LeftOut rules names false := by
  obtain ⟨r, name, rfl⟩ := (List.eq_nil_or_concat names).resolve_left h.some
  unfold keepsFile
  rw [← isIgnored_iff h, List.concat_eq_append, List.getLast?_concat]
  simp [endsWith]

/-- What stands in a directory is listed there. -/
theorem mem_namesIn_of_get? {t : FileTree} {directory : Place} {name : String}
    (h : t.get? (directory ++ [name]) ≠ none) : name ∈ t.namesIn directory := by
  obtain ⟨e, he⟩ := Option.ne_none_iff_exists'.1 h
  rw [get?, List.isEmpty_eq_false_iff.2 (by simp)] at he
  exact mem_namesIn.2 ⟨_, mem_of_lookup he, rfl⟩

/-- What is found at names is the file there, or what is found below the directory there. -/
theorem mem_foundAt_iff {t : FileTree} {rules : List Exclusion} {root : Place} {n : Nat}
    {at_ names : List String} :
    names ∈ foundAt t rules root n at_ ↔
      (names = at_ ∧ (∃ bytes, t.get? (root ++ at_) = some (.file bytes)) ∧ keepsFile rules at_ = true) ∨
        (t.get? (root ++ at_) = some .directory ∧ entersDirectory rules at_ = true ∧
          names ∈ walkFrom t rules root n at_) := by
  unfold foundAt
  cases hget : t.get? (root ++ at_) with
  | none => simp
  | some e =>
    cases e with
    | file bytes => simp [and_comm]
    | directory => simp

/-- **The walk finds a file just if it may go down to it**: a file that is kept, not deeper than the walk
goes, below directories that it enters. -/
theorem mem_walkFrom_iff {t : FileTree} {rules : List Exclusion} {root : Place} {n : Nat}
    {at_ names : List String} :
    names ∈ walkFrom t rules root n at_ ↔
      ∃ down, names = at_ ++ down ∧ down ≠ [] ∧ down.length ≤ n ∧
        (∃ bytes, t.get? (root ++ names) = some (.file bytes)) ∧ keepsFile rules names = true ∧
        ∀ d, d <+: down → d ≠ [] → d ≠ down →
          t.get? (root ++ (at_ ++ d)) = some .directory ∧ entersDirectory rules (at_ ++ d) = true := by
  induction n generalizing at_ with
  | zero =>
    refine ⟨nofun, ?_⟩
    rintro ⟨down, -, hne, hlen, -⟩
    exact absurd (List.length_eq_zero_iff.1 (Nat.le_zero.1 hlen)) hne
  | succ n ih =>
    have hcons : ∀ name down, at_ ++ name :: down = at_ ++ [name] ++ down := by simp
    rw [walkFrom_succ, List.mem_flatMap]
    constructor
    · rintro ⟨name, -, hfound⟩
      rcases mem_foundAt_iff.1 hfound with ⟨rfl, hfile, hk⟩ | ⟨hdirectory, henter, hbelow⟩
      · refine ⟨[name], rfl, List.cons_ne_nil _ _, by simp, hfile, hk, fun d hd hne hnd => ?_⟩
        obtain ⟨d', rfl, hd'⟩ := (List.prefix_cons_iff.1 hd).resolve_left hne
        exact absurd (by rw [List.prefix_nil.1 hd']) hnd
      · obtain ⟨down, rfl, -, hlen, hfile, hk, habove⟩ := ih.1 hbelow
        refine ⟨name :: down, (hcons name down).symm, List.cons_ne_nil _ _, by simpa using hlen, hfile, hk,
          fun d hd hne hnd => ?_⟩
        obtain ⟨d', rfl, hd'⟩ := (List.prefix_cons_iff.1 hd).resolve_left hne
        by_cases hnil : d' = []
        · rw [hnil]
          exact ⟨hdirectory, henter⟩
        · rw [hcons]
          exact habove d' hd' hnil fun he => hnd (he ▸ rfl)
    · rintro ⟨down, rfl, hne, hlen, hfile, hk, habove⟩
      obtain ⟨name, down, rfl⟩ := List.exists_cons_of_ne_nil hne
      by_cases hnil : down = []
      · subst hnil
        obtain ⟨bytes, hbytes⟩ := hfile
        have hlisted : t.get? (root ++ at_ ++ [name]) ≠ none := by
          rw [List.append_assoc, hbytes]
          exact nofun
        exact ⟨name, mem_namesIn_of_get? hlisted, mem_foundAt_iff.2 (.inl ⟨rfl, ⟨bytes, hbytes⟩, hk⟩)⟩
      · obtain ⟨hdirectory, henter⟩ :=
          habove [name] (by simp) (List.cons_ne_nil _ _) (by simpa using Ne.symm hnil)
        have hlisted : t.get? (root ++ at_ ++ [name]) ≠ none := by
          rw [List.append_assoc, hdirectory]
          exact nofun
        refine ⟨name, mem_namesIn_of_get? hlisted, mem_foundAt_iff.2 (.inr ⟨hdirectory, henter, ?_⟩)⟩
        refine ih.2 ⟨down, hcons name down, hnil, by simpa using hlen, hfile, hk, fun d hd hdne hnd => ?_⟩
        rw [← hcons]
        exact habove (name :: d) (by simpa using hd) (List.cons_ne_nil _ _) (by simpa using hnd)

/-- A tree as file systems have it: no place has two entries, every entry stands in a directory, and no name
holds a slash. -/
structure Orderly (t : FileTree) : Prop where
  distinct : (t.entries.map (·.1)).Nodup
  grounded : t.Grounded
  whole : ∀ e ∈ t.entries, ∀ name ∈ e.1, '/' ∉ name.toList

/-- Something stands below a root by plain names only. -/
theorem Orderly.plain {t : FileTree} (ht : Orderly t) {root : Place} {names : List String} (hne : names ≠ [])
    (h : t.get? (root ++ names) ≠ none) : Plain names := by
  obtain ⟨e, he⟩ := Option.ne_none_iff_exists'.1 h
  rw [get?, List.isEmpty_eq_false_iff.2 (by simp [hne])] at he
  exact ⟨hne, fun name hname => ht.whole _ (mem_of_lookup he) name (List.mem_append_right _ hname)⟩

/-- What stands below a root is not deeper than the tree is. -/
theorem length_le_depthOf {t : FileTree} {root : Place} {names : List String} (hne : names ≠ [])
    (h : t.get? (root ++ names) ≠ none) : names.length ≤ depthOf t := by
  obtain ⟨e, he⟩ := Option.ne_none_iff_exists'.1 h
  rw [get?, List.isEmpty_eq_false_iff.2 (by simp [hne])] at he
  have hdeep := le_foldl_max (f := fun e : Place × Entry => e.1.length) (b := 0) (mem_of_lookup he)
  simp only [List.length_append] at hdeep
  unfold depthOf
  omega

/-- **A walk that goes as deep as the tree finds the sources.** -/
theorem mem_walkFrom_nil_iff {t : FileTree} {rules : List Exclusion} {root : Place} {n : Nat}
    (ht : Orderly t) (hn : depthOf t ≤ n) {names : List String} :
    names ∈ walkFrom t rules root n [] ↔ IsSource t rules root names := by
  have there : ∀ {names : List String} {e : Entry}, t.get? (root ++ names) = some e →
      t.get? (root ++ names) ≠ none := fun he => by rw [he]; exact nofun
  rw [mem_walkFrom_iff]
  constructor
  · rintro ⟨down, rfl, hne, -, ⟨bytes, hfile⟩, hk, habove⟩
    obtain ⟨hnamed, hkept⟩ := (keepsFile_iff (ht.plain hne (there hfile))).1 hk
    refine ⟨⟨bytes, hfile⟩, hnamed, hkept, fun above hpre hne' hproper => ?_⟩
    obtain ⟨hdirectory, henter⟩ := habove above hpre hne' hproper
    exact (entersDirectory_iff (ht.plain hne' (there hdirectory))).1 henter
  · rintro ⟨⟨bytes, hfile⟩, ⟨name, hlast, hend⟩, hkept, hreached⟩
    have hne : names ≠ [] := by
      rintro rfl
      cases hlast
    have hk := (keepsFile_iff (ht.plain hne (there hfile))).2 ⟨⟨name, hlast, hend⟩, hkept⟩
    have hlen := length_le_depthOf hne (there hfile)
    refine ⟨names, rfl, hne, hlen.trans hn, ⟨bytes, hfile⟩, hk, fun above hpre hne' hproper => ?_⟩
    have hdirectory : t.get? (root ++ above) = some .directory :=
      ht.grounded.above (there hfile) ((List.prefix_append_right_inj root).2 hpre)
        fun he => hproper (List.append_cancel_left he)
    have hentered := hreached above hpre hne' hproper
    exact ⟨hdirectory, (entersDirectory_iff (ht.plain hne' (there hdirectory))).2 hentered⟩

/-! ## 3. Each source once -/

variable {t : FileTree} {rules : List Exclusion} {root : Place}

/-- A directory lists no name twice. -/
theorem Orderly.nodup_namesIn (ht : Orderly t) (directory : Place) : (t.namesIn directory).Nodup := by
  rw [namesIn_eq, (List.mergeSort_perm _ _).nodup_iff]
  have hplaces : (t.entries.filterMap fun e => nameIn directory e.1) =
      (t.entries.map (·.1)).filterMap (nameIn directory) := by
    rw [List.filterMap_map]
    rfl
  rw [hplaces]
  refine ht.distinct.filterMap fun k k' name hk hk' => ?_
  rw [nameIn_eq_some_iff.1 hk, nameIn_eq_some_iff.1 hk']

/-- What is found at names begins with them. -/
theorem prefix_of_mem_foundAt {n : Nat} {at_ names : List String} (h : names ∈ foundAt t rules root n at_) :
    at_ <+: names := by
  rcases mem_foundAt_iff.1 h with ⟨rfl, -⟩ | ⟨-, -, h⟩
  · exact List.prefix_rfl
  · obtain ⟨down, rfl, -⟩ := mem_walkFrom_iff.1 h
    exact List.prefix_append _ _

/-- **The walk finds nothing twice.** -/
theorem Orderly.nodup_walkFrom (ht : Orderly t) (n : Nat) (at_ : List String) :
    (walkFrom t rules root n at_).Nodup := by
  induction n generalizing at_ with
  | zero => exact List.nodup_nil
  | succ n ih =>
    rw [walkFrom_succ, List.nodup_flatMap]
    refine ⟨fun name _ => ?_, (ht.nodup_namesIn _).imp fun {a b} hab => ?_⟩
    · unfold foundAt
      split
      · split
        · exact List.nodup_singleton _
        · exact List.nodup_nil
      · split
        · exact ih _
        · exact List.nodup_nil
      · exact List.nodup_nil
    · -- what is found at two names begins with the one and with the other
      refine List.disjoint_left.2 fun names ha hb => hab ?_
      have hlen : (at_ ++ [a]).length = (at_ ++ [b]).length := by simp
      have hpre := List.prefix_of_prefix_length_le (prefix_of_mem_foundAt ha) (prefix_of_mem_foundAt hb)
        hlen.le
      exact List.singleton_inj.1 (List.append_cancel_left (hpre.eq_of_length hlen))

/-! ## 4. Any order of the names in a directory -/

/-- The walk where each directory lists its names in an order of its own: first come the files in it that are
kept, then what is below the directories in it that are entered. -/
def walkBy (t : FileTree) (rules : List Exclusion) (root : Place) (listing : Place → List String) :
    Nat → List String → List (List String)
  | 0, _ => []
  | n + 1, at_ =>
    let inside := (listing (root ++ at_)).map fun name => at_ ++ [name]
    let files := inside.filter fun names =>
      (t.get? (root ++ names)).any (· != .directory) && keepsFile rules names
    let directories := inside.filter fun names =>
      t.get? (root ++ names) == some .directory && entersDirectory rules names
    files ++ directories.flatMap (walkBy t rules root listing n)

/-- The items of one kind, followed by what the items of another kind give, is up to the order what each
item gives. -/
theorem filter_append_flatMap_perm {α : Type} (l : List α) (p q : α → Bool) (f : α → List α) :
    (l.filter p ++ (l.filter q).flatMap f).Perm
      (l.flatMap fun x => (if p x then [x] else []) ++ if q x then f x else []) := by
  have hp : l.filter p = l.flatMap fun x => if p x then [x] else [] := by
    induction l with
    | nil => rfl
    | cons x l ih => cases hx : p x <;> simp [hx, ih]
  have hq : (l.filter q).flatMap f = l.flatMap fun x => if q x then f x else [] := by
    clear hp
    induction l with
    | nil => rfl
    | cons x l ih => cases hx : q x <;> simp [hx, ih]
  rw [hp, hq]
  exact List.flatMap_append_perm l _ _

/-- **Whatever the order in which directories list their names, the walk finds the same.** -/
theorem walkBy_perm {listing : Place → List String} (hlisting : ∀ d, (listing d).Perm (t.namesIn d)) (n : Nat)
    (at_ : List String) :
    (walkBy t rules root listing n at_).Perm (walkFrom t rules root n at_) := by
  induction n generalizing at_ with
  | zero => exact .refl _
  | succ n ih =>
    rw [walkBy, walkFrom_succ]
    refine (filter_append_flatMap_perm _ _ _ _).trans ?_
    rw [List.flatMap_map]
    refine (hlisting _).flatMap fun name _ => ?_
    unfold foundAt
    cases hget : t.get? (root ++ (at_ ++ [name])) with
    | none => simp
    | some e =>
      cases e with
      | file bytes => simp
      | directory =>
        cases henter : entersDirectory rules (at_ ++ [name]) with
        | false => simp
        | true => simpa using ih _

/-! ## 5. The discovery -/

/-- Paths in their order. -/
def inOrder (a b : List String) : Bool := decide (relativePath a ≤ relativePath b)

theorem pairwise_mergeSort_inOrder (found : List (List String)) :
    (found.mergeSort inOrder).Pairwise fun a b => inOrder a b = true :=
  List.pairwise_mergeSort (fun a b _ => string_le_trans (relativePath a) (relativePath b) _)
    (fun a _ => string_le_total (relativePath a) _) found

/-- Of different plain names in the order of their paths, each path comes strictly before the next. -/
theorem pairwise_lt_of_sorted {found : List (List String)}
    (hsorted : found.Pairwise fun a b => inOrder a b = true) (hd : found.Nodup)
    (hplain : ∀ names ∈ found, Plain names) :
    found.Pairwise fun a b => relativePath a < relativePath b := by
  refine (hsorted.and hd).imp_of_mem fun {a b} ha hb h => ?_
  refine String.not_le.1 fun hle => h.2 ?_
  exact relativePath_injective (hplain a ha) (hplain b hb) (String.le_antisymm (of_decide_eq_true h.1) hle)

/-- Sorting by path does not depend on the order before. -/
theorem mergeSort_eq_of_perm {found found' : List (List String)} (h : found.Perm found')
    (hplain : ∀ names ∈ found', Plain names) : found.mergeSort inOrder = found'.mergeSort inOrder := by
  have hperm : (found.mergeSort inOrder).Perm (found'.mergeSort inOrder) :=
    ((List.mergeSort_perm _ _).trans h).trans (List.mergeSort_perm _ _).symm
  refine hperm.eq_of_pairwise (fun a b ha hb hab hba => ?_) (pairwise_mergeSort_inOrder _)
    (pairwise_mergeSort_inOrder _)
  refine relativePath_injective (hplain a ?_) (hplain b ?_) (string_le_antisymm _ _ hab hba)
  · exact h.mem_iff.1 (List.mem_mergeSort.1 ha)
  · exact List.mem_mergeSort.1 hb

/-- **The discovery is exact, and no order of the names in a directory matters.** In a tree as file systems
have it, with any texts for rules, the files that are discovered below a directory come strictly in the order
of their paths, and they are the sources below it. A walk of any depth that suffices, through directories
that list their names in any order, gives the same files in the same order. -/
theorem discover_exact (ht : Orderly t) {root expanded p : Path}
    (hexpanded : t.expandHome root = .ok expanded) (hresolved : t.resolve expanded = .ok p)
    (hroot : t.look p = .ok (some .directory)) (patterns : List String) :
    ∃ found, discover t (patterns.filterMap Exclusion.ofString?) root = .ok found ∧
      found.Pairwise (fun a b => relativePath a < relativePath b) ∧
      (∀ names, names ∈ found ↔ IsSource t (patterns.filterMap Exclusion.ofString?) p.parts names) ∧
      ∀ listing : Place → List String, (∀ d, (listing d).Perm (t.namesIn d)) → ∀ n, depthOf t ≤ n →
        (walkBy t (patterns.filterMap Exclusion.ofString?) p.parts listing n []).mergeSort inOrder =
          found := by
  generalize patterns.filterMap Exclusion.ofString? = rules
  have hmem : ∀ names, names ∈ sourcesBelow t rules p.parts ↔ IsSource t rules p.parts names := fun names =>
    List.mem_mergeSort.trans (mem_walkFrom_nil_iff ht (Nat.le_refl _))
  have hplain : ∀ names, IsSource t rules p.parts names → Plain names := by
    rintro names ⟨⟨bytes, hfile⟩, ⟨name, hlast, -⟩, -, -⟩
    refine ht.plain ?_ (by rw [hfile]; exact nofun)
    rintro rfl
    cases hlast
  refine ⟨sourcesBelow t rules p.parts, ?_, ?_, hmem, fun listing hlisting n hn => ?_⟩
  · unfold discover
    rw [hexpanded]
    show (t.resolve expanded >>= _) = _
    rw [hresolved]
    show (t.look p >>= _) = _
    rw [hroot]
    rfl
  · refine pairwise_lt_of_sorted (pairwise_mergeSort_inOrder _) ?_
      fun names h => hplain names ((hmem names).1 h)
    exact (List.mergeSort_perm _ _).nodup_iff.2 (ht.nodup_walkFrom _ _)
  · have hperm : (walkBy t rules p.parts listing n []).Perm (walkFrom t rules p.parts n []) :=
      walkBy_perm hlisting n []
    rw [walkFrom_of_deep t rules p.parts hn] at hperm
    refine mergeSort_eq_of_perm hperm fun names h => hplain names ?_
    exact (mem_walkFrom_nil_iff ht (Nat.le_refl _)).1 h

/-- A tree of sources with a directory of generated ones, and directories that hold none. -/
def workshop : FileTree where
  entries :=
    [(["src"], .directory), (["src", "app"], .directory), (["src", "app", "gen"], .directory),
      (["src", "build"], .directory), (["src", ".cache"], .directory),
      (["src", "Main.java"], .file ByteArray.empty), (["src", "notes.txt"], .file ByteArray.empty),
      (["src", "app", "KeptTest.java"], .file ByteArray.empty),
      (["src", "app", "OtherTest.java"], .file ByteArray.empty),
      (["src", "app", "gen", "Kept.java"], .file ByteArray.empty),
      (["src", "build", "Kept.java"], .file ByteArray.empty),
      (["src", ".cache", "Kept.java"], .file ByteArray.empty)]
  cwd := []
  homes := []

theorem orderly_workshop : Orderly workshop where
  distinct := by decide
  grounded := by
    unfold Grounded
    decide +kernel
  whole := by decide +kernel

/-- Rules that leave out tests and a directory, and take one test and a file in the directory back in. -/
def workshopRules : List String := ["*Test.java", "!Kept*.java", "/app/gen/", " !gen/Kept.java", "/"]

/-- A directory that is left out hides a file that a later rule takes back in. -/
theorem discover_exact_workshop :
    ∃ found, discover workshop (workshopRules.filterMap Exclusion.ofString?) ⟨.here, ["src"]⟩ = .ok found ∧
      found.Pairwise (fun a b => relativePath a < relativePath b) ∧
      (∀ names, names ∈ found ↔
        IsSource workshop (workshopRules.filterMap Exclusion.ofString?) ["src"] names) ∧
      ∀ listing : Place → List String, (∀ d, (listing d).Perm (workshop.namesIn d)) →
        ∀ n, depthOf workshop ≤ n →
          (walkBy workshop (workshopRules.filterMap Exclusion.ofString?) ["src"] listing n []).mergeSort
            inOrder = found :=
  discover_exact orderly_workshop (p := ⟨.root, ["src"]⟩) rfl (by decide +kernel) (by decide +kernel) _

end NativeGlue.Source
