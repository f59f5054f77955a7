import NativeGlue.Overlay.File
import NativeGlue.Proofs.Fallible
import NativeGlue.Proofs.FileTree.Endings
import NativeGlue.Proofs.FileTree.Straight

/-!
# Overrides loaded again

A tree in which no override file was changed, and no directory was made that a search for override
files would find, gives the same store as before (`load_of_built`). If also what stands at the path of the overrides
is as before, then even the reason why there is no store is the same (`load_congr`).
-/

namespace NativeGlue.Overlay

open NativeGlue.FileTree

variable {t u : FileTree} {own : Place → Prop}

/-! ## 1. The store -/

/-- Whether a search for override files takes a path. -/
def isOverride (p : Path) : Bool := p.suffix == ".yml" || p.suffix == ".yaml"

/-- A path that is taken ends as override files do. -/
theorem ending_of_isOverride {p : Path} (h : isOverride p = true) : p.ending = some 'l' := by
  have ends : ∀ suffix : String, p.suffix = suffix → suffix.toList.getLast? = some 'l' →
      p.ending = some 'l' := by
    rintro suffix rfl hl
    obtain ⟨r, hr⟩ := p.suffix_of_name
    rw [Path.ending_eq, ← hr, List.getLast?_append, hl]
    rfl
  rcases Bool.or_eq_true_iff.1 h with h | h
  · exact ends ".yml" (beq_iff_eq.1 h) rfl
  · exact ends ".yaml" (beq_iff_eq.1 h) rfl

/-- A file that is read the same way makes the same records. -/
theorem readFile_of_readBytes {p : Path} {rs : List Record}
    (h : ∀ b, t.readBytes p = .ok b → u.readBytes p = .ok b) (hr : readFile t p = .ok rs) :
    readFile u p = .ok rs := by
  unfold readFile at hr ⊢
  split at hr
  · cases hr
  rename_i b hb
  rw [h b hb]
  exact hr

theorem readBytes_of_readFile {p : Path} {rs : List Record} (h : readFile t p = .ok rs) :
    ∃ b, t.readBytes p = .ok b := by
  unfold readFile at h
  split at h
  · cases h
  · rename_i b hb
    exact ⟨b, hb⟩

/-- No directory was made under a name that a search below a path takes. -/
def NothingToFind (t u : FileTree) (path : Path) : Prop :=
  ∀ q names, t.locate path = .ok q → t.get? (q ++ names) = none →
    u.get? (q ++ names) = some .directory → isOverride (path / (⟨.here, names⟩ : Path)) = false

theorem filesAt_of_directory {path : Path} {q : Place} (hq : t.locate path = .ok q)
    (hd : t.get? q = some .directory) :
    filesAt t path = (((t.below q).map (·.1)).filter fun names =>
      isOverride (path / (⟨.here, names⟩ : Path))).map fun names => path / (⟨.here, names⟩ : Path) := by
  unfold filesAt
  rw [hq]
  dsimp only
  rw [hd, if_pos (by decide)]
  have hmap : (t.below q).map (fun x => path / (⟨.here, x.1⟩ : Path)) =
      ((t.below q).map (·.1)).map fun names => path / (⟨.here, names⟩ : Path) := by
    rw [List.map_map]
    rfl
  exact (congrArg (List.filter isOverride) hmap).trans List.filter_map

theorem filesAt_of_file {path : Path} {q : Place} (hq : t.locate path = .ok q) {b : ByteArray}
    (hb : t.get? q = some (.file b)) : filesAt t path = [path] := by
  unfold filesAt
  rw [hq]
  dsimp only
  rw [hb, if_neg (by exact Bool.false_ne_true)]

/-- Whatever stands in a directory under the name of an override file is taken for one. -/
theorem mem_filesAt {path : Path} {q names : Place} (hq : t.locate path = .ok q)
    (hd : t.get? q = some .directory) (hne : names ≠ []) (hn : t.get? (q ++ names) ≠ none)
    (ho : isOverride (path / (⟨.here, names⟩ : Path)) = true) :
    path / (⟨.here, names⟩ : Path) ∈ filesAt t path := by
  have hbelow : names ∈ (t.below q).map (·.1) := by
    obtain ⟨e, he⟩ := Option.ne_none_iff_exists'.1 hn
    rw [FileTree.get?, List.isEmpty_eq_false_iff.2 (List.append_ne_nil_of_right_ne_nil q hne)] at he
    exact mem_below.2 ⟨hne, _, mem_of_lookup he, rfl⟩
  rw [filesAt_of_directory hq hd]
  exact List.mem_map_of_mem (List.mem_filter.2 ⟨hbelow, ho⟩)

/-- No store is made where a directory is taken for an override file. -/
theorem not_directory_of_load {path : Path} {store : Store} (h : Store.load t path = .ok store)
    {f : Path} (hf : f ∈ filesAt t path) : t.get? (t.named f) ≠ some .directory := by
  unfold Store.load at h
  split at h
  · cases h
  · cases h
  obtain ⟨rs, hrs, -⟩ := ok_of_map h
  obtain ⟨r, -, hr⟩ := exists_of_mem_forall₂ (forall₂_of_mapM hrs).flip hf
  obtain ⟨b, hb⟩ := readBytes_of_readFile hr
  obtain ⟨q, hq, hfile⟩ := readBytes_eq_ok_iff.1 hb
  rw [← eq_named_of_locate hq, hfile]
  exact nofun

/-- The places below a directory that a search takes are the same. -/
theorem overrides_of_built (h : Built own t u) (hown : ∀ q, own q → q.ending ≠ some 'l')
    {path : Path} (hnew : NothingToFind t u path) {q : Place} (hq : t.locate path = .ok q) :
    (((u.below q).map (·.1)).filter fun names => isOverride (path / (⟨.here, names⟩ : Path))) =
      ((t.below q).map (·.1)).filter fun names => isOverride (path / (⟨.here, names⟩ : Path)) := by
  obtain ⟨places, hs, hp⟩ := h
  have beside : ∀ v : FileTree, (∀ names ∈ (v.below q).map (·.1),
      t.get? (q ++ names) = none → u.get? (q ++ names) = some .directory →
        isOverride (path / (⟨.here, names⟩ : Path)) = false) →
      (((v.below q).map (·.1)).filter fun names => isOverride (path / (⟨.here, names⟩ : Path))) =
        (((v.below q).map (·.1)).filter fun names => !places.contains (q ++ names)).filter
          fun names => isOverride (path / (⟨.here, names⟩ : Path)) := by
    intro v hv
    rw [List.filter_filter]
    refine List.filter_congr fun names hm => ?_
    cases ho : isOverride (path / (⟨.here, names⟩ : Path)) with
    | false => rfl
    | true =>
      have hout : q ++ names ∉ places := by
        intro hin
        rcases hp _ hin with hin | hin
        · obtain ⟨hne, -⟩ := mem_below.1 hm
          have hend : Place.ending (path.parts ++ names) = some 'l' := ending_of_isOverride ho
          rw [Place.ending_append _ hne, ← Place.ending_append q hne] at hend
          exact hown _ hin hend
        · rw [hv names hm hin.1 hin.2] at ho
          cases ho
      rw [Bool.true_and, Bool.not_eq_eq_eq_not.2]
      simpa using hout
  rw [beside u fun names _ => hnew q names hq, beside t fun names hm hnone => ?_, hs.below]
  obtain ⟨-, e, he, hplace⟩ := mem_below.1 hm
  exact absurd (hplace ▸ hnone) (get?_ne_none he)

/-- **The store is the same** if no override file was changed and there are no new ones. -/
theorem load_of_built (h : Built own t u) (hown : ∀ q, own q → q.ending ≠ some 'l')
    {path : Path} (hnew : NothingToFind t u path)
    (hfiles : ∀ f ∈ filesAt t path, t.get? (t.named f) ≠ none → ¬own (t.named f)) {store : Store}
    (hl : Store.load t path = .ok store) : Store.load u path = .ok store := by
  unfold Store.load at hl ⊢
  split at hl
  · cases hl
  · cases hl
  rename_i e hlook
  obtain ⟨q, hq, he⟩ : ∃ q, t.locate path = .ok q ∧ t.get? q = some e := by
    unfold look at hlook
    split at hlook
    · rename_i q hq
      exact ⟨q, hq, Except.ok.inj hlook⟩
    · cases hlook
    · cases hlook
  have hread : ∀ f ∈ filesAt t path, ∀ rs, readFile t f = .ok rs → readFile u f = .ok rs := by
    intro f hf rs hr
    refine readFile_of_readBytes (fun b hb => h.readBytes hb (hfiles f hf ?_)) hr
    obtain ⟨p, hp, hfile⟩ := readBytes_eq_ok_iff.1 hb
    rw [← eq_named_of_locate hp, hfile]
    exact nofun
  obtain ⟨rs, hrs, hl⟩ := ok_of_map hl
  have hsame : u.get? q = some e ∧ filesAt u path = filesAt t path := by
    cases e with
    | directory =>
      have hd := h.directory he
      rw [filesAt_of_directory (h.locate hq) hd, filesAt_of_directory hq he,
        overrides_of_built h hown hnew hq]
      exact ⟨hd, rfl⟩
    | file b =>
      have hsingle := filesAt_of_file hq he
      have hkept : u.get? q = some (.file b) := by
        refine h.get? ?_ he
        rw [eq_named_of_locate hq]
        refine hfiles path (hsingle ▸ List.mem_singleton_self path) ?_
        rw [← eq_named_of_locate hq, he]
        exact nofun
      exact ⟨hkept, (filesAt_of_file (h.locate hq) hkept).trans hsingle.symm⟩
  rw [look, h.locate hq]
  dsimp only
  rw [hsame.1]
  dsimp only
  rw [hsame.2, ok_of_mapM hrs hread]
  exact congrArg Except.ok hl

/-! ## 2. The store, or why there is none -/

theorem readFile_congr {p : Path} (h : u.readBytes p = t.readBytes p) : readFile u p = readFile t p := by
  unfold readFile
  rw [h]

/-- A search in a directory takes what is there. -/
theorem get?_of_mem_filesAt {q : Place} (hl : t.locate ⟨.root, q⟩ = .ok q)
    (hd : t.get? q = some .directory) {f : Path} (hf : f ∈ filesAt t ⟨.root, q⟩) :
    ∃ names, f = ⟨.root, q ++ names⟩ ∧ isOverride f = true ∧ t.get? (q ++ names) ≠ none := by
  rw [filesAt_of_directory hl hd] at hf
  obtain ⟨names, hnames, rfl⟩ := List.mem_map.1 hf
  obtain ⟨hbelow, hoverride⟩ := List.mem_filter.1 hnames
  obtain ⟨-, e, he, hplace⟩ := mem_below.1 hbelow
  exact ⟨names, rfl, hoverride, hplace ▸ get?_ne_none he⟩

/-- **The store is the same, and so is the reason why there is none**, if no override file was changed, there
are no new ones, and what stands at the path is as before. -/
theorem load_congr (ht : t.Sound) (h : Built own t u) (hown : ∀ q, own q → q.ending ≠ some 'l')
    {q : Place} (hs : Place.Straight q) (hshort : Place.Short q) (hsame : u.get? q = t.get? q)
    (hnew : NothingToFind t u ⟨.root, q⟩) : Store.load u ⟨.root, q⟩ = Store.load t ⟨.root, q⟩ := by
  have hstay : ∀ r, t.get? r = some .directory → u.get? r = some .directory := fun _ => h.directory
  unfold Store.load
  rw [look_root_congr ht hs hshort hstay hsame]
  split
  · rfl
  · rfl
  rename_i e hlook
  obtain ⟨hl, hthere⟩ : t.locate ⟨.root, q⟩ = .ok q ∧ t.get? q = some e := by
    unfold look at hlook
    split at hlook
    · rename_i r hr
      obtain rfl := eq_of_locate_root hs hr
      exact ⟨hr, Except.ok.inj hlook⟩
    · cases hlook
    · cases hlook
  have hread : ∀ r, t.get? r ≠ none → u.get? r = t.get? r →
      readFile u ⟨.root, r⟩ = readFile t ⟨.root, r⟩ :=
    fun r hr hsame => readFile_congr (readBytes_root_congr ht hr hstay hsame)
  have hfiles : (filesAt u ⟨.root, q⟩).mapM (readFile u) = (filesAt t ⟨.root, q⟩).mapM (readFile t) := by
    cases e with
    | file b =>
      rw [filesAt_of_file hl hthere, filesAt_of_file (h.locate hl) (hsame.trans hthere)]
      refine mapM_congr fun f hf => ?_
      rw [List.mem_singleton.1 hf]
      refine hread q ?_ hsame
      rw [hthere]
      exact nofun
    | directory =>
      have hsearch : filesAt u ⟨.root, q⟩ = filesAt t ⟨.root, q⟩ := by
        rw [filesAt_of_directory (h.locate hl) (hsame.trans hthere), filesAt_of_directory hl hthere,
          overrides_of_built h hown hnew hl]
      rw [hsearch]
      refine mapM_congr fun f hf => ?_
      obtain ⟨names, rfl, hoverride, hsome⟩ := get?_of_mem_filesAt hl hthere hf
      obtain ⟨e, he⟩ := Option.ne_none_iff_exists'.1 hsome
      exact hread _ hsome ((h.get? (fun ho => hown _ ho (ending_of_isOverride hoverride)) he).trans he.symm)
  rw [hfiles]

end NativeGlue.Overlay
