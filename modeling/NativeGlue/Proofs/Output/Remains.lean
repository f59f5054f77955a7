import NativeGlue.Proofs.FileTree.Walking
import NativeGlue.Proofs.Output.Written

/-!
# What remains of writing

Seen by the regular files alone, a run that writes leaves little behind: what it changes is the files
that it reports as written, and a temporary file that somebody left beside one of these is used up
(`remains_writeFiles`). Neither the lock nor a temporary file is there in the end. A run that only looks
changes nothing (`tree_writeFiles_of_ne`), and neither does one that finds the lock taken
(`tree_writeFiles_of_locked`).
-/

namespace NativeGlue

namespace FileTree

/-! ## 1. Regular files -/

/-- The bytes of the regular file at a place, if there is one. -/
def fileAt? (t : FileTree) (q : Place) : Option ByteArray :=
  match t.get? q with
  | some (.file b) => some b
  | _ => none

variable {t u : FileTree}

theorem fileAt?_congr {q : Place} (h : u.get? q = t.get? q) : u.fileAt? q = t.fileAt? q := by
  unfold fileAt?
  rw [h]

theorem fileAt?_of_none {q : Place} (h : t.get? q = none) : t.fileAt? q = none := by
  unfold fileAt?
  rw [h]

theorem fileAt?_of_directory {q : Place} (h : t.get? q = some .directory) : t.fileAt? q = none := by
  unfold fileAt?
  rw [h]

theorem fileAt?_of_file {q : Place} {b : ByteArray} (h : t.get? q = some (.file b)) :
    t.fileAt? q = some b := by
  unfold fileAt?
  rw [h]

/-- A file that can be read is one that stands at the place that its path names. -/
theorem fileAt?_of_readBytes {p : Path} {b : ByteArray} (h : t.readBytes p = .ok b) :
    t.fileAt? (t.named p) = some b := by
  obtain ⟨q, hq, hb⟩ := readBytes_eq_ok_iff.1 h
  rw [← eq_named_of_locate hq]
  exact fileAt?_of_file hb

/-- A file that stands where a path leads can be read. -/
theorem readBytes_of_fileAt? {p : Path} {q : Place} {b : ByteArray} (hq : t.locate p = .ok q)
    (h : t.fileAt? (t.named p) = some b) : t.readBytes p = .ok b := by
  unfold fileAt? at h
  split at h
  · rename_i hb
    obtain rfl := Option.some.inj h
    exact readBytes_eq_ok_iff.2 ⟨q, hq, eq_named_of_locate hq ▸ hb⟩
  · cases h

/-- Regular files stay where nothing is touched: a new directory is none. -/
theorem Built.fileAt? {own : Place → Prop} (h : Built own t u) {q : Place} (hq : ¬own q) :
    u.fileAt? q = t.fileAt? q := by
  obtain ⟨places, hs, hp⟩ := h
  by_cases hm : q ∈ places
  · obtain ⟨hfree, hnew⟩ := (hp q hm).resolve_left hq
    rw [fileAt?_of_directory hnew, fileAt?_of_none hfree]
  · exact fileAt?_congr (hs.get? hm)

/-- A file that is moved is gone from its place. -/
theorem get?_source_of_moveFile {source destination : Path}
    (h : t.moveFile source destination = .ok u) (hne : t.named source ≠ t.named destination)
    (hd : t.get? (t.named source) ≠ some .directory) : u.get? (t.named source) = none := by
  obtain ⟨e, -, -, -, rfl⟩ := moveFile_eq_ok h
  rw [get?_put_ne _ hne, FileTree.get?, List.isEmpty_eq_false_iff.2 (ne_nil_of_get? hd)]
  exact lookup_eq_none.2 (not_mem_remove _)

end FileTree

namespace Output

open NativeGlue.FileTree NativeGlue.Code

variable {t u : FileTree} {directory : Path}

/-! ## 2. One file -/

/-- The path of the file that a result is about. -/
def pathOf (directory : Path) (r : FileOutcome) : Path := directory / Path.ofString r.relativePath

/-- No generated file stands at the place of the lock. -/
theorem named_ne_lockOf {g : OutputFile} (hg : IsGenerated g) (directory : Path) (t : FileTree) :
    t.named (placeOf directory g) ≠ t.named (lockOf directory) := by
  intro h
  have hg' : ∀ x ∈ [g], IsGenerated x := fun x hx => List.mem_singleton.1 hx ▸ hg
  exact not_belongs_lockOf hg' ⟨g, List.mem_singleton_self g, .inl h.symm⟩

/-- The temporary file is gone once it took the place of another one. -/
theorem temporary_replaceFile {p : Path} {bytes : ByteArray}
    (hne : t.named p ≠ t.named (temporaryFor p)) (h : replaceFile t p bytes = (u, none)) :
    u.fileAt? (t.named (temporaryFor p)) = none := by
  unfold replaceFile at h
  split at h
  · cases h
  rename_i made hmade
  split at h
  · cases h
  rename_i filled hfilled
  split at h
  · cases h
  rename_i hmoved
  cases h
  have hopened := opened_makeDirectories t p.parent
  rw [hmade] at hopened
  obtain ⟨hwritten, hfile⟩ := sameBut_writeBytes hfilled
  have hnamed : ∀ p : Path, filled.named p = t.named p := fun p =>
    (hwritten.named p).trans (hopened.named p)
  rw [hopened.named, ← hnamed] at hfile
  rw [← hnamed]
  refine fileAt?_of_none (get?_source_of_moveFile hmoved ?_ ?_)
  · rw [hnamed, hnamed]
    exact hne.symm
  · rw [hfile]
    exact nofun

/-- A file that is dealt with in write mode is found unchanged, or it is written and the temporary file
is gone. -/
theorem putFile_eq_ok {g : OutputFile} {r : FileOutcome} (hg : IsGenerated g)
    (h : putFile .write directory t g = (u, .ok r)) :
    (r.status = .unchanged ∧ u = t) ∨
      (r.status = .written ∧ u.fileAt? (t.named (temporaryFor (placeOf directory g))) = none) := by
  unfold putFile at h
  dsimp only at h
  split at h
  · cases h
  split at h
  · cases h
    exact .inl ⟨rfl, rfl⟩
  split at h
  · cases h
  · rename_i hreplaced
    cases h
    exact .inr ⟨rfl, temporary_replaceFile (named_ne_temporaryFor hg directory t _) hreplaced⟩

/-! ## 3. All files -/

/-- What is left of the regular files once files were dealt with: each is as it was, or it was written,
or it was a temporary file beside one that was written and is gone. -/
def Remains (directory : Path) (t u : FileTree) (results : List FileOutcome) : Prop :=
  ∀ q, u.fileAt? q = t.fileAt? q ∨ ∃ r ∈ results, r.status = .written ∧
    (q = t.named (pathOf directory r) ∨
      (q = t.named (temporaryFor (pathOf directory r)) ∧ (t.fileAt? q).isSome = true ∧
        u.fileAt? q = none))

/-- No temporary file is left beside a file that was written. -/
def Cleared (directory : Path) (u : FileTree) (results : List FileOutcome) : Prop :=
  ∀ r ∈ results, r.status = .written → u.fileAt? (u.named (temporaryFor (pathOf directory r))) = none

/-- Dealing with one file changes no regular file but its own, if it is written, and uses up the
temporary one. -/
theorem remains_putFile {g : OutputFile} {r : FileOutcome} (hg : IsGenerated g)
    (h : putFile .write directory t g = (u, .ok r)) :
    Remains directory t u [r] ∧ Cleared directory u [r] := by
  have hbuilt := built_putFile .write directory t g
  rw [h] at hbuilt
  have hpath : pathOf directory r = placeOf directory g := by
    rw [pathOf, relativePath_putFile h, placeOf]
  rcases putFile_eq_ok hg h with ⟨hstatus, rfl⟩ | ⟨hstatus, hgone⟩
  · refine ⟨fun q => .inl rfl, fun x hx hw => ?_⟩
    rw [List.mem_singleton.1 hx, hstatus] at hw
    cases hw
  · constructor
    · intro q
      by_cases hq : Beside t (placeOf directory g) q
      · rcases hq with hq | hq
        · exact .inr ⟨r, List.mem_singleton_self r, hstatus, .inl (hpath ▸ hq)⟩
        · rw [← hq] at hgone
          cases hold : t.fileAt? q with
          | none => exact .inl hgone
          | some b =>
            exact .inr ⟨r, List.mem_singleton_self r, hstatus, .inr ⟨hpath ▸ hq, rfl, hgone⟩⟩
      · exact .inl (hbuilt.fileAt? hq)
    · intro x hx _
      rw [List.mem_singleton.1 hx, hpath, hbuilt.named]
      exact hgone

/-- Files that are dealt with one after the other. -/
theorem Remains.trans {v : FileTree} {rs rs' : List FileOutcome} (hn : ∀ p, u.named p = t.named p)
    (h : Remains directory t u rs) (h' : Remains directory u v rs') :
    Remains directory t v (rs ++ rs') := by
  intro q
  rcases h' q with hsame | ⟨r, hr, hw, hq⟩
  · rw [hsame]
    refine (h q).imp_right fun ⟨r, hr, hw, hq⟩ => ⟨r, List.mem_append_left _ hr, hw, ?_⟩
    exact hq
  · rw [hn, hn] at hq
    rcases hq with hq | ⟨hq, -, hgone⟩
    · exact .inr ⟨r, List.mem_append_right _ hr, hw, .inl hq⟩
    · cases hold : t.fileAt? q with
      | none => exact .inl hgone
      | some b =>
        exact .inr ⟨r, List.mem_append_right _ hr, hw, .inr ⟨hq, rfl, hgone⟩⟩

/-- **What remains of the regular files when all generated files are dealt with.** -/
theorem remains_writeAll {files : List OutputFile} (hg : ∀ g ∈ files, IsGenerated g)
    (h : (writeAll .write directory t files).fault = none) :
    Remains directory t (writeAll .write directory t files).tree
        (writeAll .write directory t files).results ∧
      Cleared directory (writeAll .write directory t files).tree
        (writeAll .write directory t files).results := by
  induction files generalizing t with
  | nil => exact ⟨fun q => .inl rfl, nofun⟩
  | cons g rest ih =>
    have hbuilt := built_putFile .write directory t g
    have hall := built_writeAll .write directory t (g :: rest)
    rw [writeAll_cons] at h hall ⊢
    split at h
    · cases h
    rename_i u r hput
    rw [hput] at hbuilt
    rw [hput] at hall
    dsimp only at h hall ⊢
    have hgenerated : IsGenerated g := hg g List.mem_cons_self
    obtain ⟨hone, hclear⟩ := remains_putFile hgenerated hput
    obtain ⟨hrest, hclears⟩ := ih (fun x hx => hg x (List.mem_cons_of_mem _ hx)) h
    refine ⟨hone.trans hbuilt.named hrest, fun x hx hw => ?_⟩
    rcases List.mem_cons.1 hx with rfl | hx
    · -- the temporary file of the first one: a later file is none, and a later temporary one is gone too
      have hx := hclear x (List.mem_singleton_self x) hw
      rw [hbuilt.named] at hx
      rw [hall.named]
      rcases hrest (t.named (temporaryFor (pathOf directory x))) with hsame | ⟨r', hr', -, hq⟩
      · rw [hsame, hx]
      · rcases hq with hq | ⟨-, -, hgone⟩
        · have hname : r'.relativePath ∈ rest.map (·.relativePath) := by
            rw [← relativePaths_writeAll h]
            exact List.mem_map_of_mem hr'
          obtain ⟨g', hg', hname⟩ := List.mem_map.1 hname
          have hpath : pathOf directory r' = placeOf directory g' := by rw [pathOf, placeOf, hname]
          rw [hpath, hbuilt.named] at hq
          exact absurd hq.symm (named_ne_temporaryFor (hg g' (List.mem_cons_of_mem _ hg')) directory t _)
        · exact hgone
    · exact hclears x hx hw

/-! ## 4. Under the lock -/

/-- Dealing with a file in a mode that only looks changes nothing. -/
theorem tree_putFile_of_ne {mode : Mode} (hmode : mode ≠ .write) (directory : Path) (t : FileTree)
    (g : OutputFile) : (putFile mode directory t g).1 = t := by
  unfold putFile
  dsimp only
  split
  · rfl
  split
  · rfl
  split
  · rfl
  · rfl
  · exact absurd rfl hmode

theorem tree_writeAll_of_ne {mode : Mode} (hmode : mode ≠ .write) (directory : Path) (t : FileTree)
    (files : List OutputFile) : (writeAll mode directory t files).tree = t := by
  induction files with
  | nil => rfl
  | cons g r ih =>
    have hput := tree_putFile_of_ne hmode directory t g
    rw [writeAll_cons]
    split
    · rename_i h
      rw [h] at hput
      exact hput
    · rename_i h
      rw [h] at hput
      obtain rfl := hput
      exact ih

/-- **A run that only looks changes nothing**, whatever comes of it. -/
theorem tree_writeFiles_of_ne {mode : Mode} (hmode : mode ≠ .write) (directory : Path) (t : FileTree)
    (files : List OutputFile) : (writeFiles mode directory t files).tree = t := by
  rw [writeFiles, if_pos hmode]
  exact tree_writeAll_of_ne hmode directory t files

/-- Under the lock all files are dealt with, and the lock is given back. -/
theorem writeFiles_of_takeLock (h : takeLock t directory = (u, none)) (files : List OutputFile) :
    writeFiles .write directory t files =
      { writeAll .write directory u files with
        tree := releaseLock (writeAll .write directory u files).tree directory } := by
  rw [writeFiles, if_neg (by decide), h]

/-- **Where the lock is there already, nothing is changed**, in whatever mode. -/
theorem tree_writeFiles_of_locked (mode : Mode) (h : (t.find? (lockOf directory)).isSome = true)
    (files : List OutputFile) : (writeFiles mode directory t files).tree = t := by
  obtain ⟨e, he⟩ := Option.isSome_iff_exists.1 h
  obtain ⟨q, hq, he⟩ := Option.bind_eq_some_iff.1 he
  have hlocate : t.locate (lockOf directory) = .ok q := by
    cases hl : t.locate (lockOf directory) with
    | error c =>
      rw [hl] at hq
      cases hq
    | ok q' =>
      rw [hl] at hq
      rw [Option.some.inj hq]
  have hparent : (lockOf directory).parent = directory := by
    rw [Path.parent]
    exact congrArg (Path.mk directory.anchor) List.dropLast_concat
  have hmade : t.isDirectory directory = true := by
    rw [← hparent]
    exact isDirectory_parent (List.concat_ne_nil _ directory.parts) hlocate
  have hrefused : t.createNew (lockOf directory) "1".toUTF8 = .error (.at .fileExists (lockOf directory)) := by
    rw [createNew, hlocate]
    dsimp only
    rw [he]
    rfl
  have htake : takeLock t directory = (t, some (.locked directory (lockOf directory))) := by
    rw [takeLock, makeDirectories_of_isDirectory hmade]
    dsimp only
    rw [hrefused]
    rfl
  unfold writeFiles
  split
  · rename_i hmode
    exact tree_writeAll_of_ne hmode directory t files
  · rw [htake]

/-- **What a run leaves that writes all files**: every regular file is as it was, or it was written, or
it was a temporary file beside one that was written and is gone. No temporary file is left beside a
written one, and the lock is given back. -/
theorem remains_writeFiles {files : List OutputFile} (hg : ∀ g ∈ files, IsGenerated g)
    (h : (writeFiles .write directory t files).fault = none) :
    Remains directory t (writeFiles .write directory t files).tree
        (writeFiles .write directory t files).results ∧
      Cleared directory (writeFiles .write directory t files).tree
        (writeFiles .write directory t files).results ∧
      Unlocked (writeFiles .write directory t files).tree directory := by
  unfold writeFiles at h ⊢
  rw [if_neg (by decide)] at h ⊢
  split at h
  · cases h
  rename_i u htaken
  dsimp only at h ⊢
  have hbuilt := built_takeLock t directory
  rw [htaken] at hbuilt
  dsimp only at hbuilt
  obtain ⟨hlocked, hfree⟩ := locked_takeLock htaken
  have hwritten := built_writeAll .write directory u files
  obtain ⟨hreleased, hunlocked⟩ := (hlocked.of_built hg hwritten).releaseLock
  rw [hwritten.named, hbuilt.named] at hreleased
  obtain ⟨hremains, hcleared⟩ := remains_writeAll hg h
  have hlock : (releaseLock (writeAll .write directory u files).tree directory).fileAt?
      (t.named (lockOf directory)) = t.fileAt? (t.named (lockOf directory)) := by
    have hnone := hunlocked.get?_lockOf
    rw [hreleased.named, hwritten.named, hbuilt.named] at hnone
    rw [fileAt?_of_none hnone, fileAt?_of_none hfree]
  refine ⟨fun q => ?_, fun r hr hw => ?_, hunlocked⟩
  · by_cases hq : q = t.named (lockOf directory)
    · rw [hq]
      exact .inl hlock
    · rw [hreleased.fileAt? hq]
      simpa only [hbuilt.named, hbuilt.fileAt? hq] using hremains q
  · have hgone := hcleared r hr hw
    rw [hreleased.named, ← hgone]
    refine hreleased.fileAt? fun hq => ?_
    have hend := ending_temporaryFor (writeAll .write directory u files).tree (pathOf directory r)
    rw [hq, ending_lockOf] at hend
    exact absurd hend (by decide)

end Output

end NativeGlue
