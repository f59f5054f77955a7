import NativeGlue.Output
import NativeGlue.Proofs.FileTree.Endings
import NativeGlue.Proofs.Keyed

/-!
# What writing leaves

Writing touches the places of the generated files, of the temporary files beside them and of the lock,
and makes directories, whatever comes of it (`built_writeFiles`). Where it goes well, each file holds
what was generated for it in the end if no two files share a place (`holds_writeFiles`). Where all files
hold that already, nothing is changed in any mode (`writeFiles_of_holds`).
-/

namespace NativeGlue.Output

open NativeGlue.FileTree NativeGlue.Code

variable {t u : FileTree} {directory : Path}

/-! ## 1. Names -/

/-- Whether a generated file has the name of a header, of a source or of a table. -/
def IsGenerated (g : OutputFile) : Prop := ∃ c ∈ ['h', 'c', 'n'], g.relativePath.toList.getLast? = some c

/-- The place of a generated file ends as its name does. -/
theorem IsGenerated.ending {g : OutputFile} (h : IsGenerated g) (directory : Path) (t : FileTree) :
    ∃ c ∈ ['h', 'c', 'n'], (t.named (placeOf directory g)).ending = some c := by
  obtain ⟨c, hc, hg⟩ := h
  have hplain : c ≠ '/' ∧ c ≠ '.' := by
    have hall : ∀ c ∈ ['h', 'c', 'n'], c ≠ '/' ∧ c ≠ '.' := by decide
    exact hall c hc
  exact ⟨c, hc, ending_named t (Path.ending_join directory
    (Path.ending_ofString hg hplain.1 hplain.2)) hplain.2⟩

theorem ending_temporaryFor (t : FileTree) (p : Path) :
    (t.named (temporaryFor p)).ending = some 'p' := by
  refine ending_named t ?_ (by decide)
  rw [Path.ending, temporaryFor, Path.withName, Place.ending_concat, String.toList_append,
    List.getLast?_append]
  rfl

theorem ending_lockOf (t : FileTree) (directory : Path) :
    (t.named (lockOf directory)).ending = some 'k' :=
  ending_named t (Path.ending_join directory (Path.ending_ofString rfl (by decide) (by decide)))
    (by decide)

/-! ## 2. One file -/

/-- The place of a file, and the one of the temporary file beside it. -/
def Beside (t : FileTree) (p : Path) (q : Place) : Prop := q = t.named p ∨ q = t.named (temporaryFor p)

/-- A file is put in its place by way of the temporary one. Where that fails, nothing else is touched
either. -/
theorem built_replaceFile (t : FileTree) (p : Path) (bytes : ByteArray) :
    Built (Beside t p) t (replaceFile t p bytes).1 ∧
      ((replaceFile t p bytes).2 = none → (replaceFile t p bytes).1.readBytes p = .ok bytes) := by
  have hopened : Built (Beside t p) t (t.makeDirectories p.parent).1 :=
    (opened_makeDirectories t p.parent).mono fun _ hq => hq.elim
  unfold replaceFile
  split
  · rename_i hmade
    rw [hmade] at hopened
    exact ⟨hopened, nofun⟩
  rename_i made hmade
  rw [hmade] at hopened
  split
  · exact ⟨hopened, nofun⟩
  rename_i filled hfilled
  obtain ⟨hwritten, hfile⟩ := sameBut_writeBytes hfilled
  have hfilled : Built (Beside t p) t filled := by
    refine hopened.trans (hwritten.built fun q hq => .inr ?_)
    exact (List.mem_singleton.1 hq).trans (hopened.named _)
  rw [← hwritten.named] at hfile
  split
  · exact ⟨hfilled, nofun⟩
  rename_i moved hmoved
  obtain ⟨hmove, hread⟩ := sameBut_moveFile hmoved hfile
  refine ⟨hfilled.trans (hmove.built fun q hq => ?_), fun _ => hread⟩
  rcases List.mem_cons.1 hq with hq | hq
  · exact .inr (hq.trans (hfilled.named _))
  · exact .inl ((List.mem_singleton.1 hq).trans (hfilled.named _))

/-- Whether a file holds what was generated for it. -/
def Holds (t : FileTree) (directory : Path) (g : OutputFile) : Prop :=
  t.readBytes (placeOf directory g) = .ok g.content.toUTF8

theorem readBytes_of_bytesAt {p : Path} {b : ByteArray} (h : bytesAt t p = .ok (some b)) :
    t.readBytes p = .ok b := by
  unfold bytesAt at h
  split at h
  · rename_i hb
    cases h
    exact hb
  · split at h
    · cases h
    · cases h

/-- Dealing with a file touches its own places only, however it ends. -/
theorem built_putFile (mode : Mode) (directory : Path) (t : FileTree) (g : OutputFile) :
    Built (Beside t (placeOf directory g)) t (putFile mode directory t g).1 := by
  unfold putFile
  dsimp only
  split
  · exact .refl t
  split
  · exact .refl t
  split
  · exact .refl t
  · exact .refl t
  · have hreplaced := (built_replaceFile t (placeOf directory g) g.content.toUTF8).1
    split
    · rename_i h
      rw [h] at hreplaced
      exact hreplaced
    · rename_i h
      rw [h] at hreplaced
      exact hreplaced

/-- A file holds what was generated for it once it is dealt with. -/
theorem holds_putFile {g : OutputFile} {r : FileOutcome}
    (h : putFile .write directory t g = (u, .ok r)) : Holds u directory g := by
  unfold putFile at h
  dsimp only at h
  split at h
  · cases h
  rename_i existing hexisting
  split at h
  · rename_i hsame
    cases h
    cases existing with
    | none => cases hsame
    | some b =>
      obtain rfl := sameBytes_iff.1 hsame
      exact readBytes_of_bytesAt hexisting
  · have hreplaced := (built_replaceFile t (placeOf directory g) g.content.toUTF8).2
    split at h
    · cases h
    · rename_i hr
      cases h
      rw [hr] at hreplaced
      exact hreplaced rfl

/-- The result for a file is told under its name. -/
theorem relativePath_putFile {mode : Mode} {g : OutputFile} {r : FileOutcome}
    (h : putFile mode directory t g = (u, .ok r)) : r.relativePath = g.relativePath := by
  unfold putFile at h
  dsimp only at h
  split at h
  · cases h
  split at h
  · cases h
    rfl
  split at h
  · cases h
    rfl
  · cases h
    rfl
  · split at h
    · cases h
    · cases h
      rfl

/-- A file that holds what is generated for it is left alone. -/
theorem putFile_of_holds (mode : Mode) {g : OutputFile} (h : Holds t directory g) :
    putFile mode directory t g = (t, .ok ⟨g.relativePath, .unchanged, ""⟩) := by
  have hbytes : bytesAt t (placeOf directory g) = .ok (some g.content.toUTF8) := by
    rw [bytesAt, h]
  unfold putFile
  dsimp only
  rw [hbytes]
  exact if_pos (sameBytes_iff.2 rfl)

/-! ## 3. All files -/

/-- The places that belong to generated files. -/
def Belongs (t : FileTree) (directory : Path) (files : List OutputFile) (q : Place) : Prop :=
  ∃ g ∈ files, Beside t (placeOf directory g) q

theorem writeAll_cons (mode : Mode) (directory : Path) (t : FileTree) (g : OutputFile)
    (r : List OutputFile) :
    writeAll mode directory t (g :: r) =
      match putFile mode directory t g with
      | (t, .error e) => { tree := t, fault := some (.os e) }
      | (t, .ok result) =>
        { writeAll mode directory t r with results := result :: (writeAll mode directory t r).results } :=
  (rfl)

/-- Where no file was refused, the results are told in the order of the files. -/
theorem relativePaths_writeAll {mode : Mode} {files : List OutputFile}
    (h : (writeAll mode directory t files).fault = none) :
    (writeAll mode directory t files).results.map (·.relativePath) = files.map (·.relativePath) := by
  induction files generalizing t with
  | nil => rfl
  | cons g r ih =>
    rw [writeAll_cons] at h ⊢
    split at h
    · cases h
    rename_i hput
    dsimp only at h ⊢
    rw [List.map_cons, List.map_cons, ih h, relativePath_putFile hput]

/-- Whatever comes of it, only the places of the files are touched. -/
theorem built_writeAll (mode : Mode) (directory : Path) (t : FileTree) (files : List OutputFile) :
    Built (Belongs t directory files) t (writeAll mode directory t files).tree := by
  induction files generalizing t with
  | nil => exact .refl t
  | cons g r ih =>
    have hput : Built (Belongs t directory (g :: r)) t (putFile mode directory t g).1 :=
      (built_putFile mode directory t g).mono fun q hq => ⟨g, List.mem_cons_self, hq⟩
    rw [writeAll_cons]
    split
    · rename_i h
      rw [h] at hput
      exact hput
    · rename_i u result h
      rw [h] at hput
      refine hput.trans ((ih u).mono ?_)
      rintro q ⟨x, hx, hq⟩
      rw [Beside, hput.named, hput.named] at hq
      exact ⟨x, List.mem_cons_of_mem _ hx, hq⟩

/-- No generated file stands at the place of a temporary one. -/
theorem named_ne_temporaryFor {g : OutputFile} (hg : IsGenerated g) (directory : Path) (t : FileTree)
    (p : Path) : t.named (placeOf directory g) ≠ t.named (temporaryFor p) := by
  obtain ⟨c, hc, hend⟩ := hg.ending directory t
  intro h
  rw [h, ending_temporaryFor] at hend
  rw [← Option.some.inj hend] at hc
  exact absurd hc (by decide)

/-- **All files hold what was generated for them in the end**, if no two of them share a place and none
stands where the temporary file of one stands. -/
theorem holds_writeAll {files : List OutputFile}
    (hown : ∀ g ∈ files, ∀ x ∈ files,
      t.named (placeOf directory g) ≠ t.named (temporaryFor (placeOf directory x)))
    (hd : (files.map fun g => t.named (placeOf directory g)).Nodup)
    (h : (writeAll .write directory t files).fault = none) :
    ∀ g ∈ files, Holds (writeAll .write directory t files).tree directory g := by
  induction files generalizing t with
  | nil => exact nofun
  | cons g r ih =>
    have hput := built_putFile .write directory t g
    rw [writeAll_cons] at h ⊢
    split at h
    · cases h
    rename_i u result hg'
    rw [hg'] at hput
    dsimp only at h ⊢
    have hnamed : ∀ p : Path, u.named p = t.named p := hput.named
    rw [List.map_cons, List.nodup_cons] at hd
    have hdr : (r.map fun g => u.named (placeOf directory g)).Nodup := by
      simpa only [hnamed] using hd.2
    intro x hx
    rcases List.mem_cons.1 hx with rfl | hx
    · refine (built_writeAll .write directory u r).readBytes (holds_putFile hg') ?_
      rintro ⟨y, hy, hq | hq⟩
      · rw [hnamed, hnamed] at hq
        exact hd.1 (hq ▸ List.mem_map_of_mem hy)
      · rw [hnamed, hnamed] at hq
        exact hown x List.mem_cons_self y (List.mem_cons_of_mem _ hy) hq
    · refine ih (fun y hy z hz => ?_) hdr h x hx
      rw [hnamed, hnamed]
      exact hown y (List.mem_cons_of_mem _ hy) z (List.mem_cons_of_mem _ hz)

/-- The last file holds what was generated for it in any case. -/
theorem holds_writeAll_concat {files : List OutputFile} {g : OutputFile}
    (h : (writeAll .write directory t (files ++ [g])).fault = none) :
    Holds (writeAll .write directory t (files ++ [g])).tree directory g := by
  induction files generalizing t with
  | nil =>
    rw [List.nil_append, writeAll_cons] at h ⊢
    split at h
    · cases h
    rename_i hput
    exact holds_putFile hput
  | cons x r ih =>
    rw [List.cons_append, writeAll_cons] at h ⊢
    split at h
    · cases h
    exact ih h

/-- Files that hold what is generated for them are left alone. -/
theorem writeAll_of_holds (mode : Mode) {files : List OutputFile}
    (h : ∀ g ∈ files, Holds t directory g) :
    writeAll mode directory t files =
      { tree := t, results := files.map fun g => ⟨g.relativePath, .unchanged, ""⟩ } := by
  induction files with
  | nil => rfl
  | cons g r ih =>
    rw [writeAll_cons, putFile_of_holds mode (h g List.mem_cons_self)]
    dsimp only
    rw [ih fun x hx => h x (List.mem_cons_of_mem _ hx)]
    rfl

/-! ## 4. The lock -/

/-- Whether an output directory is there and its lock can be taken. -/
structure Unlocked (t : FileTree) (directory : Path) : Prop where
  made : t.isDirectory directory = true
  reached : t.locate (lockOf directory) = .ok (t.named (lockOf directory))
  free : t.named (lockOf directory) ∉ t.entries.map (·.1)

/-- Whether the lock of an output directory is taken. -/
structure Locked (t : FileTree) (directory : Path) : Prop where
  made : t.isDirectory directory = true
  reached : t.locate (lockOf directory) = .ok (t.named (lockOf directory))
  taken : t.get? (t.named (lockOf directory)) = some (.file "1".toUTF8)

/-- Taking the lock touches its place only, however it ends. -/
theorem built_takeLock (t : FileTree) (directory : Path) :
    Built (· = t.named (lockOf directory)) t (takeLock t directory).1 := by
  have hopened : Built (· = t.named (lockOf directory)) t (t.makeDirectories directory).1 :=
    (opened_makeDirectories t directory).mono fun _ hq => hq.elim
  unfold takeLock
  split
  · rename_i hmade
    rw [hmade] at hopened
    exact hopened
  rename_i made hmade
  rw [hmade] at hopened
  split
  · rename_i hcreated
    obtain ⟨-, hnone, rfl⟩ := createNew_eq_ok hcreated
    have hfree : made.get? (made.named (lockOf directory)) ≠ some .directory := by
      intro hd
      rw [hnone] at hd
      cases hd
    refine hopened.trans ((sameBut_put hfree _).built fun q hq => ?_)
    exact (List.mem_singleton.1 hq).trans (hopened.named _)
  · split
    · exact hopened
    · exact hopened

/-- The lock is a new file, in a directory that may be new too. -/
theorem locked_takeLock (h : takeLock t directory = (u, none)) :
    Locked u directory ∧ t.get? (t.named (lockOf directory)) = none := by
  unfold takeLock at h
  split at h
  · cases h
  rename_i made hmade
  split at h
  · rename_i hcreated
    cases h
    have hopened := opened_makeDirectories t directory
    rw [hmade] at hopened
    obtain ⟨hlocate, hnone, rfl⟩ := createNew_eq_ok hcreated
    have hfree : made.get? (made.named (lockOf directory)) ≠ some .directory := by
      intro hd
      rw [hnone] at hd
      cases hd
    have hput := sameBut_put hfree (.file "1".toUTF8)
    refine ⟨⟨hput.isDirectory (isDirectory_makeDirectories hmade), hput.locate hlocate,
      get?_put made (ne_nil_of_get? hfree) _⟩, ?_⟩
    cases ht : t.get? (t.named (lockOf directory)) with
    | none => rfl
    | some e =>
      rw [hopened.named, hopened.get? id ht] at hnone
      cases hnone
  · split at h
    · cases h
    · cases h

/-- The lock is given back. -/
theorem Locked.releaseLock (h : Locked t directory) :
    Built (· = t.named (lockOf directory)) t (releaseLock t directory) ∧
      Unlocked (releaseLock t directory) directory := by
  have hremove : SameBut [t.named (lockOf directory)] t (t.remove (t.named (lockOf directory))) := by
    refine sameBut_remove fun hd => ?_
    rw [h.taken] at hd
    cases hd
  rw [Output.releaseLock, removeFile_of_locate h.reached]
  refine ⟨hremove.built fun q hq => List.mem_singleton.1 hq, hremove.isDirectory h.made, ?_, ?_⟩
  · rw [hremove.named]
    exact hremove.locate h.reached
  · rw [hremove.named]
    exact not_mem_remove _

theorem Unlocked.get?_lockOf (h : Unlocked t directory) :
    t.get? (t.named (lockOf directory)) = none := by
  have hne : t.named (lockOf directory) ≠ [] := by
    intro hnil
    have hend := ending_lockOf t directory
    rw [hnil] at hend
    cases hend
  rw [FileTree.get?, List.isEmpty_eq_false_iff.2 hne]
  exact lookup_eq_none.2 h.free

/-- The lock of a directory that is there is taken by one more file. -/
theorem takeLock_of_unlocked (h : Unlocked t directory) :
    takeLock t directory = (t.put (t.named (lockOf directory)) (.file "1".toUTF8), none) := by
  have hcreated : t.createNew (lockOf directory) "1".toUTF8 =
      .ok (t.put (t.named (lockOf directory)) (.file "1".toUTF8)) := by
    rw [createNew, h.reached]
    dsimp only
    rw [h.get?_lockOf]
    rfl
  unfold takeLock
  rw [makeDirectories_of_isDirectory h.made]
  dsimp only
  rw [hcreated]

/-- The lock belongs to no generated file. -/
theorem not_belongs_lockOf {files : List OutputFile} (hg : ∀ g ∈ files, IsGenerated g) :
    ¬Belongs t directory files (t.named (lockOf directory)) := by
  rintro ⟨g, hm, hq | hq⟩
  · obtain ⟨c, hc, hend⟩ := (hg g hm).ending directory t
    rw [← hq, ending_lockOf] at hend
    rw [← Option.some.inj hend] at hc
    exact absurd hc (by decide)
  · have hend := ending_temporaryFor t (placeOf directory g)
    rw [← hq, ending_lockOf] at hend
    exact absurd hend (by decide)

/-- The lock stays taken while files are dealt with. -/
theorem Locked.of_built {files : List OutputFile} (h : Locked t directory)
    (hg : ∀ g ∈ files, IsGenerated g) (hb : Built (Belongs t directory files) t u) :
    Locked u directory := by
  refine ⟨hb.isDirectory h.made, ?_, ?_⟩
  · rw [hb.named]
    exact hb.locate h.reached
  · rw [hb.named]
    exact hb.get? (not_belongs_lockOf hg) h.taken

/-! ## 5. The output directory -/

/-- The places that a run touches: those of its files, and the lock. -/
def Touched (t : FileTree) (directory : Path) (files : List OutputFile) (q : Place) : Prop :=
  Belongs t directory files q ∨ q = t.named (lockOf directory)

/-- The endings of headers, sources, tables, temporary files and locks. -/
def ownEndings : List Char := ['h', 'c', 'n', 'p', 'k']

/-- A place that a run may touch by the way it ends. -/
def Own (q : Place) : Prop := ∃ c ∈ ownEndings, q.ending = some c

theorem Own.ending_ne {q : Place} (h : Own q) {c : Char} (hc : c ∉ ownEndings) :
    q.ending ≠ some c := by
  obtain ⟨x, hx, hend⟩ := h
  intro hend'
  rw [hend] at hend'
  exact hc (Option.some.inj hend' ▸ hx)

theorem own_of_touched {files : List OutputFile} (hg : ∀ g ∈ files, IsGenerated g) {q : Place}
    (hq : Touched t directory files q) : Own q := by
  rcases hq with ⟨g, hm, rfl | rfl⟩ | rfl
  · obtain ⟨c, hc, hend⟩ := (hg g hm).ending directory t
    exact ⟨c, List.mem_append_left ['p', 'k'] hc, hend⟩
  · exact ⟨'p', by decide, ending_temporaryFor t _⟩
  · exact ⟨'k', by decide, ending_lockOf t directory⟩

theorem relativePaths_writeFiles {mode : Mode} {files : List OutputFile}
    (h : (writeFiles mode directory t files).fault = none) :
    (writeFiles mode directory t files).results.map (·.relativePath) =
      files.map (·.relativePath) := by
  unfold writeFiles at h ⊢
  split at h
  · rename_i hmode
    rw [if_pos hmode]
    exact relativePaths_writeAll h
  rename_i hmode
  rw [if_neg hmode]
  split at h
  · cases h
  exact relativePaths_writeAll h

/-- **Whatever comes of a run, nothing is touched** but the places of the files and of the lock. -/
theorem built_writeFiles (mode : Mode) (directory : Path) (t : FileTree) {files : List OutputFile}
    (hg : ∀ g ∈ files, IsGenerated g) :
    Built (Touched t directory files) t (writeFiles mode directory t files).tree := by
  have htaken : Built (Touched t directory files) t (takeLock t directory).1 :=
    (built_takeLock t directory).mono fun q hq => .inr hq
  unfold writeFiles
  split
  · exact (built_writeAll mode directory t files).mono fun q hq => .inl hq
  split
  · rename_i h
    rw [h] at htaken
    exact htaken
  rename_i u h
  rw [h] at htaken
  have hwritten := built_writeAll mode directory u files
  have hreleased := ((locked_takeLock h).1.of_built hg hwritten).releaseLock.1
  refine (htaken.trans (hwritten.mono ?_)).trans (hreleased.mono ?_)
  · rintro q ⟨g, hm, hq⟩
    rw [Beside, htaken.named, htaken.named] at hq
    exact .inl ⟨g, hm, hq⟩
  · rintro q hq
    rw [hwritten.named, htaken.named] at hq
    exact .inr hq

/-- **What a run leaves that writes all files**: each holds what was generated for it, and the lock is
given back. It was free before. -/
theorem holds_writeFiles {files : List OutputFile} (hg : ∀ g ∈ files, IsGenerated g)
    (hd : (files.map fun g => t.named (placeOf directory g)).Nodup)
    (h : (writeFiles .write directory t files).fault = none) :
    (∀ g ∈ files, Holds (writeFiles .write directory t files).tree directory g) ∧
      Unlocked (writeFiles .write directory t files).tree directory ∧
      t.get? (t.named (lockOf directory)) = none := by
  unfold writeFiles at h ⊢
  rw [if_neg (by decide)] at h ⊢
  split at h
  · cases h
  rename_i u htaken
  dsimp only at h ⊢
  obtain ⟨hlocked, hfree⟩ := locked_takeLock htaken
  have hbuilt := built_takeLock t directory
  rw [htaken] at hbuilt
  have hd' : (files.map fun g => u.named (placeOf directory g)).Nodup := by
    simpa only [hbuilt.named] using hd
  have hwritten := built_writeAll .write directory u files
  obtain ⟨hreleased, hunlocked⟩ := (hlocked.of_built hg hwritten).releaseLock
  refine ⟨fun g hm => ?_, hunlocked, hfree⟩
  have hown : ∀ x ∈ files, ∀ y ∈ files,
      u.named (placeOf directory x) ≠ u.named (temporaryFor (placeOf directory y)) :=
    fun x hx y _ => named_ne_temporaryFor (hg x hx) directory u _
  refine hreleased.readBytes (holds_writeAll hown hd' h g hm) fun hq => ?_
  exact not_belongs_lockOf hg ⟨g, hm, .inl hq.symm⟩

/-- The file that is written last holds what was generated for it, even if it shares its place. -/
theorem holds_writeFiles_concat {files : List OutputFile} {g : OutputFile}
    (hg : ∀ x ∈ files ++ [g], IsGenerated x)
    (h : (writeFiles .write directory t (files ++ [g])).fault = none) :
    Holds (writeFiles .write directory t (files ++ [g])).tree directory g := by
  unfold writeFiles at h ⊢
  rw [if_neg (by decide)] at h ⊢
  split at h
  · cases h
  rename_i u htaken
  have hwritten := built_writeAll .write directory u (files ++ [g])
  obtain ⟨hreleased, -⟩ := ((locked_takeLock htaken).1.of_built hg hwritten).releaseLock
  refine hreleased.readBytes (holds_writeAll_concat h) fun hq => not_belongs_lockOf hg ⟨g, ?_, .inl hq.symm⟩
  exact List.mem_append_right files (List.mem_singleton_self g)

/-- **Where all files hold what is generated for them, nothing is changed**, in whatever mode. -/
theorem writeFiles_of_holds (mode : Mode) {files : List OutputFile}
    (hg : ∀ g ∈ files, IsGenerated g) (h : ∀ g ∈ files, Holds t directory g)
    (hu : Unlocked t directory) :
    writeFiles mode directory t files =
      { tree := t, results := files.map fun g => ⟨g.relativePath, .unchanged, ""⟩ } := by
  unfold writeFiles
  split
  · exact writeAll_of_holds mode h
  have hput : SameBut [t.named (lockOf directory)] t
      (t.put (t.named (lockOf directory)) (.file "1".toUTF8)) := by
    refine sameBut_put ?_ _
    rw [hu.get?_lockOf]
    exact nofun
  have hlocked : ∀ g ∈ files,
      Holds (t.put (t.named (lockOf directory)) (.file "1".toUTF8)) directory g := by
    intro g hm
    have hbuilt : Built (· = t.named (lockOf directory)) t
        (t.put (t.named (lockOf directory)) (.file "1".toUTF8)) :=
      hput.built fun q hq => List.mem_singleton.1 hq
    exact hbuilt.readBytes (h g hm) fun hq => not_belongs_lockOf hg ⟨g, hm, .inl hq.symm⟩
  rw [takeLock_of_unlocked hu]
  dsimp only
  rw [writeAll_of_holds mode hlocked, releaseLock, removeFile_of_locate (hput.locate hu.reached),
    remove_put hu.free]

end NativeGlue.Output
