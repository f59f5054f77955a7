import NativeGlue.Proofs.Fallible
import NativeGlue.Proofs.Output.Remains

/-!
# Writing that nothing hinders

Writing goes well if nothing stands in its way: the lock can be taken, and neither at the place of a
generated file nor at the one of the temporary file beside it is a directory (`writeFiles_of_open`).
Where it goes well, it leaves no new directory behind (`Filed`), so nothing stands in the way of a later
run either.
-/

namespace NativeGlue.Output

open NativeGlue.FileTree NativeGlue.Code

variable {t u v : FileTree} {directory : Path}

/-! ## 1. Clear paths -/

/-- A file can be put at a path: it leads somewhere, and no directory is there. -/
structure Clear (t : FileTree) (p : Path) : Prop where
  named : p.parts ≠ []
  reached : t.locate p = .ok (t.named p)
  free : t.get? (t.named p) ≠ some .directory

theorem clear_iff {p : Path} : Clear t p ↔ p.parts ≠ [] ∧
    (t.locate p).toOption = some (t.named p) ∧ t.get? (t.named p) ≠ some .directory := by
  constructor
  · rintro ⟨hne, hlocate, hfree⟩
    exact ⟨hne, by rw [hlocate]; rfl, hfree⟩
  · rintro ⟨hne, hlocate, hfree⟩
    exact ⟨hne, ok_of_toOption hlocate, hfree⟩

instance (t : FileTree) (p : Path) : Decidable (Clear t p) := decidable_of_iff _ clear_iff.symm

/-- One tree becomes another one by files that come and go; no directory does. -/
def Filed (t u : FileTree) : Prop :=
  ∃ places, SameBut places t u ∧ ∀ q ∈ places, u.get? q ≠ some .directory

theorem Filed.refl (t : FileTree) : Filed t t := ⟨[], .refl t, nofun⟩

theorem Filed.trans (h : Filed t u) (h' : Filed u v) : Filed t v := by
  obtain ⟨places, hs, hp⟩ := h
  obtain ⟨others, hs', ho⟩ := h'
  refine ⟨places ++ others, hs.trans hs', fun q hq => ?_⟩
  by_cases hq' : q ∈ others
  · exact ho q hq'
  · rw [hs'.get? hq']
    exact hp q ((List.mem_append.1 hq).resolve_right hq')

/-- A path that is clear stays so. -/
theorem Clear.of_filed {p : Path} (h : Clear t p) (hf : Filed t u) : Clear u p := by
  obtain ⟨places, hs, hp⟩ := hf
  refine ⟨h.named, ?_, ?_⟩
  · rw [hs.named]
    exact hs.locate h.reached
  · rw [hs.named]
    by_cases hq : t.named p ∈ places
    · exact hp _ hq
    · rw [hs.get? hq]
      exact h.free

theorem filed_put {q : Place} (h : t.get? q ≠ some .directory) (b : ByteArray) :
    Filed t (t.put q (.file b)) := by
  refine ⟨[q], sameBut_put h _, fun p hp => ?_⟩
  rw [List.mem_singleton.1 hp, get?_put t (ne_nil_of_get? h)]
  exact nofun

theorem filed_remove {q : Place} (h : t.get? q ≠ some .directory) : Filed t (t.remove q) := by
  refine ⟨[q], sameBut_remove h, fun p hp => ?_⟩
  rw [List.mem_singleton.1 hp]
  exact get?_remove_ne_directory h

/-! ## 2. One file -/

/-- A file is moved over a clear path. -/
theorem moveFile_of_clear {source destination : Path} {b : ByteArray} (hs : Clear t source)
    (hd : Clear t destination) (hb : t.get? (t.named source) = some (.file b)) :
    ∃ u, t.moveFile source destination = .ok u ∧ Filed t u := by
  refine ⟨(t.remove (t.named source)).put (t.named destination) (.file b), ?_, ?_⟩
  · rw [moveFile, hs.reached, hd.reached]
    dsimp only
    rw [hb]
    cases hx : t.get? (t.named destination) with
    | none => rfl
    | some e =>
      cases e with
      | file _ => rfl
      | directory => exact absurd hx hd.free
  · exact (filed_remove hs.free).trans (filed_put (get?_remove_ne_directory hd.free) b)

/-- A file is put in its place if its path and the one of the temporary file are clear. -/
theorem replaceFile_of_clear {p : Path} (hp : Clear t p) (htemp : Clear t (temporaryFor p))
    (bytes : ByteArray) : ∃ u, replaceFile t p bytes = (u, none) ∧ Filed t u := by
  have hwritten : t.writeBytes (temporaryFor p) bytes =
      .ok (t.put (t.named (temporaryFor p)) (.file bytes)) := by
    rw [writeBytes, htemp.reached]
    dsimp only
    rw [if_neg (by rw [beq_iff_eq]; exact htemp.free)]
  -- the temporary file is there now, and both paths are as clear as before
  have hfiled := filed_put htemp.free bytes
  obtain ⟨hsame, hfile⟩ := sameBut_writeBytes hwritten
  rw [← hsame.named] at hfile
  obtain ⟨u, hmoved, hfiled'⟩ := moveFile_of_clear (htemp.of_filed hfiled) (hp.of_filed hfiled) hfile
  refine ⟨u, ?_, hfiled.trans hfiled'⟩
  unfold replaceFile
  rw [makeDirectories_of_isDirectory (isDirectory_parent hp.named hp.reached)]
  dsimp only
  rw [hwritten]
  dsimp only
  rw [hmoved]

/-- Whether a generated file can be put in its place. -/
structure Open (t : FileTree) (directory : Path) (g : OutputFile) : Prop where
  place : Clear t (placeOf directory g)
  temporary : Clear t (temporaryFor (placeOf directory g))

instance (t : FileTree) (directory : Path) (g : OutputFile) : Decidable (Open t directory g) :=
  decidable_of_iff (Clear t (placeOf directory g) ∧ Clear t (temporaryFor (placeOf directory g)))
    ⟨fun h => ⟨h.1, h.2⟩, fun h => ⟨h.place, h.temporary⟩⟩

theorem Open.of_filed {g : OutputFile} (h : Open t directory g) (hf : Filed t u) :
    Open u directory g :=
  ⟨h.place.of_filed hf, h.temporary.of_filed hf⟩

/-- The bytes at a clear path, if there are any. -/
theorem bytesAt_of_clear {p : Path} (h : Clear t p) : ∃ b, bytesAt t p = .ok b := by
  unfold bytesAt readBytes
  rw [h.reached]
  dsimp only
  cases hq : t.get? (t.named p) with
  | none => exact ⟨none, rfl⟩
  | some e =>
    cases e with
    | file b => exact ⟨some b, rfl⟩
    | directory => exact absurd hq h.free

/-- A file is dealt with if it can be put in its place. -/
theorem putFile_of_open {g : OutputFile} (h : Open t directory g) :
    ∃ u r, putFile .write directory t g = (u, .ok r) ∧ Filed t u := by
  obtain ⟨existing, hexisting⟩ := bytesAt_of_clear h.place
  obtain ⟨u, hreplaced, hfiled⟩ := replaceFile_of_clear h.place h.temporary g.content.toUTF8
  unfold putFile
  dsimp only
  rw [hexisting]
  dsimp only
  split
  · exact ⟨t, _, rfl, .refl t⟩
  · rw [hreplaced]
    exact ⟨u, _, rfl, hfiled⟩

/-! ## 3. All files -/

theorem writeAll_of_open {files : List OutputFile} (h : ∀ g ∈ files, Open t directory g) :
    (writeAll .write directory t files).fault = none ∧
      Filed t (writeAll .write directory t files).tree := by
  induction files generalizing t with
  | nil => exact ⟨rfl, .refl t⟩
  | cons g r ih =>
    obtain ⟨u, result, hput, hfiled⟩ := putFile_of_open (h g List.mem_cons_self)
    obtain ⟨hfault, hrest⟩ := ih fun x hx => (h x (List.mem_cons_of_mem g hx)).of_filed hfiled
    rw [writeAll_cons, hput]
    exact ⟨hfault, hfiled.trans hrest⟩

/-- **All files are written if nothing stands in the way**, and then nothing stands in the way of a later
run: the lock can be taken again, and no directory has come. -/
theorem writeFiles_of_open {files : List OutputFile} (hg : ∀ g ∈ files, IsGenerated g)
    (hu : Unlocked t directory) (h : ∀ g ∈ files, Open t directory g) :
    (writeFiles .write directory t files).fault = none ∧
      Unlocked (writeFiles .write directory t files).tree directory ∧
      Filed t (writeFiles .write directory t files).tree := by
  have htaken := takeLock_of_unlocked hu
  obtain ⟨hlocked, -⟩ := locked_takeLock htaken
  have hlock : Filed t (t.put (t.named (lockOf directory)) (.file "1".toUTF8)) := by
    refine filed_put ?_ _
    rw [hu.get?_lockOf]
    exact (Option.some_ne_none _).symm
  obtain ⟨hfault, hfiled⟩ := writeAll_of_open fun g hm => (h g hm).of_filed hlock
  have hheld := hlocked.of_built hg (built_writeAll .write directory _ files)
  rw [writeFiles_of_takeLock htaken]
  refine ⟨hfault, hheld.releaseLock.2, (hlock.trans hfiled).trans ?_⟩
  rw [releaseLock, removeFile_of_locate hheld.reached]
  refine filed_remove ?_
  rw [hheld.taken]
  intro hdirectory
  cases hdirectory

end NativeGlue.Output
