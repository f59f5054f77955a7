import NativeGlue.Proofs.Output.Remains

/-!
# How far writing has come

Files are written one after the other, so wherever a run stops, a first part of the files is written and
all others are as they were (`exists_progress`). Whatever stops it, a file that could not be put in its
place is not touched (`fileAt?_putFile_error`).
-/

namespace NativeGlue.Output

open NativeGlue.FileTree NativeGlue.Code

variable {t u : FileTree} {directory : Path}

/-- A file that cannot be replaced leaves at most a temporary file behind. -/
theorem built_replaceFile_error {p : Path} {bytes : ByteArray} {e : OsError}
    (h : replaceFile t p bytes = (u, some e)) : Built (· = t.named (temporaryFor p)) t u := by
  have hopened : Built (· = t.named (temporaryFor p)) t (t.makeDirectories p.parent).1 :=
    (opened_makeDirectories t p.parent).mono fun _ hq => hq.elim
  unfold replaceFile at h
  split at h
  · rename_i hmade
    cases h
    rw [hmade] at hopened
    exact hopened
  rename_i made hmade
  rw [hmade] at hopened
  split at h
  · cases h
    exact hopened
  rename_i filled hfilled
  split at h
  · cases h
    obtain ⟨hwritten, -⟩ := sameBut_writeBytes hfilled
    refine hopened.trans (hwritten.built fun q hq => ?_)
    exact (List.mem_singleton.1 hq).trans (hopened.named _)
  · cases h

/-- A generated file that cannot be put in its place is as it was. -/
theorem fileAt?_putFile_error {g : OutputFile} {e : OsError} (hg : IsGenerated g)
    (h : putFile .write directory t g = (u, .error e)) :
    u.fileAt? (t.named (placeOf directory g)) = t.fileAt? (t.named (placeOf directory g)) := by
  unfold putFile at h
  dsimp only at h
  split at h
  · cases h
    rfl
  split at h
  · cases h
  split at h
  · rename_i hreplaced
    cases h
    exact (built_replaceFile_error hreplaced).fileAt? (named_ne_temporaryFor hg directory t _)
  · cases h

/-- A generated file is not touched while others are dealt with, if none of them shares its place. -/
theorem fileAt?_of_built {files : List OutputFile} {g : OutputFile} (hg : IsGenerated g)
    (hd : ∀ x ∈ files, t.named (placeOf directory x) ≠ t.named (placeOf directory g))
    (h : Built (Belongs t directory files) t u) :
    u.fileAt? (t.named (placeOf directory g)) = t.fileAt? (t.named (placeOf directory g)) := by
  refine h.fileAt? ?_
  rintro ⟨x, hx, hq | hq⟩
  · exact hd x hx hq.symm
  · exact named_ne_temporaryFor hg directory t _ hq

/-- **Wherever writing stops, a first part of the files is written and the others are as they were**, if
no two of them share a place. Where nothing stopped it, that part is all files it came to. -/
theorem exists_progress {files : List OutputFile} (hg : ∀ g ∈ files, IsGenerated g)
    (hd : (files.map fun g => t.named (placeOf directory g)).Nodup) (n : Nat) :
    ∃ k, (∀ g ∈ files.take k, (writeAll .write directory t (files.take n)).tree.fileAt?
        (t.named (placeOf directory g)) = some g.content.toUTF8) ∧
      (∀ g ∈ files.drop k, (writeAll .write directory t (files.take n)).tree.fileAt?
        (t.named (placeOf directory g)) = t.fileAt? (t.named (placeOf directory g))) ∧
      ((writeAll .write directory t (files.take n)).fault = none → k = min n files.length) := by
  induction files generalizing t n with
  | nil => exact ⟨0, nofun, nofun, fun _ => (Nat.min_zero n).symm⟩
  | cons x r ih =>
    cases n with
    | zero => exact ⟨0, nofun, fun g _ => rfl, fun _ => (Nat.zero_min _).symm⟩
    | succ n =>
      have hx := hg x List.mem_cons_self
      have hr : ∀ g ∈ r, IsGenerated g := fun g hm => hg g (List.mem_cons_of_mem _ hm)
      rw [List.map_cons, List.nodup_cons] at hd
      have hother : ∀ g ∈ r, t.named (placeOf directory x) ≠ t.named (placeOf directory g) :=
        fun g hm he => hd.1 (he ▸ List.mem_map_of_mem hm)
      have hbuilt := built_putFile .write directory t x
      have hsingle : Built (Belongs t directory [x]) t (putFile .write directory t x).1 :=
        hbuilt.mono fun q hq => ⟨x, List.mem_singleton_self x, hq⟩
      rw [List.take_succ_cons, writeAll_cons]
      split
      · rename_i u e hput
        rw [hput] at hsingle
        refine ⟨0, nofun, fun g hm => ?_, nofun⟩
        rcases List.mem_cons.1 hm with rfl | hm
        · exact fileAt?_putFile_error hx hput
        · refine fileAt?_of_built (hr g hm) (fun y hy => ?_) hsingle
          rw [List.mem_singleton.1 hy]
          exact hother g hm
      · rename_i u result hput
        rw [hput] at hbuilt hsingle
        dsimp only at hbuilt hsingle ⊢
        have hnamed : ∀ p : Path, u.named p = t.named p := hbuilt.named
        have hdr : (r.map fun g => u.named (placeOf directory g)).Nodup := by
          simpa only [hnamed] using hd.2
        obtain ⟨k, hwritten, hrest, hall⟩ := ih hr hdr n
        simp only [hnamed] at hwritten hrest
        refine ⟨k + 1, fun g hm => ?_, fun g hm => ?_, fun hnone => ?_⟩
        · rw [List.take_succ_cons] at hm
          rcases List.mem_cons.1 hm with rfl | hm
          · have hlater := built_writeAll .write directory u (r.take n)
            rw [← hnamed, ← fileAt?_of_readBytes (holds_putFile hput)]
            refine fileAt?_of_built hx (fun y hy => ?_) hlater
            rw [hnamed, hnamed]
            exact (hother y (List.mem_of_mem_take hy)).symm
          · exact hwritten g hm
        · rw [List.drop_succ_cons] at hm
          rw [hrest g hm]
          refine fileAt?_of_built (hr g (List.mem_of_mem_drop hm)) (fun y hy => ?_) hsingle
          rw [List.mem_singleton.1 hy]
          exact hother g (List.mem_of_mem_drop hm)
        · rw [hall hnone, List.length_cons]
          omega

/-- **Under the lock too, wherever a run stops**: a first part of the files is written and the others
are as they were, whether or not the lock is given back. -/
theorem exists_progress_locked {files : List OutputFile} (hg : ∀ g ∈ files, IsGenerated g)
    (hlock : takeLock t directory = (u, none))
    (hd : (files.map fun g => t.named (placeOf directory g)).Nodup) (n : Nat) {v : FileTree}
    (hv : v = (writeAll .write directory u (files.take n)).tree ∨
      v = releaseLock (writeAll .write directory u (files.take n)).tree directory) :
    ∃ k, (∀ g ∈ files.take k,
        v.fileAt? (v.named (placeOf directory g)) = some g.content.toUTF8) ∧
      (∀ g ∈ files.drop k,
        v.fileAt? (v.named (placeOf directory g)) = t.fileAt? (t.named (placeOf directory g))) ∧
      ((writeAll .write directory u (files.take n)).fault = none → k = min n files.length) := by
  have htaken := built_takeLock t directory
  rw [hlock] at htaken
  dsimp only at htaken
  have hdu : (files.map fun g => u.named (placeOf directory g)).Nodup := by
    simpa only [htaken.named] using hd
  have hgn : ∀ g ∈ files.take n, IsGenerated g := fun g hm => hg g (List.mem_of_mem_take hm)
  have hwritten := built_writeAll .write directory u (files.take n)
  have hreleased := ((locked_takeLock hlock).1.of_built hgn hwritten).releaseLock.1
  have hv : v.named = t.named ∧ ∀ g ∈ files, v.fileAt? (t.named (placeOf directory g)) =
      (writeAll .write directory u (files.take n)).tree.fileAt? (t.named (placeOf directory g)) := by
    rcases hv with rfl | rfl
    · exact ⟨funext fun p => (hwritten.named p).trans (htaken.named p), fun g _ => rfl⟩
    · refine ⟨funext fun p => ((hreleased.named p).trans (hwritten.named p)).trans (htaken.named p),
        fun g hm => hreleased.fileAt? ?_⟩
      rw [hwritten.named, htaken.named]
      exact named_ne_lockOf (hg g hm) directory t
  obtain ⟨k, hfirst, hrest, hall⟩ := exists_progress hg hdu n
  simp only [htaken.named] at hfirst hrest
  refine ⟨k, fun g hm => ?_, fun g hm => ?_, hall⟩
  · rw [hv.1, hv.2 g (List.mem_of_mem_take hm)]
    exact hfirst g hm
  · rw [hv.1, hv.2 g (List.mem_of_mem_drop hm), hrest g hm]
    exact htaken.fileAt? (named_ne_lockOf (hg g (List.mem_of_mem_drop hm)) directory t)

end NativeGlue.Output
