import NativeGlue.Proofs.Output.Remains
import NativeGlue.Proofs.Run.Again

/-!
# Work that touches nothing

The work on a target leaves the tree as it is unless it comes to writing: it does so if no plan is
made, if the lock of the output directory is there, and in the modes that only look. Work that writes
all files changes no regular file but those it reports as written, and leaves neither its lock nor a
temporary file (`untouched_workOn`).
-/

namespace NativeGlue.Run

open NativeGlue.FileTree NativeGlue.Output

/-- What is left of the regular files when all files of a target were written: each is as it was, or it
was reported as written, or it was a temporary file beside one of these and is gone; and neither the
lock nor a temporary file beside a written one is there. -/
structure LeavesOnly (target : Target) (t u : FileTree) (files : List FileOutcome) : Prop where
  remains : Remains target.outputDir t u files
  cleared : Cleared target.outputDir u files
  unlocked : u.find? (lockOf target.outputDir) = none

theorem find?_lockOf_of_unlocked {t : FileTree} {directory : Path} (h : Unlocked t directory) :
    t.find? (lockOf directory) = none := by
  rw [find?, h.reached]
  exact h.get?_lockOf

variable {s after : Session} {settings : Settings} {defines : List (String × String)}
  {target : Target} {result : Except Crash Outcome}

/-- Where no plan is made, nothing is touched. -/
theorem tree_of_stopped {e : Stopped}
    (hplan : plan settings defines s.tree target (s.storeFor target) = .error e) :
    (s.workOn settings defines target).1.tree = s.tree := by
  have hremember := s.tree_remember target
  unfold Session.workOn
  dsimp only
  split
  · exact hremember
  · exact hremember
  · rename_i p hp
    rw [hplan] at hp
    cases hp

/-- Where a plan is made, the tree is what writing leaves. -/
theorem tree_of_planned {p : Plan}
    (hplan : plan settings defines s.tree target (s.storeFor target) = .ok p) :
    (s.workOn settings defines target).1.tree =
      (writeFiles settings.mode target.outputDir s.tree p.files).tree := by
  unfold Session.workOn
  dsimp only
  rw [hplan]
  dsimp only
  split
  · rfl
  · rfl
  · rfl

/-- The tree that the work on a target leaves: the one before it, or what writing made of it. -/
theorem tree_workOn (s : Session) (settings : Settings) (defines : List (String × String))
    (target : Target) : (s.workOn settings defines target).1.tree = s.tree ∨
      ∃ p, plan settings defines s.tree target (s.storeFor target) = .ok p ∧
        (s.workOn settings defines target).1.tree =
          (writeFiles settings.mode target.outputDir s.tree p.files).tree := by
  cases hplan : plan settings defines s.tree target (s.storeFor target) with
  | error e => exact .inl (tree_of_stopped hplan)
  | ok p => exact .inr ⟨p, rfl, tree_of_planned hplan⟩

/-- An outcome whose history does not come to writing is one of work for which no plan was made. -/
theorem stopped_of_history {o : Outcome}
    (h : s.workOn settings defines target = (after, .ok o)) (ho : Stage.diffing ∉ o.history) :
    ∃ e, plan settings defines s.tree target (s.storeFor target) = .error e := by
  cases hplan : plan settings defines s.tree target (s.storeFor target) with
  | error e => exact ⟨e, rfl⟩
  | ok p =>
    have hends : Stage.diffing ∈ Stage.diffing.upTo ∧ Stage.diffing ∈ Stage.written.before := by decide
    have hcame : Stage.diffing ∈ o.history := by
      unfold Session.workOn at h
      dsimp only at h
      rw [hplan] at h
      dsimp only at h
      split at h
      · cases h
      · cases h
        exact hends.1
      · cases h
        exact hends.2
    exact absurd hcame ho

/-- Work that writes all files leaves only these. -/
theorem leavesOnly_of_workOn {o : Outcome} (hmode : settings.mode = .write)
    (h : s.workOn settings defines target = (after, .ok o)) (hok : o.ok = true) :
    LeavesOnly target s.tree after.tree o.files := by
  obtain ⟨p, w, hplan, rfl, hfault, rfl, rfl⟩ := planned_of_workOn h hok
  have hgenerated := isGenerated_of_filesOf (filesOf_plan hplan)
  rw [hmode] at hfault ⊢
  obtain ⟨hremains, hcleared, hunlocked⟩ := remains_writeFiles hgenerated hfault
  exact ⟨hremains, hcleared, find?_lockOf_of_unlocked hunlocked⟩

/-- **Nothing is touched unless writing begins.** The work on a target leaves the tree as it is if no
plan is made for it, if it fails before files are compared, if the lock of the output directory is
there, and if it only looks. Where it writes all files, no regular file differs from before but those
reported as written and the temporary files beside them that were there already, and neither the lock
nor a temporary file of the run is left. -/
theorem untouched_workOn (h : s.workOn settings defines target = (after, result)) :
    (∀ e, plan settings defines s.tree target (s.storeFor target) = .error e → after.tree = s.tree) ∧
      (∀ o, result = .ok o → Stage.diffing ∉ o.history → after.tree = s.tree) ∧
      ((s.tree.find? (lockOf target.outputDir)).isSome = true → after.tree = s.tree) ∧
      (settings.mode ≠ .write → after.tree = s.tree) ∧
      ∀ o, settings.mode = .write → result = .ok o → o.ok = true →
        LeavesOnly target s.tree after.tree o.files := by
  have hafter : (s.workOn settings defines target).1.tree = after.tree := by rw [h]
  have htree := tree_workOn s settings defines target
  rw [hafter] at htree
  refine ⟨fun e he => ?_, fun o ho hd => ?_, fun hlocked => ?_, fun hmode => ?_, fun o hmode ho hok => ?_⟩
  · rw [← hafter]
    exact tree_of_stopped he
  · rw [ho] at h
    obtain ⟨e, he⟩ := stopped_of_history h hd
    rw [← hafter]
    exact tree_of_stopped he
  · rcases htree with htree | ⟨p, -, htree⟩
    · exact htree
    · rw [htree]
      exact tree_writeFiles_of_locked settings.mode hlocked p.files
  · rcases htree with htree | ⟨p, -, htree⟩
    · exact htree
    · rw [htree]
      exact tree_writeFiles_of_ne hmode target.outputDir s.tree p.files
  · rw [ho] at h
    exact leavesOnly_of_workOn hmode h hok

/-- A tree whose output directory is locked. -/
def heldSession : Session :=
  sessionOf [(["src"], .directory), (["out"], .directory), (["out", ".jnigen.lock"], .file "".toUTF8)]

/-- A tree in which somebody left a temporary file, which is used up; one that is locked; one without
sources; and a run that only looks. -/
theorem untouched_sessions :
    (∃ after o, besideSession.workOn {} [] plainTarget = (after, .ok o) ∧ o.changed.length = 3 ∧
      (besideSession.tree.fileAt? ["out", ".natives_stats.h.tmp"]).isSome = true ∧
      LeavesOnly plainTarget besideSession.tree after.tree o.files) ∧
    (heldSession.workOn {} [] plainTarget).1.tree = heldSession.tree ∧
    ((sessionOf []).workOn {} [] plainTarget).1.tree = (sessionOf []).tree ∧
    (besideSession.workOn { mode := .check } [] plainTarget).1.tree = besideSession.tree := by
  have hwritten : ∃ o ∈ (besideSession.workOn {} [] plainTarget).2.toOption, o.ok = true ∧
      o.changed.length = 3 := by
    decide +kernel
  have hfailed : ∃ o ∈ ((sessionOf []).workOn {} [] plainTarget).2.toOption,
      Stage.diffing ∉ o.history := by
    decide +kernel
  obtain ⟨o, ho, hok, hchanged⟩ := hwritten
  obtain ⟨o', ho', hstopped⟩ := hfailed
  have hwork : besideSession.workOn {} [] plainTarget =
      ((besideSession.workOn {} [] plainTarget).1, .ok o) := Prod.ext rfl (ok_of_toOption ho)
  have hstop : (sessionOf []).workOn {} [] plainTarget =
      (((sessionOf []).workOn {} [] plainTarget).1, .ok o') := Prod.ext rfl (ok_of_toOption ho')
  refine ⟨⟨_, o, hwork, hchanged, by decide, ?_⟩, ?_, ?_, ?_⟩
  · exact (untouched_workOn hwork).2.2.2.2 o rfl rfl hok
  · exact (untouched_workOn rfl).2.2.1 (by decide +kernel)
  · exact (untouched_workOn hstop).2.1 o' rfl hstopped
  · exact (untouched_workOn rfl).2.2.2.1 (by decide)

end NativeGlue.Run
