import NativeGlue.Proofs.Output.Written
import NativeGlue.Proofs.Run.Artefacts
import NativeGlue.Proofs.Source.Rescan
import NativeGlue.Run.Session

/-!
# What runs touch

Whatever comes of the work on a target, it touches nothing but places that end as a header, a source, a
table, a temporary file or a lock does, and makes directories (`built_workOn`). So does the work on any
targets one after the other (`built_stepsFrom`), and no run ever changes what is made of the sources
(`modelAt_stepsFrom`).
-/

namespace NativeGlue.Run

open NativeGlue.Code NativeGlue.FileTree NativeGlue.Output

/-! ## 1. One target -/

/-- All files of a target are named like generated files. -/
theorem isGenerated_of_filesOf {target : Target} {m : Model} {files : List OutputFile}
    (h : FilesOf target m files) : ∀ g ∈ files, IsGenerated g := by
  intro g hg
  have ends : ∀ (stem ending : String) (c : Char), c ∈ ['h', 'c', 'n'] →
      ending.toList.getLast? = some c → g.relativePath = stem ++ ending → IsGenerated g := by
    intro stem ending c hc hlast hpath
    refine ⟨c, hc, ?_⟩
    rw [hpath, String.toList_append, List.getLast?_append, hlast]
    rfl
  have hpath : g.relativePath ∈ files.map (·.relativePath) := List.mem_map_of_mem hg
  rw [relativePaths_of_filesOf h, List.mem_append, List.mem_flatMap, List.mem_singleton] at hpath
  rcases hpath with ⟨stem, -, hpath⟩ | hpath
  · rcases mem_headerAndSource.1 hpath with hpath | hpath
    · exact ends stem ".h" 'h' (by decide) rfl hpath
    · exact ends stem ".c" 'c' (by decide) rfl hpath
  · exact ends target.statsName "_stats.json" 'n' (by decide) rfl hpath

theorem Session.tree_remember (s : Session) (target : Target) : (s.remember target).tree = s.tree := by
  unfold remember
  split
  · rfl
  · rfl
  split
  · rfl
  split
  · rfl
  · rfl

/-- **Work on a target touches own places only**, however it ends. -/
theorem built_workOn (s : Session) (settings : Settings) (defines : List (String × String))
    (target : Target) : Built Own s.tree (s.workOn settings defines target).1.tree := by
  have hremember : (s.remember target).tree = s.tree := s.tree_remember target
  unfold Session.workOn
  dsimp only
  split
  · rw [hremember]
    exact .refl s.tree
  · rw [hremember]
    exact .refl s.tree
  rename_i p hplan
  have hgenerated := isGenerated_of_filesOf (filesOf_plan hplan)
  have hbuilt : Built Own s.tree
      (writeFiles settings.mode target.outputDir s.tree p.files).tree :=
    (built_writeFiles settings.mode target.outputDir s.tree hgenerated).mono fun q hq =>
      own_of_touched hgenerated hq
  split
  · exact hbuilt
  · exact hbuilt
  · exact hbuilt

/-! ## 2. Many targets -/

/-- **Work on targets one after the other touches own places only.** -/
theorem built_stepsFrom (settings : Settings) (defines : List (String × String)) (goOn : Bool)
    (s : Session) (targets : List Target) :
    Built Own s.tree (s.stepsFrom settings defines goOn targets).1.tree := by
  induction targets generalizing s with
  | nil => exact .refl s.tree
  | cons target r ih =>
    have hwork := built_workOn s settings defines target
    unfold Session.stepsFrom
    split
    · rename_i after c h
      rw [h] at hwork
      split
      · exact hwork.trans (ih after)
      · exact hwork
    · rename_i after result _ h
      rw [h] at hwork
      exact hwork.trans (ih after)

/-- **No run changes what is made of the sources.** -/
theorem modelAt_stepsFrom {settings : Settings} {defines : List (String × String)} {goOn : Bool}
    {s : Session} {targets : List Target} (hg : s.tree.Grounded) {rules : List Source.Exclusion}
    {store : Overlay.Store} {root : Path} {m : Model}
    (h : Source.modelAt s.tree rules store root = .ok m) :
    Source.modelAt (s.stepsFrom settings defines goOn targets).1.tree rules store root = .ok m := by
  exact Source.modelAt_of_built hg (built_stepsFrom settings defines goOn s targets)
    (fun q hq => hq.ending_ne (by decide)) h

end NativeGlue.Run
