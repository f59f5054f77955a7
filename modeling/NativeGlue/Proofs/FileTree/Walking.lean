import Mathlib.Data.String.Basic
import NativeGlue.Proofs.FileTree.Built

/-!
# Walking along a path

A walk along names is a walk along the first of them that goes on from where it ends
(`walk_append`). So what leads somewhere leads through directories: above a path that the system
follows there is a directory (`isDirectory_parent`).
-/

namespace NativeGlue

namespace Path

/-- A path is at least one character long. -/
theorem utf8ByteSize_toString (p : Path) : p.toString.utf8ByteSize =
    max 1 ((anchorText p.anchor).utf8ByteSize + ("/".intercalate p.parts).utf8ByteSize) := by
  rw [← String.utf8ByteSize_append]
  unfold Path.toString
  dsimp only
  split
  · rename_i h
    rw [beq_iff_eq.1 h]
    rfl
  · rename_i h
    rw [beq_iff_eq, ← String.utf8ByteSize_eq_zero_iff] at h
    omega

theorem utf8ByteSize_intercalate_append (s : String) (a b : List String) :
    (s.intercalate a).utf8ByteSize ≤ (s.intercalate (a ++ b)).utf8ByteSize := by
  by_cases ha : a = []
  · rw [ha]
    exact Nat.zero_le _
  by_cases hb : b = []
  · rw [hb, List.append_nil]
  rw [String.intercalate_append_of_ne_nil ha hb, String.utf8ByteSize_append,
    String.utf8ByteSize_append]
  omega

/-- A path is no longer than one with more names. -/
theorem utf8ByteSize_toString_append (anchor : Anchor) (a b : List String) :
    (Path.toString ⟨anchor, a⟩).utf8ByteSize ≤ (Path.toString ⟨anchor, a ++ b⟩).utf8ByteSize := by
  have := utf8ByteSize_intercalate_append "/" a b
  rw [utf8ByteSize_toString, utf8ByteSize_toString]
  dsimp only
  omega

end Path

namespace FileTree

variable {t : FileTree}

/-- A walk goes on where the walk along the first names ends. -/
theorem walk_append (t : FileTree) (start : Place) (a b : List String) :
    t.walk start (a ++ b) = (t.walk start a).bind fun q => t.walk q b := by
  fun_induction FileTree.walk t start a with
  | case1 => rfl
  | case2 _ n r h =>
    rw [List.cons_append, walk, h]
    rfl
  | case3 _ n r b' h =>
    rw [List.cons_append, walk, h]
    rfl
  | case4 _ n r h hup ih =>
    rw [List.cons_append, walk, h]
    dsimp only
    rw [if_pos hup]
    exact ih
  | case5 _ n r h hup hlong =>
    rw [List.cons_append, walk, h]
    dsimp only
    rw [if_neg hup, if_pos hlong]
    rfl
  | case6 _ n r h hup hlong ih =>
    rw [List.cons_append, walk, h]
    dsimp only
    rw [if_neg hup, if_neg hlong]
    exact ih

/-- Names that lead somewhere lead through a directory. -/
theorem directory_of_walk_concat {start q : Place} {names : List String} {n : String}
    (h : t.walk start (names ++ [n]) = .ok q) :
    ∃ d, t.walk start names = .ok d ∧ t.get? d = some .directory := by
  rw [walk_append] at h
  cases hw : t.walk start names with
  | error c =>
    rw [hw] at h
    cases h
  | ok d =>
    rw [hw] at h
    change t.walk d [n] = .ok q at h
    rw [walk] at h
    split at h
    · cases h
    · cases h
    · rename_i hd
      exact ⟨d, rfl, hd⟩

/-- Above a path that leads somewhere there is a directory. -/
theorem isDirectory_parent {p : Path} {q : Place} (hne : p.parts ≠ []) (h : t.locate p = .ok q) :
    t.isDirectory p.parent = true := by
  obtain ⟨anchor, parts⟩ := p
  obtain ⟨names, n, rfl⟩ : ∃ names n, parts = names ++ [n] :=
    ⟨_, _, (List.dropLast_append_getLast hne).symm⟩
  obtain ⟨d, hwalk, hd⟩ := directory_of_walk_concat (walk_of_locate h)
  refine isDirectory_iff.2 ⟨d, ?_, hd⟩
  unfold locate at h
  split at h
  · cases h
  rename_i hname
  split at h
  · cases h
  rename_i hshort
  have hparent : (Path.mk anchor (names ++ [n])).parent = ⟨anchor, names⟩ := by
    rw [Path.parent, List.dropLast_concat]
  have hname' : ¬(!(Path.mk anchor names).isNameable) = true := by
    rw [Bool.not_eq_true', Bool.not_eq_false] at hname ⊢
    rw [Path.isNameable, List.all_append, Bool.and_eq_true_iff] at hname
    exact hname.1
  have hsize := Path.utf8ByteSize_toString_append anchor names [n]
  have hshort' : ¬maxPathBytes < (Path.mk anchor names).toString.utf8ByteSize :=
    fun hlong => hshort (hlong.trans_le hsize)
  rw [hparent, locate, if_neg hname', if_neg hshort']
  exact hwalk

end FileTree

end NativeGlue
