import Mathlib.Data.List.Basic
import NativeGlue.Output
import NativeGlue.Proofs.FileTree.Built

/-!
# Last characters

What a file is for shows in the last character of its name: generated files, temporary ones, the lock,
sources and overrides end in characters of their own. The last character of a path stays when the path
is read from a directory, and when `..` is taken away (`ending_named`).
-/

namespace NativeGlue

/-- The last character of the last name of a place. -/
def Place.ending (q : Place) : Option Char := q.getLast?.bind fun name => name.toList.getLast?

/-- The last character of the last name of a path. -/
def Path.ending (p : Path) : Option Char := Place.ending p.parts

theorem Place.ending_concat (q : Place) (name : String) :
    Place.ending (q ++ [name]) = name.toList.getLast? := by
  rw [Place.ending, List.getLast?_concat, Option.bind_some]

/-- A name that ends in another character does not lead up. -/
theorem ne_up_of_getLast? {name : String} {c : Char} (h : name.toList.getLast? = some c) (hc : c ≠ '.') :
    name ≠ ".." := by
  rintro rfl
  exact hc (Option.some.inj h).symm

/-- A longer place ends as the names do that are added. -/
theorem Place.ending_append (q : Place) {names : Place} (h : names ≠ []) :
    Place.ending (q ++ names) = Place.ending names := by
  rw [Place.ending, List.getLast?_append_of_ne_nil _ h, Place.ending]

/-- A place whose last name has a last character. -/
theorem Place.eq_concat_of_ending {q : Place} {c : Char} (h : q.ending = some c) :
    ∃ r name, q = r ++ [name] ∧ name.toList.getLast? = some c := by
  obtain ⟨name, hname, hc⟩ := Option.bind_eq_some_iff.1 h
  exact ⟨_, name, (List.dropLast_append_getLast? name hname).symm, hc⟩

namespace Path

theorem ending_eq (p : Path) : p.ending = p.name.toList.getLast? := by
  unfold ending Place.ending Path.name
  cases p.parts.getLast? with
  | none => rfl
  | some n => rfl

/-- A path read from a directory ends as it does. -/
theorem ending_join (p : Path) {q : Path} {c : Char} (h : q.ending = some c) :
    (p / q).ending = some c := by
  show (p.join q).ending = some c
  unfold join
  split
  · exact h
  · obtain ⟨r, name, hq, hc⟩ := Place.eq_concat_of_ending h
    rw [ending, hq, ← List.append_assoc, Place.ending_concat, hc]

/-- The last piece of a text ends as the text does. -/
theorem ending_of_pieces {pieces : List (List Char)} {c : Char} (hne : pieces ≠ [])
    (h : (['/'].intercalate pieces).getLast? = some c) (hc : c ≠ '/') :
    ∃ r last, pieces = r ++ [last] ∧ last.getLast? = some c := by
  induction pieces with
  | nil => exact absurd rfl hne
  | cons x r ih =>
    by_cases hr : r = []
    · subst hr
      rw [List.intercalate_singleton] at h
      exact ⟨[], x, rfl, h⟩
    · rw [List.intercalate_cons_of_ne_nil hr, List.append_assoc, List.getLast?_append,
        List.getLast?_append] at h
      have hrest : (['/'].intercalate r).getLast? = some c := by
        cases hl : (['/'].intercalate r).getLast? with
        | none =>
          rw [hl] at h
          exact absurd (Option.some.inj h).symm hc
        | some d =>
          rw [hl] at h
          exact h
      obtain ⟨s, last, rfl, hlast⟩ := ih hr hrest
      exact ⟨x :: s, last, rfl, hlast⟩

/-- A path that is read from a text ends as the text does, unless that says nothing about a name. -/
theorem ending_ofString {s : String} {c : Char} (h : s.toList.getLast? = some c) (hc : c ≠ '/')
    (hdot : c ≠ '.') : (ofString s).ending = some c := by
  have hpieces : ['/'].intercalate (s.toList.splitOn '/') = s.toList := List.intercalate_splitOn '/'
  rw [← hpieces] at h
  obtain ⟨r, last, hr, hlast⟩ := ending_of_pieces (List.splitOn_ne_nil _ _) h hc
  have hl : (String.ofList last).toList.getLast? = some c := by rw [String.toList_ofList, hlast]
  have hkept : (String.ofList last != "" && String.ofList last != ".") = true := by
    rw [Bool.and_eq_true_iff, bne_iff_ne, bne_iff_ne]
    refine ⟨fun he => ?_, fun he => ?_⟩
    · rw [he] at hl
      cases hl
    · rw [he] at hl
      exact hdot (Option.some.inj hl).symm
  have hsingle : [String.ofList last].filter (fun n => n != "" && n != ".") = [String.ofList last] := by
    rw [List.filter_singleton, hkept]
    rfl
  rw [ofString, ending, Text.splitAt, hr, List.map_append, List.filter_append, List.map_singleton,
    hsingle, Place.ending_concat, hl]

/-- What follows the last dot of a name is its end. -/
theorem suffix_of_name (p : Path) : p.suffix.toList <:+ p.name.toList := by
  unfold suffix splitName
  dsimp only
  generalize hr : p.name.toList.reverse = r
  split
  · rename_i h
    have hlong : (r.takeWhile (· != '.')).length < r.length :=
      of_decide_eq_true (Bool.and_eq_true_iff.1 (Bool.and_eq_true_iff.1 h).1).1
    have hsplit := List.takeWhile_append_dropWhile (p := (· != '.')) (l := r)
    have hne : r.dropWhile (· != '.') ≠ [] := by
      intro hnil
      rw [hnil, List.append_nil] at hsplit
      rw [hsplit] at hlong
      exact Nat.lt_irrefl _ hlong
    have hdot := List.head_dropWhile_not (· != '.') hne
    rw [bne_eq_false_iff_eq] at hdot
    refine ⟨((r.dropWhile (· != '.')).tail).reverse, ?_⟩
    rw [String.toList_ofList, ← List.reverse_reverse p.name.toList, hr]
    conv => rhs; rw [← hsplit, List.reverse_append, ← List.cons_head_tail hne, hdot]
    rw [List.reverse_cons, List.append_assoc]
    rfl
  · exact List.nil_suffix

end Path

namespace FileTree

theorem normalise_concat (done : Place) (names : List String) {name : String} (h : name ≠ "..") :
    normalise done (names ++ [name]) = normalise done names ++ [name] := by
  induction names generalizing done with
  | nil =>
    simp [normalise, h]
  | cons n r ih => rw [List.cons_append, normalise, normalise, ih]

/-- A place ends as the path that names it. -/
theorem ending_named (t : FileTree) {p : Path} {c : Char} (h : p.ending = some c) (hdot : c ≠ '.') :
    (t.named p).ending = some c := by
  obtain ⟨r, name, hp, hc⟩ := Place.eq_concat_of_ending h
  have hname : name ≠ ".." := ne_up_of_getLast? hc hdot
  rw [named, hp, normalise_concat _ _ hname, Place.ending_concat, hc]

end FileTree

end NativeGlue
