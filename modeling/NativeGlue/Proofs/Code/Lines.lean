import NativeGlue.Proofs.Code.Drafts

/-!
# The lines of a function body

A body is written statement by statement: its lines are those of its statements, in their order
(`splitAt_bodyText_eq`). Only the label stands flush left (`ne_label_of_mem_linesOf`), so no other line
can be taken for it.
-/

namespace NativeGlue.Code

open NativeGlue.Mapping

/-! ## 1. Statements -/

/-- The lines of a statement. -/
def linesOf (s : Statement) : List String := (writeStatement { depth := 1 } s).lines.map (·.text)

/-- The lines of a function body. -/
def bodyLines (stats : String) (m : CallMapping) : List String := (statementsOf stats m).flatMap linesOf

/-- **The lines of a statement are those of its draft.** -/
theorem linesOf_eq (s : Statement) : linesOf s = ((Draft.ofStatement s).entries 0).map (·.shown 1) := by
  rw [linesOf, Draft.writeStatement_eq_write, Draft.texts_write]
  rfl

/-- What holds of the texts of a call, however deep they stand, holds of its lines. -/
theorem forall_mem_linesOf_call {m : CallMapping} {P : String → Prop}
    (hbrace : ∀ t ∈ ["\x7b", "if (fp) \x7b", "\x7d"], ∀ d, P (Line.indented d t).text)
    (hload : ∀ d, P (Line.indented d s!"LOAD_FUNCTION(fp, {m.method.accessor})").text)
    (hpointer : ∀ d, P (Line.indented d (assignment m s!"(({pointerAbi m})fp)")).text)
    (hdirect : m.method.flags.dynamic = false → ∀ d, P (Line.indented d (assignment m m.method.accessor)).text) :
    ∀ l ∈ linesOf (.call m), P l := by
  intro l hl
  rw [linesOf_eq] at hl
  obtain ⟨x, hx, rfl⟩ := List.mem_map.1 hl
  rw [← Draft.Entry.text_line]
  unfold Draft.ofStatement Draft.ofCall at hx
  dsimp only at hx
  split at hx
  · simp only [Draft.entries, List.cons_append, List.nil_append, List.mem_cons, List.not_mem_nil, or_false] at hx
    rcases hx with rfl | rfl | rfl | rfl | rfl | rfl
    · exact hbrace _ (by simp) _
    · exact hload _
    · exact hbrace _ (by simp) _
    · exact hpointer _
    · exact hbrace _ (by simp) _
    · exact hbrace _ (by simp) _
  · rename_i hstatic
    obtain rfl := List.mem_singleton.1 hx
    exact hdirect (Bool.not_eq_true _ ▸ hstatic) _

/-- The text of a body is its lines with line breaks between them. -/
theorem bodyText_eq (stats : String) (m : CallMapping) :
    bodyText stats m = "\n".intercalate (bodyLines stats m) := by
  have hlines : bodyLines stats m =
      ((Draft.all ((statementsOf stats m).map Draft.ofStatement)).entries 0).map (·.shown 1) := by
    rw [Draft.entries_all, List.flatMap_map, List.map_flatMap, bodyLines]
    exact congrArg (List.flatMap · _) (funext linesOf_eq)
  rw [Draft.bodyText_eq_write, IndentedText.render, Draft.texts_write, hlines]
  rfl

/-- The lines of statements, where the texts of a statement may hold line breaks of their own. -/
def textLines (ss : List Statement) : List String := (ss.flatMap linesOf).flatMap (Text.splitAt '\n')

theorem textLines_append (ss ts : List Statement) :
    textLines (ss ++ ts) = textLines ss ++ textLines ts := by
  rw [textLines, List.flatMap_append, List.flatMap_append]
  rfl

/-- **The lines of the text of a body are those of its statements.** -/
theorem splitAt_bodyText_eq (stats : String) (m : CallMapping) :
    Text.splitAt '\n' (bodyText stats m) = textLines (statementsOf stats m) := by
  have hne : bodyLines stats m ≠ [] := by
    intro he
    have henter : Statement.enter stats (methodSymbol m.method) ∈ statementsOf stats m := by
      simp [statementsOf]
    have hline : _ ∈ bodyLines stats m := List.mem_flatMap.2 ⟨_, henter, List.mem_singleton.2 rfl⟩
    rw [he] at hline
    cases hline
  rw [bodyText_eq, Text.splitAt_intercalate rfl hne]
  rfl

/-- Lines without line breaks are not cut any more. -/
theorem splitAt_bodyText {stats : String} {m : CallMapping}
    (h : ∀ l ∈ bodyLines stats m, '\n' ∉ l.toList) :
    Text.splitAt '\n' (bodyText stats m) = bodyLines stats m := by
  rw [splitAt_bodyText_eq, textLines]
  exact Text.flatMap_splitAt_of_not_mem h

/-! ## 2. Labels -/

/-- A line that does not stand flush left is no label. -/
theorem ne_label_of_indented (d : Nat) (t : String) : (Line.indented (d + 1) t).text ≠ "fail:" := by
  intro h
  have h := congrArg String.toList h
  unfold Line.text at h
  dsimp only at h
  split at h
  · cases h
  · have htabs : (Text.copies (d + 1) "\t").toList = List.replicate (d + 1) '\t' :=
      Text.toList_copies_char rfl _
    rw [String.toList_append, htabs, List.replicate_succ, List.cons_append] at h
    cases h

/-- No statement but the label stands flush left. -/
theorem exists_within_of_mem_entries {s : Statement} (hs : s ≠ .failLabel) {x : Draft.Entry}
    (hx : x ∈ (Draft.ofStatement s).entries 0) : ∃ n t, x = .within n t := by
  cases s with
  | failLabel => exact absurd rfl hs
  | fragment text =>
    cases text with
    | none => exact absurd hx List.not_mem_nil
    | some text =>
      unfold Draft.ofStatement Draft.entries at hx
      split at hx
      · cases hx
      · obtain ⟨t, -, rfl⟩ := List.mem_map.1 hx
        exact ⟨0, t, rfl⟩
  | call m =>
    unfold Draft.ofStatement Draft.ofCall at hx
    dsimp only at hx
    split at hx
    · simp only [Draft.entries, List.cons_append, List.nil_append, List.mem_cons, List.not_mem_nil, or_false] at hx
      rcases hx with rfl | rfl | rfl | rfl | rfl | rfl
      all_goals exact ⟨_, _, rfl⟩
    · exact ⟨0, _, List.mem_singleton.1 hx⟩
  | _ => exact ⟨0, _, List.mem_singleton.1 hx⟩

/-- **No statement but the label is written as one.** -/
theorem ne_label_of_mem_linesOf {s : Statement} (hs : s ≠ .failLabel) {l : String}
    (hl : l ∈ linesOf s) : l ≠ "fail:" := by
  rw [linesOf_eq] at hl
  obtain ⟨x, hx, rfl⟩ := List.mem_map.1 hl
  obtain ⟨n, t, rfl⟩ := exists_within_of_mem_entries hs hx
  rw [← Draft.Entry.text_line, Draft.Entry.line, Nat.add_comm]
  exact ne_label_of_indented n t

end NativeGlue.Code
