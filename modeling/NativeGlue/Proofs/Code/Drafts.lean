import NativeGlue.Code.Methods
import NativeGlue.Proofs.Text.Cuts
import NativeGlue.Proofs.Text.Occurrence

/-!
# Drafts of code

What an emitter writes is drafted as a tree: lines, labels and fragments, and what stands inside indents and blocks.
Written behind any code, a draft adds the same lines at the depth that was reached, each as deep as indents and
blocks stand around it, and leaves the depth and the open blocks as they were (`lines_write`). Function bodies are
written from drafts (`bodyText_eq_write`).
-/

namespace NativeGlue.Code

open NativeGlue.Mapping NativeGlue.Text

/-! ## 1. Drafts -/

/-- Code as it is drafted. -/
inductive Draft where
  /-- No code. -/
  | nothing
  /-- A draft behind another one. -/
  | seq (p q : Draft)
  /-- A line. -/
  | line (text : String)
  /-- A fragment of code, if there is one. -/
  | fragment (text : Option String)
  /-- A label. -/
  | label (name : String)
  /-- A line flush left. -/
  | raw (text : String)
  /-- What stands a level deeper. -/
  | indented (p : Draft)
  /-- What stands in a block. -/
  | block (header footer : String) (p : Draft)
  deriving DecidableEq, Repr, Inhabited

namespace Draft

/-- Writes a draft behind the code that is there. -/
def write : Draft → IndentedText → IndentedText
  | nothing, b => b
  | seq p q, b => q.write (p.write b)
  | line text, b => b.line text
  | fragment text, b => b.fragment text
  | label name, b => b.label name
  | raw text, b => b.raw text
  | indented p, b => (p.write b.indent).dedent
  | block header footer p, b => (p.write (b.openBlock header footer)).closeBlock

/-- A line that a draft adds: one with so many indents and blocks around it, or one flush left. -/
inductive Entry where
  | within (around : Nat) (text : String)
  | flush (text : String)
  deriving DecidableEq, Repr, Inhabited

/-- What a line shows, where the draft is written at a depth. -/
def Entry.shown (d : Nat) : Entry → String
  | within around text => if text = "" then "" else String.ofList (List.replicate (d + around) '\t') ++ text
  | flush text => text

/-- The lines that a draft adds, if so many indents and blocks stand around it. -/
def entries (around : Nat) : Draft → List Entry
  | nothing => []
  | seq p q => p.entries around ++ q.entries around
  | line text => [.within around text]
  | fragment none => []
  | fragment (some text) =>
    if text.isEmpty then [] else (IndentedText.fragmentLines text).map (.within around)
  | label name => [.flush (name ++ ":")]
  | raw text => [.flush text]
  | indented p => p.entries (around + 1)
  | block header footer p => .within around header :: p.entries (around + 1) ++ [.within around footer]

/-- The line of the code that an entry becomes. -/
def Entry.line (d : Nat) : Entry → Line
  | within around text => .indented (d + around) text
  | flush text => .flush text

theorem Entry.text_line (d : Nat) (x : Entry) : (x.line d).text = x.shown d := by
  cases x with
  | flush text => rfl
  | within around text =>
    have htabs : (copies (d + around) "\t").toList = List.replicate (d + around) '\t' :=
      toList_copies_char rfl _
    unfold Entry.line Entry.shown Line.text
    dsimp only
    rw [← htabs, String.ofList_toList]
    simp only [String.isEmpty_iff]

/-- **A draft adds its entries** behind the code that is there, and the depth and the open blocks stay. -/
theorem lines_write (p : Draft) {d n : Nat} {b : IndentedText} (hb : b.depth = d + n) :
    (p.write b).lines = b.lines ++ (p.entries n).map (Entry.line d) ∧ (p.write b).depth = b.depth ∧
      (p.write b).closing = b.closing := by
  induction p generalizing n b with
  | nothing => exact ⟨(List.append_nil _).symm, rfl, rfl⟩
  | seq p q ihp ihq =>
    obtain ⟨hlines, hdepth, hclosing⟩ := ihp hb
    obtain ⟨hlines', hdepth', hclosing'⟩ := ihq (hdepth.trans hb)
    refine ⟨?_, hdepth'.trans hdepth, hclosing'.trans hclosing⟩
    rw [write, hlines', hlines, entries, List.map_append, List.append_assoc]
  | line text =>
    refine ⟨?_, rfl, rfl⟩
    show b.lines ++ [Line.indented b.depth text] = _
    rw [hb]
    rfl
  | fragment text =>
    cases text with
    | none => exact ⟨(List.append_nil _).symm, rfl, rfl⟩
    | some text =>
      unfold write entries IndentedText.fragment
      dsimp only
      split
      · exact ⟨(List.append_nil _).symm, rfl, rfl⟩
      · obtain ⟨hlines, hdepth, hclosing⟩ := IndentedText.lines_addLines b (IndentedText.fragmentLines text)
        refine ⟨?_, hdepth, hclosing⟩
        rw [hlines, hb, List.map_map]
        rfl
  | label name => exact ⟨rfl, rfl, rfl⟩
  | raw text => exact ⟨rfl, rfl, rfl⟩
  | indented p ih =>
    have hdeep : b.indent.depth = d + (n + 1) := congrArg (· + 1) hb
    obtain ⟨hlines, hdepth, hclosing⟩ := ih hdeep
    refine ⟨hlines, ?_, hclosing⟩
    show (p.write b.indent).depth - 1 = b.depth
    rw [hdepth]
    rfl
  | block header footer p ih =>
    have hdeep : (b.openBlock header footer).depth = d + (n + 1) := congrArg (· + 1) hb
    obtain ⟨hlines, hdepth, hclosing⟩ := ih hdeep
    have hopen : (p.write (b.openBlock header footer)).closing = footer :: b.closing := hclosing
    have hback : (p.write (b.openBlock header footer)).depth - 1 = b.depth := by
      rw [hdepth]
      rfl
    unfold write IndentedText.closeBlock
    rw [hopen]
    refine ⟨?_, hback, rfl⟩
    show (p.write (b.openBlock header footer)).lines ++
      [Line.indented ((p.write (b.openBlock header footer)).depth - 1) footer] = _
    have hfirst : (b.openBlock header footer).lines = b.lines ++ [Line.indented b.depth header] := rfl
    rw [hlines, hback, hfirst, hb, entries, List.cons_append, List.map_cons, List.map_append, List.append_assoc,
      List.append_assoc]
    rfl

theorem texts_write (p : Draft) (b : IndentedText) :
    (p.write b).lines.map (·.text) = b.lines.map (·.text) ++ (p.entries 0).map (·.shown b.depth) := by
  obtain ⟨hlines, -, -⟩ := p.lines_write (n := 0) (b := b) rfl
  rw [hlines, List.map_append, List.map_map]
  exact congrArg _ (List.map_congr_left fun x _ => x.text_line b.depth)

/-! ## 2. What is read -/

/-- The texts of a draft are on one line each, but for fragments. -/
def OneLine : Draft → Prop
  | nothing | fragment _ => True
  | seq p q => p.OneLine ∧ q.OneLine
  | line text | label text | raw text => ∀ c ∈ text.toList, isLineEnd c = false
  | indented p => p.OneLine
  | block header footer p =>
    (∀ c ∈ header.toList, isLineEnd c = false) ∧ (∀ c ∈ footer.toList, isLineEnd c = false) ∧ p.OneLine

/-- The lines that a draft of one-line texts adds hold nothing that ends a line. -/
theorem OneLine.not_isLineEnd {p : Draft} (h : p.OneLine) {n : Nat} {x : Entry} (hx : x ∈ p.entries n) (d : Nat) :
    ∀ c ∈ (x.shown d).toList, isLineEnd c = false := by
  have within : ∀ {k : Nat} {text : String}, (∀ c ∈ text.toList, isLineEnd c = false) →
      ∀ c ∈ ((Entry.within k text).shown d).toList, isLineEnd c = false := by
    intro k text htext c hc
    unfold Entry.shown at hc
    dsimp only at hc
    split at hc
    · exact absurd hc List.not_mem_nil
    · rw [String.toList_append, String.toList_ofList] at hc
      rcases List.mem_append.1 hc with hc | hc
      · rw [List.eq_of_mem_replicate hc]
        rfl
      · exact htext c hc
  induction p generalizing n with
  | nothing => exact absurd hx List.not_mem_nil
  | seq p q ihp ihq => exact (List.mem_append.1 hx).elim (ihp h.1) (ihq h.2)
  | line text =>
    obtain rfl := List.mem_singleton.1 hx
    exact within h
  | fragment text =>
    cases text with
    | none => exact absurd hx List.not_mem_nil
    | some text =>
      unfold entries at hx
      split at hx
      · exact absurd hx List.not_mem_nil
      · obtain ⟨l, hl, rfl⟩ := List.mem_map.1 hx
        obtain ⟨k, hk, rfl⟩ := List.mem_map.1 hl
        refine within fun c hc => not_isLineEnd_of_mem_lines hk c ?_
        rw [trimEnd, String.toList_ofList] at hc
        exact (isPrefix_dropEnd _ _).subset hc
  | label name =>
    obtain rfl := List.mem_singleton.1 hx
    intro c hc
    rcases List.mem_append.1 (String.toList_append ▸ hc) with hc | hc
    · exact h c hc
    · obtain rfl := List.mem_singleton.1 hc
      rfl
  | raw text =>
    obtain rfl := List.mem_singleton.1 hx
    exact h
  | indented p ih => exact ih h hx
  | block header footer p ih =>
    obtain ⟨hheader, hfooter, hinner⟩ := h
    rcases List.mem_append.1 hx with hx | hx
    · rcases List.mem_cons.1 hx with rfl | hx
      · exact within hheader
      · exact ih hinner hx
    · obtain rfl := List.mem_singleton.1 hx
      exact within hfooter

/-- How a draft stands behind the code that it is written behind: each of its lines is as deep as the code has come
and as indents and blocks stand around it, whatever the code is, and the code goes on at the depth that it had come
to. The text of the whole falls into these lines. -/
structure Nested (p : Draft) (b : IndentedText) : Prop where
  lines : (p.write b).lines.map (·.text) = b.lines.map (·.text) ++ (p.entries 0).map (·.shown b.depth)
  depth : (p.write b).depth = b.depth
  closing : (p.write b).closing = b.closing
  read : p.OneLine → (∀ l ∈ b.lines, '\n' ∉ l.text.toList) → (p.write b).lines ≠ [] →
    splitAt '\n' (p.write b).render = b.lines.map (·.text) ++ (p.entries 0).map (·.shown b.depth)

/-- **Code is indented as it is nested.** -/
theorem nested_write (p : Draft) (b : IndentedText) : p.Nested b := by
  obtain ⟨-, hdepth, hclosing⟩ := p.lines_write (n := 0) (b := b) rfl
  refine ⟨p.texts_write b, hdepth, hclosing, fun hone hbefore hne => ?_⟩
  rw [IndentedText.render, ← texts_write]
  refine splitAt_intercalate_of_not_mem rfl (by simpa using hne) fun l hl => ?_
  rw [texts_write] at hl
  rcases List.mem_append.1 hl with hl | hl
  · obtain ⟨x, hx, rfl⟩ := List.mem_map.1 hl
    exact hbefore x hx
  · obtain ⟨x, hx, rfl⟩ := List.mem_map.1 hl
    intro hbreak
    cases hone.not_isLineEnd hx b.depth _ hbreak

/-- A draft of a loop, with a label and preprocessor lines between. -/
def loopDraft : Draft :=
  .seq (.block "while (n) \x7b" "\x7d" (.seq (.line "") (.seq (.fragment (some "\nn--;  \n\tstep();\n"))
    (.seq (.raw "#endif") (.block "if (n) \x7b" "\x7d" (.indented (.line "goto done;")))))))
    (.label "done")

theorem nested_write_loopDraft :
    splitAt '\n' (loopDraft.write { lines := [.flush "#if A"], depth := 1 }).render =
      ["#if A", "\twhile (n) \x7b", "", "\t\tn--;", "\t\t\tstep();", "#endif", "\t\tif (n) \x7b",
        "\t\t\t\tgoto done;", "\t\t\x7d", "\t\x7d", "done:"] := by
  have hone : loopDraft.OneLine := by
    simp only [loopDraft, OneLine]
    decide
  exact (nested_write loopDraft { lines := [.flush "#if A"], depth := 1 }).read hone (by decide) (by decide)

/-! ## 3. Function bodies -/

/-- Drafts one behind another. -/
def all (ps : List Draft) : Draft := ps.foldr seq nothing

theorem write_all (ps : List Draft) (b : IndentedText) : (all ps).write b = ps.foldl (fun b p => p.write b) b := by
  induction ps generalizing b with
  | nil => rfl
  | cons p ps ih => exact ih (p.write b)

theorem entries_all (ps : List Draft) (n : Nat) : (all ps).entries n = ps.flatMap (entries n) := by
  induction ps with
  | nil => rfl
  | cons p ps ih =>
    show p.entries n ++ (all ps).entries n = _
    rw [ih, List.flatMap_cons]

/-- The draft of a call: direct, or through a pointer that is looked up. -/
def ofCall (m : CallMapping) : Draft :=
  if m.method.flags.dynamic then
    block "\x7b" "\x7d" (seq (line s!"LOAD_FUNCTION(fp, {m.method.accessor})")
      (block "if (fp) \x7b" "\x7d" (line (assignment m s!"(({pointerAbi m})fp)"))))
  else line (assignment m m.method.accessor)

/-- The draft of a statement. -/
def ofStatement : Statement → Draft
  | .declare t => line t
  | .declareResult abiType => line s!"{abiType} rc = 0;"
  | .enter stats function => line s!"{stats}_NATIVE_ENTER(env, that, {function}_FUNC);"
  | .acquire _ t => line t.marshalIn
  | .checkLength array count =>
    line s!"if ({array.arg} && (*env)->GetArrayLength(env, {array.arg}) < {count.arg}) goto fail;"
  | .fragment text => fragment text
  | .call m => ofCall m
  | .failLabel => label "fail"
  | .release _ t => line t.release
  | .exit stats function => line s!"{stats}_NATIVE_EXIT(env, that, {function}_FUNC);"
  | .giveBack => line "return rc;"

theorem writeStatement_eq_write (b : IndentedText) (s : Statement) :
    writeStatement b s = (ofStatement s).write b := by
  cases s with
  | call m =>
    unfold writeStatement ofStatement writeCall ofCall
    dsimp only
    split
    · rfl
    · rfl
  | _ => rfl

/-- **A function body is written from the drafts of its statements.** -/
theorem bodyText_eq_write (stats : String) (m : CallMapping) :
    bodyText stats m = ((all ((statementsOf stats m).map ofStatement)).write { depth := 1 }).render := by
  have hwrite : writeStatement = fun b s => (ofStatement s).write b :=
    funext fun b => funext fun s => writeStatement_eq_write b s
  rw [write_all, List.foldl_map, bodyText, hwrite]

end Draft

end NativeGlue.Code
