/-!
# Blanks, words and lines

What counts as white space and what ends a line, and the cuts that follow from it: trimming, words,
lines. Both character classes are those of Unicode: the separators of every script count, and so do
the ASCII information separators `0x1c` to `0x1f`.

All cuts are written on `List Char`, where a proof can follow them, with a twin on `String` beside
them. Main facts: lines, kept with their ends, join to the text they were cut from
(`flatten_linesKept`), and words hold no blank (`not_blank_of_mem_words`).
-/

namespace NativeGlue.Text

/-! ## 1. The two classes -/

/-- White space: the characters that separate words. -/
def isBlank (c : Char) : Bool :=
  let n := c.toNat
  (9 ≤ n && n ≤ 13) || (28 ≤ n && n ≤ 32) || n == 0x85 || n == 0xa0 || n == 0x1680
    || (0x2000 ≤ n && n ≤ 0x200a) || n == 0x2028 || n == 0x2029 || n == 0x202f || n == 0x205f
    || n == 0x3000

/-- The characters that end a line. A carriage return before a line feed belongs to the same end. -/
def isLineEnd (c : Char) : Bool :=
  let n := c.toNat
  (10 ≤ n && n ≤ 13) || (28 ≤ n && n ≤ 30) || n == 0x85 || n == 0x2028 || n == 0x2029

theorem isBlank_of_isLineEnd {c : Char} (h : isLineEnd c = true) : isBlank c = true := by
  simp only [isLineEnd, isBlank, Bool.or_eq_true, Bool.and_eq_true, decide_eq_true_eq,
    beq_iff_eq] at *
  omega

/-! ## 2. Trimming -/

/-- Drops the characters of a class from the end of a text. -/
def dropEnd (p : Char → Bool) (s : List Char) : List Char :=
  (s.reverse.dropWhile p).reverse

/-- Drops the characters of a class from both ends of a text. -/
def trimOf (p : Char → Bool) (s : List Char) : List Char :=
  dropEnd p (s.dropWhile p)

/-- A text without the blanks around it. -/
def trim (s : String) : String := String.ofList (trimOf isBlank s.toList)

/-- A text without the blanks at its end. -/
def trimEnd (s : String) : String := String.ofList (dropEnd isBlank s.toList)

@[simp] theorem dropEnd_nil (p : Char → Bool) : dropEnd p [] = [] := rfl

/-- What is left after trimming the end is a beginning of the text. -/
theorem dropEnd_append (p : Char → Bool) (s : List Char) :
    ∃ t, s = dropEnd p s ++ t ∧ ∀ c ∈ t, p c = true := by
  refine ⟨(s.reverse.takeWhile p).reverse, ?_, ?_⟩
  · rw [dropEnd, ← List.reverse_append, List.takeWhile_append_dropWhile, List.reverse_reverse]
  · intro c hc
    have hc' : c ∈ s.reverse.takeWhile p := by simpa using hc
    exact List.all_eq_true.1 List.all_takeWhile c hc'

/-! ## 3. Words -/

/-- The maximal runs of characters outside a class, in order; `acc` holds the run being read. -/
def runsOf (p : Char → Bool) : List Char → List Char → List (List Char)
  | acc, [] => if acc.isEmpty then [] else [acc.reverse]
  | acc, c :: r =>
    if p c then (if acc.isEmpty then runsOf p [] r else acc.reverse :: runsOf p [] r)
    else runsOf p (c :: acc) r

/-- The words of a text: its maximal runs of characters that are not blank. -/
def words (s : String) : List String := (runsOf isBlank [] s.toList).map String.ofList

theorem not_mem_of_mem_runsOf {p : Char → Bool} {acc s w : List Char}
    (ha : ∀ c ∈ acc, p c = false) (hw : w ∈ runsOf p acc s) : ∀ c ∈ w, p c = false := by
  fun_induction runsOf p acc s with
  | case1 acc h => simp at hw
  | case2 acc h =>
    simp only [List.mem_singleton] at hw
    subst hw
    simpa using ha
  | case3 acc c r hc he ih => exact ih (by simp) hw
  | case4 acc c r hc he ih =>
    rcases List.mem_cons.1 hw with rfl | hw
    · simpa using ha
    · exact ih (by simp) hw
  | case5 acc c r hc ih =>
    refine ih ?_ hw
    intro d hd
    rcases List.mem_cons.1 hd with rfl | hd
    · simpa using hc
    · exact ha d hd

/-- A word of a text holds no blank. -/
theorem not_blank_of_mem_words {s w : String} (h : w ∈ words s) :
    ∀ c ∈ w.toList, isBlank c = false := by
  obtain ⟨l, hl, rfl⟩ := List.mem_map.1 h
  have h0 : ∀ c ∈ ([] : List Char), isBlank c = false := by simp
  have := not_mem_of_mem_runsOf h0 hl
  simpa using this

/-! ## 4. Lines -/

/-- The lines of a text, each with the end that closes it; `acc` holds the line being read. The last
line has no end if the text does not close it. -/
def linesKeptFrom : List Char → List Char → List (List Char)
  | acc, [] => if acc.isEmpty then [] else [acc.reverse]
  | acc, '\r' :: '\n' :: r => ('\n' :: '\r' :: acc).reverse :: linesKeptFrom [] r
  | acc, c :: r =>
    if isLineEnd c then (c :: acc).reverse :: linesKeptFrom [] r else linesKeptFrom (c :: acc) r

/-- The lines of a text with their ends. -/
def linesKept (s : String) : List String := (linesKeptFrom [] s.toList).map String.ofList

/-- The lines of a text without their ends. -/
def lines (s : String) : List String :=
  (linesKeptFrom [] s.toList).map fun l => String.ofList (dropEnd isLineEnd l)

/-- Kept lines join to the text. -/
theorem flatten_linesKept (acc s : List Char) :
    (linesKeptFrom acc s).flatten = acc.reverse ++ s := by
  fun_induction linesKeptFrom acc s with
  | case1 acc h => simp_all
  | case2 acc h => simp
  | case3 acc r ih => simp [ih]
  | case4 acc c r _ hc ih => simp [ih]
  | case5 acc c r _ hc ih => simp [ih]

end NativeGlue.Text
