import NativeGlue.Proofs.Code.Inert

/-!
# What the preprocessor leaves

The lines of a file are read with symbols that are set (`Reading`). A line of code is left if every conditional
that is open counts in the part where it stands; directives are not left, and neither are empty lines. Symbols
are set by definitions in the file. What a directive includes is not read with it.

Whole conditionals that count leave the same lines wherever they stand (`Leaves`), and where they do not count
they leave nothing (`Even.skipped`). Code under construction is written together with what is left of it
(`Writes`).
-/

namespace NativeGlue.Code

open NativeGlue.Text

/-! ## 1. Conditions -/

/-- Whether a term of a condition says that a symbol is defined that is set. -/
def termHolds (isSet : String → Bool) (term : List Char) : Bool :=
  match rest? "defined(".toList (trimOf isBlank term) with
  | some r => r.getLast? = some ')' && isSet (String.ofList r.dropLast)
  | none => false

/-- Whether one of the terms of a condition holds. -/
def holds (isSet : String → Bool) (condition : String) : Bool :=
  (condition.toList.splitOn '|').any (termHolds isSet)

theorem trimOf_surrounded {p : Char → Bool} {s t : List Char} (hs : ∀ c ∈ s, p c = true) (ht : ∀ c ∈ t, p c = true)
    (m : List Char) : trimOf p (s ++ m ++ t) = trimOf p m := by
  rw [trimOf, trimOf, List.append_assoc, List.dropWhile_append_of_pos hs, List.dropWhile_append]
  split
  · rename_i hm
    rw [List.isEmpty_iff.1 hm]
    have hall : t.dropWhile p = [] := List.dropWhile_eq_nil_iff.2 ht
    rw [hall]
  · exact dropEnd_append_of_all ht

/-- Blanks around a term change nothing. -/
theorem termHolds_surrounded {s t : List Char} (hs : ∀ c ∈ s, isBlank c = true) (ht : ∀ c ∈ t, isBlank c = true)
    (isSet : String → Bool) (m : List Char) : termHolds isSet (s ++ m ++ t) = termHolds isSet m := by
  rw [termHolds, termHolds, trimOf_surrounded hs ht]

/-- The term for a symbol holds if it is set. -/
theorem termHolds_defined (isSet : String → Bool) (symbol : String) :
    termHolds isSet ("defined(" ++ symbol ++ ")").toList = isSet symbol := by
  have htrim : trimOf isBlank ("defined(" ++ symbol ++ ")").toList = ("defined(" ++ symbol ++ ")").toList := by
    refine trimOf_eq_self_iff.2 ⟨fun c hc => ?_, fun c hc => ?_⟩
    · simp only [String.toList_append] at hc
      obtain rfl := Option.some.inj hc
      decide
    · rw [String.toList_append, List.getLast?_append] at hc
      obtain rfl := Option.some.inj hc
      decide
  have hrest : rest? "defined(".toList ("defined(" ++ symbol ++ ")").toList =
      some (symbol.toList ++ [')']) := by
    rw [rest?_eq_some_iff, String.toList_append, String.toList_append, List.append_assoc]
    rfl
  rw [termHolds, htrim, hrest]
  simp

/-- A blank in front of a condition changes nothing. -/
theorem holds_blank (isSet : String → Bool) (c : String) : holds isSet (" " ++ c) = holds isSet c := by
  have hblank : ∀ c ∈ [' '], isBlank c = true := by decide
  have hnone : ∀ c ∈ ([] : List Char), isBlank c = true := by decide
  rw [holds, holds, String.toList_append]
  show (List.splitOn '|' (' ' :: c.toList)).any (termHolds isSet) = _
  rw [List.splitOn_cons_eq_if_modifyHead, if_neg (by decide)]
  cases hpieces : c.toList.splitOn '|' with
  | nil => exact absurd hpieces (List.splitOn_ne_nil _ _)
  | cons piece pieces =>
    rw [List.modifyHead_cons, List.any_cons, List.any_cons]
    have hpiece := termHolds_surrounded hblank hnone isSet piece
    rw [List.append_nil] at hpiece
    exact congrArg (· || _) hpiece

/-- A condition that goes on behind its first term. -/
theorem holds_append (isSet : String → Bool) {term : String} (h : '|' ∉ term.toList) (others : String) :
    holds isSet (term ++ " || " ++ others) = (termHolds isSet term.toList || holds isSet others) := by
  have hblank : ∀ c ∈ [' '], isBlank c = true := by decide
  have hnone : ∀ c ∈ ([] : List Char), isBlank c = true := by decide
  have hcut : (term ++ " || " ++ others).toList =
      (term.toList ++ [' ']) ++ '|' :: ([] ++ '|' :: (" " ++ others).toList) := by
    simp [String.toList_append]
  have hfirst : '|' ∉ term.toList ++ [' '] := by
    simpa using h
  have hpiece := termHolds_surrounded hnone hblank isSet term.toList
  have hgap : termHolds isSet [] = false := rfl
  rw [List.nil_append] at hpiece
  rw [← holds_blank isSet others, holds, hcut, List.splitOn_append_cons_self, List.splitOn_append_cons_self,
    List.splitOn_eq_singleton hfirst, List.splitOn_nil, List.any_append, List.any_append, holds]
  simp only [List.any_cons, List.any_nil, Bool.or_false, Bool.false_or, hpiece, hgap]

/-- **A condition holds if one of its symbols is set**, as long as no symbol looks like several terms. -/
theorem holds_intercalate (isSet : String → Bool) {symbols : List String} (h : ∀ s ∈ symbols, '|' ∉ s.toList)
    (hne : symbols ≠ []) :
    holds isSet (" || ".intercalate (symbols.map fun s => "defined(" ++ s ++ ")")) = symbols.any isSet := by
  induction symbols with
  | nil => exact absurd rfl hne
  | cons s r ih =>
    rw [List.forall_mem_cons] at h
    have hterm : '|' ∉ ("defined(" ++ s ++ ")").toList := by
      simp [String.toList_append, h.1]
    rw [List.map_cons, List.any_cons]
    by_cases hr : r = []
    · rw [hr, List.map_nil, String.intercalate_singleton, holds, List.splitOn_eq_singleton hterm,
        List.any_cons, List.any_nil, termHolds_defined, List.any_nil]
    · rw [String.intercalate_cons_of_ne_nil (by simpa using hr), holds_append isSet hterm, termHolds_defined,
        ih h.2 hr]

/-! ## 2. Reading lines -/

/-- What is known while the lines of a file are read: the symbols that are set, for each conditional that is open,
the innermost one first, whether the part that is being read counts, and the lines of code that are left. -/
structure Reading where
  isSet : String → Bool
  parts : List Bool := []
  code : List String := []

/-- What stands behind the word of a directive. -/
def argument (line : String) : List Char :=
  (((line.toList.dropWhile isBlank).drop 1).dropWhile isBlank).dropWhile isDirectivePart

/-- The symbol that comes first. -/
def symbolOf (s : List Char) : String :=
  String.ofList ((s.dropWhile isBlank).takeWhile fun c => !isBlank c && c != '(')

/-- Whether the first part of a conditional counts. -/
def conditionOf (isSet : String → Bool) (line : String) : Bool :=
  if directive? line = some "if" then holds isSet (String.ofList (argument line))
  else if directive? line = some "ifdef" then isSet (symbolOf (argument line))
  else !isSet (symbolOf (argument line))

namespace Reading

/-- Whether what is read counts. -/
def counts (r : Reading) : Bool := r.parts.all id

/-- Leaves lines of code. -/
def leave (r : Reading) (lines : List String) : Reading := { r with code := r.code ++ lines }

/-- Enters a conditional. -/
def enter (r : Reading) (counts : Bool) : Reading := { r with parts := counts :: r.parts }

/-- Goes on with the alternative. -/
def turn (r : Reading) : Reading :=
  { r with parts := match r.parts with
      | c :: p => (!c) :: p
      | [] => [] }

/-- Ends a conditional. -/
def close (r : Reading) : Reading := { r with parts := r.parts.tail }

/-- Sets a symbol. -/
def define (r : Reading) (symbol : String) : Reading := { r with isSet := fun s => r.isSet s || s == symbol }

/-- Reads a line that is no conditional. -/
def plain (r : Reading) (line : String) : Reading :=
  match directive? line with
  | none => if line.isEmpty then r else r.leave [line]
  | some word => if word = "define" then r.define (symbolOf (argument line)) else r

/-- Reads a line. -/
def step (r : Reading) (line : String) : Reading :=
  match turnOf line with
  | some .opens => r.enter (conditionOf r.isSet line)
  | some .alternates => r.turn
  | some .closes => r.close
  | none => if r.counts then r.plain line else r

@[simp] theorem counts_enter (r : Reading) (c : Bool) : (r.enter c).counts = (c && r.counts) := rfl

@[simp] theorem close_enter (r : Reading) (c : Bool) : (r.enter c).close = r := rfl

@[simp] theorem turn_enter (r : Reading) (c : Bool) : (r.enter c).turn = r.enter !c := rfl

theorem close_leave_enter (r : Reading) (c : Bool) (ls : List String) :
    ((r.enter c).leave ls).close = r.leave ls := rfl

@[simp] theorem leave_nil (r : Reading) : r.leave [] = r := by
  rw [leave, List.append_nil]

theorem leave_leave (r : Reading) (ls ms : List String) : (r.leave ls).leave ms = r.leave (ls ++ ms) := by
  simp only [leave, List.append_assoc]

theorem step_opens {l : String} (h : turnOf l = some .opens) (r : Reading) :
    r.step l = r.enter (conditionOf r.isSet l) := by
  unfold step
  rw [h]

theorem step_alternates {l : String} (h : turnOf l = some .alternates) (r : Reading) : r.step l = r.turn := by
  unfold step
  rw [h]

theorem step_closes {l : String} (h : turnOf l = some .closes) (r : Reading) : r.step l = r.close := by
  unfold step
  rw [h]

theorem step_plain {l : String} (h : turnOf l = none) {r : Reading} (hr : r.counts = true) :
    r.step l = r.plain l := by
  unfold step
  rw [h]
  exact if_pos hr

theorem step_skipped {l : String} (h : turnOf l = none) {r : Reading} (hr : r.counts = false) : r.step l = r := by
  unfold step
  rw [h]
  exact if_neg (by simp [hr])

/-- Empty lines say nothing. -/
theorem step_empty (r : Reading) : r.step "" = r := by
  have hturn : turnOf "" = none := by decide
  have hplain : r.plain "" = r := rfl
  cases hr : r.counts with
  | false => exact step_skipped hturn hr
  | true => rw [step_plain hturn hr, hplain]

theorem foldl_step_empty (r : Reading) (n : Nat) : (List.replicate n "").foldl step r = r := by
  induction n with
  | zero => rfl
  | succ n ih => rw [List.replicate_succ, List.foldl_cons, step_empty, ih]

/-- What is known behind a text of several lines is what is known behind them. -/
theorem foldl_step_intercalate (ls : List String) (r : Reading) :
    (cut ["\n".intercalate ls]).foldl step r = (cut ls).foldl step r := by
  rcases cut_intercalate ls with he | ⟨hnil, he⟩
  · rw [he]
  · rw [he, hnil]
    exact step_empty r

end Reading

/-- What is known behind the lines of a file. -/
def preprocess (isSet : String → Bool) (lines : List String) : Reading := lines.foldl Reading.step { isSet }

/-- What is known behind the text of a file is what is known behind its texts. -/
theorem preprocess_fileText {ls : List String} (h : ∀ l ∈ ls, '\r' ∉ l.toList) (isSet : String → Bool) :
    preprocess isSet (splitAt '\n' (fileText ls)) = (cut ls).foldl Reading.step { isSet } := by
  obtain ⟨front, n, hcut, hfile⟩ := exists_front_fileText h
  have hjoined : preprocess isSet (splitAt '\n' (fileText ls)) =
      (cut ["\n".intercalate ls]).foldl Reading.step { isSet } := by
    rw [preprocess, hcut, hfile, List.foldl_append, List.foldl_append, Reading.foldl_step_empty]
    exact Reading.step_empty _
  rw [hjoined, Reading.foldl_step_intercalate]

/-- What is known behind code that was built is what is known behind its lines. -/
theorem preprocess_render (isSet : String → Bool) (b : IndentedText) :
    preprocess isSet (splitAt '\n' b.render) = (cut (b.lines.map (·.text))).foldl Reading.step { isSet } := by
  have hcut : cut [b.render] = splitAt '\n' b.render := List.append_nil _
  rw [preprocess, ← hcut, IndentedText.render, Reading.foldl_step_intercalate]

/-! ## 3. Whole conditionals -/

/-- **Where whole conditionals do not count, they leave nothing.** -/
theorem Even.skipped {ls : List String} (h : Even ls) {r : Reading} (hr : r.counts = false) :
    (cut ls).foldl Reading.step r = r := by
  induction h generalizing r with
  | nil => rfl
  | line h =>
    rw [cut_cons_of_unbroken h.unbroken, List.foldl_cons, Reading.step_skipped h.turn hr]
    rfl
  | append _ _ ihl ihm => rw [cut_append, List.foldl_append, ihl hr, ihm hr]
  | enclosed hfirst _ hlast ih =>
    have hinner : ∀ c, (r.enter c).counts = false := fun c => by simp [hr]
    rw [cut_cons_of_unbroken hfirst.unbroken, cut_append, cut_cons_of_unbroken hlast.unbroken, List.foldl_cons,
      List.foldl_append, Reading.step_opens hfirst.turn, ih (hinner _), List.foldl_cons,
      Reading.step_closes hlast.turn, Reading.close_enter]
    rfl
  | alternatives hfirst _ hmiddle _ hlast ihl ihm =>
    have hinner : ∀ c, (r.enter c).counts = false := fun c => by simp [hr]
    rw [cut_cons_of_unbroken hfirst.unbroken, cut_append, cut_cons_of_unbroken hmiddle.unbroken, cut_append,
      cut_cons_of_unbroken hlast.unbroken, List.foldl_cons, List.foldl_append, Reading.step_opens hfirst.turn,
      ihl (hinner _), List.foldl_cons, Reading.step_alternates hmiddle.turn, Reading.turn_enter, List.foldl_append,
      ihm (hinner _), List.foldl_cons, Reading.step_closes hlast.turn, Reading.close_enter]
    rfl
  | joined _ ih => rw [Reading.foldl_step_intercalate, ih hr]

/-- Whole conditionals that leave certain lines wherever they count, and change no symbols. -/
structure Leaves (isSet : String → Bool) (ls left : List String) : Prop where
  even : Even ls
  counted : ∀ r : Reading, r.isSet = isSet → r.counts = true → (cut ls).foldl Reading.step r = r.leave left

/-- A line of code: one that is not empty, and no directive. -/
structure IsCode (l : String) : Prop where
  unbroken : Unbroken l
  directive : directive? l = none
  ne : l ≠ ""

instance (l : String) : Decidable (IsCode l) :=
  decidable_of_iff (Unbroken l ∧ directive? l = none ∧ l ≠ "")
    ⟨fun h => ⟨h.1, h.2.1, h.2.2⟩, fun h => ⟨h.1, h.2, h.3⟩⟩

theorem IsCode.reads {l : String} (h : IsCode l) : Reads none l := by
  refine ⟨h.unbroken, ?_⟩
  rw [turnOf, h.directive]

theorem IsCode.plain {l : String} (h : IsCode l) (r : Reading) : r.plain l = r.leave [l] := by
  unfold Reading.plain
  rw [h.directive]
  exact if_neg (by simpa using h.ne)

namespace Leaves

variable {isSet : String → Bool} {ls ms left more : List String}

theorem nil : Leaves isSet [] [] := ⟨.nil, fun r _ _ => r.leave_nil.symm⟩

theorem append (h : Leaves isSet ls left) (h' : Leaves isSet ms more) :
    Leaves isSet (ls ++ ms) (left ++ more) := by
  refine ⟨h.even.append h'.even, fun r hset hr => ?_⟩
  rw [cut_append, List.foldl_append, h.counted r hset hr, h'.counted (r.leave left) hset hr, Reading.leave_leave]

/-- A line of code is left. -/
theorem line {l : String} (h : IsCode l) : Leaves isSet [l] [l] := by
  refine ⟨.line h.reads, fun r _ hr => ?_⟩
  rw [cut_cons_of_unbroken h.unbroken, List.foldl_cons, Reading.step_plain h.reads.turn hr, h.plain]
  rfl

theorem lines (h : ∀ l ∈ ls, IsCode l) : Leaves isSet ls ls := by
  induction ls with
  | nil => exact nil
  | cons l r ih =>
    rw [List.forall_mem_cons] at h
    exact (line h.1).append (ih h.2)

/-- An empty line is not left. -/
theorem empty : Leaves isSet [""] [] := by
  refine ⟨.line (by decide), fun r _ _ => ?_⟩
  rw [Reading.leave_nil]
  exact Reading.step_empty r

/-- A directive that sets no symbols is not left. -/
theorem directive {l word : String} (h : Reads none l) (hword : directive? l = some word) (hne : word ≠ "define") :
    Leaves isSet [l] [] := by
  refine ⟨.line h, fun r _ hr => ?_⟩
  have hplain : r.plain l = r := by
    unfold Reading.plain
    rw [hword]
    exact if_neg hne
  rw [cut_cons_of_unbroken h.unbroken, List.foldl_cons, Reading.step_plain h.turn hr, hplain, Reading.leave_nil]
  rfl

theorem directives (word : String) (hne : word ≠ "define")
    (h : ∀ l ∈ ls, Reads none l ∧ directive? l = some word) :
    Leaves isSet ls [] := by
  induction ls with
  | nil => exact nil
  | cons l r ih =>
    rw [List.forall_mem_cons] at h
    exact (directive h.1.1 h.1.2 hne).append (ih h.2)

/-- A conditional that does not count leaves nothing. -/
theorem passed {first last : String} (hfirst : Reads (some .opens) first) (hc : conditionOf isSet first = false)
    (h : Even ls) (hlast : Reads (some .closes) last) : Leaves isSet (first :: (ls ++ [last])) [] := by
  refine ⟨.enclosed hfirst h hlast, fun r hset hr => ?_⟩
  rw [cut_cons_of_unbroken hfirst.unbroken, cut_append, cut_cons_of_unbroken hlast.unbroken, List.foldl_cons,
    List.foldl_append, Reading.step_opens hfirst.turn, hset, hc, h.skipped rfl, List.foldl_cons,
    Reading.step_closes hlast.turn, Reading.close_enter, Reading.leave_nil]
  rfl

/-- What stands in a conditional is left if the conditional counts. -/
theorem enclosed {first last : String} {c : Bool} (hfirst : Reads (some .opens) first)
    (hc : conditionOf isSet first = c) (h : Leaves isSet ls left) (hlast : Reads (some .closes) last) :
    Leaves isSet (first :: (ls ++ [last])) (if c then left else []) := by
  cases c with
  | true =>
    refine ⟨.enclosed hfirst h.even hlast, fun r hset hr => ?_⟩
    rw [cut_cons_of_unbroken hfirst.unbroken, cut_append, cut_cons_of_unbroken hlast.unbroken, List.foldl_cons,
      List.foldl_append, Reading.step_opens hfirst.turn, hset, hc, h.counted (r.enter true) hset hr,
      List.foldl_cons, Reading.step_closes hlast.turn, Reading.close_leave_enter]
    rfl
  | false => exact passed hfirst hc h.even hlast

/-- What stands in front of an alternative is left if the conditional counts, and the alternative is not. -/
theorem alternatives {first middle last : String} (hfirst : Reads (some .opens) first)
    (hc : conditionOf isSet first = true) (h : Leaves isSet ls left) (hmiddle : Reads (some .alternates) middle)
    (hm : Even ms) (hlast : Reads (some .closes) last) :
    Leaves isSet (first :: (ls ++ middle :: (ms ++ [last]))) left := by
  refine ⟨.alternatives hfirst h.even hmiddle hm hlast, fun r hset hr => ?_⟩
  have hturn : ((r.enter true).leave left).turn = (r.leave left).enter false := rfl
  rw [cut_cons_of_unbroken hfirst.unbroken, cut_append, cut_cons_of_unbroken hmiddle.unbroken, cut_append,
    cut_cons_of_unbroken hlast.unbroken, List.foldl_cons, List.foldl_append, Reading.step_opens hfirst.turn, hset,
    hc, h.counted (r.enter true) hset hr, List.foldl_cons, Reading.step_alternates hmiddle.turn, hturn,
    List.foldl_append, hm.skipped rfl, List.foldl_cons, Reading.step_closes hlast.turn, Reading.close_enter]
  rfl

theorem joined (h : Leaves isSet ls left) : Leaves isSet ["\n".intercalate ls] left := by
  refine ⟨.joined h.even, fun r hset hr => ?_⟩
  rw [Reading.foldl_step_intercalate, h.counted r hset hr]

theorem flatMap {α : Type} {xs : List α} {f g : α → List String} (h : ∀ x ∈ xs, Leaves isSet (f x) (g x)) :
    Leaves isSet (xs.flatMap f) (xs.flatMap g) := by
  induction xs with
  | nil => exact nil
  | cons x r ih =>
    rw [List.forall_mem_cons] at h
    exact h.1.append (ih h.2)

end Leaves

/-! ## 4. Lines by their beginnings -/

theorem argument_append {p : String} (h : argument p ≠ []) (s : String) :
    argument (p ++ s) = argument p ++ s.toList := by
  unfold argument at h ⊢
  have hword : ((p.toList.dropWhile isBlank).drop 1).dropWhile isBlank ≠ [] := fun he =>
    h (by rw [he, List.dropWhile_nil])
  have hmark : (p.toList.dropWhile isBlank).drop 1 ≠ [] := fun he => hword (by rw [he, List.dropWhile_nil])
  have hline : p.toList.dropWhile isBlank ≠ [] := fun he => hmark (by rw [he, List.drop_nil])
  have hlength : 1 ≤ (p.toList.dropWhile isBlank).length := List.length_pos_of_ne_nil hline
  rw [String.toList_append, dropWhile_append_of hline, List.drop_append_of_le_length hlength,
    dropWhile_append_of hword, dropWhile_append_of h]

theorem conditionOf_indented (isSet : String → Bool) (d : Nat) (t : String) :
    conditionOf isSet (Line.indented d t).text = conditionOf isSet t := by
  unfold conditionOf argument
  rw [directive?_indented, dropWhile_indented]

theorem conditionOf_if (isSet : String → Bool) (c : String) : conditionOf isSet ("#if " ++ c) = holds isSet c := by
  have hword : directive? ("#if " ++ c) = some "if" := (settles_append (p := "#if ") (by decide) c).2
  have hargument : argument ("#if " ++ c) = " ".toList ++ c.toList := argument_append (p := "#if ") (by decide) c
  rw [conditionOf, if_pos hword, hargument, ← String.toList_append, String.ofList_toList]
  exact holds_blank isSet c

theorem conditionOf_ifndef (isSet : String → Bool) (symbol : String) :
    conditionOf isSet ("#ifndef " ++ symbol) = !isSet (symbolOf symbol.toList) := by
  have hword : directive? ("#ifndef " ++ symbol) = some "ifndef" :=
    (settles_append (p := "#ifndef ") (by decide) symbol).2
  have hargument : argument ("#ifndef " ++ symbol) = " ".toList ++ symbol.toList :=
    argument_append (p := "#ifndef ") (by decide) symbol
  have hblank : symbolOf (" ".toList ++ symbol.toList) = symbolOf symbol.toList := rfl
  rw [conditionOf, if_neg (by simp [hword]), if_neg (by simp [hword]), hargument, hblank]

/-- A symbol goes on as long as nothing ends it. -/
theorem symbolOf_append {p : List Char} (hp : ∀ c ∈ p, isBlank c = false ∧ c ≠ '(') (hne : p ≠ [])
    (s : List Char) :
    symbolOf (p ++ s) = String.ofList p ++ String.ofList (s.takeWhile fun c => !isBlank c && c != '(') := by
  have hkept : (p ++ s).dropWhile isBlank = p ++ s := by
    obtain ⟨c, r, rfl⟩ := List.exists_cons_of_ne_nil hne
    exact List.dropWhile_cons_of_neg (by simp [(hp c List.mem_cons_self).1])
  have htaken : (p ++ s).takeWhile (fun c => !isBlank c && c != '(') =
      p ++ s.takeWhile fun c => !isBlank c && c != '(' :=
    List.takeWhile_append_of_pos fun c hc => by simp [hp c hc]
  rw [symbolOf, hkept, htaken, String.ofList_append]

/-- Symbols that turn code off are not set. -/
def AllOn (isSet : String → Bool) : Prop := ∀ name, isSet ("NO_" ++ name) = false

theorem conditionOf_guard {isSet : String → Bool} (h : AllOn isSet) (name : String) :
    conditionOf isSet ("#ifndef NO_" ++ name) = true := by
  have hline : "#ifndef NO_" ++ name = "#ifndef " ++ ("NO_" ++ name) := by
    rw [← String.append_assoc]
    rfl
  have hsymbol := symbolOf_append (p := "NO_".toList) (by decide) (by decide) name.toList
  rw [hline, conditionOf_ifndef, String.toList_append, hsymbol]
  exact congrArg (!·) (h _)

theorem Inert.isCode {l : String} (h : Inert l) (hne : l ≠ "") : IsCode l := by
  refine ⟨h.unbroken, directive?_of_ne_hash fun r hr => ?_, hne⟩
  have hhash : '#' ∈ l.toList := (List.dropWhile_suffix _).subset (hr ▸ List.mem_cons_self)
  exact h _ hhash (by decide)

/-- A line that begins as code is code, whatever comes behind. -/
theorem IsCode.append {l s : String} (h : IsCode l) (hl : settles l = true) (hs : Unbroken s) :
    IsCode (l ++ s) := by
  refine ⟨h.unbroken.append hs, ?_, ?_⟩
  · rw [(settles_append hl s).2, h.directive]
  · intro he
    exact h.ne (String.append_eq_empty_iff.1 he).1

theorem text_indented {t : String} (h : t ≠ "") (d : Nat) : (Line.indented d t).text = copies d "\t" ++ t :=
  if_neg (by simpa using h)

theorem IsCode.indented {t : String} (h : IsCode t) (d : Nat) : IsCode (Line.indented d t).text := by
  refine ⟨h.unbroken.indented d, ?_, ?_⟩
  · rw [directive?_indented, h.directive]
  · rw [text_indented h.ne]
    exact fun he => h.ne (String.append_eq_empty_iff.1 he).2

theorem text_indented_zero (t : String) : (Line.indented 0 t).text = t := by
  unfold Line.text
  dsimp only
  split
  · rename_i hempty
    exact (String.isEmpty_iff.1 hempty).symm
  · exact String.empty_append

/-! ## 5. Code under construction -/

/-- Code under construction, at a depth, has grown by whole conditionals that leave certain lines, and the same
blocks are open. -/
structure Writes (isSet : String → Bool) (d : Nat) (b b' : IndentedText) (left : List String) : Prop where
  depth : b'.depth = d
  closing : b'.closing = b.closing
  lines : ∃ more, b'.lines = b.lines ++ more ∧ Leaves isSet (more.map (·.text)) left

namespace Writes

variable {isSet : String → Bool} {d : Nat} {b b' b'' : IndentedText} {left more : List String}

theorem refl (isSet : String → Bool) {b : IndentedText} (h : b.depth = d) : Writes isSet d b b [] :=
  ⟨h, rfl, [], (List.append_nil _).symm, .nil⟩

theorem trans (h : Writes isSet d b b' left) (h' : Writes isSet d b' b'' more) :
    Writes isSet d b b'' (left ++ more) := by
  obtain ⟨ls, hls, hleaves⟩ := h.lines
  obtain ⟨ms, hms, hleaves'⟩ := h'.lines
  refine ⟨h'.depth, h'.closing.trans h.closing, ls ++ ms, ?_, ?_⟩
  · rw [hms, hls, List.append_assoc]
  · rw [List.map_append]
    exact hleaves.append hleaves'

theorem line (h : Writes isSet d b b' left) {t : String} (ht : IsCode t) :
    Writes isSet d b (b'.line t) (left ++ [(Line.indented d t).text]) := by
  refine h.trans ⟨h.depth, rfl, [.indented b'.depth t], rfl, ?_⟩
  rw [h.depth]
  exact .line (ht.indented d)

theorem emptyLine (h : Writes isSet d b b' left) : Writes isSet d b (b'.line "") left := by
  have hempty : Writes isSet d b' (b'.line "") [] := ⟨h.depth, rfl, [.indented b'.depth ""], rfl, .empty⟩
  have hboth := h.trans hempty
  rwa [List.append_nil] at hboth

theorem addLines (h : Writes isSet d b b' left) {ts : List String} (ht : ∀ t ∈ ts, IsCode t) :
    Writes isSet d b (b'.addLines ts) (left ++ ts.map fun t => (Line.indented d t).text) := by
  obtain ⟨hlines, hdepth, hclosing⟩ := IndentedText.lines_addLines b' ts
  refine h.trans ⟨hdepth.trans h.depth, hclosing, _, hlines, ?_⟩
  rw [List.map_map, h.depth]
  refine .lines fun l hl => ?_
  obtain ⟨t, hmem, rfl⟩ := List.mem_map.1 hl
  exact (ht t hmem).indented d

theorem foldl (h : Writes isSet d b b' left) {α : Type} {f : IndentedText → α → IndentedText} {xs : List α}
    {out : α → List String} (hf : ∀ x ∈ xs, ∀ b, b.depth = d → Writes isSet d b (f b x) (out x)) :
    Writes isSet d b (xs.foldl f b') (left ++ xs.flatMap out) := by
  induction xs generalizing b' left with
  | nil =>
    show Writes isSet d b b' (left ++ [])
    rwa [List.append_nil]
  | cons x xs ih =>
    rw [List.forall_mem_cons] at hf
    rw [List.flatMap_cons, ← List.append_assoc]
    exact ih (h.trans (hf.1 b' h.depth)) hf.2

/-- What stands between a line that opens a conditional and one that closes it. -/
theorem enclosed (h : Writes isSet d b b' left) {first last : Line} {c : Bool}
    (hfirst : Reads (some .opens) first.text) (hc : conditionOf isSet first.text = c)
    (hinner : Writes isSet d (b'.push first) b'' more) (hlast : Reads (some .closes) last.text) :
    Writes isSet d b (b''.push last) (left ++ if c then more else []) := by
  obtain ⟨ls, hls, hleaves⟩ := hinner.lines
  refine h.trans ⟨hinner.depth, hinner.closing, first :: (ls ++ [last]), ?_, ?_⟩
  · show b''.lines ++ [last] = _
    rw [hls]
    simp [IndentedText.push]
  · rw [List.map_cons, List.map_append]
    exact .enclosed hfirst hc hleaves hlast

/-- The lines around a conditional are as deep as what stands in it. -/
theorem enclosedLines (h : Writes isSet d b b' left) {first last : String} {c : Bool}
    (hfirst : Reads (some .opens) first) (hc : conditionOf isSet first = c)
    (hinner : Writes isSet d (b'.line first) b'' more) (hlast : Reads (some .closes) last) :
    Writes isSet d b (b''.line last) (left ++ if c then more else []) :=
  h.enclosed (hfirst.indented _) ((conditionOf_indented isSet _ _).trans hc) hinner (hlast.indented _)

/-- Inside a block nothing is written yet. -/
theorem opened (h : Writes isSet d b b' left) (header footer : String) :
    Writes isSet (d + 1) (b'.openBlock header footer) (b'.openBlock header footer) [] :=
  .refl isSet (congrArg (· + 1) h.depth)

/-- A block adds its own lines to what stands in it. -/
theorem block (h : Writes isSet d b b' left) {header footer : String} (hheader : IsCode header)
    (hinner : Writes isSet (d + 1) (b'.openBlock header footer) b'' more) (hfooter : IsCode footer) :
    Writes isSet d b b''.closeBlock
      (left ++ ((Line.indented d header).text :: (more ++ [(Line.indented d footer).text]))) := by
  obtain ⟨ls, hls, hleaves⟩ := hinner.lines
  have hclosing : b''.closing = footer :: b'.closing := hinner.closing
  have hopened : (b'.openBlock header footer).lines = b'.lines ++ [.indented b'.depth header] := rfl
  have hclose : b''.closeBlock = ({ b'' with closing := b'.closing }.dedent).line footer := by
    rw [IndentedText.closeBlock, hclosing]
  have hdepth : ({ b'' with closing := b'.closing }.dedent).depth = d := by
    show b''.depth - 1 = d
    rw [hinner.depth, Nat.add_sub_cancel]
  have hgrown : Writes isSet d b' ({ b'' with closing := b'.closing }.dedent)
      ((Line.indented d header).text :: more) := by
    refine ⟨hdepth, rfl, .indented b'.depth header :: ls, ?_, ?_⟩
    · show b''.lines = _
      rw [hls, hopened, List.append_assoc]
      rfl
    · rw [List.map_cons, h.depth]
      exact (Leaves.line (hheader.indented d)).append hleaves
  rw [hclose]
  exact h.trans (hgrown.line hfooter)

/-- **The text of code that is built leaves what was written.** -/
theorem render (h : Writes isSet d { depth := d } b left) : Leaves isSet [b.render] left := by
  obtain ⟨ls, hls, hleaves⟩ := h.lines
  have hlines : b.lines = ls := hls
  rw [IndentedText.render, hlines]
  exact .joined hleaves

end Writes

end NativeGlue.Code
