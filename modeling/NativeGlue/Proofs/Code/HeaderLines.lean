import NativeGlue.Code.Counters
import NativeGlue.Proofs.Code.Lines
import NativeGlue.Proofs.Code.Names

/-!
# The lines of the statistics header

The text of a generated file is cut back into its lines if no line holds a line break of its own
(`splitAt_fileText`). In the statistics header the lines that number symbols are those of its entries
(`numberLine_mem_statsHeader`), and such a line says which symbol and which number it is about
(`numberLine_injective`). So the numbers that a header gives are read off its text
(`numberLine_mem_text`).
-/

namespace NativeGlue.Code

open NativeGlue.Text

/-! ## 1. Lines of a file -/

/-- A line that holds no line break. -/
def Unbroken (l : String) : Prop := '\n' ∉ l.toList ∧ '\r' ∉ l.toList

instance (l : String) : Decidable (Unbroken l) := inferInstanceAs (Decidable (_ ∧ _))

theorem Unbroken.append {s t : String} (hs : Unbroken s) (ht : Unbroken t) : Unbroken (s ++ t) := by
  unfold Unbroken at *
  rw [String.toList_append, List.mem_append, List.mem_append, not_or, not_or]
  exact ⟨⟨hs.1, ht.1⟩, hs.2, ht.2⟩

theorem not_mem_intercalate {c : Char} {sep : String} (hsep : c ∉ sep.toList) {ls : List String}
    (h : ∀ l ∈ ls, c ∉ l.toList) : c ∉ (sep.intercalate ls).toList := by
  induction ls with
  | nil =>
    rw [String.intercalate_nil]
    exact List.not_mem_nil
  | cons l r ih =>
    rw [List.forall_mem_cons] at h
    by_cases hr : r = []
    · rw [hr, String.intercalate_singleton]
      exact h.1
    · rw [String.intercalate_cons_of_ne_nil hr, String.toList_append, String.toList_append, List.mem_append,
        List.mem_append, not_or, not_or]
      exact ⟨⟨h.1, hsep⟩, ih h.2⟩

/-- The text of a file is its lines with a line feed behind each, if no line holds a line break and the
last one is not empty. -/
theorem fileText_eq {ls : List String} {last : String} (h : ∀ l ∈ ls ++ [last], Unbroken l)
    (hlast : last ≠ "") : fileText (ls ++ [last]) = "\n".intercalate (ls ++ [last, ""]) := by
  have hreturn : '\r' ∉ ("\n".intercalate (ls ++ [last])).toList :=
    not_mem_intercalate (by decide) fun l hl => (h l hl).2
  have hreplace : replace ("\n".intercalate (ls ++ [last])) "\r\n" "\n" =
      "\n".intercalate (ls ++ [last]) := by
    have hkept := @replaceFrom_of_not_mem '\r' ['\n'] _ hreturn ['\n'] []
    rw [List.append_nil, replaceFrom, List.append_nil] at hkept
    refine String.toList_injective ?_
    rw [replace, String.toList_ofList]
    exact hkept
  obtain ⟨s, c, hs⟩ : ∃ s c, last.toList = s ++ [c] := by
    have hne : last.toList ≠ [] := fun he => hlast (String.toList_injective he)
    exact ⟨_, _, (List.dropLast_append_getLast hne).symm⟩
  have hc : c ≠ '\n' := by
    rintro rfl
    refine (h last (List.mem_append_right _ (List.mem_singleton_self _))).1 ?_
    rw [hs]
    exact List.mem_append_right _ (List.mem_singleton_self _)
  obtain ⟨r, hr⟩ : ∃ r, ("\n".intercalate (ls ++ [last])).toList = r ++ [c] := by
    by_cases hls : ls = []
    · exact ⟨s, by rw [hls, List.nil_append, String.intercalate_singleton, hs]⟩
    · refine ⟨("\n".intercalate ls ++ "\n").toList ++ s, ?_⟩
      rw [String.intercalate_append_of_ne_nil hls (List.cons_ne_nil _ _),
        String.intercalate_singleton, String.toList_append, hs, List.append_assoc]
  have hkept : dropEnd (· == '\n') (r ++ [c]) = r ++ [c] := dropEnd_eq_self (by simpa using hc)
  rw [fileText, hreplace, hr, hkept, ← hr, List.append_cons ls last [""],
    String.intercalate_append_of_ne_nil (List.concat_ne_nil _ _) (List.cons_ne_nil _ _),
    String.intercalate_singleton, String.append_empty]
  refine String.toList_injective ?_
  rw [String.toList_ofList, String.toList_append]
  rfl

theorem unbroken_of_mem_last {ls : List String} {last : String} (h : ∀ l ∈ ls ++ [last], Unbroken l) :
    ∀ l ∈ ls ++ [last, ""], Unbroken l := by
  rw [List.append_cons ls last [""]]
  intro l hl
  rcases List.mem_append.1 hl with hl | hl
  · exact h l hl
  · rw [List.mem_singleton.1 hl]
    decide

/-- **The text of a file is cut into its lines**, with an empty one behind them, if no line holds a
line break and the last one is not empty. -/
theorem splitAt_fileText {ls : List String} {last : String} (h : ∀ l ∈ ls ++ [last], Unbroken l)
    (hlast : last ≠ "") : splitAt '\n' (fileText (ls ++ [last])) = ls ++ [last, ""] := by
  rw [fileText_eq h hlast]
  refine splitAt_intercalate_of_not_mem rfl (List.append_ne_nil_of_right_ne_nil _ (List.cons_ne_nil _ _)) fun l hl => ?_
  exact (unbroken_of_mem_last h l hl).1

theorem not_return_fileText {ls : List String} {last : String} (h : ∀ l ∈ ls ++ [last], Unbroken l)
    (hlast : last ≠ "") : '\r' ∉ (fileText (ls ++ [last])).toList := by
  rw [fileText_eq h hlast]
  exact not_mem_intercalate (by decide) fun l hl => (unbroken_of_mem_last h l hl).2

/-! ## 2. Numbered symbols -/

/-- The line by which the header numbers a symbol. -/
def numberLine (symbol : String) (i : Int) : String := s!"\t{symbol}_FUNC = {i},"

theorem toList_numberLine (symbol : String) (i : Int) : (numberLine symbol i).toList =
    ('\t' :: symbol.toList ++ "_FUNC =".toList) ++ ' ' :: ((toString i).toList ++ [',']) := by
  have htext : numberLine symbol i = "\t" ++ symbol ++ "_FUNC = " ++ toString i ++ "," := rfl
  simp only [htext, String.toList_append, List.append_assoc]
  rfl

theorem toList_toString_int (i : Int) : (toString i).toList =
    if 0 ≤ i then Nat.toDigits 10 i.toNat else '-' :: Nat.toDigits 10 (-i).toNat := by
  rw [Int.toString_eq_repr, Int.repr_eq_if]
  split
  · exact Nat.toList_repr
  · rw [String.toList_append, Nat.toList_repr]
    rfl

/-- A written number is made of digits, and of a sign in front of them. -/
theorem eq_or_isDigit_of_mem_toString {i : Int} {c : Char} (h : c ∈ (toString i).toList) :
    c = '-' ∨ c.isDigit = true := by
  have digits : ∀ {n : Nat}, c ∈ Nat.toDigits 10 n → c.isDigit = true :=
    fun hn => Nat.isDigit_of_mem_toDigits (by omega) (by omega) hn
  rw [toList_toString_int] at h
  split at h
  · exact .inr (digits h)
  · exact (List.mem_cons.1 h).imp_right digits

/-- A number is known by its digits and its sign. -/
theorem toString_int_injective {i j : Int} (h : (toString i).toList = (toString j).toList) : i = j := by
  have digits : ∀ {m n : Nat}, Nat.toDigits 10 m = Nat.toDigits 10 n → m = n := by
    intro m n h
    rw [← ofDigits_toDigits m, h, ofDigits_toDigits]
  have signed : ∀ {n : Nat} {r : List Char}, Nat.toDigits 10 n ≠ '-' :: r := by
    intro n r h
    have hsign : '-' ∈ Nat.toDigits 10 n := h ▸ List.mem_cons_self
    cases Nat.isDigit_of_mem_toDigits (by omega) (by omega) hsign
  rw [toList_toString_int, toList_toString_int] at h
  split at h
  · split at h
    · have := digits h
      omega
    · exact absurd h signed
  · split at h
    · exact absurd h.symm signed
    · have := digits (List.cons.inj h).2
      omega

/-- Texts that are cut at their last blank are the same piece by piece. -/
theorem eq_of_append_blank {a a' b b' : List Char} (h : a ++ ' ' :: b = a' ++ ' ' :: b')
    (hb : ' ' ∉ b) (hb' : ' ' ∉ b') : a = a' ∧ b = b' := by
  have h := congrArg List.reverse h
  rw [List.reverse_append, List.reverse_append, List.reverse_cons, List.reverse_cons, List.append_assoc,
    List.append_assoc] at h
  obtain ⟨hbb, haa⟩ := eq_of_append_cons h (List.mem_reverse.not.2 hb) (List.mem_reverse.not.2 hb')
  exact ⟨List.reverse_injective haa, List.reverse_injective hbb⟩

/-- **A line that numbers a symbol says which one, and by what number.** -/
theorem numberLine_injective {s s' : String} {i i' : Int} (h : numberLine s i = numberLine s' i') :
    s = s' ∧ i = i' := by
  have hplain : ∀ i : Int, ' ' ∉ (toString i).toList ++ [','] := by
    intro i hm
    rcases List.mem_append.1 hm with hm | hm
    · rcases eq_or_isDigit_of_mem_toString hm with hm | hm
      · cases hm
      · cases hm
    · cases List.mem_singleton.1 hm
  have h := congrArg String.toList h
  rw [toList_numberLine, toList_numberLine] at h
  obtain ⟨hs, hi⟩ := eq_of_append_blank h (hplain i) (hplain i')
  have hs := (List.cons.inj (List.append_cancel_right hs)).2
  have hi := List.append_cancel_right hi
  exact ⟨String.toList_injective hs, toString_int_injective hi⟩

/-! ## 3. The header -/

theorem head?_numberLine (s : String) (i : Int) : (numberLine s i).toList.head? = some '\t' := by
  rw [toList_numberLine]
  rfl

theorem getLast?_numberLine (s : String) (i : Int) : (numberLine s i).toList.getLast? = some ',' := by
  rw [toList_numberLine, ← List.cons_append, ← List.append_assoc, List.getLast?_concat]

/-- Around its entries the header holds lines that do not begin with a tab, beside the one that counts.
None of them holds a line break if the prefix holds none, and the last one is not empty. -/
theorem exists_statsHeader (pre : String) (count : Int) (entries : List StatsEntry) :
    ∃ top bottom last, statsHeader pre count entries =
        top ++ entries.map (fun e => numberLine e.symbol e.index) ++
          (s!"\t{pre}_FUNC_COUNT = {count}" :: bottom ++ [last]) ∧
      (∀ l ∈ top ++ bottom ++ [last], l.toList.head? ≠ some '\t') ∧
      (Unbroken pre → ∀ l ∈ top ++ bottom ++ [last], Unbroken l) ∧ last ≠ "" := by
  refine ⟨_, [_, _], _, rfl, ?_, fun hpre => ?_, ?_⟩
  · simp [banner, toString, String.toList_append]
  · obtain ⟨hbreak, hreturn⟩ := hpre
    simp [banner, toString, Unbroken, String.toList_append, hbreak, hreturn]
  · simp [toString]

/-- The line that counts ends in no comma. -/
theorem numberLine_ne_countLine (s pre : String) (i count : Int) :
    numberLine s i ≠ s!"\t{pre}_FUNC_COUNT = {count}" := by
  intro h
  have htext : (s!"\t{pre}_FUNC_COUNT = {count}" : String) =
      "\t" ++ pre ++ "_FUNC_COUNT = " ++ toString count := rfl
  have hlast := getLast?_numberLine s i
  rw [h, htext, String.toList_append, List.getLast?_append] at hlast
  cases hcount : (toString count).toList.getLast? with
  | none =>
    rw [hcount, Option.none_or, String.toList_append, List.getLast?_append] at hlast
    cases hlast
  | some c =>
    rw [hcount, Option.some_or] at hlast
    obtain rfl := Option.some.inj hlast
    rcases eq_or_isDigit_of_mem_toString (List.mem_of_getLast? hcount) with hc | hc
    · cases hc
    · cases hc

/-- **The lines that number symbols are those of the entries.** -/
theorem numberLine_mem_statsHeader {pre : String} {count : Int} {entries : List StatsEntry} {s : String}
    {i : Int} : numberLine s i ∈ statsHeader pre count entries ↔ ⟨s, i⟩ ∈ entries := by
  obtain ⟨top, bottom, last, hheader, htab, -, -⟩ := exists_statsHeader pre count entries
  rw [hheader]
  constructor
  · intro h
    have around : numberLine s i ∉ top ++ bottom ++ [last] :=
      fun hm => htab _ hm (head?_numberLine s i)
    rcases List.mem_append.1 h with h | h
    · rcases List.mem_append.1 h with h | h
      · exact absurd (List.mem_append_left _ (List.mem_append_left _ h)) around
      · obtain ⟨e, he, hline⟩ := List.mem_map.1 h
        obtain ⟨rfl, rfl⟩ := numberLine_injective hline
        exact he
    · rcases List.mem_cons.1 h with h | h
      · exact absurd h (numberLine_ne_countLine s pre i count)
      · rw [List.append_assoc] at around
        exact absurd (List.mem_append_right _ h) around
  · intro h
    exact List.mem_append_left _ (List.mem_append_right _ (List.mem_map.2 ⟨_, h, rfl⟩))

/-- A name of digits, letters and the like holds no line break. -/
theorem unbroken_of_code {s : String} (h : ∀ c ∈ s.toList, c.toNat = 0 ∨ 48 ≤ c.toNat) :
    Unbroken s := by
  have breaks : ∀ c ∈ ['\n', '\r'], ¬(c.toNat = 0 ∨ 48 ≤ c.toNat) := by decide
  exact ⟨fun hm => breaks _ (by decide) (h _ hm), fun hm => breaks _ (by decide) (h _ hm)⟩

theorem unbroken_toString (i : Int) : Unbroken (toString i) := by
  constructor
  all_goals
    intro hm
    rcases eq_or_isDigit_of_mem_toString hm with hm | hm
    · cases hm
    · cases hm

/-- No line of the header holds a line break if no symbol does. -/
theorem unbroken_of_mem_statsHeader {name : String} {count : Int} {entries : List StatsEntry}
    (h : ∀ e ∈ entries, Unbroken e.symbol) :
    ∀ l ∈ statsHeader (statsPrefix name) count entries, Unbroken l := by
  obtain ⟨top, bottom, last, hheader, -, haround, -⟩ := exists_statsHeader (statsPrefix name) count entries
  have hpre : Unbroken (statsPrefix name) := unbroken_of_code (code_statsPrefix name)
  have hclosed : ∀ t ∈ ["\t", "_FUNC = ", ",", "_FUNC_COUNT = "], Unbroken t := by decide
  have haround := haround hpre
  intro l hl
  rw [hheader] at hl
  rcases List.mem_append.1 hl with hl | hl
  · rcases List.mem_append.1 hl with hl | hl
    · exact haround l (List.mem_append_left _ (List.mem_append_left _ hl))
    · obtain ⟨e, he, rfl⟩ := List.mem_map.1 hl
      exact ((((hclosed "\t" (by decide)).append (h e he)).append (hclosed "_FUNC = " (by decide))).append
        (unbroken_toString _)).append (hclosed "," (by decide))
  · rcases List.mem_cons.1 hl with rfl | hl
    · exact (((hclosed "\t" (by decide)).append hpre).append (hclosed "_FUNC_COUNT = " (by decide))).append
        (unbroken_toString _)
    · rw [List.append_assoc] at haround
      exact haround l (List.mem_append_right _ hl)

/-- **The numbers that a header gives are read off its text**, line by line, if no symbol holds a line
break; and the text holds no carriage return. -/
theorem numberLine_mem_text (name : String) (count : Int) {entries : List StatsEntry}
    (h : ∀ e ∈ entries, Unbroken e.symbol) :
    (∀ s i, numberLine s i ∈ splitAt '\n' (fileText (statsHeader (statsPrefix name) count entries)) ↔
      ⟨s, i⟩ ∈ entries) ∧
      '\r' ∉ (fileText (statsHeader (statsPrefix name) count entries)).toList := by
  have hunbroken := @unbroken_of_mem_statsHeader name count entries h
  have hentries := @numberLine_mem_statsHeader (statsPrefix name) count entries
  obtain ⟨top, bottom, last, hheader, -, -, hlast⟩ := exists_statsHeader (statsPrefix name) count entries
  rw [← List.append_assoc] at hheader
  rw [hheader] at hunbroken hentries ⊢
  refine ⟨fun s i => ?_, not_return_fileText hunbroken hlast⟩
  have hempty : numberLine s i ∉ [""] := by
    intro hm
    have hhead := head?_numberLine s i
    rw [List.mem_singleton.1 hm] at hhead
    cases hhead
  rw [splitAt_fileText hunbroken hlast, List.append_cons _ last [""], List.mem_append, ← hentries]
  exact or_iff_left hempty

end NativeGlue.Code
