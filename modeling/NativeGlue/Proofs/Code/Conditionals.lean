import NativeGlue.Code.IndentedText
import NativeGlue.Proofs.Code.HeaderLines

/-!
# Conditionals of the preprocessor

Reading the lines of a text from top to bottom, some conditionals of the preprocessor are open; each line opens
one, begins the alternative of the innermost one, closes it, or does nothing of the kind. Lines are balanced if
this works out and none is open at the end (`Balanced`). Code that is put together from lines of its own and
from whole conditionals (`Even`) leaves open what was open before, wherever it stands, and the text of a file
made of such code is balanced (`balanced_fileText`). Code under construction grows by such code (`Grows`).
-/

namespace NativeGlue.Code

open NativeGlue.Text

/-! ## 1. Reading lines -/

/-- What a line does to conditionals. -/
inductive Turn where
  | opens
  | alternates
  | closes
  deriving DecidableEq, Repr

/-- What the word of a directive is made of. -/
def isDirectivePart (c : Char) : Bool := c.isAlphanum || c == '_'

/-- The word of the directive that a line is: behind a number sign, with blanks around that. -/
def directive? (line : String) : Option String :=
  match line.toList.dropWhile isBlank with
  | '#' :: r => some (String.ofList ((r.dropWhile isBlank).takeWhile isDirectivePart))
  | _ => none

/-- What a line does to conditionals, if it does anything. -/
def turnOf (line : String) : Option Turn :=
  match directive? line with
  | none => none
  | some word =>
    if ["if", "ifdef", "ifndef"].contains word then some .opens
    else if word = "else" then some .alternates
    else if word = "endif" then some .closes
    else none

/-- The conditionals that are open behind a line, the innermost one first, each with whether its alternative has
begun; none if the line does not fit. -/
def readLine (pending : List Bool) (line : String) : Option (List Bool) :=
  match turnOf line, pending with
  | none, p => some p
  | some .opens, p => some (false :: p)
  | some .alternates, false :: p => some (true :: p)
  | some .closes, _ :: p => some p
  | _, _ => none

/-- Every conditional in the lines is closed once, an alternative begins only in an open one and once, and
nothing is closed that is not open. -/
def Balanced (lines : List String) : Prop := lines.foldlM readLine [] = some []

instance (lines : List String) : Decidable (Balanced lines) :=
  inferInstanceAs (Decidable (lines.foldlM readLine [] = some []))

/-- A line with what it does to conditionals. -/
structure Reads (turn : Option Turn) (l : String) : Prop where
  unbroken : Unbroken l
  turn : turnOf l = turn

instance (turn : Option Turn) (l : String) : Decidable (Reads turn l) :=
  decidable_of_iff (Unbroken l ∧ turnOf l = turn) ⟨fun h => ⟨h.1, h.2⟩, fun h => ⟨h.1, h.2⟩⟩

theorem readLine_plain {l : String} (h : turnOf l = none) (p : List Bool) : readLine p l = some p := by
  unfold readLine
  rw [h]

theorem readLine_opens {l : String} (h : turnOf l = some .opens) (p : List Bool) :
    readLine p l = some (false :: p) := by
  unfold readLine
  rw [h]

theorem readLine_alternates {l : String} (h : turnOf l = some .alternates) (p : List Bool) :
    readLine (false :: p) l = some (true :: p) := by
  unfold readLine
  rw [h]

theorem readLine_closes {l : String} (h : turnOf l = some .closes) (b : Bool) (p : List Bool) :
    readLine (b :: p) l = some p := by
  unfold readLine
  rw [h]

theorem foldlM_cons_of {p q : List Bool} {l : String} (h : readLine p l = some q) (ls : List String) :
    (l :: ls).foldlM readLine p = ls.foldlM readLine q := by
  rw [List.foldlM_cons, h]
  rfl

theorem foldlM_append_of {p q : List Bool} {ls : List String} (h : ls.foldlM readLine p = some q)
    (ms : List String) : (ls ++ ms).foldlM readLine p = ms.foldlM readLine q := by
  rw [List.foldlM_append, h]
  rfl

/-! ## 2. Lines by their beginnings -/

/-- Whether it is known from the beginning of a line which directive the line is. -/
def settles (p : String) : Bool :=
  match p.toList.dropWhile isBlank with
  | [] => false
  | '#' :: r => !((r.dropWhile isBlank).dropWhile isDirectivePart).isEmpty
  | _ => true

theorem directive?_of_hash {l : String} {r : List Char} (h : l.toList.dropWhile isBlank = '#' :: r) :
    directive? l = some (String.ofList ((r.dropWhile isBlank).takeWhile isDirectivePart)) := by
  unfold directive?
  rw [h]
  rfl

theorem directive?_of_ne_hash {l : String} (h : ∀ r, l.toList.dropWhile isBlank ≠ '#' :: r) :
    directive? l = none := by
  unfold directive?
  split
  · rename_i r hr
    exact absurd hr (h r)
  · rfl

theorem dropWhile_append_of {α : Type} {p : α → Bool} {x : List α} (h : x.dropWhile p ≠ []) (y : List α) :
    (x ++ y).dropWhile p = x.dropWhile p ++ y := by
  rw [List.dropWhile_append, if_neg (by simpa using h)]

/-- A word that is followed by something else stays the same whatever comes behind that. -/
theorem takeWhile_append_of {α : Type} {p : α → Bool} {x : List α} (h : x.dropWhile p ≠ []) (y : List α) :
    (x ++ y).takeWhile p = x.takeWhile p := by
  have hlength : (x.takeWhile p).length ≠ x.length := by
    intro he
    have hall := congrArg List.length (List.takeWhile_append_dropWhile (p := p) (l := x))
    rw [List.length_append, he, Nat.add_eq_left] at hall
    exact h (List.length_eq_zero_iff.1 hall)
  rw [List.takeWhile_append, if_neg hlength]

/-- How a line can begin so that it is known which directive it is. -/
theorem cases_of_settles {p : String} (h : settles p = true) :
    (∃ r, p.toList.dropWhile isBlank = '#' :: r ∧ (r.dropWhile isBlank).dropWhile isDirectivePart ≠ []) ∨
      ∃ c r, p.toList.dropWhile isBlank = c :: r ∧ c ≠ '#' := by
  unfold settles at h
  split at h
  · cases h
  · rename_i r hr
    exact .inl ⟨r, hr, by simpa using h⟩
  · rename_i hne hhash
    obtain ⟨c, r, hr⟩ := List.exists_cons_of_ne_nil hne
    exact .inr ⟨c, r, hr, fun hc => hhash r (hc ▸ hr)⟩

/-- **What a line does is known from its beginning.** -/
theorem settles_append {p : String} (h : settles p = true) (s : String) :
    settles (p ++ s) = true ∧ directive? (p ++ s) = directive? p := by
  rcases cases_of_settles h with ⟨r, hr, hword⟩ | ⟨c, r, hr, hc⟩
  · have hblank : r.dropWhile isBlank ≠ [] := fun he => hword (by rw [he, List.dropWhile_nil])
    have hline : (p ++ s).toList.dropWhile isBlank = '#' :: (r ++ s.toList) := by
      rw [String.toList_append, dropWhile_append_of (by simp [hr]), hr, List.cons_append]
    constructor
    · unfold settles
      rw [hline]
      show (!(((r ++ s.toList).dropWhile isBlank).dropWhile isDirectivePart).isEmpty) = true
      rw [dropWhile_append_of hblank, dropWhile_append_of hword]
      simp [hword]
    · rw [directive?_of_hash hline, directive?_of_hash hr, dropWhile_append_of hblank, takeWhile_append_of hword]
  · have hline : (p ++ s).toList.dropWhile isBlank = c :: (r ++ s.toList) := by
      rw [String.toList_append, dropWhile_append_of (by simp [hr]), hr, List.cons_append]
    have hnone : ∀ {l : String} {t : List Char}, l.toList.dropWhile isBlank = c :: t → directive? l = none :=
      fun hl => directive?_of_ne_hash fun t ht => hc (List.cons.inj (hl.symm.trans ht)).1
    constructor
    · unfold settles
      rw [hline]
      split
      · rename_i he
        cases he
      · rename_i he
        exact absurd (List.cons.inj he).1 hc
      · rfl
    · rw [hnone hline, hnone hr]

/-- A line of which it is known from the beginning what it does. -/
structure Settled (turn : Option Turn) (l : String) : Prop where
  settles : settles l = true
  reads : Reads turn l

instance (turn : Option Turn) (l : String) : Decidable (Settled turn l) :=
  decidable_of_iff (settles l = true ∧ Reads turn l) ⟨fun h => ⟨h.1, h.2⟩, fun h => ⟨h.1, h.2⟩⟩

theorem Settled.append {turn : Option Turn} {l s : String} (h : Settled turn l) (hs : Unbroken s) :
    Settled turn (l ++ s) := by
  obtain ⟨hsettles, hsame⟩ := settles_append h.settles s
  refine ⟨hsettles, h.reads.unbroken.append hs, ?_⟩
  rw [← h.reads.turn, turnOf, turnOf, hsame]

/-- A line without a number sign is no directive. -/
theorem reads_of_not_mem {l : String} (hu : Unbroken l) (h : '#' ∉ l.toList) : Reads none l := by
  refine ⟨hu, ?_⟩
  have hnone : directive? l = none := directive?_of_ne_hash fun r hr =>
    h ((List.dropWhile_suffix _).subset (hr ▸ List.mem_cons_self))
  rw [turnOf, hnone]

/-! ## 3. Whole conditionals -/

/-- Texts that are lines of their own, whole conditionals, and such texts put together. -/
inductive Even : List String → Prop
  | nil : Even []
  | line {l : String} (h : Reads none l) : Even [l]
  | append {ls ms : List String} (hl : Even ls) (hm : Even ms) : Even (ls ++ ms)
  | enclosed {first last : String} {ls : List String} (hfirst : Reads (some .opens) first) (hl : Even ls)
      (hlast : Reads (some .closes) last) : Even (first :: (ls ++ [last]))
  | alternatives {first middle last : String} {ls ms : List String} (hfirst : Reads (some .opens) first)
      (hl : Even ls) (hmiddle : Reads (some .alternates) middle) (hm : Even ms)
      (hlast : Reads (some .closes) last) : Even (first :: (ls ++ middle :: (ms ++ [last])))
  | joined {ls : List String} (hl : Even ls) : Even ["\n".intercalate ls]

theorem even_of_forall {ls : List String} (h : ∀ l ∈ ls, Reads none l) : Even ls := by
  induction ls with
  | nil => exact .nil
  | cons l r ih =>
    rw [List.forall_mem_cons] at h
    exact .append (.line h.1) (ih h.2)

theorem even_flatMap {α : Type} {xs : List α} {f : α → List String} (h : ∀ x ∈ xs, Even (f x)) :
    Even (xs.flatMap f) := by
  induction xs with
  | nil => exact .nil
  | cons x r ih =>
    rw [List.forall_mem_cons] at h
    exact .append h.1 (ih h.2)

/-- The lines of texts. -/
def cut (ls : List String) : List String := ls.flatMap (splitAt '\n')

theorem cut_append (ls ms : List String) : cut (ls ++ ms) = cut ls ++ cut ms := List.flatMap_append

theorem cut_cons_of_unbroken {l : String} (h : Unbroken l) (ls : List String) :
    cut (l :: ls) = l :: cut ls := by
  rw [cut, List.flatMap_cons, splitAt_of_not_mem h.1]
  rfl

/-- The lines of texts that are put together are theirs, but for an empty one if there are no texts. -/
theorem cut_intercalate (ls : List String) :
    cut ["\n".intercalate ls] = cut ls ∨ (ls = [] ∧ cut ["\n".intercalate ls] = [""]) := by
  by_cases hne : ls = []
  · exact .inr ⟨hne, by rw [hne]; rfl⟩
  · refine .inl ?_
    rw [cut, List.flatMap_singleton, splitAt_intercalate rfl hne, cut]

/-- **Whole conditionals leave open what was open before.** -/
theorem Even.keeps {ls : List String} (h : Even ls) (p : List Bool) :
    (cut ls).foldlM readLine p = some p := by
  induction h generalizing p with
  | nil => rfl
  | line h =>
    rw [cut_cons_of_unbroken h.unbroken, foldlM_cons_of (readLine_plain h.turn p)]
    rfl
  | append _ _ ihl ihm =>
    rw [cut_append, foldlM_append_of (ihl p)]
    exact ihm p
  | enclosed hfirst _ hlast ih =>
    rw [cut_cons_of_unbroken hfirst.unbroken, cut_append, cut_cons_of_unbroken hlast.unbroken,
      foldlM_cons_of (readLine_opens hfirst.turn p), foldlM_append_of (ih _),
      foldlM_cons_of (readLine_closes hlast.turn _ p)]
    rfl
  | alternatives hfirst _ hmiddle _ hlast ihl ihm =>
    rw [cut_cons_of_unbroken hfirst.unbroken, cut_append, cut_cons_of_unbroken hmiddle.unbroken, cut_append,
      cut_cons_of_unbroken hlast.unbroken, foldlM_cons_of (readLine_opens hfirst.turn p),
      foldlM_append_of (ihl _), foldlM_cons_of (readLine_alternates hmiddle.turn p), foldlM_append_of (ihm _),
      foldlM_cons_of (readLine_closes hlast.turn _ p)]
    rfl
  | @joined ls _ ih =>
    rcases cut_intercalate ls with he | ⟨-, he⟩
    · rw [he]
      exact ih p
    · rw [he]
      rfl

/-- Whole conditionals hold no carriage return. -/
theorem Even.not_return {ls : List String} (h : Even ls) : ∀ l ∈ ls, '\r' ∉ l.toList := by
  induction h with
  | nil => exact List.forall_mem_nil _
  | line h =>
    intro l hl
    rw [List.mem_singleton.1 hl]
    exact h.unbroken.2
  | append _ _ ihl ihm =>
    intro l hl
    exact (List.mem_append.1 hl).elim (ihl l) (ihm l)
  | enclosed hfirst _ hlast ih =>
    intro l hl
    simp only [List.mem_cons, List.mem_append, List.not_mem_nil, or_false] at hl
    rcases hl with rfl | hl | rfl
    · exact hfirst.unbroken.2
    · exact ih l hl
    · exact hlast.unbroken.2
  | alternatives hfirst _ hmiddle _ hlast ihl ihm =>
    intro l hl
    simp only [List.mem_cons, List.mem_append, List.not_mem_nil, or_false] at hl
    rcases hl with rfl | hl | rfl | hl | rfl
    · exact hfirst.unbroken.2
    · exact ihl l hl
    · exact hmiddle.unbroken.2
    · exact ihm l hl
    · exact hlast.unbroken.2
  | joined _ ih =>
    intro l hl
    rw [List.mem_singleton.1 hl]
    exact not_mem_intercalate (by decide) ih

/-! ## 4. Files -/

/-- Line feeds at the end of a text end in empty lines. -/
theorem splitAt_append_feeds (s : List Char) (n : Nat) :
    splitAt '\n' (String.ofList (s ++ List.replicate n '\n')) =
      splitAt '\n' (String.ofList s) ++ List.replicate n "" := by
  induction n with
  | zero => simp
  | succ n ih =>
    have hsplit : ∀ t : List Char, splitAt '\n' (String.ofList (t ++ ['\n'])) =
        splitAt '\n' (String.ofList t) ++ [""] := by
      intro t
      rw [splitAt, splitAt, String.toList_ofList, String.toList_ofList, List.splitOn_append_cons_self,
        List.map_append]
      rfl
    rw [List.replicate_succ', ← List.append_assoc, hsplit, ih, List.append_assoc, ← List.replicate_succ']

/-- Empty lines do nothing. -/
theorem foldlM_readLine_empty (n : Nat) (p : List Bool) : (List.replicate n "").foldlM readLine p = some p := by
  induction n with
  | zero => rfl
  | succ n ih =>
    rw [List.replicate_succ, foldlM_cons_of (readLine_plain (by decide) p)]
    exact ih

/-- **The lines of the text of a file** are those of its texts, but for the empty ones at the end. -/
theorem exists_front_fileText {ls : List String} (h : ∀ l ∈ ls, '\r' ∉ l.toList) :
    ∃ front n, cut ["\n".intercalate ls] = front ++ List.replicate n "" ∧
      splitAt '\n' (fileText ls) = front ++ [""] := by
  have hreturn : '\r' ∉ ("\n".intercalate ls).toList := not_mem_intercalate (by decide) h
  have hreplace : (replace ("\n".intercalate ls) "\r\n" "\n").toList = ("\n".intercalate ls).toList := by
    have hkept := @replaceFrom_of_not_mem '\r' ['\n'] _ hreturn ['\n'] []
    rw [List.append_nil, replaceFrom, List.append_nil] at hkept
    rw [replace, String.toList_ofList]
    exact hkept
  obtain ⟨feeds, hfeeds, hall⟩ := dropEnd_append (· == '\n') ("\n".intercalate ls).toList
  have hfeeds' : feeds = List.replicate feeds.length '\n' :=
    List.eq_replicate_iff.2 ⟨rfl, fun c hc => by simpa using hall c hc⟩
  refine ⟨splitAt '\n' (String.ofList (dropEnd (· == '\n') ("\n".intercalate ls).toList)), feeds.length, ?_, ?_⟩
  · rw [← splitAt_append_feeds, ← hfeeds', ← hfeeds, String.ofList_toList, cut, List.flatMap_singleton]
  · rw [fileText, hreplace]
    exact splitAt_append_feeds _ 1

/-- **The text of a file of whole conditionals is balanced.** -/
theorem balanced_fileText {ls : List String} (h : Even ls) : Balanced (splitAt '\n' (fileText ls)) := by
  obtain ⟨front, n, hcut, hfile⟩ := exists_front_fileText h.not_return
  have hkeeps := (Even.joined h).keeps []
  rw [hcut, List.foldlM_append] at hkeeps
  obtain ⟨p, hp, hkeeps⟩ := Option.bind_eq_some_iff.1 hkeeps
  rw [foldlM_readLine_empty] at hkeeps
  obtain rfl := Option.some.inj hkeeps
  rw [Balanced, hfile, List.foldlM_append, hp]
  exact foldlM_readLine_empty 1 []

/-! ## 5. Code under construction -/

/-- Code under construction has grown by whole conditionals, and the same blocks are open. -/
structure Grows (b b' : IndentedText) : Prop where
  lines : ∃ more, b'.lines = b.lines ++ more ∧ Even (more.map (·.text))
  closing : b'.closing = b.closing

theorem Grows.refl (b : IndentedText) : Grows b b := ⟨⟨[], (List.append_nil _).symm, .nil⟩, rfl⟩

theorem Grows.trans {b b' b'' : IndentedText} (h : Grows b b') (h' : Grows b' b'') : Grows b b'' := by
  obtain ⟨more, hmore, heven⟩ := h.lines
  obtain ⟨rest, hrest, heven'⟩ := h'.lines
  refine ⟨⟨more ++ rest, ?_, ?_⟩, h'.closing.trans h.closing⟩
  · rw [hrest, hmore, List.append_assoc]
  · rw [List.map_append]
    exact heven.append heven'

theorem Grows.foldl {α : Type} {f : IndentedText → α → IndentedText} {xs : List α}
    (h : ∀ x ∈ xs, ∀ b, Grows b (f b x)) (b : IndentedText) : Grows b (xs.foldl f b) := by
  induction xs generalizing b with
  | nil => exact .refl b
  | cons x r ih =>
    rw [List.forall_mem_cons] at h
    exact (h.1 b).trans (ih h.2 _)

theorem toList_tabs (d : Nat) : (copies d "\t").toList = List.replicate d '\t' := toList_copies_char rfl d

/-- Tabs are no line breaks. -/
theorem unbroken_tabs (d : Nat) : Unbroken (copies d "\t") := by
  unfold Unbroken
  rw [toList_tabs, List.mem_replicate, List.mem_replicate]
  exact ⟨fun hc => absurd hc.2 (by decide), fun hc => absurd hc.2 (by decide)⟩

/-- Behind tabs and other blanks a line begins like the line without the tabs. -/
theorem dropWhile_indented (d : Nat) (t : String) :
    (Line.indented d t).text.toList.dropWhile isBlank = t.toList.dropWhile isBlank := by
  unfold Line.text
  dsimp only
  split
  · rename_i hempty
    rw [String.isEmpty_iff.1 hempty]
  · rw [String.toList_append, toList_tabs]
    refine List.dropWhile_append_of_pos fun c hc => ?_
    rw [(List.mem_replicate.1 hc).2]
    decide

theorem directive?_indented (d : Nat) (t : String) : directive? (Line.indented d t).text = directive? t := by
  rw [directive?, directive?, dropWhile_indented]

/-- Tabs in front of a line break nothing. -/
theorem Unbroken.indented {t : String} (h : Unbroken t) (d : Nat) : Unbroken (Line.indented d t).text := by
  unfold Line.text
  dsimp only
  split
  · decide
  · exact (unbroken_tabs d).append h

/-- Tabs in front of a line change nothing. -/
theorem Reads.indented {turn : Option Turn} {t : String} (h : Reads turn t) (d : Nat) :
    Reads turn (Line.indented d t).text := by
  refine ⟨h.unbroken.indented d, ?_⟩
  rw [← h.turn, turnOf, turnOf, directive?_indented]

theorem Grows.push {b : IndentedText} {l : Line} (h : Reads none l.text) : Grows b (b.push l) :=
  ⟨⟨[l], rfl, .line h⟩, rfl⟩

theorem Grows.line {b : IndentedText} {t : String} (h : Reads none t) : Grows b (b.line t) :=
  .push (h.indented b.depth)

theorem Grows.addLines {b : IndentedText} {ts : List String} (h : ∀ t ∈ ts, Reads none t) :
    Grows b (b.addLines ts) :=
  .foldl (fun t ht _ => .line (h t ht)) b

/-- A block adds its own lines to what stands in it. -/
theorem Grows.block {b b' : IndentedText} {header footer : String} (hheader : Reads none header)
    (h : Grows (b.openBlock header footer) b') (hfooter : Reads none footer) : Grows b b'.closeBlock := by
  obtain ⟨more, hmore, heven⟩ := h.lines
  have hclosing : b'.closing = footer :: b.closing := h.closing
  have hopened : (b.openBlock header footer).lines = b.lines ++ [.indented b.depth header] := rfl
  have hclose : b'.closeBlock = ({ b' with closing := b.closing }.dedent).line footer := by
    rw [IndentedText.closeBlock, hclosing]
  have hgrown : Grows b ({ b' with closing := b.closing }.dedent) := by
    refine ⟨⟨.indented b.depth header :: more, ?_, ?_⟩, rfl⟩
    · show b'.lines = _
      rw [hmore, hopened, List.append_assoc]
      rfl
    · exact (Even.line (hheader.indented b.depth)).append heven
  rw [hclose]
  exact hgrown.trans (.line hfooter)

/-- **The text of code that has grown by whole conditionals is one of them.** -/
theorem Grows.render {d : Nat} {b : IndentedText} (h : Grows { depth := d } b) : Even [b.render] := by
  obtain ⟨more, hmore, heven⟩ := h.lines
  have hlines : b.lines = more := hmore
  rw [IndentedText.render, hlines]
  exact .joined heven

end NativeGlue.Code
