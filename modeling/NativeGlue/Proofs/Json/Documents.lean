import NativeGlue.Proofs.Fallible
import NativeGlue.Proofs.Json.Strings
import NativeGlue.Proofs.Keyed
import NativeGlue.Text.Utf8

/-!
# Written documents

An object that is written over several lines is read back as the object that was meant
(`readsAs_object`), provided that its keys are texts, no key is there twice, and each value is the
text of a value at its depth (`ReadsAs`). Strings and numbers are such texts, and so are objects
again, so the stored form of a table is one.

The other way round, the reader yields only documents that could be written (`Sound`): their texts
are texts, the keys of an object differ, and their integers are short enough. No carriage return is ever
written, so the bytes of a document are read as the text that they were made from
(`Text.decodeText?_toUTF8`).
-/

namespace NativeGlue.Data.Json

open NativeGlue.Text

/-! ## 1. Texts of values -/

/-- What may stand behind a written value: a comma, or a line end. -/
def EndsValue (r : List Char) : Prop := ∃ c s, r = c :: s ∧ (c = ',' ∨ c = '\n')

/-- A text that is read as a value, in front of whatever may stand behind one. Nothing that is passed
over begins it. -/
structure ReadsAs (depth : Nat) (t : List Char) (v : Json) : Prop where
  begins : ∃ c s, t = c :: s ∧ isGap c = false
  reads : ∀ n r, t.length < n → EndsValue r → readValue n depth (t ++ r) = .ok (v, r)

/-- A gap in front of something else is passed over. -/
theorem skipGap_append {g : List Char} (hg : ∀ c ∈ g, isGap c = true) (s : List Char) :
    skipGap (g ++ s) = skipGap s := by
  unfold skipGap
  exact List.dropWhile_append_of_pos hg

theorem skipGap_cons {c : Char} (hc : isGap c = false) (s : List Char) :
    skipGap (c :: s) = c :: s := by
  unfold skipGap
  exact List.dropWhile_cons_of_neg (Bool.eq_false_iff.1 hc)

theorem ReadsAs.skipGap {depth : Nat} {t : List Char} {v : Json} (h : ReadsAs depth t v)
    (r : List Char) : skipGap (t ++ r) = t ++ r := by
  obtain ⟨c, s, rfl, hc⟩ := h.begins
  exact skipGap_cons hc (s ++ r)

/-- A point takes at least one character. -/
theorem length_le_written (s : List Nat) : s.length ≤ (s.flatMap writePoint).length := by
  induction s with
  | nil => exact Nat.le_refl _
  | cons p t ih =>
    have hp : 1 ≤ (writePoint p).length := by
      obtain ⟨c, e, hw, -⟩ | ⟨c, hw, -⟩ | hw := writePoint_cases p
      · rw [hw]
        exact Nat.le_succ 1
      · rw [hw]
        exact Nat.le_refl 1
      · obtain ⟨u, us, hu⟩ : ∃ u us, Units.ofCodePoint p = u :: us := by
          unfold Units.ofCodePoint
          split
          · exact ⟨_, _, rfl⟩
          · exact ⟨_, _, rfl⟩
        rw [hw, hu, List.flatMap_cons, List.length_append, List.length_cons]
        omega
    rw [List.flatMap_cons, List.length_append, List.length_cons]
    omega

/-- The characters of a written string. -/
theorem toList_writeString (s : CodePoints) :
    (writeString s).toList = '"' :: (s.points.flatMap writePoint ++ ['"']) := by
  rw [writeString, String.toList_ofList]

/-- The quoted part of a string, read with the fuel that its own length gives. -/
theorem readString_writeString {s : CodePoints} (h : s.IsText) (r : List Char) :
    readString ((s.points.flatMap writePoint ++ '"' :: r).length + 1)
      (s.points.flatMap writePoint ++ '"' :: r) = some (s.points, r) := by
  refine readString_written h ?_ r
  have := length_le_written s.points
  rw [List.length_append]
  omega

theorem readValue_quote {r r' : List Char} {t : List Nat} (n depth : Nat)
    (h : readString (r.length + 1) r = some (t, r')) :
    readValue (n + 1) depth ('"' :: r) = .ok (.text ⟨t⟩, r') := by
  simp only [readValue, h]

theorem readValue_empty {r r' : List Char} (n : Nat) {depth : Nat} (hd : depth ≠ 0)
    (h : Json.skipGap r = '\x7d' :: r') :
    readValue (n + 1) depth ('\x7b' :: r) = .ok (.object [], r') := by
  simp only [readValue, if_neg hd, h]

theorem readValue_members {r r' : List Char} (n : Nat) {depth : Nat} (hd : depth ≠ 0)
    (h : Json.skipGap r = '"' :: r') :
    readValue (n + 1) depth ('\x7b' :: r) = readMembers n (depth - 1) [] ('"' :: r') := by
  simp only [readValue, if_neg hd, h]
  rfl

theorem readsAs_string {s : CodePoints} (h : s.IsText) (depth : Nat) :
    ReadsAs depth (writeString s).toList (.text s) where
  begins := ⟨'"', _, toList_writeString s, rfl⟩
  reads n r hn _ := by
    obtain ⟨n, rfl⟩ : ∃ k, n = k + 1 := ⟨n - 1, by omega⟩
    rw [toList_writeString, List.cons_append, List.append_assoc]
    exact readValue_quote n depth (readString_writeString h r)

/-! ## 2. Numbers -/

/-- A digit is none of the characters that a value of another kind begins with. -/
theorem ne_of_isDigit {c d : Char} (hc : c.isDigit = true) (hd : d.isDigit = false) : ¬d = c := by
  intro e
  rw [e, hc] at hd
  cases hd

theorem word?_of_isDigit {c : Char} (hc : c.isDigit = true) (r : List Char) :
    word? (c :: r) = none := by
  have hn : ¬ 'n' = c := ne_of_isDigit hc rfl
  have ht : ¬ 't' = c := ne_of_isDigit hc rfl
  have hf : ¬ 'f' = c := ne_of_isDigit hc rfl
  have hN : ¬ 'N' = c := ne_of_isDigit hc rfl
  have hI : ¬ 'I' = c := ne_of_isDigit hc rfl
  have hm : ¬ '-' = c := ne_of_isDigit hc rfl
  simp [word?, words, hn, ht, hf, hN, hI, hm]

/-- The digits of a number in front of something else are its whole digits. -/
theorem wholeDigits_toDigits (n : Nat) {c : Char} (hc : c.isDigit = false) (r : List Char) :
    wholeDigits (Nat.toDigits 10 n ++ c :: r) = Nat.toDigits 10 n := by
  by_cases hn : n = 0
  · rw [hn]
    rfl
  have digits : ∀ d ∈ Nat.toDigits 10 n, d.isDigit = true :=
    fun d hd => Nat.isDigit_of_mem_toDigits (by omega) (by omega) hd
  rw [wholeDigits.eq_2, List.takeWhile_append_of_pos digits,
    List.takeWhile_cons_of_neg (Bool.eq_false_iff.1 hc), List.append_nil]
  intro s hs
  cases hd : Nat.toDigits 10 n with
  | nil => exact Nat.toDigits_ne_nil hd
  | cons d ds =>
    have h0 := head_toDigits_ten hn
    rw [hd] at hs h0
    rw [List.cons_append] at hs
    exact h0 (congrArg some (List.cons.inj hs).1)

/-- Digits in front of what may stand behind a value are a number. -/
theorem readNumber_toDigits {n : Nat} (hw : isWritable n = true) {r : List Char} (hr : EndsValue r) :
    readNumber false (Nat.toDigits 10 n ++ r) = .ok (.int n, r) := by
  have hlen := length_toDigits_of_writable hw
  have hne : (Nat.toDigits 10 n).isEmpty = false := by
    cases hd : Nat.toDigits 10 n with
    | nil => exact absurd hd Nat.toDigits_ne_nil
    | cons d ds => rfl
  obtain ⟨c, s, rfl, hc⟩ := hr
  have whole : wholeDigits (Nat.toDigits 10 n ++ c :: s) = Nat.toDigits 10 n := by
    rcases hc with rfl | rfl
    · exact wholeDigits_toDigits n rfl s
    · exact wholeDigits_toDigits n rfl s
  have hfrac : fraction? (c :: s) = none := by
    rcases hc with rfl | rfl
    · rfl
    · rfl
  have hexp : exponent? (c :: s) = none := by
    rcases hc with rfl | rfl
    · rfl
    · rfl
  unfold readNumber
  simp only [whole, hne, List.drop_left, hfrac, hexp, Option.map_none, Option.getD_none,
    Option.isNone_none, Bool.and_true, if_true, ofDigits_toDigits, if_neg (Nat.not_lt.2 hlen),
    Bool.false_eq_true, if_false]

theorem readValue_digit {c : Char} (hc : c.isDigit = true) (n depth : Nat) (r : List Char) :
    readValue (n + 1) depth (c :: r) = readNumber false (c :: r) := by
  have hq : ¬ '"' = c := ne_of_isDigit hc rfl
  have hb : ¬ '\x7b' = c := ne_of_isDigit hc rfl
  have hl : ¬ '[' = c := ne_of_isDigit hc rfl
  have hm : ¬ '-' = c := ne_of_isDigit hc rfl
  rw [readValue.eq_6, word?_of_isDigit hc]
  · exact fun s h => hq (List.cons.inj h).1.symm
  · exact fun s h => hb (List.cons.inj h).1.symm
  · exact fun s h => hl (List.cons.inj h).1.symm
  · exact fun s h => hm (List.cons.inj h).1.symm

theorem readsAs_nat {n : Nat} (hw : isWritable n = true) (depth : Nat) :
    ReadsAs depth (Nat.toDigits 10 n) (.int n) := by
  cases hd : Nat.toDigits 10 n with
  | nil => exact absurd hd Nat.toDigits_ne_nil
  | cons c s =>
    have hc : c.isDigit = true :=
      Nat.isDigit_of_mem_toDigits (by omega) (by omega) (hd ▸ List.mem_cons_self)
    refine ⟨⟨c, s, rfl, ?_⟩, fun k r hk hr => ?_⟩
    · simp only [isGap, Bool.or_eq_false_iff, beq_eq_false_iff_ne]
      exact ⟨⟨⟨ne_comm.1 (ne_of_isDigit hc rfl), ne_comm.1 (ne_of_isDigit hc rfl)⟩,
        ne_comm.1 (ne_of_isDigit hc rfl)⟩, ne_comm.1 (ne_of_isDigit hc rfl)⟩
    · obtain ⟨k, rfl⟩ : ∃ j, k = j + 1 := ⟨k - 1, by omega⟩
      have h := readNumber_toDigits hw hr
      rw [hd] at h
      rw [List.cons_append, readValue_digit hc]
      exact h
/-! ## 3. Objects -/

theorem putMember_eq_putKey (k : CodePoints) (v : Json) (ms : List (CodePoints × Json)) :
    putMember k v ms = putKey k v ms := by
  induction ms with
  | nil => rfl
  | cons m r ih =>
    rw [putMember, putKey, ih]

/-- A member of an object to be written: its key, the text of its value and the value itself. -/
structure Member where
  key : CodePoints
  text : String
  value : Json

/-- The characters of a member, without the blanks that are written in front of it. -/
def Member.chars (m : Member) : List Char :=
  (writeString m.key).toList ++ ':' :: ' ' :: m.text.toList

/-- A member whose key is a text, and whose value is read at a depth. -/
structure Member.Reads (depth : Nat) (m : Member) : Prop where
  key : m.key.IsText
  value : ReadsAs depth m.text.toList m.value

section

variable {depth : Nat} {m : Member} {n : Nat} {r r' : List Char}

/-- What is read once the key of a member and its value are. -/
theorem readMembers_chars (hm : m.Reads depth) (hn : m.chars.length < n + 1) (hr : EndsValue r) :
    ∃ s, readString (s.length + 1) s = some (m.key.points, ':' :: ' ' :: (m.text.toList ++ r)) ∧
      m.chars ++ r = '"' :: s ∧ skipGap (' ' :: (m.text.toList ++ r)) = m.text.toList ++ r ∧
      readValue n depth (m.text.toList ++ r) = .ok (m.value, r) := by
  refine ⟨_, readString_writeString hm.key _, ?_, ?_, ?_⟩
  · rw [Member.chars, toList_writeString]
    simp only [List.cons_append, List.append_assoc, List.nil_append]
  · exact (skipGap_append (List.forall_mem_singleton.2 rfl) _).trans (hm.value.skipGap r)
  · refine hm.value.reads n r ?_ hr
    rw [Member.chars, toList_writeString] at hn
    simp only [List.length_append, List.length_cons] at hn
    omega

/-- The last member closes the object. -/
theorem readMembers_last (hm : m.Reads depth) (hn : m.chars.length < n + 1) (hr : EndsValue r)
    (h : skipGap r = '\x7d' :: r') (done : List (CodePoints × Json)) :
    readMembers (n + 1) depth done (m.chars ++ r) =
      .ok (.object (putMember m.key m.value done), r') := by
  obtain ⟨s, hkey, hs, hgap, hval⟩ := readMembers_chars hm hn hr
  rw [hs, readMembers.eq_2, hkey]
  simp only [skipGap_cons (c := ':') rfl, hgap, hval, h, bind, Except.bind]

/-- After any other member the next one is read. -/
theorem readMembers_next (hm : m.Reads depth) (hn : m.chars.length < n + 1) (hr : EndsValue r)
    (h : skipGap r = ',' :: r') (done : List (CodePoints × Json)) :
    readMembers (n + 1) depth done (m.chars ++ r) =
      readMembers n depth (putMember m.key m.value done) (skipGap r') := by
  obtain ⟨s, hkey, hs, hgap, hval⟩ := readMembers_chars hm hn hr
  rw [hs, readMembers.eq_2, hkey]
  simp only [skipGap_cons (c := ':') rfl, hgap, hval, h, bind, Except.bind]

end

/-- The lines of members: every one indented, and a comma behind all but the last. -/
def memberLines (pad : List Char) (ms : List Member) : List Char :=
  [',', '\n'].intercalate (ms.map fun m => pad ++ m.chars)

theorem memberLines_singleton (pad : List Char) (m : Member) :
    memberLines pad [m] = pad ++ m.chars := by
  rw [memberLines, List.map_singleton, List.intercalate_singleton]

theorem memberLines_cons (pad : List Char) (m m' : Member) (ms : List Member) :
    memberLines pad (m :: m' :: ms) =
      pad ++ (m.chars ++ ',' :: '\n' :: memberLines pad (m' :: ms)) := by
  rw [memberLines, memberLines, List.map_cons, List.map_cons, List.intercalate_cons_cons]
  simp only [List.append_assoc, List.cons_append, List.nil_append]

theorem skipGap_chars (m : Member) (r : List Char) : skipGap (m.chars ++ r) = m.chars ++ r := by
  rw [Member.chars, toList_writeString]
  exact skipGap_cons rfl _

theorem skipGap_newline (r : List Char) : skipGap ('\n' :: r) = skipGap r :=
  skipGap_append (List.forall_mem_singleton.2 rfl) r

/-- The lines of members begin with the quote of the first key. -/
theorem skipGap_memberLines {pad : List Char} (hp : ∀ c ∈ pad, isGap c = true) (m : Member)
    (ms : List Member) (r : List Char) :
    ∃ r', skipGap (memberLines pad (m :: ms) ++ r) = '"' :: r' := by
  have first : ∀ s, ∃ r', skipGap (pad ++ (m.chars ++ s)) = '"' :: r' := by
    intro s
    rw [skipGap_append hp, skipGap_chars, Member.chars, toList_writeString]
    exact ⟨_, rfl⟩
  cases ms with
  | nil =>
    rw [memberLines_singleton, List.append_assoc]
    exact first r
  | cons m' ms =>
    rw [memberLines_cons, List.append_assoc, List.append_assoc]
    exact first _

/-- **Members that are written on lines of their own are read one after the other**, up to the brace
that closes the object. -/
theorem readMembers_written {depth : Nat} {pad tail : List Char} (hp : ∀ c ∈ pad, isGap c = true)
    (ht : ∀ c ∈ tail, isGap c = true) (ms : List Member) (hne : ms ≠ [])
    (hm : ∀ m ∈ ms, m.Reads depth) (r : List Char) {n : Nat}
    {done : List (CodePoints × Json)} (hd : (done.map (·.1) ++ ms.map (·.key)).Nodup)
    (hn : (memberLines pad ms).length < n) :
    readMembers n depth done (skipGap (memberLines pad ms ++ '\n' :: (tail ++ '\x7d' :: r))) =
      .ok (.object (done ++ ms.map fun m => (m.key, m.value)), r) := by
  induction ms generalizing n done with
  | nil => exact absurd rfl hne
  | cons m ms ih =>
    obtain ⟨n, rfl⟩ : ∃ k, n = k + 1 := ⟨n - 1, by omega⟩
    have hread := hm m List.mem_cons_self
    have hput : putMember m.key m.value done = done ++ [(m.key, m.value)] := by
      rw [putMember_eq_putKey]
      refine putKey_of_not_mem (fun h => ?_) m.value
      exact (List.nodup_append.1 hd).2.2 _ h _ List.mem_cons_self rfl
    cases ms with
    | nil =>
      rw [memberLines_singleton] at hn ⊢
      rw [List.length_append] at hn
      have hclose : skipGap ('\n' :: (tail ++ '\x7d' :: r)) = '\x7d' :: r := by
        have hg : ∀ c ∈ '\n' :: tail, isGap c = true := by
          intro c hc
          rcases List.mem_cons.1 hc with rfl | hc
          · rfl
          · exact ht c hc
        exact (skipGap_append hg _).trans (skipGap_cons rfl r)
      rw [List.append_assoc, skipGap_append hp, skipGap_chars,
        readMembers_last hread (by omega) ⟨'\n', _, rfl, .inr rfl⟩ hclose, hput]
      rfl
    | cons m' ms =>
      rw [memberLines_cons] at hn ⊢
      simp only [List.length_append, List.length_cons] at hn
      rw [List.append_assoc, skipGap_append hp, List.append_assoc, skipGap_chars, List.cons_append,
        List.cons_append,
        readMembers_next hread (by omega) ⟨',', _, rfl, .inl rfl⟩ (skipGap_cons rfl _), skipGap_newline,
        hput,
        ih (by simp) (fun x hx => hm x (List.mem_cons_of_mem _ hx)) ?_ (by omega)]
      · simp only [List.map_cons, List.append_assoc, List.cons_append, List.nil_append]
      · simpa only [List.map_append, List.map_cons, List.map_nil, List.append_assoc,
          List.cons_append, List.nil_append] using hd

/-! ## 4. Objects over several lines -/

theorem toList_blanks (n : Nat) : (copies n " ").toList = List.replicate n ' ' :=
  toList_copies_char rfl n

/-- The characters of an object with members. -/
theorem toList_writeObject (depth : Nat) {ms : List Member} (hne : ms ≠ []) :
    (writeObject depth (ms.map fun m => (m.key, m.text))).toList =
      '\x7b' :: '\n' :: (memberLines (List.replicate (2 * (depth + 1)) ' ') ms ++
        '\n' :: (List.replicate (2 * depth) ' ' ++ ['\x7d'])) := by
  have hempty : (ms.map fun m => (m.key, m.text)).isEmpty = false := by
    rw [List.isEmpty_map]
    exact List.isEmpty_eq_false_iff.2 hne
  have hline : ∀ m : Member,
      (copies (2 * (depth + 1)) " " ++ writeString m.key ++ ": " ++ m.text).toList =
        List.replicate (2 * (depth + 1)) ' ' ++ m.chars := by
    intro m
    simp only [String.toList_append, toList_blanks, Member.chars, List.append_assoc]
    rfl
  have hlines : ((ms.map fun m => (m.key, m.text)).map fun x =>
      copies (2 * (depth + 1)) " " ++ writeString x.1 ++ ": " ++ x.2).map String.toList =
      ms.map fun m => List.replicate (2 * (depth + 1)) ' ' ++ m.chars := by
    rw [List.map_map, List.map_map]
    exact List.map_congr_left fun m _ => hline m
  unfold writeObject
  rw [hempty, if_neg Bool.false_ne_true]
  simp only [String.toList_append, String.toList_intercalate, toList_blanks]
  rw [hlines]
  simp only [List.append_assoc]
  rfl

/-- **A written object is read back as the object that was meant.** -/
theorem readsAs_object {level depth : Nat} {ms : List Member} (hd : (ms.map (·.key)).Nodup)
    (hm : ∀ m ∈ ms, m.Reads level) :
    ReadsAs (level + 1) (writeObject depth (ms.map fun m => (m.key, m.text))).toList
      (.object (ms.map fun m => (m.key, m.value))) := by
  by_cases hne : ms = []
  · subst hne
    have he : (writeObject depth []).toList = ['\x7b', '\x7d'] := by
      rw [writeObject, if_pos List.isEmpty_nil]
      rfl
    rw [List.map_nil, he]
    refine ⟨⟨'\x7b', ['\x7d'], rfl, rfl⟩, fun n r hn _ => ?_⟩
    obtain ⟨n, rfl⟩ : ∃ k, n = k + 1 := ⟨n - 1, by omega⟩
    exact readValue_empty n (Nat.succ_ne_zero level) (skipGap_cons rfl r)
  · rw [toList_writeObject depth hne]
    refine ⟨⟨'\x7b', _, rfl, rfl⟩, fun n r hn _ => ?_⟩
    obtain ⟨n, rfl⟩ : ∃ k, n = k + 1 := ⟨n - 1, by omega⟩
    have blanks : ∀ k, ∀ c ∈ List.replicate k ' ', isGap c = true := by
      intro k c hc
      rw [List.eq_of_mem_replicate hc]
      rfl
    have hlen : (memberLines (List.replicate (2 * (depth + 1)) ' ') ms).length < n := by
      simp only [List.length_cons, List.length_append] at hn
      omega
    have hread := @readMembers_written _ _ _ (blanks (2 * (depth + 1))) (blanks (2 * depth)) ms hne
      hm r n [] hd hlen
    obtain ⟨m, ms', rfl⟩ := List.exists_cons_of_ne_nil hne
    obtain ⟨r', hr'⟩ := skipGap_memberLines (blanks (2 * (depth + 1))) m ms'
      ('\n' :: (List.replicate (2 * depth) ' ' ++ '\x7d' :: r))
    rw [hr'] at hread
    refine (readValue_members n (Nat.succ_ne_zero level) ?_).trans hread
    rw [← hr', List.append_eq, List.cons_append, skipGap_newline]
    simp only [List.append_assoc, List.cons_append, List.nil_append]

/-! ## 5. Whole documents -/

/-- **A text of a value is read as the value**, with a line end behind it. -/
theorem read_of_readsAs {t : String} {v : Json} (h : ReadsAs maxDepth t.toList v) :
    read (t ++ "\n") = .ok v := by
  have hs : skipGap (t ++ "\n").toList = t.toList ++ ['\n'] := by
    rw [String.toList_append]
    exact h.skipGap ['\n']
  have hread := h.reads (2 * (t.toList ++ ['\n']).length + 1) ['\n'] (by
    rw [List.length_append]
    omega) ⟨'\n', [], rfl, .inr rfl⟩
  unfold read
  rw [hs]
  simp only [hread, bind, Except.bind]
  rfl

/-! ## 6. Documents that could be written -/

/-- A document whose texts are texts, whose integers are short enough to be written, and of whose
objects no two members have one key. -/
inductive Sound : Json → Prop
  | null : Sound .null
  | bool (b : Bool) : Sound (.bool b)
  | int {n : Int} (h : isWritable n = true) : Sound (.int n)
  | float (x : Double) : Sound (.float x)
  | text {s : CodePoints} (h : s.IsText) : Sound (.text s)
  | list (items : List Json) : Sound (.list items)
  | object {ms : List (CodePoints × Json)} (differ : (ms.map (·.1)).Nodup)
      (keys : ∀ m ∈ ms, m.1.IsText) (values : ∀ m ∈ ms, Sound m.2) : Sound (.object ms)

/-- The plain text of such a document is a text. -/
theorem Sound.isText_plain {v : Json} (h : Sound v) : v.plain.IsText := by
  cases h with
  | text h => exact h
  | null => exact CodePoints.isText_ofString _
  | bool b => exact CodePoints.isText_ofString _
  | int h => exact CodePoints.isText_ofString _
  | float x => exact CodePoints.isText_ofString _
  | list items => exact CodePoints.isText_ofString _
  | object hd hk hv => exact CodePoints.isText_ofString _

theorem Sound.putMember {k : CodePoints} {v : Json} {ms : List (CodePoints × Json)}
    (h : Sound (.object ms)) (hk : k.IsText) (hv : Sound v) :
    Sound (.object (putMember k v ms)) := by
  cases h with
  | object differ keys values =>
    rw [putMember_eq_putKey]
    refine .object (nodup_putKey k v differ) (fun m hm => ?_) fun m hm => ?_
    · rcases mem_of_mem_putKey hm with hm | rfl
      · exact keys m hm
      · exact hk
    · rcases mem_of_mem_putKey hm with hm | rfl
      · exact values m hm
      · exact hv

theorem sound_of_word? {s r : List Char} {v : Json} (h : word? s = some (v, r)) : Sound v := by
  obtain ⟨⟨w, u⟩, hw, h⟩ := List.exists_of_findSome?_eq_some h
  have all : ∀ w ∈ words, Sound w.2 := by
    intro w hw
    simp only [words, List.mem_cons, List.not_mem_nil, or_false] at hw
    rcases hw with rfl | rfl | rfl | rfl | rfl | rfl
    · exact .null
    · exact .bool true
    · exact .bool false
    · exact .float _
    · exact .float _
    · exact .float _
  rw [Option.ite_none_right_eq_some] at h
  rw [← (Prod.mk.inj (Option.some.inj h.2)).1]
  exact all _ hw

/-- Whole digits are digits. -/
theorem isDigit_of_mem_wholeDigits {s : List Char} : ∀ c ∈ wholeDigits s, c.isDigit = true := by
  intro c hc
  unfold wholeDigits at hc
  split at hc
  · rw [List.mem_singleton.1 hc]
    rfl
  · exact List.all_eq_true.1 List.all_takeWhile c hc

theorem sound_of_readNumber {negative : Bool} {s r : List Char} {v : Json}
    (h : readNumber negative s = .ok (v, r)) : Sound v := by
  unfold readNumber at h
  dsimp only at h
  split at h
  · cases h
  split at h
  · split at h
    · cases h
    · rename_i hlen
      cases h
      have hw := isWritable_of_length (isDigit_of_mem_wholeDigits (s := s)) (Nat.not_lt.1 hlen)
      refine .int ?_
      split
      · rw [isWritable, Int.natAbs_neg]
        exact hw
      · exact hw
  · cases h
    exact .float _

/-- **Whatever the reader yields could be written**: a value, a list and an object whose members so
far could be. The induction is on the fuel, which all three share. -/
theorem sound_of_readFrom (n : Nat) :
    (∀ {depth s v r}, readValue n depth s = .ok (v, r) → Sound v) ∧
      (∀ {depth done s v r}, readItems n depth done s = .ok (v, r) → Sound v) ∧
      (∀ {depth done s v r}, Sound (.object done) → readMembers n depth done s = .ok (v, r) →
        Sound v) := by
  induction n with
  | zero =>
    refine ⟨fun h => ?_, fun h => ?_, fun _ h => ?_⟩
    · simp [readValue] at h
    · simp [readItems] at h
    · simp [readMembers] at h
  | succ n ih =>
    obtain ⟨ihv, ihi, ihm⟩ := ih
    have empty : Sound (.object []) := .object .nil (by simp) (by simp)
    refine ⟨fun h => ?_, fun h => ?_, fun hd h => ?_⟩
    · unfold readValue at h
      split at h
      · split at h
        · cases h
        · rename_i hs
          cases h
          exact .text (isText_of_readString hs)
      · split at h
        · cases h
        split at h
        · cases h
          exact empty
        · exact ihm empty h
      · split at h
        · cases h
        split at h
        · cases h
          exact .list []
        · exact ihi h
      · split at h
        · rename_i hw
          cases h
          exact sound_of_word? hw
        split at h
        · exact sound_of_readNumber h
        · exact sound_of_readNumber h
    · unfold readItems at h
      obtain ⟨⟨v, r⟩, -, h⟩ := ok_of_bind h
      dsimp only at h
      split at h
      · cases h
        exact .list _
      · exact ihi h
      · cases h
    · unfold readMembers at h
      split at h
      · split at h
        · cases h
        rename_i hk
        split at h
        · obtain ⟨⟨v, r⟩, hv, h⟩ := ok_of_bind h
          have hput := hd.putMember (isText_of_readString hk) (ihv hv)
          dsimp only at h
          split at h
          · cases h
            exact hput
          · exact ihm hput h
          · cases h
        · cases h
      · cases h

theorem sound_of_read {text : String} {v : Json} (h : read text = .ok v) : Sound v := by
  obtain ⟨⟨w, r⟩, hw, h⟩ := ok_of_bind h
  dsimp only at h
  split at h
  · cases h
    exact (sound_of_readFrom _).1 hw
  · cases h

/-! ## 7. Bytes of a document -/

/-- The escape of a unit holds no carriage return. -/
theorem not_return_hex {u : Nat} (h : u < 0x10000) : '\r' ∉ hex 4 u := by
  intro hm
  have hr : ('\r' : Char).isAlphanum = true := by
    rw [hex_four h] at hm
    simp only [List.mem_cons, List.not_mem_nil, or_false] at hm
    rcases hm with hm | hm | hm | hm
    · rw [hm]
      exact isAlphanum_digitChar (by omega)
    · rw [hm]
      exact isAlphanum_digitChar (by omega)
    · rw [hm]
      exact isAlphanum_digitChar (by omega)
    · rw [hm]
      exact isAlphanum_digitChar (by omega)
  cases hr

theorem not_return_writePoint {p : Nat} (hp : p < 0x110000) : '\r' ∉ writePoint p := by
  intro hm
  obtain ⟨c, e, hw, hc, -⟩ | ⟨c, hw, -, -, hc, -⟩ | hw := writePoint_cases p
  · rw [hw] at hm
    simp only [List.mem_cons, List.not_mem_nil, or_false] at hm
    rcases hm with hm | rfl
    · cases hm
    · cases hc
  · rw [hw, List.mem_singleton] at hm
    rw [← hm] at hc
    exact absurd hc (by decide)
  · rw [hw, List.mem_flatMap] at hm
    obtain ⟨u, hu, hm⟩ := hm
    have hlt := Units.lt_of_mem_ofCodePoint hp hu
    simp only [List.mem_cons] at hm
    rcases hm with hm | hm | hm
    · cases hm
    · cases hm
    · exact not_return_hex hlt hm

theorem not_return_writeString {s : CodePoints} (h : s.IsText) :
    '\r' ∉ (writeString s).toList := by
  rw [toList_writeString]
  intro hm
  simp only [List.mem_cons, List.mem_append, List.mem_flatMap, List.not_mem_nil, or_false] at hm
  rcases hm with hm | ⟨p, hp, hm⟩ | hm
  · cases hm
  · exact not_return_writePoint (h.inRange p hp) hm
  · cases hm

theorem not_return_memberLines {pad : List Char} (hp : '\r' ∉ pad) (ms : List Member)
    (hk : ∀ m ∈ ms, m.key.IsText) (hv : ∀ m ∈ ms, '\r' ∉ m.text.toList) :
    '\r' ∉ memberLines pad ms := by
  have line : ∀ m ∈ ms, '\r' ∉ pad ++ m.chars := by
    intro m hm hr
    simp only [Member.chars, List.mem_append, List.mem_cons] at hr
    rcases hr with hr | hr | hr | hr | hr
    · exact hp hr
    · exact not_return_writeString (hk m hm) hr
    · cases hr
    · cases hr
    · exact hv m hm hr
  induction ms with
  | nil => exact List.not_mem_nil
  | cons m ms ih =>
    have hm := line m List.mem_cons_self
    cases ms with
    | nil =>
      rw [memberLines_singleton]
      exact hm
    | cons m' ms =>
      have hrest := ih (fun x hx => hk x (List.mem_cons_of_mem _ hx))
        (fun x hx => hv x (List.mem_cons_of_mem _ hx))
        fun x hx => line x (List.mem_cons_of_mem _ hx)
      rw [memberLines_cons, ← List.append_assoc]
      intro hr
      rcases List.mem_append.1 hr with hr | hr
      · exact hm hr
      · simp only [List.mem_cons] at hr
        rcases hr with hr | hr | hr
        · cases hr
        · cases hr
        · exact hrest hr

/-- An object holds a carriage return only inside the text of a value. -/
theorem not_return_writeObject (depth : Nat) {ms : List Member} (hk : ∀ m ∈ ms, m.key.IsText)
    (hv : ∀ m ∈ ms, '\r' ∉ m.text.toList) :
    '\r' ∉ (writeObject depth (ms.map fun m => (m.key, m.text))).toList := by
  by_cases hne : ms = []
  · rw [hne, List.map_nil, writeObject, if_pos List.isEmpty_nil]
    decide
  · have blank : ∀ k, '\r' ∉ List.replicate k ' ' := by
      intro k hr
      cases List.eq_of_mem_replicate hr
    rw [toList_writeObject depth hne]
    intro hr
    simp only [List.mem_cons, List.mem_append, List.not_mem_nil, or_false] at hr
    rcases hr with hr | hr | hr | hr | hr | hr
    · cases hr
    · cases hr
    · exact not_return_memberLines (blank _) ms hk hv hr
    · cases hr
    · exact blank _ hr
    · cases hr

end NativeGlue.Data.Json

namespace NativeGlue.Text

/-- Where there is no carriage return, all line ends are line feeds already. -/
theorem unifyLineEnds_eq_self {s : List Char} (h : '\r' ∉ s) : unifyLineEnds s = s := by
  fun_induction unifyLineEnds s with
  | case1 => rfl
  | case2 r ih => exact absurd List.mem_cons_self h
  | case3 r hr ih => exact absurd List.mem_cons_self h
  | case4 c r _ _ ih => rw [ih fun hr => h (List.mem_cons_of_mem _ hr)]

/-- **A text without carriage returns is read from its bytes as it is.** -/
theorem decodeText?_toUTF8 {s : String} (h : '\r' ∉ s.toList) : decodeText? s.toUTF8 = some s := by
  have hs : String.fromUTF8? s.toUTF8 = some s := dif_pos s.isValidUTF8
  rw [decodeText?, hs, Option.map_some, unifyLineEnds_eq_self h, String.ofList_toList]

end NativeGlue.Text
