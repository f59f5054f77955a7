import NativeGlue.Proofs.Fallible
import NativeGlue.Proofs.Symbol.Spelling

/-!
# Which spellings are read back

A separator is misread if what follows it looks like the rest of an escape. The reader then takes the
separator and the characters behind it for one unit, and stands in front of a character of the text
again, so it never makes up for what it has lost: the units that it finds are fewer than those of the
text (`length_demangleUnits_mangleChars`). So the texts that are read back are known exactly
(`read_mangle_iff`).
-/

namespace NativeGlue.Symbol

open NativeGlue.Text

/-! ## 1. What misleads a reader -/

/-- A text of four characters that are lower-case hexadecimal digits. -/
def IsHexQuad (s : List Char) : Prop := s.length = 4 ∧ ∀ c ∈ s, c ∈ "0123456789abcdef".toList

/-- A text that begins with `1`, `2` or `3`, or with `0` and four hexadecimal digits. -/
def BeginsEscape (s : List Char) : Prop :=
  (∃ c r, s = c :: r ∧ c ∈ ['1', '2', '3']) ∨ ∃ q r, s = '0' :: (q ++ r) ∧ IsHexQuad q

/-- A text in which such characters stand directly behind a dot or a slash. -/
def Misleading (s : List Char) : Prop :=
  ∃ before sep after, s = before ++ sep :: after ∧ (sep = '.' ∨ sep = '/') ∧ BeginsEscape after

theorem isSome_hexDigit?_iff {c : Char} :
    (hexDigit? c).isSome = true ↔ c ∈ "0123456789abcdef".toList := by
  constructor
  · intro h
    have listed : ∀ n < 128, (hexDigit? (Char.ofNat n)).isSome = true →
        Char.ofNat n ∈ "0123456789abcdef".toList := by decide
    have hascii : c.toNat < 128 := by
      have := isAlphanum_iff.1 (isAlphanum_of_hexDigit? h)
      omega
    have hc := listed c.toNat hascii
    rw [Char.ofNat_toNat] at hc
    exact hc h
  · have digits : ∀ c ∈ "0123456789abcdef".toList, (hexDigit? c).isSome = true := by decide
    exact digits c

theorem hexRun_iff {n : Nat} {s : List Char} :
    hexRun n s = true ↔
      ∃ q r, s = q ++ r ∧ q.length = n ∧ ∀ c ∈ q, c ∈ "0123456789abcdef".toList := by
  induction n generalizing s with
  | zero =>
    refine ⟨fun _ => ⟨[], s, rfl, rfl, nofun⟩, fun _ => rfl⟩
  | succ n ih =>
    cases s with
    | nil =>
      refine ⟨nofun, fun ⟨q, r, hs, hq, _⟩ => ?_⟩
      rw [(List.append_eq_nil_iff.1 hs.symm).1] at hq
      cases hq
    | cons c s =>
      rw [hexRun, Bool.and_eq_true, isSome_hexDigit?_iff, ih]
      constructor
      · rintro ⟨hc, q, r, rfl, hq, hall⟩
        refine ⟨c :: q, r, rfl, congrArg (· + 1) hq, fun d hd => ?_⟩
        rcases List.mem_cons.1 hd with rfl | hd
        · exact hc
        · exact hall d hd
      · rintro ⟨q, r, hs, hq, hall⟩
        obtain ⟨d, q, rfl⟩ := List.exists_cons_of_length_eq_add_one hq
        obtain ⟨rfl, rfl⟩ := List.cons.inj hs
        exact ⟨hall c List.mem_cons_self, q, r, rfl, Nat.succ.inj hq,
          fun d hd => hall d (List.mem_cons_of_mem _ hd)⟩

/-- What looks like the rest of an escape, said without a reader. -/
theorem looksEscaped_iff {s : List Char} : looksEscaped s = true ↔ BeginsEscape s := by
  cases s with
  | nil =>
    refine ⟨nofun, fun h => ?_⟩
    rcases h with ⟨c, r, hs, -⟩ | ⟨q, r, hs, -⟩
    · cases hs
    · cases hs
  | cons c r =>
    simp only [looksEscaped, Bool.or_eq_true, Bool.and_eq_true, beq_iff_eq, hexRun_iff]
    constructor
    · rintro (h | ⟨rfl, q, t, rfl, hq⟩)
      · exact .inl ⟨c, r, rfl, by simpa [or_assoc] using h⟩
      · exact .inr ⟨q, t, rfl, hq⟩
    · rintro (⟨d, t, hs, hd⟩ | ⟨q, t, hs, hq⟩)
      · obtain ⟨rfl, rfl⟩ := List.cons.inj hs
        exact .inl (by simpa [or_assoc] using hd)
      · obtain ⟨rfl, rfl⟩ := List.cons.inj hs
        exact .inr ⟨rfl, q, t, rfl, hq⟩

/-- A text misleads no reader exactly if it is readable. -/
theorem readable_iff {s : List Char} : Readable s ↔ ¬Misleading s := by
  induction s with
  | nil =>
    refine ⟨fun _ ⟨before, sep, after, hs, _⟩ => ?_, fun _ => trivial⟩
    cases (List.append_eq_nil_iff.1 hs.symm).2
  | cons c r ih =>
    rw [Readable, ih]
    constructor
    · rintro ⟨hc, hr⟩ ⟨before, sep, after, hs, hsep, hafter⟩
      cases before with
      | nil =>
        obtain ⟨rfl, rfl⟩ := List.cons.inj hs
        have := hc hsep
        rw [looksEscaped_iff.2 hafter] at this
        cases this
      | cons d before =>
        obtain ⟨rfl, rfl⟩ := List.cons.inj hs
        exact hr ⟨before, sep, after, rfl, hsep, hafter⟩
    · intro h
      refine ⟨fun hsep => Bool.eq_false_iff.2 fun hr => ?_, ?_⟩
      · exact h ⟨[], c, r, rfl, hsep, looksEscaped_iff.1 hr⟩
      · rintro ⟨before, sep, after, rfl, hsep, hafter⟩
        exact h ⟨c :: before, sep, after, rfl, hsep, hafter⟩

instance (s : List Char) : Decidable (Misleading s) :=
  decidable_of_iff (¬Readable s) (by rw [readable_iff, Classical.not_not])

/-! ## 2. What a misread separator costs -/

theorem mangleChars_of_isAlphanum {s : List Char} (h : ∀ c ∈ s, c.isAlphanum = true)
    (t : List Char) : mangleChars (s ++ t) = s ++ mangleChars t := by
  induction s with
  | nil => rfl
  | cons c r ih =>
    have hc : mangleChar c = [c] := by
      obtain ⟨-, hm⟩ | ⟨hc, -⟩ := mangleChar_cases c
      · exact hm
      · rw [h c List.mem_cons_self] at hc
        cases hc
    rw [List.cons_append, mangleChars_cons, hc, ih fun d hd => h d (List.mem_cons_of_mem _ hd)]
    rfl

/-- What is read as the rest of an escape are characters of the text, spelled as themselves. -/
theorem escape?_mangleChars_of_looksEscaped {s : List Char} (h : looksEscaped s = true) :
    ∃ u taken rest, s = taken ++ rest ∧ taken ≠ [] ∧
      escape? (mangleChars s) = some (u, mangleChars rest) := by
  rcases looksEscaped_iff.1 h with ⟨c, r, rfl, hc⟩ | ⟨q, r, rfl, hlen, hq⟩
  · simp only [List.mem_cons, List.not_mem_nil, or_false] at hc
    rcases hc with rfl | rfl | rfl
    · exact ⟨_, ['1'], r, rfl, List.cons_ne_nil _ _, rfl⟩
    · exact ⟨_, ['2'], r, rfl, List.cons_ne_nil _ _, rfl⟩
    · exact ⟨_, ['3'], r, rfl, List.cons_ne_nil _ _, rfl⟩
  · obtain ⟨a, b, c, d, rfl⟩ : ∃ a b c d, q = [a, b, c, d] := by
      match q, hlen with
      | [a, b, c, d], _ => exact ⟨a, b, c, d, rfl⟩
    have halnum : ∀ x ∈ '0' :: [a, b, c, d], x.isAlphanum = true := by
      intro x hx
      rcases List.mem_cons.1 hx with rfl | hx
      · rfl
      · exact isAlphanum_of_hexDigit? (isSome_hexDigit?_iff.2 (hq x hx))
    have hspelled := mangleChars_of_isAlphanum halnum r
    have hsome := (isSome_escape?_mangleChars _).trans h
    obtain ⟨⟨u, rest⟩, he⟩ := Option.isSome_iff_exists.1 hsome
    refine ⟨u, '0' :: [a, b, c, d], r, rfl, List.cons_ne_nil _ _, ?_⟩
    have hrest : rest = mangleChars r := by
      rw [← List.cons_append, hspelled] at he
      obtain ⟨v, -, hv⟩ := Option.map_eq_some_iff.1 (show (hexUnit? a b c d).map _ = _ from he)
      exact (congrArg Prod.snd hv).symm
    rw [he, hrest]

theorem length_ofText_pos {s : List Char} (h : s ≠ []) : 0 < (Units.ofText s).length := by
  obtain ⟨c, r, rfl⟩ := List.exists_cons_of_ne_nil h
  rw [Units.ofText_cons, List.length_append]
  have : 0 < (Units.ofCodePoint c.toNat).length := by
    unfold Units.ofCodePoint
    split
    · exact Nat.one_pos
    · exact Nat.two_pos
  omega

/-- **A reader never finds more units than the text has, and fewer if the text misleads it.** -/
theorem length_demangleUnits_mangleChars (s : List Char) :
    (demangleUnits (mangleChars s)).length ≤ (Units.ofText s).length ∧
      (¬Readable s → (demangleUnits (mangleChars s)).length < (Units.ofText s).length) := by
  -- The induction is on the length: a misread separator takes several characters with it.
  induction hn : s.length using Nat.strongRecOn generalizing s with
  | _ n ih =>
    subst hn
    cases s with
    | nil =>
      rw [mangleChars_nil, demangleUnits]
      exact ⟨Nat.le_refl 0, fun h => absurd trivial h⟩
    | cons c r =>
      obtain ⟨hle, hlt⟩ := ih r.length (Nat.lt_succ_self _) r rfl
      rw [mangleChars_cons, Units.ofText_cons, List.length_append]
      by_cases hc : c = '.' ∨ c = '/'
      · have hone : (Units.ofCodePoint c.toNat).length = 1 := by
          rcases hc with rfl | rfl
          · rfl
          · rfl
        rw [mangleChar_separator hc, List.singleton_append, hone]
        cases hr : looksEscaped r with
        | false =>
          rw [demangleUnits_separator ((isSome_escape?_mangleChars r).trans hr), List.length_cons]
          refine ⟨by omega, fun h => ?_⟩
          have := hlt fun hread => h ⟨fun _ => hr, hread⟩
          omega
        | true =>
          obtain ⟨u, taken, rest, rfl, htaken, he⟩ := escape?_mangleChars_of_looksEscaped hr
          have hpos := length_ofText_pos htaken
          have hshort : rest.length < (c :: (taken ++ rest)).length := by
            rw [List.length_cons, List.length_append]
            omega
          obtain ⟨hrest, -⟩ := ih rest.length hshort rest rfl
          rw [demangleUnits_escape he, List.length_cons, Units.ofText, List.flatMap_append,
            List.length_append]
          unfold Units.ofText at hpos hrest
          exact ⟨by omega, fun _ => by omega⟩
      · rw [demangleUnits_mangleChar_append hc, List.length_append]
        refine ⟨by omega, fun h => ?_⟩
        have := hlt fun hread => h ⟨fun hsep => absurd hsep hc, hread⟩
        omega

/-! ## 3. Reading back -/

theorem length_ofText_slashed (s : List Char) :
    (Units.ofText (slashed s)).length = (Units.ofText s).length := by
  induction s with
  | nil => rfl
  | cons c r ih =>
    rw [slashed_cons, Units.ofText_cons, Units.ofText_cons, List.length_append, List.length_append, ih]
    split
    · rename_i hc
      rw [hc]
      rfl
    · rfl

/-- What is read back as a text are the units of that text. -/
theorem units_of_demangle {s t : List Char} (h : (demangle s).map Units.toText? = .ok (some t)) :
    demangleUnits s = Units.ofText t := by
  obtain ⟨us, hus, ht⟩ := ok_of_map h
  unfold demangle at hus
  dsimp only at hus
  split at hus
  · rename_i hall
    cases hus
    rw [List.all_eq_true] at hall
    exact Units.eq_ofText_of_toText? (fun u hu => of_decide_eq_true (hall u hu)) ht
  · cases hus

theorem demangle_mangleChars {s : List Char} (h : Readable s) :
    demangle (mangleChars s) = .ok (Units.ofText (slashed s)) := by
  have hall : (Units.ofText (slashed s)).all (· < 0x10000) = true := by
    rw [List.all_eq_true]
    intro u hu
    obtain ⟨c, -, hc⟩ := List.mem_flatMap.1 hu
    exact decide_eq_true (Units.lt_of_mem_ofCodePoint (Units.lt_of_char c) hc)
  unfold demangle
  rw [demangleUnits_mangleChars h]
  exact if_pos hall

/-- **A text is read back from its spelling, with slashes for its dots, exactly if it does not mislead
the reader.** So texts that do not are spelled alike only if they are the same up to dots and
slashes. -/
theorem read_mangle_iff :
    (∀ s : String, (demangle (mangle s).toList).map Units.toText? = .ok (some (slashed s.toList)) ↔
      ¬Misleading s.toList) ∧
    ∀ s t : String, ¬Misleading s.toList → ¬Misleading t.toList →
      (mangle s = mangle t ↔ slashed s.toList = slashed t.toList) := by
  have hlist : ∀ s : String, (mangle s).toList = mangleChars s.toList := fun s => String.toList_ofList
  constructor
  · intro s
    rw [hlist, ← readable_iff]
    constructor
    · intro h
      refine Classical.byContradiction fun hread => ?_
      have hlt := (length_demangleUnits_mangleChars s.toList).2 hread
      rw [units_of_demangle h, length_ofText_slashed] at hlt
      exact Nat.lt_irrefl _ hlt
    · intro h
      rw [demangle_mangleChars h]
      exact congrArg Except.ok (Units.toText?_ofText _)
  · intro s t hs ht
    constructor
    · intro h
      have h := congrArg String.toList h
      rw [hlist, hlist] at h
      exact slashed_eq_of_mangleChars (readable_iff.2 hs) (readable_iff.2 ht) h
    · intro h
      refine String.toList_injective ?_
      rw [hlist, hlist, ← mangleChars_slashed, h, mangleChars_slashed]

/-- A name with a letter beyond 16 bits and one with a slash for its dot, and a name that misleads the
reader. -/
theorem read_mangle_names :
    (demangle (mangle "p.𝔸_1").toList).map Units.toText? = .ok (some "p/𝔸_1".toList) ∧
      (demangle (mangle "p.1_𝔸").toList).map Units.toText? ≠ .ok (some "p/1_𝔸".toList) ∧
      mangle "p.𝔸_1" = mangle "p/𝔸_1" :=
  ⟨(read_mangle_iff.1 "p.𝔸_1").2 (by decide), fun h => (read_mangle_iff.1 "p.1_𝔸").1 h (by decide),
    (read_mangle_iff.2 "p.𝔸_1" "p/𝔸_1" (by decide) (by decide)).2 (by decide)⟩

end NativeGlue.Symbol
