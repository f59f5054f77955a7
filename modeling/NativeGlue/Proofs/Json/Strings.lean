import Mathlib.Data.List.Chain
import NativeGlue.Data.Json
import NativeGlue.Proofs.Text.Digits
import NativeGlue.Proofs.Text.Units

/-!
# Strings of a document

A written string is read back as the text that was written (`readString_written`), whatever code
points the text holds, with one exception: a high surrogate that stands right before a low one is
written as two escapes, and two such escapes are read as one character. So the texts that survive
are those in which every such pair has become one character already (`CodePoints.IsText`). A text of
characters is one, and so is whatever the reader yields (`isText_of_readString`): what was read once
can be written and read for ever.
-/

namespace NativeGlue.Text

/-- Code points in range, of which no two could be read as one: no high surrogate stands right
before a low one. -/
structure CodePoints.IsText (t : CodePoints) : Prop where
  inRange : ∀ n ∈ t.points, n < 0x110000
  joined : t.points.IsChain fun a b => ¬(Units.isHigh a = true ∧ Units.isLow b = true)

/-- Characters are no surrogates. -/
theorem CodePoints.isText_ofString (s : String) : (CodePoints.ofString s).IsText where
  inRange n hn := by
    obtain ⟨c, -, rfl⟩ := List.mem_map.1 hn
    exact Units.lt_of_char c
  joined := by
    have h : ∀ l : List Char, (l.map Char.toNat).IsChain
        fun a b => ¬(Units.isHigh a = true ∧ Units.isLow b = true) := by
      intro l
      induction l with
      | nil => exact .nil
      | cons c r ih =>
        cases r with
        | nil => exact .singleton _
        | cons d r =>
          refine .cons_cons (fun hp => ?_) ih
          rw [Units.not_isHigh_toNat] at hp
          exact Bool.false_ne_true hp.1
    exact h _

end NativeGlue.Text

namespace NativeGlue.Data.Json

open NativeGlue.Text

/-! ## 1. One step of the reader -/

/-- The digits of a unit are read as the unit. -/
theorem unit?_hex {u : Nat} (h : u < 0x10000) (r : List Char) : unit? (hex 4 u ++ r) = some (u, r) := by
  rw [hex_four h]
  have e : ofDigits 16 [u / 4096, u / 256 % 16, u / 16 % 16, u % 16] = u := by
    simp only [ofDigits, List.foldl_cons, List.foldl_nil]
    omega
  have h1 : u / 4096 < 16 := by omega
  have h2 : u / 256 % 16 < 16 := by omega
  have h3 : u / 16 % 16 < 16 := by omega
  have h4 : u % 16 < 16 := by omega
  simp [unit?, isAlphanum_digitChar, digitValue?_digitChar, h1, h2, h3, h4, e]

/-- The value of four digits is a unit. -/
theorem lt_of_unit? {s r : List Char} {u : Nat} (h : unit? s = some (u, r)) : u < 0x10000 := by
  have digit : ∀ {x : Char} {d : Nat},
      (if x.isAlphanum then digitValue? 16 x else none) = some d → d < 16 := by
    intro x d hx
    split at hx
    · simp only [digitValue?, Option.filter_eq_some_iff] at hx
      exact of_decide_eq_true hx.2
    · cases hx
  unfold unit? at h
  split at h
  · rename_i a b c d r'
    obtain ⟨ds, hds, he⟩ := Option.bind_eq_some_iff.1 h
    cases he
    simp only [List.mapM_cons, List.mapM_nil, Option.bind_eq_bind, Option.pure_def,
      Option.bind_eq_some_iff] at hds
    obtain ⟨w, hw, l1, ⟨x, hx, l2, ⟨y, hy, l3, ⟨z, hz, l4, hl4, hl3⟩, hl2⟩, hl1⟩, hds⟩ := hds
    cases hl4
    cases hl3
    cases hl2
    cases hl1
    cases hds
    have hw := digit hw
    have hx := digit hx
    have hy := digit hy
    have hz := digit hz
    simp only [ofDigits, List.foldl_cons, List.foldl_nil]
    omega
  · cases h

theorem readString_simple {c e : Char} (n : Nat) (r : List Char) (h : simpleEscape? c = some e) :
    readString (n + 1) ('\\' :: c :: r) = (readString n r).map fun (s, r) => (e.toNat :: s, r) := by
  have hu : c ≠ 'u' := by
    rintro rfl
    cases h
  rw [readString.eq_5 _ _ _ hu, h]
  rfl

theorem readString_plain {c : Char} (n : Nat) (r : List Char) (hq : c ≠ '"') (hb : c ≠ '\\')
    (hc : 32 ≤ c.toNat) :
    readString (n + 1) (c :: r) = (readString n r).map fun (s, r) => (c.toNat :: s, r) := by
  rw [readString.eq_6]
  · rw [if_neg (by omega)]
  · exact hq
  · exact fun _ hc _ => hb hc
  · exact fun _ _ hc _ => hb hc

/-- The escape of a unit stands for it, unless it is the first half of a pair. -/
theorem readString_unit {u : Nat} (n : Nat) (r : List Char) (h : u < 0x10000)
    (hnext : ∀ r', r = '\\' :: 'u' :: r' → Units.isHigh u = true →
      ∃ l r'', unit? r' = some (l, r'') ∧ Units.isLow l = false) :
    readString (n + 1) ('\\' :: 'u' :: (hex 4 u ++ r))
      = (readString n r).map fun (s, r) => (u :: s, r) := by
  rw [readString.eq_4, unit?_hex h]
  simp only [Option.bind_eq_bind, Option.bind_some]
  split
  · rename_i r'
    by_cases hh : Units.isHigh u = true
    · obtain ⟨l, r'', hl, hlow⟩ := hnext r' rfl hh
      simp [hh, hl, hlow]
    · simp [hh]
  · simp

/-- Two escapes that make a pair stand for one character. -/
theorem readString_pair {u l : Nat} (n : Nat) (r : List Char) (hu : Units.isHigh u = true)
    (hl : Units.isLow l = true) :
    readString (n + 1) ('\\' :: 'u' :: (hex 4 u ++ '\\' :: 'u' :: (hex 4 l ++ r)))
      = (readString n r).map fun (s, r) =>
          ((0x10000 + (u - 0xd800) * 0x400 + (l - 0xdc00)) :: s, r) := by
  have hu' : u < 0x10000 := by
    simp only [Units.isHigh, Bool.and_eq_true, decide_eq_true_eq] at hu
    omega
  have hl' : l < 0x10000 := by
    simp only [Units.isLow, Bool.and_eq_true, decide_eq_true_eq] at hl
    omega
  rw [readString.eq_4, unit?_hex hu']
  simp [hu, unit?_hex hl', hl]

/-! ## 2. Written texts -/

/-- The ways in which a code point is written: as an escape of one letter, as itself, or by its
units. -/
theorem writePoint_cases (p : Nat) :
    (∃ c e, writePoint p = ['\\', c] ∧ simpleEscape? c = some e ∧ e.toNat = p) ∨
    (∃ c : Char, writePoint p = [c] ∧ c ≠ '"' ∧ c ≠ '\\' ∧ 32 ≤ c.toNat ∧ c.toNat = p) ∨
    writePoint p = (Units.ofCodePoint p).flatMap fun u => '\\' :: 'u' :: hex 4 u := by
  unfold writePoint
  split
  · rename_i h
    exact .inl ⟨'"', '"', rfl, rfl, h.symm⟩
  split
  · rename_i h
    exact .inl ⟨'\\', '\\', rfl, rfl, h.symm⟩
  split
  · rename_i h
    exact .inl ⟨'n', '\n', rfl, rfl, h.symm⟩
  split
  · rename_i h
    exact .inl ⟨'r', '\r', rfl, rfl, h.symm⟩
  split
  · rename_i h
    exact .inl ⟨'t', '\t', rfl, rfl, h.symm⟩
  split
  · rename_i h
    exact .inl ⟨'f', Char.ofNat 12, rfl, rfl, h.symm⟩
  split
  · rename_i h
    exact .inl ⟨'b', Char.ofNat 8, rfl, rfl, h.symm⟩
  split
  · rename_i hq hb _ _ _ _ _ h
    have hv : p.isValidChar := .inl (by omega)
    have hn : (Char.ofNat p).toNat = p := by
      rw [Char.ofNat, dif_pos hv]
      rfl
    refine .inr (.inl ⟨Char.ofNat p, rfl, ?_, ?_, by omega, hn⟩)
    · intro e
      exact hq (hn ▸ congrArg Char.toNat e)
    · intro e
      exact hb (hn ▸ congrArg Char.toNat e)
  · exact .inr (.inr rfl)

/-- An escape that begins a written text is that of a low surrogate only if the text begins with
one. -/
theorem escape_of_written {s : List Nat} {r r' : List Char} (hs : ∀ n ∈ s, n < 0x110000)
    (h : s.flatMap writePoint ++ '"' :: r = '\\' :: 'u' :: r') :
    ∃ p t u r'', s = p :: t ∧ unit? r' = some (u, r'') ∧
      (Units.isLow u = true → Units.isLow p = true) := by
  cases s with
  | nil => simp at h
  | cons p t =>
    rw [List.flatMap_cons] at h
    obtain ⟨c, e, hw, hc, -⟩ | ⟨c, hw, -, hb, -⟩ | hw := writePoint_cases p
    · rw [hw] at h
      simp only [List.cons_append, List.cons.injEq] at h
      rw [h.2.1] at hc
      cases hc
    · rw [hw] at h
      simp only [List.cons_append, List.cons.injEq] at h
      exact absurd h.1 hb
    · have hp := hs p List.mem_cons_self
      rw [hw] at h
      by_cases hlt : p < 0x10000
      · rw [Units.ofCodePoint, if_pos hlt] at h
        simp only [List.flatMap_cons, List.flatMap_nil, List.append_nil, List.cons_append,
          List.append_assoc, List.cons.injEq, true_and] at h
        rw [← h]
        exact ⟨p, t, p, _, rfl, unit?_hex hlt _, id⟩
      · obtain ⟨u, l, hul, hu, -, -⟩ := Units.ofCodePoint_pair hp hlt
        rw [hul] at h
        simp only [List.flatMap_cons, List.flatMap_nil, List.append_nil, List.cons_append,
          List.append_assoc, List.cons.injEq, true_and] at h
        rw [← h]
        refine ⟨p, t, u, _, rfl, unit?_hex (Units.lt_of_isHigh hu) _, fun hl => ?_⟩
        rw [Units.not_isLow_of_isHigh hu] at hl
        cases hl

/-- **A written text is read back as it was**, whatever follows its closing quote. -/
theorem readString_written {s : List Nat} (h : CodePoints.IsText ⟨s⟩) {n : Nat} (hn : s.length < n)
    (r : List Char) : readString n (s.flatMap writePoint ++ '"' :: r) = some (s, r) := by
  induction s generalizing n with
  | nil =>
    obtain ⟨n, rfl⟩ : ∃ k, n = k + 1 := ⟨n - 1, by simp at hn; omega⟩
    rfl
  | cons p t ih =>
    obtain ⟨n, rfl⟩ : ∃ k, n = k + 1 := ⟨n - 1, by simp at hn; omega⟩
    have ht : CodePoints.IsText ⟨t⟩ :=
      ⟨fun n hn => h.inRange n (List.mem_cons_of_mem _ hn), h.joined.tail⟩
    have hp : p < 0x110000 := h.inRange p List.mem_cons_self
    have ih := ih ht (n := n) (by simpa using hn)
    rw [List.flatMap_cons, List.append_assoc]
    obtain ⟨c, e, hw, hc, rfl⟩ | ⟨c, hw, hq, hb, hlt, rfl⟩ | hw := writePoint_cases p
    · rw [hw, List.cons_append, List.cons_append, List.nil_append, readString_simple n _ hc, ih]
      rfl
    · rw [hw, List.cons_append, List.nil_append, readString_plain n _ hq hb hlt, ih]
      rfl
    · rw [hw]
      by_cases hlt : p < 0x10000
      · rw [Units.ofCodePoint, if_pos hlt, List.flatMap_cons, List.flatMap_nil, List.append_nil,
          List.cons_append, List.cons_append, readString_unit n _ hlt, ih]
        · rfl
        · -- what follows may begin with an escape, but not with that of a low surrogate
          intro r' hr' hh
          obtain ⟨q, t', u, r'', rfl, hu, hl⟩ := escape_of_written ht.inRange hr'
          refine ⟨u, r'', hu, ?_⟩
          have hj := (List.isChain_cons_cons.1 h.joined).1
          exact Bool.eq_false_iff.2 fun hul => hj ⟨hh, hl hul⟩
      · obtain ⟨u, l, hul, hu, hl, e⟩ := Units.ofCodePoint_pair hp hlt
        rw [hul, List.flatMap_cons, List.flatMap_cons, List.flatMap_nil, List.append_nil,
          List.append_assoc]
        simp only [List.cons_append]
        rw [readString_pair n _ hu hl, ih, Option.map_some, e]

/-! ## 3. Read texts -/

/-- A point in front of a text makes a text, unless the two would be read as one. -/
theorem isText_cons {p : Nat} {t : List Nat} (hp : p < 0x110000) (ht : CodePoints.IsText ⟨t⟩)
    (h : Units.isHigh p = true → ∀ q t', t = q :: t' → Units.isLow q = false) :
    CodePoints.IsText ⟨p :: t⟩ where
  inRange n hn := by
    rcases List.mem_cons.1 hn with rfl | hn
    · exact hp
    · exact ht.inRange n hn
  joined := by
    cases t with
    | nil => exact .singleton p
    | cons q t' =>
      refine .cons_cons (fun hpq => ?_) ht.joined
      rw [h hpq.1 q t' rfl] at hpq
      exact Bool.false_ne_true hpq.2

theorem isText_char_cons (c : Char) {t : List Nat} (ht : CodePoints.IsText ⟨t⟩) :
    CodePoints.IsText ⟨c.toNat :: t⟩ := by
  refine isText_cons (Units.lt_of_char c) ht fun hh => absurd hh ?_
  exact Bool.eq_false_iff.1 (Units.not_isHigh_toNat c)

/-- What an escape of units may stand for: a pair of surrogates, or its first unit, which then begins
no pair. -/
theorem readString_unit_cases {n : Nat} {s r : List Char} {t : List Nat}
    (h : readString (n + 1) ('\\' :: 'u' :: s) = some (t, r)) :
    ∃ u s', unit? s = some (u, s') ∧
      ((∃ ps, readString n s' = some (ps, r) ∧ t = u :: ps ∧
          (Units.isHigh u = true → ∀ s'' l r', s' = '\\' :: 'u' :: s'' → unit? s'' = some (l, r') →
            Units.isLow l = false)) ∨
        ∃ r' l ps, Units.isHigh u = true ∧ Units.isLow l = true ∧ readString n r' = some (ps, r) ∧
          t = (0x10000 + (u - 0xd800) * 0x400 + (l - 0xdc00)) :: ps) := by
  rw [readString.eq_4] at h
  obtain ⟨⟨u, s'⟩, hu, h⟩ := Option.bind_eq_some_iff.1 h
  refine ⟨u, s', hu, ?_⟩
  dsimp only at h
  split at h
  · rename_i s''
    by_cases hh : Units.isHigh u = true
    · rw [if_pos hh] at h
      obtain ⟨⟨l, r'⟩, hl, h⟩ := Option.bind_eq_some_iff.1 h
      by_cases hlow : Units.isLow l = true
      · simp only [hlow, if_true, Option.pure_def] at h
        obtain ⟨⟨ps, r''⟩, hr, he⟩ := Option.map_eq_some_iff.1 h
        cases he
        exact .inr ⟨r', l, ps, hh, hlow, hr, rfl⟩
      · simp only [hlow, Option.pure_def] at h
        obtain ⟨⟨ps, r''⟩, hr, he⟩ := Option.map_eq_some_iff.1 h
        cases he
        refine .inl ⟨ps, hr, rfl, fun _ x l' y hx hl' => ?_⟩
        cases hx
        rw [hl] at hl'
        cases hl'
        exact Bool.eq_false_iff.2 hlow
    · rw [if_neg hh] at h
      obtain ⟨⟨ps, r''⟩, hr, he⟩ := Option.map_eq_some_iff.1 h
      cases he
      exact .inl ⟨ps, hr, rfl, fun hh' => absurd hh' hh⟩
  · rename_i hs
    obtain ⟨⟨ps, r''⟩, hr, he⟩ := Option.map_eq_some_iff.1 h
    cases he
    exact .inl ⟨ps, hr, rfl, fun _ x _ _ hx => absurd hx (hs x)⟩

/-- A character that was read in front of a text makes a text that begins with no surrogate. -/
theorem isText_char {c : Char} {o : Option (List Nat × List Char)} {t : List Nat} {r : List Char}
    (ho : ∀ {t r}, o = some (t, r) → CodePoints.IsText ⟨t⟩)
    (h : (o.map fun x => (c.toNat :: x.1, x.2)) = some (t, r)) :
    CodePoints.IsText ⟨t⟩ ∧ ∀ p t', t = p :: t' → Units.isLow p = false := by
  obtain ⟨⟨ps, r'⟩, hr, he⟩ := Option.map_eq_some_iff.1 h
  cases he
  refine ⟨isText_char_cons c (ho hr), fun p t' hp => ?_⟩
  cases hp
  exact Units.not_isLow_toNat c

/-- A text that was read is a text, and it begins with a low surrogate only where an escape of one was
read. -/
theorem isText_and_escape_of_readString {n : Nat} {s r : List Char} {t : List Nat}
    (h : readString n s = some (t, r)) :
    CodePoints.IsText ⟨t⟩ ∧ ∀ p t', t = p :: t' → Units.isLow p = true →
      ∃ s' r', s = '\\' :: 'u' :: s' ∧ unit? s' = some (p, r') := by
  fun_induction readString n s generalizing t r with
  | case1 => cases h
  | case2 => cases h
  | case3 =>
    cases h
    exact ⟨⟨by simp, .nil⟩, by simp⟩
  | case4 n s ih =>
    obtain ⟨u, s', hu, ⟨ps, hr, rfl, hnext⟩ | ⟨r', l, ps, hh, hl, hr, rfl⟩⟩ :=
      readString_unit_cases (n := n) (by rw [readString.eq_4]; exact h)
    · obtain ⟨ht, hlow⟩ := ih s' hr
      refine ⟨isText_cons (by have := lt_of_unit? hu; omega) ht fun hh q t' hq => ?_, ?_⟩
      · refine Bool.eq_false_iff.2 fun hql => ?_
        obtain ⟨s'', r', rfl, hq'⟩ := hlow q t' hq hql
        rw [hnext hh s'' q r' rfl hq'] at hql
        cases hql
      · intro p t' hp _
        cases hp
        exact ⟨s, s', rfl, hu⟩
    · obtain ⟨ht, -⟩ := ih r' hr
      have hu' := Units.lt_of_isHigh hh
      simp only [Units.isHigh, Units.isLow, Bool.and_eq_true, decide_eq_true_eq] at hh hl
      refine ⟨isText_cons (by omega) ht fun hp => ?_, fun p t' hp hlow => ?_⟩
      · have := Units.lt_of_isHigh hp
        omega
      · have hp := (List.cons.inj hp).1
        have := Units.lt_of_isLow hlow
        omega
  | case5 n c s hc ih =>
    obtain ⟨e, -, h⟩ := Option.bind_eq_some_iff.1 h
    obtain ⟨ht, hlow⟩ := isText_char (fun hr => (ih hr).1) h
    exact ⟨ht, fun p t' hp hl => absurd hl (Bool.eq_false_iff.1 (hlow p t' hp))⟩
  | case6 => cases h
  | case7 n c s hq hu hb h32 ih =>
    obtain ⟨ht, hlow⟩ := isText_char (fun hr => (ih hr).1) h
    exact ⟨ht, fun p t' hp hl => absurd hl (Bool.eq_false_iff.1 (hlow p t' hp))⟩

/-- **Whatever the reader yields is a text**, so it can be written and read again. -/
theorem isText_of_readString {n : Nat} {s r : List Char} {t : List Nat}
    (h : readString n s = some (t, r)) : CodePoints.IsText ⟨t⟩ :=
  (isText_and_escape_of_readString h).1

end NativeGlue.Data.Json
