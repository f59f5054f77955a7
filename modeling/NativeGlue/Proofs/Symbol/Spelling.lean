import NativeGlue.Proofs.Text.Digits
import NativeGlue.Proofs.Text.Units
import NativeGlue.Symbol

/-!
# Spellings read back

The spelling of a name is read back as the name, with slashes for its dots, unless a separator in it
stands before something that looks like the rest of an escape (`demangleUnits_mangleChars`). Names of
the language never look like that, since a digit does not begin one. So such names are spelled alike
only if they are the same up to dots and slashes (`slashed_eq_of_mangleChars`).
-/

namespace NativeGlue.Symbol

open NativeGlue.Text

/-! ## 1. What looks like an escape -/

/-- Whether a text begins with so many lower-case hexadecimal digits. -/
def hexRun : Nat → List Char → Bool
  | 0, _ => true
  | _ + 1, [] => false
  | n + 1, c :: r => (hexDigit? c).isSome && hexRun n r

/-- Whether a text would be read as the rest of an escape behind an underscore. -/
def looksEscaped : List Char → Bool
  | [] => false
  | c :: r => c == '1' || c == '2' || c == '3' || (c == '0' && hexRun 4 r)

/-- A text in which no separator stands before what looks like the rest of an escape. -/
def Readable : List Char → Prop
  | [] => True
  | c :: r => ((c = '.' ∨ c = '/') → looksEscaped r = false) ∧ Readable r

/-- A text with slashes for its dots. -/
def slashed (s : List Char) : List Char := s.map fun c => if c = '.' then '/' else c

theorem slashed_cons (c : Char) (r : List Char) :
    slashed (c :: r) = (if c = '.' then '/' else c) :: slashed r := rfl

/-- Dots and slashes are spelled alike. -/
theorem mangleChars_slashed (s : List Char) : mangleChars (slashed s) = mangleChars s := by
  induction s with
  | nil => rfl
  | cons c r ih =>
    rw [slashed_cons, mangleChars_cons, mangleChars_cons, ih]
    split
    · rename_i h
      rw [h]
      rfl
    · rfl

instance decidableReadable : (s : List Char) → Decidable (Readable s)
  | [] => .isTrue trivial
  | c :: r =>
    have := decidableReadable r
    inferInstanceAs (Decidable (((c = '.' ∨ c = '/') → looksEscaped r = false) ∧ Readable r))

theorem isAlphanum_of_hexDigit? {c : Char} (h : (hexDigit? c).isSome = true) :
    c.isAlphanum = true := by
  rw [isAlphanum_iff]
  unfold hexDigit? at h
  split at h
  · rename_i hc
    exact .inr (.inr hc)
  split at h
  · rename_i hc
    have h1 : 97 ≤ c.toNat := hc.1
    have h2 : c.toNat ≤ 102 := hc.2
    omega
  · cases h

/-- A letter or digit is spelled as itself; the spelling of anything else begins with an
underscore. -/
theorem mangleChar_cases (c : Char) :
    (c.isAlphanum = true ∧ mangleChar c = [c]) ∨
      (c.isAlphanum = false ∧ ∃ t, mangleChar c = '_' :: t) := by
  unfold mangleChar
  split
  · rename_i h
    rcases h with rfl | rfl
    · exact .inr ⟨rfl, [], rfl⟩
    · exact .inr ⟨rfl, [], rfl⟩
  split
  · rename_i h
    subst h
    exact .inr ⟨rfl, ['1'], rfl⟩
  split
  · rename_i h
    subst h
    exact .inr ⟨rfl, ['2'], rfl⟩
  split
  · rename_i h
    subst h
    exact .inr ⟨rfl, ['3'], rfl⟩
  split
  · rename_i h
    exact .inl ⟨h, rfl⟩
  · rename_i h
    obtain ⟨u, us, hu⟩ : ∃ u us, Units.ofCodePoint c.toNat = u :: us := by
      unfold Units.ofCodePoint
      split
      · exact ⟨_, _, rfl⟩
      · exact ⟨_, _, rfl⟩
    rw [hu, List.flatMap_cons]
    exact .inr ⟨Bool.eq_false_iff.2 h, _, rfl⟩

/-- Spelling makes no digits and takes none away. -/
theorem hexRun_mangleChars (n : Nat) (s : List Char) : hexRun n (mangleChars s) = hexRun n s := by
  induction n generalizing s with
  | zero => rfl
  | succ n ih =>
    cases s with
    | nil => rfl
    | cons c r =>
      rw [mangleChars_cons]
      obtain ⟨-, hm⟩ | ⟨hc, t, hm⟩ := mangleChar_cases c
      · rw [hm, List.singleton_append, hexRun, hexRun, ih]
      · have hhex : (hexDigit? c).isSome = false := Bool.eq_false_iff.2 fun h => by
          rw [isAlphanum_of_hexDigit? h] at hc
          cases hc
        rw [hm, List.cons_append, hexRun, hexRun, hhex]
        rfl

/-- What is read as an escape behind an underscore. -/
theorem isSome_escape? (s : List Char) : (escape? s).isSome = looksEscaped s := by
  have zero : ∀ r, (escape? ('0' :: r)).isSome = hexRun 4 r := by
    intro r
    match r with
    | [] => rfl
    | [a] => simp [escape?, hexRun]
    | [a, b] => simp [escape?, hexRun]
    | [a, b, c] => simp [escape?, hexRun]
    | a :: b :: c :: d :: r =>
      cases ha : hexDigit? a <;> cases hb : hexDigit? b <;> cases hc : hexDigit? c <;>
        cases hd : hexDigit? d <;> simp [escape?, hexRun, hexUnit?, ha, hb, hc, hd]
  cases s with
  | nil => rfl
  | cons c r =>
    by_cases h1 : c = '1'
    · subst h1
      rfl
    by_cases h2 : c = '2'
    · subst h2
      rfl
    by_cases h3 : c = '3'
    · subst h3
      rfl
    by_cases h0 : c = '0'
    · subst h0
      rw [zero]
      rfl
    · have hnone : escape? (c :: r) = none := by
        unfold escape?
        split
        · rename_i h
          exact absurd (List.cons.inj h).1 h1
        · rename_i h
          exact absurd (List.cons.inj h).1 h2
        · rename_i h
          exact absurd (List.cons.inj h).1 h3
        · rename_i h
          exact absurd (List.cons.inj h).1 h0
        · rfl
      simp [hnone, looksEscaped, h1, h2, h3, h0]

/-- A spelling looks like the rest of an escape only if the text does. -/
theorem isSome_escape?_mangleChars (s : List Char) :
    (escape? (mangleChars s)).isSome = looksEscaped s := by
  rw [isSome_escape?]
  cases s with
  | nil => rfl
  | cons c r =>
    rw [mangleChars_cons]
    obtain ⟨-, hm⟩ | ⟨hc, t, hm⟩ := mangleChar_cases c
    · rw [hm, List.singleton_append, looksEscaped, looksEscaped, hexRun_mangleChars]
    · have ne : ∀ d : Char, d.isAlphanum = true → (c == d) = false := by
        intro d hd
        refine beq_eq_false_iff_ne.2 fun e => ?_
        rw [e, hd] at hc
        cases hc
      rw [hm, List.cons_append, looksEscaped, looksEscaped, ne '1' rfl, ne '2' rfl, ne '3' rfl,
        ne '0' rfl]
      rfl

/-! ## 2. Reading back -/

theorem demangleUnits_char {c : Char} (h : c ≠ '_') (r : List Char) :
    demangleUnits (c :: r) = c.toNat :: demangleUnits r := by
  rw [demangleUnits, if_neg h]

theorem demangleUnits_escape {r r' : List Char} {u : Nat} (h : escape? r = some (u, r')) :
    demangleUnits ('_' :: r) = u :: demangleUnits r' := by
  rw [demangleUnits, if_pos rfl]
  split
  · rename_i h'
    rw [h] at h'
    cases h'
    rfl
  · rename_i h'
    rw [h] at h'
    cases h'

theorem demangleUnits_separator {r : List Char} (h : (escape? r).isSome = false) :
    demangleUnits ('_' :: r) = '/'.toNat :: demangleUnits r := by
  rw [demangleUnits, if_pos rfl]
  split
  · rename_i h'
    rw [h'] at h
    cases h
  · rfl

/-- The escape of a unit is read as the unit. -/
theorem escape?_escapeUnit {u : Nat} (h : u < 0x10000) (r : List Char) :
    escape? ('0' :: (hex 4 u ++ r)) = some (u, r) := by
  have digit : ∀ d < 16, hexDigit? (Nat.digitChar d) = some d := by decide
  have h1 := digit (u / 4096) (by omega)
  have h2 := digit (u / 256 % 16) (by omega)
  have h3 := digit (u / 16 % 16) (by omega)
  have h4 := digit (u % 16) (by omega)
  have e : ((u / 4096 * 16 + u / 256 % 16) * 16 + u / 16 % 16) * 16 + u % 16 = u := by omega
  rw [hex_four h]
  simp [escape?, hexUnit?, h1, h2, h3, h4, e]

theorem demangleUnits_units {us : List Nat} (h : ∀ u ∈ us, u < 0x10000) (r : List Char) :
    demangleUnits (us.flatMap escapeUnit ++ r) = us ++ demangleUnits r := by
  induction us with
  | nil => rfl
  | cons u t ih =>
    have hu := escape?_escapeUnit (h u List.mem_cons_self) (t.flatMap escapeUnit ++ r)
    rw [List.flatMap_cons, List.append_assoc, escapeUnit, List.cons_append, List.cons_append,
      demangleUnits_escape hu, ih fun x hx => h x (List.mem_cons_of_mem _ hx), List.cons_append]

theorem mangleChar_separator {c : Char} (h : c = '.' ∨ c = '/') : mangleChar c = ['_'] := if_pos h

/-- A character that separates nothing is read back as its units, whatever follows. -/
theorem demangleUnits_mangleChar_append {c : Char} (h : ¬(c = '.' ∨ c = '/')) (t : List Char) :
    demangleUnits (mangleChar c ++ t) = Units.ofCodePoint c.toNat ++ demangleUnits t := by
  have ascii : ∀ {d : Char}, d.toNat < 0x10000 → Units.ofCodePoint d.toNat = [d.toNat] :=
    fun hd => if_pos hd
  unfold mangleChar
  rw [if_neg h]
  split
  · rename_i hc
    rw [hc, ascii (by decide)]
    exact demangleUnits_escape rfl
  rename_i hu
  split
  · rename_i hc
    rw [hc, ascii (by decide)]
    exact demangleUnits_escape rfl
  split
  · rename_i hc
    rw [hc, ascii (by decide)]
    exact demangleUnits_escape rfl
  split
  · rename_i hc
    have hlt : c.toNat < 0x10000 := by
      rw [isAlphanum_iff] at hc
      omega
    rw [ascii hlt, List.singleton_append, demangleUnits_char hu, List.singleton_append]
  · exact demangleUnits_units
      (fun u hm => Units.lt_of_mem_ofCodePoint (Units.lt_of_char c) hm) t

/-- **A spelling is read back as the units of the text**, with slashes for its dots. -/
theorem demangleUnits_mangleChars {s : List Char} (h : Readable s) :
    demangleUnits (mangleChars s) = Units.ofText (slashed s) := by
  induction s with
  | nil => rw [mangleChars_nil, demangleUnits]; rfl
  | cons c r ih =>
    have ih := ih h.2
    rw [mangleChars_cons, slashed_cons, Units.ofText_cons]
    by_cases hc : c = '.' ∨ c = '/'
    · have hr := (isSome_escape?_mangleChars r).trans (h.1 hc)
      have hslash : (if c = '.' then '/' else c) = '/' := by
        rcases hc with rfl | rfl
        · rfl
        · rfl
      rw [mangleChar_separator hc, List.singleton_append, demangleUnits_separator hr, ih, hslash]
      rfl
    · rw [demangleUnits_mangleChar_append hc, ih, if_neg fun hd => hc (.inl hd)]

/-- **Names are spelled alike only if they are the same**, up to dots and slashes. -/
theorem slashed_eq_of_mangleChars {s t : List Char} (hs : Readable s) (ht : Readable t)
    (h : mangleChars s = mangleChars t) : slashed s = slashed t := by
  have hu := demangleUnits_mangleChars hs
  rw [h, demangleUnits_mangleChars ht] at hu
  exact (Units.ofText_injective hu).symm

end NativeGlue.Symbol
