import Mathlib.Algebra.Group.Nat.Defs
import NativeGlue.Text.Number
import NativeGlue.Text.Quoted

/-!
# Written digits

What the digits of a number look like, as far as a reader needs it: four hexadecimal digits of a
16-bit unit one by one (`hex_four`), the decimal digits of a number with nothing in front of them
that a reader would stumble over (`head_toDigits_ten`), and the number that they stand for
(`ofDigits_toDigits`).
-/

namespace NativeGlue.Text

/-! ## 1. Letters and digits -/

theorem isDigit_iff {c : Char} : c.isDigit = true ↔ 48 ≤ c.toNat ∧ c.toNat ≤ 57 := by
  simp only [Char.isDigit, Bool.and_eq_true, decide_eq_true_eq, ge_iff_le, UInt32.le_iff_toNat_le]
  exact Iff.rfl

theorem isUpper_iff {c : Char} : c.isUpper = true ↔ 65 ≤ c.toNat ∧ c.toNat ≤ 90 :=
  decide_eq_true_iff.trans (and_congr UInt32.le_iff_toNat_le UInt32.le_iff_toNat_le)

theorem isLower_iff {c : Char} : c.isLower = true ↔ 97 ≤ c.toNat ∧ c.toNat ≤ 122 := by
  have hfirst : decide (c.val ≥ 'a'.val) = true ↔ 97 ≤ c.toNat :=
    decide_eq_true_iff.trans UInt32.le_iff_toNat_le
  have hlast : decide (c.val ≤ 'z'.val) = true ↔ c.toNat ≤ 122 :=
    decide_eq_true_iff.trans UInt32.le_iff_toNat_le
  exact Bool.and_eq_true_iff.trans (and_congr hfirst hlast)

theorem isAlpha_iff {c : Char} : c.isAlpha = true ↔
    (65 ≤ c.toNat ∧ c.toNat ≤ 90) ∨ (97 ≤ c.toNat ∧ c.toNat ≤ 122) :=
  Bool.or_eq_true_iff.trans (or_congr isUpper_iff isLower_iff)

theorem isAlphanum_iff {c : Char} : c.isAlphanum = true ↔
    (65 ≤ c.toNat ∧ c.toNat ≤ 90) ∨ (97 ≤ c.toNat ∧ c.toNat ≤ 122) ∨
      (48 ≤ c.toNat ∧ c.toNat ≤ 57) :=
  (Bool.or_eq_true_iff.trans (or_congr isAlpha_iff isDigit_iff)).trans or_assoc

/-! ## 2. Hexadecimal digits of a unit -/

/-- A unit has at most four hexadecimal digits, and with zeros before them exactly four. -/
theorem hex_four {u : Nat} (h : u < 0x10000) :
    hex 4 u = [Nat.digitChar (u / 4096), Nat.digitChar (u / 256 % 16), Nat.digitChar (u / 16 % 16),
      Nat.digitChar (u % 16)] := by
  have z : Nat.digitChar 0 = '0' := rfl
  have b : 1 < 16 := by omega
  by_cases h1 : u < 16
  · have e1 : u / 4096 = 0 := by omega
    have e2 : u / 256 % 16 = 0 := by omega
    have e3 : u / 16 % 16 = 0 := by omega
    have e4 : u % 16 = u := by omega
    rw [hex, Nat.toDigits_of_lt_base h1, e1, e2, e3, e4, z]
    rfl
  rw [hex, Nat.toDigits_of_base_le b (by omega)]
  by_cases h2 : u / 16 < 16
  · have e1 : u / 4096 = 0 := by omega
    have e2 : u / 256 % 16 = 0 := by omega
    have e3 : u / 16 % 16 = u / 16 := by omega
    rw [Nat.toDigits_of_lt_base h2, e1, e2, e3, z]
    rfl
  rw [Nat.toDigits_of_base_le b (by omega)]
  by_cases h3 : u / 16 / 16 < 16
  · have e1 : u / 4096 = 0 := by omega
    have e2 : u / 256 % 16 = u / 16 / 16 := by omega
    rw [Nat.toDigits_of_lt_base h3, e1, e2, z]
    rfl
  have e1 : u / 16 / 16 / 16 = u / 4096 := by omega
  have e2 : u / 16 / 16 % 16 = u / 256 % 16 := by omega
  have h4 : u / 16 / 16 / 16 < 16 := by omega
  rw [Nat.toDigits_of_base_le b (by omega), Nat.toDigits_of_lt_base h4, e1, e2]
  rfl

/-- A digit below sixteen is read as its value. -/
theorem digitValue?_digitChar {d : Nat} (h : d < 16) : digitValue? 16 (Nat.digitChar d) = some d := by
  have all : ∀ d < 16, digitValue? 16 (Nat.digitChar d) = some d := by decide
  exact all d h

theorem isAlphanum_digitChar {d : Nat} (h : d < 16) : (Nat.digitChar d).isAlphanum = true := by
  have all : ∀ d < 16, (Nat.digitChar d).isAlphanum = true := by decide
  exact all d h

/-! ## 3. Decimal digits -/

/-- The first digit of a number is no zero unless the number is. -/
theorem head_toDigits_ten {n : Nat} (h : n ≠ 0) : (Nat.toDigits 10 n).head? ≠ some '0' := by
  induction n using Nat.strongRecOn with
  | ind n ih =>
    by_cases hn : n < 10
    · rw [Nat.toDigits_of_lt_base hn]
      simpa using h
    · rw [Nat.toDigits_of_base_le (by omega) (by omega)]
      have hq := ih (n / 10) (by omega) (by omega)
      cases hd : Nat.toDigits 10 (n / 10) with
      | nil => exact absurd hd Nat.toDigits_ne_nil
      | cons c r =>
        rw [hd] at hq
        exact hq

/-- The digits of a number stand for the number. -/
theorem ofDigits_toDigits (n : Nat) :
    ofDigits 10 ((Nat.toDigits 10 n).map fun c => c.toNat - 48) = n := by
  rw [ofDigits, List.foldl_map]
  exact Nat.ofDigitChars_ten_toDigits

theorem isWritable_iff {n : Int} : isWritable n = true ↔ n.natAbs < 10 ^ maxDecimalDigits := by
  have h : unwritable = 10 ^ maxDecimalDigits := by simp only [unwritable, Nat.pow_eq]
  rw [← h]
  exact decide_eq_true_iff

/-- A writable number has as many digits as may be read. -/
theorem length_toDigits_of_writable {n : Nat} (h : isWritable n = true) :
    (Nat.toDigits 10 n).length ≤ maxDecimalDigits :=
  (Nat.length_toDigits_le_iff (by omega) (by decide)).2 (isWritable_iff.1 h)

/-- A number below one that can be written can be written. -/
theorem isWritable_of_lt {i j : Int} (h0 : 0 ≤ i) (h : i < j) (hj : isWritable j = true) :
    isWritable i = true := by
  rw [isWritable_iff] at hj ⊢
  omega

/-- A number of so many digits is writable. -/
theorem isWritable_of_length {ds : List Char} (hd : ∀ c ∈ ds, c.isDigit = true)
    (h : ds.length ≤ maxDecimalDigits) :
    isWritable (ofDigits 10 (ds.map fun c => c.toNat - 48) : Nat) = true := by
  have bound : ∀ (l : List Char) (a : Nat), (∀ c ∈ l, c.isDigit = true) →
      (l.map fun c => c.toNat - 48).foldl (fun n d => 10 * n + d) a < 10 ^ l.length * (a + 1) := by
    intro l
    induction l with
    | nil => intro a _; simp
    | cons c r ih =>
      intro a hl
      have hc : c.toNat - 48 ≤ 9 := by
        have := hl c List.mem_cons_self
        simp only [Char.isDigit, Bool.and_eq_true, decide_eq_true_eq] at this
        have h9 : c.val ≤ 57 := this.2
        have : c.toNat ≤ 57 := h9
        omega
      have hr := ih (10 * a + (c.toNat - 48)) fun x hx => hl x (List.mem_cons_of_mem _ hx)
      calc _ < 10 ^ r.length * (10 * a + (c.toNat - 48) + 1) := hr
        _ ≤ 10 ^ r.length * (10 * (a + 1)) := Nat.mul_le_mul_left _ (by omega)
        _ = 10 ^ (c :: r).length * (a + 1) := by
          rw [List.length_cons, Nat.pow_succ, Nat.mul_assoc]
  have hlt := bound ds 0 hd
  rw [Nat.zero_add, Nat.mul_one] at hlt
  have hpow : 10 ^ ds.length ≤ 10 ^ maxDecimalDigits := Nat.pow_le_pow_right (by omega) h
  exact isWritable_iff.2 (Nat.lt_of_lt_of_le hlt hpow)

end NativeGlue.Text
