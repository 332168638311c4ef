import BoundedRecords.Text.Numeral

/-! Decimal digits read back. The digits of a number are read as that number, with or without regard to
base markers: a leading zero, which would announce another base, is written for zero alone. -/
namespace BoundedRecords

theorem Bytes.isDigit_iff (b : UInt8) : Bytes.isDigit b = true ↔ 48 ≤ b.toNat ∧ b.toNat ≤ 57 := by
  simp [Bytes.isDigit, UInt8.le_iff_toNat_le]

namespace Decimal

theorem digit_toNat (n : Nat) : (digit n).toNat = 48 + n % 10 := by
  have base : UInt8.toNat 48 = 48 := rfl
  simp only [digit, UInt8.toNat_add, Nat.toUInt8_eq, UInt8.toNat_ofNat', base]
  omega

theorem digit_isDigit (n : Nat) : Bytes.isDigit (digit n) = true := by
  rw [Bytes.isDigit_iff, digit_toNat]
  omega

/-- The digits of a number: they are digits, and begin with zero for zero alone. -/
structure Digits (n : Nat) (s : Bytes) : Prop where
  digits : ∀ b ∈ s, Bytes.isDigit b = true
  first : ∃ b rest, s = b :: rest ∧ (b = 0x30 → n = 0 ∧ rest = [])

theorem digit_eq_zero {n : Nat} (small : n < 10) (zero : digit n = 0x30) : n = 0 := by
  have value := digit_toNat n
  rw [zero] at value
  have base : UInt8.toNat 0x30 = 48 := rfl
  omega

theorem mem_digitsOnto {fuel n : Nat} {after : Bytes} {b : UInt8} (found : b ∈ digitsOnto fuel n after) :
    Bytes.isDigit b = true ∨ b ∈ after := by
  induction fuel generalizing n after with
  | zero => exact .inr found
  | succ fuel ih =>
    simp only [digitsOnto] at found
    split at found
    · rcases List.mem_cons.mp found with rfl | later
      · exact .inl (digit_isDigit n)
      · exact .inr later
    · rcases ih found with digit | later
      · exact .inl digit
      · rcases List.mem_cons.mp later with rfl | later
        · exact .inl (digit_isDigit n)
        · exact .inr later

theorem digitsOnto_first {fuel n : Nat} (after : Bytes) (enough : n < fuel) :
    ∃ b rest, digitsOnto fuel n after = b :: rest ∧ (b = 0x30 → n = 0 ∧ rest = after) := by
  induction fuel generalizing n after with
  | zero => omega
  | succ fuel ih =>
    simp only [digitsOnto]
    split
    · rename_i small
      exact ⟨digit n, after, rfl, fun zero => ⟨digit_eq_zero small zero, rfl⟩⟩
    · rename_i large
      obtain ⟨b, rest, written, first⟩ := ih (digit n :: after) (n := n / 10) (by omega)
      refine ⟨b, rest, written, fun zero => ?_⟩
      have := (first zero).1
      omega

theorem ofNat_digits (n : Nat) : Digits n (ofNat n) := by
  refine ⟨fun b found => ?_, digitsOnto_first [] (Nat.lt_succ_self n)⟩
  rcases mem_digitsOnto found with digit | none
  · exact digit
  · cases none

end Decimal

namespace Numeral

theorem digitValue?_digit (n : Nat) : digitValue? (Decimal.digit n) = some (n % 10) := by
  have value := Decimal.digit_toNat n
  simp only [digitValue?, Decimal.digit_isDigit n, if_true, Option.some.injEq, value]
  have base : (0x30 : UInt8).toNat = 48 := rfl
  omega

theorem readDigits_digit (separators : Bool) {m n : Nat} (after : Bytes) (fits : m * 10 + n % 10 < wordCount) :
    readDigits 10 separators m (Decimal.digit n :: after) = readDigits 10 separators (m * 10 + n % 10) after := by
  have value := Decimal.digit_toNat n
  have apart : (Decimal.digit n == 0x5F) = false := by
    rw [beq_eq_false_iff_ne]
    intro same
    rw [same] at value
    have base : UInt8.toNat 0x5F = 95 := rfl
    omega
  have below : ¬ n % 10 ≥ 10 := by omega
  simp only [readDigits, apart, Bool.and_false, Bool.false_eq_true, if_false, digitValue?_digit, below,
    Nat.not_le.mpr fits]

theorem readDigits_digitsOnto (separators : Bool) {fuel n : Nat} (after : Bytes) (enough : n < fuel)
    (fits : n < wordCount) :
    readDigits 10 separators 0 (Decimal.digitsOnto fuel n after) = readDigits 10 separators n after := by
  induction fuel generalizing n after with
  | zero => omega
  | succ fuel ih =>
    simp only [Decimal.digitsOnto]
    split
    · rename_i small
      have value : 0 * 10 + n % 10 = n := by omega
      rw [readDigits_digit separators after (by omega), value]
    · have value : n / 10 * 10 + n % 10 = n := by omega
      rw [ih (Decimal.digit n :: after) (by omega) (by omega), readDigits_digit separators after (by omega), value]

theorem readUnsigned_ofNat (marked : Bool) {n : Nat} (fits : n < wordCount) :
    readUnsigned marked (Decimal.ofNat n) = .ok n := by
  have digits := Decimal.ofNat_digits n
  obtain ⟨b, rest, written, zero⟩ := digits.first
  have filled : (Decimal.ofNat n).isEmpty = false := by rw [written]; rfl
  simp only [readUnsigned, filled, Bool.false_eq_true, if_false]
  cases marked with
  | false => exact readDigits_digitsOnto false [] (Nat.lt_succ_self n) fits
  | true =>
    have plain : (Decimal.ofNat n).contains 0x5F = false := by
      rw [List.contains_eq_mem, decide_eq_false_iff_not]
      intro found
      exact absurd (digits.digits _ found) (by decide)
    simp only [if_true, plain, Bool.false_and, Bool.false_eq_true, if_false]
    by_cases first : b = 0x30
    · obtain ⟨rfl, rfl⟩ := zero first
      rfl
    · have based : baseOf (Decimal.ofNat n) = (10, Decimal.ofNat n) := by
        rw [written]
        unfold baseOf
        split <;> simp_all
      rw [based]
      simp only [Decimal.ofNat, readDigits_digitsOnto true [] (Nat.lt_succ_self n) fits]
      rfl

theorem signOf_ofNat (n : Nat) : signOf (Decimal.ofNat n) = (false, Decimal.ofNat n) := by
  have digits := Decimal.ofNat_digits n
  obtain ⟨b, rest, written, _⟩ := digits.first
  have digit := digits.digits b (by rw [written]; exact List.mem_cons_self)
  rw [written]
  unfold signOf
  split
  · rename_i same
    simp only [List.cons.injEq] at same
    rw [same.1] at digit
    exact absurd digit (by decide)
  · rename_i same
    simp only [List.cons.injEq] at same
    rw [same.1] at digit
    exact absurd digit (by decide)
  · rfl

/-- A signed number is read back from its digits. -/
theorem readSigned_ofInt64 (marked : Bool) (n : Int64) : readSigned marked (Decimal.ofInt64 n) = .ok n := by
  have low := n.le_toInt
  have high := n.toInt_lt
  simp only [Decimal.ofInt64]
  cases value : n.toInt with
  | ofNat k =>
    rw [value, Int.ofNat_eq_natCast] at high
    have fits : k < halfCount := by simp only [halfCount]; omega
    have word : k < wordCount := by simp only [halfCount, wordCount] at *; omega
    have back : Int64.ofInt (k : Int) = n := by
      rw [← Int.ofNat_eq_natCast, ← value, Int64.ofInt_toInt]
    simp only [Decimal.ofInt, readSigned, signOf_ofNat, readUnsigned_ofNat marked word, Bool.false_eq_true,
      if_false, bind, Except.bind, fits, if_true, back, pure, Except.pure]
  | negSucc k =>
    rw [value] at low
    have fits : k + 1 ≤ halfCount := by simp only [halfCount]; omega
    have word : k + 1 < wordCount := by simp only [halfCount, wordCount] at *; omega
    have back : Int64.ofInt (-((k + 1 : Nat) : Int)) = n := by
      rw [← Int.neg_ofNat_succ] at value
      rw [← Int64.ofInt_toInt n, value]
    simp only [Decimal.ofInt, readSigned, signOf, readUnsigned_ofNat marked word, if_true, bind, Except.bind,
      fits, back, pure, Except.pure]

end Numeral
end BoundedRecords
