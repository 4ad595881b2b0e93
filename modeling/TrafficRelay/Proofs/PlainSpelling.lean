import Mathlib.Data.List.Basic
import TrafficRelay.Proofs.DecimalSpelling

/-!
# Plain spellings

An integer has many spellings, and what is written is the plain one: it has no
plus sign, no zero in front unless it is zero, and no minus sign before a zero.
Any other spelling of the same integer is at least as long.
-/

namespace TrafficRelay

namespace Decimal

/-- No plus sign, no leading zero, and no minus sign before a zero. -/
structure Plain (bytes : Bytes) : Prop where
  noPlus : bytes.head? ≠ some 43
  noLeadingZero : bytes.head? = some 48 → bytes = [48]
  noMinusZero : ∀ digits, bytes = 45 :: digits → digits.head? ≠ some 48

theorem digitByte_digitValue {digit : UInt8} (isDigit : Bytes.isDigit digit = true) :
    digitByte (digitValue digit) = digit := by
  have lower : 48 ≤ digit.toNat := by
    have bounds := Bool.and_eq_true_iff.mp isDigit
    exact UInt8.le_iff_toNat_le.mp (of_decide_eq_true bounds.1)
  have restored : 48 + (digit.toNat - 48) = digit.toNat := by omega
  rw [digitByte, digitValue, restored, UInt8.ofNat_toNat]

theorem digitValue_lt {digit : UInt8} (isDigit : Bytes.isDigit digit = true) :
    digitValue digit < 10 := by
  have bounds := Bool.and_eq_true_iff.mp isDigit
  have upper : digit.toNat ≤ 57 := UInt8.le_iff_toNat_le.mp (of_decide_eq_true bounds.2)
  unfold digitValue
  omega

theorem digitValue_pos {digit : UInt8} (isDigit : Bytes.isDigit digit = true)
    (nonzero : digit ≠ 48) : 0 < digitValue digit := by
  apply Nat.pos_of_ne_zero
  intro zero
  apply nonzero
  have restored := digitByte_digitValue isDigit
  rw [zero] at restored
  exact restored.symm

theorem digitsValue_singleton (digit : UInt8) :
    digitsValue [digit] = digitValue digit := by
  simp [digitsValue]

theorem ofNat_append_digit {value digit : Nat} (positive : 0 < value)
    (small : digit < 10) :
    ofNat (10 * value + digit) = ofNat value ++ [digitByte digit] := by
  have large : ¬10 * value + digit < 10 := by omega
  have front : (10 * value + digit) / 10 = value := by omega
  have last : (10 * value + digit) % 10 = digit := by omega
  rw [ofNat, if_neg large, front, last]

theorem ofNat_of_lt {value : Nat} (small : value < 10) :
    ofNat value = [digitByte value] := by
  rw [ofNat, if_pos small]

theorem digitsValue_pos {digits : Bytes} (nonempty : digits ≠ [])
    (allDigits : ∀ digit ∈ digits, Bytes.isDigit digit = true)
    (noZero : digits.head? ≠ some 48) : 0 < digitsValue digits := by
  induction digits using List.reverseRecOn with
  | nil => exact (nonempty rfl).elim
  | append_singleton front digit induction =>
      obtain ⟨frontDigits, lastDigits⟩ := List.forall_mem_append.mp allDigits
      have lastDigit := lastDigits digit List.mem_cons_self
      rw [digitsValue_append_digit]
      by_cases alone : front = []
      · subst front
        have nonzero : digit ≠ 48 := by simpa using noZero
        apply Nat.add_pos_right
        exact digitValue_pos lastDigit nonzero
      · apply Nat.add_pos_left
        apply Nat.mul_pos (by decide)
        apply induction alone frontDigits
        rwa [List.head?_append_of_ne_nil _ alone] at noZero

/-- Digits without a leading zero are those that are written. -/
theorem ofNat_digitsValue {digits : Bytes} (nonempty : digits ≠ [])
    (allDigits : ∀ digit ∈ digits, Bytes.isDigit digit = true)
    (noLeadingZero : digits.head? = some 48 → digits = [48]) :
    ofNat (digitsValue digits) = digits := by
  induction digits using List.reverseRecOn with
  | nil => exact (nonempty rfl).elim
  | append_singleton front digit induction =>
      obtain ⟨frontDigits, lastDigits⟩ := List.forall_mem_append.mp allDigits
      have lastDigit := lastDigits digit List.mem_cons_self
      by_cases alone : front = []
      · subst front
        rw [List.nil_append, digitsValue_singleton, ofNat_of_lt (digitValue_lt lastDigit),
          digitByte_digitValue lastDigit]
      · have noZero : front.head? ≠ some 48 := by
          intro zero
          have first : (front ++ [digit]).head? = some 48 := by
            rw [List.head?_append_of_ne_nil _ alone, zero]
          have lengths := congrArg List.length (noLeadingZero first)
          rw [List.length_append, List.length_singleton, List.length_singleton] at lengths
          exact alone (List.eq_nil_of_length_eq_zero (by omega))
        have positive := digitsValue_pos alone frontDigits noZero
        have same := induction alone frontDigits fun zero => (noZero zero).elim
        rw [digitsValue_append_digit,
          ofNat_append_digit positive (digitValue_lt lastDigit), same,
          digitByte_digitValue lastDigit]

theorem eq_zero_of_head?_ofNat {value : Nat} (zero : (ofNat value).head? = some 48) :
    value = 0 := by
  induction value using ofNat.induct with
  | case1 value small =>
      rw [ofNat_of_lt small, List.head?_cons] at zero
      have same := (isDigit_digitByte value small).2
      rw [Option.some.inj zero] at same
      exact same.symm
  | case2 value large induction =>
      have nonempty := (ofNat_spec (value / 10)).1
      rw [ofNat, if_neg large, List.head?_append_of_ne_nil _ nonempty] at zero
      have small := induction zero
      omega

/-- Leading zeros only make a spelling longer. -/
theorem length_ofNat_digitsValue_le {digits : Bytes} (nonempty : digits ≠ [])
    (allDigits : ∀ digit ∈ digits, Bytes.isDigit digit = true) :
    (ofNat (digitsValue digits)).length ≤ digits.length := by
  induction digits using List.reverseRecOn with
  | nil => exact (nonempty rfl).elim
  | append_singleton front digit induction =>
      obtain ⟨frontDigits, lastDigits⟩ := List.forall_mem_append.mp allDigits
      have lastDigit := lastDigits digit List.mem_cons_self
      have small := digitValue_lt lastDigit
      rw [digitsValue_append_digit, List.length_append, List.length_singleton]
      by_cases zero : digitsValue front = 0
      · rw [zero, Nat.mul_zero, Nat.zero_add, ofNat_of_lt small, List.length_singleton]
        exact Nat.le_add_left 1 _
      · have some : front ≠ [] := by
          rintro rfl
          exact zero rfl
        rw [ofNat_append_digit (Nat.pos_of_ne_zero zero) small, List.length_append,
          List.length_singleton]
        apply Nat.add_le_add_right
        exact induction some frontDigits

theorem ofInt_natCast (value : Nat) : ofInt (value : Int) = ofNat value := rfl

theorem ofInt_neg {value : Nat} (positive : 0 < value) :
    ofInt (-(value : Int)) = 45 :: ofNat value := by
  obtain ⟨previous, rfl⟩ := Nat.exists_eq_succ_of_ne_zero (Nat.pos_iff_ne_zero.mp positive)
  rfl

theorem head?_ofNat_ne {value : Nat} {byte : UInt8}
    (noDigit : Bytes.isDigit byte = false) : (ofNat value).head? ≠ some byte := by
  intro first
  have isDigit := (ofNat_spec value).2.1 byte (List.mem_of_head? first)
  rw [noDigit] at isDigit
  cases isDigit

theorem plain_ofNat (value : Nat) : Plain (ofNat value) where
  noPlus := head?_ofNat_ne rfl
  noLeadingZero zero := by
    rw [eq_zero_of_head?_ofNat zero]
    exact ofNat_of_lt (by decide)
  noMinusZero digits same := by
    have noMinus : (ofNat value).head? ≠ some 45 := head?_ofNat_ne rfl
    rw [same] at noMinus
    exact (noMinus rfl).elim

theorem plain_ofInt (value : Int) : Plain (ofInt value) := by
  cases value with
  | ofNat number => exact plain_ofNat number
  | negSucc number =>
      constructor
      · intro plus
        cases plus
      · intro zero
        cases zero
      · rintro digits same zero
        obtain rfl : ofNat (number + 1) = digits := (List.cons.inj same).2
        cases eq_zero_of_head?_ofNat zero

namespace Spells

variable {bytes : Bytes} {value : Int}

/-- The plain spelling of an integer is the one that is written. -/
theorem plain_iff (spells : Spells bytes value) : Plain bytes ↔ bytes = ofInt value := by
  constructor
  · intro plain
    cases spells with
    | unsigned nonempty allDigits =>
        rw [ofInt_natCast, ofNat_digitsValue nonempty allDigits plain.noLeadingZero]
    | plus nonempty allDigits => exact (plain.noPlus rfl).elim
    | @minus digits nonempty allDigits =>
        have noZero := plain.noMinusZero digits rfl
        have written := ofNat_digitsValue nonempty allDigits fun zero =>
          (noZero zero).elim
        rw [ofInt_neg (digitsValue_pos nonempty allDigits noZero), written]
  · rintro rfl
    exact plain_ofInt value

theorem length_ofInt_le (spells : Spells bytes value) :
    (ofInt value).length ≤ bytes.length := by
  cases spells with
  | unsigned nonempty allDigits =>
      exact length_ofNat_digitsValue_le nonempty allDigits
  | @plus digits nonempty allDigits =>
      apply Nat.le_succ_of_le
      exact length_ofNat_digitsValue_le nonempty allDigits
  | @minus digits nonempty allDigits =>
      have shorter := length_ofNat_digitsValue_le nonempty allDigits
      rcases Nat.eq_zero_or_pos (digitsValue digits) with zero | positive
      · rw [zero] at shorter ⊢
        exact Nat.le_succ_of_le shorter
      · rw [ofInt_neg positive]
        exact Nat.succ_le_succ shorter

end Spells

end Decimal

end TrafficRelay
