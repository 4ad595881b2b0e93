import Mathlib.Data.List.Induction
import Mathlib.Data.Nat.Digits.Defs
import TrafficRelay.Decimal

/-!
# Spellings of integers

`Decimal.Spells` is the grammar of decimal integers: a sign or none, then one or
more digits.  The reader accepts exactly these spellings of the integers that fit
a signed 64-bit word, and what is written is one of them.
-/

namespace TrafficRelay

namespace Decimal

/-- The number that digits stand for, most significant first. -/
def digitsValue (digits : Bytes) : Nat := Nat.ofDigits 10 (digits.reverse.map digitValue)

/-- The decimal spellings of an integer. -/
inductive Spells : Bytes → Int → Prop where
  | unsigned {digits : Bytes} :
      digits ≠ [] → (∀ digit ∈ digits, Bytes.isDigit digit = true) →
      Spells digits (digitsValue digits)
  | plus {digits : Bytes} :
      digits ≠ [] → (∀ digit ∈ digits, Bytes.isDigit digit = true) →
      Spells (43 :: digits) (digitsValue digits)
  | minus {digits : Bytes} :
      digits ≠ [] → (∀ digit ∈ digits, Bytes.isDigit digit = true) →
      Spells (45 :: digits) (-digitsValue digits)

theorem digitsValue_append_digit (digits : Bytes) (digit : UInt8) :
    digitsValue (digits ++ [digit]) = 10 * digitsValue digits + digitValue digit := by
  simp only [digitsValue, List.reverse_append, List.reverse_cons, List.reverse_nil,
    List.nil_append, List.singleton_append, List.map_cons, Nat.ofDigits_cons]
  exact Nat.add_comm _ _

theorem natOfDigits_eq (digits : Bytes) : natOfDigits digits = digitsValue digits := by
  induction digits using List.reverseRecOn with
  | nil => rfl
  | append_singleton digits digit induction =>
      rw [digitsValue_append_digit, ← induction]
      exact List.foldl_append

theorem readNat?_eq_some_iff {digits : Bytes} {value : Nat} :
    readNat? digits = some value ↔
      digits ≠ [] ∧ (∀ digit ∈ digits, Bytes.isDigit digit = true) ∧
        value = digitsValue digits := by
  unfold readNat?
  rw [natOfDigits_eq]
  constructor
  · intro read
    split at read
    · rename_i valid
      cases read
      exact ⟨valid.1, List.all_eq_true.mp valid.2, rfl⟩
    · cases read
  · rintro ⟨nonempty, allDigits, rfl⟩
    exact if_pos ⟨nonempty, List.all_eq_true.mpr allDigits⟩

theorem readInt?_eq_some_iff {bytes : Bytes} {value : Int} :
    readInt? bytes = some value ↔ Spells bytes value := by
  constructor
  · intro read
    cases bytes with
    | nil => cases read
    | cons first rest =>
        rw [readInt?] at read
        split at read
        · rename_i plus
          obtain ⟨number, readRest, rfl⟩ := Option.map_eq_some_iff.mp read
          obtain ⟨nonempty, allDigits, rfl⟩ := readNat?_eq_some_iff.mp readRest
          rw [plus]
          exact .plus nonempty allDigits
        · split at read
          · rename_i minus
            obtain ⟨number, readRest, rfl⟩ := Option.map_eq_some_iff.mp read
            obtain ⟨nonempty, allDigits, rfl⟩ := readNat?_eq_some_iff.mp readRest
            rw [minus]
            exact .minus nonempty allDigits
          · obtain ⟨number, readAll, rfl⟩ := Option.map_eq_some_iff.mp read
            obtain ⟨nonempty, allDigits, rfl⟩ := readNat?_eq_some_iff.mp readAll
            exact .unsigned nonempty allDigits
  · intro spells
    cases spells with
    | unsigned nonempty allDigits =>
        cases bytes with
        | nil => exact (nonempty rfl).elim
        | cons first rest =>
            have isDigit := allDigits first List.mem_cons_self
            have noPlus : first ≠ 43 := by
              rintro rfl
              cases isDigit
            have noMinus : first ≠ 45 := by
              rintro rfl
              cases isDigit
            have readAll := readNat?_eq_some_iff.mpr ⟨nonempty, allDigits, rfl⟩
            rw [readInt?, if_neg noPlus, if_neg noMinus, readAll]
            rfl
    | plus nonempty allDigits =>
        have readRest := readNat?_eq_some_iff.mpr ⟨nonempty, allDigits, rfl⟩
        rw [readInt?, if_pos rfl, readRest]
        rfl
    | minus nonempty allDigits =>
        have readRest := readNat?_eq_some_iff.mpr ⟨nonempty, allDigits, rfl⟩
        rw [readInt?, if_neg (by decide), if_pos rfl, readRest]
        rfl

theorem toInt64?_eq_some_iff {value : Int} {word : Int64} :
    toInt64? value = some word ↔ value = word.toInt := by
  unfold toInt64?
  constructor
  · intro fits
    split at fits
    · split at fits
      · cases fits
        exact Int64.toInt_ofIntLE.symm
      · cases fits
    · cases fits
  · rintro rfl
    rw [dif_pos word.minValue_le_toInt, dif_pos word.toInt_le, Int64.ofIntLE_toInt]

/-- The reader accepts the spellings of what a word can hold. -/
theorem readInt64?_eq_some_iff {bytes : Bytes} {word : Int64} :
    readInt64? bytes = some word ↔ Spells bytes word.toInt := by
  unfold readInt64?
  rw [Option.bind_eq_some_iff]
  constructor
  · rintro ⟨value, read, fits⟩
    rw [← toInt64?_eq_some_iff.mp fits]
    exact readInt?_eq_some_iff.mp read
  · intro spells
    exact ⟨word.toInt, readInt?_eq_some_iff.mpr spells, toInt64?_eq_some_iff.mpr rfl⟩

theorem readInt64?_eq_none_iff {bytes : Bytes} :
    readInt64? bytes = none ↔
      ¬∃ value, Spells bytes value ∧ -2 ^ 63 ≤ value ∧ value < 2 ^ 63 := by
  rw [Option.eq_none_iff_forall_ne_some]
  constructor
  · rintro refused ⟨value, spells, lower, upper⟩
    have inRange : (Int64.ofInt value).toInt = value :=
      Int64.toInt_ofInt_of_le lower upper
    apply refused (Int64.ofInt value)
    rw [readInt64?_eq_some_iff, inRange]
    exact spells
  · intro refused word read
    apply refused
    exact ⟨word.toInt, readInt64?_eq_some_iff.mp read, word.le_toInt, word.toInt_lt⟩

theorem isDigit_digitByte : ∀ value < 10,
    Bytes.isDigit (digitByte value) = true ∧ digitValue (digitByte value) = value := by
  decide

theorem ofNat_spec (value : Nat) :
    ofNat value ≠ [] ∧ (∀ digit ∈ ofNat value, Bytes.isDigit digit = true) ∧
      digitsValue (ofNat value) = value := by
  induction value using ofNat.induct with
  | case1 value small =>
      obtain ⟨isDigit, same⟩ := isDigit_digitByte value small
      rw [ofNat, if_pos small]
      refine ⟨List.cons_ne_nil _ _, ?_, ?_⟩
      · intro digit member
        rw [List.mem_singleton.mp member]
        exact isDigit
      · simpa [digitsValue] using same
  | case2 value large induction =>
      obtain ⟨-, allDigits, front⟩ := induction
      obtain ⟨isDigit, last⟩ :=
        isDigit_digitByte (value % 10) (Nat.mod_lt value (by decide))
      rw [ofNat, if_neg large]
      refine ⟨by simp, ?_, ?_⟩
      · intro digit member
        rcases List.mem_append.mp member with inFront | isLast
        · exact allDigits digit inFront
        · rw [List.mem_singleton.mp isLast]
          exact isDigit
      · rw [digitsValue_append_digit, front, last]
        omega

theorem spells_ofInt (value : Int) : Spells (ofInt value) value := by
  cases value with
  | ofNat number =>
      obtain ⟨nonempty, allDigits, same⟩ := ofNat_spec number
      have spells := Spells.unsigned nonempty allDigits
      rw [same] at spells
      exact spells
  | negSucc number =>
      obtain ⟨nonempty, allDigits, same⟩ := ofNat_spec (number + 1)
      have spells := Spells.minus nonempty allDigits
      rw [same] at spells
      exact spells

theorem isGraphic_of_isDigit {byte : UInt8} (isDigit : Bytes.isDigit byte = true) :
    Bytes.isGraphic byte = true := by
  simp only [Bytes.isDigit, Bytes.isGraphic, Bool.and_eq_true, decide_eq_true_eq,
    UInt8.le_iff_toNat_le] at isDigit ⊢
  simp at isDigit ⊢
  omega

theorem Spells.isGraphic {bytes : Bytes} {value : Int} (spells : Spells bytes value) :
    ∀ byte ∈ bytes, Bytes.isGraphic byte = true := by
  intro byte member
  cases spells with
  | unsigned nonempty allDigits => exact isGraphic_of_isDigit (allDigits byte member)
  | plus nonempty allDigits =>
      rcases List.mem_cons.mp member with rfl | later
      · rfl
      · exact isGraphic_of_isDigit (allDigits byte later)
  | minus nonempty allDigits =>
      rcases List.mem_cons.mp member with rfl | later
      · rfl
      · exact isGraphic_of_isDigit (allDigits byte later)

end Decimal

end TrafficRelay
