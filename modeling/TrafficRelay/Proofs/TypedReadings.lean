import Mathlib.Data.List.Forall2
import TrafficRelay.Json.Typed
import TrafficRelay.Proofs.JsonReading
import TrafficRelay.Proofs.PlainSpelling

/-!
# Typed readings of what was written

A text, a number, a sequence or a structure that was written as a JSON value is read
from this value as it was, and the value is well formed, so it is also found again in
its text.  For numbers this comes down to digits without a leading zero.
-/

namespace TrafficRelay

namespace Json

theorem mapM_eq_some_iff {α β : Type} {read? : α → Option β} {items : List α}
    {values : List β} :
    items.mapM read? = some values ↔
      List.Forall₂ (fun item value => read? item = some value) items values := by
  induction items generalizing values with
  | nil => simp [eq_comm]
  | cons item items induction =>
      rw [List.mapM_cons, List.forall₂_cons_left_iff]
      constructor
      · intro read
        obtain ⟨first, isFirst, read⟩ := Option.bind_eq_some_iff.mp read
        obtain ⟨others, areOthers, read⟩ := Option.bind_eq_some_iff.mp read
        exact ⟨first, others, isFirst, induction.mp areOthers, (Option.some.inj read).symm⟩
      · rintro ⟨first, others, isFirst, areOthers, rfl⟩
        rw [isFirst, induction.mpr areOthers]
        rfl

/-- Where an item is read as a value exactly if it is what is written of this value, a
list is read exactly as the values whose writings it consists of. -/
theorem mapM_eq_some_iff_eq_map {α β : Type} {write : β → α} {read? : α → Option β}
    (inverse : ∀ item value, read? item = some value ↔ item = write value)
    {items : List α} {values : List β} :
    items.mapM read? = some values ↔ items = values.map write := by
  simp only [mapM_eq_some_iff, inverse]
  rw [← List.forall₂_map_right_iff, List.forall₂_eq_eq_eq]

/-! ## Texts -/

theorem TextUnit.character?_eq_some_iff (unit : TextUnit) (character : Char) :
    unit.character? = some character ↔ unit = .char character := by
  cases unit <;> simp [character?]

theorem Text.toString?_eq_some_iff {text : Text} {value : String} :
    text.toString? = some value ↔ text = ofString value := by
  simp only [toString?, Option.map_eq_some_iff,
    mapM_eq_some_iff_eq_map TextUnit.character?_eq_some_iff]
  constructor
  · rintro ⟨chars, rfl, rfl⟩
    rw [ofString, String.toList_ofList]
  · rintro rfl
    exact ⟨value.toList, rfl, String.ofList_toList⟩

theorem Text.toString?_ofString (value : String) :
    (Text.ofString value).toString? = some value :=
  toString?_eq_some_iff.mpr rfl

theorem string?_ofString (value : String) : (ofString value).string? = some value :=
  Text.toString?_ofString value

theorem bool?_bool (value : Bool) : (Json.bool value).bool? = some value := rfl

theorem wellFormed_ofString (value : String) : (ofString value).WellFormed := .string value

/-! ## Numbers -/

/-- The character of a digit is a digit, and leads back to it. -/
theorem digitChar_spec : ∀ value < 10,
    (Char.ofNat (Decimal.digitByte value).toNat).isDigit = true ∧
      (Char.ofNat (Decimal.digitByte value).toNat).toNat.toUInt8 =
        Decimal.digitByte value := by
  decide

section

variable {digit : UInt8}

theorem isDigit_char (isDigit : Bytes.isDigit digit = true) :
    (Char.ofNat digit.toNat).isDigit = true := by
  rw [← Decimal.digitByte_digitValue isDigit]
  exact (digitChar_spec _ (Decimal.digitValue_lt isDigit)).1

theorem toUInt8_char (isDigit : Bytes.isDigit digit = true) :
    (Char.ofNat digit.toNat).toNat.toUInt8 = digit := by
  have back := (digitChar_spec _ (Decimal.digitValue_lt isDigit)).2
  rwa [Decimal.digitByte_digitValue isDigit] at back

end

theorem isDigit_of_mem_chars {digits : Bytes}
    (allDigits : ∀ digit ∈ digits, Bytes.isDigit digit = true) {char : Char}
    (member : char ∈ digits.map fun digit => Char.ofNat digit.toNat) :
    char.isDigit = true := by
  obtain ⟨digit, present, rfl⟩ := List.mem_map.mp member
  exact isDigit_char (allDigits digit present)

theorem wellFormed_ofNat (value : Nat) : (ofNat value).WellFormed := by
  obtain ⟨nonempty, allDigits, -⟩ := Decimal.ofNat_spec value
  have plain := Decimal.plain_ofNat value
  apply WellFormed.number
  apply IsWhole.isNumeral
  refine ⟨⟨?_, fun _ => isDigit_of_mem_chars allDigits⟩, ?_⟩
  · exact fun none => nonempty (List.map_eq_nil_iff.mp none)
  · intro zero
    cases spelling : Decimal.ofNat value with
    | nil => exact (nonempty spelling).elim
    | cons first rest =>
        rw [spelling] at allDigits plain zero
        have isZero : first = 48 := by
          rw [← toUInt8_char (allDigits first List.mem_cons_self)]
          exact congrArg (fun char => char.toNat.toUInt8) (Option.some.inj zero)
        rw [plain.noLeadingZero (congrArg some isZero)]
        rfl

theorem int?_ofNat (value : Nat) : (ofNat value).int? = some (value : Int) := by
  obtain ⟨nonempty, allDigits, same⟩ := Decimal.ofNat_spec value
  have noMinus : (Decimal.ofNat value).map (fun byte => Char.ofNat byte.toNat) ≠
      ['-', '0'] := by
    intro minus
    have isDigit : ∀ char ∈ ['-', '0'], char.isDigit = true := by
      rw [← minus]
      exact fun _ => isDigit_of_mem_chars allDigits
    cases isDigit '-' List.mem_cons_self
  have bytes : ((Decimal.ofNat value).map fun byte => Char.ofNat byte.toNat).map
      (fun char => char.toNat.toUInt8) = Decimal.ofNat value := by
    rw [List.map_map]
    apply Eq.trans (List.map_congr_left _) (List.map_id _)
    intro byte member
    exact toUInt8_char (allDigits byte member)
  have spells := Decimal.Spells.unsigned nonempty allDigits
  rw [same] at spells
  rw [ofNat, int?, if_neg noMinus, bytes]
  exact Decimal.readInt?_eq_some_iff.mpr spells

theorem word?_ofNat (word : UInt64) : (ofNat word.toNat).word? = some word := by
  have inRange : 0 ≤ (word.toNat : Int) ∧ (word.toNat : Int).toNat < UInt64.size :=
    ⟨Int.natCast_nonneg _, word.toNat_lt⟩
  rw [word?, int?_ofNat, Option.bind_some, if_pos inRange]
  exact congrArg some UInt64.ofNat_toNat

/-! ## Sequences and structures -/

section

variable {α : Type} {write : α → Json} {items : List α}

theorem list?_ofList {read? : Json → Option α}
    (same : ∀ item ∈ items, read? (write item) = some item) :
    (ofList write items).list? read? = some items := by
  apply mapM_eq_some_iff.mpr
  rw [List.forall₂_map_left_iff, List.forall₂_same]
  exact same

theorem wellFormed_ofList (wellFormed : ∀ item ∈ items, (write item).WellFormed) :
    (ofList write items).WellFormed := by
  apply WellFormed.array
  intro json member
  obtain ⟨item, present, rfl⟩ := List.mem_map.mp member
  exact wellFormed item present

end

section

variable {fields : List (String × Json)}

theorem wellFormed_ofFields (wellFormed : ∀ field ∈ fields, field.2.WellFormed) :
    (ofFields fields).WellFormed := by
  apply WellFormed.object
  · intro member present
    obtain ⟨field, -, rfl⟩ := List.mem_map.mp present
    exact ⟨field.1, rfl⟩
  · intro member present
    obtain ⟨field, found, rfl⟩ := List.mem_map.mp present
    exact wellFormed field found

end

end Json

end TrafficRelay
