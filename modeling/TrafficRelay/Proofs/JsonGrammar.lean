import Mathlib.Tactic.SplitIfs
import TrafficRelay.Json.Writer

/-!
# The grammar of JSON texts

A text spells a value if it consists of the tokens of the value, each in one of its
spellings, with white space before, between and after them.  Marks and words have one
spelling, and a number is its own.  A string has many: any character may be written as
an escape sequence, and one beyond the first plane as two, a high surrogate and a low
one.  Any other surrogate stands alone, and escape sequences are all that can give one.
What is written is one of these spellings.
-/

namespace TrafficRelay

namespace Json

/-! ## Numbers -/

/-- Digits, at least one. -/
def IsDigits (chars : List Char) : Prop :=
  chars ≠ [] ∧ ∀ char ∈ chars, char.isDigit = true

/-- Digits with no zero in front, unless it is the only one. -/
def IsWhole (chars : List Char) : Prop :=
  IsDigits chars ∧ (chars.head? = some '0' → chars = ['0'])

/-- Nothing, or a point and digits. -/
inductive IsFraction : List Char → Prop where
  | absent : IsFraction []
  | digits {digits : List Char} : IsDigits digits → IsFraction ('.' :: digits)

/-- Nothing, or a mark and digits, maybe with a sign. -/
inductive IsExponent : List Char → Prop where
  | absent : IsExponent []
  | digits {mark : Char} {sign digits : List Char} :
      mark = 'e' ∨ mark = 'E' → sign = [] ∨ sign = ['+'] ∨ sign = ['-'] →
      IsDigits digits → IsExponent (mark :: (sign ++ digits))

/-- A number, maybe with a minus sign. -/
inductive IsNumeral : List Char → Prop where
  | parts {sign whole fraction exponent : List Char} :
      sign = [] ∨ sign = ['-'] → IsWhole whole → IsFraction fraction →
      IsExponent exponent → IsNumeral (sign ++ (whole ++ (fraction ++ exponent)))

theorem IsWhole.isNumeral {chars : List Char} (whole : IsWhole chars) : IsNumeral chars := by
  have numeral := IsNumeral.parts (Or.inl rfl) whole .absent .absent
  rwa [List.nil_append, List.append_nil, List.append_nil] at numeral

/-! ## Strings -/

/-- The escape sequence of a 16-bit unit, its digits in small or capital letters. -/
inductive UnitSpelled : Nat → List Char → Prop where
  | digits {first second third fourth : Char} {w x y z : Nat} :
      hexValue? first = some w → hexValue? second = some x →
      hexValue? third = some y → hexValue? fourth = some z →
      UnitSpelled (16 * (16 * (16 * w + x) + y) + z)
        ['\\', 'u', first, second, third, fourth]

def isSurrogate (unit : Nat) : Bool := isHighSurrogate unit || isLowSurrogate unit

theorem toNat_toUInt16_of_isSurrogate {unit : Nat} (surrogate : isSurrogate unit = true) :
    unit.toUInt16.toNat = unit := by
  have bound : unit < 2 ^ 16 := by
    simp only [isSurrogate, isHighSurrogate, isLowSurrogate, Bool.or_eq_true,
      Bool.and_eq_true, decide_eq_true_eq] at surrogate
    omega
  exact UInt16.toNat_ofNat_of_lt bound

/-- The character that a pair of surrogates stands for. -/
def pairedChar (high low : Nat) : Char :=
  Char.ofNat (0x10000 + (high - 0xd800) * 0x400 + (low - 0xdc00))

namespace Text

/-- A pair of surrogates is not taken apart between the unit before a text, if there is
one, and the text. -/
def NoPair (last : Option TextUnit) (text : Text) : Prop :=
  ∀ high low, last = some (.surrogate high) → text.head? = some (.surrogate low) →
    isHighSurrogate high.toNat = true → isLowSurrogate low.toNat = false

theorem noPair_none (text : Text) : NoPair none text := fun _ _ last => by cases last

theorem noPair_char (char : Char) (text : Text) : NoPair (some (.char char)) text :=
  fun _ _ last => by cases last

/-- The characters between the quotation marks. -/
inductive Spelled : Text → List Char → Prop where
  | nil : Spelled [] []
  | plain {char : Char} {text : Text} {chars : List Char} :
      char ≠ '\x22' → char ≠ '\\' → 32 ≤ char.toNat → Spelled text chars →
      Spelled (.char char :: text) (char :: chars)
  | letter {letter char : Char} {text : Text} {chars : List Char} :
      escaped? letter = some char → Spelled text chars →
      Spelled (.char char :: text) ('\\' :: letter :: chars)
  | unit {unit : Nat} {escape : List Char} {text : Text} {chars : List Char} :
      UnitSpelled unit escape → isSurrogate unit = false → Spelled text chars →
      Spelled (.char (Char.ofNat unit) :: text) (escape ++ chars)
  | pair {high low : Nat} {first second : List Char} {text : Text} {chars : List Char} :
      UnitSpelled high first → isHighSurrogate high = true →
      UnitSpelled low second → isLowSurrogate low = true → Spelled text chars →
      Spelled (.char (pairedChar high low) :: text) (first ++ (second ++ chars))
  | alone {unit : Nat} {escape : List Char} {text : Text} {chars : List Char} :
      UnitSpelled unit escape → isSurrogate unit = true →
      NoPair (some (.surrogate unit.toUInt16)) text → Spelled text chars →
      Spelled (.surrogate unit.toUInt16 :: text) (escape ++ chars)

end Text

/-! ## Tokens -/

namespace Token

/-- How a token may be written. -/
def Spelled : Token → List Char → Prop
  | number spelling, chars => IsNumeral spelling ∧ chars = spelling
  | string text, chars =>
      ∃ content, text.Spelled content ∧ chars = '\x22' :: (content ++ ['\x22'])
  | token, chars => chars = token.chars

end Token

/-- The characters are spellings of the tokens, with white space before, between and
after them. -/
inductive Spaced : List Token → List Char → Prop where
  | nil : Spaced [] []
  | blank {tokens : List Token} {char : Char} {chars : List Char} :
      isBlank char = true → Spaced tokens chars → Spaced tokens (char :: chars)
  | token {token : Token} {spelling : List Char} {tokens : List Token} {chars : List Char} :
      token.Spelled spelling → Spaced tokens chars →
      Spaced (token :: tokens) (spelling ++ chars)

/-- The text is one of the spellings of the value. -/
def Spells (value : Json) (text : String) : Prop := Spaced value.tokens text.toList

/-! ## What is written -/

theorem hexValue?_hexDigit : ∀ value < 16, hexValue? (hexDigit value) = some value := by
  decide

theorem unitSpelled_unitEscape {unit : Nat} (inRange : unit < 0x10000) :
    UnitSpelled unit (unitEscape unit) := by
  have digit (number : Nat) : hexValue? (hexDigit (number % 16)) = some (number % 16) :=
    hexValue?_hexDigit _ (Nat.mod_lt number (by decide))
  have value : 16 * (16 * (16 * (unit / 0x1000 % 16) + unit / 0x100 % 16) +
      unit / 0x10 % 16) + unit % 16 = unit := by
    omega
  have spelled := UnitSpelled.digits (digit (unit / 0x1000)) (digit (unit / 0x100))
    (digit (unit / 0x10)) (digit unit)
  rwa [value] at spelled

theorem isSurrogate_control {unit : Nat} (control : unit < 32) : isSurrogate unit = false := by
  simp only [isSurrogate, isHighSurrogate, isLowSurrogate, Bool.or_eq_false_iff,
    Bool.and_eq_false_iff, decide_eq_false_iff_not]
  omega

namespace Text

theorem Spelled.charSpelling (char : Char) {text : Text} {chars : List Char}
    (spelled : Spelled text chars) :
    Spelled (.char char :: text) (charSpelling char ++ chars) := by
  unfold Json.charSpelling
  split_ifs with quote backslash backspace tab newline formFeed carriageReturn control
  · subst quote; exact .letter rfl spelled
  · subst backslash; exact .letter rfl spelled
  · subst backspace; exact .letter rfl spelled
  · subst tab; exact .letter rfl spelled
  · subst newline; exact .letter rfl spelled
  · subst formFeed; exact .letter rfl spelled
  · subst carriageReturn; exact .letter rfl spelled
  · have escaped := Spelled.unit (unitSpelled_unitEscape (by omega))
      (isSurrogate_control control) spelled
    rwa [Char.ofNat_toNat] at escaped
  · exact .plain quote backslash (Nat.le_of_not_lt control) spelled

theorem spelled_ofString (value : String) :
    Spelled (ofString value) ((ofString value).flatMap TextUnit.spelling) := by
  unfold ofString
  induction value.toList with
  | nil => exact .nil
  | cons char chars induction => exact .charSpelling char induction

end Text

namespace Token

/-- A number is spelled as one, and a string has no surrogate that stands alone. -/
def WellFormed : Token → Prop
  | number spelling => IsNumeral spelling
  | string text => ∃ value : String, text = .ofString value
  | _ => True

theorem WellFormed.spelled {token : Token} (wellFormed : token.WellFormed) :
    token.Spelled token.chars := by
  cases token with
  | number spelling => exact ⟨wellFormed, rfl⟩
  | string text =>
      obtain ⟨value, rfl⟩ := wellFormed
      exact ⟨_, Text.spelled_ofString value, rfl⟩
  | _ => rfl

end Token

theorem Spaced.blanks {tokens : List Token} {blanks chars : List Char}
    (allBlank : ∀ char ∈ blanks, isBlank char = true) (spaced : Spaced tokens chars) :
    Spaced tokens (blanks ++ chars) := by
  induction blanks with
  | nil => exact spaced
  | cons char blanks induction =>
      obtain ⟨first, others⟩ := List.forall_mem_cons.mp allBlank
      exact .blank first (induction others)

theorem isBlank_of_mem_newLine {depth : Nat} {char : Char}
    (member : char ∈ newLine depth) : isBlank char = true := by
  rcases List.mem_cons.mp member with rfl | later
  · rfl
  · rw [List.eq_of_mem_replicate later]
    rfl

theorem isBlank_of_mem_gap {depth : Nat} {token next : Token} {char : Char}
    (member : char ∈ gap depth token next) : isBlank char = true := by
  unfold gap at member
  split at member
  · cases member
  · split at member
    · exact isBlank_of_mem_newLine member
    · split at member
      · exact isBlank_of_mem_newLine member
      · split at member
        · rw [List.mem_singleton.mp member]
          rfl
        · cases member

theorem spaced_layout (depth : Nat) {tokens : List Token}
    (wellFormed : ∀ token ∈ tokens, token.WellFormed) :
    Spaced tokens (layout depth tokens) := by
  induction tokens generalizing depth with
  | nil => exact .nil
  | cons token tokens induction =>
      obtain ⟨first, others⟩ := List.forall_mem_cons.mp wellFormed
      cases tokens with
      | nil =>
          have alone : Spaced [token] (token.chars ++ []) := .token first.spelled .nil
          rwa [List.append_nil] at alone
      | cons next rest =>
          apply Spaced.token first.spelled
          apply Spaced.blanks
          · intro char member
            exact isBlank_of_mem_gap member
          · exact induction _ others

theorem spaced_flatMap_chars {tokens : List Token}
    (wellFormed : ∀ token ∈ tokens, token.WellFormed) :
    Spaced tokens (tokens.flatMap Token.chars) := by
  induction tokens with
  | nil => exact .nil
  | cons token tokens induction =>
      obtain ⟨first, others⟩ := List.forall_mem_cons.mp wellFormed
      rw [List.flatMap_cons]
      exact .token first.spelled (induction others)

end Json

end TrafficRelay
