import Mathlib.Data.List.Chain
import TrafficRelay.Proofs.JsonGrammar

/-!
# Scanning what was written

The scanner finds the tokens of a text again, however they are spelled and whatever
white space stands between them.  All that is needed is that no number stands right
before another one.  A number ends where a character comes that cannot go on with it,
so after a number the scanner may still be in it; `Scanner.Has` covers both states.
-/

namespace TrafficRelay

namespace Json

section

variable {σ α : Type} {step : σ → α → Option σ} {state next : σ}

theorem foldlM_cons_of_step {head : α} (found : step state head = some next) (tail : List α) :
    (head :: tail).foldlM step state = tail.foldlM step next := by
  rw [List.foldlM_cons, found]
  rfl

theorem foldlM_append_of_run {first : List α} (run : first.foldlM step state = some next)
    (second : List α) : (first ++ second).foldlM step state = second.foldlM step next := by
  rw [List.foldlM_append, run]
  rfl

end

/-- The phase in which a spelling leaves a number, if all of it belongs to one. -/
def numberPhase? : List Char → Option NumberPhase
  | [] => none
  | first :: rest =>
      (NumberPhase.first? first).bind fun phase => rest.foldlM NumberPhase.next? phase

/-- A spelling at whose end a number may end. -/
def SpellsNumber (spelling : List Char) : Prop :=
  ∃ phase, numberPhase? spelling = some phase ∧ phase.complete = true

namespace Token

def isNumber : Token → Bool
  | number _ => true
  | _ => false

/-- Not both are numbers. -/
def Apart (token next : Token) : Prop := token.isNumber = false ∨ next.isNumber = false

end Token

/-! ## Numbers -/

/-- Digits are read in one phase. -/
theorem foldlM_next?_of_stays {phase : NumberPhase}
    (stays : ∀ digit : Char, digit.isDigit = true → phase.next? digit = some phase)
    {digits : List Char} (allDigits : ∀ digit ∈ digits, digit.isDigit = true) :
    digits.foldlM NumberPhase.next? phase = some phase := by
  induction digits with
  | nil => rfl
  | cons digit digits induction =>
      obtain ⟨first, others⟩ := List.forall_mem_cons.mp allDigits
      rw [foldlM_cons_of_step (stays digit first)]
      exact induction others

theorem foldlM_next?_of_enters {phase last : NumberPhase}
    (enters : ∀ digit : Char, digit.isDigit = true → phase.next? digit = some last)
    (stays : ∀ digit : Char, digit.isDigit = true → last.next? digit = some last)
    {digits : List Char} (isDigits : IsDigits digits) :
    digits.foldlM NumberPhase.next? phase = some last := by
  obtain ⟨nonempty, allDigits⟩ := isDigits
  cases digits with
  | nil => exact (nonempty rfl).elim
  | cons digit digits =>
      obtain ⟨first, others⟩ := List.forall_mem_cons.mp allDigits
      rw [foldlM_cons_of_step (enters digit first)]
      exact foldlM_next?_of_stays stays others

/-- A whole part is read alike at the start of a number and after a minus sign. -/
theorem IsWhole.phase {whole : List Char} (isWhole : IsWhole whole) :
    ∃ phase, (phase = .zero ∨ phase = .whole) ∧ numberPhase? whole = some phase ∧
      whole.foldlM NumberPhase.next? .minus = some phase := by
  obtain ⟨⟨nonempty, allDigits⟩, noLeadingZero⟩ := isWhole
  cases whole with
  | nil => exact (nonempty rfl).elim
  | cons first rest =>
      by_cases zero : first = '0'
      · subst first
        rw [noLeadingZero rfl]
        exact ⟨.zero, Or.inl rfl, rfl, rfl⟩
      · obtain ⟨firstDigit, others⟩ := List.forall_mem_cons.mp allDigits
        have noMinus : first ≠ '-' := by
          rintro rfl
          cases firstDigit
        have begins : NumberPhase.first? first = some .whole := by
          rw [NumberPhase.first?, if_neg noMinus, if_neg zero, if_pos firstDigit]
        have enters : NumberPhase.next? .minus first = some .whole := by
          simp only [NumberPhase.next?, if_neg zero, firstDigit, if_true]
        have stays (digit : Char) (isDigit : digit.isDigit = true) :
            NumberPhase.next? .whole digit = some .whole := if_pos isDigit
        have goesOn := foldlM_next?_of_stays stays others
        refine ⟨.whole, Or.inr rfl, ?_, ?_⟩
        · rw [numberPhase?, begins]
          exact goesOn
        · rw [foldlM_cons_of_step enters]
          exact goesOn

theorem IsFraction.phase {fraction : List Char} (isFraction : IsFraction fraction)
    {before : NumberPhase} (whole : before = .zero ∨ before = .whole) :
    ∃ phase, (phase = .zero ∨ phase = .whole ∨ phase = .fraction) ∧
      fraction.foldlM NumberPhase.next? before = some phase := by
  cases isFraction with
  | absent => exact ⟨before, whole.imp_right Or.inl, rfl⟩
  | digits isDigits =>
      have point : NumberPhase.next? before '.' = some .point := by
        rcases whole with rfl | rfl <;> rfl
      have enters (digit : Char) (isDigit : digit.isDigit = true) :
          NumberPhase.next? .point digit = some .fraction := if_pos isDigit
      have stays (digit : Char) (isDigit : digit.isDigit = true) :
          NumberPhase.next? .fraction digit = some .fraction := if_pos isDigit
      refine ⟨.fraction, Or.inr (Or.inr rfl), ?_⟩
      rw [foldlM_cons_of_step point]
      exact foldlM_next?_of_enters enters stays isDigits

theorem IsExponent.phase {exponent : List Char} (isExponent : IsExponent exponent)
    {before : NumberPhase} (mantissa : before = .zero ∨ before = .whole ∨ before = .fraction) :
    ∃ phase, phase.complete = true ∧
      exponent.foldlM NumberPhase.next? before = some phase := by
  cases isExponent with
  | absent =>
      refine ⟨before, ?_, rfl⟩
      rcases mantissa with rfl | rfl | rfl <;> rfl
  | @digits mark sign digits isMark isSign isDigits =>
      have marked : NumberPhase.next? before mark = some .exponent := by
        rcases mantissa with rfl | rfl | rfl <;> rcases isMark with rfl | rfl <;> rfl
      have stays (digit : Char) (isDigit : digit.isDigit = true) :
          NumberPhase.next? .exponentDigits digit = some .exponentDigits := if_pos isDigit
      have unsigned (digit : Char) (isDigit : digit.isDigit = true) :
          NumberPhase.next? .exponent digit = some .exponentDigits := if_pos isDigit
      have signed (digit : Char) (isDigit : digit.isDigit = true) :
          NumberPhase.next? .exponentSign digit = some .exponentDigits := if_pos isDigit
      refine ⟨.exponentDigits, rfl, ?_⟩
      rw [foldlM_cons_of_step marked]
      rcases isSign with rfl | rfl | rfl
      · exact foldlM_next?_of_enters unsigned stays isDigits
      · exact foldlM_next?_of_enters signed stays isDigits
      · exact foldlM_next?_of_enters signed stays isDigits

theorem numberPhase?_append {first : List Char} {phase : NumberPhase}
    (read : numberPhase? first = some phase) (second : List Char) :
    numberPhase? (first ++ second) = second.foldlM NumberPhase.next? phase := by
  cases first with
  | nil => cases read
  | cons char rest =>
      obtain ⟨start, begins, others⟩ := Option.bind_eq_some_iff.mp read
      rw [List.cons_append, numberPhase?, begins]
      exact foldlM_append_of_run others second

theorem IsNumeral.spellsNumber {spelling : List Char} (isNumeral : IsNumeral spelling) :
    SpellsNumber spelling := by
  obtain ⟨isSign, isWhole, isFraction, isExponent⟩ := isNumeral
  obtain ⟨_, isWholePhase, unsigned, signed⟩ := isWhole.phase
  obtain ⟨_, isMantissa, fraction⟩ := isFraction.phase isWholePhase
  obtain ⟨last, complete, exponent⟩ := isExponent.phase isMantissa
  refine ⟨last, ?_, complete⟩
  rcases isSign with rfl | rfl
  · rw [List.nil_append, numberPhase?_append unsigned, foldlM_append_of_run fraction,
      exponent]
  · have minus : numberPhase? ['-'] = some .minus := rfl
    rw [numberPhase?_append minus, foldlM_append_of_run signed,
      foldlM_append_of_run fraction, exponent]

/-- A character that no number goes on with. -/
def endsNumber (char : Char) : Bool :=
  !char.isDigit && char != '.' && char != 'e' && char != 'E'

theorem NumberPhase.next?_eq_none {phase : NumberPhase} (complete : phase.complete = true)
    {char : Char} (ends : endsNumber char = true) : phase.next? char = none := by
  simp only [endsNumber, Bool.and_eq_true, Bool.not_eq_true', bne_iff_ne] at ends
  obtain ⟨⟨⟨noDigit, noPoint⟩, noMark⟩, noCapital⟩ := ends
  cases phase with
  | zero | whole | fraction | exponentDigits =>
      simp [next?, noDigit, noPoint, noMark, noCapital]
  | minus | point | exponent | exponentSign => cases complete

theorem endsNumber_of_isBlank {char : Char} (blank : isBlank char = true) :
    endsNumber char = true := by
  simp only [isBlank, Bool.or_eq_true, decide_eq_true_eq] at blank
  obtain ((rfl | rfl) | rfl) | rfl := blank <;> rfl

theorem Token.Spelled.exists_cons {token : Token} {chars : List Char}
    (spelled : token.Spelled chars) (noNumber : token.isNumber = false) :
    ∃ first rest, chars = first :: rest ∧ endsNumber first = true := by
  cases token with
  | number spelling => cases noNumber
  | string text =>
      obtain ⟨content, -, rfl⟩ := spelled
      exact ⟨_, _, rfl, rfl⟩
  | bool value =>
      subst spelled
      cases value <;> exact ⟨_, _, rfl, rfl⟩
  | _ =>
      subst spelled
      exact ⟨_, _, rfl, rfl⟩

namespace Scanner

/-- The scanner has read these tokens, and the last of them may be a number that
has not been ended. -/
inductive Has : Scanner → List Token → Prop where
  | between (reversed : List Token) : Has ⟨reversed, .between⟩ reversed.reverse
  | number (reversed : List Token) {phase : NumberPhase} (digits : List Char) :
      phase.complete = true →
      Has ⟨reversed, .number phase digits⟩ (.number digits.reverse :: reversed).reverse

namespace Has

variable {scanner : Scanner} {read : List Token}

theorem finish? (has : scanner.Has read) : scanner.finish? = some read := by
  cases has with
  | between reversed => rfl
  | number reversed digits complete =>
      simp only [Scanner.finish?, endNumber?, if_pos complete]
      rfl

/-- A character that ends a number is read as if the number had been ended before. -/
theorem step?_eq (has : scanner.Has read) {char : Char} (ends : endsNumber char = true) :
    scanner.step? char = step? ⟨read.reverse, .between⟩ char := by
  cases has with
  | between reversed => rw [List.reverse_reverse]
  | number reversed digits complete =>
      rw [List.reverse_reverse]
      simp only [step?, NumberPhase.next?_eq_none complete ends, endNumber?,
        if_pos complete]
      rfl

theorem step?_blank (has : scanner.Has read) {char : Char} (blank : isBlank char = true) :
    ∃ next, scanner.step? char = some next ∧ next.Has read := by
  have between : Has ⟨read.reverse, .between⟩ read.reverse.reverse := .between _
  rw [List.reverse_reverse] at between
  refine ⟨_, ?_, between⟩
  rw [has.step?_eq (endsNumber_of_isBlank blank)]
  exact if_pos blank

end Has

/-! ## Strings -/

theorem step?_hexValue (reversed : List Token) (text : Text) (digits value : Nat)
    {char : Char} {digit : Nat} (found : hexValue? char = some digit) :
    step? ⟨reversed, .text text (.hex digits value)⟩ char =
      some (if digits = 3 then ⟨reversed, .text (pushUnit text (16 * value + digit)) .none⟩
        else ⟨reversed, .text text (.hex (digits + 1) (16 * value + digit))⟩) := by
  simp only [step?, text?, found]
  rfl

theorem foldlM_unitSpelled (reversed : List Token) (text : Text) {unit : Nat}
    {escape : List Char} (spelled : UnitSpelled unit escape) :
    escape.foldlM step? ⟨reversed, .text text .none⟩ =
      some ⟨reversed, .text (pushUnit text unit) .none⟩ := by
  obtain ⟨first, second, third, fourth⟩ := spelled
  have escape : step? ⟨reversed, .text text .none⟩ '\\' =
      some ⟨reversed, .text text .backslash⟩ := rfl
  have mark : step? ⟨reversed, .text text .backslash⟩ 'u' =
      some ⟨reversed, .text text (.hex 0 0)⟩ := rfl
  rw [foldlM_cons_of_step escape, foldlM_cons_of_step mark,
    foldlM_cons_of_step (step?_hexValue reversed text 0 _ first), if_neg (by decide),
    foldlM_cons_of_step (step?_hexValue reversed text 1 _ second), if_neg (by decide),
    foldlM_cons_of_step (step?_hexValue reversed text 2 _ third), if_neg (by decide),
    foldlM_cons_of_step (step?_hexValue reversed text 3 _ fourth), if_pos rfl,
    Nat.mul_zero, Nat.zero_add]
  rfl

end Scanner

theorem isLowSurrogate_of_isHighSurrogate {unit : Nat} (high : isHighSurrogate unit = true) :
    isLowSurrogate unit = false := by
  simp only [isHighSurrogate, isLowSurrogate, Bool.and_eq_true, Bool.and_eq_false_iff,
    decide_eq_true_eq, decide_eq_false_iff_not] at high ⊢
  omega

theorem pushUnit_of_not_isSurrogate (before : Text) {unit : Nat}
    (plain : isSurrogate unit = false) :
    pushUnit before unit = .char (Char.ofNat unit) :: before := by
  obtain ⟨noHigh, noLow⟩ := Bool.or_eq_false_iff.mp plain
  simp [pushUnit, noHigh, noLow]

theorem pushUnit_of_isHighSurrogate (before : Text) {unit : Nat}
    (high : isHighSurrogate unit = true) :
    pushUnit before unit = .surrogate unit.toUInt16 :: before := by
  simp [pushUnit, high, isLowSurrogate_of_isHighSurrogate high]

theorem pushUnit_pair (before : Text) {high low : Nat} (isHigh : isHighSurrogate high = true)
    (isLow : isLowSurrogate low = true) :
    pushUnit (pushUnit before high) low = .char (pairedChar high low) :: before := by
  have same := toNat_toUInt16_of_isSurrogate (Bool.or_eq_true_iff.mpr (Or.inl isHigh))
  rw [pushUnit_of_isHighSurrogate before isHigh]
  simp [pushUnit, isLow, isHigh, same, pairedChar]

/-- A surrogate is not joined with anything but the other half of its pair. -/
theorem pushUnit_of_noPair {before text : Text} {unit : Nat}
    (surrogate : isSurrogate unit = true)
    (noPair : Text.NoPair before.head? (.surrogate unit.toUInt16 :: text)) :
    pushUnit before unit = .surrogate unit.toUInt16 :: before := by
  cases low : isLowSurrogate unit with
  | false =>
      apply pushUnit_of_isHighSurrogate before
      rwa [isSurrogate, low, Bool.or_false] at surrogate
  | true =>
      rw [pushUnit.eq_def, if_pos low]
      split
      · rename_i high rest
        cases isHigh : isHighSurrogate high.toNat with
        | false => rfl
        | true =>
            have noLow := noPair high unit.toUInt16 rfl rfl isHigh
            rw [toNat_toUInt16_of_isSurrogate surrogate, low] at noLow
            cases noLow
      · rfl

namespace Scanner

theorem foldlM_text_cons (reversed : List Token) {before text : Text} {unit : TextUnit}
    {spelling chars : List Char}
    (first : spelling.foldlM step? ⟨reversed, .text before .none⟩ =
      some ⟨reversed, .text (unit :: before) .none⟩)
    (others : chars.foldlM step? ⟨reversed, .text (unit :: before) .none⟩ =
      some ⟨reversed, .text (text.reverse ++ unit :: before) .none⟩) :
    (spelling ++ chars).foldlM step? ⟨reversed, .text before .none⟩ =
      some ⟨reversed, .text ((unit :: text).reverse ++ before) .none⟩ := by
  rw [foldlM_append_of_run first, others, List.reverse_cons, List.append_assoc,
    List.singleton_append]

/-- The content of a string is found, whatever has been read of the string before, unless
a pair of surrogates is taken apart there. -/
theorem foldlM_text (reversed : List Token) {text : Text} {chars : List Char}
    (spelled : text.Spelled chars) (before : Text)
    (noPair : Text.NoPair before.head? text) :
    chars.foldlM step? ⟨reversed, .text before .none⟩ =
      some ⟨reversed, .text (text.reverse ++ before) .none⟩ := by
  -- Only a surrogate that stands alone can be followed by one that it must not join.
  induction spelled generalizing before with
  | nil => rfl
  | @plain char text chars noQuote noBackslash noControl spelled induction =>
      have read : step? ⟨reversed, .text before .none⟩ char =
          some ⟨reversed, .text (.char char :: before) .none⟩ := by
        simp only [step?, text?, if_neg noQuote, if_neg noBackslash,
          if_neg (Nat.not_lt.mpr noControl)]
      have others := induction (.char char :: before) (Text.noPair_char char text)
      exact foldlM_text_cons reversed (foldlM_cons_of_step read []) others
  | @letter letter char text chars escaped spelled induction =>
      have backslash : step? ⟨reversed, .text before .none⟩ '\\' =
          some ⟨reversed, .text before .backslash⟩ := rfl
      have noUnit : letter ≠ 'u' := by
        rintro rfl
        cases escaped
      have read : step? ⟨reversed, .text before .backslash⟩ letter =
          some ⟨reversed, .text (.char char :: before) .none⟩ := by
        simp only [step?, text?, if_neg noUnit, escaped, Option.map_some]
      have others := induction (.char char :: before) (Text.noPair_char char text)
      have both : ['\\', letter].foldlM step? ⟨reversed, .text before .none⟩ =
          some ⟨reversed, .text (.char char :: before) .none⟩ := by
        rw [foldlM_cons_of_step backslash, foldlM_cons_of_step read]
        rfl
      exact foldlM_text_cons reversed both others
  | @unit unit escape text chars spelledUnit plain spelled induction =>
      have read := foldlM_unitSpelled reversed before spelledUnit
      rw [pushUnit_of_not_isSurrogate before plain] at read
      have others := induction (.char (Char.ofNat unit) :: before) (Text.noPair_char _ text)
      exact foldlM_text_cons reversed read others
  | @pair high low first second text chars spelledHigh isHigh spelledLow isLow spelled
      induction =>
      have readHigh := foldlM_unitSpelled reversed before spelledHigh
      have readLow := foldlM_unitSpelled reversed (pushUnit before high) spelledLow
      rw [pushUnit_pair before isHigh isLow, ← foldlM_append_of_run readHigh] at readLow
      have others := induction (.char (pairedChar high low) :: before)
        (Text.noPair_char _ text)
      rw [← List.append_assoc]
      exact foldlM_text_cons reversed readLow others
  | @alone unit escape text chars spelledUnit surrogate apart spelled induction =>
      have read := foldlM_unitSpelled reversed before spelledUnit
      rw [pushUnit_of_noPair surrogate noPair] at read
      have others := induction (.surrogate unit.toUInt16 :: before) apart
      exact foldlM_text_cons reversed read others

/-! ## Tokens -/

theorem foldlM_string (reversed : List Token) {text : Text} {chars : List Char}
    (spelled : text.Spelled chars) :
    ('\x22' :: (chars ++ ['\x22'])).foldlM step? ⟨reversed, .between⟩ =
      some ⟨.string text :: reversed, .between⟩ := by
  have opened : step? ⟨reversed, .between⟩ '\x22' = some ⟨reversed, .text [] .none⟩ := rfl
  have closed : step? ⟨reversed, .text (text.reverse ++ []) .none⟩ '\x22' =
      some ⟨.string (text.reverse ++ []).reverse :: reversed, .between⟩ := rfl
  have content := foldlM_text reversed spelled [] (Text.noPair_none text)
  rw [foldlM_cons_of_step opened, foldlM_append_of_run content, foldlM_cons_of_step closed,
    List.append_nil, List.reverse_reverse]
  rfl

theorem foldlM_next? (reversed : List Token) {digits : List Char} {phase last : NumberPhase}
    {read : List Char} (found : digits.foldlM NumberPhase.next? phase = some last) :
    digits.foldlM step? ⟨reversed, .number phase read⟩ =
      some ⟨reversed, .number last (digits.reverse ++ read)⟩ := by
  induction digits generalizing phase read with
  | nil =>
      cases found
      rfl
  | cons digit digits induction =>
      obtain ⟨next, goesOn, others⟩ := Option.bind_eq_some_iff.mp found
      have step : step? ⟨reversed, .number phase read⟩ digit =
          some ⟨reversed, .number next (digit :: read)⟩ := by
        simp only [step?, goesOn]
      rw [foldlM_cons_of_step step, induction others, List.reverse_cons, List.append_assoc,
        List.singleton_append]

end Scanner

/-- A number starts with a minus sign or a digit. -/
theorem NumberPhase.begin?_of_first? (reversed : List Token) {char : Char}
    {phase : NumberPhase} (found : NumberPhase.first? char = some phase) :
    Scanner.step? ⟨reversed, .between⟩ char = some ⟨reversed, .number phase [char]⟩ := by
  have differs (other : Char) (noNumber : first? other = none) : char ≠ other := by
    rintro rfl
    rw [noNumber] at found
    cases found
  have noBlank : isBlank char = false := by
    simp [isBlank, differs ' ' rfl, differs '\t' rfl, differs '\n' rfl, differs '\r' rfl]
  simp [Scanner.step?, Scanner.begin?, noBlank, found, differs '\x7b' rfl,
    differs '\x7d' rfl, differs '[' rfl, differs ']' rfl, differs ':' rfl, differs ',' rfl,
    differs 'n' rfl, differs 't' rfl, differs 'f' rfl, differs '\x22' rfl]

namespace Scanner

theorem foldlM_number (reversed : List Token) {spelling : List Char}
    (spells : SpellsNumber spelling) :
    ∃ next, spelling.foldlM step? ⟨reversed, .between⟩ = some next ∧
      next.Has (.number spelling :: reversed).reverse := by
  obtain ⟨phase, found, complete⟩ := spells
  cases spelling with
  | nil => cases found
  | cons first rest =>
      obtain ⟨start, begins, others⟩ := Option.bind_eq_some_iff.mp found
      have step := NumberPhase.begin?_of_first? reversed begins
      have has := Has.number reversed (rest.reverse ++ [first]) complete
      rw [List.reverse_append, List.reverse_reverse, List.reverse_singleton,
        List.singleton_append] at has
      refine ⟨_, ?_, has⟩
      rw [foldlM_cons_of_step step, foldlM_next? reversed others]

theorem foldlM_spelled (reversed : List Token) {token : Token} {chars : List Char}
    (spelled : token.Spelled chars) :
    ∃ next, chars.foldlM step? ⟨reversed, .between⟩ = some next ∧
      next.Has (token :: reversed).reverse := by
  cases token with
  | number spelling =>
      obtain ⟨isNumeral, rfl⟩ := spelled
      exact foldlM_number reversed isNumeral.spellsNumber
  | string text =>
      obtain ⟨content, spelled, rfl⟩ := spelled
      exact ⟨_, foldlM_string reversed spelled, .between _⟩
  | bool value =>
      subst spelled
      cases value <;> exact ⟨_, rfl, .between _⟩
  | _ =>
      subst spelled
      exact ⟨_, rfl, .between _⟩

/-- Every token can be read after another, but for a number after a number. -/
theorem Has.foldlM_spelled {scanner : Scanner} {read : List Token} (has : scanner.Has read)
    {token : Token} {chars : List Char} (spelled : token.Spelled chars)
    (apart : ∀ last ∈ read.getLast?, last.Apart token) :
    ∃ next, chars.foldlM step? scanner = some next ∧ next.Has (read ++ [token]) := by
  have fresh : chars.foldlM step? scanner = chars.foldlM step? ⟨read.reverse, .between⟩ := by
    cases number : token.isNumber with
    | false =>
        obtain ⟨first, rest, rfl, ends⟩ := spelled.exists_cons number
        rw [List.foldlM_cons, has.step?_eq ends, List.foldlM_cons]
    | true =>
        cases has with
        | between reversed => rw [List.reverse_reverse]
        | number reversed digits complete =>
            have last := apart (.number digits.reverse) (by simp)
            rcases last with noNumber | noNumber
            · cases noNumber
            · rw [number] at noNumber
              cases noNumber
  rw [fresh]
  obtain ⟨next, run, hasNext⟩ := Scanner.foldlM_spelled read.reverse spelled
  rw [List.reverse_cons, List.reverse_reverse] at hasNext
  exact ⟨next, run, hasNext⟩

end Scanner

/-- The tokens of a text are found, however they are spelled and whatever white space
stands between them. -/
theorem Spaced.foldlM_step? {tokens : List Token} {chars : List Char}
    (spaced : Spaced tokens chars) {scanner : Scanner} {read : List Token}
    (has : scanner.Has read) (apart : (read ++ tokens).IsChain Token.Apart) :
    ∃ last, chars.foldlM Scanner.step? scanner = some last ∧ last.Has (read ++ tokens) := by
  induction spaced generalizing scanner read with
  | nil =>
      rw [List.append_nil]
      exact ⟨scanner, rfl, has⟩
  | blank isBlank spaced induction =>
      obtain ⟨next, step, hasNext⟩ := has.step?_blank isBlank
      rw [foldlM_cons_of_step step]
      exact induction hasNext apart
  | @token token spelling tokens chars spelled spaced induction =>
      have beside := (List.isChain_append.mp apart).2.2
      obtain ⟨next, run, hasNext⟩ :=
        has.foldlM_spelled spelled fun last member => beside last member token rfl
      have shape : read ++ token :: tokens = (read ++ [token]) ++ tokens := by
        rw [List.append_assoc, List.singleton_append]
      rw [shape] at apart ⊢
      rw [foldlM_append_of_run run]
      exact induction hasNext apart

theorem scan?_of_spaced {tokens : List Token} {chars : List Char}
    (spaced : Spaced tokens chars) (apart : tokens.IsChain Token.Apart) :
    scan? chars = some tokens := by
  obtain ⟨last, run, has⟩ := spaced.foldlM_step? (.between []) apart
  exact Option.bind_eq_some_iff.mpr ⟨last, run, has.finish?⟩

end Json

end TrafficRelay
