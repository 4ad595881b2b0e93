import TrafficRelay.Json.Value

/-!
# JSON tokens

A JSON text is a sequence of tokens with white space between them.  The
scanner reads one character at a time and keeps what it has read of the
current token in its state; `scan?` gives the tokens of a text whose tokens are
all well formed.  `Token.chars` spells a token.
-/

namespace TrafficRelay

namespace Json

inductive Token where
  | beginObject
  | endObject
  | beginArray
  | endArray
  | colon
  | comma
  | null
  | bool (value : Bool)
  | number (spelling : List Char)
  | string (text : Text)
  deriving DecidableEq, Repr

def isBlank (char : Char) : Bool :=
  char = ' ' || char = '\t' || char = '\n' || char = '\r'

/-! ## Numbers -/

/-- How much of a number has been read. -/
inductive NumberPhase where
  | minus
  | zero
  | whole
  | point
  | fraction
  | exponent
  | exponentSign
  | exponentDigits
  deriving DecidableEq, Repr

namespace NumberPhase

/-- The phase in which a number starts with this character. -/
def first? (char : Char) : Option NumberPhase :=
  if char = '-' then some minus
  else if char = '0' then some zero
  else if char.isDigit then some whole
  else none

/-- The phase after one more character, if it continues the number. -/
def next? (phase : NumberPhase) (char : Char) : Option NumberPhase :=
  let digit := char.isDigit
  let mark := char = 'e' || char = 'E'
  match phase with
  | minus => if char = '0' then some zero else if digit then some whole else none
  | zero => if char = '.' then some point else if mark then some exponent else none
  | whole =>
      if digit then some whole
      else if char = '.' then some point
      else if mark then some exponent else none
  | point => if digit then some fraction else none
  | fraction => if digit then some fraction else if mark then some exponent else none
  | exponent =>
      if digit then some exponentDigits
      else if char = '+' || char = '-' then some exponentSign else none
  | exponentSign | exponentDigits => if digit then some exponentDigits else none

/-- Whether a number may end here. -/
def complete : NumberPhase → Bool
  | zero | whole | fraction | exponentDigits => true
  | minus | point | exponent | exponentSign => false

end NumberPhase

/-! ## Strings -/

/-- How much of an escape sequence has been read. -/
inductive EscapePhase where
  | none
  | backslash
  | hex (digits : Nat) (value : Nat)
  deriving DecidableEq, Repr

def hexValue? (char : Char) : Option Nat :=
  if char.isDigit then some (char.toNat - 48)
  else if 'a' ≤ char ∧ char ≤ 'f' then some (char.toNat - 87)
  else if 'A' ≤ char ∧ char ≤ 'F' then some (char.toNat - 55)
  else none

/-- The character that a one-letter escape stands for. -/
def escaped? (char : Char) : Option Char :=
  if char = '\x22' || char = '\\' || char = '/' then some char
  else if char = 'b' then some '\x08'
  else if char = 'f' then some '\x0c'
  else if char = 'n' then some '\n'
  else if char = 'r' then some '\r'
  else if char = 't' then some '\t'
  else none

def isHighSurrogate (unit : Nat) : Bool := 0xd800 ≤ unit && unit < 0xdc00

def isLowSurrogate (unit : Nat) : Bool := 0xdc00 ≤ unit && unit < 0xe000

/-- Add an escaped 16-bit unit to a string that is held in reverse.  A low
surrogate joins the high one right before it. -/
def pushUnit (reversed : Text) (unit : Nat) : Text :=
  if isLowSurrogate unit then
    match reversed with
    | .surrogate high :: rest =>
        if isHighSurrogate high.toNat then
          .char (Char.ofNat
            (0x10000 + (high.toNat - 0xd800) * 0x400 + (unit - 0xdc00))) :: rest
        else .surrogate unit.toUInt16 :: reversed
    | _ => .surrogate unit.toUInt16 :: reversed
  else if isHighSurrogate unit then .surrogate unit.toUInt16 :: reversed
  else .char (Char.ofNat unit) :: reversed

/-! ## The scanner -/

/-- What the scanner has read of the current token. -/
inductive ScanState where
  | between
  | word (rest : List Char) (token : Token)
  | number (phase : NumberPhase) (reversed : List Char)
  | text (reversed : Text) (escape : EscapePhase)
  deriving DecidableEq, Repr

/-- The scanner: finished tokens in reverse, and the current one. -/
structure Scanner where
  reversed : List Token
  state : ScanState
  deriving DecidableEq, Repr

namespace Scanner

def start : Scanner := ⟨[], .between⟩

def emit (scanner : Scanner) (token : Token) : Scanner :=
  ⟨token :: scanner.reversed, .between⟩

/-- Read a character outside any token. -/
def begin? (scanner : Scanner) (char : Char) : Option Scanner :=
  if isBlank char then some scanner
  else if char = '\x7b' then some (scanner.emit .beginObject)
  else if char = '\x7d' then some (scanner.emit .endObject)
  else if char = '[' then some (scanner.emit .beginArray)
  else if char = ']' then some (scanner.emit .endArray)
  else if char = ':' then some (scanner.emit .colon)
  else if char = ',' then some (scanner.emit .comma)
  else if char = 'n' then
    some { scanner with state := .word ['u', 'l', 'l'] .null }
  else if char = 't' then
    some { scanner with state := .word ['r', 'u', 'e'] (.bool true) }
  else if char = 'f' then
    some { scanner with state := .word ['a', 'l', 's', 'e'] (.bool false) }
  else if char = '\x22' then some { scanner with state := .text [] .none }
  else (NumberPhase.first? char).map fun phase =>
    { scanner with state := .number phase [char] }

/-- Read a character inside a string. -/
def text? (scanner : Scanner) (reversed : Text) (escape : EscapePhase)
    (char : Char) : Option Scanner :=
  match escape with
  | .none =>
      if char = '\x22' then some (scanner.emit (.string reversed.reverse))
      else if char = '\\' then some { scanner with state := .text reversed .backslash }
      else if char.toNat < 32 then none
      else some { scanner with state := .text (.char char :: reversed) .none }
  | .backslash =>
      if char = 'u' then some { scanner with state := .text reversed (.hex 0 0) }
      else (escaped? char).map fun character =>
        { scanner with state := .text (.char character :: reversed) .none }
  | .hex digits value =>
      (hexValue? char).map fun digit =>
        let value := 16 * value + digit
        if digits = 3 then { scanner with state := .text (pushUnit reversed value) .none }
        else { scanner with state := .text reversed (.hex (digits + 1) value) }

/-- End the number being read. -/
def endNumber? (scanner : Scanner) (phase : NumberPhase) (reversed : List Char) :
    Option Scanner :=
  if phase.complete then some (scanner.emit (.number reversed.reverse)) else none

/-- Read one character. -/
def step? (scanner : Scanner) (char : Char) : Option Scanner :=
  match scanner.state with
  | .between => scanner.begin? char
  | .word [] _ => none
  | .word [last] token => if char = last then some (scanner.emit token) else none
  | .word (expected :: rest) token =>
      if char = expected then some { scanner with state := .word rest token } else none
  | .number phase reversed =>
      match phase.next? char with
      | some phase => some { scanner with state := .number phase (char :: reversed) }
      | none => (scanner.endNumber? phase reversed).bind (·.begin? char)
  | .text reversed escape => scanner.text? reversed escape char

/-- The tokens, if the text may end here. -/
def finish? (scanner : Scanner) : Option (List Token) :=
  match scanner.state with
  | .between => some scanner.reversed.reverse
  | .number phase reversed =>
      (scanner.endNumber? phase reversed).map (·.reversed.reverse)
  | .word _ _ | .text _ _ => none

end Scanner

/-- The tokens of a text. -/
def scan? (chars : List Char) : Option (List Token) :=
  (chars.foldlM Scanner.step? Scanner.start).bind Scanner.finish?

/-! ## Spelling -/

def hexDigit (value : Nat) : Char :=
  Char.ofNat (if value < 10 then 48 + value else 87 + value)

/-- The escape sequence for a 16-bit unit. -/
def unitEscape (unit : Nat) : List Char :=
  ['\\', 'u', hexDigit (unit / 0x1000 % 16), hexDigit (unit / 0x100 % 16),
    hexDigit (unit / 0x10 % 16), hexDigit (unit % 16)]

/-- A character as it is written in a string.  Only the quotation mark, the
backslash and the control characters are escaped. -/
def charSpelling (char : Char) : List Char :=
  if char = '\x22' then ['\\', '\x22']
  else if char = '\\' then ['\\', '\\']
  else if char = '\x08' then ['\\', 'b']
  else if char = '\t' then ['\\', 't']
  else if char = '\n' then ['\\', 'n']
  else if char = '\x0c' then ['\\', 'f']
  else if char = '\r' then ['\\', 'r']
  else if char.toNat < 32 then unitEscape char.toNat
  else [char]

namespace TextUnit

def spelling : TextUnit → List Char
  | char character => charSpelling character
  | surrogate unit => unitEscape unit.toNat

end TextUnit

namespace Token

/-- A token as it is written. -/
def chars : Token → List Char
  | beginObject => ['\x7b']
  | endObject => ['\x7d']
  | beginArray => ['[']
  | endArray => [']']
  | colon => [':']
  | comma => [',']
  | null => ['n', 'u', 'l', 'l']
  | bool true => ['t', 'r', 'u', 'e']
  | bool false => ['f', 'a', 'l', 's', 'e']
  | number spelling => spelling
  | string text => '\x22' :: (text.flatMap TextUnit.spelling ++ ['\x22'])

end Token

end Json

end TrafficRelay
