import TrafficRelay.Verdict

/-!
# Request methods and the whitelist

The method of a request is the text before the first space of its first line,
if that text is a nonempty token.  A whitelist allows the requests whose
method is on it; the empty whitelist allows everything.
-/

namespace TrafficRelay

/-- The characters of a token besides letters and digits. -/
def tokenMarks : Bytes := Bytes.ofString "!#$%&'*+-.^_\x60|~"

def isTokenByte (byte : UInt8) : Bool :=
  Bytes.isLetter byte || Bytes.isDigit byte || tokenMarks.contains byte

/-- The method of the request with this body. -/
def methodOf? (body : Bytes) : Option Bytes :=
  let line := body.takeWhile (· ≠ Bytes.newline)
  let method := line.takeWhile (· ≠ Bytes.space)
  if Bytes.space ∈ line ∧ method ≠ [] ∧ method.all isTokenByte = true then some method
  else none

/-- The methods that may pass. -/
structure Whitelist where
  methods : List Bytes
  deriving DecidableEq, Repr

namespace Whitelist

def ofNames (names : List String) : Whitelist := ⟨names.map Bytes.ofString⟩

def isEmpty (whitelist : Whitelist) : Bool := whitelist.methods.isEmpty

/-- A body without a method passes the empty whitelist only. -/
def judge (whitelist : Whitelist) (body : Bytes) : Verdict :=
  if whitelist.isEmpty then .allow
  else match methodOf? body with
    | some method => .ofAllowed (whitelist.methods.contains method)
    | none => .drop

end Whitelist

end TrafficRelay
