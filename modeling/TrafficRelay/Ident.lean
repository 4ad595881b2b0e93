import TrafficRelay.Bytes

/-!
# Record identities

A record's identity is a string of 24 graphic characters.  The first 20 are
the session key, which a request shares with everything that answers it; the
last four are the variant, which tells the records of one session apart.
-/

namespace TrafficRelay

/-- The part of an identity that a request shares with its answers. -/
structure SessionKey where
  bytes : Bytes
  length_eq : bytes.length = 20
  deriving DecidableEq, Repr

namespace SessionKey

def ofBytes? (bytes : Bytes) : Option SessionKey :=
  if length_eq : bytes.length = 20 then some ⟨bytes, length_eq⟩ else none

end SessionKey

/-- The identity of a record: 24 graphic characters. -/
structure Ident where
  bytes : Bytes
  length_eq : bytes.length = 24
  graphic : bytes.all Bytes.isGraphic = true
  deriving DecidableEq, Repr

namespace Ident

def ofBytes? (bytes : Bytes) : Option Ident :=
  if valid : bytes.length = 24 ∧ bytes.all Bytes.isGraphic = true then
    some ⟨bytes, valid.1, valid.2⟩
  else none

/-- The first 20 characters. -/
def session (ident : Ident) : SessionKey where
  bytes := ident.bytes.take 20
  length_eq := by simp [ident.length_eq]

/-- The last four characters. -/
def variant (ident : Ident) : Bytes := ident.bytes.drop 20

/-- The identity of the same session with another variant, if that is one. -/
def withVariant? (ident : Ident) (variant : Bytes) : Option Ident :=
  ofBytes? (ident.session.bytes ++ variant)

/-- The character for a number below 16. -/
def hexDigit (value : UInt8) : UInt8 :=
  if value < 10 then 48 + value else 87 + value

/-- The lower-case hexadecimal spelling of a byte string. -/
def hex (bytes : Bytes) : Bytes :=
  bytes.flatMap fun (byte : UInt8) => [hexDigit (byte / 16), hexDigit (byte % 16)]

/-- The identity that spells out 12 random bytes. -/
def ofEntropy? (entropy : Bytes) : Option Ident := ofBytes? (hex entropy)

end Ident

end TrafficRelay
