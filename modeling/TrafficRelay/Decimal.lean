import TrafficRelay.Bytes

/-!
# Decimal integers

Integers are written in decimal ASCII.  Reading accepts an optional sign and
any positive number of digits, leading zeros included, as long as the value
fits a signed 64-bit word; writing produces no plus sign and no leading zero.
-/

namespace TrafficRelay

namespace Decimal

def digitValue (byte : UInt8) : Nat := byte.toNat - 48

def digitByte (value : Nat) : UInt8 := UInt8.ofNat (48 + value)

/-- The number written by a list of digits, most significant first. -/
def natOfDigits (digits : Bytes) : Nat :=
  digits.foldl (fun value digit => 10 * value + digitValue digit) 0

/-- A nonempty list of digits, as the number it writes. -/
def readNat? (digits : Bytes) : Option Nat :=
  if digits ≠ [] ∧ digits.all Bytes.isDigit then
    some (natOfDigits digits)
  else none

/-- An integer with an optional leading sign. -/
def readInt? : Bytes → Option Int
  | [] => none
  | first :: rest =>
      if first = 43 then (readNat? rest).map Int.ofNat
      else if first = 45 then (readNat? rest).map fun value => -Int.ofNat value
      else (readNat? (first :: rest)).map Int.ofNat

/-- The word holding an integer, if the integer is in range. -/
def toInt64? (value : Int) : Option Int64 :=
  if lower : Int64.minValue.toInt ≤ value then
    if upper : value ≤ Int64.maxValue.toInt then
      some (Int64.ofIntLE value lower upper)
    else none
  else none

/-- An integer in the range of signed 64-bit words. -/
def readInt64? (bytes : Bytes) : Option Int64 :=
  (readInt? bytes).bind toInt64?

/-- The decimal digits of a number, most significant first. -/
def ofNat (value : Nat) : Bytes :=
  if value < 10 then [digitByte value]
  else ofNat (value / 10) ++ [digitByte (value % 10)]

/-- The decimal spelling of an integer, with a minus sign if it is negative. -/
def ofInt : Int → Bytes
  | .ofNat value => ofNat value
  | .negSucc value => 45 :: ofNat (value + 1)

def ofInt64 (value : Int64) : Bytes := ofInt value.toInt

end Decimal

end TrafficRelay
