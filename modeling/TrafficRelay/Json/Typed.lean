import TrafficRelay.Decimal
import TrafficRelay.Json.Value

/-!
# Typed readings of JSON values

A value is read as a text, a switch, an integer in range, a sequence, one of a
list of names, or a structure with named fields.  A structure is written as an
object, whose unknown members are passed over, or as the array of its first
fields in order.  A known field may not be repeated.
-/

namespace TrafficRelay

namespace Json

def string? : Json → Option String
  | .string text => text.toString?
  | _ => none

def bool? : Json → Option Bool
  | .bool value => some value
  | _ => none

/-- An integer spelled without point and exponent; a negative zero is none. -/
def int? : Json → Option Int
  | .number spelling =>
      if spelling = ['-', '0'] then none
      else Decimal.readInt? (spelling.map fun char => char.toNat.toUInt8)
  | _ => none

/-- An integer in the range of unsigned 64-bit words. -/
def word? (json : Json) : Option UInt64 :=
  json.int?.bind fun value =>
    if 0 ≤ value ∧ value.toNat < UInt64.size then some value.toNat.toUInt64
    else none

/-- An integer in the range of signed 64-bit words. -/
def int64? (json : Json) : Option Int64 := json.int?.bind Decimal.toInt64?

def list? {α : Type} (item? : Json → Option α) : Json → Option (List α)
  | .array items => items.mapM item?
  | _ => none

/-- One of several names, as a string or as the only key of an object whose
value is null. -/
def choice? {α : Type} (choices : List (String × α)) : Json → Option α
  | .string text | .object [(text, .null)] =>
      text.toString?.bind fun name => choices.lookup name
  | _ => none

/-- The members of an object, if every key is a string of characters. -/
def members? (members : List (Text × Json)) : Option (List (String × Json)) :=
  members.mapM fun (key, value) => key.toString?.map fun name => (name, value)

/-- The values of the named fields, each present or missing. -/
def fields? (names : List String) : Json → Option (List (Option Json))
  | .object members =>
      (members? members).bind fun members =>
        if names.all fun name => members.countP (·.1 = name) ≤ 1 then
          some (names.map fun name => members.lookup name)
        else none
  | .array items =>
      if items.length ≤ names.length then
        some (items.map some ++ List.replicate (names.length - items.length) none)
      else none
  | _ => none

/-- Read a field that may be missing. -/
def orDefault {α : Type} (read? : Json → Option α) (default : α) :
    Option Json → Option α
  | none => some default
  | some json => read? json

/-- The value that a text of characters stands for. -/
def ofString (text : String) : Json := .string (Text.ofString text)

def ofNat (value : Nat) : Json :=
  .number ((Decimal.ofNat value).map fun byte => Char.ofNat byte.toNat)

def ofInt (value : Int) : Json :=
  .number ((Decimal.ofInt value).map fun byte => Char.ofNat byte.toNat)

def ofList {α : Type} (item : α → Json) (items : List α) : Json :=
  .array (items.map item)

/-- The object with these fields. -/
def ofFields (fields : List (String × Json)) : Json :=
  .object (fields.map fun (name, value) => (Text.ofString name, value))

end Json

end TrafficRelay
