import TrafficRelay.Json.Token

/-!
# Reading JSON values

The reader takes one token at a time.  The containers that are still open are
kept on a stack, innermost first, so a value may be nested to any depth.
-/

namespace TrafficRelay

namespace Json

/-- A container that is still open, its content in reverse.  An object awaits
the value of its last key. -/
inductive OpenContainer where
  | array (items : List Json)
  | object (members : List (Text × Json)) (key : Text)
  deriving Repr

/-- What the reader has just come to, within the containers that are open. -/
inductive ReadState where
  | beforeValue (outer : List OpenContainer)
  | inNewArray (outer : List OpenContainer)
  | inNewObject (outer : List OpenContainer)
  | beforeKey (members : List (Text × Json)) (outer : List OpenContainer)
  | afterKey (members : List (Text × Json)) (key : Text) (outer : List OpenContainer)
  | afterValue (value : Json) (outer : List OpenContainer)
  deriving Repr

namespace ReadState

/-- Start the value that a token begins. -/
def begin? (outer : List OpenContainer) : Token → Option ReadState
  | .beginObject => some (inNewObject outer)
  | .beginArray => some (inNewArray outer)
  | .null => some (afterValue .null outer)
  | .bool value => some (afterValue (.bool value) outer)
  | .number spelling => some (afterValue (.number spelling) outer)
  | .string text => some (afterValue (.string text) outer)
  | .endObject | .endArray | .colon | .comma => none

/-- Go on after a complete value: its container continues or ends. -/
def resume? (value : Json) : List OpenContainer → Token → Option ReadState
  | .array items :: outer, .comma => some (beforeValue (.array (value :: items) :: outer))
  | .array items :: outer, .endArray =>
      some (afterValue (.array (value :: items).reverse) outer)
  | .object members key :: outer, .comma =>
      some (beforeKey ((key, value) :: members) outer)
  | .object members key :: outer, .endObject =>
      some (afterValue (.object ((key, value) :: members).reverse) outer)
  | _, _ => none

/-- Read one token. -/
def step? : ReadState → Token → Option ReadState
  | beforeValue outer, token => begin? outer token
  | inNewArray outer, .endArray => some (afterValue (.array []) outer)
  | inNewArray outer, token => begin? (.array [] :: outer) token
  | inNewObject outer, .endObject => some (afterValue (.object []) outer)
  | inNewObject outer, .string key => some (afterKey [] key outer)
  | beforeKey members outer, .string key => some (afterKey members key outer)
  | afterKey members key outer, .colon => some (beforeValue (.object members key :: outer))
  | afterValue value outer, token => resume? value outer token
  | _, _ => none

/-- The value, if the text may end here. -/
def finish? : ReadState → Option Json
  | afterValue value [] => some value
  | _ => none

end ReadState

/-- The value described by a sequence of tokens. -/
def ofTokens? (tokens : List Token) : Option Json :=
  (tokens.foldlM ReadState.step? (.beforeValue [])).bind ReadState.finish?

/-- The value described by a text. -/
def parse? (text : String) : Option Json :=
  (scan? text.toList).bind ofTokens?

end Json

end TrafficRelay
