/-!
# JSON values

A value is the tree that a JSON text describes.  Two details of the text
survive in it: a number keeps its spelling, so that its size and form can be
judged later, and a string may hold surrogates that are not part of a pair,
which no string of characters can.
-/

namespace TrafficRelay

namespace Json

/-- One element of a string: a character, or a surrogate standing alone. -/
inductive TextUnit where
  | char (character : Char)
  | surrogate (unit : UInt16)
  deriving DecidableEq, Repr

/-- The content of a string. -/
abbrev Text := List TextUnit

namespace TextUnit

def character? : TextUnit → Option Char
  | char character => some character
  | surrogate _ => none

end TextUnit

namespace Text

def ofString (text : String) : Text := text.toList.map .char

/-- The string of characters, if no surrogate stands alone. -/
def toString? (text : Text) : Option String :=
  (text.mapM TextUnit.character?).map String.ofList

end Text

end Json

/-- What a JSON text describes.  Numbers are spelled out, and the members of an
object are in the order of the text, repetitions included. -/
inductive Json where
  | null
  | bool (value : Bool)
  | number (spelling : List Char)
  | string (text : Json.Text)
  | array (items : List Json)
  | object (members : List (Json.Text × Json))
  deriving Repr

end TrafficRelay
