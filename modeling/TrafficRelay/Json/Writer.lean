import TrafficRelay.Json.Token

/-!
# Writing JSON values

`Json.tokens` gives the tokens of a value.  The compact text is their
spellings one after the other; the indented text puts the items of every
nonempty container on lines of their own, two blanks deeper than the
container.
-/

namespace TrafficRelay

namespace Json

mutual

/-- The tokens of a value, in order. -/
def tokens : Json → List Token
  | null => [.null]
  | bool value => [.bool value]
  | number spelling => [.number spelling]
  | string text => [.string text]
  | array items => .beginArray :: (itemTokens items ++ [.endArray])
  | object members => .beginObject :: (memberTokens members ++ [.endObject])

/-- The tokens of the items of an array, with commas between them. -/
def itemTokens : List Json → List Token
  | [] => []
  | [item] => item.tokens
  | item :: next :: rest => item.tokens ++ .comma :: itemTokens (next :: rest)

/-- The tokens of the members of an object, with commas between them. -/
def memberTokens : List (Text × Json) → List Token
  | [] => []
  | [(key, value)] => .string key :: .colon :: value.tokens
  | (key, value) :: next :: rest =>
      .string key :: .colon :: (value.tokens ++ .comma :: memberTokens (next :: rest))

end

/-- The text without any white space. -/
def compact (value : Json) : String :=
  String.ofList (value.tokens.flatMap Token.chars)

namespace Token

def opens : Token → Bool
  | beginObject | beginArray => true
  | _ => false

def closes : Token → Bool
  | endObject | endArray => true
  | _ => false

end Token

def newLine (depth : Nat) : List Char := '\n' :: List.replicate (2 * depth) ' '

/-- The white space between two tokens, when this many containers are open
after the first. -/
def gap (depth : Nat) (token next : Token) : List Char :=
  if token.opens && next.closes then []
  else if next.closes then newLine (depth - 1)
  else if token.opens || token = .comma then newLine depth
  else if token = .colon then [' ']
  else []

/-- The spellings of tokens with indentation, starting inside this many
containers. -/
def layout (depth : Nat) : List Token → List Char
  | [] => []
  | [token] => token.chars
  | token :: next :: rest =>
      let depth :=
        if token.opens then depth + 1 else if token.closes then depth - 1 else depth
      token.chars ++ (gap depth token next ++ layout depth (next :: rest))

/-- The text with indentation. -/
def indented (value : Json) : String := String.ofList (layout 0 value.tokens)

end Json

end TrafficRelay
