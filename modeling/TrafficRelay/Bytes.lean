/-!
# Byte strings

Frames, header fields, method names and file contents are finite byte strings.
This module fixes the few characters that the record format gives a meaning to
and the three ways in which a byte string is cut: at its first newline, at
every occurrence of one byte, and into lines that keep their newline.
-/

namespace TrafficRelay

/-- A finite byte string. -/
abbrev Bytes := List UInt8

namespace Bytes

def newline : UInt8 := 10

def carriageReturn : UInt8 := 13

def space : UInt8 := 32

/-- Visible ASCII: everything from the exclamation mark to the tilde. -/
def isGraphic (byte : UInt8) : Bool := 33 ≤ byte && byte ≤ 126

def isDigit (byte : UInt8) : Bool := 48 ≤ byte && byte ≤ 57

def isLetter (byte : UInt8) : Bool :=
  (65 ≤ byte && byte ≤ 90) || (97 ≤ byte && byte ≤ 122)

/-- The UTF-8 bytes of a text. -/
def ofString (text : String) : Bytes := text.toUTF8.data.toList

/-- The text that these bytes encode in UTF-8, if they encode one. -/
def toString? (bytes : Bytes) : Option String :=
  String.fromUTF8? ⟨bytes.toArray⟩

/-- The text whose characters have these bytes as their code points. -/
def toLatin (bytes : Bytes) : String :=
  String.ofList (bytes.map fun byte => Char.ofNat byte.toNat)

/-- Everything before the first newline and everything after it, if there is
a newline. -/
def cutLine? (bytes : Bytes) : Option (Bytes × Bytes) :=
  match bytes.dropWhile (· ≠ newline) with
  | [] => none
  | _ :: rest => some (bytes.takeWhile (· ≠ newline), rest)

/-- Put one more byte in front of a list of pieces. -/
def consPiece (separator byte : UInt8) (pieces : List Bytes) : List Bytes :=
  if byte = separator then [] :: pieces
  else match pieces with
    | [] => [[byte]]
    | piece :: others => (byte :: piece) :: others

/-- The pieces between the occurrences of a separator.  Empty pieces are kept,
so there is always one piece more than there are separators. -/
def splitOn (separator : UInt8) (bytes : Bytes) : List Bytes :=
  bytes.foldr (consPiece separator) [[]]

/-- Put one more byte in front of a list of lines. -/
def consLine (byte : UInt8) (lines : List Bytes) : List Bytes :=
  if byte = newline then [newline] :: lines
  else match lines with
    | [] => [[byte]]
    | line :: others => (byte :: line) :: others

/-- The lines of a byte string, each with its newline.  The last line lacks
one when the byte string does not end in a newline; no line is empty. -/
def lines (bytes : Bytes) : List Bytes :=
  bytes.foldr consLine []

@[simp] theorem splitOn_nil (separator : UInt8) :
    splitOn separator [] = [[]] := rfl

@[simp] theorem splitOn_cons (separator byte : UInt8) (bytes : Bytes) :
    splitOn separator (byte :: bytes) =
      consPiece separator byte (splitOn separator bytes) := rfl

@[simp] theorem lines_nil : lines [] = [] := rfl

@[simp] theorem lines_cons (byte : UInt8) (bytes : Bytes) :
    lines (byte :: bytes) = consLine byte (lines bytes) := rfl

end Bytes

end TrafficRelay
