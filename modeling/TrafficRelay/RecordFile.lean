import TrafficRelay.Bytes

/-!
# Record files

Records are kept in a file one after another, each followed by a newline and a
separator line.  A line is a separator if it is the separator mark, whatever
its line end.  When a file is read, the newline before a separator belongs to
the layout and not to the record; what stands after the last separator is a
record too, as it is, unless nothing stands there.
-/

namespace TrafficRelay

namespace RecordFile

/-- The content of a separator line. -/
def separatorMark : String := "🐵🙈🙉"

def separator : Bytes := Bytes.ofString separatorMark

/-- A byte string without its last byte, if that is the given one. -/
def stripLast (byte : UInt8) (bytes : Bytes) : Bytes :=
  if bytes.getLast? = some byte then bytes.dropLast else bytes

def isSeparatorLine (line : Bytes) : Bool :=
  stripLast Bytes.carriageReturn (stripLast Bytes.newline line) = separator

/-- The next record in a list of lines, and the lines after it.  There is none
at the end of the file. -/
def next? (lines : List Bytes) : Option (Bytes × List Bytes) :=
  let record := lines.takeWhile fun line => !isSeparatorLine line
  match lines.dropWhile fun line => !isSeparatorLine line with
  | _ :: rest => some (stripLast Bytes.newline record.flatten, rest)
  | [] => if record.isEmpty then none else some (record.flatten, [])

/-- The records in a list of lines, when these lines of the first record have
been read already, in reverse. -/
def recordsAfter (read : List Bytes) : List Bytes → List Bytes
  | [] => if read.isEmpty then [] else [read.reverse.flatten]
  | line :: rest =>
      if isSeparatorLine line then
        stripLast Bytes.newline read.reverse.flatten :: recordsAfter [] rest
      else recordsAfter (line :: read) rest

theorem recordsAfter_eq (read lines : List Bytes) :
    recordsAfter read lines =
      let record := read.reverse ++ lines.takeWhile fun line => !isSeparatorLine line
      match lines.dropWhile fun line => !isSeparatorLine line with
      | _ :: rest => stripLast Bytes.newline record.flatten :: recordsAfter [] rest
      | [] => if record.isEmpty then [] else [record.flatten] := by
  induction lines generalizing read with
  | nil => cases read <;> simp [recordsAfter]
  | cons line rest induction =>
      cases separates : isSeparatorLine line with
      | true => simp [recordsAfter, separates]
      | false => simp [recordsAfter, separates, induction]

/-- The records of a list of lines are those that reading one after another
finds. -/
theorem recordsAfter_nil_eq (lines : List Bytes) :
    recordsAfter [] lines =
      match next? lines with
      | none => []
      | some (record, rest) => record :: recordsAfter [] rest := by
  rw [recordsAfter_eq, next?]
  cases lines.dropWhile fun line => !isSeparatorLine line with
  | cons separator rest => simp
  | nil =>
      cases lines.takeWhile fun line => !isSeparatorLine line <;> simp [recordsAfter]

/-- The records of a file with this content. -/
def records (content : Bytes) : List Bytes := recordsAfter [] (Bytes.lines content)

/-- What is appended to a file to store a record. -/
def stored (record : Bytes) : Bytes :=
  record ++ Bytes.newline :: (separator ++ [Bytes.newline])

end RecordFile

end TrafficRelay
