import TrafficRelay.FileTree
import TrafficRelay.RecordFile
import TrafficRelay.Relay.Session

/-!
# Open files

The files that a relay has opened stand at its ends.  An input is read one
record at a time, from the file as it is at that moment: what has been appended
in the meantime is read too, also by an output of the same relay.  An input
that has found nothing to read is over.  An output is written at the end of its
file, whatever stands there.
-/

namespace TrafficRelay

/-- An opened file and how much of it has been read, in bytes. -/
structure FileCursor where
  location : Location
  offset : Nat
  deriving DecidableEq, Repr

namespace FileCursor

/-- A cursor before the first byte. -/
def start (location : Location) : FileCursor := ⟨location, 0⟩

/-- Read the next record, if there is one, and move past it. -/
def read (cursor : FileCursor) (tree : FileTree) : Supply × FileCursor :=
  match tree.contentAt cursor.location with
  | .error cause => (.item (.failure cause), cursor)
  | .ok content =>
      match RecordFile.next? (Bytes.lines (content.drop cursor.offset)) with
      | none => (.ended, cursor)
      | some (record, rest) =>
          (.item (.frame record),
            { cursor with offset := content.length - rest.flatten.length })

/-- How many items there are to read as the file is now. -/
def unreadCount (cursor : FileCursor) (tree : FileTree) : Nat :=
  match tree.contentAt cursor.location with
  | .error _ => 1
  | .ok content => (RecordFile.records (content.drop cursor.offset)).length

end FileCursor

/-- The files at the ends of a relay, in the order of its inputs and outputs,
and the tree that they are in. -/
structure OpenFiles where
  tree : FileTree
  inputs : List FileCursor
  outputs : List Location
  deriving DecidableEq, Repr

namespace OpenFiles

/-- Append a record to the file of an output. -/
def write (files : OpenFiles) (output : Nat) (frame : Bytes) :
    Option IoError × OpenFiles :=
  match files.outputs[output]? with
  | none => (some .notFound, files)
  | some location =>
      match files.tree.appendAt location (RecordFile.stored frame) with
      | .ok tree => (none, { files with tree })
      | .error cause => (some cause, files)

/-- Read from the file of an input. -/
def supply (files : OpenFiles) (input : Nat) : Supply × OpenFiles :=
  match files.inputs[input]? with
  | none => (.ended, files)
  | some cursor =>
      let (supply, cursor) := cursor.read files.tree
      (supply, { files with inputs := files.inputs.set input cursor })

/-- How many items there are to read in all inputs as the files are now. -/
def unreadCount (files : OpenFiles) : Nat :=
  files.inputs.foldr (fun cursor total => cursor.unreadCount files.tree + total) 0

/-- A bound on how often inputs are read, one after another, when this many items
are there to be read and a frame goes to at most this many outputs.  An input
whose file is also an output's meets the records again that were led back to it.
It comes to its end only if they are led elsewhere when it is their turn, which
takes at most as many frames as there are outputs, or are filtered when they come
back; so the items account for one reading each and one more for every output,
and as many again as one round of the outputs.  What was written in the meantime
is there for the inputs that follow. -/
def readings (outputs : Nat) : Nat → Nat → Nat
  | 0, _ => 0
  | inputs + 1, unread =>
      let items := (outputs + 1) * (unread + outputs)
      items + 1 + readings outputs inputs (unread + outputs * items)

/-- Reading from files and appending to files.  A file is always ready. -/
def endpoints : Endpoints OpenFiles where
  ready _ _ := true
  write := write
  supplies _ _ := true
  supply := supply
  reserve files :=
    readings files.outputs.length files.inputs.length files.unreadCount

end OpenFiles

end TrafficRelay
