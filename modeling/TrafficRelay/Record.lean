import TrafficRelay.Header

/-!
# Records and their frames

A frame is a header line followed by the body.  The body starts after the
first newline and is never looked at when a frame is decoded, so it may hold
anything, further newlines included.
-/

namespace TrafficRelay

/-- A header together with the bytes it describes. -/
structure Record where
  header : Header
  body : Bytes
  deriving DecidableEq, Repr

namespace Record

/-- The frame of a record. -/
def encode (record : Record) : Bytes := record.header.encode ++ record.body

/-- Read the first line of a frame as its header and the rest as its body. -/
def decode (frame : Bytes) : Except HeaderError Record :=
  match Bytes.cutLine? frame with
  | none => .error .unterminated
  | some (line, body) => do
      let header ← Header.ofLine line
      .ok ⟨header, body⟩

/-- Where the body of a frame starts: one past the first newline. -/
def bodyOffset (frame : Bytes) : Nat :=
  (frame.takeWhile (· ≠ Bytes.newline)).length + 1

def session (record : Record) : SessionKey := record.header.ident.session

/-- A plain request made at a given time. -/
def sample (ident : Ident) (timestamp : Timestamp) : Record :=
  ⟨⟨.request, ident, .full timestamp Timestamp.latencyUnknown⟩,
    Bytes.ofString "GET / HTTP/1.1\r\n\r\n"⟩

end Record

end TrafficRelay
