import TrafficRelay.Decimal
import TrafficRelay.Ident
import TrafficRelay.Time

/-!
# Record headers

The first line of a frame is its header.  In the full form it has four fields
(kind, identity, timestamp, latency), in the capture form three (kind,
identity, acknowledgement token); the number of fields alone decides between
the two.  `Header.ofLine` and `Header.line` read and write it.
-/

namespace TrafficRelay

/-- What a record is about. -/
inductive Kind where
  | request
  | response
  | replayReport
  deriving DecidableEq, Repr, Inhabited

namespace Kind

/-- The character that stands for the kind in a header. -/
def code : Kind → UInt8
  | request => 49
  | response => 50
  | replayReport => 51

def ofCode? (byte : UInt8) : Option Kind :=
  if byte = 49 then some request
  else if byte = 50 then some response
  else if byte = 51 then some replayReport
  else none

/-- Responses and replay reports both answer a request. -/
def isAnswer : Kind → Bool
  | request => false
  | response | replayReport => true

end Kind

/-- An acknowledgement token: graphic characters, at least one. -/
structure AckToken where
  bytes : Bytes
  valid : (!bytes.isEmpty && bytes.all Bytes.isGraphic) = true
  deriving DecidableEq, Repr

namespace AckToken

def ofBytes? (bytes : Bytes) : Option AckToken :=
  if valid : (!bytes.isEmpty && bytes.all Bytes.isGraphic) = true then
    some ⟨bytes, valid⟩
  else none

end AckToken

/-- Why a frame has no header. -/
inductive HeaderError where
  | unterminated
  | fieldCount (found : Nat)
  | unknownKind
  | invalidIdent
  | invalidTimestamp
  | invalidLatency
  | invalidAck
  deriving DecidableEq, Repr

namespace HeaderError

def message : HeaderError → String
  | unterminated => "no header terminator"
  | fieldCount found => "expected 3 or 4 header fields, found " ++ toString found
  | unknownKind => "unknown record kind"
  | invalidIdent => "record id is not 24 printable characters"
  | invalidTimestamp => "timestamp is not an integer"
  | invalidLatency => "latency is not an integer"
  | invalidAck => "ack token is empty or not printable"

end HeaderError

/-- The fields that follow kind and identity. -/
inductive HeaderForm where
  | full (timestamp : Timestamp) (latency : Int64)
  | capture (ack : AckToken)
  deriving DecidableEq, Repr

namespace HeaderForm

/-- The fields as they are written. -/
def bytes : HeaderForm → Bytes
  | full timestamp latency =>
      Decimal.ofInt64 timestamp.nanoseconds ++
        Bytes.space :: Decimal.ofInt64 latency
  | capture ack => ack.bytes

end HeaderForm

structure Header where
  kind : Kind
  ident : Ident
  form : HeaderForm
  deriving DecidableEq, Repr

namespace Header

def timestamp? (header : Header) : Option Timestamp :=
  match header.form with
  | .full timestamp _ => some timestamp
  | .capture _ => none

/-- The latency field; in the capture form it counts as not measured. -/
def latency (header : Header) : Int64 :=
  match header.form with
  | .full _ latency => latency
  | .capture _ => Timestamp.latencyUnknown

def ack? (header : Header) : Option AckToken :=
  match header.form with
  | .full _ _ => none
  | .capture ack => some ack

/-- The header line, without its newline. -/
def line (header : Header) : Bytes :=
  header.kind.code :: Bytes.space ::
    (header.ident.bytes ++ Bytes.space :: header.form.bytes)

/-- The header line, with its newline. -/
def encode (header : Header) : Bytes := header.line ++ [Bytes.newline]

def readKind : Bytes → Except HeaderError Kind
  | [code] =>
      match Kind.ofCode? code with
      | some kind => .ok kind
      | none => .error .unknownKind
  | _ => .error .unknownKind

def readIdent (field : Bytes) : Except HeaderError Ident :=
  match Ident.ofBytes? field with
  | some ident => .ok ident
  | none => .error .invalidIdent

def readFull (timestamp latency : Bytes) : Except HeaderError HeaderForm :=
  match Decimal.readInt64? timestamp with
  | none => .error .invalidTimestamp
  | some nanoseconds =>
      match Decimal.readInt64? latency with
      | none => .error .invalidLatency
      | some latency => .ok (.full ⟨nanoseconds⟩ latency)

def readCapture (ack : Bytes) : Except HeaderError HeaderForm :=
  match AckToken.ofBytes? ack with
  | none => .error .invalidAck
  | some ack => .ok (.capture ack)

/-- Fields are read from left to right, except that a fifth one is noticed
before anything else and a missing third one after the identity. -/
def ofFields : List Bytes → Except HeaderError Header
  | [] => .error .unknownKind
  | [kind] => do
      let _ ← readKind kind
      .error .invalidIdent
  | [kind, ident] => do
      let _ ← readKind kind
      let _ ← readIdent ident
      .error (.fieldCount 2)
  | [kind, ident, ack] => do
      let kind ← readKind kind
      let ident ← readIdent ident
      let form ← readCapture ack
      .ok ⟨kind, ident, form⟩
  | [kind, ident, timestamp, latency] => do
      let kind ← readKind kind
      let ident ← readIdent ident
      let form ← readFull timestamp latency
      .ok ⟨kind, ident, form⟩
  | _ => .error (.fieldCount 5)

/-- Read a header line that has lost its newline. -/
def ofLine (line : Bytes) : Except HeaderError Header :=
  ofFields (Bytes.splitOn Bytes.space line)

end Header

end TrafficRelay
