import TrafficRelay.Relay.Step

/-!
# Sessions

A session is a relay together with what stands at its two ends.  Left alone,
it goes on until nothing can happen: pending writes are made in the order in
which their frames were taken, as far as their outputs are ready; then the
first reader that can do anything does, which may be to ask for its next item;
then the supervisor.  Every move is one event of the relay, so a session is one
of the runs that `Relay.run?` describes.
-/

namespace TrafficRelay

/-- What a supplier answers when it is asked for an item. -/
inductive Supply where
  | item (item : Item)
  | ended
  deriving DecidableEq, Repr

/-- What happens at an input when its supplier has answered. -/
def Supply.event (input : Nat) : Supply → Event
  | .item next => .send input next
  | .ended => .endInput input

/-- What stands at the ends of a relay, in a state of type `σ`.  A write is
offered to an output only while the output is ready.  An input may have a
supplier, which is asked when the reader is idle and its inlet is empty; the
other inputs are fed from outside.  The reserve bounds how often suppliers have
yet to answer in a run that comes to rest. -/
structure Endpoints (σ : Type) where
  ready : σ → Nat → Bool
  write : σ → Nat → Bytes → Option IoError × σ
  supplies : σ → Nat → Bool
  supply : σ → Nat → Supply × σ
  reserve : σ → Nat

/-- A relay, the state of its ends, and its readers in the order in which they
last took an item. -/
structure Session (σ : Type) where
  relay : Relay
  outside : σ
  arrivals : List Nat

/-- What a session does next by itself. -/
inductive Move where
  | write (reader output : Nat)
  | supply (reader : Nat)
  | own (event : Event)
  deriving DecidableEq, Repr

namespace Reader

/-- The frame in flight and the outputs that have yet to be written. -/
def pendingWrites (reader : Reader) : Bytes × List Nat :=
  match reader.phase with
  | .inFlight frame writes =>
      (frame, (writes.filter fun write => write.state = .pending).map (·.output))
  | _ => ([], [])

/-- What a reader does next, other than writing and asking for an item. -/
def nextEvent? (reader : Reader) (raised : Bool) (index : Nat) : Option Event :=
  match reader.phase with
  | .idle =>
      if raised then some (.leave index)
      else match reader.inlet.read with
        | .item _ _ => some (.take index)
        | .ended => some (.leave index)
        | .pending => none
  | .inFlight _ writes =>
      if writes.any fun write => write.state = .pending then none else some (.land index)
  | .leaving => some (.close index)
  | .closed => none

/-- A bound on the moves that a reader makes by itself in a relay with this many
outputs.  Every such move lowers it. -/
def work (reader : Reader) (outputs : Nat) : Nat :=
  let queued := reader.inlet.queue.length * (outputs + 3)
  match reader.phase with
  | .idle => 2 + queued
  | .inFlight _ writes =>
      3 + (writes.countP fun write => write.state = .pending) + queued
  | .leaving => 1
  | .closed => 0

end Reader

namespace Lifecycle

/-- A bound on the moves of the supervisor. -/
def work : Lifecycle → Nat
  | running => 2
  | draining => 1
  | stopped => 0

end Lifecycle

namespace Relay

/-- What the supervisor does next. -/
def supervisorEvent? (relay : Relay) : Option Event :=
  match relay.lifecycle with
  | .stopped => none
  | .draining => if relay.allClosed then some .stop else none
  | .running =>
      if relay.signal.isRaised then
        if relay.allClosed then some .stop else some .drain
      else none

/-- A bound on the moves that a relay makes by itself. -/
def work (relay : Relay) : Nat :=
  relay.readers.foldr (fun reader total => reader.work relay.outputs.length + total)
    relay.lifecycle.work

end Relay

namespace Session

variable {σ : Type}

def start (relay : Relay) (outside : σ) : Session σ := ⟨relay, outside, []⟩

/-- The first pending write whose output is ready. -/
def nextWrite? (endpoints : Endpoints σ) (session : Session σ) : Option Move :=
  session.arrivals.findSome? fun index => do
    let reader ← session.relay.readers[index]?
    let output ← reader.pendingWrites.2.find? (endpoints.ready session.outside)
    return .write index output

/-- What a reader does next, other than writing.  An idle reader that can do
nothing else asks its supplier. -/
def readerMove? (endpoints : Endpoints σ) (session : Session σ) (reader : Reader)
    (index : Nat) : Option Move :=
  match reader.nextEvent? session.relay.signal.isRaised index with
  | some event => some (.own event)
  | none =>
      if reader.phase = .idle ∧ endpoints.supplies session.outside index = true then
        some (.supply index)
      else none

/-- The first move of a reader other than a write. -/
def nextReaderMove? (endpoints : Endpoints σ) (session : Session σ) : Option Move :=
  session.relay.readers.zipIdx.findSome? fun (reader, index) =>
    session.readerMove? endpoints reader index

/-- The next move, unless the session is idle. -/
def nextMove? (endpoints : Endpoints σ) (session : Session σ) : Option Move :=
  (session.nextWrite? endpoints).or
    ((session.nextReaderMove? endpoints).or
      (session.relay.supervisorEvent?.map Move.own))

/-- The readers in the order of their last take, after an event. -/
def arrivalsAfter (arrivals : List Nat) : Event → List Nat
  | .take index => arrivals.filter (· ≠ index) ++ [index]
  | _ => arrivals

/-- Let an event happen. -/
def occur? (session : Session σ) (event : Event) : Option (Session σ) :=
  (session.relay.step? event).map fun relay =>
    { session with relay, arrivals := arrivalsAfter session.arrivals event }

/-- Make a move: a write is offered to its output first, and a supplier is
asked first. -/
def perform? (endpoints : Endpoints σ) (session : Session σ) : Move → Option (Session σ)
  | .own event => session.occur? event
  | .supply index =>
      let (supply, outside) := endpoints.supply session.outside index
      { session with outside }.occur? (supply.event index)
  | .write index output => do
      let reader ← session.relay.readers[index]?
      let (refusal, outside) :=
        endpoints.write session.outside output reader.pendingWrites.1
      { session with outside }.occur? (.write index output refusal)

/-- Make moves until there is none left, at most this many. -/
def settle (endpoints : Endpoints σ) : Nat → Session σ → Session σ
  | 0, session => session
  | moves + 1, session =>
      match (session.nextMove? endpoints).bind (session.perform? endpoints) with
      | some session => settle endpoints moves session
      | none => session

/-- A bound on the moves that a session makes by itself.  An answer of a
supplier is a move, and an item in the inlet adds to the work of its reader. -/
def work (endpoints : Endpoints σ) (session : Session σ) : Nat :=
  session.relay.work +
    endpoints.reserve session.outside * (session.relay.outputs.length + 4)

/-- Make moves until there is none left. -/
def runToIdle (endpoints : Endpoints σ) (session : Session σ) : Session σ :=
  session.settle endpoints (session.work endpoints)

/-- Let something happen from outside. -/
def apply (session : Session σ) (event : Event) : Session σ :=
  (session.occur? event).getD session

end Session

end TrafficRelay
