import TrafficRelay.Proofs.RelaySteps

/-!
# The history of a run

`Relay.history` lists what the readers of a relay took, what was decided about
it, what was offered to the outputs and what the inlets were sent, in the order
in which it happened.  A step changes one reader at most, and `Reader.Change`
tells how together with what the step adds to the history.  So whatever a reader
holds and passes on first in, first out, it does so over a whole run.
-/

namespace TrafficRelay

/-- A frame that a reader has taken, and what was decided about it and when. -/
structure Handling where
  reader : Nat
  instant : Instant
  frame : Bytes
  decision : Decision
  deriving DecidableEq, Repr

inductive Occurrence where
  | handled (handling : Handling)
  | readFailed (reader : Nat) (error : IoError)
  | offered (reader output : Nat) (frame : Bytes) (refusal : Option IoError)
  | queued (input : Nat) (item : Item)
  deriving DecidableEq, Repr

namespace Relay

/-- What happens when a reader has taken an item. -/
def taking (relay : Relay) (index : Nat) : Item → Occurrence
  | .frame frame =>
      .handled ⟨index, relay.clock, frame, (relay.decideFrame frame).1⟩
  | .failure error => .readFailed index error

/-- What an event adds to the history. -/
def occurrences (relay : Relay) : Event → List Occurrence
  | .take index =>
      match relay.readers[index]?.map fun (reader : Reader) => reader.inlet.read with
      | some (.item item _) => [relay.taking index item]
      | _ => []
  | .write index output refusal =>
      match relay.readers[index]?.map Reader.phase with
      | some (.inFlight frame _) => [.offered index output frame refusal]
      | _ => []
  | .send input item => if relay.accepts input then [.queued input item] else []
  | _ => []

/-- What happened in a run, from the first event to the last. -/
def history (relay : Relay) : List Event → List Occurrence
  | [] => []
  | event :: events =>
      relay.occurrences event ++
        match relay.step? event with
        | some next => next.history events
        | none => []

theorem Step.history_cons {relay next : Relay} {event : Event}
    (step : Step relay event next) (events : List Event) :
    relay.history (event :: events) =
      relay.occurrences event ++ next.history events := by
  rw [history, step?_eq_some_iff.mpr step]

/-- What can happen in an event: a reader takes an item, a frame is offered, or an
item is queued. -/
theorem occurrences_cases {relay : Relay} {event : Event} {occurrence : Occurrence}
    (member : occurrence ∈ relay.occurrences event) :
    (∃ index item, event = .take index ∧ occurrence = relay.taking index item) ∨
      (∃ reader output refusal frame, event = .write reader output refusal ∧
        occurrence = .offered reader output frame refusal) ∨
      ∃ input item, event = .send input item ∧ occurrence = .queued input item := by
  cases event with
  | take index =>
      simp only [occurrences] at member
      split at member
      · rename_i item inlet read
        exact Or.inl ⟨index, item, rfl, List.mem_singleton.mp member⟩
      · cases member
  | write reader output refusal =>
      simp only [occurrences] at member
      split at member
      · rename_i frame writes phase
        exact Or.inr (Or.inl
          ⟨reader, output, refusal, frame, rfl, List.mem_singleton.mp member⟩)
      · cases member
  | send input item =>
      simp only [occurrences] at member
      split at member
      · exact Or.inr (Or.inr ⟨input, item, rfl, List.mem_singleton.mp member⟩)
      · cases member
  | _ => cases member

/-- A frame is handled by the reader that takes it, when it takes it. -/
theorem take_of_handled {relay : Relay} {event : Event} {handling : Handling}
    (member : .handled handling ∈ relay.occurrences event) :
    event = .take handling.reader ∧ handling.instant = relay.clock := by
  rcases occurrences_cases member with
    ⟨index, item, rfl, same⟩ | ⟨_, _, _, _, _, same⟩ | ⟨_, _, _, same⟩
  · cases item with
    | frame frame =>
        cases same
        exact ⟨rfl, rfl⟩
    | failure error => cases same
  · cases same
  · cases same

theorem report_eq (relay : Relay) (failures : List Failure) :
    relay.report failures =
      { relay with
        reports := if relay.listening then relay.reports ++ failures
          else relay.reports } := by
  unfold report
  split <;> rfl

@[simp] theorem report_readers (relay : Relay) (failures : List Failure) :
    (relay.report failures).readers = relay.readers := by
  rw [report_eq]

@[simp] theorem decideFrame_readers (relay : Relay) (frame : Bytes) :
    (relay.decideFrame frame).2.readers = relay.readers := by
  simp [decideFrame]

@[simp] theorem setReader_readers (relay : Relay) (index : Nat) (reader : Reader) :
    (relay.setReader index reader).readers = relay.readers.set index reader := rfl

end Relay

/-- How the reader of an input changes in a step, and what happens then. -/
inductive Reader.Change (index : Nat) (reader : Reader) :
    List Occurrence → Reader → Prop where
  | takeFrame {frame : Bytes} {inlet : Inlet} (instant : Instant)
      (decision : Decision) :
      reader.phase = .idle → reader.inlet.read = .item (.frame frame) inlet →
      Change index reader [.handled ⟨index, instant, frame, decision⟩]
        { reader with inlet, phase := Relay.phaseAfter frame decision }
  | takeFailure {error : IoError} {inlet : Inlet} :
      reader.phase = .idle → reader.inlet.read = .item (.failure error) inlet →
      Change index reader [.readFailed index error]
        { reader with inlet, phase := .leaving }
  | write {output : Nat} {refusal : Option IoError} {frame : Bytes}
      {writes : List Write} :
      reader.phase = .inFlight frame writes → ⟨output, .pending⟩ ∈ writes →
      Change index reader [.offered index output frame refusal]
        { reader with
          phase := .inFlight frame (writes.map (Relay.finishWrite output refusal)) }
  | land {frame : Bytes} {writes : List Write} :
      reader.phase = .inFlight frame writes →
      (∀ write ∈ writes, write.state ≠ .pending) →
      Change index reader [] { reader with phase := .idle }
  | leave : reader.phase = .idle → Change index reader [] { reader with phase := .leaving }
  | close :
      reader.phase = .leaving → Change index reader [] { reader with phase := .closed }
  | send {item : Item} :
      reader.accepts = true →
      Change index reader [.queued index item]
        { reader with inlet := reader.inlet.push item }
  | endInput : Change index reader [] { reader with inlet := reader.inlet.close }

namespace Relay

variable {relay next last : Relay} {event : Event} {events : List Event}

/-- A step leaves the readers as they are, or changes one of them. -/
theorem Step.change (step : Step relay event next) :
    relay.occurrences event = [] ∧ next.readers = relay.readers ∨
      ∃ index reader changed,
        relay.readers[index]? = some reader ∧
        Reader.Change index reader (relay.occurrences event) changed ∧
        next.readers = relay.readers.set index changed := by
  cases step with
  | @takeFrame index reader frame inlet found idle lowered read =>
      have happened : relay.occurrences (.take index) =
          [.handled ⟨index, relay.clock, frame, (relay.decideFrame frame).1⟩] := by
        simp [occurrences, found, read, taking]
      rw [happened]
      exact Or.inr ⟨_, _, _, found, .takeFrame _ _ idle read, by simp⟩
  | @takeFailure index reader error inlet found idle lowered read =>
      have happened : relay.occurrences (.take index) = [.readFailed index error] := by
        simp [occurrences, found, read, taking]
      rw [happened]
      exact Or.inr ⟨_, _, _, found, .takeFailure idle read, by simp⟩
  | @write index output refusal reader frame writes found phase pending =>
      have happened : relay.occurrences (.write index output refusal) =
          [.offered index output frame refusal] := by
        simp [occurrences, found, phase]
      rw [happened]
      exact Or.inr ⟨_, _, _, found, .write phase pending, rfl⟩
  | land found phase finished =>
      exact Or.inr ⟨_, _, _, found, .land phase finished, by simp⟩
  | leave found idle due =>
      exact Or.inr ⟨_, _, _, found, .leave idle, by simp⟩
  | close found leaving =>
      exact Or.inr ⟨_, _, _, found, .close leaving, by simp⟩
  | drain running raised => exact Or.inl ⟨rfl, rfl⟩
  | stop closed due => exact Or.inl ⟨rfl, rfl⟩
  | @send input item reader found accepts =>
      have happened : relay.occurrences (.send input item) = [.queued input item] := by
        simp [occurrences, Relay.accepts, found, accepts]
      rw [happened]
      exact Or.inr ⟨_, _, _, found, .send accepts, rfl⟩
  | sendLost refused => exact Or.inl ⟨by simp [occurrences, refused], rfl⟩
  | endInput found => exact Or.inr ⟨_, _, _, found, .endInput, by simp⟩
  | endNothing missing => exact Or.inl ⟨rfl, rfl⟩
  | setSignal heard => exact Or.inl ⟨rfl, rfl⟩
  | setSignalLost unheard => exact Or.inl ⟨rfl, rfl⟩
  | dropSignal => exact Or.inl ⟨rfl, rfl⟩
  | dropReports => exact Or.inl ⟨rfl, rfl⟩
  | advance => exact Or.inl ⟨rfl, rfl⟩

/-- What a reader holds, by a given account; nothing where there is no reader. -/
def held {α : Type} (account : Reader → List α) (relay : Relay) (index : Nat) : List α :=
  (relay.readers[index]?.map account).getD []

section

variable {α : Type} {account : Reader → List α} {enters leaves : Occurrence → Option α}
  {index : Nat}

/-- The reader of an input takes in and passes on in one order, and no other
reader meddles. -/
structure Carries (index : Nat) (account : Reader → List α)
    (enters leaves : Occurrence → Option α) : Prop where
  own {reader changed : Reader} {occurred : List Occurrence} :
    Reader.Change index reader occurred changed →
    account reader ++ occurred.filterMap enters =
      occurred.filterMap leaves ++ account changed
  other {other : Nat} {reader changed : Reader} {occurred : List Occurrence} :
    Reader.Change other reader occurred changed → other ≠ index →
    occurred.filterMap enters = [] ∧ occurred.filterMap leaves = []

theorem Step.held (step : Step relay event next)
    (carries : Carries index account enters leaves) :
    relay.held account index ++ (relay.occurrences event).filterMap enters =
      (relay.occurrences event).filterMap leaves ++ next.held account index := by
  rcases step.change with ⟨nothing, same⟩ | ⟨changing, reader, changed, found, change, set⟩
  · simp [Relay.held, nothing, same]
  · by_cases here : changing = index
    · subst changing
      have inRange := (List.getElem?_eq_some_iff.mp found).1
      have before : relay.held account index = account reader := by
        simp [Relay.held, found]
      have after : next.held account index = account changed := by
        simp [Relay.held, set, inRange]
      rw [before, after]
      exact carries.own change
    · obtain ⟨noneEnter, noneLeave⟩ := carries.other change here
      have same : next.held account index = relay.held account index := by
        simp [Relay.held, set, here]
      rw [noneEnter, noneLeave, same, List.append_nil, List.nil_append]

theorem Steps.held (steps : Steps relay events last)
    (carries : Carries index account enters leaves) :
    relay.held account index ++ (relay.history events).filterMap enters =
      (relay.history events).filterMap leaves ++ last.held account index := by
  induction steps with
  | done relay => simp [history]
  | @step relay next last event events step steps induction =>
      rw [step.history_cons, List.filterMap_append, List.filterMap_append,
        ← List.append_assoc, step.held carries, List.append_assoc, induction,
        List.append_assoc]

end

end Relay

/-- The reader that an occurrence is about, or the one whose inlet it is. -/
def Occurrence.reader : Occurrence → Nat
  | .handled handling => handling.reader
  | .readFailed reader _ => reader
  | .offered reader _ _ _ => reader
  | .queued input _ => input

theorem Reader.Change.reader_eq {index : Nat} {reader changed : Reader}
    {occurred : List Occurrence} (change : Reader.Change index reader occurred changed)
    {occurrence : Occurrence} (member : occurrence ∈ occurred) :
    occurrence.reader = index := by
  cases change with
  | takeFrame instant decision idle read =>
      obtain rfl := List.mem_singleton.mp member
      rfl
  | takeFailure idle read =>
      obtain rfl := List.mem_singleton.mp member
      rfl
  | write phase pending =>
      obtain rfl := List.mem_singleton.mp member
      rfl
  | send accepts =>
      obtain rfl := List.mem_singleton.mp member
      rfl
  | _ => cases member

namespace Relay

variable {relay next last : Relay} {event : Event} {events : List Event}

/-- What happens, happens to a reader of the relay, and none comes or goes. -/
theorem Step.reader_lt (step : Step relay event next) :
    (∀ occurrence ∈ relay.occurrences event, occurrence.reader < relay.readers.length) ∧
      next.readers.length = relay.readers.length := by
  rcases step.change with ⟨nothing, same⟩ | ⟨index, reader, changed, found, change, set⟩
  · rw [nothing, same]
    exact ⟨nofun, rfl⟩
  · rw [set, List.length_set]
    refine ⟨?_, rfl⟩
    intro occurrence member
    rw [change.reader_eq member]
    exact (List.getElem?_eq_some_iff.mp found).1

theorem Steps.reader_lt (steps : Steps relay events last) :
    ∀ occurrence ∈ relay.history events, occurrence.reader < relay.readers.length := by
  induction steps with
  | done relay => exact nofun
  | step step steps induction =>
      intro occurrence member
      rw [step.history_cons] at member
      obtain ⟨within, same⟩ := step.reader_lt
      rcases List.mem_append.mp member with now | later
      · exact within occurrence now
      · rw [← same]
        exact induction occurrence later

end Relay

/-! ## Frames for examples -/

namespace Sample

/-- A record of this kind whose identifier is one letter throughout, with a timestamp and a
latency of zero, `+0` and `-0`. -/
def frame (kind letter : UInt8) (body : Bytes) : Bytes :=
  [kind, 32] ++ List.replicate 24 letter ++ [32, 43, 48, 32, 45, 48, 10] ++ body

/-- A request with the method `GET`. -/
def get (letter : UInt8) : Bytes := frame 49 letter [71, 69, 84, 32]

/-- A request with the method `PUT`. -/
def put (letter : UInt8) : Bytes := frame 49 letter [80, 85, 84, 32]

/-- Of these, the filter allows only the first. -/
def filter : Filter := ⟨⟨[[71, 69, 84]]⟩, .empty 5 1 0⟩

end Sample

end TrafficRelay
