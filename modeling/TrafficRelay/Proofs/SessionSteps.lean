import TrafficRelay.Relay.Session
import TrafficRelay.Proofs.SequentialDecisions

/-!
# Steps of a session

A session may take its steps in any order: `Session.Step` lets every event of
the relay happen when it can, and has the ends answer as they do at that moment.
The moves that a session makes left alone are steps of this kind, so whatever
holds of all runs of `Session.Steps` holds of a session that comes to rest.
-/

namespace TrafficRelay

namespace Event

/-- The event comes from what stands at an input. -/
def feeds : Event → Bool
  | .send _ _ | .endInput _ => true
  | _ => false

/-- What stands at an end of the relay takes part in the event. -/
def atEnd : Event → Bool
  | .write _ _ _ => true
  | event => event.feeds

/-- Neither the relay nor its ends bring the event about. -/
def fromOutside : Event → Bool
  | .setSignal _ | .dropSignal | .dropReports | .advance _ => true
  | _ => false

/-- The event raises the signal. -/
def raisesSignal : Event → Bool
  | .setSignal value => value
  | .dropSignal => true
  | _ => false

theorem feeds_of_atEnd {event : Event} (own : event.atEnd = false) :
    event.feeds = false := by
  cases event with
  | write index output refusal => rfl
  | _ => exact own

theorem raisesSignal_of_fromOutside {event : Event} (inner : event.fromOutside = false) :
    event.raisesSignal = false := by
  cases event with
  | setSignal value => cases inner
  | dropSignal => cases inner
  | _ => rfl

end Event

namespace Session

variable {σ : Type} {endpoints : Endpoints σ}

inductive Step (endpoints : Endpoints σ) (session : Session σ) :
    Event → Session σ → Prop where
  | own {event : Event} {relay : Relay} :
      event.atEnd = false → session.relay.Step event relay →
      Step endpoints session event
        ⟨relay, session.outside, arrivalsAfter session.arrivals event⟩
  | write {index output : Nat} {refusal : Option IoError} {outside : σ}
      {reader : Reader} {frame : Bytes} {writes : List Write} {relay : Relay} :
      session.relay.readers[index]? = some reader →
      reader.phase = .inFlight frame writes →
      endpoints.ready session.outside output = true →
      endpoints.write session.outside output frame = (refusal, outside) →
      session.relay.Step (.write index output refusal) relay →
      Step endpoints session (.write index output refusal)
        ⟨relay, outside, session.arrivals⟩
  | supply {input : Nat} {supply : Supply} {outside : σ} {reader : Reader}
      {relay : Relay} :
      session.relay.readers[input]? = some reader →
      reader.phase = .idle → reader.inlet.read = .pending →
      session.relay.signal.isRaised = false →
      endpoints.supplies session.outside input = true →
      endpoints.supply session.outside input = (supply, outside) →
      session.relay.Step (supply.event input) relay →
      Step endpoints session (supply.event input) ⟨relay, outside, session.arrivals⟩

/-- A session goes through events one after another. -/
inductive Steps (endpoints : Endpoints σ) :
    Session σ → List Event → Session σ → Prop where
  | done (session : Session σ) : Steps endpoints session [] session
  | step {session next last : Session σ} {event : Event} {events : List Event} :
      Step endpoints session event next → Steps endpoints next events last →
      Steps endpoints session (event :: events) last

section

variable {session next last : Session σ} {event : Event} {events : List Event}

theorem Step.relay (step : Step endpoints session event next) :
    session.relay.Step event next.relay := by
  cases step with
  | own inner step => exact step
  | write found phase ready answer step => exact step
  | supply found idle pending lowered supplies answer step => exact step

theorem Steps.relay (steps : Steps endpoints session events last) :
    session.relay.Steps events last.relay := by
  induction steps with
  | done session => exact .done _
  | step step steps induction => exact .step step.relay induction

theorem Steps.append {later : List Event} {middle : Session σ}
    (first : Steps endpoints session events middle)
    (second : Steps endpoints middle later last) :
    Steps endpoints session (events ++ later) last := by
  induction first with
  | done session => exact second
  | step step steps induction => exact .step step (induction second)

/-- What every step of a certain kind preserves, a run of such steps does, with
what has happened until then. -/
theorem Steps.preserves (kind : Event → Prop)
    (invariant : List Occurrence → Session σ → Prop)
    (kept : ∀ past session event next, kind event → invariant past session →
      Step endpoints session event next →
      invariant (past ++ session.relay.occurrences event) next)
    (steps : Steps endpoints session events last)
    (kinds : ∀ event ∈ events, kind event) {past : List Occurrence}
    (initially : invariant past session) :
    invariant (past ++ session.relay.history events) last := by
  induction steps generalizing past with
  | done session =>
      rw [Relay.history, List.append_nil]
      exact initially
  | @step session next last event events step steps induction =>
      rw [step.relay.history_cons, ← List.append_assoc]
      apply induction
      · intro later member
        exact kinds later (List.mem_cons_of_mem event member)
      · exact kept _ _ _ _ (kinds event List.mem_cons_self) initially step

end

section Moves

variable {session : Session σ}

/-- What a reader does next by itself, it can do. -/
theorem step_of_nextEvent? {relay : Relay} {index : Nat} {reader : Reader}
    {event : Event} (found : relay.readers[index]? = some reader)
    (due : reader.nextEvent? relay.signal.isRaised index = some event) :
    event.atEnd = false ∧ event.fromOutside = false ∧
      ∃ next, relay.Step event next := by
  unfold Reader.nextEvent? at due
  split at due
  · rename_i idle
    split at due
    · rename_i raised
      cases due
      exact ⟨rfl, rfl, _, .leave found idle (Or.inl raised)⟩
    · rename_i lowered
      have lowered := Bool.eq_false_iff.mpr lowered
      split at due
      · rename_i item inlet read
        cases due
        cases item with
        | frame frame => exact ⟨rfl, rfl, _, .takeFrame found idle lowered read⟩
        | failure error => exact ⟨rfl, rfl, _, .takeFailure found idle lowered read⟩
      · rename_i ended
        cases due
        exact ⟨rfl, rfl, _, .leave found idle (Or.inr ended)⟩
      · cases due
  · rename_i frame writes phase
    split at due
    · cases due
    · rename_i finished
      cases due
      refine ⟨rfl, rfl, _, .land found phase ?_⟩
      intro write member pending
      exact finished (List.any_eq_true.mpr ⟨write, member, decide_eq_true pending⟩)
  · rename_i leaving
    cases due
    exact ⟨rfl, rfl, _, .close found leaving⟩
  · cases due

theorem step_of_supervisorEvent? {relay : Relay} {event : Event}
    (due : relay.supervisorEvent? = some event) :
    event.atEnd = false ∧ event.fromOutside = false ∧
      ∃ next, relay.Step event next := by
  unfold Relay.supervisorEvent? at due
  split at due
  · cases due
  · rename_i draining
    split at due
    · rename_i closed
      cases due
      exact ⟨rfl, rfl, _, .stop closed (Or.inl draining)⟩
    · cases due
  · rename_i running
    split at due
    · rename_i raised
      split at due
      · rename_i closed
        cases due
        exact ⟨rfl, rfl, _, .stop closed (Or.inr ⟨running, raised⟩)⟩
      · cases due
        exact ⟨rfl, rfl, _, .drain running raised⟩
    · cases due

theorem perform?_own {event : Event} (inner : event.atEnd = false)
    {relay : Relay} (step : session.relay.Step event relay) :
    ∃ next, session.perform? endpoints (.own event) = some next ∧
      Step endpoints session event next := by
  refine ⟨_, ?_, .own inner step⟩
  simp [perform?, occur?, Relay.step?_eq_some_iff.mpr step]

theorem perform?_write {index output : Nat} {reader : Reader} {frame : Bytes}
    {writes : List Write} (found : session.relay.readers[index]? = some reader)
    (phase : reader.phase = .inFlight frame writes)
    (pending : ⟨output, .pending⟩ ∈ writes)
    (ready : endpoints.ready session.outside output = true) :
    ∃ refusal next, session.perform? endpoints (.write index output) = some next ∧
      Step endpoints session (.write index output refusal) next := by
  have step : session.relay.Step
      (.write index output (endpoints.write session.outside output frame).1) _ :=
    .write found phase pending
  refine ⟨_, _, ?_, .write found phase ready rfl step⟩
  have stepped := Relay.step?_eq_some_iff.mpr step
  simp [perform?, occur?, found, Reader.pendingWrites, phase, stepped, arrivalsAfter]

theorem perform?_supply {input : Nat} {reader : Reader}
    (found : session.relay.readers[input]? = some reader)
    (idle : reader.phase = .idle) (pending : reader.inlet.read = .pending)
    (lowered : session.relay.signal.isRaised = false)
    (supplies : endpoints.supplies session.outside input = true) :
    ∃ event next, event.fromOutside = false ∧
      session.perform? endpoints (.supply input) = some next ∧
      Step endpoints session event next := by
  cases answer : endpoints.supply session.outside input with
  | mk supply outside =>
      cases supply with
      | item item =>
          have step := Relay.step_send session.relay input item
          refine ⟨_, _, rfl, ?_,
            .supply found idle pending lowered supplies answer step⟩
          simp [perform?, occur?, answer, Supply.event, Relay.step?, arrivalsAfter]
      | ended =>
          have step := Relay.step_endInput session.relay input
          refine ⟨_, _, rfl, ?_,
            .supply found idle pending lowered supplies answer step⟩
          simp [perform?, occur?, answer, Supply.event, Relay.step?, arrivalsAfter]

/-- The next move of a session can be made, and it is a step. -/
theorem step_of_nextMove? {move : Move}
    (due : session.nextMove? endpoints = some move) :
    ∃ event next, event.fromOutside = false ∧
      session.perform? endpoints move = some next ∧
      Step endpoints session event next := by
  rcases Option.or_eq_some_iff.mp due with write | ⟨-, others⟩
  · obtain ⟨index, -, found⟩ := List.exists_of_findSome?_eq_some write
    obtain ⟨reader, present, found⟩ := Option.bind_eq_some_iff.mp found
    obtain ⟨output, first, same⟩ := Option.bind_eq_some_iff.mp found
    cases same
    have ready := List.find?_some first
    have member := List.mem_of_find?_eq_some first
    cases phase : reader.phase with
    | inFlight frame writes =>
        simp only [Reader.pendingWrites, phase, List.mem_map, List.mem_filter,
          decide_eq_true_eq] at member
        obtain ⟨⟨target, state⟩, ⟨listed, pending⟩, rfl⟩ := member
        simp only at pending
        subst state
        obtain ⟨refusal, next, performed, step⟩ :=
          perform?_write present phase listed ready
        exact ⟨_, next, rfl, performed, step⟩
    | idle => simp [Reader.pendingWrites, phase] at member
    | leaving => simp [Reader.pendingWrites, phase] at member
    | closed => simp [Reader.pendingWrites, phase] at member
  · rcases Option.or_eq_some_iff.mp others with own | ⟨-, supervised⟩
    · obtain ⟨⟨reader, index⟩, member, found⟩ := List.exists_of_findSome?_eq_some own
      have present : session.relay.readers[index]? = some reader :=
        List.mk_mem_zipIdx_iff_getElem?.mp member
      simp only [readerMove?] at found
      split at found
      · rename_i event next
        cases found
        obtain ⟨inner, fromWithin, relay, step⟩ := step_of_nextEvent? present next
        obtain ⟨after, performed, step⟩ := perform?_own inner step
        exact ⟨_, after, fromWithin, performed, step⟩
      · rename_i nothing
        split at found
        · rename_i asks
          cases found
          obtain ⟨idle, supplies⟩ := asks
          simp only [Reader.nextEvent?, idle] at nothing
          split at nothing
          · cases nothing
          · rename_i lowered
            split at nothing
            · cases nothing
            · cases nothing
            · rename_i pending
              exact perform?_supply present idle pending
                (Bool.eq_false_iff.mpr lowered) supplies
        · cases found
    · obtain ⟨event, next, same⟩ := Option.map_eq_some_iff.mp supervised
      cases same
      obtain ⟨inner, fromWithin, relay, step⟩ := step_of_supervisorEvent? next
      obtain ⟨after, performed, step⟩ := perform?_own inner step
      exact ⟨_, after, fromWithin, performed, step⟩

/-- A session that makes moves goes through steps, none of them from outside. -/
theorem steps_settle (endpoints : Endpoints σ) (moves : Nat) (session : Session σ) :
    ∃ events, (∀ event ∈ events, event.fromOutside = false) ∧
      Steps endpoints session events (session.settle endpoints moves) := by
  induction moves generalizing session with
  | zero => exact ⟨[], by simp, .done session⟩
  | succ moves induction =>
      rw [settle]
      cases due : session.nextMove? endpoints with
      | none => exact ⟨[], by simp, .done session⟩
      | some move =>
          obtain ⟨event, next, inner, performed, step⟩ := step_of_nextMove? due
          obtain ⟨events, others, steps⟩ := induction next
          rw [Option.bind_some, performed]
          refine ⟨event :: events, ?_, .step step steps⟩
          intro other member
          rcases List.mem_cons.mp member with rfl | later
          · exact inner
          · exact others other later

theorem steps_runToIdle (endpoints : Endpoints σ) (session : Session σ) :
    ∃ events, (∀ event ∈ events, event.fromOutside = false) ∧
      Steps endpoints session events (session.runToIdle endpoints) :=
  steps_settle endpoints (session.work endpoints) session

/-- Where every step lowers a measure, a session is at rest after as many moves. -/
theorem settle_rests (invariant : Session σ → Prop) (measure : Session σ → Nat)
    (lowers : ∀ session event next, event.fromOutside = false → invariant session →
      Step endpoints session event next →
      invariant next ∧ measure next < measure session)
    {moves : Nat} {session : Session σ} (initially : invariant session)
    (enough : measure session ≤ moves) :
    invariant (session.settle endpoints moves) ∧
      (session.settle endpoints moves).nextMove? endpoints = none := by
  induction moves generalizing session with
  | zero =>
      rw [settle]
      cases due : session.nextMove? endpoints with
      | none => exact ⟨initially, rfl⟩
      | some move =>
          obtain ⟨event, next, inner, -, step⟩ := step_of_nextMove? due
          have lower := (lowers _ _ _ inner initially step).2
          omega
  | succ moves induction =>
      rw [settle]
      cases due : session.nextMove? endpoints with
      | none => exact ⟨initially, due⟩
      | some move =>
          obtain ⟨event, next, inner, performed, step⟩ := step_of_nextMove? due
          obtain ⟨kept, lower⟩ := lowers _ _ _ inner initially step
          rw [Option.bind_some, performed]
          exact induction kept (by omega)

/-- What happens from outside is a step, if it can happen at all. -/
theorem steps_apply (endpoints : Endpoints σ) (session : Session σ) (event : Event)
    (own : event.atEnd = false) :
    ∃ events, Steps endpoints session events (session.apply event) := by
  unfold apply occur?
  cases stepped : session.relay.step? event with
  | none => exact ⟨[], .done session⟩
  | some relay =>
      have step := Relay.step?_eq_some_iff.mp stepped
      exact ⟨[event], .step (.own own step) (.done _)⟩

end Moves

end Session

end TrafficRelay
