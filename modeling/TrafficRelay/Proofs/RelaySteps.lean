import TrafficRelay.Relay.Step

/-!
# What each event does

`Relay.Step` lists the changes that an event can make, each under the condition
for which it happens.  It describes the same transitions as `Relay.step?`, and
`Relay.Steps` the same runs as `Relay.run?`.
-/

namespace TrafficRelay

namespace Relay

inductive Step (relay : Relay) : Event → Relay → Prop where
  | takeFrame {index : Nat} {reader : Reader} {frame : Bytes} {inlet : Inlet} :
      relay.readers[index]? = some reader → reader.phase = .idle →
      relay.signal.isRaised = false →
      reader.inlet.read = .item (.frame frame) inlet →
      Step relay (.take index)
        ((relay.decideFrame frame).2.setReader index
          { reader with
            inlet, phase := phaseAfter frame (relay.decideFrame frame).1 })
  | takeFailure {index : Nat} {reader : Reader} {error : IoError} {inlet : Inlet} :
      relay.readers[index]? = some reader → reader.phase = .idle →
      relay.signal.isRaised = false →
      reader.inlet.read = .item (.failure error) inlet →
      Step relay (.take index)
        (({ relay with tally := relay.tally.addReadFailures 1 }.report
          [.inputRead reader.name error]).setReader index
            { reader with inlet, phase := .leaving })
  | write {index output : Nat} {refusal : Option IoError} {reader : Reader}
      {frame : Bytes} {writes : List Write} :
      relay.readers[index]? = some reader → reader.phase = .inFlight frame writes →
      ⟨output, .pending⟩ ∈ writes →
      Step relay (.write index output refusal)
        (relay.setReader index
          { reader with
            phase := .inFlight frame (writes.map (finishWrite output refusal)) })
  | land {index : Nat} {reader : Reader} {frame : Bytes} {writes : List Write} :
      relay.readers[index]? = some reader → reader.phase = .inFlight frame writes →
      (∀ write ∈ writes, write.state ≠ .pending) →
      Step relay (.land index)
        (({ relay with
            tally := writes.foldl
              (fun tally (write : Write) => tally.addWrite write.state) relay.tally
          }.report (writes.filterMap relay.writeFailure?)).setReader index
            { reader with phase := .idle })
  | leave {index : Nat} {reader : Reader} :
      relay.readers[index]? = some reader → reader.phase = .idle →
      relay.signal.isRaised = true ∨ reader.inlet.read = .ended →
      Step relay (.leave index) (relay.setReader index { reader with phase := .leaving })
  | close {index : Nat} {reader : Reader} :
      relay.readers[index]? = some reader → reader.phase = .leaving →
      Step relay (.close index)
        ({ relay with tally := relay.tally.addClosed 1 }.setReader index
          { reader with phase := .closed })
  | drain :
      relay.lifecycle = .running → relay.signal.isRaised = true →
      Step relay .drain { relay with lifecycle := .draining }
  | stop :
      relay.allClosed = true →
      relay.lifecycle = .draining ∨
        relay.lifecycle = .running ∧ relay.signal.isRaised = true →
      Step relay .stop { relay with lifecycle := .stopped }
  | send {input : Nat} {item : Item} {reader : Reader} :
      relay.readers[input]? = some reader → reader.accepts = true →
      Step relay (.send input item)
        (relay.setReader input { reader with inlet := reader.inlet.push item })
  | sendLost {input : Nat} {item : Item} :
      relay.accepts input = false → Step relay (.send input item) relay
  | endInput {input : Nat} {reader : Reader} :
      relay.readers[input]? = some reader →
      Step relay (.endInput input)
        (relay.setReader input { reader with inlet := reader.inlet.close })
  | endNothing {input : Nat} :
      relay.readers[input]? = none → Step relay (.endInput input) relay
  | setSignal {value : Bool} :
      relay.hearsSignal = true →
      Step relay (.setSignal value)
        { relay with signal := { relay.signal with set := value } }
  | setSignalLost {value : Bool} :
      relay.hearsSignal = false → Step relay (.setSignal value) relay
  | dropSignal :
      Step relay .dropSignal { relay with signal := { relay.signal with held := false } }
  | dropReports : Step relay .dropReports { relay with listening := false }
  | advance {elapsed : Duration} :
      Step relay (.advance elapsed) { relay with clock := relay.clock + elapsed }

variable {relay next last : Relay}

theorem step_of_take? {index : Nat} (taken : relay.take? index = some next) :
    Step relay (.take index) next := by
  obtain ⟨reader, found, result⟩ := Option.bind_eq_some_iff.mp taken
  split at result
  · cases result
  · rename_i free
    obtain ⟨idle, lowered⟩ := not_or.mp free
    have idle := Decidable.not_not.mp idle
    have lowered := Bool.eq_false_iff.mpr lowered
    split at result
    · rename_i frame inlet read
      cases result
      exact .takeFrame found idle lowered read
    · rename_i error inlet read
      cases result
      exact .takeFailure found idle lowered read
    · cases result
    · cases result

theorem step_of_write? {index output : Nat} {refusal : Option IoError}
    (written : relay.write? index output refusal = some next) :
    Step relay (.write index output refusal) next := by
  obtain ⟨reader, found, result⟩ := Option.bind_eq_some_iff.mp written
  split at result
  · rename_i frame writes phase
    split at result
    · rename_i pending
      cases result
      exact .write found phase (List.contains_iff_mem.mp pending)
    · cases result
  · cases result

theorem step_of_land? {index : Nat} (landed : relay.land? index = some next) :
    Step relay (.land index) next := by
  obtain ⟨reader, found, result⟩ := Option.bind_eq_some_iff.mp landed
  split at result
  · rename_i frame writes phase
    split at result
    · cases result
    · rename_i finished
      cases result
      refine .land found phase ?_
      intro write member pending
      exact finished (List.any_eq_true.mpr ⟨write, member, decide_eq_true pending⟩)
  · cases result

theorem step_of_leave? {index : Nat} (left : relay.leave? index = some next) :
    Step relay (.leave index) next := by
  obtain ⟨reader, found, result⟩ := Option.bind_eq_some_iff.mp left
  split at result
  · rename_i due
    cases result
    exact .leave found due.1 due.2
  · cases result

theorem step_of_close? {index : Nat} (closed : relay.close? index = some next) :
    Step relay (.close index) next := by
  obtain ⟨reader, found, result⟩ := Option.bind_eq_some_iff.mp closed
  split at result
  · rename_i leaving
    cases result
    exact .close found leaving
  · cases result

theorem step_of_drain? (drained : relay.drain? = some next) :
    Step relay .drain next := by
  unfold drain? at drained
  split at drained
  · rename_i due
    cases drained
    exact .drain due.1 due.2
  · cases drained

theorem step_of_stop? (stopped : relay.stop? = some next) :
    Step relay .stop next := by
  unfold stop? at stopped
  split at stopped
  · rename_i due
    cases stopped
    exact .stop due.1 due.2
  · cases stopped

theorem step_send (relay : Relay) (input : Nat) (item : Item) :
    Step relay (.send input item) (relay.send input item) := by
  unfold send
  split
  · rename_i reader found
    split
    · rename_i accepts
      exact .send found accepts
    · rename_i refuses
      refine .sendLost ?_
      simpa [accepts, found] using refuses
  · rename_i missing
    refine .sendLost ?_
    simp [accepts, missing]

theorem step_endInput (relay : Relay) (input : Nat) :
    Step relay (.endInput input) (relay.endInput input) := by
  unfold endInput
  split
  · rename_i reader found
    exact .endInput found
  · rename_i missing
    exact .endNothing missing

theorem step_setSignal (relay : Relay) (value : Bool) :
    Step relay (.setSignal value) (relay.setSignal value) := by
  unfold setSignal
  split
  · rename_i heard
    exact .setSignal heard
  · rename_i unheard
    exact .setSignalLost (Bool.eq_false_iff.mpr unheard)

theorem step?_eq_some_iff {event : Event} :
    relay.step? event = some next ↔ Step relay event next := by
  constructor
  · intro stepped
    cases event with
    | take index => exact step_of_take? stepped
    | write index output refusal => exact step_of_write? stepped
    | land index => exact step_of_land? stepped
    | leave index => exact step_of_leave? stepped
    | close index => exact step_of_close? stepped
    | drain => exact step_of_drain? stepped
    | stop => exact step_of_stop? stepped
    | send input item =>
        cases stepped
        exact step_send relay input item
    | endInput input =>
        cases stepped
        exact step_endInput relay input
    | setSignal value =>
        cases stepped
        exact step_setSignal relay value
    | dropSignal =>
        cases stepped
        exact .dropSignal
    | dropReports =>
        cases stepped
        exact .dropReports
    | advance elapsed =>
        cases stepped
        exact .advance
  · intro step
    cases step with
    | takeFrame found idle lowered read =>
        simp [step?, take?, found, idle, lowered, read]
    | takeFailure found idle lowered read =>
        simp [step?, take?, found, idle, lowered, read]
    | write found phase pending =>
        simp [step?, write?, found, phase, pending]
    | land found phase finished =>
        simpa [step?, land?, found, phase] using finished
    | leave found idle due =>
        simp only [step?, leave?, found, Option.bind_eq_bind, Option.bind_some]
        rw [if_pos ⟨idle, due⟩]
    | close found leaving =>
        simp [step?, close?, found, leaving]
    | drain running raised =>
        simp [step?, drain?, running, raised]
    | stop closed due =>
        simp only [step?, stop?]
        rw [if_pos ⟨closed, due⟩]
    | send found accepts =>
        simp [step?, Relay.send, found, accepts]
    | @sendLost input item refused =>
        cases found : relay.readers[input]? with
        | none => simp [step?, Relay.send, found]
        | some reader =>
            have refuses : reader.accepts = false := by
              simpa [Relay.accepts, found] using refused
            simp [step?, Relay.send, found, refuses]
    | endInput found => simp [step?, Relay.endInput, found]
    | endNothing missing => simp [step?, Relay.endInput, missing]
    | setSignal heard => simp [step?, Relay.setSignal, heard]
    | setSignalLost unheard => simp [step?, Relay.setSignal, unheard]
    | dropSignal => rfl
    | dropReports => rfl
    | advance => rfl

/-- A relay goes through events one after another. -/
inductive Steps : Relay → List Event → Relay → Prop where
  | done (relay : Relay) : Steps relay [] relay
  | step {relay next last : Relay} {event : Event} {events : List Event} :
      Step relay event next → Steps next events last →
      Steps relay (event :: events) last

theorem run?_eq_some_iff {events : List Event} :
    relay.run? events = some last ↔ Steps relay events last := by
  induction events generalizing relay with
  | nil =>
      constructor
      · intro ran
        cases ran
        exact .done _
      · intro steps
        cases steps
        rfl
  | cons event events induction =>
      have unfolded : relay.run? (event :: events) =
          (relay.step? event).bind fun next => next.run? events := by
        simp [run?]
      rw [unfolded, Option.bind_eq_some_iff]
      constructor
      · rintro ⟨next, stepped, ran⟩
        exact .step (step?_eq_some_iff.mp stepped) (induction.mp ran)
      · intro steps
        cases steps with
        | step step steps =>
            exact ⟨_, step?_eq_some_iff.mpr step, induction.mpr steps⟩

end Relay

end TrafficRelay
