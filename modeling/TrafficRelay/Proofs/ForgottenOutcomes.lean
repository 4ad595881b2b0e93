import TrafficRelay.Proofs.RelayJournal

/-!
# Runs without the outcomes at one output

`forget` replaces the outcomes of the writes to one output, as if it had accepted all of
them, and clears what a relay has counted and reported.  An event then happens to the
relay that is left in the same way as before: no step looks at the outcome of a write.
So two runs whose events differ only in these outcomes remain alike, step by step.
-/

namespace TrafficRelay

/-- A write as if the output had accepted it. -/
def Write.forget (output : Nat) (write : Write) : Write :=
  if write.output = output ∧ write.state ≠ .pending then { write with state := .accepted }
  else write

def ReaderPhase.forget (output : Nat) : ReaderPhase → ReaderPhase
  | .inFlight frame writes => .inFlight frame (writes.map (Write.forget output))
  | .idle => .idle
  | .leaving => .leaving
  | .closed => .closed

def Reader.forget (output : Nat) (reader : Reader) : Reader :=
  { reader with phase := reader.phase.forget output }

/-- The relay without the outcomes at an output, and without its tally and its reports. -/
def Relay.forget (output : Nat) (relay : Relay) : Relay :=
  { relay with readers := relay.readers.map (Reader.forget output), tally := .zero, reports := [] }

/-- The event as if the output accepted the write. -/
def Event.forget (output : Nat) : Event → Event
  | .write reader target refusal =>
      .write reader target (if target = output then none else refusal)
  | event => event

def Occurrence.forget (output : Nat) : Occurrence → Occurrence
  | .offered reader target frame refusal =>
      .offered reader target frame (if target = output then none else refusal)
  | occurrence => occurrence

def JournalEntry.forget (output : Nat) : JournalEntry → JournalEntry
  | .occurred occurrence => .occurred (occurrence.forget output)
  | .landed reader writes => .landed reader (writes.map (Write.forget output))
  | .left reader => .left reader
  | .closed reader => .closed reader

section

variable {output : Nat}

@[simp] theorem Write.state_forget {write : Write} :
    (write.forget output).state = .pending ↔ write.state = .pending := by
  unfold forget
  split
  · rename_i finished
    simp [finished.2]
  · rfl

theorem Write.forget_eq_pending {write : Write} {target : Nat} :
    write.forget output = ⟨target, .pending⟩ ↔ write = ⟨target, .pending⟩ := by
  unfold forget
  split
  · rename_i finished
    constructor
    · intro same
      cases same
    · rintro rfl
      exact absurd rfl finished.2
  · rfl

theorem Write.pending_mem_forget {writes : List Write} {target : Nat} :
    ⟨target, .pending⟩ ∈ writes.map (forget output) ↔ ⟨target, .pending⟩ ∈ writes := by
  simp [Write.forget_eq_pending]

theorem Write.forget_finishWrite (target : Nat) (refusal : Option IoError) (write : Write) :
    (Relay.finishWrite target refusal write).forget output =
      Relay.finishWrite target (if target = output then none else refusal)
        (write.forget output) := by
  obtain ⟨place, state⟩ := write
  cases state with
  | pending =>
      by_cases here : place = target
      · subst place
        by_cases same : target = output <;> cases refusal <;>
          simp [Relay.finishWrite, forget, same]
      · simp [Relay.finishWrite, forget, here]
  | accepted =>
      have finished : ((⟨place, .accepted⟩ : Write).forget output).state ≠ .pending := by simp
      simp [Relay.finishWrite, finished]
  | refused cause =>
      have finished : ((⟨place, .refused cause⟩ : Write).forget output).state ≠ .pending := by
        simp
      simp [Relay.finishWrite, finished]

theorem Write.forget_forget (write : Write) :
    (write.forget output).forget output = write.forget output := by
  by_cases finished : write.output = output ∧ write.state ≠ .pending
  · simp [forget, finished]
  · have same : write.forget output = write := if_neg finished
    rw [same, same]

theorem ReaderPhase.forget_eq_idle {phase : ReaderPhase} :
    phase.forget output = .idle ↔ phase = .idle := by
  cases phase <;> simp [forget]

theorem ReaderPhase.forget_eq_leaving {phase : ReaderPhase} :
    phase.forget output = .leaving ↔ phase = .leaving := by
  cases phase <;> simp [forget]

theorem ReaderPhase.forget_eq_closed {phase : ReaderPhase} :
    phase.forget output = .closed ↔ phase = .closed := by
  cases phase <;> simp [forget]

theorem Reader.accepts_forget (reader : Reader) :
    (reader.forget output).accepts = reader.accepts := by
  unfold accepts isActive
  cases phase : reader.phase <;> simp [forget, ReaderPhase.forget, phase]

@[simp] theorem Reader.forget_forget (reader : Reader) :
    (reader.forget output).forget output = reader.forget output := by
  unfold forget ReaderPhase.forget
  cases reader.phase <;> simp [Write.forget_forget]

namespace Relay

theorem forget_report (relay : Relay) (failures : List Failure) :
    (relay.report failures).forget output = relay.forget output := by
  rw [report_eq]
  rfl

theorem forget_forget (relay : Relay) :
    (relay.forget output).forget output = relay.forget output := by
  simp [forget]

/-- What has been counted is forgotten. -/
theorem forget_counted (relay : Relay) (tally other : Tally) :
    ({ relay.forget output with tally } : Relay).forget output =
      ({ relay with tally := other } : Relay).forget output := by
  simp [forget]

/-- Relays that are alike remain so when readers that are alike are put in one place. -/
theorem forget_setReader {relay other : Relay} {reader changed : Reader}
    (alike : relay.forget output = other.forget output)
    (readers : reader.forget output = changed.forget output) (index : Nat) :
    (relay.setReader index reader).forget output =
      (other.setReader index changed).forget output := by
  have moved (relay : Relay) (reader : Reader) : (relay.setReader index reader).forget output =
      (relay.forget output).setReader index (reader.forget output) := by
    simp [setReader, forget, List.map_set]
  rw [moved, moved, alike, readers]

theorem getElem?_forget (relay : Relay) (index : Nat) :
    (relay.forget output).readers[index]? = relay.readers[index]?.map (Reader.forget output) := by
  simp [forget]

theorem allClosed_forget (relay : Relay) :
    (relay.forget output).allClosed = relay.allClosed := by
  simp [allClosed, forget, Reader.forget, ReaderPhase.forget_eq_closed, Function.comp_def]

theorem accepts_forget (relay : Relay) (input : Nat) :
    (relay.forget output).accepts input = relay.accepts input := by
  rw [accepts, accepts, getElem?_forget]
  cases relay.readers[input]? <;> simp [Reader.accepts_forget]

theorem forget_decideFrame (relay : Relay) (output : Nat) (frame : Bytes) :
    ((relay.forget output).decideFrame frame).1 = (relay.decideFrame frame).1 ∧
      ((relay.forget output).decideFrame frame).2.forget output =
        (relay.decideFrame frame).2.forget output := by
  simp only [decideFrame, forget_report]
  simp [forget]

/-- What one reader does is forgotten in the same way wherever it stands. -/
theorem forget_bind {relay : Relay} {index : Nat} {after before : Reader → Option Relay}
    (alike : ∀ reader, (after (reader.forget output)).map (forget output) =
      (before reader).map (forget output)) :
    ((relay.forget output).readers[index]? >>= after).map (forget output) =
      (relay.readers[index]? >>= before).map (forget output) := by
  rw [getElem?_forget]
  cases relay.readers[index]? with
  | none => rfl
  | some reader => exact alike reader

theorem forget_take? (relay : Relay) (index : Nat) :
    ((relay.forget output).take? index).map (forget output) =
      (relay.take? index).map (forget output) := by
  refine forget_bind fun reader => ?_
  have inlet : (reader.forget output).inlet = reader.inlet := rfl
  have signal : (relay.forget output).signal = relay.signal := rfl
  have idle : (reader.forget output).phase = .idle ↔ reader.phase = .idle :=
    ReaderPhase.forget_eq_idle
  simp only [ne_eq, idle, inlet, signal]
  split
  · rfl
  · cases read : reader.inlet.read with
    | item item rest =>
        cases item with
        | frame frame =>
            obtain ⟨decision, after⟩ := relay.forget_decideFrame output frame
            simp only [Option.map_some, decision]
            exact congrArg some (forget_setReader after rfl index)
        | failure error =>
            refine congrArg some (forget_setReader ?_ rfl index)
            rw [forget_report, forget_report]
            exact relay.forget_counted _ _
    | pending => rfl
    | ended => rfl

theorem forget_finishWrite_forget (target : Nat) (refusal : Option IoError)
    (writes : List Write) :
    ((writes.map (Write.forget output)).map
        (finishWrite target (if target = output then none else refusal))).map
          (Write.forget output) =
      (writes.map (finishWrite target refusal)).map (Write.forget output) := by
  by_cases same : target = output <;>
    simp [Write.forget_finishWrite, Write.forget_forget, same]

theorem forget_write? (relay : Relay) (index target : Nat) (refusal : Option IoError) :
    ((relay.forget output).write? index target
        (if target = output then none else refusal)).map (forget output) =
      (relay.write? index target refusal).map (forget output) := by
  refine forget_bind fun reader => ?_
  cases phase : reader.phase with
  | inFlight frame writes =>
      simp only [Reader.forget, ReaderPhase.forget, phase, List.contains_iff_mem,
        Write.pending_mem_forget]
      split
      · refine congrArg some (forget_setReader relay.forget_forget ?_ index)
        simp only [Reader.forget, ReaderPhase.forget, forget_finishWrite_forget]
      · rfl
  | idle => simp [Reader.forget, ReaderPhase.forget, phase]
  | leaving => simp [Reader.forget, ReaderPhase.forget, phase]
  | closed => simp [Reader.forget, ReaderPhase.forget, phase]

theorem forget_land? (relay : Relay) (index : Nat) :
    ((relay.forget output).land? index).map (forget output) =
      (relay.land? index).map (forget output) := by
  refine forget_bind fun reader => ?_
  cases phase : reader.phase with
  | inFlight frame writes =>
      simp only [Reader.forget, ReaderPhase.forget, phase, List.any_map, Function.comp_def,
        Write.state_forget]
      split
      · rfl
      · refine congrArg some (forget_setReader ?_ rfl index)
        rw [forget_report, forget_report]
        exact relay.forget_counted _ _
  | idle => simp [Reader.forget, ReaderPhase.forget, phase]
  | leaving => simp [Reader.forget, ReaderPhase.forget, phase]
  | closed => simp [Reader.forget, ReaderPhase.forget, phase]

theorem forget_leave? (relay : Relay) (index : Nat) :
    ((relay.forget output).leave? index).map (forget output) =
      (relay.leave? index).map (forget output) := by
  refine forget_bind fun reader => ?_
  have inlet : (reader.forget output).inlet = reader.inlet := rfl
  have signal : (relay.forget output).signal = relay.signal := rfl
  have idle : (reader.forget output).phase = .idle ↔ reader.phase = .idle :=
    ReaderPhase.forget_eq_idle
  simp only [idle, inlet, signal]
  split
  · exact congrArg some (forget_setReader relay.forget_forget rfl index)
  · rfl

theorem forget_close? (relay : Relay) (index : Nat) :
    ((relay.forget output).close? index).map (forget output) =
      (relay.close? index).map (forget output) := by
  refine forget_bind fun reader => ?_
  have leaving : (reader.forget output).phase = .leaving ↔ reader.phase = .leaving :=
    ReaderPhase.forget_eq_leaving
  simp only [leaving]
  split
  · exact congrArg some (forget_setReader (relay.forget_counted _ _) rfl index)
  · rfl

theorem forget_drain? (relay : Relay) :
    (relay.forget output).drain?.map (forget output) = relay.drain?.map (forget output) := by
  have lifecycle : (relay.forget output).lifecycle = relay.lifecycle := rfl
  have signal : (relay.forget output).signal = relay.signal := rfl
  simp only [drain?, lifecycle, signal]
  split
  · simp [forget]
  · rfl

theorem forget_stop? (relay : Relay) :
    (relay.forget output).stop?.map (forget output) = relay.stop?.map (forget output) := by
  have lifecycle : (relay.forget output).lifecycle = relay.lifecycle := rfl
  have signal : (relay.forget output).signal = relay.signal := rfl
  simp only [stop?, allClosed_forget, lifecycle, signal]
  split
  · simp [forget]
  · rfl

theorem forget_send (relay : Relay) (input : Nat) (item : Item) :
    ((relay.forget output).send input item).forget output =
      (relay.send input item).forget output := by
  unfold send
  rw [getElem?_forget]
  cases found : relay.readers[input]? with
  | none => exact relay.forget_forget
  | some reader =>
      simp only [Option.map_some, Reader.accepts_forget]
      split
      · exact forget_setReader relay.forget_forget
          (Reader.forget_forget { reader with inlet := reader.inlet.push item }) input
      · exact relay.forget_forget

theorem forget_endInput (relay : Relay) (input : Nat) :
    ((relay.forget output).endInput input).forget output =
      (relay.endInput input).forget output := by
  unfold endInput
  rw [getElem?_forget]
  cases found : relay.readers[input]? with
  | none => exact relay.forget_forget
  | some reader =>
      exact forget_setReader relay.forget_forget
        (Reader.forget_forget { reader with inlet := reader.inlet.close }) input

theorem forget_setSignal (relay : Relay) (value : Bool) :
    ((relay.forget output).setSignal value).forget output =
      (relay.setSignal value).forget output := by
  have hears : (relay.forget output).hearsSignal = relay.hearsSignal := rfl
  unfold setSignal
  rw [hears]
  split
  · simp [forget]
  · exact relay.forget_forget

/-- No step looks at an outcome. -/
theorem forget_step? (relay : Relay) (output : Nat) (event : Event) :
    ((relay.forget output).step? (event.forget output)).map (forget output) =
      (relay.step? event).map (forget output) := by
  cases event with
  | take index => exact relay.forget_take? index
  | write index target refusal => exact relay.forget_write? index target refusal
  | land index => exact relay.forget_land? index
  | leave index => exact relay.forget_leave? index
  | close index => exact relay.forget_close? index
  | drain => exact relay.forget_drain?
  | stop => exact relay.forget_stop?
  | send input item => exact congrArg some (relay.forget_send input item)
  | endInput input => exact congrArg some (relay.forget_endInput input)
  | setSignal value => exact congrArg some (relay.forget_setSignal value)
  | dropSignal => simp [Event.forget, step?, forget]
  | dropReports => simp [Event.forget, step?, forget]
  | advance elapsed => simp [Event.forget, step?, forget]

theorem occurrences_forget (relay : Relay) (event : Event) :
    (relay.forget output).occurrences (event.forget output) =
      (relay.occurrences event).map (Occurrence.forget output) := by
  cases event with
  | take index =>
      simp only [Event.forget, occurrences, getElem?_forget]
      cases found : relay.readers[index]? with
      | none => rfl
      | some reader =>
          have inlet : (reader.forget output).inlet = reader.inlet := rfl
          simp only [Option.map_some, inlet]
          cases read : reader.inlet.read with
          | item item rest =>
              cases item with
              | frame frame =>
                  have decision := (relay.forget_decideFrame output frame).1
                  have clock : (relay.forget output).clock = relay.clock := rfl
                  simp [taking, decision, clock, Occurrence.forget]
              | failure error => simp [taking, Occurrence.forget]
          | pending => rfl
          | ended => rfl
  | write index target refusal =>
      simp only [Event.forget, occurrences, getElem?_forget]
      cases found : relay.readers[index]? with
      | none => rfl
      | some reader =>
          cases phase : reader.phase <;>
            simp [Reader.forget, ReaderPhase.forget, phase, Occurrence.forget]
  | send input item =>
      simp only [Event.forget, occurrences, accepts_forget]
      split <;> rfl
  | _ => rfl

theorem entries_forget (relay : Relay) (event : Event) :
    (relay.forget output).entries (event.forget output) =
      (relay.entries event).map (JournalEntry.forget output) := by
  have all (event : Event) :
      ((relay.forget output).occurrences (event.forget output)).map JournalEntry.occurred =
        ((relay.occurrences event).map JournalEntry.occurred).map
          (JournalEntry.forget output) := by
    rw [occurrences_forget, List.map_map, List.map_map]
    rfl
  cases event with
  | land index =>
      simp only [Event.forget, entries, getElem?_forget]
      cases found : relay.readers[index]? with
      | none => rfl
      | some reader =>
          cases phase : reader.phase <;>
            simp [Reader.forget, ReaderPhase.forget, phase, JournalEntry.forget]
  | leave index => rfl
  | close index => rfl
  | _ => exact all _

variable {relay other next last : Relay} {event altered : Event} {events others : List Event}

/-- An event and another one that differs at most in the outcome of a write at the output
have the same effect on relays that are alike. -/
theorem Step.alike (step : Step relay event next)
    (alike : other.forget output = relay.forget output)
    (same : altered.forget output = event.forget output) :
    ∃ otherNext, Step other altered otherNext ∧
      otherNext.forget output = next.forget output ∧
      (other.entries altered).map (JournalEntry.forget output) =
        (relay.entries event).map (JournalEntry.forget output) := by
  have stepped := other.forget_step? output altered
  rw [alike, same, forget_step?, step?_eq_some_iff.mpr step, Option.map_some] at stepped
  obtain ⟨otherNext, otherStep, later⟩ := Option.map_eq_some_iff.mp stepped.symm
  refine ⟨otherNext, step?_eq_some_iff.mp otherStep, later, ?_⟩
  rw [← entries_forget, ← entries_forget, alike, same]

theorem Steps.alike (steps : Steps relay events last)
    (alike : other.forget output = relay.forget output)
    (same : others.map (Event.forget output) = events.map (Event.forget output)) :
    ∃ otherLast, Steps other others otherLast ∧
      otherLast.forget output = last.forget output ∧
      (other.journal others).map (JournalEntry.forget output) =
        (relay.journal events).map (JournalEntry.forget output) ∧
      (other.heard others).map (JournalEntry.forget output) =
        (relay.heard events).map (JournalEntry.forget output) := by
  induction steps generalizing other others with
  | done relay =>
      obtain rfl := List.map_eq_nil_iff.mp same
      exact ⟨other, .done _, alike, rfl, rfl⟩
  | @step relay next last event events step steps induction =>
      obtain ⟨altered, others, rfl, sameEvent, sameEvents⟩ := List.map_eq_cons_iff.mp same
      obtain ⟨otherNext, otherStep, later, entries⟩ := step.alike alike sameEvent
      obtain ⟨otherLast, otherSteps, ends, journal, heard⟩ := induction later sameEvents
      have listening := congrArg Relay.listening alike
      change other.listening = relay.listening at listening
      refine ⟨otherLast, .step otherStep otherSteps, ends, ?_, ?_⟩
      · rw [step.journal_cons, otherStep.journal_cons, List.map_append, List.map_append, entries,
          journal]
      · rw [step.heard_cons, otherStep.heard_cons, List.map_append, List.map_append, heard,
          listening]
        split
        · rw [entries]
        · rfl

end Relay

end

end TrafficRelay
