import TrafficRelay.Proofs.SequentialDecisions

/-!
# The journal of a run

The journal of a run is its history together with how frames landed and how readers
left and closed.  It accounts for everything that a relay counts and reports: the
tally is the journal posted entry by entry, and the reports are the failures of the
entries that were made while somebody listened.
-/

namespace TrafficRelay

/-- Something that a reader does, or that happens to it. -/
inductive JournalEntry where
  | occurred (occurrence : Occurrence)
  | landed (reader : Nat) (writes : List Write)
  | left (reader : Nat)
  | closed (reader : Nat)
  deriving DecidableEq, Repr

def JournalEntry.occurrence? : JournalEntry → Option Occurrence
  | .occurred occurrence => some occurrence
  | .landed _ _ | .left _ | .closed _ => none

/-- A failure that is reported; one about a write goes with the output. -/
structure Report where
  output? : Option Nat
  failure : Failure
  deriving DecidableEq, Repr

/-- Count an entry of the journal. -/
def Tally.post (tally : Tally) : JournalEntry → Tally
  | .occurred (.handled handling) => tally.addDecision handling.decision
  | .occurred (.readFailed _ _) => tally.addReadFailures 1
  | .landed _ writes => writes.foldl (fun tally write => tally.addWrite write.state) tally
  | .closed _ => tally.addClosed 1
  | .occurred (.offered _ _ _ _) | .occurred (.queued _ _) | .left _ => tally

namespace Relay

def inputName (relay : Relay) (index : Nat) : String :=
  (relay.readers[index]?.map Reader.name).getD ""

/-- What there is to report about an entry. -/
def reportsOf (relay : Relay) : JournalEntry → List Report
  | .occurred (.handled handling) =>
      (decisionFailures handling.decision).map fun failure => ⟨none, failure⟩
  | .occurred (.readFailed reader error) =>
      [⟨none, .inputRead (relay.inputName reader) error⟩]
  | .landed _ writes =>
      writes.filterMap fun write =>
        (relay.writeFailure? write).map fun failure => ⟨some write.output, failure⟩
  | .occurred (.offered _ _ _ _) | .occurred (.queued _ _) | .left _ | .closed _ => []

/-- What an event adds to the journal. -/
def entries (relay : Relay) : Event → List JournalEntry
  | .land index =>
      match relay.readers[index]?.map Reader.phase with
      | some (.inFlight _ writes) => [.landed index writes]
      | _ => []
  | .leave index => [.left index]
  | .close index => [.closed index]
  | event => (relay.occurrences event).map .occurred

/-- The journal of a run, from the first event to the last. -/
def journal (relay : Relay) : List Event → List JournalEntry
  | [] => []
  | event :: events =>
      relay.entries event ++
        match relay.step? event with
        | some next => next.journal events
        | none => []

/-- The entries that somebody hears of. -/
def heard (relay : Relay) : List Event → List JournalEntry
  | [] => []
  | event :: events =>
      (if relay.listening then relay.entries event else []) ++
        match relay.step? event with
        | some next => next.heard events
        | none => []

/-- What is reported in a run, from the first event to the last. -/
def reported (relay : Relay) (events : List Event) : List Report :=
  (relay.heard events).flatMap relay.reportsOf

end Relay

/-- How the reader of an input changes in a step, and the entry that the step makes. -/
inductive Reader.Turn (index : Nat) (reader : Reader) :
    List JournalEntry → Reader → Prop where
  | occurs {occurrence : Occurrence} {changed : Reader} :
      Change index reader [occurrence] changed →
      Turn index reader [.occurred occurrence] changed
  | land {frame : Bytes} {writes : List Write} :
      reader.phase = .inFlight frame writes →
      (∀ write ∈ writes, write.state ≠ .pending) →
      Turn index reader [.landed index writes] { reader with phase := .idle }
  | leave :
      reader.phase = .idle → Turn index reader [.left index] { reader with phase := .leaving }
  | close :
      reader.phase = .leaving → Turn index reader [.closed index] { reader with phase := .closed }
  | endInput : Turn index reader [] { reader with inlet := reader.inlet.close }

theorem Reader.Change.name {index : Nat} {reader changed : Reader}
    {occurred : List Occurrence} (change : Reader.Change index reader occurred changed) :
    changed.name = reader.name := by
  cases change <;> rfl

namespace Relay

variable {relay next last : Relay} {event : Event} {events : List Event}
  {index : Nat} {reader : Reader}

theorem Step.journal_cons (step : Step relay event next) (events : List Event) :
    relay.journal (event :: events) = relay.entries event ++ next.journal events := by
  rw [journal, step?_eq_some_iff.mpr step]

theorem Step.heard_cons (step : Step relay event next) (events : List Event) :
    relay.heard (event :: events) =
      (if relay.listening then relay.entries event else []) ++ next.heard events := by
  rw [heard, step?_eq_some_iff.mpr step]

theorem entries_takeFrame {frame : Bytes} {inlet : Inlet}
    (found : relay.readers[index]? = some reader)
    (read : reader.inlet.read = .item (.frame frame) inlet) :
    relay.entries (.take index) =
      [.occurred (.handled ⟨index, relay.clock, frame, (relay.decideFrame frame).1⟩)] := by
  simp [entries, occurrences, found, read, taking]

theorem entries_takeFailure {error : IoError} {inlet : Inlet}
    (found : relay.readers[index]? = some reader)
    (read : reader.inlet.read = .item (.failure error) inlet) :
    relay.entries (.take index) = [.occurred (.readFailed index error)] := by
  simp [entries, occurrences, found, read, taking]

theorem entries_write {output : Nat} {refusal : Option IoError} {frame : Bytes}
    {writes : List Write} (found : relay.readers[index]? = some reader)
    (phase : reader.phase = .inFlight frame writes) :
    relay.entries (.write index output refusal) =
      [.occurred (.offered index output frame refusal)] := by
  simp [entries, occurrences, found, phase]

theorem entries_land {frame : Bytes} {writes : List Write}
    (found : relay.readers[index]? = some reader)
    (phase : reader.phase = .inFlight frame writes) :
    relay.entries (.land index) = [.landed index writes] := by
  simp [entries, found, phase]

theorem entries_send {item : Item} (found : relay.readers[index]? = some reader)
    (accepts : reader.accepts = true) :
    relay.entries (.send index item) = [.occurred (.queued index item)] := by
  simp [entries, occurrences, Relay.accepts, found, accepts]

theorem entries_sendLost {item : Item} (refused : relay.accepts index = false) :
    relay.entries (.send index item) = [] := by
  simp [entries, occurrences, refused]

/-- A step leaves the readers as they are and makes no entry, or one reader takes its
turn. -/
theorem Step.turn (step : Step relay event next) :
    relay.entries event = [] ∧ next.readers = relay.readers ∨
      ∃ index reader changed,
        relay.readers[index]? = some reader ∧
        Reader.Turn index reader (relay.entries event) changed ∧
        next.readers = relay.readers.set index changed := by
  cases step with
  | takeFrame found idle lowered read =>
      rw [entries_takeFrame found read]
      exact Or.inr ⟨_, _, _, found, .occurs (.takeFrame _ _ idle read), by simp⟩
  | takeFailure found idle lowered read =>
      rw [entries_takeFailure found read]
      exact Or.inr ⟨_, _, _, found, .occurs (.takeFailure idle read), by simp⟩
  | write found phase pending =>
      rw [entries_write found phase]
      exact Or.inr ⟨_, _, _, found, .occurs (.write phase pending), rfl⟩
  | land found phase finished =>
      rw [entries_land found phase]
      exact Or.inr ⟨_, _, _, found, .land phase finished, by simp⟩
  | leave found idle due => exact Or.inr ⟨_, _, _, found, .leave idle, rfl⟩
  | close found leaving => exact Or.inr ⟨_, _, _, found, .close leaving, rfl⟩
  | drain running raised => exact Or.inl ⟨rfl, rfl⟩
  | stop closed due => exact Or.inl ⟨rfl, rfl⟩
  | send found accepts =>
      rw [entries_send found accepts]
      exact Or.inr ⟨_, _, _, found, .occurs (.send accepts), rfl⟩
  | sendLost refused => exact Or.inl ⟨entries_sendLost refused, rfl⟩
  | endInput found => exact Or.inr ⟨_, _, _, found, .endInput, rfl⟩
  | endNothing missing => exact Or.inl ⟨rfl, rfl⟩
  | setSignal heard => exact Or.inl ⟨rfl, rfl⟩
  | setSignalLost unheard => exact Or.inl ⟨rfl, rfl⟩
  | dropSignal => exact Or.inl ⟨rfl, rfl⟩
  | dropReports => exact Or.inl ⟨rfl, rfl⟩
  | advance => exact Or.inl ⟨rfl, rfl⟩

/-- The history is the part of the journal that tells what occurred. -/
theorem entries_occurrences (relay : Relay) (event : Event) :
    (relay.entries event).filterMap JournalEntry.occurrence? =
      relay.occurrences event := by
  have all (occurred : List Occurrence) :
      (occurred.map JournalEntry.occurred).filterMap JournalEntry.occurrence? = occurred := by
    rw [List.filterMap_map]
    exact List.filterMap_some
  cases event with
  | land index =>
      simp only [entries]
      split <;> rfl
  | leave index => rfl
  | close index => rfl
  | _ => exact all _

theorem Steps.history_eq (steps : Steps relay events last) :
    relay.history events =
      (relay.journal events).filterMap JournalEntry.occurrence? := by
  induction steps with
  | done relay => rfl
  | step step steps induction =>
      rw [step.history_cons, step.journal_cons, List.filterMap_append,
        entries_occurrences, induction]

/-- A step counts the entry that it makes. -/
theorem Step.tally (step : Step relay event next) :
    next.tally = (relay.entries event).foldl Tally.post relay.tally := by
  cases step with
  | takeFrame found idle lowered read =>
      rw [entries_takeFrame found read]
      simp [decideFrame, report_eq, setReader, Tally.post]
  | takeFailure found idle lowered read =>
      rw [entries_takeFailure found read]
      simp [report_eq, setReader, Tally.post]
  | write found phase pending =>
      rw [entries_write found phase]
      rfl
  | land found phase finished =>
      rw [entries_land found phase]
      simp [report_eq, setReader, Tally.post]
  | send found accepts =>
      rw [entries_send found accepts]
      rfl
  | sendLost refused =>
      rw [entries_sendLost refused]
      rfl
  | _ => rfl

theorem Steps.tally (steps : Steps relay events last) :
    last.tally = (relay.journal events).foldl Tally.post relay.tally := by
  induction steps with
  | done relay => rfl
  | step step steps induction =>
      rw [step.journal_cons, List.foldl_append, ← step.tally]
      exact induction

/-- The names of the inputs do not change. -/
theorem Step.inputName (step : Step relay event next) :
    next.inputName = relay.inputName := by
  funext index
  unfold Relay.inputName
  rcases step.change with ⟨-, same⟩ | ⟨changing, reader, changed, found, change, set⟩
  · rw [same]
  · rw [set]
    by_cases here : changing = index
    · subst changing
      obtain ⟨inRange, rfl⟩ := List.getElem?_eq_some_iff.mp found
      simp [inRange, change.name]
    · simp [here]

theorem Step.reportsOf (step : Step relay event next) :
    next.reportsOf = relay.reportsOf := by
  funext entry
  have failures : next.writeFailure? = relay.writeFailure? := by
    funext write
    unfold writeFailure?
    rw [step.outputs]
  unfold Relay.reportsOf
  rw [failures, step.inputName]

/-- A step reports what there is to report about its entry, if somebody listens. -/
theorem Step.reports (step : Step relay event next) :
    next.reports = relay.reports ++
      ((if relay.listening then relay.entries event else []).flatMap
        relay.reportsOf).map Report.failure := by
  cases listens : relay.listening with
  | false =>
      cases step <;> simp [decideFrame, report_eq, setReader, listens]
  | true =>
      cases step with
      | takeFrame found idle lowered read =>
          rw [entries_takeFrame found read]
          simp [decideFrame, report_eq, setReader, listens, Relay.reportsOf,
            Function.comp_def]
      | takeFailure found idle lowered read =>
          rw [entries_takeFailure found read]
          simp [report_eq, setReader, listens, Relay.reportsOf, Relay.inputName, found]
      | write found phase pending =>
          rw [entries_write found phase]
          simp [setReader, Relay.reportsOf]
      | land found phase finished =>
          rw [entries_land found phase]
          simp [report_eq, setReader, listens, Relay.reportsOf, List.map_filterMap,
            Function.comp_def]
      | send found accepts =>
          rw [entries_send found accepts]
          simp [setReader, Relay.reportsOf]
      | sendLost refused =>
          rw [entries_sendLost refused]
          simp
      | _ => simp [entries, occurrences, setReader, Relay.reportsOf]

theorem Steps.reports (steps : Steps relay events last) :
    last.reports = relay.reports ++ (relay.reported events).map Report.failure := by
  induction steps with
  | done relay => simp [reported, heard]
  | step step steps induction =>
      rw [induction, step.reports, reported, reported, step.heard_cons,
        List.flatMap_append, List.map_append, List.append_assoc, step.reportsOf]

/-- Nobody starts to listen in the middle of a run. -/
theorem Step.listening (step : Step relay event next) (listens : next.listening = true) :
    relay.listening = true := by
  cases step with
  | takeFrame found idle lowered read =>
      simpa [decideFrame, report_eq, setReader] using listens
  | takeFailure found idle lowered read =>
      simpa [report_eq, setReader] using listens
  | land found phase finished =>
      simpa [report_eq, setReader] using listens
  | dropReports => cases listens
  | _ => exact listens

/-- Whoever still listens has heard everything. -/
theorem Steps.heard_eq_journal (steps : Steps relay events last)
    (listens : last.listening = true) :
    relay.listening = true ∧ relay.heard events = relay.journal events := by
  induction steps with
  | done relay => exact ⟨listens, rfl⟩
  | step step steps induction =>
      obtain ⟨later, same⟩ := induction listens
      have now := step.listening later
      refine ⟨now, ?_⟩
      rw [step.heard_cons, step.journal_cons, if_pos now, same]

/-- Whoever still listens has been told of everything in the journal. -/
theorem Steps.reports_of_listening (steps : Steps relay events last)
    (listens : last.listening = true) :
    last.reports = relay.reports ++
      (relay.journal events).flatMap fun entry =>
        (relay.reportsOf entry).map Report.failure := by
  rw [steps.reports, reported, (steps.heard_eq_journal listens).2, List.map_flatMap]

end Relay

end TrafficRelay
