import TrafficRelay.Proofs.Landings
import TrafficRelay.Proofs.OutputIsolation
import TrafficRelay.Proofs.StoppedReaders
import TrafficRelay.Proofs.VerdictCounts

/-!
# The reports about errors

Whoever listens to a relay is told of every frame that cannot be decoded, of every write
that has failed and of every input that has yielded an error, and of nothing else.  A
write is reported when its frame lands, so the failed writes of a frame come in the order
of the outputs, however they have finished.  Nothing else depends on anybody listening.
-/

namespace TrafficRelay

/-- The report about a frame that cannot be decoded. -/
def Failure.ofFrame? (frame : Bytes) : Option Failure :=
  match Record.decode frame with
  | .error error => some (.ofHeaderError error)
  | .ok _ => none

/-- The reader that an entry is about, or the one whose inlet it is. -/
def JournalEntry.reader : JournalEntry → Nat
  | .occurred occurrence => occurrence.reader
  | .landed reader _ | .left reader | .closed reader => reader

namespace Relay

/-- The report that is due about an item that is taken, if there is one. -/
def takenFailure? (relay : Relay) : Occurrence → Option Failure
  | .handled handling => Failure.ofFrame? handling.frame
  | .readFailed reader error => some (.inputRead (relay.inputName reader) error)
  | .offered _ _ _ _ | .queued _ _ => none

/-- The report that is due about an occurrence, if there is one. -/
def failureOf? (relay : Relay) : Occurrence → Option Failure
  | .offered _ output _ refusal => refusal.map (relay.refusalAt output)
  | occurrence => relay.takenFailure? occurrence

/-- The reports that are due about the input of a reader, in the order in which it takes
the items.  What has become of the write of a frame to an output, the first attempt at
this output tells that the reader makes after it has taken the frame. -/
def inputLog (relay : Relay) (index : Nat) : List Occurrence → List Failure
  | [] => []
  | .handled handling :: later =>
      (if handling.reader = index then
        (Failure.ofFrame? handling.frame).toList ++
          handling.decision.outputs.filterMap fun output =>
            ((attemptsBy index later).lookup output).join.map (relay.refusalAt output)
      else []) ++ relay.inputLog index later
  | .readFailed reader error :: later =>
      (if reader = index then [.inputRead (relay.inputName index) error] else []) ++
        relay.inputLog index later
  | .offered _ _ _ _ :: later | .queued _ _ :: later => relay.inputLog index later

/-- The relay as it is apart from who listens and what has been heard. -/
def unheard (relay : Relay) : Relay := { relay with listening := false, reports := [] }

/-- How the reports of a run relate to what has occurred, for one who has listened all the
time, when no frame is in flight. -/
structure LogsFailures (launched : Relay) (happened : List Occurrence) (last : Relay) : Prop where
  /-- Every failure is reported once, and nothing else is. -/
  logged : last.reports.Perm (happened.filterMap launched.failureOf?)
  /-- The reports are those about the inputs, one input's among another's, each input's in
  their order. -/
  ordered :
    ∃ marked : List (Nat × Failure), marked.map Prod.snd = last.reports ∧
      ∀ input, (marked.filter fun entry => entry.1 = input).map Prod.snd =
        launched.inputLog input happened
  /-- The outputs of a frame are in the order in which they were added. -/
  selected {handling : Handling} :
    .handled handling ∈ happened → handling.decision.outputs.Pairwise (· < ·)
  /-- An input is reported once at most. -/
  nodup_failed : (happened.filterMap Occurrence.failedReader?).Nodup
  /-- Whatever is reported by name is an output or an input of the relay. -/
  output_lt {reader output : Nat} {frame : Bytes} {refusal : Option IoError} :
    .offered reader output frame refusal ∈ happened → output < launched.outputs.length
  reader_lt {reader : Nat} {error : IoError} :
    .readFailed reader error ∈ happened → reader < launched.readers.length

/-- What the entries of a reader give to report. -/
def failures (relay : Relay) (index : Nat) : Yield Failure where
  decided := decisionFailures
  failed error := [.inputRead (relay.inputName index) error]
  landed writes := writes.filterMap relay.writeFailure?

/-- The reports about an entry, if it is one of this reader. -/
theorem failures_ofEntry (relay : Relay) (index : Nat) (entry : JournalEntry) :
    (relay.failures index).ofEntry index entry =
      if entry.reader = index then (relay.reportsOf entry).map Report.failure else [] := by
  rcases entry with (handling | ⟨reader, error⟩ | _ | _) | ⟨reader, writes⟩ | _ | _
  case occurred.handled =>
    simp [Yield.ofEntry, failures, JournalEntry.reader, Occurrence.reader, reportsOf,
      Function.comp_def]
  case occurred.readFailed =>
    by_cases own : reader = index
    · subst own
      simp [Yield.ofEntry, failures, JournalEntry.reader, Occurrence.reader, reportsOf]
    · simp [Yield.ofEntry, JournalEntry.reader, Occurrence.reader, own]
  case landed =>
    simp [Yield.ofEntry, failures, JournalEntry.reader, reportsOf, List.map_filterMap,
      Function.comp_def]
  all_goals simp [Yield.ofEntry, reportsOf]

theorem writeFailure?_endedBy (relay : Relay) (attempts : List (Nat × Option IoError))
    (output : Nat) :
    relay.writeFailure? (Write.endedBy attempts ⟨output, .pending⟩) =
      (attempts.lookup output).join.map (relay.refusalAt output) := by
  rcases attempt : attempts.lookup output with _ | _ | cause <;>
    simp [Write.endedBy, attempt, writeFailure?, WriteState.after, refusalAt]

/-- What there is to report about a frame that has just been decided. -/
theorem failures_phaseAfter (relay : Relay) (index : Nat)
    (attempts : List (Nat × Option IoError)) (frame : Bytes) (decision : Decision) :
    (relay.failures index).ofPhase attempts (phaseAfter frame decision) =
      decision.outputs.filterMap fun output =>
        (attempts.lookup output).join.map (relay.refusalAt output) := by
  rcases decision with error | _ | _ | ⟨first, others⟩
  case routed.cons =>
    simp only [phaseAfter, Yield.ofPhase, failures, Decision.outputs, List.map_map,
      List.filterMap_map]
    exact List.filterMap_congr fun output _ => relay.writeFailure?_endedBy attempts output
  all_goals rfl

/-- What is due about the items that a reader takes, if every decision is as the frame
demands. -/
theorem due_failures {relay : Relay} {index : Nat} {happened : List Occurrence}
    (decoded : ∀ handling, .handled handling ∈ happened →
      decisionFailures handling.decision = (Failure.ofFrame? handling.frame).toList) :
    (relay.failures index).due index happened = relay.inputLog index happened := by
  induction happened with
  | nil => rfl
  | cons occurrence later induction =>
      have rest := induction fun handling member =>
        decoded handling (List.mem_cons_of_mem occurrence member)
      cases occurrence with
      | handled handling =>
          rw [Yield.due, inputLog, rest, failures_phaseAfter,
            ← decoded handling List.mem_cons_self]
          rfl
      | readFailed reader error => rw [Yield.due, inputLog, rest, failures]
      | offered reader output frame refusal => exact rest
      | queued input item => exact rest

end Relay

namespace Stages

variable {outputs : Nat} {stages last : Stages} {handlings : List Handling}
  {handling : Handling}

/-- A frame is reported with its decoding error, or not at all. -/
theorem Processes.decisionFailures (processes : stages.Processes outputs handlings last)
    (member : handling ∈ handlings) :
    Relay.decisionFailures handling.decision = (Failure.ofFrame? handling.frame).toList := by
  induction processes with
  | done stages => cases member
  | malformed decoded decision others induction =>
      rcases List.mem_cons.mp member with rfl | later
      · simp [decision, Relay.decisionFailures, Failure.ofFrame?, decoded]
      · exact induction later
  | filtered decoded judged decision others induction =>
      rcases List.mem_cons.mp member with rfl | later
      · simp [decision, Relay.decisionFailures, Failure.ofFrame?, decoded]
      · exact induction later
  | routed decoded judged routing decision others induction =>
      rcases List.mem_cons.mp member with rfl | later
      · simp [decision, Relay.decisionFailures, Failure.ofFrame?, decoded]
      · exact induction later

theorem Processes.pairwise_outputs (processes : stages.Processes outputs handlings last)
    (member : handling ∈ handlings) : handling.decision.outputs.Pairwise (· < ·) := by
  rcases decision : handling.decision with error | _ | selected
  · exact .nil
  · exact .nil
  · obtain ⟨record, turn, -, rfl⟩ := processes.selected_eq member decision
    exact Policy.pairwise_choice

end Stages

namespace Relay

variable {relay next last other : Relay} {event : Event} {events : List Event}
  {assembly : Assembly} {signal : Signal} {now : Instant}

theorem mem_handlings {handling : Handling} {happened : List Occurrence}
    (member : .handled handling ∈ happened) :
    handling ∈ happened.filterMap Occurrence.handling? :=
  List.mem_filterMap.mpr ⟨_, member, rfl⟩

/-- With no frame in flight there is nothing left to report. -/
theorem Quiet.held_failures (quiet : relay.Quiet) (launched : Relay) (index : Nat)
    (attempts : List (Nat × Option IoError)) :
    (launched.failures index).held index attempts relay = [] := by
  apply held_eq_nil
  intro reader member
  unfold Yield.ofPhase
  split
  · rename_i frame writes phase
    exact (quiet reader member frame writes phase).elim
  all_goals rfl

/-- What there is to report about the entries of a reader is what is due about its input. -/
theorem Steps.failures_eq (steps : Steps (assembly.launch signal now) events last)
    (quiet : last.Quiet) (index : Nat) :
    let launched := assembly.launch signal now
    (launched.journal events).flatMap ((launched.failures index).ofEntry index) =
      launched.inputLog index (launched.history events) := by
  intro launched
  have decoded (handling : Handling) (member : .handled handling ∈ launched.history events) :=
    steps.processes.decisionFailures (mem_handlings member)
  have yields := @Steps.yields _ (launched.failures index) index _ _ _ steps
  rw [quiet.held_failures, (launch_quiet assembly signal now).held_failures, List.append_nil,
    List.nil_append, due_failures decoded] at yields
  exact yields

theorem writeFailure?_after (relay : Relay) (output : Nat) (refusal : Option IoError) :
    relay.writeFailure? ⟨output, .after refusal⟩ = refusal.map (relay.refusalAt output) := by
  cases refusal <;> rfl

/-- The report about an occurrence is about an item that is taken or about a write that
finishes. -/
theorem toList_failureOf? (relay : Relay) (entry : JournalEntry) :
    (entry.occurrence?.bind relay.failureOf?).toList =
      (entry.occurrence?.bind relay.takenFailure?).toList ++
        (entry.finished?.bind relay.writeFailure?).toList := by
  rcases entry with (_ | _ | ⟨reader, output, frame, refusal⟩ | _) | _ | _ | _
  case occurred.offered =>
    simp [JournalEntry.occurrence?, failureOf?, takenFailure?, writeFailure?_after]
  all_goals simp [JournalEntry.occurrence?, failureOf?]

/-- The reports about an entry are about an item that is taken or about the writes of a
frame that lands. -/
theorem reportsOf_eq (relay : Relay) {entry : JournalEntry}
    (decoded : ∀ handling, entry = .occurred (.handled handling) →
      decisionFailures handling.decision = (Failure.ofFrame? handling.frame).toList) :
    (relay.reportsOf entry).map Report.failure =
      (entry.occurrence?.bind relay.takenFailure?).toList ++
        entry.settled.filterMap relay.writeFailure? := by
  rcases entry with (handling | _ | _ | _) | ⟨reader, writes⟩ | _ | _
  case occurred.handled =>
    simp [reportsOf, decoded handling rfl, JournalEntry.occurrence?, takenFailure?,
      Function.comp_def]
  case landed =>
    simp [reportsOf, JournalEntry.occurrence?, List.map_filterMap, Function.comp_def]
  all_goals simp [reportsOf, JournalEntry.occurrence?, takenFailure?]

/-- With no frame in flight, all failures have been reported. -/
theorem Steps.failures_perm (steps : Steps (assembly.launch signal now) events last)
    (quiet : last.Quiet) :
    let launched := assembly.launch signal now
    ((launched.journal events).flatMap fun entry =>
        (launched.reportsOf entry).map Report.failure).Perm
      ((launched.history events).filterMap launched.failureOf?) := by
  intro launched
  have inFlight : (last.readers.flatMap fun reader =>
      reader.writes.filterMap launched.writeFailure?) = [] := by
    refine List.flatMap_eq_nil_iff.mpr fun reader member => ?_
    rw [quiet.writes_eq_nil member, List.filterMap_nil]
  have unfinished (output : Nat) : launched.writeFailure? ⟨output, .pending⟩ = none := rfl
  have writes := steps.settled_perm unfinished
  dsimp only at writes
  rw [inFlight, List.append_nil, List.filterMap_flatMap, List.filterMap_filterMap,
    List.filterMap_eq_flatMap_toList] at writes
  have happened : (launched.history events).filterMap launched.failureOf? =
      (launched.journal events).flatMap fun entry =>
        (entry.occurrence?.bind launched.takenFailure?).toList ++
          (entry.finished?.bind launched.writeFailure?).toList := by
    rw [steps.history_eq, List.filterMap_filterMap, List.filterMap_eq_flatMap_toList]
    exact List.flatMap_congr fun entry _ => launched.toList_failureOf? entry
  have reported : ((launched.journal events).flatMap fun entry =>
        (launched.reportsOf entry).map Report.failure) =
      (launched.journal events).flatMap fun entry =>
        (entry.occurrence?.bind launched.takenFailure?).toList ++
          entry.settled.filterMap launched.writeFailure? := by
    refine List.flatMap_congr fun entry member => launched.reportsOf_eq ?_
    rintro handling rfl
    refine steps.processes.decisionFailures (mem_handlings ?_)
    rw [steps.history_eq]
    exact List.mem_filterMap.mpr ⟨_, member, rfl⟩
  rw [happened, reported]
  -- What is said about items is the same in both lists, what is said about writes is not in
  -- the same place.
  refine (List.flatMap_append_perm _ _ _).symm.trans ?_
  exact (writes.append_left _).trans (List.flatMap_append_perm _ _ _)

theorem Steps.logsFailures (steps : Steps (assembly.launch signal now) events last)
    (listens : last.listening = true) (quiet : last.Quiet) :
    (assembly.launch signal now).LogsFailures ((assembly.launch signal now).history events)
      last where
  logged := by
    rw [steps.reports_of_listening listens]
    exact steps.failures_perm quiet
  ordered := by
    refine ⟨((assembly.launch signal now).journal events).flatMap fun entry =>
      ((assembly.launch signal now).reportsOf entry).map fun report =>
        (entry.reader, report.failure), ?_, fun input => ?_⟩
    · rw [steps.reports_of_listening listens, List.map_flatMap]
      simp only [List.map_map]
      rfl
    · rw [← steps.failures_eq quiet, List.filter_flatMap, List.map_flatMap]
      refine List.flatMap_congr fun entry _ => ?_
      rw [failures_ofEntry]
      by_cases own : entry.reader = input <;> simp [own, List.filter_map, Function.comp_def]
  selected member := steps.processes.pairwise_outputs (mem_handlings member)
  nodup_failed := steps.nodup_failed
  output_lt := steps.offered_lt (launch_sound assembly signal now)
  reader_lt := steps.reader_lt _

/-- Nothing is ever reported but what a relay runs into. -/
theorem kind_of_reportsOf {entry : JournalEntry} {report : Report}
    (listed : report ∈ relay.reportsOf entry) :
    report.failure ≠ .noMethod ∧ ∀ reason, report.failure ≠ .settings reason := by
  rcases entry with (handling | ⟨reader, error⟩ | _ | _) | ⟨reader, writes⟩ | _ | _
  case occurred.handled =>
    obtain ⟨failure, due, rfl⟩ := List.mem_map.mp listed
    rcases decision : handling.decision with error | _ | _ <;> rw [decision] at due
    · cases List.mem_singleton.mp due
      exact ⟨nofun, nofun⟩
    · cases due
    · cases due
  case occurred.readFailed =>
    cases List.mem_singleton.mp listed
    exact ⟨nofun, nofun⟩
  case landed =>
    obtain ⟨write, -, made⟩ := List.mem_filterMap.mp listed
    obtain ⟨failure, found, rfl⟩ := Option.map_eq_some_iff.mp made
    unfold writeFailure? at found
    split at found <;> cases found
    exact ⟨nofun, nofun⟩
  all_goals cases listed

/-- Relays that differ in nothing but who listens and what has been heard take the same
steps. -/
theorem Step.unheard (step : Step relay event next) (alike : other.unheard = relay.unheard) :
    ∃ follower, Step other event follower ∧ follower.unheard = next.unheard ∧
      other.entries event = relay.entries event := by
  obtain ⟨listening, reports, rfl⟩ :
      ∃ listening reports, other = { relay with listening, reports } :=
    ⟨other.listening, other.reports, congrArg (fun (relay : Relay) =>
      { relay with listening := other.listening, reports := other.reports }) alike⟩
  have entries : { relay with listening, reports }.entries event = relay.entries event := by
    cases event <;> rfl
  cases step with
  | takeFrame found idle lowered read =>
      exact ⟨_, .takeFrame found idle lowered read,
        by simp [Relay.unheard, decideFrame, report_eq, setReader], entries⟩
  | takeFailure found idle lowered read =>
      exact ⟨_, .takeFailure found idle lowered read,
        by simp [Relay.unheard, report_eq, setReader], entries⟩
  | write found phase pending => exact ⟨_, .write found phase pending, rfl, entries⟩
  | land found phase finished =>
      exact ⟨_, .land found phase finished,
        by simp [Relay.unheard, report_eq, setReader], entries⟩
  | leave found idle due => exact ⟨_, .leave found idle due, rfl, entries⟩
  | close found leaving => exact ⟨_, .close found leaving, rfl, entries⟩
  | drain running raised => exact ⟨_, .drain running raised, rfl, entries⟩
  | stop closed due => exact ⟨_, .stop closed due, rfl, entries⟩
  | send found accepts => exact ⟨_, .send found accepts, rfl, entries⟩
  | sendLost refused => exact ⟨_, .sendLost refused, rfl, entries⟩
  | endInput found => exact ⟨_, .endInput found, rfl, entries⟩
  | endNothing missing => exact ⟨_, .endNothing missing, rfl, entries⟩
  | setSignal heard => exact ⟨_, .setSignal heard, rfl, entries⟩
  | setSignalLost unheard => exact ⟨_, .setSignalLost unheard, rfl, entries⟩
  | dropSignal => exact ⟨_, .dropSignal, rfl, entries⟩
  | dropReports => exact ⟨_, .dropReports, rfl, entries⟩
  | advance => exact ⟨_, .advance, rfl, entries⟩

/-- The events without those at which somebody ceases to listen. -/
def withoutDrops (events : List Event) : List Event :=
  events.filter fun event => event ≠ .dropReports

theorem withoutDrops_cons (kept : event ≠ .dropReports) (events : List Event) :
    withoutDrops (event :: events) = event :: withoutDrops events :=
  List.filter_cons_of_pos (decide_eq_true kept)

/-- A run goes on in the same way if nobody ceases to listen. -/
theorem Steps.withoutDrops (steps : Steps relay events last)
    (alike : other.unheard = relay.unheard) :
    ∃ follower, Steps other (withoutDrops events) follower ∧
      follower.unheard = last.unheard ∧
      other.journal (withoutDrops events) = relay.journal events := by
  induction steps generalizing other with
  | done relay => exact ⟨other, .done other, alike, rfl⟩
  | @step relay next last event events step steps induction =>
      by_cases drops : event = .dropReports
      · subst drops
        cases step with
        | dropReports =>
            obtain ⟨follower, others, ends, journal⟩ := induction alike
            exact ⟨follower, others, ends, journal.trans (Step.dropReports.journal_cons _).symm⟩
      · obtain ⟨onward, here, alike, entries⟩ := step.unheard alike
        obtain ⟨follower, others, ends, journal⟩ := induction alike
        rw [withoutDrops_cons drops]
        refine ⟨follower, .step here others, ends, ?_⟩
        rw [here.journal_cons, step.journal_cons, entries, journal]

/-- Nor does it make a difference if somebody ceases to listen. -/
theorem Steps.withDrops (steps : Steps relay (Relay.withoutDrops events) last)
    (alike : other.unheard = relay.unheard) :
    ∃ follower, Steps other events follower ∧ follower.unheard = last.unheard ∧
      other.journal events = relay.journal (Relay.withoutDrops events) := by
  induction events generalizing relay other with
  | nil =>
      cases steps
      exact ⟨other, .done other, alike, rfl⟩
  | cons event events induction =>
      by_cases drops : event = .dropReports
      · subst drops
        obtain ⟨follower, others, ends, journal⟩ :=
          @induction relay { other with listening := false } steps alike
        exact ⟨follower, .step .dropReports others, ends,
          (Step.dropReports.journal_cons _).trans journal⟩
      · rw [withoutDrops_cons drops] at steps ⊢
        cases steps with
        | step step steps =>
            obtain ⟨onward, here, alike, entries⟩ := step.unheard alike
            obtain ⟨follower, others, ends, journal⟩ := induction steps alike
            refine ⟨follower, .step here others, ends, ?_⟩
            rw [here.journal_cons, step.journal_cons, entries, journal]

end Relay

/-- A run is reported to whoever listens failure by failure, and it is the same run if
nobody does. -/
theorem Assembly.run_logs_failures (assembly : Assembly) (signal : Signal) (now : Instant)
    {events : List Event} {last : Relay}
    (ran : (assembly.launch signal now).run? events = some last) :
    let launched := assembly.launch signal now
    (last.listening = true → last.Quiet →
      launched.LogsFailures (launched.history events) last) ∧
    (∀ failure ∈ last.reports,
      failure ≠ .noMethod ∧ ∀ reason, failure ≠ .settings reason) ∧
    ∀ listening altered, Relay.withoutDrops altered = Relay.withoutDrops events →
      let others := { assembly with listening }.launch signal now
      ∃ other, others.run? altered = some other ∧
        others.history altered = launched.history events ∧
        other.unheard = last.unheard := by
  intro launched
  have steps := Relay.run?_eq_some_iff.mp ran
  refine ⟨steps.logsFailures, fun failure reported => ?_, ?_⟩
  · rw [steps.reports] at reported
    obtain ⟨report, listed, rfl⟩ := List.mem_map.mp reported
    obtain ⟨entry, -, due⟩ := List.mem_flatMap.mp listed
    exact Relay.kind_of_reportsOf due
  · intro listening altered same others
    obtain ⟨between, plain, reaches, journal⟩ :=
      steps.withoutDrops (rfl : launched.unheard = launched.unheard)
    rw [← same] at plain journal
    obtain ⟨other, follows, ends, otherJournal⟩ :=
      plain.withDrops (rfl : others.unheard = launched.unheard)
    refine ⟨other, Relay.run?_eq_some_iff.mpr follows, ?_, ends.trans reaches⟩
    rw [follows.history_eq, steps.history_eq, otherJournal, journal]

/-- One input yields a frame that is no record, one that both outputs refuse, the second of
them first, and an error; in between a frame of the other input is refused.  Somebody who
ceases to listen after the first report changes nothing but what is heard. -/
theorem Assembly.run_logs_failures_interleaved :
    let first : Inlet :=
      .ofItems [.frame [33], .frame (Sample.get 97), .failure .rejectedWrite]
    let assembly : Assembly :=
      ⟨⟨Sample.filter, .ofPolicy .broadcast⟩,
        [("a", first), ("b", .ofItems [.frame (Sample.get 98)])], ["x", "y"], true⟩
    let launched := assembly.launch .lowered 0
    let later : List Event :=
      [.take 0, .take 1, .write 0 1 (some .rejectedWrite), .write 1 0 (some .notFound),
        .write 0 0 (some .rejectedWrite), .write 1 1 none, .land 1, .land 0, .take 0]
    let events := .take 0 :: later
    let malformed : Failure := .malformedRecord "no header terminator"
    ∃ last other, launched.run? events = some last ∧
      last.reports =
        [malformed, .outputWrite "x" .notFound, .outputWrite "x" .rejectedWrite,
          .outputWrite "y" .rejectedWrite, .inputRead "a" .rejectedWrite] ∧
      launched.LogsFailures (launched.history events) last ∧
      launched.run? (.take 0 :: .dropReports :: later) = some other ∧
      other.reports = [malformed] ∧ other.unheard = last.unheard := by
  intro first assembly launched later events malformed
  have shown : (launched.run? events).map (fun last =>
      (last.reports, last.listening, last.readers.map Reader.phase)) =
        some ([malformed, .outputWrite "x" .notFound, .outputWrite "x" .rejectedWrite,
          .outputWrite "y" .rejectedWrite, .inputRead "a" .rejectedWrite],
          true, [.leaving, .idle]) := by decide +kernel
  have otherShown : (launched.run? (.take 0 :: .dropReports :: later)).map Relay.reports =
      some [malformed] := by decide +kernel
  obtain ⟨last, ran, same⟩ := Option.map_eq_some_iff.mp shown
  obtain ⟨reports, same⟩ := Prod.mk.inj same
  obtain ⟨listens, phases⟩ := Prod.mk.inj same
  have quiet : last.Quiet := by
    apply Relay.quiet_of_phases
    simp [phases]
  obtain ⟨logs, -, unheard⟩ := Assembly.run_logs_failures assembly .lowered 0 ran
  obtain ⟨other, otherRan, -, alike⟩ := unheard true (.take 0 :: .dropReports :: later) rfl
  rw [otherRan, Option.map_some] at otherShown
  exact ⟨last, other, ran, reports, logs listens quiet, otherRan, Option.some.inj otherShown,
    alike⟩

end TrafficRelay
