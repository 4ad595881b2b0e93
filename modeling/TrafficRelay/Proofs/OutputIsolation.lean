import TrafficRelay.Proofs.ForgottenOutcomes
import TrafficRelay.Proofs.OfferedFrames
import TrafficRelay.Proofs.JournalCounts

/-!
# Isolation of outputs

Let the writes to one output end in any other way.  The run goes on as before, and all
that changes is what this output has accepted, how its writes are counted, and the
reports that name it.
-/

namespace TrafficRelay

/-- How a write to an output ends in an event. -/
def Event.outcome? (output : Nat) : Event → Option (Option IoError)
  | .write _ target refusal => if target = output then some refusal else none
  | _ => none

/-- The cause, if a write to an output fails in an event. -/
def Event.refusal? (output : Nat) (event : Event) : Option IoError :=
  (event.outcome? output).bind id

/-- Of the frames that were offered, those whose writes did not fail. -/
def withoutFailures (offered : List (Nat × Bytes)) (outcomes : List (Option IoError)) :
    List (Nat × Bytes) :=
  (offered.zip outcomes).filterMap fun (entry, refusal) =>
    if refusal.isNone then some entry else none

/-- The cause, if an output has refused the write. -/
def Write.refusal? (output : Nat) (write : Write) : Option IoError :=
  match write.state with
  | .refused cause => if write.output = output then some cause else none
  | .pending | .accepted => none

/-- The causes for which an output has refused frames that have yet to land. -/
def Relay.refusedInFlight (relay : Relay) (output : Nat) : List IoError :=
  relay.readers.flatMap fun reader => reader.writes.filterMap (Write.refusal? output)

/-- The report about a write that an output has refused. -/
def Relay.refusalAt (relay : Relay) (output : Nat) (cause : IoError) : Failure :=
  .outputWrite (relay.outputs[output]?.getD "") cause

/-- How two runs from one state compare, where only the writes to one output end
differently. -/
structure Relay.Isolates (launched : Relay) (output : Nat) (events altered : List Event)
    (last other : Relay) : Prop where
  /-- The decisions are the same, made by the same readers at the same instants. -/
  handled :
    (launched.history altered).filterMap Occurrence.handling? =
      (launched.history events).filterMap Occurrence.handling?
  stages : other.stages = last.stages
  /-- Nor does anything else differ in what has become of the relay, but for its tally, its
  reports and the outcomes at the output. -/
  state : other.forget output = last.forget output
  /-- No frame is offered to another output, or again, because a write has failed. -/
  offered (target : Nat) :
    (launched.history altered).filterMap (Occurrence.offer? target) =
      (launched.history events).filterMap (Occurrence.offer? target)
  offered_once (target : Nat) :
    ((launched.history altered).filterMap (Occurrence.offer? target) ++
        other.awaiting target).Perm
      ((launched.history altered).filterMap (Occurrence.routed? target))
  accepted_elsewhere {target : Nat} :
    target ≠ output →
      (launched.history altered).filterMap (Occurrence.accepted? target) =
        (launched.history events).filterMap (Occurrence.accepted? target)
  outcomes_length :
    (altered.filterMap (Event.outcome? output)).length =
      ((launched.history events).filterMap (Occurrence.offer? output)).length
  accepted_here :
    (launched.history altered).filterMap (Occurrence.accepted? output) =
      withoutFailures ((launched.history events).filterMap (Occurrence.offer? output))
        (altered.filterMap (Event.outcome? output))
  tally :
    other.tally =
      { last.tally with
        writes := other.tally.writes
        writeFailures := other.tally.writeFailures }
  writes :
    other.tally.writes.value + other.tally.writeFailures.value =
      last.tally.writes.value + last.tally.writeFailures.value
  reports :
    last.reports = (launched.reported events).map Report.failure ∧
      other.reports = (launched.reported altered).map Report.failure
  /-- The other reports are the same, in the same order. -/
  reports_elsewhere :
    (launched.reported altered).filter (fun (report : Report) => report.output? ≠ some output) =
      (launched.reported events).filter fun (report : Report) => report.output? ≠ some output
  /-- Whoever listens hears of every failed write when its frame lands. -/
  reports_here :
    other.listening = true →
      (((launched.reported altered).filter fun (report : Report) =>
            report.output? = some output).map Report.failure ++
          (other.refusedInFlight output).map (launched.refusalAt output)).Perm
        ((altered.filterMap (Event.refusal? output)).map (launched.refusalAt output))

section

variable {α β : Type} {forget : α → α} {first second : List α}

/-- Whoever does not look at the outcomes finds what is alike without them the same. -/
theorem map_eq_of_alike {look : α → β} (blind : ∀ item, look (forget item) = look item)
    (alike : first.map forget = second.map forget) : first.map look = second.map look := by
  have unseen : look ∘ forget = look := funext blind
  rw [← unseen, ← List.map_map, alike, List.map_map]

theorem flatMap_eq_of_alike {look : α → List β}
    (blind : ∀ item, look (forget item) = look item)
    (alike : first.map forget = second.map forget) :
    first.flatMap look = second.flatMap look := by
  rw [List.flatMap_def, List.flatMap_def, map_eq_of_alike blind alike]

theorem filterMap_eq_of_alike {look : α → Option β}
    (blind : ∀ item, look (forget item) = look item)
    (alike : first.map forget = second.map forget) :
    first.filterMap look = second.filterMap look := by
  rw [List.filterMap_eq_flatMap_toList, List.filterMap_eq_flatMap_toList]
  exact flatMap_eq_of_alike (fun item => congrArg Option.toList (blind item)) alike

end

theorem filterMap_occurrence?_forget (output : Nat) (entries : List JournalEntry) :
    (entries.filterMap JournalEntry.occurrence?).map (Occurrence.forget output) =
      (entries.map (JournalEntry.forget output)).filterMap JournalEntry.occurrence? := by
  rw [List.map_filterMap, List.filterMap_map]
  apply List.filterMap_congr
  intro entry _
  cases entry <;> rfl

theorem JournalEntry.decision?_forget (output : Nat) (entry : JournalEntry) :
    (entry.forget output).decision? = entry.decision? := by
  rcases entry with (_ | _ | _ | _) | _ | _ | _ <;> rfl

theorem JournalEntry.failed?_forget (output : Nat) (entry : JournalEntry) :
    (entry.forget output).failed? = entry.failed? := by
  rcases entry with (_ | _ | _ | _) | _ | _ | _ <;> rfl

theorem JournalEntry.closed?_forget (output : Nat) (entry : JournalEntry) :
    (entry.forget output).closed? = entry.closed? := by
  cases entry <;> rfl

/-- What another output accepts does not depend on outcomes at the output. -/
theorem Occurrence.accepted?_forget {target output : Nat} (different : target ≠ output)
    (occurrence : Occurrence) :
    (occurrence.forget output).accepted? target = occurrence.accepted? target := by
  cases occurrence with
  | offered reader place frame refusal =>
      by_cases here : place = output
      · subst place
        cases refusal <;> simp [forget, accepted?, Ne.symm different]
      · simp [forget, here]
  | _ => rfl

theorem Relay.framesInFlight_forget (relay : Relay) (output : Nat) :
    (relay.forget output).framesInFlight = relay.framesInFlight := by
  have same (reader : Reader) : (reader.forget output).isInFlight = reader.isInFlight := by
    unfold Reader.isInFlight
    cases phase : reader.phase <;> simp [Reader.forget, ReaderPhase.forget, phase]
  simp [framesInFlight, Relay.forget, List.countP_map, Function.comp_def, same]

/-- A frame that is offered to an output, with the reader that took it and how the write
ends. -/
def Occurrence.attempt? (output : Nat) : Occurrence → Option ((Nat × Bytes) × Option IoError)
  | .offered reader target frame refusal =>
      if target = output then some ((reader, frame), refusal) else none
  | _ => none

theorem filterMap_offer? (output : Nat) (happened : List Occurrence) :
    happened.filterMap (Occurrence.offer? output) =
      (happened.filterMap (Occurrence.attempt? output)).map Prod.fst := by
  rw [List.map_filterMap]
  apply List.filterMap_congr
  intro occurrence _
  cases occurrence with
  | offered reader target frame refusal =>
      by_cases same : target = output <;> simp [Occurrence.offer?, Occurrence.attempt?, same]
  | _ => rfl

theorem filterMap_accepted? (output : Nat) (happened : List Occurrence) :
    happened.filterMap (Occurrence.accepted? output) =
      (happened.filterMap (Occurrence.attempt? output)).filterMap fun (entry, refusal) =>
        if refusal.isNone then some entry else none := by
  rw [List.filterMap_filterMap]
  apply List.filterMap_congr
  intro occurrence _
  cases occurrence with
  | offered reader target frame refusal =>
      by_cases same : target = output <;> cases refusal <;>
        simp [Occurrence.accepted?, Occurrence.attempt?, same]
  | _ => rfl

theorem filterMap_refusal? (output : Nat) (happened : List Occurrence) :
    (happened.filterMap fun occurrence =>
        (JournalEntry.occurred occurrence).finished?).filterMap (Write.refusal? output) =
      (happened.filterMap (Occurrence.attempt? output)).filterMap Prod.snd := by
  rw [List.filterMap_filterMap, List.filterMap_filterMap]
  apply List.filterMap_congr
  intro occurrence _
  cases occurrence with
  | offered reader target frame refusal =>
      by_cases same : target = output <;> cases refusal <;>
        simp [Write.refusal?, WriteState.after, Occurrence.attempt?, same]
  | _ => rfl

namespace Relay

variable {relay next last : Relay} {event : Event} {events : List Event} {output : Nat}
  {assembly : Assembly} {signal : Signal} {now : Instant}

/-- A write that is offered ends as the event says. -/
theorem Step.outcomes (step : Step relay event next) :
    ((relay.occurrences event).filterMap (Occurrence.attempt? output)).map Prod.snd =
      (event.outcome? output).toList := by
  cases step with
  | takeFrame found idle lowered read =>
      simp [occurrences, found, read, taking, Occurrence.attempt?, Event.outcome?]
  | takeFailure found idle lowered read =>
      simp [occurrences, found, read, taking, Occurrence.attempt?, Event.outcome?]
  | @write index target refusal reader frame writes found phase pending =>
      by_cases same : target = output <;>
        simp [occurrences, found, phase, Occurrence.attempt?, Event.outcome?, same]
  | send found accepts =>
      simp [occurrences, Relay.accepts, found, accepts, Occurrence.attempt?, Event.outcome?]
  | sendLost refused => simp [occurrences, refused, Event.outcome?]
  | _ => rfl

theorem Steps.outcomes (steps : Steps relay events last) :
    ((relay.history events).filterMap (Occurrence.attempt? output)).map Prod.snd =
      events.filterMap (Event.outcome? output) := by
  simp only [List.filterMap_eq_flatMap_toList (Event.outcome? output)]
  induction steps with
  | done relay => rfl
  | step step steps induction =>
      rw [step.history_cons, List.filterMap_append, List.map_append, step.outcomes, induction,
        List.flatMap_cons]

/-- An output accepts what it is offered, except for the writes that fail. -/
theorem Steps.accepted_eq (steps : Steps relay events last) :
    (relay.history events).filterMap (Occurrence.accepted? output) =
      withoutFailures ((relay.history events).filterMap (Occurrence.offer? output))
        (events.filterMap (Event.outcome? output)) := by
  rw [filterMap_accepted?, filterMap_offer?, ← steps.outcomes, withoutFailures,
    ← List.unzip_fst, ← List.unzip_snd, List.zip_unzip]

/-- Reports about the other writes do not depend on outcomes at the output. -/
theorem filter_reportsOf_forget (relay : Relay) (entry : JournalEntry) :
    ((relay.reportsOf (entry.forget output)).filter fun (report : Report) =>
        report.output? ≠ some output) =
      (relay.reportsOf entry).filter fun (report : Report) => report.output? ≠ some output := by
  cases entry with
  | occurred occurrence => cases occurrence <;> rfl
  | landed reader writes =>
      simp only [JournalEntry.forget, reportsOf, List.filter_filterMap, List.filterMap_map]
      apply List.filterMap_congr
      intro write _
      by_cases here : write.output = output
      · have still : (write.forget output).output = output := by
          unfold Write.forget
          split <;> exact here
        simp only [Function.comp_apply, still, here]
        cases relay.writeFailure? (write.forget output) <;>
          cases relay.writeFailure? write <;> simp [Option.filter_some]
      · have same : write.forget output = write := if_neg fun both => here both.1
        simp only [Function.comp_apply, same]
  | left reader => rfl
  | closed reader => rfl

/-- The reports that name an output are about the writes that it has refused. -/
theorem filter_reportsOf (relay : Relay) (entry : JournalEntry) :
    ((relay.reportsOf entry).filter fun (report : Report) =>
        report.output? = some output).map Report.failure =
      (entry.settled.filterMap (Write.refusal? output)).map (relay.refusalAt output) := by
  cases entry with
  | occurred occurrence =>
      cases occurrence with
      | handled handling =>
          rcases decision : handling.decision with _ | _ | _ <;>
            simp [reportsOf, decision, decisionFailures]
      | _ => simp [reportsOf]
  | landed reader writes =>
      simp only [reportsOf, JournalEntry.settled, List.filter_filterMap, List.map_filterMap]
      apply List.filterMap_congr
      intro write _
      by_cases here : write.output = output <;> cases state : write.state <;>
        simp [writeFailure?, Write.refusal?, refusalAt, state, here]
  | left reader => rfl
  | closed reader => rfl

/-- Every write that an output refuses is in flight or has landed. -/
theorem Steps.refusals_perm (steps : Steps (assembly.launch signal now) events last) :
    let journal := (assembly.launch signal now).journal events
    ((journal.flatMap JournalEntry.settled).filterMap (Write.refusal? output) ++
        last.refusedInFlight output).Perm
      (events.filterMap (Event.refusal? output)) := by
  intro journal
  have finished : events.filterMap (Event.refusal? output) =
      (journal.filterMap JournalEntry.finished?).filterMap (Write.refusal? output) := by
    calc events.filterMap (Event.refusal? output)
        = (events.filterMap (Event.outcome? output)).filterMap id :=
          List.filterMap_filterMap.symm
      _ = (journal.filterMap JournalEntry.finished?).filterMap (Write.refusal? output) := by
          rw [steps.finished_eq, filterMap_refusal?, ← steps.outcomes, List.filterMap_map]
          rfl
  rw [finished]
  exact steps.settled_perm fun _ => rfl

end Relay

/-- Let the writes to one output end in any other way: there is a run with all the other
events as they were, and it leaves everything as it was but for that output. -/
theorem Assembly.run_isolates_output (assembly : Assembly) (signal : Signal) (now : Instant)
    (output : Nat) {events altered : List Event} {last : Relay}
    (ran : (assembly.launch signal now).run? events = some last)
    (same : altered.map (Event.forget output) = events.map (Event.forget output)) :
    ∃ other, (assembly.launch signal now).run? altered = some other ∧
      (assembly.launch signal now).Isolates output events altered last other := by
  have steps := Relay.run?_eq_some_iff.mp ran
  obtain ⟨other, otherSteps, ends, journal, heard⟩ := steps.alike rfl same
  have history : ((assembly.launch signal now).history altered).map (Occurrence.forget output) =
      ((assembly.launch signal now).history events).map (Occurrence.forget output) := by
    rw [steps.history_eq, otherSteps.history_eq, filterMap_occurrence?_forget,
      filterMap_occurrence?_forget, journal]
  have offered (target : Nat) :
      ((assembly.launch signal now).history altered).filterMap (Occurrence.offer? target) =
        ((assembly.launch signal now).history events).filterMap (Occurrence.offer? target) :=
    filterMap_eq_of_alike (fun occurrence => by cases occurrence <;> rfl) history
  have decisions :
      ((assembly.launch signal now).journal altered).filterMap JournalEntry.decision? =
        ((assembly.launch signal now).journal events).filterMap JournalEntry.decision? :=
    filterMap_eq_of_alike (JournalEntry.decision?_forget output) journal
  refine ⟨other, Relay.run?_eq_some_iff.mpr otherSteps, ?_⟩
  constructor
  case handled =>
    exact filterMap_eq_of_alike (fun occurrence => by cases occurrence <;> rfl) history
  case stages =>
    have stages := congrArg Relay.stages ends
    exact stages
  case offered => exact offered
  case offered_once =>
    exact otherSteps.routed_perm (Relay.launch_quiet assembly signal now)
  case state => exact ends
  case accepted_elsewhere =>
    intro target different
    exact filterMap_eq_of_alike (Occurrence.accepted?_forget different) history
  case outcomes_length =>
    rw [← otherSteps.outcomes, ← offered, filterMap_offer?, List.length_map, List.length_map]
  case accepted_here => rw [otherSteps.accepted_eq, offered]
  case tally =>
    have failed := filterMap_eq_of_alike (JournalEntry.failed?_forget output) journal
    have closed := filterMap_eq_of_alike (JournalEntry.closed?_forget output) journal
    rw [steps.launched_tally, otherSteps.launched_tally, decisions, failed, closed]
  case writes =>
    have given := steps.countP_settled
    have otherGiven := otherSteps.countP_settled
    have flying := congrArg Relay.framesInFlight ends
    rw [Relay.framesInFlight_forget, Relay.framesInFlight_forget] at flying
    dsimp only at given otherGiven
    rw [decisions, flying] at otherGiven
    simp only [steps.launched_tally, otherSteps.launched_tally, Counter.ofNat,
      ← UInt64.ofNat_add]
    congr 1
    omega
  case reports => exact ⟨steps.reports, otherSteps.reports⟩
  case reports_elsewhere =>
    rw [Relay.reported, Relay.reported, List.filter_flatMap, List.filter_flatMap]
    exact flatMap_eq_of_alike (Relay.filter_reportsOf_forget _) heard
  case reports_here =>
    intro listens
    have all := (otherSteps.heard_eq_journal listens).2
    have reported : ((assembly.launch signal now).reported altered |>.filter
        fun (report : Report) => report.output? = some output).map Report.failure =
        ((((assembly.launch signal now).journal altered).flatMap
          JournalEntry.settled).filterMap (Write.refusal? output)).map
            ((assembly.launch signal now).refusalAt output) := by
      rw [Relay.reported, all, List.filter_flatMap, List.map_flatMap, List.filterMap_flatMap,
        List.map_flatMap]
      simp only [Relay.filter_reportsOf]
    rw [reported, ← List.map_append]
    exact otherSteps.refusals_perm.map _

/-- Two frames of two readers, under broadcast; the second output refuses one of them, and
in the other run it refuses neither. -/
theorem Assembly.run_isolates_output_refusing :
    let first : Inlet := .ofItems [.frame (Sample.get 97)]
    let second : Inlet := .ofItems [.frame (Sample.get 98)]
    let assembly : Assembly :=
      ⟨⟨Sample.filter, .ofPolicy .broadcast⟩, [("a", first), ("b", second)], ["x", "y"], true⟩
    let launched := assembly.launch .lowered 0
    let run (refusal : Option IoError) : List Event :=
      [.take 0, .take 1, .write 1 1 none, .write 0 1 refusal, .write 0 0 none, .land 0,
        .write 1 0 (some .rejectedWrite), .land 1, .leave 0]
    ∃ last other, launched.run? (run none) = some last ∧
      launched.run? (run (some .rejectedWrite)) = some other ∧
      launched.Isolates 1 (run none) (run (some .rejectedWrite)) last other ∧
      last.reports = [.outputWrite "x" .rejectedWrite] ∧
      other.reports = [.outputWrite "y" .rejectedWrite, .outputWrite "x" .rejectedWrite] := by
  intro first second assembly launched run
  have runs : (launched.run? (run none)).isSome = true := by decide +kernel
  obtain ⟨last, ran⟩ := Option.isSome_iff_exists.mp runs
  have same : (run (some .rejectedWrite)).map (Event.forget 1) =
      (run none).map (Event.forget 1) := rfl
  obtain ⟨other, otherRan, isolates⟩ :=
    Assembly.run_isolates_output assembly .lowered 0 1 ran same
  have heard : (launched.run? (run none)).map Relay.reports =
      some [.outputWrite "x" .rejectedWrite] := by decide +kernel
  have otherHeard : (launched.run? (run (some .rejectedWrite))).map Relay.reports =
      some [.outputWrite "y" .rejectedWrite, .outputWrite "x" .rejectedWrite] := by
    decide +kernel
  rw [ran, Option.map_some] at heard
  rw [otherRan, Option.map_some] at otherHeard
  exact ⟨last, other, ran, otherRan, isolates, Option.some.inj heard,
    Option.some.inj otherHeard⟩

end TrafficRelay
