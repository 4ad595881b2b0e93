import TrafficRelay.Proofs.AlikeRuns
import TrafficRelay.Proofs.OutputIsolation
import TrafficRelay.Proofs.StoppedReaders
import TrafficRelay.Proofs.TallyConservation

/-!
# Isolation of inputs

Let every input end where it would yield a read error.  The run goes on as before: the
reader leaves where it was stopped by the error, and nothing else changes but the counter
of read errors and the reports about them.
-/

namespace TrafficRelay

def Item.isFrame : Item → Bool
  | .frame _ => true
  | .failure _ => false

/-- A queue holds frames only, or it has a first read error. -/
theorem frames_or_failure (queue : List Item) :
    (∀ item ∈ queue, item.isFrame = true) ∨
      ∃ front error back, queue = front ++ .failure error :: back ∧
        ∀ item ∈ front, item.isFrame = true := by
  induction queue with
  | nil => exact Or.inl nofun
  | cons item queue induction =>
      cases item with
      | failure error => exact Or.inr ⟨[], error, queue, rfl, nofun⟩
      | frame frame =>
          rcases induction with frames | ⟨front, error, back, rfl, frames⟩
          · exact Or.inl (List.forall_mem_cons.mpr ⟨rfl, frames⟩)
          · exact Or.inr ⟨.frame frame :: front, error, back, rfl,
              List.forall_mem_cons.mpr ⟨rfl, frames⟩⟩

namespace Inlet

/-- The inlet that ends where this one yields a read error. -/
def untilFailure (inlet : Inlet) : Inlet where
  queue := inlet.queue.takeWhile Item.isFrame
  senders := if inlet.queue.all Item.isFrame then inlet.senders else 0

variable {inlet rest : Inlet} {queue front back : List Item} {senders : Nat} {error : IoError}

theorem untilFailure_of_frames (frames : ∀ item ∈ queue, item.isFrame = true) :
    untilFailure ⟨queue, senders⟩ = ⟨queue, senders⟩ := by
  have whole := @List.takeWhile_append_of_pos _ Item.isFrame queue [] frames
  rw [List.takeWhile_nil, List.append_nil] at whole
  rw [untilFailure, whole, if_pos (List.all_eq_true.mpr frames)]

theorem untilFailure_of_failure (frames : ∀ item ∈ front, item.isFrame = true) :
    untilFailure ⟨front ++ .failure error :: back, senders⟩ = ⟨front, 0⟩ := by
  have stops : (Item.failure error :: back).takeWhile Item.isFrame = [] :=
    List.takeWhile_cons_of_neg Bool.false_ne_true
  have failing : ¬(front ++ .failure error :: back).all Item.isFrame = true := by
    simp [Item.isFrame]
  rw [untilFailure, List.takeWhile_append_of_pos frames, stops, List.append_nil, if_neg failing]

theorem read_untilFailure {frame : Bytes} (read : inlet.read = .item (.frame frame) rest) :
    inlet.untilFailure.read = .item (.frame frame) rest.untilFailure := by
  obtain ⟨queue, senders⟩ := inlet
  cases queue with
  | nil => cases Relay.queue_of_read read
  | cons item queue =>
      cases read
      rcases frames_or_failure queue with frames | ⟨front, error, back, rfl, frames⟩
      · rw [untilFailure_of_frames frames,
          untilFailure_of_frames (List.forall_mem_cons.mpr ⟨rfl, frames⟩)]
        rfl
      · rw [untilFailure_of_failure frames, ← List.cons_append,
          untilFailure_of_failure (List.forall_mem_cons.mpr ⟨rfl, frames⟩)]
        rfl

theorem untilFailure_of_ended (ended : inlet.read = .ended) :
    inlet.untilFailure.read = .ended := by
  rw [Inlet.eq_of_ended ended]
  rfl

/-- Where the inlet yields an error, the other one has ended. -/
theorem read_untilFailure_of_failure (read : inlet.read = .item (.failure error) rest) :
    inlet.untilFailure.read = .ended := by
  obtain ⟨queue, senders⟩ := inlet
  obtain rfl : queue = .failure error :: rest.queue := Relay.queue_of_read read
  have cut := @untilFailure_of_failure [] rest.queue senders error nofun
  rw [List.nil_append] at cut
  rw [cut]
  rfl

theorem push_untilFailure (inlet : Inlet) (frame : Bytes) :
    (inlet.push (.frame frame)).untilFailure = inlet.untilFailure.push (.frame frame) := by
  obtain ⟨queue, senders⟩ := inlet
  rcases frames_or_failure queue with frames | ⟨front, error, back, rfl, frames⟩
  · rw [untilFailure_of_frames frames]
    unfold push
    split
    · exact untilFailure_of_frames frames
    · refine untilFailure_of_frames (List.forall_mem_append.mpr ⟨frames, ?_⟩)
      exact List.forall_mem_singleton.mpr rfl
  · rw [untilFailure_of_failure frames]
    unfold push
    split
    · exact untilFailure_of_failure frames
    · rw [List.append_assoc, List.cons_append]
      exact untilFailure_of_failure frames

theorem push_failure_untilFailure (inlet : Inlet) (error : IoError) :
    (inlet.push (.failure error)).untilFailure = inlet.untilFailure.close := by
  obtain ⟨queue, senders⟩ := inlet
  rcases frames_or_failure queue with frames | ⟨front, cause, back, rfl, frames⟩
  · rw [untilFailure_of_frames frames]
    unfold push
    split
    · rename_i ended
      rw [untilFailure_of_frames frames, close, ← ended]
    · exact untilFailure_of_failure frames
  · rw [untilFailure_of_failure frames]
    unfold push
    split
    · exact untilFailure_of_failure frames
    · rw [List.append_assoc, List.cons_append]
      exact untilFailure_of_failure frames

theorem close_untilFailure (inlet : Inlet) :
    inlet.close.untilFailure = inlet.untilFailure.close := by
  simp [untilFailure, Inlet.close]

end Inlet

/-- Whether the next item of a reader is a read error. -/
def Reader.failsNext (reader : Reader) : Bool :=
  match reader.inlet.read with
  | .item (.failure _) _ => true
  | .item (.frame _) _ | .pending | .ended => false

namespace Relay

/-- What happens instead of an event: a reader that would run into an error leaves, and an
input that would be sent an error ends. -/
def sparing (relay : Relay) : Event → Event
  | .take index =>
      if relay.readers[index]?.any Reader.failsNext then .leave index else .take index
  | .send input (.failure _) => .endInput input
  | event => event

/-- The events of a run with every read error replaced by the end of its input. -/
def sparingAll (relay : Relay) : List Event → List Event
  | [] => []
  | event :: events =>
      relay.sparing event ::
        match relay.step? event with
        | some next => next.sparingAll events
        | none => []

theorem Step.sparingAll_cons {relay next : Relay} {event : Event}
    (step : Step relay event next) (events : List Event) :
    relay.sparingAll (event :: events) = relay.sparing event :: next.sparingAll events := by
  rw [sparingAll, step?_eq_some_iff.mpr step]

end Relay

/-- The relay whose inputs end where they would yield read errors. -/
def Assembly.untilFailures (assembly : Assembly) : Assembly :=
  { assembly with
    inputs := assembly.inputs.map fun (name, inlet) => (name, inlet.untilFailure) }

/-- Everything is equal, but for the inlets that end at a read error. -/
def Whitelist.sparing (whitelist : Whitelist) : Likeness where
  whitelist := whitelist
  frames := Eq
  errors := Eq
  causes := Eq
  items item other := item.isFrame = true ∧ other = item
  inlets inlet other := other = inlet.untilFailure
  failed index entry := entry = .left index

namespace Whitelist

variable {whitelist : Whitelist}

theorem sparing_decisions (decision : Decision) :
    whitelist.sparing.Decisions decision decision := by
  cases decision with
  | malformed error => exact .malformed rfl
  | filtered => exact .filtered
  | routed outputs => exact .routed outputs

theorem sparing_lawful (whitelist : Whitelist) : whitelist.sparing.Lawful where
  decide := by
    rintro stages frame _ outputs now - rfl
    exact ⟨sparing_decisions _, rfl⟩
  readFrame := by
    rintro inlet _ rest frame rfl read
    exact ⟨frame, rest.untilFailure, Inlet.read_untilFailure read, rfl, rfl⟩
  readEnded := by
    rintro inlet _ rfl ended
    exact Inlet.untilFailure_of_ended ended
  push := by
    rintro inlet _ _ item rfl ⟨isFrame, rfl⟩
    cases item with
    | frame frame => exact (Inlet.push_untilFailure inlet frame).symm
    | failure error => cases isFrame
  close := by
    rintro inlet _ rfl
    exact (Inlet.close_untilFailure inlet).symm

theorem sparing_causes (refusal : Option IoError) :
    Option.Rel whitelist.sparing.causes refusal refusal := by
  cases refusal with
  | none => exact .none
  | some cause => exact .some rfl

section

variable {relay other next last : Relay} {event : Event} {events : List Event}

/-- Where the one reader runs into a read error, the other leaves. -/
theorem sparing_takeFailure (alike : whitelist.sparing.Relays relay other) {index : Nat}
    {reader : Reader} {error : IoError} {inlet : Inlet}
    (found : relay.readers[index]? = some reader) (idle : reader.phase = .idle)
    (read : reader.inlet.read = .item (.failure error) inlet)
    (step : Relay.Step relay (.take index) next) :
    ∃ follower, Relay.Step other (.leave index) follower ∧
      whitelist.sparing.Relays next follower ∧
      List.Forall₂ whitelist.sparing.Entries (relay.deedsOf (.take index))
        (other.deedsOf (.leave index)) := by
  obtain ⟨counterpart, present, readers⟩ := exists_of_forall₂ alike.readers found
  obtain ⟨idles, cut⟩ := readers.phase_eq_idle idle
  have ended : counterpart.inlet.read = .ended := by
    rw [cut]
    exact Inlet.read_untilFailure_of_failure read
  refine ⟨_, .leave present idles (.inr ended), ?_, ?_⟩
  · cases step with
    | takeFrame listed _ _ readFrame =>
        obtain rfl := Option.some.inj (found.symm.trans listed)
        rw [read] at readFrame
        cases readFrame
    | takeFailure listed _ _ readFailure =>
        have counted (tally : Tally) (failures : List Failure) :
            whitelist.sparing.Relays (Relay.report { relay with tally } failures) other := by
          rw [Relay.report_eq]
          exact { alike with }
        refine (counted _ _).setReader ?_ index
        exact ⟨.leaving, nofun⟩
  · rw [Relay.deedsOf, Relay.entries_takeFailure found read]
    exact .cons (.readFailed rfl) .nil

/-- Where a read error is sent to the one input, the other ends. -/
theorem sparing_sendFailure (alike : whitelist.sparing.Relays relay other) (input : Nat)
    (error : IoError) :
    whitelist.sparing.Relays (relay.send input (.failure error)) (other.endInput input) := by
  cases found : relay.readers[input]? with
  | none =>
      unfold Relay.send Relay.endInput
      rw [found, getElem?_eq_none_of_forall₂ alike.readers found]
      exact alike
  | some reader =>
      obtain ⟨counterpart, present, readers⟩ := exists_of_forall₂ alike.readers found
      rw [Relay.send_eq found, Relay.endInput, present]
      split
      · rename_i active
        refine alike.setReader ?_ input
        refine ⟨readers.phases, fun _ => ?_⟩
        rw [readers.inlets active]
        exact (Inlet.push_failure_untilFailure reader.inlet error).symm
      · rename_i inactive
        rw [← Relay.setReader_self found]
        refine alike.setReader ?_ input
        exact ⟨readers.phases, fun active => (inactive active).elim⟩

/-- Whatever happens, the relay that is spared its read errors goes along. -/
theorem sparing_step (alike : whitelist.sparing.Relays relay other)
    (step : Relay.Step relay event next) :
    ∃ follower, Relay.Step other (relay.sparing event) follower ∧
      whitelist.sparing.Relays next follower ∧
      List.Forall₂ whitelist.sparing.Entries (relay.deedsOf event)
        (other.deedsOf (relay.sparing event)) := by
  have lawful := sparing_lawful whitelist
  by_cases failing : ∃ index error, .occurred (.readFailed index error) ∈ relay.entries event
  · obtain ⟨index, error, failed⟩ := failing
    obtain rfl := Relay.take_of_readFailed failed
    have taken := step
    cases taken with
    | takeFrame found idle lowered read =>
        rw [Relay.entries_takeFrame found read] at failed
        cases List.mem_singleton.mp failed
    | takeFailure found idle lowered read =>
        have fails : relay.sparing (.take index) = .leave index := by
          simp [Relay.sparing, found, Reader.failsNext, read]
        rw [fails]
        exact sparing_takeFailure alike found idle read step
  · push Not at failing
    cases event with
    | take index =>
        have kept : relay.sparing (.take index) = .take index := by
          cases step with
          | takeFrame found idle lowered read =>
              simp [Relay.sparing, found, Reader.failsNext, read]
          | @takeFailure _ _ error _ found idle lowered read =>
              rw [Relay.entries_takeFailure found read] at failing
              exact (failing index error (List.mem_singleton_self _)).elim
        rw [kept]
        exact alike.plain lawful step rfl failing
    | send input item =>
        cases item with
        | frame frame => exact alike.step lawful step (.send input ⟨rfl, rfl⟩) failing
        | failure error =>
            obtain rfl : relay.send input (.failure error) = next :=
              Option.some.inj (Relay.step?_eq_some_iff.mpr step)
            refine ⟨_, Relay.step_endInput other input, sparing_sendFailure alike input error, ?_⟩
            rw [Relay.deedsOf_send]
            exact .nil
    | write index output refusal =>
        exact alike.step lawful step (.write index output (sparing_causes refusal)) failing
    | _ => exact alike.plain lawful step rfl failing

theorem sparing_follows (steps : Relay.Steps relay events last)
    (alike : whitelist.sparing.Relays relay other) :
    ∃ follower, Relay.Steps other (relay.sparingAll events) follower ∧
      whitelist.sparing.Relays last follower ∧
      List.Forall₂ whitelist.sparing.Entries (relay.deeds events)
        (other.deeds (relay.sparingAll events)) := by
  induction steps generalizing other with
  | done relay => exact ⟨other, .done other, alike, .nil⟩
  | step step steps induction =>
      obtain ⟨follower, stepOther, relays, now⟩ := sparing_step alike step
      obtain ⟨final, stepsOther, finals, later⟩ := induction relays
      rw [step.sparingAll_cons]
      refine ⟨final, .step stepOther stepsOther, finals, ?_⟩
      rw [step.deeds_cons, stepOther.deeds_cons]
      exact List.rel_append now later

end

end Whitelist

/-- The entry of a reader that leaves instead of running into an error. -/
def JournalEntry.spared : JournalEntry → JournalEntry
  | .occurred (.readFailed reader _) => .left reader
  | entry => entry

namespace Whitelist

variable {whitelist : Whitelist}

theorem sparing_write {write other : Write} (alike : whitelist.sparing.Writes write other) :
    other = write := by
  cases alike with
  | pending output => rfl
  | accepted output => rfl
  | refused output same =>
      obtain rfl := same
      rfl

theorem sparing_entry {entry other : JournalEntry}
    (alike : whitelist.sparing.Entries entry other) : other = entry.spared := by
  cases alike with
  | handled frames decisions =>
      obtain rfl := frames
      cases decisions with
      | malformed same =>
          obtain rfl := same
          rfl
      | filtered => rfl
      | routed outputs => rfl
  | readFailed left => exact left
  | offered frames causes =>
      obtain rfl := frames
      cases causes with
      | none => rfl
      | some same =>
          obtain rfl := same
          rfl
  | landed writes =>
      rw [eq_map_of_forall₂ writes sparing_write, List.map_id']
      rfl
  | left index => rfl
  | closed index => rfl

theorem sparing_deeds {entries others : List JournalEntry}
    (alike : List.Forall₂ whitelist.sparing.Entries entries others) :
    others = entries.map JournalEntry.spared :=
  eq_map_of_forall₂ alike sparing_entry

end Whitelist

/-- Sparing the readers their errors does not change what else is counted. -/
theorem Tally.foldl_post_spared (tally : Tally) (count : Counter) (entries : List JournalEntry) :
    (entries.map JournalEntry.spared).foldl post { tally with readFailures := count } =
      { entries.foldl post tally with readFailures := count } := by
  induction entries generalizing tally with
  | nil => rfl
  | cons entry entries induction =>
      have here : post { tally with readFailures := count } entry.spared =
          { post tally entry with readFailures := count } := by
        rcases entry with (handling | _ | _ | _) | ⟨reader, writes⟩ | _ | _
        case occurred.handled =>
          rcases decision : handling.decision with _ | _ | _ | _ <;>
            simp only [JournalEntry.spared, post, decision, addDecision] <;> rfl
        case landed =>
          simp only [JournalEntry.spared, post, foldl_addWrite]
        all_goals rfl
      rw [List.map_cons, List.foldl_cons, List.foldl_cons, here, induction]

def Failure.isInputRead : Failure → Bool
  | .inputRead _ _ => true
  | .malformedRecord _ | .noMethod | .outputWrite _ _ | .settings _ => false

namespace Relay

variable {relay other : Relay}

/-- The report about an input that yields a read error. -/
def readFailure? (relay : Relay) : Occurrence → Option Failure
  | .readFailed reader error => some (.inputRead (relay.inputName reader) error)
  | .handled _ | .offered _ _ _ _ | .queued _ _ => none

theorem isInputRead_of_writeFailure? {write : Write} {failure : Failure}
    (made : relay.writeFailure? write = some failure) : failure.isInputRead = false := by
  unfold writeFailure? at made
  split at made
  · cases made
    rfl
  · cases made
  · cases made

/-- There is nothing to report about a reader that is spared its error, and for the rest the
reports are the same. -/
theorem reportsOf_spared (outputs : other.outputs = relay.outputs) (entry : JournalEntry) :
    (other.reportsOf entry.spared).map Report.failure =
      ((relay.reportsOf entry).map Report.failure).filter fun failure =>
        !failure.isInputRead := by
  have failures : other.writeFailure? = relay.writeFailure? := by
    funext write
    rw [writeFailure?, writeFailure?, outputs]
  rcases entry with (handling | _ | _ | _) | ⟨reader, writes⟩ | _ | _
  case occurred.handled =>
    rcases decision : handling.decision with _ | _ | _ <;>
      simp [JournalEntry.spared, reportsOf, decision, decisionFailures, Failure.isInputRead,
        Failure.ofHeaderError]
  case landed =>
    simp only [JournalEntry.spared, reportsOf, failures]
    refine (List.filter_eq_self.mpr fun failure member => ?_).symm
    obtain ⟨report, listed, rfl⟩ := List.mem_map.mp member
    obtain ⟨write, -, made⟩ := List.mem_filterMap.mp listed
    obtain ⟨failure, found, rfl⟩ := Option.map_eq_some_iff.mp made
    rw [isInputRead_of_writeFailure? found]
    rfl
  all_goals rfl

theorem filter_reportsOf_isInputRead (relay : Relay) (entry : JournalEntry) :
    ((relay.reportsOf entry).map Report.failure).filter Failure.isInputRead =
      (entry.occurrence?.bind relay.readFailure?).toList := by
  rcases entry with (handling | _ | _ | _) | ⟨reader, writes⟩ | _ | _
  case occurred.handled =>
    rcases decision : handling.decision with _ | _ | _ <;>
      simp [reportsOf, decision, decisionFailures, Failure.isInputRead, Failure.ofHeaderError,
        readFailure?, JournalEntry.occurrence?]
  case landed =>
    refine List.filter_eq_nil_iff.mpr fun failure member => ?_
    obtain ⟨report, listed, rfl⟩ := List.mem_map.mp member
    obtain ⟨write, -, made⟩ := List.mem_filterMap.mp listed
    obtain ⟨failure, found, rfl⟩ := Option.map_eq_some_iff.mp made
    simp [isInputRead_of_writeFailure? found]
  all_goals rfl

variable {last : Relay} {events : List Event}

/-- There is nothing to report about the filling of inlets. -/
theorem Steps.reports_of_deeds (steps : Steps relay events last)
    (listens : last.listening = true) :
    last.reports = relay.reports ++
      (relay.deeds events).flatMap fun entry => (relay.reportsOf entry).map Report.failure := by
  rw [steps.reports_of_listening listens, deeds]
  refine congrArg _ ?_
  generalize relay.journal events = entries
  induction entries with
  | nil => rfl
  | cons entry entries induction =>
      rw [List.flatMap_cons, List.filter_cons, induction]
      rcases entry with (_ | _ | _ | _) | _ | _ | _ <;> rfl

/-- How a run compares with the one in which every read error is replaced by the end of its
input. -/
structure IsolatesInputs (launched : Relay) (events : List Event) (last : Relay)
    (others : List Occurrence) (spared : Relay) : Prop where
  handled :
    others.filterMap Occurrence.handling? =
      (launched.history events).filterMap Occurrence.handling?
  /-- The same frames are offered to an output in the same order and with the same
  outcomes. -/
  attempted (output : Nat) :
    others.filterMap (Occurrence.attempt? output) =
      (launched.history events).filterMap (Occurrence.attempt? output)
  accepted (output : Nat) :
    others.filterMap (Occurrence.accepted? output) =
      (launched.history events).filterMap (Occurrence.accepted? output)
  stages : spared.stages = last.stages
  lifecycle : spared.lifecycle = last.lifecycle
  tally : spared.tally = { last.tally with readFailures := .zero }
  readFailures :
    last.tally.readFailures =
      .ofNat ((launched.history events).filterMap Occurrence.failedReader?).length
  nodup_failed : ((launched.history events).filterMap Occurrence.failedReader?).Nodup
  /-- The reports that remain are those about anything but read errors, and there is one
  more for each input that has reached its error. -/
  reports :
    last.listening = true →
      spared.reports = last.reports.filter (fun failure => !failure.isInputRead) ∧
        last.reports.filter Failure.isInputRead =
          (launched.history events).filterMap launched.readFailure?
  /-- Nothing is taken from behind an error. -/
  behind {input : Nat} {front back : List Item} {error : IoError} :
    (launched.history events).filterMap (Occurrence.taken? input) =
      front ++ .failure error :: back → back = []
  /-- Every other reader reads its input to the end, unless the signal is raised. -/
  ended {index : Nat} {reader : Reader} :
    last.readers[index]? = some reader → reader.isActive = false →
      index ∉ (launched.history events).filterMap Occurrence.failedReader? →
      launched.GetsRaised events ∨
        reader.inlet.senders = 0 ∧
          (launched.history events).filterMap (Occurrence.taken? index) =
            launched.queued index ++ (launched.history events).filterMap (Occurrence.sent? index)
  /-- Until then, nothing keeps it from taking what is queued. -/
  reads {index : Nat} {reader : Reader} :
    last.readers[index]? = some reader → reader.phase = .idle → reader.inlet.queue ≠ [] →
      last.signal.isRaised = false → ∃ next, last.step? (.take index) = some next

theorem exists_take (relay : Relay) {index : Nat} {reader : Reader}
    (found : relay.readers[index]? = some reader) (idle : reader.phase = .idle)
    (queued : reader.inlet.queue ≠ []) (lowered : relay.signal.isRaised = false) :
    ∃ next, relay.step? (.take index) = some next := by
  obtain ⟨item, queue, same⟩ := List.exists_cons_of_ne_nil queued
  have read : reader.inlet.read = .item item { reader.inlet with queue } := by
    rw [Inlet.read, same]
  cases item with
  | frame frame => exact ⟨_, step?_eq_some_iff.mpr (.takeFrame found idle lowered read)⟩
  | failure error => exact ⟨_, step?_eq_some_iff.mpr (.takeFailure found idle lowered read)⟩

/-- What has been put into an inlet that has ended has been taken. -/
theorem Steps.taken_of_ended (steps : Steps relay events last) {index : Nat} {reader : Reader}
    (found : last.readers[index]? = some reader) (ended : reader.inlet = ⟨[], 0⟩) :
    (relay.history events).filterMap (Occurrence.taken? index) =
      relay.queued index ++ (relay.history events).filterMap (Occurrence.sent? index) := by
  have carried := steps.held (carries_items index)
  have empty : last.held Reader.items index = [] := by
    simp [Relay.held, found, Reader.items, ended]
  rw [empty, List.append_nil] at carried
  exact carried.symm

/-- A reader that has stopped, though not by an error, has stopped because the signal was
raised, or it has come to the end of its input. -/
theorem Steps.raised_or_ended {assembly : Assembly} {signal : Signal} {now : Instant}
    (steps : Steps (assembly.launch signal now) events last) {index : Nat} {reader : Reader}
    (found : last.readers[index]? = some reader) (inactive : reader.isActive = false)
    (unfailed : index ∉
      ((assembly.launch signal now).history events).filterMap Occurrence.failedReader?) :
    let launched := assembly.launch signal now
    launched.GetsRaised events ∨
      reader.inlet.senders = 0 ∧
        (launched.history events).filterMap (Occurrence.taken? index) =
          launched.queued index ++
            (launched.history events).filterMap (Occurrence.sent? index) := by
  intro launched
  have inRange : index < launched.readers.length := by
    rw [← steps.length_readers]
    exact (List.getElem?_eq_some_iff.mp found).1
  have active : launched.readers[index].isActive = true := by
    simp [launched, Assembly.launch, Reader.isActive]
  rcases steps.stops (List.getElem?_eq_getElem inRange) active found inactive unfailed with
    raised | exhausted
  · exact Or.inl raised
  · refine Or.inr ⟨?_, steps.taken_of_ended found exhausted⟩
    rw [exhausted]

end Relay

theorem Assembly.launch_sparing (assembly : Assembly) (signal : Signal) (now : Instant) :
    assembly.stages.filter.whitelist.sparing.Relays (assembly.launch signal now)
      (assembly.untilFailures.launch signal now) where
  readers := by
    unfold Assembly.launch Assembly.untilFailures
    rw [List.map_map, List.forall₂_map_left_iff, List.forall₂_map_right_iff, List.forall₂_same]
    exact fun _ _ => ⟨.idle, fun _ => rfl⟩
  outputs := rfl
  whitelist := rfl
  stages := rfl
  signal := rfl
  lifecycle := rfl
  listening := rfl
  clock := rfl

/-- The readers that are stopped by read errors leave no other trace than these errors. -/
theorem Assembly.run_isolates_inputs (assembly : Assembly) (signal : Signal) (now : Instant)
    {events : List Event} {last : Relay}
    (ran : (assembly.launch signal now).run? events = some last) :
    let launched := assembly.launch signal now
    let altered := launched.sparingAll events
    let others := (assembly.untilFailures.launch signal now).history altered
    ∃ spared, (assembly.untilFailures.launch signal now).run? altered = some spared ∧
      launched.IsolatesInputs events last others spared := by
  intro launched altered others
  have steps := Relay.run?_eq_some_iff.mp ran
  obtain ⟨spared, stepsOther, relays, alike⟩ :=
    Whitelist.sparing_follows steps (assembly.launch_sparing signal now)
  have deeds := Whitelist.sparing_deeds alike
  have picked {α : Type} {pick : Occurrence → Option α}
      (unqueued : ∀ input item, pick (.queued input item) = none)
      (unfailed : ∀ reader error, pick (.readFailed reader error) = none) :
      others.filterMap pick = (launched.history events).filterMap pick := by
    rw [steps.filterMap_deeds unqueued, stepsOther.filterMap_deeds unqueued, deeds,
      List.filterMap_map]
    apply List.filterMap_congr
    rintro ((_ | ⟨reader, error⟩ | _ | _) | _ | _ | _) -
    case occurred.readFailed => exact (unfailed reader error).symm
    all_goals rfl
  refine ⟨spared, Relay.run?_eq_some_iff.mpr stepsOther, ?_⟩
  constructor
  case handled => exact picked (fun _ _ => rfl) fun _ _ => rfl
  case attempted => exact fun output => picked (fun _ _ => rfl) fun _ _ => rfl
  case accepted => exact fun output => picked (fun _ _ => rfl) fun _ _ => rfl
  case stages => exact relays.stages
  case lifecycle => exact relays.lifecycle
  case tally =>
    have counters : (assembly.untilFailures.launch signal now).tally =
        { launched.tally with readFailures := .zero } := by
      simp only [launched, Assembly.launch, Assembly.untilFailures, List.length_map]
      rfl
    rw [stepsOther.foldl_deeds, deeds, counters, Tally.foldl_post_spared, ← steps.foldl_deeds]
  case readFailures => rw [steps.tally_eq]
  case nodup_failed => exact steps.nodup_failed
  case reports =>
    intro listens
    have listensOther : spared.listening = true := relays.listening.trans listens
    have unreported (signal : Signal) (assembly : Assembly) :
        (assembly.launch signal now).reports = [] := rfl
    rw [steps.reports_of_deeds listens, stepsOther.reports_of_deeds listensOther, deeds,
      steps.filterMap_deeds fun _ _ => rfl, unreported, unreported, List.nil_append,
      List.nil_append, List.filter_flatMap, List.filter_flatMap, List.flatMap_map,
      List.filterMap_eq_flatMap_toList]
    have outputs : (assembly.untilFailures.launch signal now).outputs = launched.outputs := rfl
    refine ⟨List.flatMap_congr fun entry _ => ?_, List.flatMap_congr fun entry _ => ?_⟩
    · exact Relay.reportsOf_spared outputs entry
    · exact launched.filter_reportsOf_isInputRead entry
  case behind => exact steps.behind
  case ended =>
    intro index reader found inactive unfailed
    exact steps.raised_or_ended found inactive unfailed
  case reads => exact last.exists_take

/-- One input holds a read error between two frames, another is sent an error while it is
open, and a third one comes to its end. -/
theorem Assembly.run_isolates_inputs_failing :
    let first : Inlet :=
      .ofItems [.frame (Sample.get 97), .failure .rejectedWrite, .frame (Sample.get 98)]
    let assembly : Assembly :=
      ⟨⟨Sample.filter, .ofPolicy .broadcast⟩,
        [("a", first), ("b", ⟨[.frame (Sample.get 99)], 1⟩), ("c", .ofItems [.frame [33]])],
        ["x"], true⟩
    let launched := assembly.launch .lowered 0
    let events : List Event :=
      [.take 0, .send 1 (.failure .notFound), .write 0 0 none, .land 0, .take 0, .take 1,
        .write 1 0 none, .take 2, .land 1, .take 1, .leave 2]
    let altered : List Event :=
      [.take 0, .endInput 1, .write 0 0 none, .land 0, .leave 0, .take 1,
        .write 1 0 none, .take 2, .land 1, .leave 1, .leave 2]
    launched.sparingAll events = altered ∧
      ∃ last spared, launched.run? events = some last ∧
        (assembly.untilFailures.launch .lowered 0).run? altered = some spared ∧
        last.tally.toList.map Counter.toNat = [3, 1, 0, 2, 2, 0, 2, 3, 0] ∧
        last.reports.filter Failure.isInputRead =
          [.inputRead "a" .rejectedWrite, .inputRead "b" .notFound] ∧
        launched.IsolatesInputs events last
          ((assembly.untilFailures.launch .lowered 0).history altered) spared := by
  intro first assembly launched events altered
  have same : launched.sparingAll events = altered := by decide +kernel
  have shown : (launched.run? events).map (fun last =>
      (last.tally.toList.map Counter.toNat, last.reports.filter Failure.isInputRead)) =
        some ([3, 1, 0, 2, 2, 0, 2, 3, 0],
          [.inputRead "a" .rejectedWrite, .inputRead "b" .notFound]) := by decide +kernel
  obtain ⟨last, ran, counted⟩ := Option.map_eq_some_iff.mp shown
  obtain ⟨counters, failures⟩ := Prod.mk.inj counted
  obtain ⟨spared, ranOther, isolates⟩ := Assembly.run_isolates_inputs assembly .lowered 0 ran
  rw [same] at ranOther isolates
  exact ⟨same, last, spared, ran, ranOther, counters, failures, isolates⟩

end TrafficRelay
