import TrafficRelay.Proofs.Landings
import TrafficRelay.Proofs.OfferedFrames
import TrafficRelay.Proofs.SessionRest
import TrafficRelay.Proofs.VerdictCounts

/-!
# Cancellation

While the signal is raised no reader takes anything, so nothing more is decided and what
is queued remains where it is.  A frame that is in flight by then is still written to
every output it was routed to, and its writes are counted and reported when it lands,
which its reader has to wait for before it can close.  Nothing stands in the way of that:
only a relay whose readers are all closed has nothing left to do.
-/

namespace TrafficRelay

/-- The writes of a frame that a reader lands. -/
def JournalEntry.landing? (index : Nat) : JournalEntry → Option (List Write)
  | .landed reader writes => if reader = index then some writes else none
  | .occurred _ | .left _ | .closed _ => none

/-- The frames that land, each with its writes. -/
def Yield.landings : Yield (List Write) := ⟨fun _ => [], fun _ => [], fun writes => [writes]⟩

theorem Yield.flatMap_landings (index : Nat) (entries : List JournalEntry) :
    entries.flatMap (Yield.landings.ofEntry index) =
      entries.filterMap (JournalEntry.landing? index) := by
  rw [List.filterMap_eq_flatMap_toList]
  apply List.flatMap_congr
  intro entry _
  rcases entry with (_ | _ | _ | _) | ⟨reader, writes⟩ | _ | _
  case landed =>
    by_cases own : reader = index <;>
      simp [ofEntry, landings, JournalEntry.landing?, own]
  all_goals simp [ofEntry, landings, JournalEntry.landing?]

/-- Where nothing is taken, nothing falls due. -/
theorem Yield.due_eq_nil {α : Type} {yield : Yield α} {index : Nat}
    {happened : List Occurrence}
    (untaken : happened.filterMap (Occurrence.taken? index) = []) :
    yield.due index happened = [] := by
  induction happened with
  | nil => rfl
  | cons occurrence later induction =>
      obtain ⟨here, others⟩ :=
        List.forall_mem_cons.mp (List.filterMap_eq_nil_iff.mp untaken)
      have rest := induction (List.filterMap_eq_nil_iff.mpr others)
      cases occurrence with
      | handled handling =>
          have foreign : handling.reader ≠ index := by
            intro own
            simp [Occurrence.taken?, own] at here
          simp [due, foreign, rest]
      | readFailed reader error =>
          have foreign : reader ≠ index := by
            intro own
            simp [Occurrence.taken?, own] at here
          simp [due, foreign, rest]
      | offered reader output frame refusal => exact rest
      | queued input item => exact rest

namespace Relay

/-- The signal is raised wherever a run stands. -/
def StaysRaised (relay : Relay) (events : List Event) : Prop :=
  ∀ earlier later state, events = earlier ++ later → relay.run? earlier = some state →
    state.signal.isRaised = true

/-- How a run goes on from a state of the relay while the signal is raised. -/
structure Drains (relay : Relay) (events : List Event) (last : Relay) : Prop where
  /-- No reader takes a frame, or runs into an error. -/
  untaken (input : Nat) : (relay.history events).filterMap (Occurrence.taken? input) = []
  /-- The verdicts on record and the turns of the router remain. -/
  stages : last.stages = relay.stages
  /-- Only the writes of frames that land and the readers that close are counted. -/
  tally :
    last.tally =
      { relay.tally with
        writes := relay.tally.writes.add
          (.ofNat ((relay.settled events).countP Write.isAccepted))
        writeFailures := relay.tally.writeFailures.add
          (.ofNat ((relay.settled events).countP Write.isRefused))
        inputsClosed := relay.tally.inputsClosed.add
          (.ofNat ((relay.journal events).filterMap JournalEntry.closed?).length) }
  /-- Only the failures of these writes are reported, each to whoever has listened so far. -/
  reports :
    last.listening = true →
      last.reports = relay.reports ++ (relay.settled events).filterMap relay.writeFailure?
  /-- What is queued remains so, and what is sent besides comes after it. -/
  queued (input : Nat) :
    last.queued input =
      relay.queued input ++ (relay.history events).filterMap (Occurrence.sent? input)
  /-- An output is offered frames that were already in flight, each of them once. -/
  offered (output : Nat) :
    AlikeBy Prod.fst
      ((relay.history events).filterMap (Occurrence.offer? output) ++ last.awaiting output)
      (relay.awaiting output)
  /-- As long as a frame has not landed, its writes are those that it was given, ended as
  far as they have been attempted. -/
  inFlight {index : Nat} {before now : Reader} :
    relay.readers[index]? = some before → last.readers[index]? = some now →
      now.isInFlight = true →
      before.isInFlight = true ∧
        now.writes = before.writes.map (Write.endedBy
          (attemptsBy index (relay.history events))) ∧
        (relay.journal events).filterMap (JournalEntry.landing? index) = []
  /-- A reader is done with a frame when this has landed, which it does once, after all of
  its writes. -/
  landed {index : Nat} {before now : Reader} :
    relay.readers[index]? = some before → last.readers[index]? = some now →
      before.isInFlight = true → now.isInFlight = false →
      let ended := before.writes.map (Write.endedBy
        (attemptsBy index (relay.history events)))
      (relay.journal events).filterMap (JournalEntry.landing? index) = [ended] ∧
        ∀ write ∈ ended, write.state ≠ .pending
  /-- Where no frame was in flight, none lands. -/
  unlanded {index : Nat} {before : Reader} :
    relay.readers[index]? = some before → before.isInFlight = false →
      (relay.journal events).filterMap (JournalEntry.landing? index) = []
  /-- Left to itself the relay comes to rest, and by then every reader has closed. -/
  rests {later : List Event} {final : Relay} :
    last.run? later = some final →
      (∀ event ∈ later, event.fromOutside = false ∧ event.feeds = false) →
      later.length ≤ last.work ∧
        ((∀ event, event.fromOutside = false → event.feeds = false →
            final.step? event = none) → final.allClosed = true)

variable {relay next last : Relay} {event : Event} {events : List Event}

theorem StaysRaised.here (raised : relay.StaysRaised events) :
    relay.signal.isRaised = true :=
  raised [] events relay rfl rfl

theorem StaysRaised.later (raised : relay.StaysRaised (event :: events))
    (step : Step relay event next) : next.StaysRaised events := by
  intro earlier later state split ran
  refine raised (event :: earlier) later state (by rw [split, List.cons_append]) ?_
  exact run?_eq_some_iff.mpr (.step step (run?_eq_some_iff.mp ran))

/-- A raised signal stays raised unless it is taken back. -/
theorem Step.raised (step : Step relay event next) (raised : relay.signal.isRaised = true)
    (kept : event ≠ .setSignal false) : next.signal.isRaised = true := by
  cases step with
  | takeFrame found idle lowered read => simpa [setReader, report_eq, decideFrame] using raised
  | takeFailure found idle lowered read => simpa [setReader, report_eq] using raised
  | land found phase finished => simpa [setReader, report_eq] using raised
  | @setSignal value heard =>
      cases value with
      | true => rfl
      | false => exact (kept rfl).elim
  | dropSignal => simp [Signal.isRaised]
  | _ => exact raised

theorem Steps.raised (steps : Steps relay events last) (raised : relay.signal.isRaised = true)
    (kept : ∀ event ∈ events, event ≠ .setSignal false) : last.signal.isRaised = true := by
  induction steps with
  | done relay => exact raised
  | step step steps induction =>
      obtain ⟨here, others⟩ := List.forall_mem_cons.mp kept
      exact induction (step.raised raised here) others

theorem staysRaised_of_kept (raised : relay.signal.isRaised = true)
    (kept : ∀ event ∈ events, event ≠ .setSignal false) : relay.StaysRaised events := by
  intro earlier later state split ran
  refine (run?_eq_some_iff.mp ran).raised raised fun event member => kept event ?_
  rw [split]
  exact List.mem_append_left later member

/-- Nothing is taken while the signal is raised. -/
theorem Step.untaken (step : Step relay event next) (raised : relay.signal.isRaised = true)
    (input : Nat) : (relay.occurrences event).filterMap (Occurrence.taken? input) = [] := by
  cases step with
  | takeFrame found idle lowered read =>
      rw [raised] at lowered
      cases lowered
  | takeFailure found idle lowered read =>
      rw [raised] at lowered
      cases lowered
  | write found phase pending => simp [occurrences, found, phase, Occurrence.taken?]
  | send found accepts => simp [occurrences, Relay.accepts, found, accepts, Occurrence.taken?]
  | sendLost refused => simp [occurrences, refused]
  | _ => rfl

theorem Steps.untaken (steps : Steps relay events last) (raised : relay.StaysRaised events)
    (input : Nat) : (relay.history events).filterMap (Occurrence.taken? input) = [] := by
  induction steps with
  | done relay => rfl
  | step step steps induction =>
      rw [step.history_cons, List.filterMap_append, step.untaken raised.here,
        induction (raised.later step), List.append_nil]

/-- What is picked from a history in which nothing is taken, if it is picked from what is
taken. -/
theorem Steps.picked_eq_nil {α : Type} {pick : Occurrence → Option α}
    (steps : Steps relay events last) (raised : relay.StaysRaised events)
    (taken : ∀ occurrence, occurrence.taken? occurrence.reader = none →
      pick occurrence = none) :
    (relay.history events).filterMap pick = [] := by
  refine List.filterMap_eq_nil_iff.mpr fun occurrence member => taken occurrence ?_
  exact List.filterMap_eq_nil_iff.mp (steps.untaken raised occurrence.reader) occurrence member

theorem Steps.unhandled (steps : Steps relay events last)
    (raised : relay.StaysRaised events) :
    (relay.history events).filterMap Occurrence.handling? = [] := by
  refine steps.picked_eq_nil raised fun occurrence untaken => ?_
  cases occurrence with
  | handled handling => simp [Occurrence.taken?, Occurrence.reader] at untaken
  | _ => rfl

theorem Steps.unfailed (steps : Steps relay events last) (raised : relay.StaysRaised events) :
    (relay.history events).filterMap Occurrence.failedReader? = [] := by
  refine steps.picked_eq_nil raised fun occurrence untaken => ?_
  cases occurrence with
  | readFailed reader error => simp [Occurrence.taken?, Occurrence.reader] at untaken
  | _ => rfl

theorem Steps.unrouted (steps : Steps relay events last) (raised : relay.StaysRaised events)
    (output : Nat) : (relay.history events).filterMap (Occurrence.routed? output) = [] := by
  refine steps.picked_eq_nil raised fun occurrence untaken => ?_
  cases occurrence with
  | handled handling => simp [Occurrence.taken?, Occurrence.reader] at untaken
  | _ => rfl

/-- Whatever is counted, but for the readers that close, is a write of a frame that was in
flight. -/
theorem Steps.drained_tally (steps : Steps relay events last)
    (raised : relay.StaysRaised events) :
    last.tally =
      { relay.tally with
        writes := relay.tally.writes.add
          (.ofNat ((relay.settled events).countP Write.isAccepted))
        writeFailures := relay.tally.writeFailures.add
          (.ofNat ((relay.settled events).countP Write.isRefused))
        inputsClosed := relay.tally.inputsClosed.add
          (.ofNat ((relay.journal events).filterMap JournalEntry.closed?).length) } := by
  rw [steps.tally, Tally.foldl_post, steps.decisions_eq, steps.failed_eq,
    steps.unhandled raised, steps.unfailed raised]
  simp [settled]

/-- Whoever still listens has been told of the writes that failed, and of nothing else. -/
theorem Steps.drained_reports (steps : Steps relay events last)
    (raised : relay.StaysRaised events) (listens : last.listening = true) :
    last.reports = relay.reports ++ (relay.settled events).filterMap relay.writeFailure? := by
  have untaken : ∀ entry ∈ relay.journal events, ∀ occurrence,
      entry.occurrence? = some occurrence → occurrence.taken? occurrence.reader = none := by
    intro entry member occurrence occurred
    have happened : occurrence ∈ relay.history events := by
      rw [steps.history_eq]
      exact List.mem_filterMap.mpr ⟨entry, member, occurred⟩
    exact List.filterMap_eq_nil_iff.mp (steps.untaken raised occurrence.reader) occurrence
      happened
  rw [steps.reports_of_listening listens, settled, List.filterMap_flatMap]
  refine congrArg _ (List.flatMap_congr fun entry member => ?_)
  cases entry with
  | occurred occurrence =>
      have here := untaken _ member occurrence rfl
      cases occurrence with
      | handled handling => simp [Occurrence.taken?, Occurrence.reader] at here
      | readFailed reader error => simp [Occurrence.taken?, Occurrence.reader] at here
      | _ => rfl
  | landed reader writes =>
      simp [Relay.reportsOf, List.map_filterMap, Function.comp_def]
  | _ => rfl

/-- An output is offered frames that await it, and no others. -/
theorem Steps.drained_offers (steps : Steps relay events last)
    (raised : relay.StaysRaised events) (output : Nat) :
    AlikeBy Prod.fst
      ((relay.history events).filterMap (Occurrence.offer? output) ++ last.awaiting output)
      (relay.awaiting output) := by
  intro reader
  have carried := steps.held (carries_awaited reader output)
  rw [← List.filter_filterMap, ← List.filter_filterMap, steps.unrouted raised,
    List.filter_nil, List.append_nil] at carried
  rw [List.filter_append, filter_awaiting, filter_awaiting]
  exact carried.symm

/-- A reader lands a frame when none of its writes is pending. -/
theorem Step.landed (step : Step relay event next) {index : Nat} {writes : List Write}
    (landed : writes ∈ (relay.entries event).filterMap (JournalEntry.landing? index)) :
    ∀ write ∈ writes, write.state ≠ .pending := by
  rcases step.turn with ⟨nothing, -⟩ | ⟨changing, reader, changed, -, turn, -⟩
  · rw [nothing] at landed
    cases landed
  · generalize relay.entries event = entries at turn landed
    obtain ⟨entry, journaled, picked⟩ := List.mem_filterMap.mp landed
    cases turn with
    | land phase finished =>
        cases List.mem_singleton.mp journaled
        obtain ⟨-, same⟩ := Option.ite_none_right_eq_some.mp picked
        cases same
        exact finished
    | endInput => cases journaled
    | _ =>
        cases List.mem_singleton.mp journaled
        cases picked

theorem Steps.landed (steps : Steps relay events last) {index : Nat} {writes : List Write}
    (landed : writes ∈ (relay.journal events).filterMap (JournalEntry.landing? index)) :
    ∀ write ∈ writes, write.state ≠ .pending := by
  induction steps with
  | done relay => cases landed
  | step step steps induction =>
      rw [step.journal_cons, List.filterMap_append] at landed
      rcases List.mem_append.mp landed with now | later
      · exact step.landed now
      · exact induction later

/-- What a reader lands and what it then has in flight is the frame that it had in flight,
its writes being ended by the attempts that have been made. -/
theorem Steps.landings (steps : Steps relay events last) (raised : relay.StaysRaised events)
    (index : Nat) :
    (relay.journal events).filterMap (JournalEntry.landing? index) ++
        Yield.landings.held index [] last =
      Yield.landings.held index (attemptsBy index (relay.history events)) relay := by
  rw [← Yield.flatMap_landings, steps.yields,
    Yield.due_eq_nil (steps.untaken raised index), List.append_nil]

/-- As long as not every reader is closed, there is something to do. -/
theorem allClosed_of_rest (raised : relay.signal.isRaised = true)
    (rest : ∀ event next, Step relay event next →
      event.fromOutside = true ∨ event.feeds = true) :
    relay.allClosed = true := by
  refine List.all_eq_true.mpr fun reader member => decide_eq_true ?_
  obtain ⟨index, found⟩ := List.getElem?_of_mem member
  cases phase : reader.phase with
  | idle => simpa [Event.fromOutside, Event.feeds] using rest _ _ (.leave found phase (.inl raised))
  | inFlight frame writes =>
      by_cases finished : ∀ write ∈ writes, write.state ≠ .pending
      · simpa [Event.fromOutside, Event.feeds] using rest _ _ (.land found phase finished)
      · push Not at finished
        obtain ⟨⟨output, state⟩, listed, pending⟩ := finished
        obtain rfl : state = .pending := pending
        simpa [Event.fromOutside, Event.feeds] using
          rest (.write index output none) _ (.write found phase listed)
  | leaving => simpa [Event.fromOutside, Event.feeds] using rest _ _ (.close found phase)
  | closed => rfl

theorem Steps.length_le_work (steps : Steps relay events last)
    (own : ∀ event ∈ events, event.fromOutside = false ∧ event.feeds = false) :
    events.length + last.work ≤ relay.work := by
  induction steps with
  | done relay => exact Nat.le_of_eq (Nat.zero_add _)
  | step step steps induction =>
      obtain ⟨⟨inner, notFed⟩, others⟩ := List.forall_mem_cons.mp own
      have now := step.work_lt inner notFed
      have later := induction others
      rw [List.length_cons]
      omega

/-- Left to itself a relay whose signal is raised comes to rest, and its readers are closed
then. -/
theorem Steps.rests_closed (steps : Steps relay events last)
    (raised : relay.signal.isRaised = true)
    (own : ∀ event ∈ events, event.fromOutside = false ∧ event.feeds = false) :
    events.length ≤ relay.work ∧
      ((∀ event, event.fromOutside = false → event.feeds = false →
          last.step? event = none) → last.allClosed = true) := by
  refine ⟨Nat.le_of_add_right_le (steps.length_le_work own), fun rest => ?_⟩
  have kept : ∀ event ∈ events, event ≠ .setSignal false := by
    rintro event member rfl
    cases (own _ member).1
  refine allClosed_of_rest (steps.raised raised kept) ?_
  intro event next step
  by_contra possible
  push Not at possible
  obtain ⟨inner, notFed⟩ := possible
  have none := rest event (by simpa using inner) (by simpa using notFed)
  rw [step?_eq_some_iff.mpr step] at none
  cases none

/-- What a reader has in flight amounts to its writes, ended by the attempts. -/
theorem held_landings {index : Nat} {reader : Reader}
    (found : relay.readers[index]? = some reader) (attempts : List (Nat × Option IoError)) :
    Yield.landings.held index attempts relay =
      if reader.isInFlight then [reader.writes.map (Write.endedBy attempts)] else [] := by
  unfold Yield.held Relay.held
  rw [found, Option.map_some, Option.getD_some, Reader.isInFlight, Reader.writes]
  cases reader.phase <;> simp [Yield.ofPhase, Yield.landings]

theorem Steps.drains (steps : Steps relay events last) (raised : relay.StaysRaised events) :
    relay.Drains events last where
  untaken := steps.untaken raised
  stages := by
    have processes := steps.processes
    rw [steps.unhandled raised] at processes
    generalize last.stages = stages at processes ⊢
    cases processes
    rfl
  tally := steps.drained_tally raised
  reports := steps.drained_reports raised
  queued input := by
    have carried := steps.held (carries_items input)
    rw [steps.untaken raised, List.nil_append] at carried
    exact carried.symm
  offered := steps.drained_offers raised
  inFlight := by
    intro index before now found present flying
    have landings := steps.landings raised index
    rw [held_landings found, held_landings present, if_pos flying] at landings
    split at landings
    · rename_i flew
      rw [← List.nil_append [before.writes.map _]] at landings
      obtain ⟨none, same⟩ := List.append_inj' landings rfl
      rw [Write.endedBy_nil, List.map_id] at same
      exact ⟨flew, List.singleton_inj.mp same, none⟩
    · cases (List.append_eq_nil_iff.mp landings).2
  landed := by
    intro index before now found present flew grounded ended
    have landings := steps.landings raised index
    rw [held_landings found, held_landings present, if_pos flew, if_neg (by simp [grounded]),
      List.append_nil] at landings
    have member : ended ∈ (relay.journal events).filterMap (JournalEntry.landing? index) := by
      rw [landings]
      exact List.mem_singleton_self _
    exact ⟨landings, steps.landed member⟩
  unlanded := by
    intro index before found grounded
    have landings := steps.landings raised index
    rw [held_landings found, if_neg (by simp [grounded])] at landings
    exact (List.append_eq_nil_iff.mp landings).1
  rests ran own := by
    have still := raised events [] last (List.append_nil events).symm
      (run?_eq_some_iff.mpr steps)
    exact (run?_eq_some_iff.mp ran).rests_closed still own

end Relay

/-- What becomes of a relay that is launched under a raised signal. -/
structure Assembly.ClosesUnread (assembly : Assembly) (happened : List Occurrence)
    (last : Relay) : Prop where
  tally :
    last.tally =
      { Tally.zero with
        inputsStarted := .ofNat assembly.inputs.length
        inputsClosed := .ofNat last.closedReaders }
  closed : last.allClosed = true → last.closedReaders = assembly.inputs.length
  unoffered (output : Nat) : happened.filterMap (Occurrence.offer? output) = []

theorem Relay.Steps.closesUnread {assembly : Assembly} {signal : Signal} {now : Instant}
    {events : List Event} {last : Relay}
    (steps : Relay.Steps (assembly.launch signal now) events last)
    (raised : (assembly.launch signal now).StaysRaised events) :
    assembly.ClosesUnread ((assembly.launch signal now).history events) last where
  tally := by
    have given := steps.countP_settled
    dsimp only at given
    rw [steps.decisions_eq, steps.unhandled raised] at given
    obtain ⟨settled, -⟩ := Nat.add_eq_zero_iff.mp given
    obtain ⟨accepted, refused⟩ := Nat.add_eq_zero_iff.mp settled
    rw [steps.launched_tally, steps.decisions_eq, steps.failed_eq, steps.closedReaders_eq,
      steps.unhandled raised, steps.unfailed raised, accepted, refused]
    rfl
  closed := steps.closedReaders_of_allClosed
  unoffered output := by
    have offered := (steps.drained_offers raised output).perm
    rw [(launch_quiet assembly signal now).awaiting_eq_nil] at offered
    exact (List.append_eq_nil_iff.mp offered.eq_nil).1

/-- However a relay has come to where it is, while the signal is raised nothing more is
taken and what is in flight is completed. -/
theorem Assembly.run_drains (assembly : Assembly) (signal : Signal) (now : Instant)
    {before events : List Event} {relay last : Relay}
    (reached : (assembly.launch signal now).run? before = some relay)
    (ran : relay.run? events = some last) (raised : relay.StaysRaised events) :
    relay.Drains events last ∧
      (before = [] → assembly.ClosesUnread (relay.history events) last) := by
  have steps := Relay.run?_eq_some_iff.mp ran
  refine ⟨steps.drains raised, ?_⟩
  rintro rfl
  obtain rfl : assembly.launch signal now = relay := Option.some.inj reached
  exact steps.closesUnread raised

/-- The signal is raised while one reader has written its frame to one of two outputs and
the other reader has not taken anything.  What is queued remains, whereas the second write
is made, and it fails.  Launched without anyone to raise the signal, the same relay closes
its inputs unread. -/
theorem Assembly.run_drains_mid_write :
    let first : Inlet := .ofItems [.frame (Sample.get 97), .frame (Sample.get 98)]
    let second : Inlet := .ofItems [.frame [33], .failure .rejectedWrite]
    let assembly : Assembly :=
      ⟨⟨Sample.filter, .ofPolicy .broadcast⟩, [("a", first), ("b", second)], ["x", "y"], true⟩
    let before : List Event := [.take 0, .write 0 0 none, .setSignal true]
    let events : List Event :=
      [.leave 1, .drain, .write 0 1 (some .rejectedWrite), .close 1, .land 0, .leave 0, .close 0]
    let closing : List Event := [.leave 1, .close 1, .leave 0, .close 0]
    (∃ relay last,
      (assembly.launch .lowered 0).run? before = some relay ∧ relay.run? events = some last ∧
        last.tally.toList.map Counter.toNat = [1, 0, 0, 1, 1, 1, 0, 2, 2] ∧
        last.reports = [.outputWrite "y" .rejectedWrite] ∧
        last.queued 0 = [.frame (Sample.get 98)] ∧ relay.Drains events last) ∧
      ∃ last, (assembly.launch ⟨false, false⟩ 0).run? closing = some last ∧
        last.tally.toList.map Counter.toNat = [0, 0, 0, 0, 0, 0, 0, 2, 2] ∧
        assembly.ClosesUnread ((assembly.launch ⟨false, false⟩ 0).history closing) last := by
  intro first second assembly before events closing
  constructor
  · have met : ((assembly.launch .lowered 0).run? before).map
        (fun relay => relay.signal.isRaised) = some true := by rfl
    obtain ⟨relay, reached, raised⟩ := Option.map_eq_some_iff.mp met
    have shown : (relay.run? events).map (fun last =>
        (last.tally.toList.map Counter.toNat, last.reports, last.queued 0)) =
          some ([1, 0, 0, 1, 1, 1, 0, 2, 2], [.outputWrite "y" .rejectedWrite],
            [.frame (Sample.get 98)]) := by
      cases reached
      rfl
    obtain ⟨last, ran, same⟩ := Option.map_eq_some_iff.mp shown
    obtain ⟨counters, same⟩ := Prod.mk.inj same
    obtain ⟨reports, queued⟩ := Prod.mk.inj same
    have drains := Assembly.run_drains assembly .lowered 0 reached ran
      (Relay.staysRaised_of_kept raised (by decide))
    exact ⟨relay, last, reached, ran, counters, reports, queued, drains.1⟩
  · have shown : ((assembly.launch ⟨false, false⟩ 0).run? closing).map
        (fun last => last.tally.toList.map Counter.toNat) =
          some [0, 0, 0, 0, 0, 0, 0, 2, 2] := by rfl
    obtain ⟨last, ran, counters⟩ := Option.map_eq_some_iff.mp shown
    have drains := @Assembly.run_drains assembly ⟨false, false⟩ 0 [] closing _ last rfl ran
      (Relay.staysRaised_of_kept rfl (by decide))
    exact ⟨last, ran, counters, drains.2 rfl⟩

end TrafficRelay
