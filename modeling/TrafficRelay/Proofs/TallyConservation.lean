import Mathlib.Algebra.BigOperators.Group.Finset.Piecewise
import TrafficRelay.Proofs.JournalCounts

/-!
# Conservation of the tally

Wherever a run stands, its counters agree with what has happened and with each other.
Frames are conserved: each one that was received is malformed, filtered, forwarded, or
allowed with nowhere to go.  So are writes: each frame that was forwarded and is no
longer in flight has been counted once for every output that it went to.  And so are
the inputs: each is counted once when it is started and once when it is closed.
-/

namespace TrafficRelay

/-- Whether the frame is no record. -/
def Handling.isUnreadable (handling : Handling) : Bool :=
  match Record.decode handling.frame with
  | .error _ => true
  | .ok _ => false

namespace Relay

def closedReaders (relay : Relay) : Nat :=
  relay.readers.countP fun reader => reader.phase = .closed

/-- Whether a reader has been stopped by an error and has yet to close. -/
def IsFailing (relay : Relay) (happened : List Occurrence) (index : Nat) : Prop :=
  index ∈ happened.filterMap Occurrence.failedReader? ∧
    relay.readers[index]?.map Reader.phase = some .leaving

end Relay

/-- The tally of a relay agrees with what has happened since it was launched.  Sums of
counters are sums of words, which wrap around. -/
structure Assembly.Conserves (assembly : Assembly) (happened : List Occurrence)
    (last : Relay) : Prop where
  received :
    last.tally.received = .ofNat (happened.filterMap Occurrence.handling?).length
  malformed :
    last.tally.malformed =
      .ofNat ((happened.filterMap Occurrence.handling?).countP Handling.isUnreadable)
  forwarded :
    last.tally.forwarded =
      .ofNat (if assembly.outputs = [] then 0 else (assembly.allowed happened).length)
  frames :
    last.tally.received.value =
      last.tally.malformed.value + last.tally.filtered.value + last.tally.forwarded.value +
        .ofNat (if assembly.outputs = [] then (assembly.allowed happened).length else 0)
  /-- Of the writes of the frames that were forwarded, those of the frames in flight have
  yet to be counted. -/
  writes :
    last.tally.writes.value + last.tally.writeFailures.value +
        .ofNat (assembly.fanout * last.framesInFlight) =
      .ofNat assembly.fanout * last.tally.forwarded.value
  /-- A frame contributes to the writes and their failures when it lands. -/
  landing {index : Nat} {next : Relay} :
    last.step? (.land index) = some next →
      next.tally.writes.value + next.tally.writeFailures.value =
        last.tally.writes.value + last.tally.writeFailures.value + .ofNat assembly.fanout
  settled :
    last.Quiet →
      last.tally.writes.value + last.tally.writeFailures.value =
        .ofNat assembly.fanout * last.tally.forwarded.value
  accepted :
    last.Quiet →
      last.tally.writes = .ofNat (∑ output ∈ Finset.range assembly.outputs.length,
        (happened.filterMap (Occurrence.accepted? output)).length)
  withoutOutputs :
    assembly.outputs = [] →
      last.tally.forwarded = .zero ∧ last.tally.writes = .zero ∧
        last.tally.writeFailures = .zero
  readFailures :
    last.tally.readFailures = .ofNat (happened.filterMap Occurrence.failedReader?).length
  inputsClosed : last.tally.inputsClosed = .ofNat last.closedReaders
  inputsStarted : last.tally.inputsStarted = .ofNat assembly.inputs.length
  closedReaders_le : last.closedReaders ≤ assembly.inputs.length
  failedReaders_le :
    (∀ index, ¬ last.IsFailing happened index) →
      (happened.filterMap Occurrence.failedReader?).length ≤ last.closedReaders
  /-- With no more inputs than a counter can show, the counters themselves are in this
  order. -/
  counters_le :
    assembly.inputs.length < 2 ^ 64 →
      last.tally.inputsClosed.toNat ≤ last.tally.inputsStarted.toNat ∧
        ((∀ index, ¬ last.IsFailing happened index) →
          last.tally.readFailures.toNat ≤ last.tally.inputsClosed.toNat)
  allClosed : last.allClosed = true → last.tally.inputsClosed = last.tally.inputsStarted

theorem Counter.toNat_ofNat {count : Nat} (small : count < 2 ^ 64) :
    (Counter.ofNat count).toNat = count :=
  (UInt64.toNat_ofNat').trans (Nat.mod_eq_of_lt small)

/-- Every frame is malformed, filtered or passed on. -/
theorem length_eq_countP_decision (handlings : List Handling) :
    handlings.length =
      (handlings.map Handling.decision).countP Decision.isMalformed +
        (handlings.map Handling.decision).countP Decision.isFiltered +
        (handlings.filterMap Handling.passed?).length := by
  induction handlings with
  | nil => rfl
  | cons handling handlings induction =>
      rw [List.length_cons, List.map_cons, List.countP_cons, List.countP_cons, induction,
        List.filterMap_cons]
      cases decision : handling.decision <;>
        simp [Handling.passed?, decision, Decision.isMalformed, Decision.isFiltered] <;>
        omega

namespace Stages

variable {outputs : Nat} {stages last : Stages} {handlings : List Handling}

theorem Processes.countP_isMalformed (processes : stages.Processes outputs handlings last) :
    (handlings.map Handling.decision).countP Decision.isMalformed =
      handlings.countP Handling.isUnreadable := by
  induction processes with
  | done stages => rfl
  | malformed decoded decision others induction =>
      rw [List.map_cons, List.countP_cons, List.countP_cons, induction]
      simp [decision, decoded, Decision.isMalformed, Handling.isUnreadable]
  | filtered decoded judged decision others induction =>
      rw [List.map_cons, List.countP_cons, List.countP_cons, induction]
      simp [decision, decoded, Decision.isMalformed, Handling.isUnreadable]
  | routed decoded judged routing decision others induction =>
      rw [List.map_cons, List.countP_cons, List.countP_cons, induction]
      simp [decision, decoded, Decision.isMalformed, Handling.isUnreadable]

/-- Every frame that is passed on is forwarded, unless there are no outputs. -/
theorem Processes.countP_isForwarded (processes : stages.Processes outputs handlings last) :
    (handlings.map Handling.decision).countP Decision.isForwarded =
      if outputs = 0 then 0 else (handlings.filterMap Handling.passed?).length := by
  have length {handling : Handling} (member : handling ∈ handlings) {selected : List Nat}
      (routed : handling.decision = .routed selected) :=
    processes.length_selected member routed
  rw [List.countP_map]
  split
  · rename_i absent
    refine List.countP_eq_zero.mpr fun handling member => ?_
    rcases decision : handling.decision with error | _ | selected
    · simp [decision, Decision.isForwarded, Decision.outputs]
    · simp [decision, Decision.isForwarded, Decision.outputs]
    · have none := length member decision
      rw [if_pos absent] at none
      simp [decision, Decision.isForwarded, Decision.outputs, List.length_eq_zero_iff.mp none]
  · rename_i present
    rw [List.length_filterMap_eq_countP]
    refine List.countP_congr fun handling member => ?_
    rcases decision : handling.decision with error | _ | selected
    · simp [decision, Decision.isForwarded, Decision.outputs, Handling.passed?]
    · simp [decision, Decision.isForwarded, Decision.outputs, Handling.passed?]
    · have some := length member decision
      rw [if_neg present] at some
      have positive := stages.router.policy.fanout_pos (Nat.pos_of_ne_zero present)
      have nonempty : selected ≠ [] := by
        rintro rfl
        exact absurd some (Nat.ne_of_lt positive)
      simp [decision, Decision.isForwarded, Decision.outputs, Handling.passed?, nonempty]

end Stages

namespace Relay

variable {relay last : Relay} {event : Event} {events : List Event}
  {assembly : Assembly} {signal : Signal} {now : Instant}

/-- With no frame in flight, every accepted write has been counted. -/
theorem Steps.countP_isAccepted (steps : Steps (assembly.launch signal now) events last)
    (quiet : last.Quiet) :
    let journal := (assembly.launch signal now).journal events
    (journal.flatMap JournalEntry.settled).countP Write.isAccepted =
      (journal.filterMap JournalEntry.finished?).countP Write.isAccepted := by
  intro journal
  have none {relay : Relay} (quiet : relay.Quiet) :
      relay.total (fun _ reader => reader.writes.countP Write.isAccepted) = 0 := by
    apply total_eq_zero
    intro index reader found
    rw [quiet.writes_eq_nil (List.mem_of_getElem? found), List.countP_nil]
  have balanced := steps.total (launch_sound assembly signal now)
    (balances_finished Write.isAccepted fun _ => rfl)
  rw [none (launch_quiet assembly signal now), none quiet, Nat.zero_add, Nat.add_zero,
    sum_countP_toList] at balanced
  rw [balanced, List.countP_flatMap]
  rfl

/-- Readers that have closed stay closed. -/
theorem Steps.closedReaders_eq (steps : Steps (assembly.launch signal now) events last) :
    ((assembly.launch signal now).journal events |>.filterMap JournalEntry.closed?).length =
      last.closedReaders := by
  have balanced := steps.total (launch_sound assembly signal now) balances_closed
  have before : (assembly.launch signal now).total
      (fun _ reader => if reader.phase = .closed then 1 else 0) = 0 := by
    apply total_eq_zero
    intro index reader found
    obtain ⟨entry, -, rfl⟩ := List.mem_map.mp (List.mem_of_getElem? found)
    rfl
  have after : last.total (fun _ reader => if reader.phase = .closed then 1 else 0) =
      last.closedReaders := by
    rw [total_eq_sum_map, closedReaders, ← Nat.one_mul (List.countP _ _)]
    apply sum_map_eq_mul_countP
    simp
  rw [before, after, ← List.length_flatMap, ← List.filterMap_eq_flatMap_toList] at balanced
  simpa using balanced

/-- Every reader that was stopped by an error has closed, unless it is about to. -/
theorem Steps.failed_le_closed (steps : Steps (assembly.launch signal now) events last)
    (landed : ∀ index,
      ¬ last.IsFailing ((assembly.launch signal now).history events) index) :
    ((assembly.launch signal now).history events |>.filterMap
        Occurrence.failedReader?).length ≤ last.closedReaders := by
  have stopped (entries : List JournalEntry) (index : Nat) :
      (entries.filterMap JournalEntry.failed?).count index ≤
        (entries.filterMap JournalEntry.stopped?).count index := by
    rw [List.count_filterMap, List.count_filterMap]
    refine List.countP_mono_left fun entry _ failed => ?_
    rcases entry with (_ | _ | _ | _) | _ | _ | _ <;> simp_all
  rw [← steps.closedReaders_eq, ← steps.failed_eq]
  apply List.Subperm.length_le
  rw [List.subperm_ext_iff]
  intro index failed
  have still : ¬ last.readers[index]?.map Reader.phase = some .leaving := by
    intro leaving
    rw [steps.failed_eq] at failed
    exact landed index ⟨failed, leaving⟩
  have after : last.total (fun other reader =>
      if other = index ∧ reader.phase = .leaving then 1 else 0) = 0 := by
    apply total_eq_zero
    intro other reader found
    refine if_neg ?_
    rintro ⟨rfl, leaving⟩
    exact still (by rw [found, Option.map_some, leaving])
  have balanced := steps.total (launch_sound assembly signal now) (balances_leaving index)
  simp only [List.count] at balanced ⊢
  rw [after, sum_countP_toList, sum_countP_toList] at balanced
  have all := stopped ((assembly.launch signal now).journal events) index
  simp only [List.count] at all
  omega

end Relay

/-- A write that is accepted is accepted by one of the outputs. -/
theorem Occurrence.sum_accepted? {occurrence : Occurrence} {outputs : Nat}
    (inRange : ∀ {reader output frame refusal},
      occurrence = .offered reader output frame refusal → output < outputs) :
    ∑ output ∈ Finset.range outputs, (occurrence.accepted? output).toList.length =
      (JournalEntry.occurred occurrence).finished?.toList.countP Write.isAccepted := by
  cases occurrence with
  | offered reader target frame refusal =>
      cases refusal with
      | none =>
          have once (output : Nat) :
              ((offered reader target frame none).accepted? output).toList.length =
                if target = output then 1 else 0 := by
            by_cases same : target = output <;> simp [accepted?, same]
          rw [Finset.sum_congr rfl fun output _ => once output, Finset.sum_ite_eq,
            if_pos (Finset.mem_range.mpr (inRange rfl))]
          rfl
      | some cause => exact Finset.sum_const_zero
  | _ => exact Finset.sum_const_zero

/-- The frames that outputs accept, counted output by output. -/
theorem sum_accepted {occurrences : List Occurrence} {outputs : Nat}
    (inRange : ∀ {reader output frame refusal},
      .offered reader output frame refusal ∈ occurrences → output < outputs) :
    ∑ output ∈ Finset.range outputs,
        (occurrences.filterMap (Occurrence.accepted? output)).length =
      (occurrences.filterMap fun occurrence =>
        (JournalEntry.occurred occurrence).finished?).countP Write.isAccepted := by
  simp only [List.filterMap_eq_flatMap_toList]
  induction occurrences with
  | nil => simp
  | cons occurrence occurrences induction =>
      have here : ∀ {reader output frame refusal},
          occurrence = .offered reader output frame refusal → output < outputs := by
        rintro reader output frame refusal rfl
        exact inRange List.mem_cons_self
      have others := induction fun member => inRange (List.mem_cons_of_mem occurrence member)
      simp only [List.flatMap_cons, List.length_append, List.countP_append,
        Finset.sum_add_distrib]
      rw [Occurrence.sum_accepted? here, others]

namespace Relay

variable {relay next last : Relay} {events : List Event} {assembly : Assembly}
  {signal : Signal} {now : Instant}

/-- Every frame that the filter allows is forwarded, unless there are no outputs. -/
theorem Steps.countP_isForwarded (steps : Steps (assembly.launch signal now) events last) :
    let launched := assembly.launch signal now
    ((launched.journal events).filterMap JournalEntry.decision?).countP Decision.isForwarded =
      if assembly.outputs = [] then 0
      else (assembly.allowed (launched.history events)).length := by
  intro launched
  have processes : assembly.stages.Processes assembly.outputs.length _ last.stages :=
    steps.processes
  rw [steps.decisions_eq, processes.countP_isForwarded, processes.length_passed]
  simp only [List.length_eq_zero_iff]
  rfl

/-- The counters of a relay show what has happened since it was launched. -/
theorem Steps.tally_eq (steps : Steps (assembly.launch signal now) events last) :
    let happened := (assembly.launch signal now).history events
    let handled := happened.filterMap Occurrence.handling?
    let writes := ((assembly.launch signal now).journal events).flatMap JournalEntry.settled
    last.tally =
      { received := .ofNat handled.length
        malformed := .ofNat (handled.countP Handling.isUnreadable)
        filtered := .ofNat ((handled.map Handling.decision).countP Decision.isFiltered)
        forwarded := .ofNat (if assembly.outputs = [] then 0
          else (assembly.allowed happened).length)
        writes := .ofNat (writes.countP Write.isAccepted)
        writeFailures := .ofNat (writes.countP Write.isRefused)
        readFailures := .ofNat (happened.filterMap Occurrence.failedReader?).length
        inputsStarted := .ofNat assembly.inputs.length
        inputsClosed := .ofNat last.closedReaders } := by
  intro happened handled writes
  have processes : assembly.stages.Processes assembly.outputs.length handled last.stages :=
    steps.processes
  rw [steps.launched_tally, steps.countP_isForwarded, steps.decisions_eq, steps.failed_eq,
    steps.closedReaders_eq, processes.countP_isMalformed, List.length_map]

theorem Steps.length_readers (steps : Steps relay events last) :
    last.readers.length = relay.readers.length := by
  induction steps with
  | done relay => rfl
  | step step steps induction => exact induction.trans step.reader_lt.2

theorem Steps.closedReaders_le (steps : Steps (assembly.launch signal now) events last) :
    last.closedReaders ≤ assembly.inputs.length := by
  calc last.closedReaders
      ≤ last.readers.length := List.countP_le_length
    _ = (assembly.launch signal now).readers.length := steps.length_readers
    _ = assembly.inputs.length := List.length_map _

theorem Steps.closedReaders_of_allClosed
    (steps : Steps (assembly.launch signal now) events last) (closed : last.allClosed = true) :
    last.closedReaders = assembly.inputs.length := by
  calc last.closedReaders
      = last.readers.length := List.countP_eq_length.mpr (List.all_eq_true.mp closed)
    _ = (assembly.launch signal now).readers.length := steps.length_readers
    _ = assembly.inputs.length := List.length_map _

theorem Step.land_writes {index : Nat} {policy : Policy} {count : Nat}
    (step : Step relay (.land index) next) (sound : relay.Sound policy count) :
    next.tally.writes.value + next.tally.writeFailures.value =
      relay.tally.writes.value + relay.tally.writeFailures.value +
        .ofNat (policy.fanout count) := by
  have tally := step.tally
  cases step with
  | @land index reader frame writes found phase finished =>
      have length := (sound.readers reader (List.mem_of_getElem? found)).length_writes
      have inFlight : reader.isInFlight = true := by rw [Reader.isInFlight, phase]
      rw [Reader.writes_of_inFlight phase, if_pos inFlight, Nat.mul_one,
        ← countP_isAccepted_add_countP_isRefused finished] at length
      rw [tally, entries_land found phase, List.foldl_cons, List.foldl_nil, Tally.post,
        Tally.foldl_addWrite, ← length, UInt64.ofNat_add]
      simp only [Counter.add]
      ac_rfl

end Relay

/-- Wherever a run stands, whatever the inputs, the outputs, the policy and the signal,
and however its readers and writes are interleaved, the tally is conserved. -/
theorem Assembly.run_conserves (assembly : Assembly) (signal : Signal) (now : Instant)
    {events : List Event} {last : Relay}
    (ran : (assembly.launch signal now).run? events = some last) :
    assembly.Conserves ((assembly.launch signal now).history events) last := by
  have steps := Relay.run?_eq_some_iff.mp ran
  have sound := Relay.launch_sound assembly signal now
  have processes : assembly.stages.Processes assembly.outputs.length _ last.stages :=
    steps.processes
  have tally := steps.tally_eq
  have given := steps.countP_settled
  dsimp only at tally given
  rw [steps.countP_isForwarded] at given
  have writes : last.tally.writes.value + last.tally.writeFailures.value +
        .ofNat (assembly.fanout * last.framesInFlight) =
      .ofNat assembly.fanout * last.tally.forwarded.value := by
    simp only [tally, Counter.ofNat, ← UInt64.ofNat_add, ← UInt64.ofNat_mul, given]
  constructor
  case received => rw [tally]
  case malformed => rw [tally]
  case forwarded => rw [tally]
  case frames =>
    have all := length_eq_countP_decision
      (((assembly.launch signal now).history events).filterMap Occurrence.handling?)
    rw [processes.countP_isMalformed, processes.length_passed] at all
    simp only [tally, Counter.ofNat, ← UInt64.ofNat_add]
    rw [all]
    unfold Assembly.allowed
    split <;> simp
  case writes => exact writes
  case landing =>
    intro index next stepped
    exact (Relay.step?_eq_some_iff.mp stepped).land_writes (steps.sound sound)
  case settled =>
    intro quiet
    rw [← writes, quiet.framesInFlight_eq]
    simp
  case accepted =>
    intro quiet
    rw [sum_accepted (steps.offered_lt sound), ← steps.finished_eq,
      ← steps.countP_isAccepted quiet, tally]
  case withoutOutputs =>
    intro absent
    rw [if_pos absent, Nat.mul_zero] at given
    obtain ⟨settled, -⟩ := Nat.add_eq_zero_iff.mp given
    obtain ⟨accepted, refused⟩ := Nat.add_eq_zero_iff.mp settled
    rw [tally, accepted, refused, if_pos absent]
    exact ⟨rfl, rfl, rfl⟩
  case readFailures => rw [tally]
  case inputsClosed => rw [tally]
  case inputsStarted => rw [tally]
  case closedReaders_le => exact steps.closedReaders_le
  case failedReaders_le => exact steps.failed_le_closed
  case counters_le =>
    intro small
    have closed := steps.closedReaders_le
    simp only [tally]
    rw [Counter.toNat_ofNat small, Counter.toNat_ofNat (by omega)]
    refine ⟨closed, fun landed => ?_⟩
    have failed := steps.failed_le_closed landed
    rw [Counter.toNat_ofNat (by omega)]
    exact failed
  case allClosed =>
    intro closed
    rw [tally, steps.closedReaders_of_allClosed closed]

/-- One frame has been written to two outputs, of which one refused it, and another is in
flight.  One of the readers has been stopped by an error and has closed. -/
theorem Assembly.run_conserves_in_flight :
    let first : Inlet := .ofItems [.frame (Sample.get 97), .frame [33], .failure .rejectedWrite]
    let second : Inlet := .ofItems [.frame (Sample.put 98), .frame (Sample.get 99)]
    let assembly : Assembly :=
      ⟨⟨Sample.filter, .ofPolicy .broadcast⟩, [("a", first), ("b", second)], ["x", "y"], true⟩
    let launched := assembly.launch .lowered 0
    let events : List Event :=
      [.take 0, .write 0 1 (some .rejectedWrite), .take 1, .take 1, .write 0 0 none,
        .write 1 0 none, .land 0, .take 0, .take 0, .close 0]
    ∃ last, launched.run? events = some last ∧ last.framesInFlight = 1 ∧
      last.tally.toList.map Counter.toNat = [4, 1, 1, 2, 1, 1, 1, 2, 1] ∧
      assembly.Conserves (launched.history events) last := by
  intro first second assembly launched events
  have runs : (launched.run? events).isSome = true := by rfl
  obtain ⟨last, ran⟩ := Option.isSome_iff_exists.mp runs
  have shown : ((launched.run? events).map fun relay =>
      (relay.framesInFlight, relay.tally.toList.map Counter.toNat)) =
        some (1, [4, 1, 1, 2, 1, 1, 1, 2, 1]) := by rfl
  rw [ran, Option.map_some] at shown
  obtain ⟨flying, counters⟩ := Prod.mk.inj (Option.some.inj shown)
  exact ⟨last, ran, flying, counters, Assembly.run_conserves assembly .lowered 0 ran⟩

end TrafficRelay
