import TrafficRelay.Proofs.RelayBalance

/-!
# Counting a journal

Each of the nine counters shows how often something stands in the journal, modulo the
size of a word.  What the counters have to do with each other comes from balances: of
the writes that frames were given, of the writes that passed some test, of the readers
that closed, and of those that are leaving.
-/

namespace TrafficRelay

namespace Occurrence

/-- A frame that an output accepts, with the reader that took it. -/
def accepted? (output : Nat) : Occurrence → Option (Nat × Bytes)
  | .offered reader target frame none => if target = output then some (reader, frame) else none
  | _ => none

/-- The reader that is stopped by an error. -/
def failedReader? : Occurrence → Option Nat
  | .readFailed reader _ => some reader
  | _ => none

end Occurrence

/-- How many outputs a frame is written to, if there are any. -/
def Assembly.fanout (assembly : Assembly) : Nat :=
  assembly.stages.router.policy.fanout assembly.outputs.length

namespace Counter

/-- What a counter shows after so many increments. -/
def ofNat (count : Nat) : Counter := ⟨.ofNat count⟩

theorem add_add (counter : Counter) (first second : Nat) :
    (counter.add (.ofNat first)).add (.ofNat second) =
      counter.add (.ofNat (first + second)) := by
  simp [add, UInt64.ofNat_add, UInt64.add_assoc]

@[simp] theorem add_zero (counter : Counter) : counter.add 0 = counter := by
  simp [add]

theorem add_one_add (counter : Counter) (count : Nat) :
    (counter.add 1).add (.ofNat count) = counter.add (.ofNat (count + 1)) := by
  rw [Nat.add_comm]
  exact add_add counter 1 count

theorem zero_add_ofNat (count : Nat) : zero.add (.ofNat count) = ofNat count := by
  simp [zero, add, ofNat]

end Counter

def Decision.isMalformed : Decision → Bool
  | .malformed _ => true
  | .filtered | .routed _ => false

def Decision.isFiltered : Decision → Bool
  | .filtered => true
  | .malformed _ | .routed _ => false

/-- The outputs that a frame goes to. -/
def Decision.outputs : Decision → List Nat
  | .routed outputs => outputs
  | .malformed _ | .filtered => []

def Decision.isForwarded (decision : Decision) : Bool := !decision.outputs.isEmpty

def Write.isAccepted (write : Write) : Bool := write.state = .accepted

def Write.isRefused (write : Write) : Bool :=
  match write.state with
  | .refused _ => true
  | .pending | .accepted => false

theorem countP_isAccepted_add_countP_isRefused {writes : List Write}
    (finished : ∀ write ∈ writes, write.state ≠ .pending) :
    writes.countP Write.isAccepted + writes.countP Write.isRefused = writes.length := by
  induction writes with
  | nil => rfl
  | cons write writes induction =>
      obtain ⟨here, others⟩ := List.forall_mem_cons.mp finished
      have rest := induction others
      rw [List.countP_cons, List.countP_cons, List.length_cons]
      cases state : write.state with
      | pending => exact absurd state here
      | accepted =>
          simp [Write.isAccepted, Write.isRefused, state]
          omega
      | refused cause =>
          simp [Write.isAccepted, Write.isRefused, state]
          omega

namespace JournalEntry

@[simp] def decision? : JournalEntry → Option Decision
  | .occurred (.handled handling) => some handling.decision
  | _ => none

/-- A write that finishes. -/
@[simp] def finished? : JournalEntry → Option Write
  | .occurred (.offered _ output _ refusal) => some ⟨output, .after refusal⟩
  | _ => none

/-- The writes of a frame that lands. -/
@[simp] def settled : JournalEntry → List Write
  | .landed _ writes => writes
  | _ => []

/-- The reader that is stopped by an error. -/
@[simp] def failed? : JournalEntry → Option Nat
  | .occurred (.readFailed reader _) => some reader
  | _ => none

/-- The reader that stops reading, for whatever reason. -/
@[simp] def stopped? : JournalEntry → Option Nat
  | .occurred (.readFailed reader _) | .left reader => some reader
  | _ => none

@[simp] def closed? : JournalEntry → Option Nat
  | .closed reader => some reader
  | _ => none

end JournalEntry

theorem sum_countP_toList {α β : Type} (pick : α → Option β) (test : β → Bool)
    (items : List α) :
    (items.map fun item => (pick item).toList.countP test).sum =
      (items.filterMap pick).countP test := by
  rw [List.filterMap_eq_flatMap_toList, List.countP_flatMap]
  rfl

theorem sum_map_eq_mul_countP {α : Type} {amount : α → Nat} {factor : Nat}
    {test : α → Bool} {items : List α}
    (same : ∀ item ∈ items, amount item = factor * if test item then 1 else 0) :
    (items.map amount).sum = factor * items.countP test := by
  induction items with
  | nil => rfl
  | cons item items induction =>
      obtain ⟨here, others⟩ := List.forall_mem_cons.mp same
      rw [List.map_cons, List.sum_cons, here, induction others, List.countP_cons,
        Nat.mul_add, Nat.add_comm]

namespace Tally

theorem foldl_addWrite (tally : Tally) (writes : List Write) :
    writes.foldl (fun tally write => tally.addWrite write.state) tally =
      { tally with
        writes := tally.writes.add (.ofNat (writes.countP Write.isAccepted))
        writeFailures := tally.writeFailures.add (.ofNat (writes.countP Write.isRefused)) } := by
  induction writes generalizing tally with
  | nil => simp
  | cons write writes induction =>
      rw [List.foldl_cons, induction, List.countP_cons, List.countP_cons]
      cases state : write.state <;>
        simp [addWrite, addWrites, addWriteFailures, Write.isAccepted, Write.isRefused, state,
          Counter.add_one_add]

/-- Every counter shows how often something stands in the journal. -/
theorem foldl_post (tally : Tally) (entries : List JournalEntry) :
    let decisions := entries.filterMap JournalEntry.decision?
    let writes := entries.flatMap JournalEntry.settled
    entries.foldl post tally =
      { received := tally.received.add (.ofNat decisions.length)
        malformed := tally.malformed.add (.ofNat (decisions.countP Decision.isMalformed))
        filtered := tally.filtered.add (.ofNat (decisions.countP Decision.isFiltered))
        forwarded := tally.forwarded.add (.ofNat (decisions.countP Decision.isForwarded))
        writes := tally.writes.add (.ofNat (writes.countP Write.isAccepted))
        writeFailures := tally.writeFailures.add (.ofNat (writes.countP Write.isRefused))
        readFailures := tally.readFailures.add
          (.ofNat (entries.filterMap JournalEntry.failed?).length)
        inputsStarted := tally.inputsStarted
        inputsClosed := tally.inputsClosed.add
          (.ofNat (entries.filterMap JournalEntry.closed?).length) } := by
  induction entries generalizing tally with
  | nil => simp
  | cons entry entries induction =>
      rw [List.foldl_cons, induction]
      cases entry with
      | occurred occurrence =>
          cases occurrence with
          | handled handling =>
              rcases decision : handling.decision with _ | _ | _ | ⟨first, others⟩ <;>
                simp [post, decision, addDecision, addReceived, addMalformed, addFiltered,
                  addForwarded, Decision.isMalformed, Decision.isFiltered,
                  Decision.isForwarded, Decision.outputs, Counter.add_one_add,
                  List.filterMap_cons, List.countP_cons]
          | readFailed reader error =>
              simp [post, addReadFailures, Counter.add_one_add, List.filterMap_cons]
          | offered reader output frame refusal => simp [post, List.filterMap_cons]
          | queued input item => simp [post, List.filterMap_cons]
      | landed reader writes =>
          simp [post, foldl_addWrite, Counter.add_add, List.filterMap_cons]
      | left reader => simp [post, List.filterMap_cons]
      | closed reader => simp [post, addClosed, Counter.add_one_add, List.filterMap_cons]

end Tally

namespace Stages

theorem Processes.length_outputs {outputs : Nat} {stages last : Stages}
    {handlings : List Handling} (processes : stages.Processes outputs handlings last)
    {handling : Handling} (member : handling ∈ handlings) :
    handling.decision.outputs.length =
      stages.router.policy.fanout outputs * if handling.decision.isForwarded then 1 else 0 := by
  rcases decision : handling.decision with error | _ | _ | ⟨first, others⟩
  · rfl
  · rfl
  · rfl
  · have length := processes.length_selected member decision
    split at length
    · cases length
    · simpa [Decision.isForwarded, Decision.outputs] using length

end Stages

namespace Relay

variable {policy : Policy} {outputs : Nat} {relay last : Relay} {events : List Event}
  {assembly : Assembly} {signal : Signal} {now : Instant}

/-- Of the outputs that frames go to, each is the output of a write in flight or of one
that landed, accepted or refused. -/
theorem balances_given :
    Balances policy outputs (fun _ reader => reader.writes.length)
      (fun entry => (entry.decision?.toList.flatMap Decision.outputs).length)
      (fun entry => entry.settled.countP Write.isAccepted +
        entry.settled.countP Write.isRefused) := by
  intro index reader changed entries sound turn
  cases turn with
  | occurs change =>
      cases change with
      | takeFrame instant decision idle read =>
          rcases decision with _ | _ | _ | ⟨first, others⟩ <;>
            simp [Reader.writes, idle, phaseAfter, Decision.outputs]
      | takeFailure idle read => simp [Reader.writes, idle]
      | write phase pending => simp [Reader.writes, phase]
      | send accepts => simp [Reader.writes]
  | land phase finished =>
      simp [Reader.writes, phase, countP_isAccepted_add_countP_isRefused finished]
  | leave idle => simp [Reader.writes, idle]
  | close leaving => simp [Reader.writes, leaving]
  | endInput => simp [Reader.writes]

/-- Of the writes that finish in some way, each is in flight or has landed. -/
theorem balances_finished (test : Write → Bool)
    (untested : ∀ output, test ⟨output, .pending⟩ = false) :
    Balances policy outputs (fun _ reader => reader.writes.countP test)
      (fun entry => entry.finished?.toList.countP test)
      (fun entry => entry.settled.countP test) := by
  intro index reader changed entries sound turn
  cases turn with
  | occurs change =>
      cases change with
      | takeFrame instant decision idle read =>
          rcases decision with _ | _ | _ | ⟨first, others⟩ <;>
            simp [Reader.writes, idle, phaseAfter, untested, List.countP_map,
              Function.comp_def]
      | takeFailure idle read => simp [Reader.writes, idle]
      | @write output refusal frame writes phase pending =>
          have counted := countP_finishWrite refusal (untested output)
            (sound.nodup phase) pending
          simp [Reader.writes, phase, counted, List.countP_singleton]
      | send accepts => simp [Reader.writes]
  | land phase finished => simp [Reader.writes, phase]
  | leave idle => simp [Reader.writes, idle]
  | close leaving => simp [Reader.writes, leaving]
  | endInput => simp [Reader.writes]

/-- A reader that has closed stays closed. -/
theorem balances_closed :
    Balances policy outputs (fun _ reader => if reader.phase = .closed then 1 else 0)
      (fun entry => entry.closed?.toList.length) (fun _ => 0) := by
  intro index reader changed entries sound turn
  cases turn with
  | occurs change =>
      cases change with
      | takeFrame instant decision idle read =>
          rcases decision with _ | _ | _ | ⟨first, others⟩ <;> simp [idle, phaseAfter]
      | takeFailure idle read => simp [idle]
      | write phase pending => simp [phase]
      | send accepts => simp
  | land phase finished => simp [phase]
  | leave idle => simp [idle]
  | close leaving => simp [leaving]
  | endInput => simp

/-- A reader leaves from the end of its reading until it closes. -/
theorem balances_leaving (target : Nat) :
    Balances policy outputs
      (fun index reader => if index = target ∧ reader.phase = .leaving then 1 else 0)
      (fun entry => entry.stopped?.toList.count target)
      (fun entry => entry.closed?.toList.count target) := by
  intro index reader changed entries sound turn
  cases turn with
  | occurs change =>
      cases change with
      | takeFrame instant decision idle read =>
          rcases decision with _ | _ | _ | ⟨first, others⟩ <;> simp [idle, phaseAfter]
      | takeFailure idle read => simp [idle, List.count_singleton]
      | write phase pending => simp [phase]
      | send accepts => simp
  | land phase finished => simp [phase]
  | leave idle => simp [idle, List.count_singleton]
  | close leaving => simp [leaving, List.count_singleton]
  | endInput => simp

def framesInFlight (relay : Relay) : Nat := relay.readers.countP Reader.isInFlight

theorem Steps.decisions_eq (steps : Steps relay events last) :
    (relay.journal events).filterMap JournalEntry.decision? =
      ((relay.history events).filterMap Occurrence.handling?).map Handling.decision := by
  rw [steps.history_eq, List.filterMap_filterMap, List.map_filterMap]
  apply List.filterMap_congr
  rintro (occurrence | _ | _ | _) -
  · cases occurrence <;> rfl
  all_goals rfl

theorem Steps.failed_eq (steps : Steps relay events last) :
    (relay.journal events).filterMap JournalEntry.failed? =
      (relay.history events).filterMap Occurrence.failedReader? := by
  rw [steps.history_eq, List.filterMap_filterMap]
  apply List.filterMap_congr
  rintro (occurrence | _ | _ | _) -
  · cases occurrence <;> rfl
  all_goals rfl

/-- The counters of a relay show what has come into its journal since it was launched. -/
theorem Steps.launched_tally (steps : Steps (assembly.launch signal now) events last) :
    let journal := (assembly.launch signal now).journal events
    let decisions := journal.filterMap JournalEntry.decision?
    let writes := journal.flatMap JournalEntry.settled
    last.tally =
      { received := .ofNat decisions.length
        malformed := .ofNat (decisions.countP Decision.isMalformed)
        filtered := .ofNat (decisions.countP Decision.isFiltered)
        forwarded := .ofNat (decisions.countP Decision.isForwarded)
        writes := .ofNat (writes.countP Write.isAccepted)
        writeFailures := .ofNat (writes.countP Write.isRefused)
        readFailures := .ofNat (journal.filterMap JournalEntry.failed?).length
        inputsStarted := .ofNat assembly.inputs.length
        inputsClosed := .ofNat (journal.filterMap JournalEntry.closed?).length } := by
  intro journal decisions writes
  have started : (assembly.launch signal now).tally =
      Tally.zero.addStarted assembly.inputs.length.toUInt64 := rfl
  rw [steps.tally, Tally.foldl_post, started]
  simp only [Tally.addStarted, Tally.zero, Counter.zero_add_ofNat]
  rfl

theorem Quiet.writes_eq_nil (quiet : relay.Quiet) {reader : Reader}
    (member : reader ∈ relay.readers) : reader.writes = [] := by
  unfold Reader.writes
  split
  · rename_i frame writes phase
    exact (quiet reader member frame writes phase).elim
  all_goals rfl

theorem Quiet.framesInFlight_eq (quiet : relay.Quiet) : relay.framesInFlight = 0 := by
  refine List.countP_eq_zero.mpr fun reader member => ?_
  unfold Reader.isInFlight
  split
  · rename_i frame writes phase
    exact (quiet reader member frame writes phase).elim
  all_goals exact Bool.false_ne_true

/-- Of the outputs that forwarded frames go to, each has been written or is yet to be. -/
theorem Steps.countP_settled (steps : Steps (assembly.launch signal now) events last) :
    let journal := (assembly.launch signal now).journal events
    let writes := journal.flatMap JournalEntry.settled
    writes.countP Write.isAccepted + writes.countP Write.isRefused +
        assembly.fanout * last.framesInFlight =
      assembly.fanout *
        (journal.filterMap JournalEntry.decision?).countP Decision.isForwarded := by
  intro journal writes
  have sound := launch_sound assembly signal now
  have balanced := steps.total sound balances_given
  have before : (assembly.launch signal now).total (fun _ reader => reader.writes.length) = 0 := by
    apply total_eq_zero
    intro index reader found
    rw [(launch_quiet assembly signal now).writes_eq_nil (List.mem_of_getElem? found),
      List.length_nil]
  have after : last.total (fun _ reader => reader.writes.length) =
      assembly.fanout * last.framesInFlight := by
    rw [total_eq_sum_map]
    exact sum_map_eq_mul_countP fun reader member =>
      ((steps.sound sound).readers reader member).length_writes
  have entered : (journal.map fun entry =>
      (entry.decision?.toList.flatMap Decision.outputs).length).sum =
        assembly.fanout *
          (journal.filterMap JournalEntry.decision?).countP Decision.isForwarded := by
    rw [← List.length_flatMap, ← List.flatMap_assoc, ← List.filterMap_eq_flatMap_toList,
      List.length_flatMap]
    apply sum_map_eq_mul_countP
    intro decision member
    rw [steps.decisions_eq] at member
    obtain ⟨handling, handled, rfl⟩ := List.mem_map.mp member
    exact steps.processes.length_outputs handled
  have left : (journal.map fun entry => entry.settled.countP Write.isAccepted +
      entry.settled.countP Write.isRefused).sum =
        writes.countP Write.isAccepted + writes.countP Write.isRefused := by
    rw [List.sum_map_add, List.countP_flatMap, List.countP_flatMap]
    rfl
  rw [before, entered, left, after, Nat.zero_add] at balanced
  exact balanced.symm

/-- Whatever is made of the writes that finish, is made of those that have landed or are in
flight. -/
theorem Steps.settled_perm {α : Type} [DecidableEq α]
    (steps : Steps (assembly.launch signal now) events last) {pick : Write → Option α}
    (unpicked : ∀ output, pick ⟨output, .pending⟩ = none) :
    let journal := (assembly.launch signal now).journal events
    ((journal.flatMap JournalEntry.settled).filterMap pick ++
        last.readers.flatMap fun reader => reader.writes.filterMap pick).Perm
      ((journal.filterMap JournalEntry.finished?).filterMap pick) := by
  intro journal
  rw [List.perm_iff_count]
  intro item
  have before : (assembly.launch signal now).total (fun _ reader => reader.writes.countP
      fun write => pick write == some item) = 0 := by
    apply total_eq_zero
    intro index reader found
    rw [(launch_quiet assembly signal now).writes_eq_nil (List.mem_of_getElem? found),
      List.countP_nil]
  have after : last.total (fun _ reader => reader.writes.countP
      fun write => pick write == some item) =
        (last.readers.flatMap fun reader => reader.writes.filterMap pick).count item := by
    rw [total_eq_sum_map, List.count_flatMap]
    simp only [Function.comp_def, List.count_filterMap]
  have settled : (journal.map fun entry => entry.settled.countP
      fun write => pick write == some item).sum =
        ((journal.flatMap JournalEntry.settled).filterMap pick).count item := by
    rw [List.count_filterMap, List.countP_flatMap]
    rfl
  have balanced := steps.total (launch_sound assembly signal now)
    (balances_finished (fun write => pick write == some item) fun output => by
      rw [unpicked output]
      rfl)
  rw [before, after, settled, sum_countP_toList, Nat.zero_add] at balanced
  rw [List.count_append, ← balanced, List.count_filterMap]

theorem Steps.finished_eq (steps : Steps relay events last) :
    (relay.journal events).filterMap JournalEntry.finished? =
      (relay.history events).filterMap fun occurrence =>
        (JournalEntry.occurred occurrence).finished? := by
  rw [steps.history_eq, List.filterMap_filterMap]
  apply List.filterMap_congr
  rintro (occurrence | _ | _ | _) - <;> rfl

end Relay

end TrafficRelay
