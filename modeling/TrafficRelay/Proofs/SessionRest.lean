import TrafficRelay.Proofs.Delivery
import TrafficRelay.Proofs.SessionSteps

/-!
# How long a session goes on

`Relay.work` bounds the moves that are left: every step of the relay by itself
lowers it, and only an item that is sent raises it.  What is left of a session
that has come to rest follows from the moves that it does not make.
-/

namespace TrafficRelay

theorem Router.length_select_le {α : Type} (router : Router) (session : SessionKey)
    (outputs : List α) : (router.select session outputs).1.length ≤ outputs.length := by
  unfold select
  split
  · exact Nat.zero_le _
  · rename_i present
    have positive : 1 ≤ outputs.length :=
      List.length_pos_iff.mpr (mt List.isEmpty_iff.mpr present)
    split
    · exact Nat.le_refl _
    · exact Nat.le_trans Option.length_toList_le positive
    · exact Nat.le_trans Option.length_toList_le positive

theorem Stages.length_routed_le {stages next : Stages} {outputs : Nat} {now : Instant}
    {frame : Bytes} {selected : List Nat}
    (decided : stages.decide outputs now frame = (.routed selected, next)) :
    selected.length ≤ outputs := by
  unfold decide at decided
  split at decided
  · cases decided
  · rename_i record decoded
    split at decided
    · cases decided
    · cases decided
      have bound := Router.length_select_le stages.router record.session (List.range outputs)
      rwa [List.length_range] at bound

/-- A closed reader stays closed. -/
theorem Reader.Change.closed {index : Nat} {reader changed : Reader}
    {occurred : List Occurrence} (change : Reader.Change index reader occurred changed)
    (closed : reader.phase = .closed) : changed.phase = .closed := by
  cases change with
  | takeFrame instant decision idle read =>
      rw [closed] at idle
      cases idle
  | takeFailure idle read =>
      rw [closed] at idle
      cases idle
  | write phase pending =>
      rw [closed] at phase
      cases phase
  | land phase finished =>
      rw [closed] at phase
      cases phase
  | leave idle =>
      rw [closed] at idle
      cases idle
  | close leaving => rfl
  | send accepts => exact closed
  | endInput => exact closed

namespace Relay

theorem foldr_add_set {α : Type} (size : α → Nat) (base : Nat) {items : List α}
    {index : Nat} {item : α} (found : items[index]? = some item) (changed : α) :
    (items.set index changed).foldr (fun item total => size item + total) base +
        size item =
      items.foldr (fun item total => size item + total) base + size changed := by
  induction items generalizing index with
  | nil => cases found
  | cons first others induction =>
      cases index with
      | zero =>
          obtain rfl := Option.some.inj found
          simp only [List.set_cons_zero, List.foldr_cons]
          omega
      | succ index =>
          have rest := induction found
          simp only [List.set_cons_succ, List.foldr_cons]
          omega

theorem foldr_add_base {α : Type} (size : α → Nat) (base : Nat) (items : List α) :
    items.foldr (fun item total => size item + total) base =
      items.foldr (fun item total => size item + total) 0 + base := by
  induction items with
  | nil => exact (Nat.zero_add base).symm
  | cons item items induction =>
      simp only [List.foldr_cons, induction]
      omega

/-- The work of a relay in which one reader has changed. -/
theorem work_setReader {relay other : Relay} {index : Nat} {reader changed : Reader}
    (found : relay.readers[index]? = some reader)
    (readers : other.readers = relay.readers)
    (outputs : (other.setReader index changed).outputs = relay.outputs)
    (lifecycle : (other.setReader index changed).lifecycle = relay.lifecycle) :
    (other.setReader index changed).work + reader.work relay.outputs.length =
      relay.work + changed.work relay.outputs.length := by
  unfold work
  rw [setReader_readers, readers, outputs, lifecycle]
  exact foldr_add_set _ _ found changed

theorem finishWrite_pending {output : Nat} {refusal : Option IoError} {write : Write} :
    (finishWrite output refusal write).state = .pending ↔
      write.state = .pending ∧ write.output ≠ output := by
  unfold finishWrite
  split
  · rename_i hit
    cases refusal <;> simp [hit.1]
  · rename_i missed
    constructor
    · intro still
      exact ⟨still, fun same => missed ⟨same, still⟩⟩
    · exact And.left

/-- Finishing a write leaves fewer writes pending. -/
theorem countP_finishWrite_lt {writes : List Write} {output : Nat}
    (refusal : Option IoError) (pending : ⟨output, .pending⟩ ∈ writes) :
    (writes.map (finishWrite output refusal)).countP
        (fun write => write.state = .pending) <
      writes.countP fun write => write.state = .pending := by
  have fewer (some : List Write) :
      (some.map (finishWrite output refusal)).countP
          (fun write => write.state = .pending) ≤
        some.countP fun write => write.state = .pending := by
    rw [List.countP_map]
    apply List.countP_mono_left
    intro write _ still
    exact decide_eq_true (finishWrite_pending.mp (of_decide_eq_true still)).1
  obtain ⟨front, back, rfl⟩ := List.append_of_mem pending
  have done : (finishWrite output refusal ⟨output, .pending⟩).state ≠ .pending := by
    intro still
    exact (finishWrite_pending.mp still).2 rfl
  have before := fewer front
  have after := fewer back
  simp only [List.map_append, List.map_cons, List.countP_append, List.countP_cons, done,
    decide_false, Bool.false_eq_true, if_false, decide_true, if_true]
  omega

section

variable {relay next : Relay} {event : Event}

/-- Only the supervisor moves the relay on. -/
theorem Step.lifecycle (step : Step relay event next) (running : event ≠ .drain)
    (remaining : event ≠ .stop) : next.lifecycle = relay.lifecycle := by
  cases step with
  | drain => exact (running rfl).elim
  | stop => exact (remaining rfl).elim
  | takeFrame found idle lowered read => simp [setReader, report_eq, decideFrame]
  | takeFailure found idle lowered read => simp [setReader, report_eq]
  | land found phase finished => simp [setReader, report_eq]
  | _ => rfl

/-- A decided frame leaves its reader with less to do than there was before it
took the frame. -/
theorem work_phaseAfter_lt (relay : Relay) {reader : Reader} {frame : Bytes} {inlet : Inlet}
    (idle : reader.phase = .idle)
    (read : reader.inlet.read = .item (.frame frame) inlet) :
    ({ reader with
        inlet, phase := phaseAfter frame (relay.decideFrame frame).1 } : Reader).work
        relay.outputs.length <
      reader.work relay.outputs.length := by
  have queued : reader.inlet.queue.length * (relay.outputs.length + 3) =
      inlet.queue.length * (relay.outputs.length + 3) + (relay.outputs.length + 3) := by
    rw [queue_of_read read, List.length_cons, Nat.succ_mul]
  have bound (selected : List Nat) (routed : (relay.decideFrame frame).1 = .routed selected) :
      selected.length ≤ relay.outputs.length :=
    Stages.length_routed_le (Prod.ext routed rfl)
  unfold Reader.work
  simp only [idle, queued]
  cases decided : (relay.decideFrame frame).1 with
  | malformed error =>
      simp only [phaseAfter]
      omega
  | filtered =>
      simp only [phaseAfter]
      omega
  | routed selected =>
      cases selected with
      | nil =>
          simp only [phaseAfter]
          omega
      | cons first others =>
          have few := bound _ decided
          have pending := List.countP_le_length
            (p := fun write : Write => decide (write.state = .pending))
            (l := (first :: others).map fun output => Write.mk output .pending)
          rw [List.length_map] at pending
          simp only [phaseAfter]
          omega

/-- Whatever a relay does by itself, and every write, leaves less to do. -/
theorem Step.work_lt (step : Step relay event next)
    (inner : event.fromOutside = false) (notFed : event.feeds = false) :
    next.work < relay.work := by
  have outputs := step.outputs
  have lifecycle := step.lifecycle
  cases step with
  | takeFrame found idle lowered read =>
      have total := work_setReader found (by simp) outputs (lifecycle nofun nofun)
      have fewer := work_phaseAfter_lt relay idle read
      omega
  | takeFailure found idle lowered read =>
      have total := work_setReader found (by simp) outputs (lifecycle nofun nofun)
      simp only [Reader.work, idle] at total
      omega
  | @write index output refusal reader frame writes found phase pending =>
      have total := work_setReader found rfl outputs (lifecycle nofun nofun)
      have fewer := countP_finishWrite_lt refusal pending
      simp only [Reader.work, phase] at total
      omega
  | land found phase finished =>
      have total := work_setReader found (by simp) outputs (lifecycle nofun nofun)
      simp only [Reader.work, phase] at total
      omega
  | leave found idle due =>
      have total := work_setReader found rfl outputs (lifecycle nofun nofun)
      simp only [Reader.work, idle] at total
      omega
  | close found leaving =>
      have total := work_setReader found (by simp) outputs (lifecycle nofun nofun)
      simp only [Reader.work, leaving] at total
      omega
  | drain running raised =>
      rw [work, work, foldr_add_base _ relay.lifecycle.work, foldr_add_base, running]
      exact Nat.add_lt_add_left Nat.one_lt_two _
  | stop closed due =>
      have unstopped : 0 < relay.lifecycle.work := by
        rcases due with draining | ⟨running, -⟩
        · rw [draining]
          exact Nat.one_pos
        · rw [running]
          exact Nat.two_pos
      rw [work, work, foldr_add_base _ relay.lifecycle.work, foldr_add_base]
      exact Nat.add_lt_add_left unstopped _
  | send found accepts => cases notFed
  | sendLost refused => cases notFed
  | endInput found => cases notFed
  | endNothing missing => cases notFed
  | setSignal heard => cases inner
  | setSignalLost unheard => cases inner
  | dropSignal => cases inner
  | dropReports => cases inner
  | advance => cases inner

/-- An item that is sent adds to the work of its reader only. -/
theorem work_send_le (relay : Relay) (input : Nat) (item : Item) :
    (relay.send input item).work ≤ relay.work + (relay.outputs.length + 3) := by
  unfold send
  split
  · rename_i reader found
    split
    · have total := @work_setReader relay relay input reader
        { reader with inlet := reader.inlet.push item } found rfl rfl rfl
      have longer : (reader.inlet.push item).queue.length ≤
          reader.inlet.queue.length + 1 := by
        unfold Inlet.push
        split
        · exact Nat.le_succ _
        · simp
      have queued := Nat.mul_le_mul_right (relay.outputs.length + 3) longer
      rw [Nat.succ_mul] at queued
      unfold Reader.work at total
      cases phase : reader.phase <;> simp only [phase] at total <;> omega
    · exact Nat.le_add_right _ _
  · exact Nat.le_add_right _ _

theorem work_endInput (relay : Relay) (input : Nat) :
    (relay.endInput input).work = relay.work := by
  unfold endInput
  split
  · rename_i reader found
    have total := @work_setReader relay relay input reader
      { reader with inlet := reader.inlet.close } found rfl rfl rfl
    exact Nat.add_right_cancel total
  · rfl

/-- A reader that has a frame in flight had it before, unless it has just taken
it. -/
theorem Step.inFlight (step : Step relay event next) {index : Nat} {reader : Reader}
    {frame : Bytes} {writes : List Write}
    (found : next.readers[index]? = some reader)
    (phase : reader.phase = .inFlight frame writes) :
    event = .take index ∨ ∃ before, relay.readers[index]? = some before ∧
      ∃ frame writes, before.phase = .inFlight frame writes := by
  rcases step.change with
    ⟨nothing, same⟩ | ⟨changing, before, changed, present, change, set⟩
  · rw [same] at found
    exact Or.inr ⟨reader, found, frame, writes, phase⟩
  · by_cases here : changing = index
    · subst changing
      have inRange := (List.getElem?_eq_some_iff.mp present).1
      rw [set, List.getElem?_set_self inRange] at found
      obtain rfl := Option.some.inj found
      generalize happened : relay.occurrences event = occurred at change
      cases change with
      | takeFrame instant decision idle read =>
          exact Or.inl (take_of_handled (happened ▸ List.mem_singleton_self _)).1
      | takeFailure idle read => cases phase
      | write inFlight pending => exact Or.inr ⟨before, present, _, _, inFlight⟩
      | land inFlight finished => cases phase
      | leave idle => cases phase
      | close leaving => cases phase
      | send accepts => exact Or.inr ⟨before, present, _, _, phase⟩
      | endInput => exact Or.inr ⟨before, present, _, _, phase⟩
    · rw [set, List.getElem?_set_ne here] at found
      exact Or.inr ⟨reader, found, frame, writes, phase⟩

theorem Step.allClosed (step : Step relay event next) (closed : relay.allClosed = true) :
    next.allClosed = true := by
  rcases step.change with ⟨-, same⟩ | ⟨index, reader, changed, found, change, set⟩
  · rw [Relay.allClosed, same]
    exact closed
  · have every (other : Reader) (member : other ∈ relay.readers) : other.phase = .closed :=
      of_decide_eq_true (List.all_eq_true.mp closed other member)
    have before := every reader (List.mem_of_getElem? found)
    have after := change.closed before
    apply List.all_eq_true.mpr
    intro other member
    rw [set] at member
    apply decide_eq_true
    rcases List.mem_or_eq_of_mem_set member with kept | rfl
    · exact every other kept
    · exact after

end

theorem quiet_of_allClosed {relay : Relay} (closed : relay.allClosed = true) :
    relay.Quiet := by
  intro reader member frame writes phase
  have ended : reader.phase = .closed :=
    of_decide_eq_true (List.all_eq_true.mp closed reader member)
  rw [ended] at phase
  cases phase

end Relay

namespace Session

variable {σ : Type} {endpoints : Endpoints σ}

/-- Every reader with a frame in flight has its turn to write. -/
def Attended (session : Session σ) : Prop :=
  ∀ index reader frame writes, session.relay.readers[index]? = some reader →
    reader.phase = .inFlight frame writes → index ∈ session.arrivals

theorem mem_arrivalsAfter {arrivals : List Nat} {index : Nat} (member : index ∈ arrivals)
    (event : Event) : index ∈ arrivalsAfter arrivals event := by
  cases event with
  | take taking =>
      by_cases same : index = taking
      · simp [arrivalsAfter, same]
      · simp [arrivalsAfter, same, member]
  | _ => exact member

theorem Step.arrivals {session next : Session σ} {event : Event}
    (step : Step endpoints session event next) :
    next.arrivals = arrivalsAfter session.arrivals event := by
  cases step with
  | own inner step => rfl
  | write found phase ready answer step => rfl
  | @supply input supply outside reader relay found idle pending lowered supplies answer
      step =>
      cases supply <;> rfl

theorem Step.attended {session next : Session σ} {event : Event}
    (step : Step endpoints session event next) (attended : session.Attended) :
    next.Attended := by
  intro index reader frame writes found phase
  rw [step.arrivals]
  rcases step.relay.inFlight found phase with rfl | ⟨before, present, _, _, inFlight⟩
  · simp [arrivalsAfter]
  · exact mem_arrivalsAfter (attended index before _ _ present inFlight) event

/-- A session at rest has closed every reader, if its inputs can be asked and
nothing keeps its outputs from being written. -/
theorem Attended.closed_of_rest {session : Session σ} (attended : session.Attended)
    (rest : session.nextMove? endpoints = none)
    (ready : ∀ output, endpoints.ready session.outside output = true)
    (supplies : ∀ input, endpoints.supplies session.outside input = true) :
    session.relay.allClosed = true := by
  obtain ⟨noWrite, others⟩ := Option.or_eq_none_iff.mp rest
  obtain ⟨noOwn, -⟩ := Option.or_eq_none_iff.mp others
  apply List.all_eq_true.mpr
  intro reader member
  obtain ⟨index, found⟩ := List.getElem?_of_mem member
  have noMove : session.readerMove? endpoints reader index = none :=
    List.findSome?_eq_none_iff.mp noOwn (reader, index)
      (List.mk_mem_zipIdx_iff_getElem?.mpr found)
  unfold readerMove? at noMove
  split at noMove
  · cases noMove
  · rename_i noEvent
    unfold Reader.nextEvent? at noEvent
    cases phase : reader.phase with
    | idle => simp [phase, supplies] at noMove
    | inFlight frame writes =>
        have noneReady := List.findSome?_eq_none_iff.mp noWrite index
          (attended index reader frame writes found phase)
        simp only [phase] at noEvent
        split at noEvent
        · rename_i someWrite
          obtain ⟨write, listed, pending⟩ := List.any_eq_true.mp someWrite
          have waiting : write.output ∈ reader.pendingWrites.2 := by
            simp only [Reader.pendingWrites, phase]
            exact List.mem_map_of_mem (List.mem_filter.mpr ⟨listed, pending⟩)
          have unready :
              reader.pendingWrites.2.find? (endpoints.ready session.outside) = none := by
            cases first : reader.pendingWrites.2.find? (endpoints.ready session.outside) with
            | none => rfl
            | some output => simp [found, first] at noneReady
          exact (List.find?_eq_none.mp unready _ waiting (ready _)).elim
        · cases noEvent
    | leaving => simp [phase] at noEvent
    | closed => rfl

/-- Once every reader is closed, nothing is read or written any more. -/
theorem Step.outside_of_closed {session next : Session σ} {event : Event}
    (step : Step endpoints session event next) (closed : session.relay.allClosed = true) :
    next.outside = session.outside := by
  have every (index : Nat) (reader : Reader)
      (found : session.relay.readers[index]? = some reader) : reader.phase = .closed :=
    of_decide_eq_true
      (List.all_eq_true.mp closed reader (List.mem_of_getElem? found))
  cases step with
  | own inner step => rfl
  | write found phase ready answer step =>
      rw [every _ _ found] at phase
      cases phase
  | supply found idle pending lowered supplies answer step =>
      rw [every _ _ found] at idle
      cases idle

theorem Steps.outside_of_closed {session last : Session σ} {events : List Event}
    (steps : Steps endpoints session events last)
    (closed : session.relay.allClosed = true) : last.outside = session.outside := by
  induction steps with
  | done session => rfl
  | step step steps induction =>
      rw [induction (step.relay.allClosed closed), step.outside_of_closed closed]

end Session

end TrafficRelay
