import Mathlib.Data.List.Forall2
import TrafficRelay.Proofs.RelayBalance

/-!
# Runs that are alike

Two relays are alike if their readers are at the same point, one by one, and if what
decides the further course is equal: the stages, the signal, the lifecycle and the clock.
A `Likeness` says which frames, errors and inlets count as alike; the tally, the reports
and the names are left out.  Under a lawful likeness the one relay follows the other: it
can take every step that the other takes, except where that runs into a read error, and
they remain alike.
-/

namespace TrafficRelay

section

variable {α β : Type} {alike : α → β → Prop} {items : List α} {others : List β}

theorem exists_of_forall₂ (related : List.Forall₂ alike items others) {index : Nat} {item : α}
    (found : items[index]? = some item) :
    ∃ other, others[index]? = some other ∧ alike item other := by
  induction related generalizing index with
  | nil => cases found
  | @cons first counterpart _ _ here _ induction =>
      cases index with
      | zero =>
          cases found
          exact ⟨counterpart, rfl, here⟩
      | succ index => exact induction found

theorem getElem?_eq_none_of_forall₂ (related : List.Forall₂ alike items others) {index : Nat}
    (missing : items[index]? = none) : others[index]? = none := by
  rw [List.getElem?_eq_none_iff] at missing ⊢
  rw [← related.length_eq]
  exact missing

theorem forall₂_set (related : List.Forall₂ alike items others) {item : α} {other : β}
    (here : alike item other) (index : Nat) :
    List.Forall₂ alike (items.set index item) (others.set index other) := by
  induction related generalizing index with
  | nil => exact .nil
  | cons first rest induction =>
      cases index with
      | zero => exact .cons here rest
      | succ index => exact .cons first (induction index)

theorem forall_mem_of_forall₂ {holds : α → Prop} {follows : β → Prop}
    (related : List.Forall₂ alike items others)
    (carries : ∀ {item other}, alike item other → holds item → follows other)
    (all : ∀ item ∈ items, holds item) : ∀ other ∈ others, follows other := by
  induction related with
  | nil => exact nofun
  | cons here rest induction =>
      obtain ⟨first, remaining⟩ := List.forall_mem_cons.mp all
      exact List.forall_mem_cons.mpr ⟨carries here first, induction remaining⟩

theorem filterMap_eq_of_forall₂ {γ : Type} (related : List.Forall₂ alike items others)
    {pick : α → Option γ} {select : β → Option γ}
    (same : ∀ {item other}, alike item other → select other = pick item) :
    others.filterMap select = items.filterMap pick := by
  induction related with
  | nil => rfl
  | cons here rest induction =>
      rw [List.filterMap_cons, List.filterMap_cons, same here, induction]

theorem eq_map_of_forall₂ {change : α → β} (related : List.Forall₂ alike items others)
    (same : ∀ {item other}, alike item other → other = change item) :
    others = items.map change := by
  induction related with
  | nil => rfl
  | cons here rest induction => rw [List.map_cons, same here, induction]

end

/-- What counts as alike in two runs under one whitelist, and which entry a reader makes
in the second run when it runs into a read error in the first. -/
structure Likeness where
  whitelist : Whitelist
  frames : Bytes → Bytes → Prop
  errors : HeaderError → HeaderError → Prop
  causes : IoError → IoError → Prop
  items : Item → Item → Prop
  inlets : Inlet → Inlet → Prop
  failed : Nat → JournalEntry → Prop

/-- Whether an entry tells of something that a reader does. -/
def JournalEntry.isDeed : JournalEntry → Bool
  | .occurred (.queued _ _) => false
  | .occurred (.handled _) | .occurred (.readFailed _ _) | .occurred (.offered _ _ _ _)
  | .landed _ _ | .left _ | .closed _ => true

namespace Relay

/-- What the readers do in an event. -/
def deedsOf (relay : Relay) (event : Event) : List JournalEntry :=
  (relay.entries event).filter JournalEntry.isDeed

/-- What the readers do in a run, from the first event to the last. -/
def deeds (relay : Relay) (events : List Event) : List JournalEntry :=
  (relay.journal events).filter JournalEntry.isDeed

theorem Step.deeds_cons {relay next : Relay} {event : Event} (step : Step relay event next)
    (events : List Event) :
    relay.deeds (event :: events) = relay.deedsOf event ++ next.deeds events := by
  rw [deeds, step.journal_cons, List.filter_append]
  rfl

/-- What is picked from the history, unless it has to do with the filling of inlets, is
picked from what the readers do. -/
theorem Steps.filterMap_deeds {α : Type} {pick : Occurrence → Option α} {relay last : Relay}
    {events : List Event} (steps : Steps relay events last)
    (unqueued : ∀ input item, pick (.queued input item) = none) :
    (relay.history events).filterMap pick =
      (relay.deeds events).filterMap fun entry => entry.occurrence?.bind pick := by
  rw [steps.history_eq, List.filterMap_filterMap, deeds, List.filterMap_filter]
  apply List.filterMap_congr
  rintro ((_ | _ | _ | ⟨input, item⟩) | _ | _ | _) -
  case occurred.queued => exact unqueued input item
  all_goals rfl

/-- Only what the readers do is counted. -/
theorem Steps.foldl_deeds {relay last : Relay} {events : List Event}
    (steps : Steps relay events last) :
    last.tally = (relay.deeds events).foldl Tally.post relay.tally := by
  rw [steps.tally, deeds, List.foldl_filter]
  congr 1
  funext tally entry
  rcases entry with (_ | _ | _ | _) | _ | _ | _ <;> rfl

theorem take_of_readFailed {relay : Relay} {event : Event} {index : Nat} {error : IoError}
    (failed : .occurred (.readFailed index error) ∈ relay.entries event) :
    event = .take index := by
  have occurred : .readFailed index error ∈ relay.occurrences event := by
    rw [← entries_occurrences]
    exact List.mem_filterMap.mpr ⟨_, failed, rfl⟩
  rcases occurrences_cases occurred with
    ⟨taking, item, rfl, same⟩ | ⟨_, _, _, _, _, same⟩ | ⟨_, _, _, same⟩
  · cases item with
    | frame frame => cases same
    | failure error =>
        cases same
        rfl
  · cases same
  · cases same

theorem deedsOf_send (relay : Relay) (input : Nat) (item : Item) :
    relay.deedsOf (.send input item) = [] := by
  cases accepted : relay.accepts input <;>
    simp [deedsOf, entries, occurrences, accepted, JournalEntry.isDeed]

theorem setReader_self {relay : Relay} {index : Nat} {reader : Reader}
    (found : relay.readers[index]? = some reader) : relay.setReader index reader = relay := by
  obtain ⟨inRange, rfl⟩ := List.getElem?_eq_some_iff.mp found
  simp [setReader]

/-- What a send does, whether or not the item is lost in an inlet that has ended. -/
theorem send_eq {relay : Relay} {input : Nat} {item : Item} {reader : Reader}
    (found : relay.readers[input]? = some reader) :
    relay.send input item =
      if reader.isActive then
        relay.setReader input { reader with inlet := reader.inlet.push item }
      else relay := by
  unfold send
  rw [found]
  by_cases ended : reader.inlet.senders = 0
  · have lost : reader.inlet.push item = reader.inlet := if_pos ended
    rw [lost, setReader_self found]
    simp [Reader.accepts, ended]
  · simp [Reader.accepts, ended]

end Relay

/-- Whether an event carries an item or an outcome. -/
def Event.isLaden : Event → Bool
  | .send _ _ | .write _ _ _ => true
  | .take _ | .land _ | .leave _ | .close _ | .drain | .stop | .endInput _ | .setSignal _
  | .dropSignal | .dropReports | .advance _ => false

namespace Likeness

variable (like : Likeness)

inductive Decisions : Decision → Decision → Prop where
  | malformed {error other : HeaderError} :
      like.errors error other → Decisions (.malformed error) (.malformed other)
  | filtered : Decisions .filtered .filtered
  | routed (outputs : List Nat) : Decisions (.routed outputs) (.routed outputs)

inductive Writes : Write → Write → Prop where
  | pending (output : Nat) : Writes ⟨output, .pending⟩ ⟨output, .pending⟩
  | accepted (output : Nat) : Writes ⟨output, .accepted⟩ ⟨output, .accepted⟩
  | refused (output : Nat) {cause other : IoError} :
      like.causes cause other → Writes ⟨output, .refused cause⟩ ⟨output, .refused other⟩

inductive Phases : ReaderPhase → ReaderPhase → Prop where
  | idle : Phases .idle .idle
  | inFlight {frame other : Bytes} {writes others : List Write} :
      like.frames frame other → List.Forall₂ like.Writes writes others →
      Phases (.inFlight frame writes) (.inFlight other others)
  | leaving : Phases .leaving .leaving
  | closed : Phases .closed .closed

/-- The inlet of a reader that takes nothing any more does not matter. -/
structure Readers (reader other : Reader) : Prop where
  phases : like.Phases reader.phase other.phase
  inlets : reader.isActive = true → like.inlets reader.inlet other.inlet

structure Relays (relay other : Relay) : Prop where
  readers : List.Forall₂ like.Readers relay.readers other.readers
  outputs : other.outputs.length = relay.outputs.length
  whitelist : relay.stages.filter.whitelist = like.whitelist
  stages : other.stages = relay.stages
  signal : other.signal = relay.signal
  lifecycle : other.lifecycle = relay.lifecycle
  listening : other.listening = relay.listening
  clock : other.clock = relay.clock

inductive Entries : JournalEntry → JournalEntry → Prop where
  | handled {index : Nat} {instant : Instant} {frame other : Bytes}
      {decision counterpart : Decision} :
      like.frames frame other → like.Decisions decision counterpart →
      Entries (.occurred (.handled ⟨index, instant, frame, decision⟩))
        (.occurred (.handled ⟨index, instant, other, counterpart⟩))
  | readFailed {index : Nat} {error : IoError} {entry : JournalEntry} :
      like.failed index entry → Entries (.occurred (.readFailed index error)) entry
  | offered {index output : Nat} {frame other : Bytes} {refusal answer : Option IoError} :
      like.frames frame other → Option.Rel like.causes refusal answer →
      Entries (.occurred (.offered index output frame refusal))
        (.occurred (.offered index output other answer))
  | landed {index : Nat} {writes others : List Write} :
      List.Forall₂ like.Writes writes others →
      Entries (.landed index writes) (.landed index others)
  | left (index : Nat) : Entries (.left index) (.left index)
  | closed (index : Nat) : Entries (.closed index) (.closed index)

inductive Events : Event → Event → Prop where
  | send (input : Nat) {item other : Item} :
      like.items item other → Events (.send input item) (.send input other)
  | write (index output : Nat) {refusal other : Option IoError} :
      Option.Rel like.causes refusal other →
      Events (.write index output refusal) (.write index output other)
  | same {event : Event} : event.isLaden = false → Events event event

/-- What is alike is decided alike, and what is done to inlets that are alike leaves them
so. -/
structure Lawful : Prop where
  decide {stages : Stages} {frame other : Bytes} (outputs : Nat) (now : Instant) :
    stages.filter.whitelist = like.whitelist → like.frames frame other →
      like.Decisions (stages.decide outputs now frame).1 (stages.decide outputs now other).1 ∧
        (stages.decide outputs now other).2 = (stages.decide outputs now frame).2
  readFrame {inlet other rest : Inlet} {frame : Bytes} :
    like.inlets inlet other → inlet.read = .item (.frame frame) rest →
      ∃ counterpart remaining, other.read = .item (.frame counterpart) remaining ∧
        like.frames frame counterpart ∧ like.inlets rest remaining
  readEnded {inlet other : Inlet} :
    like.inlets inlet other → inlet.read = .ended → other.read = .ended
  push {inlet other : Inlet} {item counterpart : Item} :
    like.inlets inlet other → like.items item counterpart →
      like.inlets (inlet.push item) (other.push counterpart)
  close {inlet other : Inlet} : like.inlets inlet other → like.inlets inlet.close other.close

end Likeness

theorem Stages.decide_whitelist (stages : Stages) (outputs : Nat) (now : Instant)
    (frame : Bytes) :
    (stages.decide outputs now frame).2.filter.whitelist = stages.filter.whitelist := by
  have kept (record : Record) :
      (stages.filter.judge now record).2.whitelist = stages.filter.whitelist := by
    unfold Filter.judge
    split <;> rfl
  unfold decide
  split
  · rfl
  · rename_i record decoded
    have same := kept record
    split <;> rename_i filter judged <;> rw [judged] at same <;> exact same

namespace Likeness

variable {like : Likeness}

section

variable {write other : Write}

theorem Writes.state_ne_pending (alike : like.Writes write other)
    (finished : write.state ≠ .pending) : other.state ≠ .pending := by
  cases alike with
  | pending output => exact (finished rfl).elim
  | accepted output => nofun
  | refused output causes => nofun

/-- An attempt that ends alike leaves the writes alike. -/
theorem Writes.finishWrite (alike : like.Writes write other) (output : Nat)
    {refusal answer : Option IoError} (causes : Option.Rel like.causes refusal answer) :
    like.Writes (Relay.finishWrite output refusal write)
      (Relay.finishWrite output answer other) := by
  cases alike with
  | pending target =>
      by_cases here : target = output
      · subst here
        rw [Relay.finishWrite_self, Relay.finishWrite_self]
        cases causes with
        | none => exact .accepted target
        | some causes => exact .refused target causes
      · rw [Relay.finishWrite_of_ne here, Relay.finishWrite_of_ne here]
        exact .pending target
  | accepted target => simpa [Relay.finishWrite] using .accepted target
  | refused target causes => simpa [Relay.finishWrite] using .refused target causes

theorem pending_mem {writes others : List Write}
    (alike : List.Forall₂ like.Writes writes others) {output : Nat}
    (pending : ⟨output, .pending⟩ ∈ writes) : ⟨output, .pending⟩ ∈ others := by
  induction alike with
  | nil => cases pending
  | @cons write other writes others here rest induction =>
      rcases List.mem_cons.mp pending with rfl | later
      · cases here with
        | pending output => exact List.mem_cons_self
      · exact List.mem_cons_of_mem other (induction later)

end

/-- A frame that is decided alike leaves its reader in a phase that is alike. -/
theorem Decisions.phaseAfter {decision other : Decision} (alike : like.Decisions decision other)
    {frame counterpart : Bytes} (frames : like.frames frame counterpart) :
    like.Phases (Relay.phaseAfter frame decision) (Relay.phaseAfter counterpart other) := by
  cases alike with
  | malformed errors => exact .idle
  | filtered => exact .idle
  | routed outputs =>
      cases outputs with
      | nil => exact .idle
      | cons first others =>
          refine .inFlight frames ?_
          rw [List.forall₂_map_left_iff, List.forall₂_map_right_iff, List.forall₂_same]
          exact fun output _ => .pending output

namespace Readers

variable {reader other : Reader}

theorem isActive (alike : like.Readers reader other) : other.isActive = reader.isActive := by
  have phases := alike.phases
  unfold Reader.isActive
  generalize reader.phase = phase at phases ⊢
  generalize other.phase = counterpart at phases ⊢
  cases phases <;> rfl

theorem phase_eq_idle (alike : like.Readers reader other) (idle : reader.phase = .idle) :
    other.phase = .idle ∧ like.inlets reader.inlet other.inlet := by
  have inlets := alike.inlets
  have phases := alike.phases
  rw [idle] at phases
  simp only [Reader.isActive, idle, true_implies] at inlets
  generalize other.phase = phase at phases ⊢
  cases phases
  exact ⟨rfl, inlets⟩

theorem phase_eq_inFlight (alike : like.Readers reader other) {frame : Bytes}
    {writes : List Write} (flight : reader.phase = .inFlight frame writes) :
    like.inlets reader.inlet other.inlet ∧
      ∃ counterpart others, other.phase = .inFlight counterpart others ∧
        like.frames frame counterpart ∧ List.Forall₂ like.Writes writes others := by
  have inlets := alike.inlets
  have phases := alike.phases
  rw [flight] at phases
  simp only [Reader.isActive, flight, true_implies] at inlets
  generalize other.phase = phase at phases ⊢
  cases phases with
  | inFlight frames writes => exact ⟨inlets, _, _, rfl, frames, writes⟩

theorem phase_eq_leaving (alike : like.Readers reader other)
    (leaving : reader.phase = .leaving) : other.phase = .leaving := by
  have phases := alike.phases
  rw [leaving] at phases
  generalize other.phase = phase at phases ⊢
  cases phases
  rfl

end Readers

namespace Relays

variable {relay other : Relay}

theorem allClosed (alike : like.Relays relay other) (closed : relay.allClosed = true) :
    other.allClosed = true := by
  refine List.all_eq_true.mpr (forall_mem_of_forall₂ alike.readers ?_
    (List.all_eq_true.mp closed))
  intro reader counterpart readers closed
  have phases := readers.phases
  rw [of_decide_eq_true closed] at phases
  generalize counterpart.phase = phase at phases ⊢
  cases phases
  rfl

/-- The readers that are alike remain so if one of each relay is replaced by its like. -/
theorem setReader (alike : like.Relays relay other) {reader counterpart : Reader}
    (readers : like.Readers reader counterpart) (index : Nat) :
    like.Relays (relay.setReader index reader) (other.setReader index counterpart) :=
  { alike with readers := forall₂_set alike.readers readers index }

theorem report (alike : like.Relays relay other) (failures others : List Failure) :
    like.Relays (relay.report failures) (other.report others) := by
  rw [Relay.report_eq, Relay.report_eq]
  exact { alike with }

theorem withTally (alike : like.Relays relay other) (tally counterpart : Tally) :
    like.Relays { relay with tally } { other with tally := counterpart } :=
  { alike with }

theorem decideFrame (lawful : like.Lawful) (alike : like.Relays relay other)
    {frame counterpart : Bytes} (frames : like.frames frame counterpart) :
    like.Decisions (relay.decideFrame frame).1 (other.decideFrame counterpart).1 ∧
      like.Relays (relay.decideFrame frame).2 (other.decideFrame counterpart).2 := by
  obtain ⟨decisions, stages⟩ :=
    lawful.decide relay.outputs.length relay.clock alike.whitelist frames
  have decided : other.stages.decide other.outputs.length other.clock counterpart =
      relay.stages.decide relay.outputs.length relay.clock counterpart := by
    rw [alike.stages, alike.outputs, alike.clock]
  have whitelist := (Stages.decide_whitelist relay.stages relay.outputs.length relay.clock
    frame).trans alike.whitelist
  unfold Relay.decideFrame
  rw [decided]
  refine ⟨decisions, ?_⟩
  dsimp only
  apply report
  exact { alike with whitelist, stages }

theorem endInput (lawful : like.Lawful) (alike : like.Relays relay other) (input : Nat) :
    like.Relays (relay.endInput input) (other.endInput input) := by
  unfold Relay.endInput
  cases found : relay.readers[input]? with
  | none =>
      rw [getElem?_eq_none_of_forall₂ alike.readers found]
      exact alike
  | some reader =>
      obtain ⟨counterpart, present, readers⟩ := exists_of_forall₂ alike.readers found
      rw [present]
      refine alike.setReader ?_ input
      exact ⟨readers.phases, fun active => lawful.close (readers.inlets active)⟩

theorem send (lawful : like.Lawful) (alike : like.Relays relay other) (input : Nat)
    {item counterpart : Item} (items : like.items item counterpart) :
    like.Relays (relay.send input item) (other.send input counterpart) := by
  cases found : relay.readers[input]? with
  | none =>
      unfold Relay.send
      rw [found, getElem?_eq_none_of_forall₂ alike.readers found]
      exact alike
  | some reader =>
      obtain ⟨follower, present, readers⟩ := exists_of_forall₂ alike.readers found
      rw [Relay.send_eq found, Relay.send_eq present, readers.isActive]
      split
      · rename_i active
        refine alike.setReader ?_ input
        exact ⟨readers.phases, fun _ => lawful.push (readers.inlets active) items⟩
      · exact alike

section

variable {next : Relay} {event : Event}

theorem write (alike : like.Relays relay other) {index output : Nat}
    {refusal answer : Option IoError} (step : Relay.Step relay (.write index output refusal) next)
    (causes : Option.Rel like.causes refusal answer) :
    ∃ follower, Relay.Step other (.write index output answer) follower ∧
      like.Relays next follower ∧
      List.Forall₂ like.Entries (relay.deedsOf (.write index output refusal))
        (other.deedsOf (.write index output answer)) := by
  cases step with
  | @write _ _ _ reader frame writes found flight pending =>
      obtain ⟨counterpart, present, readers⟩ := exists_of_forall₂ alike.readers found
      obtain ⟨inlets, _, others, flies, frames, alikes⟩ := readers.phase_eq_inFlight flight
      refine ⟨_, .write present flies (pending_mem alikes pending), ?_, ?_⟩
      · refine alike.setReader ?_ index
        refine ⟨.inFlight frames ?_, fun _ => inlets⟩
        rw [List.forall₂_map_left_iff, List.forall₂_map_right_iff]
        exact alikes.imp fun _ _ alike => alike.finishWrite output causes
      · rw [Relay.deedsOf, Relay.deedsOf, Relay.entries_write found flight,
          Relay.entries_write present flies]
        exact .cons (.offered frames causes) .nil

/-- Whatever happens to the one relay can happen to the other, unless it is a read error,
an item that is sent, or the outcome of a write. -/
theorem plain (lawful : like.Lawful) (alike : like.Relays relay other)
    (step : Relay.Step relay event next) (unladen : event.isLaden = false)
    (read : ∀ index error, .occurred (.readFailed index error) ∉ relay.entries event) :
    ∃ follower, Relay.Step other event follower ∧ like.Relays next follower ∧
      List.Forall₂ like.Entries (relay.deedsOf event) (other.deedsOf event) := by
  cases step with
  | @takeFrame index reader frame inlet found idle lowered readItem =>
      obtain ⟨counterpart, present, readers⟩ := exists_of_forall₂ alike.readers found
      obtain ⟨idles, inlets⟩ := readers.phase_eq_idle idle
      obtain ⟨_, rest, readOther, frames, remaining⟩ := lawful.readFrame inlets readItem
      obtain ⟨decisions, relays⟩ := alike.decideFrame lawful frames
      rw [← alike.signal] at lowered
      refine ⟨_, .takeFrame present idles lowered readOther, ?_, ?_⟩
      · refine relays.setReader ?_ index
        exact ⟨decisions.phaseAfter frames, fun _ => remaining⟩
      · rw [Relay.deedsOf, Relay.deedsOf, Relay.entries_takeFrame found readItem,
          Relay.entries_takeFrame present readOther, alike.clock]
        exact .cons (.handled frames decisions) .nil
  | @takeFailure index reader error inlet found idle lowered readItem =>
      rw [Relay.entries_takeFailure found readItem] at read
      exact (read index error (List.mem_singleton_self _)).elim
  | write found flight pending => cases unladen
  | @land index reader frame writes found flight finished =>
      obtain ⟨counterpart, present, readers⟩ := exists_of_forall₂ alike.readers found
      obtain ⟨inlets, _, others, flies, frames, alikes⟩ := readers.phase_eq_inFlight flight
      have done := forall_mem_of_forall₂ alikes Writes.state_ne_pending finished
      refine ⟨_, .land present flies done, ?_, ?_⟩
      · refine (report (withTally alike _ _) _ _).setReader ?_ index
        exact ⟨.idle, fun _ => inlets⟩
      · rw [Relay.deedsOf, Relay.deedsOf, Relay.entries_land found flight,
          Relay.entries_land present flies]
        exact .cons (.landed alikes) .nil
  | @leave index reader found idle due =>
      obtain ⟨counterpart, present, readers⟩ := exists_of_forall₂ alike.readers found
      obtain ⟨idles, inlets⟩ := readers.phase_eq_idle idle
      have dueOther : other.signal.isRaised = true ∨ counterpart.inlet.read = .ended := by
        rw [alike.signal]
        exact due.imp_right (lawful.readEnded inlets)
      refine ⟨_, .leave present idles dueOther, ?_, .cons (.left index) .nil⟩
      refine alike.setReader ?_ index
      exact ⟨.leaving, nofun⟩
  | @close index reader found leaving =>
      obtain ⟨counterpart, present, readers⟩ := exists_of_forall₂ alike.readers found
      have leaves := readers.phase_eq_leaving leaving
      refine ⟨_, .close present leaves, ?_, .cons (.closed index) .nil⟩
      refine (withTally alike _ _).setReader ?_ index
      exact ⟨.closed, nofun⟩
  | drain running raised =>
      rw [← alike.lifecycle] at running
      rw [← alike.signal] at raised
      exact ⟨_, .drain running raised, { alike with lifecycle := rfl }, .nil⟩
  | stop closed due =>
      rw [← alike.lifecycle, ← alike.signal] at due
      exact ⟨_, .stop (alike.allClosed closed) due, { alike with lifecycle := rfl }, .nil⟩
  | send found accepts => cases unladen
  | sendLost refused => cases unladen
  | @endInput input reader found =>
      have ended := alike.endInput lawful input
      rw [Relay.endInput, found] at ended
      exact ⟨_, Relay.step_endInput other input, ended, .nil⟩
  | @endNothing input missing =>
      have ended := alike.endInput lawful input
      rw [Relay.endInput, missing] at ended
      exact ⟨_, Relay.step_endInput other input, ended, .nil⟩
  | @setSignal value heard =>
      have hears : other.hearsSignal = true := by
        rw [← heard, Relay.hearsSignal, Relay.hearsSignal, alike.signal, alike.lifecycle]
      exact ⟨_, .setSignal hears, { alike with signal := by rw [alike.signal] }, .nil⟩
  | @setSignalLost value unheard =>
      have deaf : other.hearsSignal = false := by
        rw [← unheard, Relay.hearsSignal, Relay.hearsSignal, alike.signal, alike.lifecycle]
      exact ⟨_, .setSignalLost deaf, alike, .nil⟩
  | dropSignal =>
      exact ⟨_, .dropSignal, { alike with signal := by rw [alike.signal] }, .nil⟩
  | dropReports => exact ⟨_, .dropReports, { alike with listening := rfl }, .nil⟩
  | advance => exact ⟨_, .advance, { alike with clock := by rw [alike.clock] }, .nil⟩

/-- Whatever happens to the one relay can happen to the other in its own way, unless it is
a read error. -/
theorem step (lawful : like.Lawful) (alike : like.Relays relay other) {counterpart : Event}
    (step : Relay.Step relay event next) (events : like.Events event counterpart)
    (read : ∀ index error, .occurred (.readFailed index error) ∉ relay.entries event) :
    ∃ follower, Relay.Step other counterpart follower ∧ like.Relays next follower ∧
      List.Forall₂ like.Entries (relay.deedsOf event) (other.deedsOf counterpart) := by
  cases events with
  | @send input item answer items =>
      obtain rfl : relay.send input item = next :=
        Option.some.inj (Relay.step?_eq_some_iff.mpr step)
      refine ⟨_, Relay.step_send other input answer, alike.send lawful input items, ?_⟩
      rw [Relay.deedsOf_send, Relay.deedsOf_send]
      exact .nil
  | write index output causes => exact alike.write step causes
  | same unladen => exact alike.plain lawful step unladen read

end

end Relays

end Likeness

end TrafficRelay
