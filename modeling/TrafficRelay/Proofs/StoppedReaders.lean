import TrafficRelay.Proofs.JournalCounts
import TrafficRelay.Proofs.SessionRest

/-!
# How readers stop

A reader stops reading at a read error, at the end of its inlet, or when the signal is
raised, and whatever its inlet may still hold then remains there for good.
-/

namespace TrafficRelay

namespace Inlet

variable {inlet rest : Inlet} {item : Item}

theorem senders_of_read (read : inlet.read = .item item rest) :
    rest.senders = inlet.senders := by
  unfold Inlet.read at read
  split at read
  · cases read
    rfl
  · split at read <;> cases read

theorem eq_of_ended (ended : inlet.read = .ended) : inlet = ⟨[], 0⟩ := by
  obtain ⟨queue, senders⟩ := inlet
  cases queue with
  | cons item queue => cases ended
  | nil =>
      simp only [Inlet.read] at ended
      split at ended
      · rename_i none
        rw [none]
      · cases ended

theorem queue_of_pending (pending : inlet.read = .pending) :
    inlet.queue = [] ∧ inlet.senders ≠ 0 := by
  obtain ⟨queue, senders⟩ := inlet
  cases queue with
  | cons item queue => cases pending
  | nil =>
      simp only [Inlet.read] at pending
      split at pending
      · cases pending
      · rename_i some
        exact ⟨rfl, some⟩

end Inlet

namespace Reader

/-- A reader goes on after every decision. -/
theorem isActive_phaseAfter (name : String) (inlet : Inlet) (frame : Bytes)
    (decision : Decision) :
    isActive ⟨name, inlet, Relay.phaseAfter frame decision⟩ = true := by
  cases decision with
  | malformed error => rfl
  | filtered => rfl
  | routed outputs => cases outputs <;> rfl

variable {index : Nat} {reader changed : Reader} {occurred : List Occurrence}

/-- A reader that has stopped takes nothing, and nothing is sent to it. -/
theorem Change.inactive (change : Change index reader occurred changed)
    (inactive : reader.isActive = false) :
    changed.isActive = false ∧ occurred = [] ∧
      (reader.inlet = ⟨[], 0⟩ → changed.inlet = ⟨[], 0⟩) := by
  cases change with
  | takeFrame instant decision idle read => simp [isActive, idle] at inactive
  | takeFailure idle read => simp [isActive, idle] at inactive
  | write phase pending => simp [isActive, phase] at inactive
  | land phase finished => simp [isActive, phase] at inactive
  | leave idle => simp [isActive, idle] at inactive
  | close leaving => exact ⟨rfl, rfl, id⟩
  | send accepts =>
      have active := (Bool.and_eq_true_iff.mp accepts).1
      rw [inactive] at active
      cases active
  | endInput =>
      refine ⟨inactive, rfl, fun ended => ?_⟩
      rw [ended]
      rfl

/-- An active reader stops in its turn by running into an error, or it leaves. -/
theorem Turn.stops {entries : List JournalEntry} (turn : Turn index reader entries changed)
    (active : reader.isActive = true) (inactive : changed.isActive = false) :
    (∃ error, entries = [.occurred (.readFailed index error)]) ∨
      entries = [.left index] ∧ changed = { reader with phase := .leaving } := by
  cases turn with
  | occurs change =>
      cases change with
      | takeFrame instant decision idle read =>
          rw [isActive_phaseAfter] at inactive
          cases inactive
      | @takeFailure error inlet idle read => exact Or.inl ⟨error, rfl⟩
      | write phase pending => cases inactive
      | send accepts =>
          rw [isActive] at active inactive
          rw [active] at inactive
          cases inactive
  | land phase finished => cases inactive
  | leave idle => exact Or.inr ⟨rfl, rfl⟩
  | close leaving => simp [isActive, leaving] at active
  | endInput =>
      rw [isActive] at active inactive
      rw [active] at inactive
      cases inactive

end Reader

namespace Relay

/-- The reader of an input has stopped, if there is one. -/
def HasStopped (relay : Relay) (index : Nat) : Prop :=
  ∀ reader, relay.readers[index]? = some reader → reader.isActive = false

/-- The signal is raised at some point of a run. -/
def GetsRaised (relay : Relay) (events : List Event) : Prop :=
  ∃ earlier later state, events = earlier ++ later ∧ relay.run? earlier = some state ∧
    state.signal.isRaised = true

variable {relay next last : Relay} {event : Event} {events : List Event} {index : Nat}

theorem GetsRaised.cons (step : Step relay event next) (raised : next.GetsRaised events) :
    relay.GetsRaised (event :: events) := by
  obtain ⟨earlier, later, state, rfl, ran, raised⟩ := raised
  refine ⟨event :: earlier, later, state, rfl, ?_, raised⟩
  exact run?_eq_some_iff.mpr (.step step (run?_eq_some_iff.mp ran))

theorem Step.stopped (step : Step relay event next) (stopped : relay.HasStopped index) :
    next.HasStopped index ∧
      (relay.occurrences event).filterMap (Occurrence.taken? index) = [] := by
  rcases step.change with ⟨nothing, same⟩ | ⟨changing, reader, changed, found, change, set⟩
  · refine ⟨fun reader present => stopped reader ?_, ?_⟩
    · rw [← same]
      exact present
    · rw [nothing]
      rfl
  · by_cases here : changing = index
    · subst changing
      obtain ⟨inactive, nothing, -⟩ := change.inactive (stopped reader found)
      refine ⟨fun after present => ?_, by rw [nothing]; rfl⟩
      rw [set, List.getElem?_set_self (List.getElem?_eq_some_iff.mp found).1] at present
      rw [← Option.some.inj present]
      exact inactive
    · refine ⟨fun after present => stopped after ?_, ((carries_items index).other change here).2⟩
      rwa [set, List.getElem?_set_ne here] at present

/-- Once a reader has stopped, it takes nothing more. -/
theorem Steps.stopped (steps : Steps relay events last) (stopped : relay.HasStopped index) :
    (relay.history events).filterMap (Occurrence.taken? index) = [] := by
  induction steps with
  | done relay => rfl
  | step step steps induction =>
      obtain ⟨still, nothing⟩ := step.stopped stopped
      rw [step.history_cons, List.filterMap_append, nothing, induction still]
      rfl

/-- The reader that runs into an error stops. -/
theorem Step.stops_of_readFailed (step : Step relay event next) {error : IoError}
    (failed : .readFailed index error ∈ relay.occurrences event) :
    next.HasStopped index ∧ relay.occurrences event = [.readFailed index error] := by
  rcases step.change with ⟨nothing, -⟩ | ⟨changing, reader, changed, found, change, set⟩
  · rw [nothing] at failed
    cases failed
  · generalize relay.occurrences event = occurred at failed change ⊢
    cases change with
    | takeFailure idle read =>
        cases List.mem_singleton.mp failed
        refine ⟨fun after present => ?_, rfl⟩
        rw [set, List.getElem?_set_self (List.getElem?_eq_some_iff.mp found).1] at present
        rw [← Option.some.inj present]
        rfl
    | takeFrame instant decision idle read => cases List.mem_singleton.mp failed
    | write phase pending => cases List.mem_singleton.mp failed
    | send accepts => cases List.mem_singleton.mp failed
    | _ => cases failed

theorem failed_of_mem_failedReader? {happened : List Occurrence}
    (member : index ∈ happened.filterMap Occurrence.failedReader?) :
    ∃ error, .readFailed index error ∈ happened := by
  obtain ⟨occurrence, happens, failed⟩ := List.mem_filterMap.mp member
  cases occurrence with
  | readFailed reader error =>
      cases failed
      exact ⟨error, happens⟩
  | _ => cases failed

/-- No reader runs into an error twice. -/
theorem Steps.nodup_failed (steps : Steps relay events last) :
    ((relay.history events).filterMap Occurrence.failedReader?).Nodup := by
  induction steps with
  | done relay => exact List.nodup_nil
  | @step relay next last event events step steps induction =>
      rw [step.history_cons, List.filterMap_append]
      cases now : (relay.occurrences event).filterMap Occurrence.failedReader? with
      | nil => exact induction
      | cons index others =>
          have member : index ∈
              (relay.occurrences event).filterMap Occurrence.failedReader? := by
            rw [now]
            exact List.mem_cons_self
          obtain ⟨error, failed⟩ := failed_of_mem_failedReader? member
          obtain ⟨stopped, only⟩ := step.stops_of_readFailed failed
          rw [only] at now
          cases now
          refine List.nodup_cons.mpr ⟨fun again => ?_, induction⟩
          obtain ⟨answer, later⟩ := failed_of_mem_failedReader? again
          have taken := List.filterMap_eq_nil_iff.mp (steps.stopped stopped) _ later
          simp [Occurrence.taken?] at taken

/-- In a step a reader takes nothing, or a frame, or it runs into an error. -/
theorem Step.takes (step : Step relay event next) (index : Nat) :
    (relay.occurrences event).filterMap (Occurrence.taken? index) = [] ∨
      (∃ frame, (relay.occurrences event).filterMap (Occurrence.taken? index) =
        [.frame frame]) ∨
      ∃ error, relay.occurrences event = [.readFailed index error] := by
  rcases step.change with ⟨nothing, -⟩ | ⟨changing, reader, changed, found, change, set⟩
  · rw [nothing]
    exact Or.inl rfl
  · by_cases here : changing = index
    · subst changing
      generalize relay.occurrences event = occurred at change ⊢
      cases change with
      | @takeFrame frame inlet instant decision idle read =>
          refine Or.inr (Or.inl ⟨frame, ?_⟩)
          simp [Occurrence.taken?]
      | @takeFailure error inlet idle read => exact Or.inr (Or.inr ⟨error, rfl⟩)
      | _ => exact Or.inl rfl
    · exact Or.inl ((carries_items index).other change here).2

/-- Nothing is taken that is queued behind a read error. -/
theorem Steps.behind (steps : Steps relay events last) {front back : List Item}
    {error : IoError}
    (taken : (relay.history events).filterMap (Occurrence.taken? index) =
      front ++ .failure error :: back) : back = [] := by
  induction steps generalizing front with
  | done relay => cases (List.append_eq_nil_iff.mp taken.symm).2
  | @step relay next last event events step steps induction =>
      rw [step.history_cons, List.filterMap_append] at taken
      rcases step.takes index with nothing | ⟨frame, once⟩ | ⟨answer, failed⟩
      · rw [nothing, List.nil_append] at taken
        exact induction taken
      · rw [once] at taken
        cases front with
        | nil => cases taken
        | cons first front => exact induction (List.cons.inj taken).2
      · have stopped := (step.stops_of_readFailed (failed ▸ List.mem_singleton_self _)).1
        rw [steps.stopped stopped, List.append_nil, failed] at taken
        simp only [Occurrence.taken?, List.filterMap_cons, if_true, List.filterMap_nil] at taken
        cases front with
        | nil => exact (List.cons.inj taken).2.symm
        | cons first front => cases (List.append_eq_nil_iff.mp (List.cons.inj taken).2.symm).2

/-- An inlet that has ended under a reader that has stopped remains as it is. -/
theorem Step.exhausted (step : Step relay event next)
    (exhausted : ∀ reader, relay.readers[index]? = some reader →
      reader.isActive = false ∧ reader.inlet = ⟨[], 0⟩) :
    ∀ reader, next.readers[index]? = some reader →
      reader.isActive = false ∧ reader.inlet = ⟨[], 0⟩ := by
  intro after present
  rcases step.change with ⟨-, same⟩ | ⟨changing, reader, changed, found, change, set⟩
  · rw [same] at present
    exact exhausted after present
  · by_cases here : changing = index
    · subst changing
      obtain ⟨inactive, ended⟩ := exhausted reader found
      obtain ⟨still, -, remains⟩ := change.inactive inactive
      rw [set, List.getElem?_set_self (List.getElem?_eq_some_iff.mp found).1] at present
      rw [← Option.some.inj present]
      exact ⟨still, remains ended⟩
    · rw [set, List.getElem?_set_ne here] at present
      exact exhausted after present

theorem Steps.exhausted (steps : Steps relay events last)
    (exhausted : ∀ reader, relay.readers[index]? = some reader →
      reader.isActive = false ∧ reader.inlet = ⟨[], 0⟩) :
    ∀ reader, last.readers[index]? = some reader →
      reader.isActive = false ∧ reader.inlet = ⟨[], 0⟩ := by
  induction steps with
  | done relay => exact exhausted
  | step step steps induction => exact induction (step.exhausted exhausted)

theorem leave_of_entries (made : relay.entries event = [.left index]) :
    event = .leave index := by
  have occurs (occurred : List Occurrence) :
      occurred.map JournalEntry.occurred ≠ [.left index] := by
    cases occurred <;> simp
  cases event with
  | leave reader => simpa [entries] using made
  | land reader =>
      simp only [entries] at made
      split at made <;> simp at made
  | close reader => simp [entries] at made
  | _ => exact (occurs _ made).elim

/-- A step in which a reader stops is a read error, or the signal is raised, or its inlet
has ended. -/
theorem Step.stops (step : Step relay event next) {before after : Reader}
    (found : relay.readers[index]? = some before) (active : before.isActive = true)
    (present : next.readers[index]? = some after) (inactive : after.isActive = false) :
    (∃ error, .readFailed index error ∈ relay.occurrences event) ∨
      relay.signal.isRaised = true ∨ after.inlet = ⟨[], 0⟩ := by
  rcases step.turn with ⟨-, same⟩ | ⟨changing, reader, changed, listed, turn, set⟩
  · rw [same, found] at present
    cases present
    rw [active] at inactive
    cases inactive
  · by_cases here : changing = index
    · subst changing
      obtain rfl := Option.some.inj (listed.symm.trans found)
      rw [set, List.getElem?_set_self (List.getElem?_eq_some_iff.mp found).1] at present
      obtain rfl := Option.some.inj present
      rcases turn.stops active inactive with ⟨error, made⟩ | ⟨made, rfl⟩
      · refine Or.inl ⟨error, ?_⟩
        rw [← entries_occurrences, made]
        exact List.mem_singleton_self _
      · obtain rfl := leave_of_entries made
        cases step with
        | leave listed idle due =>
            obtain rfl := Option.some.inj (listed.symm.trans found)
            exact Or.inr (due.imp_right Inlet.eq_of_ended)
    · rw [set, List.getElem?_set_ne here, found] at present
      cases present
      rw [active] at inactive
      cases inactive

/-- A reader that has stopped has run into an error, or has left nothing behind, unless the
signal was raised. -/
theorem Steps.stops (steps : Steps relay events last) {before after : Reader}
    (found : relay.readers[index]? = some before) (active : before.isActive = true)
    (present : last.readers[index]? = some after) (inactive : after.isActive = false)
    (unfailed : index ∉ (relay.history events).filterMap Occurrence.failedReader?) :
    relay.GetsRaised events ∨ after.inlet = ⟨[], 0⟩ := by
  induction steps generalizing before with
  | done relay =>
      obtain rfl := Option.some.inj (found.symm.trans present)
      rw [active] at inactive
      cases inactive
  | @step relay next last event events step steps induction =>
      rw [step.history_cons, List.filterMap_append, List.mem_append, not_or] at unfailed
      obtain ⟨now, later⟩ := unfailed
      have inRange : index < next.readers.length := by
        rw [step.reader_lt.2]
        exact (List.getElem?_eq_some_iff.mp found).1
      have listed := List.getElem?_eq_getElem inRange
      cases still : next.readers[index].isActive with
      | true => exact (induction listed still present later).imp_left (.cons step)
      | false =>
          rcases step.stops found active listed still with ⟨error, failed⟩ | raised | ended
          · exact (now (List.mem_filterMap.mpr ⟨_, failed, rfl⟩)).elim
          · exact Or.inl ⟨[], event :: events, relay, rfl, rfl, raised⟩
          · refine Or.inr (steps.exhausted ?_ after present).2
            intro reader again
            obtain rfl := Option.some.inj (listed.symm.trans again)
            exact ⟨still, ended⟩

end Relay

end TrafficRelay
