import Mathlib.Data.List.Induction
import TrafficRelay.Proofs.SessionRest
import TrafficRelay.Proofs.TallyConservation
import TrafficRelay.Relay.Supervisor

/-!
# The lifecycle of a supervised relay

What the supervisor has reported follows from where it stands and from whether it
has noticed the signal, and every reader that it has joined is closed.  So a
supervised relay shows runs of the relay and no others, moves on only after the
signal has been raised, and is at rest once it has been reported to have stopped.
-/

namespace TrafficRelay

namespace Relay

variable {relay next last : Relay} {event : Event} {events : List Event}

theorem Step.closed (step : Step relay event next) {index : Nat} {reader : Reader}
    (found : next.readers[index]? = some reader)
    (closed : ∀ before, relay.readers[index]? = some before → before.phase = .closed) :
    reader.phase = .closed := by
  rcases step.change with
    ⟨-, same⟩ | ⟨changing, before, changed, present, change, set⟩
  · exact closed reader (same ▸ found)
  · rw [set] at found
    by_cases here : changing = index
    · subst changing
      have inRange := (List.getElem?_eq_some_iff.mp present).1
      rw [List.getElem?_set_self inRange] at found
      exact Option.some.inj found ▸ change.closed (closed before present)
    · rw [List.getElem?_set_ne here] at found
      exact closed reader found

theorem phase_of_allClosed (closed : relay.allClosed = true) {index : Nat}
    {reader : Reader} (found : relay.readers[index]? = some reader) :
    reader.phase = .closed :=
  of_decide_eq_true (List.all_eq_true.mp closed reader (List.mem_of_getElem? found))

/-- Nothing is read, written or queued any more once every reader is closed, and
nothing is counted. -/
theorem Step.rests (step : Step relay event next) (closed : relay.allClosed = true) :
    relay.occurrences event = [] ∧ next.tally = relay.tally := by
  cases step with
  | takeFrame found idle lowered read =>
      rw [phase_of_allClosed closed found] at idle
      cases idle
  | takeFailure found idle lowered read =>
      rw [phase_of_allClosed closed found] at idle
      cases idle
  | write found phase pending =>
      rw [phase_of_allClosed closed found] at phase
      cases phase
  | land found phase finished =>
      rw [phase_of_allClosed closed found] at phase
      cases phase
  | leave found idle due =>
      rw [phase_of_allClosed closed found] at idle
      cases idle
  | close found leaving =>
      rw [phase_of_allClosed closed found] at leaving
      cases leaving
  | send found accepts =>
      rw [Reader.accepts, Reader.isActive, phase_of_allClosed closed found] at accepts
      cases accepts
  | sendLost refused => exact ⟨by simp [occurrences, refused], rfl⟩
  | _ => exact ⟨rfl, rfl⟩

theorem Steps.rests (steps : Steps relay events last) (closed : relay.allClosed = true) :
    relay.history events = [] ∧ last.tally = relay.tally := by
  induction steps with
  | done relay => exact ⟨rfl, rfl⟩
  | step step steps induction =>
      obtain ⟨nothing, sameTally⟩ := step.rests closed
      obtain ⟨nothingLater, sameLater⟩ := induction (step.allClosed closed)
      rw [step.history_cons, nothing, nothingLater, sameLater, sameTally]
      exact ⟨rfl, rfl⟩

end Relay

/-- What the supervisor has last reported. -/
def Supervisor.reported (supervisor : Supervisor) : Lifecycle :=
  match supervisor.phase with
  | .joining | .waiting => if supervisor.draining then .draining else .running
  | .finished => .stopped

namespace SupervisedRelay

inductive Step (state : SupervisedRelay) : SupervisedEvent → SupervisedRelay → Prop where
  | aside {event : Event} {relay : Relay} :
      event ≠ .drain → event ≠ .stop → state.relay.Step event relay →
      Step state (.aside event) { state with relay }
  | join {index : Nat} {reader : Reader} :
      state.relay.readers[index]? = some reader → reader.phase = .closed →
      state.supervisor.phase = .joining → index ∈ state.supervisor.unjoined →
      Step state (.join index)
        { state with
          supervisor :=
            { state.supervisor with unjoined := state.supervisor.unjoined.erase index } }
  | notice :
      state.supervisor.phase = .joining → state.supervisor.draining = false →
      state.relay.signal.isRaised = true →
      Step state .notice
        ⟨{ state.relay with lifecycle := .draining },
          { state.supervisor with draining := true }⟩
  | leaveLoop :
      state.supervisor.phase = .joining → state.supervisor.unjoined = [] →
      Step state .leaveLoop
        { state with supervisor := { state.supervisor with phase := .waiting } }
  | finish :
      state.supervisor.phase = .waiting →
      state.supervisor.draining = true ∨ state.relay.signal.isRaised = true →
      Step state .finish
        ⟨{ state.relay with lifecycle := .stopped },
          { state.supervisor with phase := .finished }⟩

variable {state next last : SupervisedRelay} {event : SupervisedEvent}
  {events : List SupervisedEvent}

theorem step?_aside (state : SupervisedRelay) {event : Event} (notDrain : event ≠ .drain)
    (notStop : event ≠ .stop) :
    state.step? (.aside event) =
      (state.relay.step? event).map fun relay => { state with relay } := by
  cases event with
  | drain => exact (notDrain rfl).elim
  | stop => exact (notStop rfl).elim
  | _ => rfl

theorem step?_eq_some_iff : state.step? event = some next ↔ Step state event next := by
  constructor
  · intro stepped
    cases event with
    | aside event =>
        by_cases notDrain : event = .drain
        · subst event
          cases stepped
        by_cases notStop : event = .stop
        · subst event
          cases stepped
        rw [step?_aside state notDrain notStop] at stepped
        obtain ⟨relay, changed, rfl⟩ := Option.map_eq_some_iff.mp stepped
        exact .aside notDrain notStop (Relay.step?_eq_some_iff.mp changed)
    | join index =>
        obtain ⟨reader, found, result⟩ := Option.bind_eq_some_iff.mp stepped
        split at result
        · rename_i due
          cases result
          exact .join found due.2.2 due.1 due.2.1
        · cases result
    | notice =>
        simp only [step?, notice?] at stepped
        split at stepped
        · rename_i due
          cases stepped
          exact .notice due.1 due.2.1 due.2.2
        · cases stepped
    | leaveLoop =>
        simp only [step?, leaveLoop?] at stepped
        split at stepped
        · rename_i due
          cases stepped
          exact .leaveLoop due.1 due.2
        · cases stepped
    | finish =>
        simp only [step?, finish?] at stepped
        split at stepped
        · rename_i due
          cases stepped
          exact .finish due.1 due.2
        · cases stepped
  · intro step
    cases step with
    | aside notDrain notStop step =>
        rw [step?_aside state notDrain notStop, Relay.step?_eq_some_iff.mpr step]
        rfl
    | join found closed joining member =>
        simp [step?, join?, found, closed, joining, member]
    | notice joining unnoticed raised =>
        simp [step?, notice?, joining, unnoticed, raised]
    | leaveLoop joining none => simp [step?, leaveLoop?, joining, none]
    | finish waiting due =>
        simp only [step?, finish?]
        rw [if_pos ⟨waiting, due⟩]

theorem run?_append {later : List SupervisedEvent} :
    state.run? (events ++ later) = some last ↔
      ∃ middle, state.run? events = some middle ∧ middle.run? later = some last := by
  rw [run?, List.foldlM_append]
  exact Option.bind_eq_some_iff

theorem run?_cons : state.run? (event :: events) = some last ↔
    ∃ middle, Step state event middle ∧ middle.run? events = some last := by
  rw [run?, List.foldlM_cons, Option.bind_eq_bind, Option.bind_eq_some_iff]
  simp only [step?_eq_some_iff]
  rfl

theorem run?_singleton : state.run? [event] = some last ↔ Step state event last := by
  rw [run?_cons]
  constructor
  · rintro ⟨middle, step, rest⟩
    exact Option.some.inj rest ▸ step
  · intro step
    exact ⟨last, step, rfl⟩

/-- Every reader that is not to be joined any more is closed, none is left once the
supervisor has left its loop, and the relay is in the state that it has reported. -/
structure Sound (state : SupervisedRelay) : Prop where
  joined : ∀ index reader, state.relay.readers[index]? = some reader →
    index ∉ state.supervisor.unjoined → reader.phase = .closed
  left : state.supervisor.phase ≠ .joining → state.supervisor.unjoined = []
  lifecycle : state.relay.lifecycle = state.supervisor.reported

theorem supervise_sound (assembly : Assembly) (signal : Signal) (now : Instant) :
    (assembly.supervise signal now).Sound where
  joined index reader found awaited := by
    have inRange := (List.getElem?_eq_some_iff.mp found).1
    have count : (assembly.launch signal now).readers.length = assembly.inputs.length :=
      List.length_map _
    exact (awaited (List.mem_range.mpr (count ▸ inRange))).elim
  left away := (away rfl).elim
  lifecycle := rfl

theorem Sound.allClosed (sound : state.Sound) (none : state.supervisor.unjoined = []) :
    state.relay.allClosed = true := by
  apply List.all_eq_true.mpr
  intro reader member
  obtain ⟨index, found⟩ := List.getElem?_of_mem member
  exact decide_eq_true (sound.joined index reader found (by simp [none]))

theorem Step.sound (step : Step state event next) (sound : state.Sound) : next.Sound := by
  obtain ⟨joined, left, lifecycle⟩ := sound
  cases step with
  | aside notDrain notStop step =>
      refine ⟨?_, left, (step.lifecycle notDrain notStop).trans lifecycle⟩
      intro index reader found awaited
      exact step.closed found fun before present => joined index before present awaited
  | @join joining reader found closed phase member =>
      refine ⟨?_, fun away => (away phase).elim, lifecycle⟩
      intro index other present awaited
      by_cases same : index = joining
      · subst index
        rw [found] at present
        exact Option.some.inj present ▸ closed
      · refine joined index other present fun before => awaited ?_
        exact (List.mem_erase_of_ne same).mpr before
  | notice joining unnoticed raised =>
      refine ⟨joined, left, ?_⟩
      simp [Supervisor.reported, joining]
  | leaveLoop joining none =>
      refine ⟨joined, fun _ => none, ?_⟩
      rw [lifecycle, Supervisor.reported, joining]
      rfl
  | finish waiting due =>
      refine ⟨joined, fun _ => left ?_, rfl⟩
      rw [waiting]
      nofun

theorem run_sound (sound : state.Sound) (ran : state.run? events = some last) :
    last.Sound := by
  induction events using List.reverseRecOn generalizing last with
  | nil =>
      obtain rfl := Option.some.inj ran
      exact sound
  | append_singleton events event induction =>
      obtain ⟨middle, earlier, step⟩ := run?_append.mp ran
      exact (run?_singleton.mp step).sound (induction earlier)

/-- What a supervised relay shows of a step is a step of the relay. -/
theorem Step.shown (step : Step state event next) (sound : state.Sound) :
    event.shown? = none ∧ next.relay = state.relay ∨
      ∃ shown, event.shown? = some shown ∧ state.relay.Step shown next.relay := by
  have reported := sound.lifecycle
  cases step with
  | aside notDrain notStop step => exact Or.inr ⟨_, rfl, step⟩
  | join found closed joining member => exact Or.inl ⟨rfl, rfl⟩
  | notice joining unnoticed raised =>
      rw [Supervisor.reported, joining, unnoticed] at reported
      exact Or.inr ⟨_, rfl, .drain reported raised⟩
  | leaveLoop joining none => exact Or.inl ⟨rfl, rfl⟩
  | finish waiting due =>
      have closed := sound.allClosed (sound.left (by rw [waiting]; nofun))
      refine Or.inr ⟨_, rfl, .stop closed ?_⟩
      rw [Supervisor.reported, waiting] at reported
      cases draining : state.supervisor.draining with
      | true =>
          rw [draining] at reported
          exact Or.inl reported
      | false =>
          rw [draining] at reported due
          exact Or.inr ⟨reported, due.resolve_left nofun⟩

theorem run_shown (sound : state.Sound) (ran : state.run? events = some last) :
    Relay.Steps state.relay (events.filterMap SupervisedEvent.shown?) last.relay := by
  induction events generalizing state with
  | nil =>
      obtain rfl := Option.some.inj ran
      exact .done _
  | cons event events induction =>
      obtain ⟨middle, step, later⟩ := run?_cons.mp ran
      have others := induction (step.sound sound) later
      rcases step.shown sound with ⟨hidden, same⟩ | ⟨shown, found, step⟩
      · rw [List.filterMap_cons_none hidden, ← same]
        exact others
      · rw [List.filterMap_cons_some found]
        exact .step step others

/-- The supervisor moves the relay on, from running by way of draining or at once,
and at once only when it has joined every reader. -/
theorem Step.moves (step : Step state event next) (sound : state.Sound) :
    next.relay.lifecycle = state.relay.lifecycle ∨
      state.relay.lifecycle = .running ∧ next.relay.lifecycle = .draining ∧
        state.relay.signal.isRaised = true ∨
      state.relay.lifecycle = .draining ∧ next.relay.lifecycle = .stopped ∨
      state.relay.lifecycle = .running ∧ next.relay.lifecycle = .stopped ∧
        state.relay.signal.isRaised = true ∧ state.supervisor.unjoined = [] := by
  have reported := sound.lifecycle
  cases step with
  | aside notDrain notStop step => exact Or.inl (step.lifecycle notDrain notStop)
  | join found closed joining member => exact Or.inl rfl
  | notice joining unnoticed raised =>
      rw [Supervisor.reported, joining, unnoticed] at reported
      exact Or.inr (Or.inl ⟨reported, rfl, raised⟩)
  | leaveLoop joining none => exact Or.inl rfl
  | finish waiting due =>
      have none := sound.left (by rw [waiting]; nofun)
      rw [Supervisor.reported, waiting] at reported
      cases draining : state.supervisor.draining with
      | true =>
          rw [draining] at reported
          exact Or.inr (Or.inr (Or.inl ⟨reported, rfl⟩))
      | false =>
          rw [draining] at reported due
          exact Or.inr (Or.inr (Or.inr
            ⟨reported, rfl, due.resolve_left nofun, none⟩))

/-- A relay that is not running any more was running when the signal was raised. -/
theorem exists_raised (sound : state.Sound) (running : state.relay.lifecycle = .running)
    (ran : state.run? events = some last) (moved : last.relay.lifecycle ≠ .running) :
    ∃ earlier later middle, events = earlier ++ later ∧
      state.run? earlier = some middle ∧ middle.relay.lifecycle = .running ∧
      middle.relay.signal.isRaised = true := by
  induction events using List.reverseRecOn generalizing last with
  | nil =>
      obtain rfl := Option.some.inj ran
      exact (moved running).elim
  | append_singleton events event induction =>
      obtain ⟨middle, before, step⟩ := run?_append.mp ran
      by_cases still : middle.relay.lifecycle = .running
      · refine ⟨events, [event], middle, rfl, before, still, ?_⟩
        rcases (run?_singleton.mp step).moves (run_sound sound before) with
          same | ⟨-, -, raised⟩ | ⟨draining, -⟩ | ⟨-, -, raised, -⟩
        · exact (moved (same.trans still)).elim
        · exact raised
        · rw [still] at draining
          cases draining
        · exact raised
      · obtain ⟨earlier, later, signalled, rfl, found⟩ := induction before still
        exact ⟨earlier, later ++ [event], signalled, by simp, found⟩

theorem Sound.unnoticed (sound : state.Sound)
    (unfinished : state.supervisor.phase = .joining)
    (running : state.relay.lifecycle = .running) : state.supervisor.draining = false := by
  have reported := sound.lifecycle
  rw [running, Supervisor.reported, unfinished] at reported
  cases draining : state.supervisor.draining with
  | false => rfl
  | true =>
      rw [draining] at reported
      cases reported

theorem Sound.noticed (sound : state.Sound) (drained : state.relay.lifecycle = .draining) :
    state.supervisor.draining = true := by
  have reported := sound.lifecycle
  rw [drained, Supervisor.reported] at reported
  cases draining : state.supervisor.draining with
  | true => rfl
  | false =>
      rw [draining] at reported
      cases phase : state.supervisor.phase <;> rw [phase] at reported <;> cases reported

theorem Sound.allClosed_of_stopped (sound : state.Sound)
    (stopped : state.relay.lifecycle = .stopped) : state.relay.allClosed = true := by
  refine sound.allClosed (sound.left ?_)
  intro joining
  have reported := sound.lifecycle
  rw [stopped, Supervisor.reported, joining] at reported
  cases draining : state.supervisor.draining <;> rw [draining] at reported <;>
    cases reported

theorem Sound.stays_stopped (sound : state.Sound)
    (stopped : state.relay.lifecycle = .stopped) (ran : state.run? events = some last) :
    last.relay.lifecycle = .stopped := by
  induction events generalizing state with
  | nil =>
      obtain rfl := Option.some.inj ran
      exact stopped
  | cons event events induction =>
      obtain ⟨middle, step, later⟩ := run?_cons.mp ran
      refine induction (step.sound sound) ?_ later
      rcases step.moves sound with same | ⟨running, -⟩ | ⟨draining, -⟩ | ⟨running, -⟩
      · exact same.trans stopped
      · rw [stopped] at running
        cases running
      · rw [stopped] at draining
        cases draining
      · rw [stopped] at running
        cases running

/-- Closed readers can be joined one after another. -/
theorem run?_join {relay : Relay} {draining : Bool} {unjoined : List Nat}
    (closed : relay.allClosed = true)
    (inRange : ∀ index ∈ unjoined, index < relay.readers.length) :
    SupervisedRelay.run? ⟨relay, unjoined, draining, .joining⟩
        (unjoined.map SupervisedEvent.join) =
      some ⟨relay, [], draining, .joining⟩ := by
  induction unjoined with
  | nil => rfl
  | cons index unjoined induction =>
      obtain ⟨first, others⟩ := List.forall_mem_cons.mp inRange
      have found := List.getElem?_eq_getElem first
      have step : Step ⟨relay, index :: unjoined, draining, .joining⟩ (.join index) _ :=
        .join found (Relay.phase_of_allClosed closed found) rfl List.mem_cons_self
      rw [List.erase_cons_head] at step
      exact run?_cons.mpr ⟨_, step, induction others⟩

/-- When every reader is closed, a supervisor that has noticed the signal or could
notice it can bring the relay to its end. -/
theorem run?_finish {relay : Relay} {draining : Bool} {unjoined : List Nat}
    (closed : relay.allClosed = true)
    (inRange : ∀ index ∈ unjoined, index < relay.readers.length)
    (due : draining = true ∨ relay.signal.isRaised = true) :
    SupervisedRelay.run? ⟨relay, unjoined, draining, .joining⟩
        (unjoined.map SupervisedEvent.join ++ [.leaveLoop, .finish]) =
      some ⟨{ relay with lifecycle := .stopped }, [], draining, .finished⟩ := by
  have leaves : Step ⟨relay, [], draining, .joining⟩ .leaveLoop
      ⟨relay, [], draining, .waiting⟩ := .leaveLoop rfl rfl
  have finishes : Step ⟨relay, [], draining, .waiting⟩ .finish
      ⟨{ relay with lifecycle := .stopped }, [], draining, .finished⟩ := .finish rfl due
  exact run?_append.mpr ⟨_, run?_join closed inRange,
    run?_cons.mpr ⟨_, leaves, run?_singleton.mpr finishes⟩⟩

/-- No reader has been joined, or the supervisor has finished. -/
def Postpones (state : SupervisedRelay) : Prop :=
  state.supervisor.phase = .joining ∧
      state.supervisor.unjoined = List.range state.relay.readers.length ∨
    state.supervisor.phase = .finished

theorem Postpones.joining (postpones : state.Postpones) (sound : state.Sound)
    (unstopped : state.relay.lifecycle ≠ .stopped) :
    state.supervisor =
      ⟨List.range state.relay.readers.length, state.supervisor.draining, .joining⟩ := by
  rcases postpones with ⟨joining, unjoined⟩ | finished
  · rw [← joining, ← unjoined]
  · refine (unstopped ?_).elim
    rw [sound.lifecycle, Supervisor.reported, finished]

/-- A supervisor that has put off joining readers can let any step of the relay
happen. -/
theorem Postpones.exists_run (postpones : state.Postpones) (sound : state.Sound)
    {event : Event} {relay : Relay} (step : state.relay.Step event relay) :
    ∃ supervised supervisor, state.run? supervised = some ⟨relay, supervisor⟩ ∧
      supervised.filterMap SupervisedEvent.shown? = [event] ∧
      Postpones ⟨relay, supervisor⟩ := by
  by_cases drains : event = .drain
  · subst event
    cases step with
    | drain running raised =>
        have unstopped : state.relay.lifecycle ≠ .stopped := by simp [running]
        have joining := congrArg Supervisor.phase (postpones.joining sound unstopped)
        have notice : Step state .notice _ :=
          .notice joining (sound.unnoticed joining running) raised
        exact ⟨[.notice], _, run?_singleton.mpr notice, rfl, postpones⟩
  by_cases stops : event = .stop
  · subst event
    cases step with
    | stop closed due =>
        have unstopped : state.relay.lifecycle ≠ .stopped := by
          rcases due with draining | ⟨running, -⟩
          · simp [draining]
          · simp [running]
        have noticed :
            state.supervisor.draining = true ∨ state.relay.signal.isRaised = true := by
          rcases due with draining | ⟨-, raised⟩
          · exact Or.inl (sound.noticed draining)
          · exact Or.inr raised
        have inRange : ∀ index ∈ List.range state.relay.readers.length,
            index < state.relay.readers.length := fun index => List.mem_range.mp
        have finishes := run?_finish closed inRange noticed
        rw [← postpones.joining sound unstopped] at finishes
        refine ⟨_, _, finishes, ?_, Or.inr rfl⟩
        have hidden : (List.range state.relay.readers.length).filterMap
            (SupervisedEvent.shown? ∘ SupervisedEvent.join) = [] :=
          List.filterMap_eq_nil_iff.mpr fun _ _ => rfl
        rw [List.filterMap_append, List.filterMap_map, hidden]
        rfl
  · have aside : Step state (.aside event) ⟨relay, state.supervisor⟩ :=
      .aside drains stops step
    refine ⟨[.aside event], state.supervisor, run?_singleton.mpr aside, rfl, ?_⟩
    rw [Postpones, step.reader_lt.2]
    exact postpones

/-- So a supervised relay shows every run of the relay. -/
theorem Postpones.exists_runs (postpones : state.Postpones) (sound : state.Sound)
    {events : List Event} {relay : Relay}
    (steps : Relay.Steps state.relay events relay) :
    ∃ supervised supervisor, state.run? supervised = some ⟨relay, supervisor⟩ ∧
      supervised.filterMap SupervisedEvent.shown? = events := by
  generalize started : state.relay = start at steps
  induction steps generalizing state with
  | done relay => exact ⟨[], state.supervisor, by rw [← started]; rfl, rfl⟩
  | step step steps induction =>
      subst started
      obtain ⟨first, supervisor, ran, shown, still⟩ := postpones.exists_run sound step
      obtain ⟨others, last, ranOthers, shownOthers⟩ :=
        induction still (run_sound sound ran) rfl
      refine ⟨first ++ others, last, run?_append.mpr ⟨_, ran, ranOthers⟩, ?_⟩
      rw [List.filterMap_append, shown, shownOthers]
      rfl

end SupervisedRelay

namespace Assembly

open SupervisedRelay

theorem exists_supervised_run {assembly : Assembly} {signal : Signal} {now : Instant}
    {events : List Event} {last : Relay}
    (ran : (assembly.launch signal now).run? events = some last) :
    ∃ supervised supervisor,
      (assembly.supervise signal now).run? supervised = some ⟨last, supervisor⟩ ∧
      supervised.filterMap SupervisedEvent.shown? = events := by
  have count : (assembly.launch signal now).readers.length = assembly.inputs.length :=
    List.length_map _
  have postpones : (assembly.supervise signal now).Postpones :=
    Or.inl ⟨rfl, congrArg List.range count.symm⟩
  exact postpones.exists_runs (supervise_sound assembly signal now)
    (Relay.run?_eq_some_iff.mp ran)

/-- What holds wherever a run of a supervised relay stands. -/
structure Supervises (assembly : Assembly) (signal : Signal) (now : Instant)
    (events : List SupervisedEvent) (last : SupervisedRelay) : Prop where
  shown :
    (assembly.launch signal now).run? (events.filterMap SupervisedEvent.shown?) =
      some last.relay
  moves : ∀ event next, last.step? event = some next →
    next.relay.lifecycle = last.relay.lifecycle ∨
      last.relay.lifecycle = .running ∧ next.relay.lifecycle = .draining ∨
      last.relay.lifecycle = .draining ∧ next.relay.lifecycle = .stopped ∨
      last.relay.lifecycle = .running ∧ next.relay.lifecycle = .stopped ∧
        last.supervisor.unjoined = [] ∧ last.relay.allClosed = true
  signalled : last.relay.lifecycle ≠ .running →
    ∃ earlier later state, events = earlier ++ later ∧
      (assembly.supervise signal now).run? earlier = some state ∧
      state.relay.lifecycle = .running ∧ state.relay.signal.isRaised = true
  idles :
    (∀ earlier later state, events = earlier ++ later →
      (assembly.supervise signal now).run? earlier = some state →
      state.relay.signal.isRaised = false) →
    last.relay.lifecycle = .running
  stopped : last.relay.lifecycle = .stopped →
    last.relay.allClosed = true ∧ last.relay.Quiet ∧
      last.relay.tally.inputsClosed = last.relay.tally.inputsStarted
  rests : last.relay.lifecycle = .stopped →
    ∀ more final, last.run? more = some final →
      final.relay.lifecycle = .stopped ∧ final.relay.tally = last.relay.tally ∧
        last.relay.history (more.filterMap SupervisedEvent.shown?) = []

/-- Whatever the inputs and the outputs, and however readers, writes, signal and
supervisor are interleaved, the lifecycle only moves on, never before the signal, and
not to its end before every reader is closed and joined; after that, nothing happens. -/
theorem run_supervises (assembly : Assembly) (signal : Signal) (now : Instant)
    {events : List SupervisedEvent} {last : SupervisedRelay}
    (ran : (assembly.supervise signal now).run? events = some last) :
    assembly.Supervises signal now events last := by
  have launched := supervise_sound assembly signal now
  have sound := run_sound launched ran
  have steps : Relay.Steps (assembly.launch signal now) _ last.relay :=
    run_shown launched ran
  have raised : last.relay.lifecycle ≠ .running → _ := exists_raised launched rfl ran
  constructor
  case shown => exact Relay.run?_eq_some_iff.mpr steps
  case moves =>
    intro event next stepped
    rcases (step?_eq_some_iff.mp stepped).moves sound with
      same | ⟨running, draining, -⟩ | drained | ⟨running, stopped, -, none⟩
    · exact Or.inl same
    · exact Or.inr (Or.inl ⟨running, draining⟩)
    · exact Or.inr (Or.inr (Or.inl drained))
    · exact Or.inr (Or.inr (Or.inr ⟨running, stopped, none, sound.allClosed none⟩))
  case signalled => exact raised
  case idles =>
    intro unraised
    by_contra moved
    obtain ⟨earlier, later, state, split, before, -, isRaised⟩ := raised moved
    rw [unraised earlier later state split before] at isRaised
    cases isRaised
  case stopped =>
    intro stopped
    have closed := sound.allClosed_of_stopped stopped
    refine ⟨closed, Relay.quiet_of_allClosed closed, ?_⟩
    rw [steps.tally_eq]
    exact congrArg Counter.ofNat (steps.closedReaders_of_allClosed closed)
  case rests =>
    intro stopped more final later
    obtain ⟨nothing, sameTally⟩ :=
      (run_shown sound later).rests (sound.allClosed_of_stopped stopped)
    exact ⟨sound.stays_stopped stopped later, sameTally, nothing⟩

/-- One input has ended and its reader has been joined when the signal is raised; the
frame that the other reader has in flight is still written. -/
theorem run_supervises_draining :
    let assembly : Assembly :=
      ⟨⟨⟨⟨[]⟩, .empty 5 1 0⟩, .ofPolicy .broadcast⟩,
        [("a", .ofItems []), ("b", .ofItems [.frame (Sample.get 97), .frame (Sample.get 97)])],
        ["x"], false⟩
    let events : List SupervisedEvent :=
      [.aside (.take 1), .aside (.leave 0), .aside (.close 0), .join 0,
        .aside (.setSignal true), .notice, .aside (.write 1 0 none), .aside (.land 1),
        .aside (.leave 1), .aside (.close 1), .join 1, .leaveLoop, .finish]
    ∃ last, (assembly.supervise .lowered 0).run? events = some last ∧
      last.relay.lifecycle = .stopped ∧
      last.relay.tally.toList.map Counter.toNat = [1, 0, 0, 1, 1, 0, 0, 2, 2] ∧
      assembly.Supervises .lowered 0 events last := by
  intro assembly events
  have runs : ((assembly.supervise .lowered 0).run? events).isSome = true := by rfl
  obtain ⟨last, ran⟩ := Option.isSome_iff_exists.mp runs
  have shown : (((assembly.supervise .lowered 0).run? events).map fun state =>
      (state.relay.lifecycle, state.relay.tally.toList.map Counter.toNat)) =
        some (.stopped, [1, 0, 0, 1, 1, 0, 0, 2, 2]) := by rfl
  rw [ran, Option.map_some] at shown
  obtain ⟨stopped, counters⟩ := Prod.mk.inj (Option.some.inj shown)
  exact ⟨last, ran, stopped, counters, run_supervises assembly .lowered 0 ran⟩

end Assembly

end TrafficRelay
