import TrafficRelay.Proofs.JournalCounts

/-!
# From the taking of a frame to its landing

The outcomes of its writes are made known when a frame lands, whereas they are settled
one by one before that.  `Relay.Steps.yields` relates the two: what the readers' entries in
the journal amount to, reader by reader, is what the frames amount to that were in flight
or have been taken since, once the attempts at their writes have been made.
-/

namespace TrafficRelay

/-- An attempt of a reader to write to an output, with how it ends. -/
def Occurrence.attemptBy? (index : Nat) : Occurrence → Option (Nat × Option IoError)
  | .offered reader output _ refusal => if reader = index then some (output, refusal) else none
  | .handled _ | .readFailed _ _ | .queued _ _ => none

/-- The attempts that a reader makes to write to outputs, from the first to the last. -/
def attemptsBy (index : Nat) (happened : List Occurrence) : List (Nat × Option IoError) :=
  happened.filterMap (Occurrence.attemptBy? index)

/-- What becomes of a write: while it is pending, the first attempt at its output settles
it. -/
def Write.endedBy (attempts : List (Nat × Option IoError)) (write : Write) : Write :=
  match write.state, attempts.lookup write.output with
  | .pending, some refusal => { write with state := .after refusal }
  | _, _ => write

namespace Write

theorem endedBy_of_finished {attempts : List (Nat × Option IoError)} {write : Write}
    (finished : write.state ≠ .pending) : write.endedBy attempts = write := by
  unfold endedBy
  split
  · rename_i pending found
    exact (finished pending).elim
  · rfl

@[simp] theorem endedBy_nil : endedBy [] = id := by
  funext write
  unfold endedBy
  split
  · rename_i found
    cases found
  · rfl

/-- An attempt finishes the write or has nothing to do with it. -/
theorem endedBy_cons (output : Nat) (refusal : Option IoError)
    (attempts : List (Nat × Option IoError)) (write : Write) :
    write.endedBy ((output, refusal) :: attempts) =
      (Relay.finishWrite output refusal write).endedBy attempts := by
  obtain ⟨target, state⟩ := write
  by_cases pending : state = .pending
  · subst pending
    by_cases here : target = output
    · subst here
      rw [Relay.finishWrite_self]
      have finished : (⟨target, .after refusal⟩ : Write).state ≠ .pending := by
        cases refusal <;> nofun
      rw [endedBy_of_finished finished]
      simp [endedBy]
    · rw [Relay.finishWrite_of_ne here]
      have elsewhere : (target == output) = false := by simpa using here
      simp [endedBy, List.lookup_cons, elsewhere]
  · have finished : (⟨target, state⟩ : Write).state ≠ .pending := pending
    have untouched : Relay.finishWrite output refusal ⟨target, state⟩ = ⟨target, state⟩ :=
      if_neg fun both => pending both.2
    rw [endedBy_of_finished finished, untouched, endedBy_of_finished finished]

end Write

/-- What the doings of a reader amount to: a decision and a read error at once, a frame in
flight when it lands. -/
structure Yield (α : Type) where
  decided : Decision → List α
  failed : IoError → List α
  landed : List Write → List α

namespace Yield

variable {α : Type} (yield : Yield α) (index : Nat)

/-- What an entry of the journal amounts to, if it is one of this reader. -/
def ofEntry : JournalEntry → List α
  | .occurred (.handled handling) =>
      if handling.reader = index then yield.decided handling.decision else []
  | .occurred (.readFailed reader error) => if reader = index then yield.failed error else []
  | .landed reader writes => if reader = index then yield.landed writes else []
  | .occurred (.offered _ _ _ _) | .occurred (.queued _ _) | .left _ | .closed _ => []

/-- What a frame in flight will amount to, once these attempts have been made. -/
def ofPhase (attempts : List (Nat × Option IoError)) : ReaderPhase → List α
  | .inFlight _ writes => yield.landed (writes.map (Write.endedBy attempts))
  | .idle | .leaving | .closed => []

/-- What the reader holds in flight. -/
def held (attempts : List (Nat × Option IoError)) (relay : Relay) : List α :=
  relay.held (fun reader => yield.ofPhase attempts reader.phase) index

/-- What the items amount to that a reader takes, each when the attempts that follow have
been made. -/
def due : List Occurrence → List α
  | [] => []
  | .handled handling :: later =>
      (if handling.reader = index then
        yield.decided handling.decision ++
          yield.ofPhase (attemptsBy index later)
            (Relay.phaseAfter handling.frame handling.decision)
      else []) ++ due later
  | .readFailed reader error :: later =>
      (if reader = index then yield.failed error else []) ++ due later
  | .offered _ _ _ _ :: later | .queued _ _ :: later => due later

variable {yield index}

/-- A turn of the reader: what its entry amounts to and what the reader holds after it were
due before. -/
theorem own_turn {reader changed : Reader} {entries : List JournalEntry}
    (turn : Reader.Turn index reader entries changed) (later : List Occurrence) :
    let occurred := entries.filterMap JournalEntry.occurrence?
    entries.flatMap (yield.ofEntry index) ++
        (yield.ofPhase (attemptsBy index later) changed.phase ++ yield.due index later) =
      yield.ofPhase (attemptsBy index (occurred ++ later)) reader.phase ++
        yield.due index (occurred ++ later) := by
  intro occurred
  cases turn with
  | occurs change =>
      cases change with
      | takeFrame instant decision idle read =>
          simp [occurred, JournalEntry.occurrence?, ofEntry, ofPhase, due, idle]
      | takeFailure idle read =>
          simp [occurred, JournalEntry.occurrence?, ofEntry, ofPhase, due, idle]
      | @write output refusal frame writes phase pending =>
          have ended : writes.map (Write.endedBy ((output, refusal) :: attemptsBy index later)) =
              (writes.map (Relay.finishWrite output refusal)).map
                (Write.endedBy (attemptsBy index later)) := by
            rw [List.map_map]
            exact List.map_congr_left fun write _ => Write.endedBy_cons _ _ _ write
          have attempts : attemptsBy index (occurred ++ later) =
              (output, refusal) :: attemptsBy index later := by
            simp [occurred, JournalEntry.occurrence?, attemptsBy, Occurrence.attemptBy?]
          rw [attempts]
          simp only [occurred, JournalEntry.occurrence?, ofEntry, ofPhase, due, phase, ended,
            List.flatMap_cons, List.flatMap_nil, List.filterMap_cons, List.filterMap_nil,
            List.cons_append, List.nil_append]
      | send accepts =>
          simp [occurred, JournalEntry.occurrence?, ofEntry, due, attemptsBy,
            Occurrence.attemptBy?, List.filterMap_cons]
  | @land frame writes phase finished =>
      have settled : writes.map (Write.endedBy (attemptsBy index later)) = writes := by
        refine (List.map_congr_left fun write member => ?_).trans (List.map_id writes)
        exact Write.endedBy_of_finished (finished write member)
      simp [occurred, JournalEntry.occurrence?, ofEntry, ofPhase, phase, settled,
        List.filterMap_cons]
  | leave idle =>
      simp [occurred, JournalEntry.occurrence?, ofEntry, ofPhase, idle, List.filterMap_cons]
  | close leaving =>
      simp [occurred, JournalEntry.occurrence?, ofEntry, ofPhase, leaving, List.filterMap_cons]
  | endInput => simp [occurred]

/-- A turn of another reader has no part in what this one amounts to. -/
theorem other_turn {other : Nat} {reader changed : Reader} {entries : List JournalEntry}
    (turn : Reader.Turn other reader entries changed) (different : other ≠ index)
    (later : List Occurrence) :
    let occurred := entries.filterMap JournalEntry.occurrence?
    entries.flatMap (yield.ofEntry index) = [] ∧
      attemptsBy index (occurred ++ later) = attemptsBy index later ∧
      yield.due index (occurred ++ later) = yield.due index later := by
  intro occurred
  cases turn with
  | occurs change =>
      cases change <;>
        simp [occurred, JournalEntry.occurrence?, ofEntry, attemptsBy, Occurrence.attemptBy?,
          due, different, List.filterMap_cons]
  | _ => simp [occurred, JournalEntry.occurrence?, ofEntry, different, List.filterMap_cons]

end Yield

namespace Relay

variable {α : Type} {yield : Yield α} {index : Nat} {relay next last : Relay} {event : Event}
  {events : List Event}

theorem Step.yields (step : Step relay event next) (later : List Occurrence) :
    (relay.entries event).flatMap (yield.ofEntry index) ++
        (yield.held index (attemptsBy index later) next ++ yield.due index later) =
      yield.held index (attemptsBy index (relay.occurrences event ++ later)) relay ++
        yield.due index (relay.occurrences event ++ later) := by
  rw [← entries_occurrences]
  rcases step.turn with ⟨nothing, same⟩ | ⟨changing, reader, changed, found, turn, set⟩
  · simp [Yield.held, Relay.held, nothing, same]
  · by_cases here : changing = index
    · subst changing
      have inRange := (List.getElem?_eq_some_iff.mp found).1
      have before (attempts : List (Nat × Option IoError)) :
          yield.held index attempts relay = yield.ofPhase attempts reader.phase := by
        simp [Yield.held, Relay.held, found]
      have after (attempts : List (Nat × Option IoError)) :
          yield.held index attempts next = yield.ofPhase attempts changed.phase := by
        simp [Yield.held, Relay.held, set, inRange]
      rw [before, after]
      exact Yield.own_turn turn later
    · obtain ⟨nothing, attempts, due⟩ :=
        @Yield.other_turn _ yield _ _ _ _ _ turn here later
      have same : yield.held index (attemptsBy index later) next =
          yield.held index (attemptsBy index later) relay := by
        simp [Yield.held, Relay.held, set, here]
      rw [nothing, attempts, due, same, List.nil_append]

/-- What a reader's entries amount to, followed by what it then holds in flight, is what it
held before and what it has taken since. -/
theorem Steps.yields (steps : Steps relay events last) :
    (relay.journal events).flatMap (yield.ofEntry index) ++ yield.held index [] last =
      yield.held index (attemptsBy index (relay.history events)) relay ++
        yield.due index (relay.history events) := by
  induction steps with
  | done relay => simp [journal, history, attemptsBy, Yield.due]
  | step step steps induction =>
      rw [step.journal_cons, step.history_cons, List.flatMap_append, List.append_assoc,
        induction]
      exact step.yields _

end Relay

end TrafficRelay
