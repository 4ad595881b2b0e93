import Mathlib.Algebra.BigOperators.Group.List.Basic
import Mathlib.Algebra.GroupWithZero.Nat
import TrafficRelay.Proofs.OutputChoice
import TrafficRelay.Proofs.RelayJournal

/-!
# Balances over a run

A quantity that the readers of a relay hold balances if it grows by what the entries of
the journal bring in and falls by what they take out.  `Relay.Balances` asks this of a
single turn of a reader; then the amounts brought in over a whole run are those taken
out and those still held.  The frames in flight have the writes that were chosen for
them, each to an output of its own, which is `Relay.Sound`.
-/

namespace TrafficRelay

/-- The state of a write that has finished. -/
def WriteState.after : Option IoError → WriteState
  | none => .accepted
  | some cause => .refused cause

namespace Reader

/-- The writes of the frame in flight. -/
def writes (reader : Reader) : List Write :=
  match reader.phase with
  | .inFlight _ writes => writes
  | .idle | .leaving | .closed => []

def isInFlight (reader : Reader) : Bool :=
  match reader.phase with
  | .inFlight _ _ => true
  | .idle | .leaving | .closed => false

theorem writes_of_inFlight {reader : Reader} {frame : Bytes} {writes : List Write}
    (phase : reader.phase = .inFlight frame writes) : reader.writes = writes := by
  rw [Reader.writes, phase]

/-- A frame in flight has the writes of one choice of outputs. -/
def Sound (policy : Policy) (outputs : Nat) (reader : Reader) : Prop :=
  ∀ frame writes, reader.phase = .inFlight frame writes →
    writes ≠ [] ∧ ∃ turn session, writes.map Write.output = policy.choice outputs turn session

section

variable {policy : Policy} {outputs : Nat} {reader : Reader} {frame : Bytes}
  {writes : List Write}

theorem Sound.nodup (sound : reader.Sound policy outputs)
    (phase : reader.phase = .inFlight frame writes) : (writes.map Write.output).Nodup := by
  obtain ⟨-, turn, session, chosen⟩ := sound frame writes phase
  rw [chosen]
  exact Policy.nodup_choice

theorem Sound.output_lt (sound : reader.Sound policy outputs)
    (phase : reader.phase = .inFlight frame writes) {write : Write} (member : write ∈ writes) :
    write.output < outputs := by
  obtain ⟨-, turn, session, chosen⟩ := sound frame writes phase
  have listed := List.mem_map_of_mem (f := Write.output) member
  rw [chosen] at listed
  exact Policy.lt_of_mem_choice listed

/-- A frame in flight has as many writes as the policy demands, any other reader none. -/
theorem Sound.length_writes (sound : reader.Sound policy outputs) :
    reader.writes.length = policy.fanout outputs * if reader.isInFlight then 1 else 0 := by
  unfold Reader.writes isInFlight
  split
  · rename_i frame writes phase
    obtain ⟨nonempty, turn, session, chosen⟩ := sound frame writes phase
    have length := congrArg List.length chosen
    rw [List.length_map, Policy.length_choice] at length
    split at length
    · exact absurd (List.length_eq_zero_iff.mp length) nonempty
    · simpa using length
  all_goals simp

end

end Reader

namespace Relay

theorem finishWrite_output (output : Nat) (refusal : Option IoError) (write : Write) :
    (finishWrite output refusal write).output = write.output := by
  unfold finishWrite
  split <;> rfl

theorem finishWrite_of_ne {output : Nat} {refusal : Option IoError} {write : Write}
    (different : write.output ≠ output) : finishWrite output refusal write = write :=
  if_neg fun same => different same.1

theorem finishWrite_self (output : Nat) (refusal : Option IoError) :
    finishWrite output refusal ⟨output, .pending⟩ = ⟨output, .after refusal⟩ := by
  cases refusal <;> simp [finishWrite, WriteState.after]

/-- One of the writes passes a test that no pending write passes, once it has finished. -/
theorem countP_finishWrite {test : Write → Bool} {output : Nat} (refusal : Option IoError)
    (untested : test ⟨output, .pending⟩ = false) {writes : List Write}
    (nodup : (writes.map Write.output).Nodup) (pending : ⟨output, .pending⟩ ∈ writes) :
    (writes.map (finishWrite output refusal)).countP test =
      writes.countP test + if test ⟨output, .after refusal⟩ then 1 else 0 := by
  induction writes with
  | nil => cases pending
  | cons write writes induction =>
      obtain ⟨fresh, nodup⟩ := List.nodup_cons.mp nodup
      rcases List.mem_cons.mp pending with rfl | later
      · have untouched : writes.map (finishWrite output refusal) = writes := by
          refine (List.map_congr_left ?_).trans (List.map_id writes)
          intro other member
          exact finishWrite_of_ne fun same => fresh (List.mem_map.mpr ⟨other, member, same⟩)
        rw [List.map_cons, List.countP_cons, List.countP_cons, untouched, finishWrite_self,
          untested]
        rfl
      · have different : write.output ≠ output := by
          intro same
          exact fresh (List.mem_map.mpr ⟨_, later, same.symm⟩)
        rw [List.map_cons, List.countP_cons, List.countP_cons, induction nodup later,
          finishWrite_of_ne different]
        exact Nat.add_right_comm _ _ _

/-- Every frame in flight has the writes that were chosen for it. -/
structure Sound (policy : Policy) (outputs : Nat) (relay : Relay) : Prop where
  policy_eq : relay.stages.router.policy = policy
  outputs_eq : relay.outputs.length = outputs
  readers : ∀ reader ∈ relay.readers, reader.Sound policy outputs

variable {relay next last : Relay} {event : Event} {events : List Event}
  {policy : Policy} {outputs : Nat}

theorem launch_sound (assembly : Assembly) (signal : Signal) (now : Instant) :
    (assembly.launch signal now).Sound assembly.stages.router.policy
      assembly.outputs.length where
  policy_eq := rfl
  outputs_eq := rfl
  readers reader member frame writes phase :=
    (launch_quiet assembly signal now reader member frame writes phase).elim

/-- The decision of a frame is that of the stages as they were. -/
theorem Step.decides (step : Step relay event next) {handling : Handling}
    (made : relay.entries event = [.occurred (.handled handling)]) :
    relay.stages.decide relay.outputs.length handling.instant handling.frame =
      (handling.decision, next.stages) := by
  have happened := entries_occurrences relay event
  rw [made] at happened
  rcases step.stages with ⟨other, occurred, decided⟩ | ⟨nothing, -⟩
  · rw [← happened] at occurred
    cases occurred
    exact decided
  · rw [← happened] at nothing
    cases nothing

theorem Step.router_policy (step : Step relay event next) :
    next.stages.router.policy = relay.stages.router.policy := by
  rcases step.stages with ⟨handling, -, decided⟩ | ⟨-, same⟩
  · have kept := Stages.decide_policy relay.stages relay.outputs.length handling.instant
      handling.frame
    rw [decided] at kept
    exact kept
  · rw [same]

/-- Only a frame that has just been decided comes into flight, and the writes in flight
keep their outputs. -/
theorem Sound.turn {index : Nat} {reader changed : Reader} {entries : List JournalEntry}
    (sound : reader.Sound policy outputs)
    (turn : Reader.Turn index reader entries changed)
    (chosen : ∀ handling selected, entries = [.occurred (.handled handling)] →
      handling.decision = .routed selected →
      ∃ turn session, selected = policy.choice outputs turn session) :
    changed.Sound policy outputs := by
  intro frame writes phase
  cases turn with
  | occurs change =>
      cases change with
      | @takeFrame taken inlet instant decision idle read =>
          cases decision with
          | malformed error => cases phase
          | filtered => cases phase
          | routed selected =>
              obtain ⟨turn, session, picked⟩ := chosen _ selected rfl rfl
              cases selected with
              | nil => cases phase
              | cons first others =>
                  cases phase
                  refine ⟨List.cons_ne_nil _ _, turn, session, ?_⟩
                  rw [← picked, List.map_map]
                  exact List.map_id _
      | takeFailure idle read => cases phase
      | @write output refusal taken before flight pending =>
          cases phase
          obtain ⟨nonempty, turn, session, picked⟩ := sound _ before flight
          refine ⟨mt List.map_eq_nil_iff.mp nonempty, turn, session, ?_⟩
          rw [← picked, List.map_map]
          exact List.map_congr_left fun write _ => finishWrite_output output refusal write
      | send accepts => exact sound frame writes phase
  | land flight finished => cases phase
  | leave idle => cases phase
  | close leaving => cases phase
  | endInput => exact sound frame writes phase

theorem Step.sound (step : Step relay event next) (sound : relay.Sound policy outputs) :
    next.Sound policy outputs where
  policy_eq := step.router_policy.trans sound.policy_eq
  outputs_eq := by rw [step.outputs, sound.outputs_eq]
  readers := by
    rcases step.turn with ⟨-, same⟩ | ⟨index, reader, changed, found, turn, set⟩
    · rw [same]
      exact sound.readers
    · have before := sound.readers reader (List.mem_of_getElem? found)
      have after : changed.Sound policy outputs := by
        refine Sound.turn before turn ?_
        intro handling selected made routed
        have decided := step.decides made
        rw [routed, sound.outputs_eq] at decided
        obtain ⟨session, picked⟩ := Stages.decide_routed decided
        rw [sound.policy_eq] at picked
        exact ⟨_, session, picked⟩
      intro other member
      rw [set] at member
      rcases List.mem_or_eq_of_mem_set member with kept | rfl
      · exact sound.readers other kept
      · exact after

/-- What is offered, is offered to one of the outputs. -/
theorem Step.offered_lt (step : Step relay event next) (sound : relay.Sound policy outputs)
    {reader output : Nat} {frame : Bytes} {refusal : Option IoError}
    (offered : .offered reader output frame refusal ∈ relay.occurrences event) :
    output < outputs := by
  rcases step.change with ⟨nothing, -⟩ | ⟨index, before, changed, found, change, -⟩
  · rw [nothing] at offered
    cases offered
  · have sound := sound.readers before (List.mem_of_getElem? found)
    generalize relay.occurrences event = occurred at change offered
    cases change with
    | write phase pending =>
        cases List.mem_singleton.mp offered
        exact sound.output_lt phase pending
    | takeFrame instant decision idle read => cases List.mem_singleton.mp offered
    | takeFailure idle read => cases List.mem_singleton.mp offered
    | send accepts => cases List.mem_singleton.mp offered
    | _ => cases offered

/-- What the readers hold all together. -/
def total (account : Nat → Reader → Nat) (relay : Relay) : Nat :=
  (relay.readers.mapIdx account).sum

/-- A turn of a reader changes what it holds by what its entry brings in and takes out. -/
def Balances (policy : Policy) (outputs : Nat) (account : Nat → Reader → Nat)
    (enters leaves : JournalEntry → Nat) : Prop :=
  ∀ {index : Nat} {reader changed : Reader} {entries : List JournalEntry},
    reader.Sound policy outputs → Reader.Turn index reader entries changed →
    account index reader + (entries.map enters).sum =
      (entries.map leaves).sum + account index changed

theorem sum_set_add {amounts : List Nat} {index amount : Nat}
    (found : amounts[index]? = some amount) (changed : Nat) :
    (amounts.set index changed).sum + amount = amounts.sum + changed := by
  obtain ⟨inRange, rfl⟩ := List.getElem?_eq_some_iff.mp found
  have before := List.sum_set amounts index amounts[index]
  have after := List.sum_set amounts index changed
  rw [List.set_getElem_self, if_pos inRange] at before
  rw [if_pos inRange] at after
  omega

section

variable {account : Nat → Reader → Nat} {enters leaves : JournalEntry → Nat}

theorem Step.total (step : Step relay event next) (sound : relay.Sound policy outputs)
    (balances : Balances policy outputs account enters leaves) :
    relay.total account + ((relay.entries event).map enters).sum =
      ((relay.entries event).map leaves).sum + next.total account := by
  rcases step.turn with ⟨nothing, same⟩ | ⟨index, reader, changed, found, turn, set⟩
  · simp [Relay.total, nothing, same]
  · have balanced := balances (sound.readers reader (List.mem_of_getElem? found)) turn
    have listed : (relay.readers.mapIdx account)[index]? = some (account index reader) := by
      simp [found]
    have replaced := sum_set_add listed (account index changed)
    unfold Relay.total
    rw [set, List.mapIdx_set]
    omega

theorem Steps.total (steps : Steps relay events last) (sound : relay.Sound policy outputs)
    (balances : Balances policy outputs account enters leaves) :
    relay.total account + ((relay.journal events).map enters).sum =
      ((relay.journal events).map leaves).sum + last.total account := by
  induction steps with
  | done relay => simp [journal]
  | step step steps induction =>
      have now := step.total sound balances
      have later := induction (step.sound sound)
      rw [step.journal_cons, List.map_append, List.map_append, List.sum_append,
        List.sum_append]
      omega

theorem total_eq_sum_map (amount : Reader → Nat) (relay : Relay) :
    relay.total (fun _ => amount) = (relay.readers.map amount).sum := by
  have same : relay.readers.mapIdx (fun _ => amount) = relay.readers.map amount :=
    List.mapIdx_eq_iff.mpr fun index => List.getElem?_map
  rw [total, same]

/-- Where every reader holds nothing, the relay holds nothing. -/
theorem total_eq_zero
    (empty : ∀ {index reader}, relay.readers[index]? = some reader → account index reader = 0) :
    relay.total account = 0 := by
  apply List.sum_eq_zero
  intro amount member
  obtain ⟨index, inRange, rfl⟩ := List.mem_mapIdx.mp member
  exact empty (List.getElem?_eq_getElem inRange)

end

theorem Steps.sound (steps : Steps relay events last) (sound : relay.Sound policy outputs) :
    last.Sound policy outputs := by
  induction steps with
  | done relay => exact sound
  | step step steps induction => exact induction (step.sound sound)

theorem Steps.offered_lt (steps : Steps relay events last)
    (sound : relay.Sound policy outputs) {reader output : Nat} {frame : Bytes}
    {refusal : Option IoError}
    (offered : .offered reader output frame refusal ∈ relay.history events) :
    output < outputs := by
  induction steps with
  | done relay => cases offered
  | step step steps induction =>
      rw [step.history_cons] at offered
      rcases List.mem_append.mp offered with now | later
      · exact step.offered_lt sound now
      · exact induction (step.sound sound) later

end Relay

end TrafficRelay
