import Mathlib.Data.Int.CardIntervalMod
import TrafficRelay.Proofs.OfferedFrames

/-!
# The placement of turns

Under round robin the output for a frame is computed from its place among the frames
that the filter allows.  Frames that are malformed or filtered take no turn and failed
writes give none back, so once no frame is in flight no two outputs differ by more than
one in the number of frames that they have been offered.
-/

namespace TrafficRelay

/-- Where something remains, a quotient is one greater when it is rounded up. -/
theorem div_rounded_up {number divisor : Nat} (positive : 0 < divisor)
    (remains : 0 < number % divisor) :
    (number + divisor - 1) / divisor = number / divisor + 1 := by
  have parts := Nat.div_add_mod number divisor
  have shifted : number + divisor - 1 =
      divisor * (number / divisor + 1) + (number % divisor - 1) := by
    rw [Nat.mul_add]
    omega
  have small : number % divisor - 1 < divisor := by
    have := Nat.mod_lt number positive
    omega
  rw [shifted, Nat.mul_add_div positive,
    Nat.div_eq_of_lt small]

/-- Of so many turns in a row, an output gets an equal part, and one more if its own turn
is among those that remain. -/
theorem countP_turns_eq {outputs place : Nat} (inRange : place < outputs)
    (first turns : Nat) :
    (List.range turns).countP (fun turn => (first + turn) % outputs = (first + place) % outputs) =
      turns / outputs + if place < turns % outputs then 1 else 0 := by
  have positive : 0 < outputs := Nat.lt_of_le_of_lt (Nat.zero_le place) inRange
  have same (turn : Nat) : decide ((first + turn) % outputs = (first + place) % outputs) =
      decide (turn ≡ place [MOD outputs]) :=
    decide_eq_decide.mpr ⟨Nat.ModEq.add_left_cancel' first, Nat.ModEq.add_left first⟩
  have counted := Nat.count_modEq_card turns positive place
  rw [Nat.mod_eq_of_lt inRange] at counted
  calc (List.range turns).countP
        (fun turn => (first + turn) % outputs = (first + place) % outputs)
      = Nat.count (· ≡ place [MOD outputs]) turns := by simp only [same, Nat.count]
    _ = turns / outputs + if place < turns % outputs then 1 else 0 := counted

theorem countP_turns {outputs place : Nat} (inRange : place < outputs) (first turns : Nat) :
    (List.range turns).countP (fun turn => (first + turn) % outputs = (first + place) % outputs) =
      if place < turns % outputs then (turns + outputs - 1) / outputs else turns / outputs := by
  rw [countP_turns_eq inRange]
  split
  · rename_i more
    rw [div_rounded_up (Nat.zero_lt_of_lt inRange) (Nat.zero_lt_of_lt more)]
  · rfl

/-- Every output has its turn. -/
theorem exists_turn {outputs output : Nat} (inRange : output < outputs) (first : Nat) :
    ∃ place < outputs, (first + place) % outputs = output := by
  have parts := Nat.div_add_mod first outputs
  have small := Nat.mod_lt first (Nat.zero_lt_of_lt inRange)
  refine ⟨(output + (outputs - first % outputs)) % outputs,
    Nat.mod_lt _ (Nat.zero_lt_of_lt inRange), ?_⟩
  have round : first + (output + (outputs - first % outputs)) =
      output + outputs * (first / outputs + 1) := by
    rw [Nat.mul_add]
    omega
  rw [Nat.add_mod_mod, round, Nat.add_mul_mod_self_left, Nat.mod_eq_of_lt inRange]

namespace Assembly

variable {assembly : Assembly} {signal : Signal} {now : Instant} {events : List Event}
  {last : Relay}

/-- The turns that were taken before the relay was launched; none by a new router. -/
def firstTurn (assembly : Assembly) : Nat := assembly.stages.router.turns.toNat

/-- The frames among these that get an output by their turns. -/
def turnShare (assembly : Assembly) (output : Nat) (frames : List Bytes) : List Bytes :=
  frames.zipIdx.filterMap fun (frame, place) =>
    if (assembly.firstTurn + place) % assembly.outputs.length = output then some frame else none

section

variable (steps : Relay.Steps (assembly.launch signal now) events last)
  (roundRobin : assembly.stages.router.policy = .roundRobin)
  (present : assembly.outputs ≠ [])
  (few : assembly.firstTurn +
    (assembly.allowed ((assembly.launch signal now).history events)).length ≤ 2 ^ 64)

include steps roundRobin present few

theorem passed_of_roundRobin :
    let happened := (assembly.launch signal now).history events
    (happened.filterMap Occurrence.handling?).filterMap Handling.passed? =
      (assembly.allowed happened).zipIdx.map fun ((_, frame), place) =>
        (frame, [(assembly.firstTurn + place) % assembly.outputs.length]) := by
  intro happened
  have processes : assembly.stages.Processes assembly.outputs.length _ last.stages :=
    steps.processes
  have positive := List.length_pos_iff.mpr present
  rw [processes.passed fun _ _ => assembly.stages.router.turns.reading_toNat, roundRobin,
    List.zipIdx_eq_map_add, List.map_map]
  apply List.map_congr_left
  rintro ⟨⟨session, frame⟩, place⟩ member
  have placed : place < (assembly.allowed happened).length := by
    simpa [Assembly.allowed] using List.snd_lt_of_mem_zipIdx member
  have small : assembly.firstTurn + place < 2 ^ 64 := by
    have all : assembly.firstTurn + (assembly.allowed happened).length ≤ 2 ^ 64 := few
    omega
  have chosen : Policy.roundRobin.choice assembly.outputs.length
      (Counter.reading (assembly.firstTurn + place)) session =
        [(assembly.firstTurn + place) % assembly.outputs.length] := by
    calc Policy.roundRobin.choice assembly.outputs.length
          (Counter.reading (assembly.firstTurn + place)) session
        = [Counter.reading (assembly.firstTurn + place) % assembly.outputs.length] :=
          pick_of_pos positive _
      _ = [(assembly.firstTurn + place) % assembly.outputs.length] := by
          rw [Counter.reading, Nat.mod_eq_of_lt small]
  exact congrArg (Prod.mk frame) chosen

theorem offered_of_roundRobin (output : Nat) :
    let happened := (assembly.launch signal now).history events
    ((happened.filterMap (Occurrence.offer? output) ++ last.awaiting output).map Prod.snd).Perm
      (assembly.turnShare output ((assembly.allowed happened).map Prod.snd)) := by
  intro happened
  have offered := steps.offered_perm (Relay.launch_quiet assembly signal now) output
  rw [passed_of_roundRobin steps roundRobin present few, List.filterMap_map] at offered
  rw [turnShare, List.zipIdx_map, List.filterMap_map]
  refine offered.trans (.of_eq (List.filterMap_congr ?_))
  rintro ⟨⟨session, frame⟩, place⟩ -
  simp [Relay.passedTo?, eq_comm]

end

/-- With no frame in flight, outputs have been offered equally many frames, except that
those that come first have perhaps been offered one more. -/
theorem length_turnShare (assembly : Assembly) {place : Nat}
    (inRange : place < assembly.outputs.length) (frames : List Bytes) :
    (assembly.turnShare ((assembly.firstTurn + place) % assembly.outputs.length) frames).length =
      if place < frames.length % assembly.outputs.length
      then (frames.length + assembly.outputs.length - 1) / assembly.outputs.length
      else frames.length / assembly.outputs.length := by
  rw [turnShare, List.length_filterMap_eq_countP, ← countP_turns inRange assembly.firstTurn,
    List.range_eq_range', ← List.zipIdx_map_snd 0 frames, List.countP_map]
  apply List.countP_congr
  rintro ⟨frame, turn⟩ -
  simp

end Assembly

/-- Under round robin the frames that the filter allows go to the outputs in turn, from
the output whose turn it is when the relay is launched; whatever else is taken and
however the writes end. -/
theorem Assembly.run_takes_turns (assembly : Assembly) (signal : Signal) (now : Instant)
    {events : List Event} {last : Relay}
    (ran : (assembly.launch signal now).run? events = some last)
    (roundRobin : assembly.stages.router.policy = .roundRobin)
    (present : assembly.outputs ≠ [])
    (few : assembly.firstTurn +
      (assembly.allowed ((assembly.launch signal now).history events)).length ≤ 2 ^ 64) :
    let happened := (assembly.launch signal now).history events
    let outputs := assembly.outputs.length
    let frames := (assembly.allowed happened).map Prod.snd
    let offered (output : Nat) := (happened.filterMap (Occurrence.offer? output)).map Prod.snd
    (happened.filterMap Occurrence.handling?).filterMap Handling.passed? =
      frames.zipIdx.map (fun (frame, place) =>
        (frame, [(assembly.firstTurn + place) % outputs])) ∧
    (∀ output, (offered output ++ (last.awaiting output).map Prod.snd).Perm
      (assembly.turnShare output frames)) ∧
    (last.Quiet →
      (∀ output < outputs,
        (offered output).length = frames.length / outputs ∨
          (offered output).length = (frames.length + outputs - 1) / outputs) ∧
      ∀ place < outputs,
        (offered ((assembly.firstTurn + place) % outputs)).length =
          if place < frames.length % outputs then (frames.length + outputs - 1) / outputs
          else frames.length / outputs) := by
  intro happened outputs frames offered
  have steps := Relay.run?_eq_some_iff.mp ran
  have shared (output : Nat) : (offered output ++ (last.awaiting output).map Prod.snd).Perm
      (assembly.turnShare output frames) := by
    have joined : offered output ++ (last.awaiting output).map Prod.snd =
        (happened.filterMap (Occurrence.offer? output) ++ last.awaiting output).map Prod.snd :=
      List.map_append.symm
    rw [joined]
    exact offered_of_roundRobin steps roundRobin present few output
  have counted (quiet : last.Quiet) {place : Nat} (inRange : place < outputs) :
      (offered ((assembly.firstTurn + place) % outputs)).length =
        if place < frames.length % outputs then (frames.length + outputs - 1) / outputs
        else frames.length / outputs := by
    have all := (shared ((assembly.firstTurn + place) % outputs)).length_eq
    rw [quiet.awaiting_eq_nil, List.map_nil, List.append_nil] at all
    exact all.trans (assembly.length_turnShare inRange frames)
  refine ⟨?_, shared, fun quiet => ⟨?_, fun place inRange => counted quiet inRange⟩⟩
  · rw [passed_of_roundRobin steps roundRobin present few, List.zipIdx_map, List.map_map]
    rfl
  · intro output inRange
    obtain ⟨place, placed, rfl⟩ := exists_turn inRange assembly.firstTurn
    rw [counted quiet placed]
    split
    · exact Or.inr rfl
    · exact Or.inl rfl

/-- Three frames for two outputs, with a malformed one, a filtered one and a failed write
in between. -/
theorem Assembly.run_takes_turns_uneven :
    let first : Inlet := .ofItems [.frame (Sample.get 97), .frame [33], .frame (Sample.get 98)]
    let second : Inlet := .ofItems [.frame (Sample.put 99), .frame (Sample.get 97)]
    let assembly : Assembly :=
      ⟨⟨Sample.filter, .ofPolicy .roundRobin⟩, [("a", first), ("b", second)], ["x", "y"], false⟩
    let launched := assembly.launch .lowered 0
    let events : List Event :=
      [.take 0, .take 1, .write 0 0 (some .rejectedWrite), .land 0, .take 0, .take 1,
        .take 0, .write 0 0 none, .write 1 1 none, .land 0, .land 1]
    ∃ last, launched.run? events = some last ∧
      ((launched.history events).filterMap (Occurrence.offer? 0)).length = 2 ∧
      ((launched.history events).filterMap (Occurrence.offer? 1)).length = 1 := by
  intro first second assembly launched events
  have runs : (launched.run? events).isSome = true := by decide +kernel
  obtain ⟨last, ran⟩ := Option.isSome_iff_exists.mp runs
  have idle : ((launched.run? events).map fun relay => relay.readers.map Reader.phase) =
      some [.idle, .idle] := by decide +kernel
  have quiet : last.Quiet := by
    rw [ran, Option.map_some] at idle
    apply Relay.quiet_of_phases
    simp [Option.some.inj idle]
  have three : (assembly.allowed (launched.history events)).length = 3 := by decide +kernel
  have few : assembly.firstTurn + (assembly.allowed (launched.history events)).length ≤
      2 ^ 64 := by
    rw [three]
    decide
  have counted := ((Assembly.run_takes_turns assembly .lowered 0 ran rfl
    (List.cons_ne_nil _ _) few).2.2 quiet).2
  simp only [List.length_map] at counted
  have firstOutput := counted 0 (by decide)
  have secondOutput := counted 1 (by decide)
  have two : assembly.outputs.length = 2 := rfl
  rw [three, two] at firstOutput secondOutput
  exact ⟨last, ran, firstOutput.trans (by decide), secondOutput.trans (by decide)⟩

end TrafficRelay
