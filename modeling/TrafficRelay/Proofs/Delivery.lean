import Mathlib.Data.List.Basic
import TrafficRelay.Proofs.SequentialDecisions

/-!
# Delivery

However the readers of a relay take turns, every output is offered the frames
that were routed to it and no others.  A frame that has been routed is awaited
by its outputs until it is offered, and an item that has been sent stands in the
inlet until it is taken; both are `Relay.Carries` of the reader in between.
-/

namespace TrafficRelay

/-- The outputs that a decision routes to. -/
def Decision.reaches (decision : Decision) (output : Nat) : Bool :=
  match decision with
  | .routed outputs => outputs.contains output
  | .malformed _ | .filtered => false

namespace Occurrence

/-- A frame that is routed to an output, with the reader that took it. -/
def routed? (output : Nat) : Occurrence → Option (Nat × Bytes)
  | .handled handling =>
      if handling.decision.reaches output then some (handling.reader, handling.frame)
      else none
  | _ => none

/-- A frame that is offered to an output, with the reader that took it. -/
def offer? (output : Nat) : Occurrence → Option (Nat × Bytes)
  | .offered reader target frame _ =>
      if target = output then some (reader, frame) else none
  | _ => none

/-- An item that enters the inlet of an input. -/
def sent? (input : Nat) : Occurrence → Option Item
  | .queued target item => if target = input then some item else none
  | _ => none

/-- An item that the reader of an input takes. -/
def taken? (input : Nat) : Occurrence → Option Item
  | .handled handling =>
      if handling.reader = input then some (.frame handling.frame) else none
  | .readFailed reader error => if reader = input then some (.failure error) else none
  | _ => none

end Occurrence

namespace Reader

/-- The frame in flight, if an output still waits for it. -/
def awaited (index output : Nat) (reader : Reader) : List (Nat × Bytes) :=
  match reader.phase with
  | .inFlight frame writes =>
      if ⟨output, .pending⟩ ∈ writes then [(index, frame)] else []
  | _ => []

/-- The items that have yet to be taken. -/
def items (reader : Reader) : List Item := reader.inlet.queue

/-- Right after its decision a frame is awaited by the outputs it is routed to. -/
theorem awaited_phaseAfter (index output : Nat) (reader : Reader) (inlet : Inlet)
    (frame : Bytes) (decision : Decision) :
    awaited index output
        { reader with inlet, phase := Relay.phaseAfter frame decision } =
      if decision.reaches output then [(index, frame)] else [] := by
  cases decision with
  | malformed error => rfl
  | filtered => rfl
  | routed outputs =>
      cases outputs with
      | nil => rfl
      | cons first others =>
          have same : ⟨output, .pending⟩ ∈
              (first :: others).map (fun target => Write.mk target .pending) ↔
                output ∈ first :: others := by
            rw [List.mem_map]
            constructor
            · rintro ⟨target, member, equal⟩
              cases equal
              exact member
            · intro member
              exact ⟨output, member, rfl⟩
          simp only [awaited, Relay.phaseAfter, Decision.reaches, same,
            List.contains_iff_mem]

/-- A finished write leaves the pending writes to other outputs. -/
theorem pending_mem_finishWrite {writes : List Write} {output target : Nat}
    {refusal : Option IoError} :
    ⟨output, .pending⟩ ∈ writes.map (Relay.finishWrite target refusal) ↔
      output ≠ target ∧ ⟨output, .pending⟩ ∈ writes := by
  constructor
  · intro member
    obtain ⟨write, present, finished⟩ := List.mem_map.mp member
    unfold Relay.finishWrite at finished
    split at finished
    · cases refusal <;> cases finished
    · rename_i otherWrite
      subst finished
      refine ⟨?_, present⟩
      rintro rfl
      exact otherWrite ⟨rfl, rfl⟩
  · rintro ⟨different, present⟩
    refine List.mem_map.mpr ⟨_, present, ?_⟩
    simp [Relay.finishWrite, different]

end Reader

namespace Relay

/-- Frames pass through a reader from their routing to an output to the offer. -/
theorem carries_awaited (index output : Nat) :
    Carries index (Reader.awaited index output)
      (fun occurrence =>
        (occurrence.routed? output).filter fun entry => entry.1 = index)
      (fun occurrence =>
        (occurrence.offer? output).filter fun entry => entry.1 = index) where
  own change := by
    cases change with
    | takeFrame instant decision idle read =>
        rw [Reader.awaited_phaseAfter]
        cases reached : decision.reaches output <;>
          simp [Reader.awaited, idle, Occurrence.routed?, Occurrence.offer?, reached,
            Option.filter_some]
    | takeFailure idle read =>
        simp [Reader.awaited, idle, Occurrence.routed?, Occurrence.offer?]
    | @write target refusal frame writes phase pending =>
        by_cases same : target = output
        · subst target
          simp [Reader.awaited, phase, pending, Reader.pending_mem_finishWrite,
            Occurrence.routed?, Occurrence.offer?, Option.filter_some]
        · simp [Reader.awaited, phase, Reader.pending_mem_finishWrite,
            Occurrence.routed?, Occurrence.offer?, same, Ne.symm same]
    | @land frame writes phase finished =>
        have noneAwaited : ⟨output, .pending⟩ ∉ writes := fun member =>
          finished _ member rfl
        simp [Reader.awaited, phase, noneAwaited]
    | leave idle => simp [Reader.awaited, idle]
    | close leaving => simp [Reader.awaited, leaving]
    | send accepts => simp [Reader.awaited, Occurrence.routed?, Occurrence.offer?]
    | endInput => simp [Reader.awaited]
  other change different := by
    cases change <;> simp [Occurrence.routed?, Occurrence.offer?, different]

theorem queue_of_read {inlet rest : Inlet} {item : Item}
    (read : inlet.read = .item item rest) : inlet.queue = item :: rest.queue := by
  unfold Inlet.read at read
  split at read
  · rename_i first others found
    cases read
    exact found
  · split at read <;> cases read

/-- Items pass through an inlet from the sender to the reader. -/
theorem carries_items (index : Nat) :
    Carries index Reader.items (Occurrence.sent? index) (Occurrence.taken? index) where
  own change := by
    cases change with
    | takeFrame instant decision idle read =>
        simp [Reader.items, queue_of_read read, Occurrence.sent?, Occurrence.taken?]
    | takeFailure idle read =>
        simp [Reader.items, queue_of_read read, Occurrence.sent?, Occurrence.taken?]
    | write phase pending =>
        simp [Reader.items, Occurrence.sent?, Occurrence.taken?, List.filterMap_cons]
    | land phase finished => simp [Reader.items]
    | leave idle => simp [Reader.items]
    | close leaving => simp [Reader.items]
    | send accepts =>
        have connected : _ ≠ 0 := of_decide_eq_true (Bool.and_eq_true_iff.mp accepts).2
        simp [Reader.items, Inlet.push, connected, Occurrence.sent?, Occurrence.taken?,
          List.filterMap_cons]
    | endInput => simp [Reader.items, Inlet.close]
  other change different := by
    cases change <;>
      simp [Occurrence.sent?, Occurrence.taken?, List.filterMap_cons, different]

/-- The items that have entered an inlet and have yet to be taken. -/
def queued (relay : Relay) (input : Nat) : List Item := relay.held Reader.items input

/-- No frame is in flight. -/
def Quiet (relay : Relay) : Prop :=
  ∀ reader ∈ relay.readers, ∀ frame writes, reader.phase ≠ .inFlight frame writes

theorem quiet_of_phases {relay : Relay}
    (landed : ∀ frame writes, .inFlight frame writes ∉ relay.readers.map Reader.phase) :
    relay.Quiet := by
  intro reader member frame writes phase
  have listed := List.mem_map_of_mem (f := Reader.phase) member
  rw [phase] at listed
  exact landed frame writes listed

theorem held_eq_nil {α : Type} {account : Reader → List α} {relay : Relay}
    (index : Nat) (empty : ∀ reader ∈ relay.readers, account reader = []) :
    relay.held account index = [] := by
  unfold held
  cases found : relay.readers[index]? with
  | none => rfl
  | some reader => simp [empty reader (List.mem_of_getElem? found)]

theorem Quiet.held_awaited {relay : Relay} (quiet : relay.Quiet) (index output : Nat) :
    relay.held (Reader.awaited index output) index = [] := by
  apply held_eq_nil
  intro reader member
  unfold Reader.awaited
  split
  · rename_i frame writes phase
    exact (quiet reader member frame writes phase).elim
  · rfl

theorem launch_quiet (assembly : Assembly) (signal : Signal) (now : Instant) :
    (assembly.launch signal now).Quiet := by
  intro reader member frame writes phase
  simp only [Assembly.launch, List.mem_map] at member
  obtain ⟨entry, -, rfl⟩ := member
  cases phase

end Relay

/-- Lists that have the same entries with each key, in the same order. -/
def AlikeBy {α : Type} (key : α → Nat) (first second : List α) : Prop :=
  ∀ number, first.filter (fun entry => key entry = number) =
    second.filter fun entry => key entry = number

namespace AlikeBy

variable {α β : Type} {key : α → Nat} {first second : List α}

theorem symm (alike : AlikeBy key first second) : AlikeBy key second first :=
  fun number => (alike number).symm

theorem trans {third : List α} (alike : AlikeBy key first second)
    (others : AlikeBy key second third) : AlikeBy key first third :=
  fun number => (alike number).trans (others number)

theorem perm [DecidableEq α] (alike : AlikeBy key first second) : first.Perm second := by
  rw [List.perm_iff_count]
  intro entry
  have counted (entries : List α) :
      (entries.filter fun other => key other = key entry).count entry =
        entries.count entry := List.count_filter (by simp)
  rw [← counted first, alike (key entry), counted second]

/-- What is made of the entries, each by itself, is alike as well. -/
theorem filterMap {other : β → Nat} {pick : α → Option β} (alike : AlikeBy key first second)
    (keeps : ∀ {entry picked}, pick entry = some picked → other picked = key entry) :
    AlikeBy other (first.filterMap pick) (second.filterMap pick) := by
  intro number
  have moved (entries : List α) :
      (entries.filterMap pick).filter (fun picked => other picked = number) =
        (entries.filter fun entry => key entry = number).filterMap pick := by
    rw [List.filter_filterMap, List.filterMap_filter]
    apply List.filterMap_congr
    intro entry _
    cases made : pick entry with
    | none => simp
    | some picked => simp [Option.filter_some, keeps made]
  rw [moved, moved, alike number]

theorem filter (alike : AlikeBy key first second) (keep : α → Bool) :
    AlikeBy key (first.filter keep) (second.filter keep) := by
  rw [← List.filterMap_eq_filter]
  apply alike.filterMap
  intro entry kept same
  rw [(Option.guard_eq_some_iff.mp same).1]

end AlikeBy

/-- The frames of each reader in order determine the frames of all readers up to
their interleaving. -/
theorem perm_of_filter_reader {first second : List (Nat × Bytes)}
    (same : ∀ reader, first.filter (fun entry => entry.1 = reader) =
      second.filter fun entry => entry.1 = reader) : first.Perm second :=
  AlikeBy.perm same

/-- Whatever the order in which the readers and the writes went on, once no frame
is in flight the decisions are those of one reader, every output has been offered
what was routed to it, each reader's frames in the order in which it took them,
and the readers took what had been put into their inlets, in order. -/
theorem Assembly.run_delivers (assembly : Assembly) (signal : Signal) (now : Instant)
    {events : List Event} {last : Relay}
    (ran : (assembly.launch signal now).run? events = some last)
    (quiet : last.Quiet) :
    let launched := assembly.launch signal now
    let happened := launched.history events
    let handled := happened.filterMap Occurrence.handling?
    assembly.stages.Processes assembly.outputs.length handled last.stages ∧
    (∀ output, (happened.filterMap (Occurrence.offer? output)).Perm
      (happened.filterMap (Occurrence.routed? output))) ∧
    (∀ output reader,
      (happened.filterMap (Occurrence.offer? output)).filter
          (fun entry => entry.1 = reader) =
        (happened.filterMap (Occurrence.routed? output)).filter
          fun entry => entry.1 = reader) ∧
    (∀ input, launched.queued input ++ happened.filterMap (Occurrence.sent? input) =
      happened.filterMap (Occurrence.taken? input) ++ last.queued input) ∧
    (assembly.stages.router.policy = .broadcast →
      ∀ handling ∈ handled, ∀ selected, handling.decision = .routed selected →
        selected = List.range assembly.outputs.length) := by
  intro launched happened handled
  have steps := Relay.run?_eq_some_iff.mp ran
  have processes : assembly.stages.Processes assembly.outputs.length handled last.stages :=
    steps.processes
  have inOrder (output reader : Nat) :
      (happened.filterMap (Occurrence.offer? output)).filter
          (fun entry => entry.1 = reader) =
        (happened.filterMap (Occurrence.routed? output)).filter
          fun entry => entry.1 = reader := by
    have carried := steps.held (Relay.carries_awaited reader output)
    rw [(Relay.launch_quiet assembly signal now).held_awaited, quiet.held_awaited,
      List.nil_append, List.append_nil] at carried
    rw [List.filter_filterMap, List.filter_filterMap]
    exact carried.symm
  refine ⟨processes, ?_, inOrder, ?_, ?_⟩
  · intro output
    exact perm_of_filter_reader (inOrder output)
  · intro input
    exact steps.held (Relay.carries_items input)
  · intro policy handling member selected passed
    exact processes.broadcast policy member passed

/-- Two readers under broadcast, whose writes finish out of order. -/
theorem Assembly.run_delivers_interleaved :
    let first : Inlet := .ofItems [.frame (Sample.get 97), .frame [33]]
    let second : Inlet := .ofItems [.frame (Sample.get 98), .frame (Sample.put 99)]
    let assembly : Assembly :=
      ⟨⟨Sample.filter, .ofPolicy .broadcast⟩, [("a", first), ("b", second)], ["x", "y"], true⟩
    let launched := assembly.launch .lowered 0
    let events : List Event :=
      [.take 0, .take 1, .write 1 1 none, .advance 3, .write 0 0 none,
        .write 1 0 (some .rejectedWrite), .land 1, .take 1, .write 0 1 none, .land 0,
        .take 0]
    ∃ last, launched.run? events = some last ∧ last.Quiet ∧
      ((launched.history events).filterMap (Occurrence.offer? 1)).Perm
        [(0, Sample.get 97), (1, Sample.get 98)] := by
  intro first second assembly launched events
  have runs : (launched.run? events).isSome = true := by rfl
  obtain ⟨last, ran⟩ := Option.isSome_iff_exists.mp runs
  have idle : ((launched.run? events).map fun relay => relay.readers.map Reader.phase) =
      some [.idle, .idle] := by rfl
  have quiet : last.Quiet := by
    rw [ran, Option.map_some] at idle
    apply Relay.quiet_of_phases
    simp [Option.some.inj idle]
  have routed : (launched.history events).filterMap (Occurrence.routed? 1) =
      [(0, Sample.get 97), (1, Sample.get 98)] := by rfl
  have delivered := (Assembly.run_delivers assembly .lowered 0 ran quiet).2.1 1
  rw [routed] at delivered
  exact ⟨last, ran, quiet, delivered⟩

end TrafficRelay
