import TrafficRelay.Proofs.OutputChoice

/-!
# Offered frames

Wherever a run stands, an output has been offered the frames that were passed on to it,
except for those in flight that still await their offer.  Each of them is offered once.
-/

namespace TrafficRelay

theorem Reader.fst_of_mem_awaited {index output : Nat} {reader : Reader}
    {entry : Nat × Bytes} (member : entry ∈ reader.awaited index output) :
    entry.1 = index := by
  unfold awaited at member
  split at member
  · split at member
    · rw [List.mem_singleton.mp member]
    · cases member
  · cases member

/-- Of the frames in flight, those of one reader are what this reader holds. -/
theorem filter_awaited (readers : List Reader) (start index output : Nat) :
    (((readers.zipIdx start).flatMap fun (reader, place) => reader.awaited place output).filter
        fun entry => entry.1 = start + index) =
      (readers[index]?.map (Reader.awaited (start + index) output)).getD [] := by
  induction readers generalizing start index with
  | nil => rfl
  | cons reader readers induction =>
      rw [List.zipIdx_cons, List.flatMap_cons, List.filter_append]
      cases index with
      | zero =>
          have own : (reader.awaited start output).filter (fun entry => entry.1 = start) =
              reader.awaited start output := by
            refine List.filter_eq_self.mpr fun entry member => ?_
            exact decide_eq_true (Reader.fst_of_mem_awaited member)
          have others : (((readers.zipIdx (start + 1)).flatMap fun (reader, place) =>
              reader.awaited place output).filter fun entry => entry.1 = start) = [] := by
            refine List.filter_eq_nil_iff.mpr fun entry member => ?_
            obtain ⟨⟨other, place⟩, listed, awaited⟩ := List.mem_flatMap.mp member
            have later := List.le_snd_of_mem_zipIdx listed
            have same := Reader.fst_of_mem_awaited awaited
            simp only [decide_eq_true_eq]
            omega
          simp [own, others]
      | succ index =>
          have none : (reader.awaited start output).filter
              (fun entry => entry.1 = start + (index + 1)) = [] := by
            refine List.filter_eq_nil_iff.mpr fun entry member => ?_
            have same := Reader.fst_of_mem_awaited member
            simp only [decide_eq_true_eq]
            omega
          have rest := induction (start + 1) index
          rw [Nat.add_right_comm, Nat.add_assoc] at rest
          rw [none, List.nil_append, rest, List.getElem?_cons_succ]

namespace Relay

/-- The frames in flight that an output has yet to be offered, with their readers. -/
def awaiting (relay : Relay) (output : Nat) : List (Nat × Bytes) :=
  relay.readers.zipIdx.flatMap fun (reader, index) => reader.awaited index output

variable {relay last : Relay} {events : List Event}

theorem filter_awaiting (relay : Relay) (output index : Nat) :
    (relay.awaiting output).filter (fun entry => entry.1 = index) =
      relay.held (Reader.awaited index output) index := by
  have own := filter_awaited relay.readers 0 index output
  rw [Nat.zero_add] at own
  exact own

theorem Quiet.awaiting_eq_nil (quiet : relay.Quiet) (output : Nat) :
    relay.awaiting output = [] := by
  refine List.flatMap_eq_nil_iff.mpr ?_
  rintro ⟨reader, index⟩ member
  have listed := List.fst_mem_of_mem_zipIdx member
  simp only [Reader.awaited]
  split
  · rename_i frame writes phase
    exact (quiet reader listed frame writes phase).elim
  · rfl

/-- Every frame that is routed to an output has been offered to it or awaits that, the
frames of each reader in the order in which it took them. -/
theorem Steps.routed_alike (steps : Steps relay events last) (quiet : relay.Quiet)
    (output : Nat) :
    AlikeBy Prod.fst
      ((relay.history events).filterMap (Occurrence.offer? output) ++ last.awaiting output)
      ((relay.history events).filterMap (Occurrence.routed? output)) := by
  intro reader
  have carried := steps.held (carries_awaited reader output)
  rw [quiet.held_awaited, List.nil_append] at carried
  rw [List.filter_append, filter_awaiting, List.filter_filterMap, List.filter_filterMap]
  exact carried.symm

theorem Steps.routed_perm (steps : Steps relay events last) (quiet : relay.Quiet)
    (output : Nat) :
    ((relay.history events).filterMap (Occurrence.offer? output) ++ last.awaiting output).Perm
      ((relay.history events).filterMap (Occurrence.routed? output)) :=
  (steps.routed_alike quiet output).perm

/-- The frame, if it is passed on to an output. -/
def passedTo? (output : Nat) : Bytes × List Nat → Option Bytes
  | (frame, selected) => if selected.contains output then some frame else none

theorem routed?_eq_passed (output : Nat) (handling : Handling) :
    handling.routed? output = handling.passed?.bind (passedTo? output) := by
  unfold Handling.routed? Handling.passed?
  cases handling.decision <;> simp [Decision.reaches, passedTo?]

/-- An output is offered what is passed on to it. -/
theorem Steps.offered_perm (steps : Steps relay events last) (quiet : relay.Quiet)
    (output : Nat) :
    (((relay.history events).filterMap (Occurrence.offer? output) ++
        last.awaiting output).map Prod.snd).Perm
      ((((relay.history events).filterMap Occurrence.handling?).filterMap
        Handling.passed?).filterMap (passedTo? output)) := by
  have routed := (steps.routed_perm quiet output).map Prod.snd
  rw [Occurrence.routed?_eq] at routed
  rw [List.filterMap_filterMap]
  simpa only [← routed?_eq_passed] using routed

end Relay

end TrafficRelay
