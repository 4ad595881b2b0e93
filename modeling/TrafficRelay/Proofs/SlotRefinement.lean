import TrafficRelay.Proofs.TableRun

/-!
# A verdict table without sweeping

The reference for a verdict table holds one slot for every session and never
sweeps.  `Represents` relates the two states: an entry that the table no longer
has and one that is still there but has expired look the same, now and at every
later time.  Every operation keeps the relation, so both answer alike in every
run whose sweeps are not made for a time to come.
-/

namespace TrafficRelay

/-- One slot for every session, and the reading of the clock. -/
structure SlotTable where
  timeToLive : Duration
  now : Instant
  slot : SessionKey → VerdictSlot

namespace SlotTable

def new (timeToLive : Duration) (start : Instant) : SlotTable :=
  ⟨timeToLive, start, fun _ => none⟩

def step (state : SlotTable) : TableOp → Option TableReply × SlotTable
  | .act action =>
      let (answer, next) :=
        VerdictSlot.act state.timeToLive state.now (state.slot action.session) action
      (some ⟨action.session, state.now, answer⟩,
        { state with
          slot := fun other =>
            if other = action.session then next else state.slot other })
  | .sweep _ => (none, state)
  | .advance elapsed => (none, { state with now := state.now + elapsed })

def replies (state : SlotTable) : List TableOp → List TableReply
  | [] => []
  | op :: ops => (state.step op).1.toList ++ (state.step op).2.replies ops

theorem replies_withoutSweeps (state : SlotTable) (ops : List TableOp) :
    state.replies (ops.filter fun op => !op.isSweep) = state.replies ops := by
  induction ops generalizing state with
  | nil => rfl
  | cons op ops induction =>
      cases op with
      | act action | advance elapsed =>
          rw [List.filter_cons_of_pos rfl, replies, replies, induction]
      | sweep instant =>
          rw [List.filter_cons_of_neg Bool.false_ne_true, induction]
          rfl

end SlotTable

/-- The replies of a slot that stands alone to the actions on it. -/
def VerdictSlot.replies (timeToLive : Duration) (session : SessionKey) :
    VerdictSlot → List (Instant × TableAction) → List TableReply
  | _, [] => []
  | slot, (now, action) :: actions =>
      let (answer, next) := VerdictSlot.act timeToLive now slot action
      ⟨session, now, answer⟩ :: replies timeToLive session next actions

/-- What a session is told depends on its own actions and their times. -/
theorem SlotTable.replies_ofSession (state : SlotTable) (session : SessionKey)
    (ops : List TableOp) :
    (state.replies ops).filter (fun reply => reply.session = session) =
      VerdictSlot.replies state.timeToLive session (state.slot session)
        (TableOp.ofSession session state.now ops) := by
  induction ops generalizing state with
  | nil => rfl
  | cons op ops induction =>
      have tail := induction (state.step op).2
      rw [SlotTable.replies, List.filter_append, tail]
      cases op with
      | act action =>
          by_cases own : action.session = session
          · subst session
            simp [SlotTable.step, TableOp.ofSession, VerdictSlot.replies]
          · simp [SlotTable.step, TableOp.ofSession, own, Ne.symm own]
      | sweep instant => rfl
      | advance elapsed => rfl

namespace TimedTable

/-- A table has the same live entries as the slots of a reference. -/
structure Represents (state : TimedTable) (reference : SlotTable) : Prop where
  distinct : state.table.Distinct
  sameTimeToLive : reference.timeToLive = state.table.timeToLive
  sameNow : reference.now = state.now
  sameLive : ∀ session, state.table.live? state.now session =
    VerdictSlot.live state.table.timeToLive state.now (reference.slot session)

theorem represents_new (timeToLive sweepInterval : Duration) (start : Instant) :
    (TimedTable.new timeToLive sweepInterval start).Represents
      (SlotTable.new timeToLive start) :=
  ⟨VerdictTable.Distinct.empty _ _ _, rfl, rfl, fun _ => rfl⟩

namespace Represents

variable {state : TimedTable} {reference : SlotTable}

theorem act (related : state.Represents reference) (action : TableAction) :
    (state.step (.act action)).1 = (reference.step (.act action)).1 ∧
      (state.step (.act action)).2.Represents (reference.step (.act action)).2 := by
  obtain ⟨distinct, sameTimeToLive, sameNow, sameLive⟩ := related
  constructor
  · have answer := VerdictTable.act_answer distinct state.now action
    rw [sameLive, VerdictSlot.act_live_answer] at answer
    simp [step, SlotTable.step, answer, sameTimeToLive, sameNow]
  · refine ⟨distinct.act state.now action, by simp [step, SlotTable.step,
      sameTimeToLive], sameNow, ?_⟩
    intro other
    simp only [step, SlotTable.step, VerdictTable.live?_act distinct,
      VerdictTable.act_timeToLive, sameTimeToLive, sameNow]
    by_cases same : other = action.session
    · simp only [same, if_true]
      rw [sameLive, VerdictSlot.live_act_live]
    · simpa only [same, if_false] using sameLive other

theorem sweep (related : state.Represents reference) {instant : Instant}
    (past : instant ≤ state.now) :
    (state.step (.sweep instant)).2.Represents reference := by
  obtain ⟨distinct, sameTimeToLive, sameNow, sameLive⟩ := related
  refine ⟨distinct.sweep instant, sameTimeToLive, sameNow, ?_⟩
  intro session
  simpa only [step, VerdictTable.live?_sweep distinct past,
    VerdictTable.sweep_timeToLive] using sameLive session

theorem advance (related : state.Represents reference) (elapsed : Duration) :
    (state.step (.advance elapsed)).2.Represents
      (reference.step (.advance elapsed)).2 := by
  obtain ⟨distinct, sameTimeToLive, sameNow, sameLive⟩ := related
  have ordered : state.now ≤ state.now + elapsed := Nat.le_add_right _ _
  refine ⟨distinct, sameTimeToLive, by simp [step, SlotTable.step, sameNow], ?_⟩
  intro session
  simp only [step, SlotTable.step]
  rw [← state.table.live?_later ordered, sameLive,
    VerdictSlot.live_live ordered]

theorem step (related : state.Represents reference) {op : TableOp}
    (past : ∀ instant, op = .sweep instant → instant ≤ state.now) :
    (state.step op).1 = (reference.step op).1 ∧
      (state.step op).2.Represents (reference.step op).2 := by
  cases op with
  | act action => exact related.act action
  | sweep instant => exact ⟨rfl, related.sweep (past instant rfl)⟩
  | advance elapsed => exact ⟨rfl, related.advance elapsed⟩

theorem replies_eq (related : state.Represents reference) {ops : List TableOp}
    (past : ClockOp.SweepsPast state.now ops) :
    state.replies ops = reference.replies ops := by
  induction ops generalizing state reference with
  | nil => rfl
  | cons op ops induction =>
      obtain ⟨opPast, opsPast⟩ := past
      obtain ⟨sameReply, next⟩ := related.step opPast
      have nextNow : op.timeAfter state.now = (state.step op).2.now := by
        cases op <;> rfl
      rw [nextNow] at opsPast
      rw [TimedTable.replies, SlotTable.replies, sameReply, induction next opsPast]

end Represents

end TimedTable

/-- A run of a table answers as independent slots do.  So a session is told the
same in any two runs that have the same actions on it at the same times, and
neither the sweep interval nor a sweep that is not made for a time to come can
be observed. -/
theorem VerdictTable.replies_eq_slots (timeToLive sweepInterval : Duration)
    (start : Instant) (ops : List TableOp) (past : ClockOp.SweepsPast start ops) :
    (TimedTable.new timeToLive sweepInterval start).replies ops =
        (SlotTable.new timeToLive start).replies ops ∧
      (∀ otherInterval otherStart otherOps session,
        ClockOp.SweepsPast otherStart otherOps →
        TableOp.ofSession session otherStart otherOps =
          TableOp.ofSession session start ops →
        ((TimedTable.new timeToLive otherInterval otherStart).replies
            otherOps).filter (fun reply => reply.session = session) =
          ((TimedTable.new timeToLive sweepInterval start).replies
            ops).filter (fun reply => reply.session = session)) ∧
      ∀ otherInterval otherOps, ClockOp.SweepsPast start otherOps →
        (otherOps.filter fun op => !op.isSweep) =
          (ops.filter fun op => !op.isSweep) →
        (TimedTable.new timeToLive otherInterval start).replies otherOps =
          (TimedTable.new timeToLive sweepInterval start).replies ops := by
  have asSlots : ∀ interval origin run, ClockOp.SweepsPast origin run →
      (TimedTable.new timeToLive interval origin).replies run =
        (SlotTable.new timeToLive origin).replies run := by
    intro interval origin run runPast
    exact (TimedTable.represents_new timeToLive interval origin).replies_eq runPast
  refine ⟨asSlots _ _ _ past, ?_, ?_⟩
  · intro otherInterval otherStart otherOps session otherPast sameOps
    rw [asSlots _ _ _ otherPast, asSlots _ _ _ past,
      SlotTable.replies_ofSession, SlotTable.replies_ofSession]
    exact congrArg _ sameOps
  · intro otherInterval otherOps otherPast sameOps
    rw [asSlots _ _ _ otherPast, asSlots _ _ _ past,
      ← SlotTable.replies_withoutSweeps _ otherOps, sameOps,
      SlotTable.replies_withoutSweeps]

/-- An entry is refused a second verdict, expires, is swept while another
session is remembered, and is written anew. -/
theorem VerdictTable.replies_eq_slots_rewritten :
    let first := SessionKey.repeating 97
    let second := SessionKey.repeating 98
    let ops : List TableOp :=
      [.act (.remember first .allow), .advance 4, .act (.remember first .drop),
        .act (.remember second .drop), .advance 1, .sweep 5,
        .act (.remember first .drop), .act (.redeem first), .act (.redeem first)]
    ClockOp.SweepsPast 0 ops ∧
      (TimedTable.new 5 3 0).replies ops = (SlotTable.new 5 0).replies ops ∧
      (TimedTable.new 5 3 0).replies ops =
        [⟨first, 0, .remembered true⟩, ⟨first, 4, .remembered false⟩,
          ⟨second, 4, .remembered true⟩, ⟨first, 5, .remembered true⟩,
          ⟨first, 5, .redeemed (some .drop)⟩, ⟨first, 5, .redeemed none⟩] := by
  intro first second ops
  have past : ClockOp.SweepsPast 0 ops := by
    simp [ops, ClockOp.SweepsPast, ClockOp.timeAfter]
  refine ⟨past, (VerdictTable.replies_eq_slots 5 3 0 ops past).1, ?_⟩
  decide

end TrafficRelay
