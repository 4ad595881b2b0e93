import TrafficRelay.Proofs.TableRun

/-!
# Sweeps in passing

Remembering a verdict sweeps the table in passing once the sweep interval has
passed since this last happened.  When it happens in a run depends on the times
at which verdicts are remembered and on nothing else, in particular not on the
sweeps that are asked for: those leave the time of the last one as it is.
-/

namespace TrafficRelay

/-- The times at which a run remembers verdicts. -/
def TableOp.rememberTimes : Instant → List TableOp → List Instant
  | _, [] => []
  | now, .act (.remember _ _) :: ops => now :: rememberTimes now ops
  | now, .act (.redeem _) :: ops => rememberTimes now ops
  | now, .sweep _ :: ops => rememberTimes now ops
  | now, .advance elapsed :: ops => rememberTimes (now + elapsed) ops

theorem TableOp.rememberTimes_withoutSweeps (now : Instant) (ops : List TableOp) :
    rememberTimes now (ops.filter fun op => !op.isSweep) = rememberTimes now ops := by
  induction ops generalizing now with
  | nil => rfl
  | cons op ops induction =>
      cases op with
      | act action =>
          rw [List.filter_cons_of_pos rfl]
          cases action with
          | remember session verdict =>
              rw [rememberTimes, rememberTimes, induction]
          | redeem session => rw [rememberTimes, rememberTimes, induction]
      | sweep instant =>
          rw [List.filter_cons_of_neg Bool.false_ne_true, induction, rememberTimes]
      | advance elapsed =>
          rw [List.filter_cons_of_pos rfl, rememberTimes, rememberTimes, induction]

/-- No time in a run is earlier than those before it. -/
theorem TableOp.pairwise_rememberTimes (now : Instant) (ops : List TableOp) :
    (now :: rememberTimes now ops).Pairwise (· ≤ ·) := by
  induction ops generalizing now with
  | nil => exact List.pairwise_singleton _ _
  | cons op ops induction =>
      cases op with
      | act action =>
          cases action with
          | remember session verdict =>
              have later := induction now
              obtain ⟨notBefore, ordered⟩ := List.pairwise_cons.mp later
              apply List.Pairwise.cons _ later
              exact List.forall_mem_cons.mpr ⟨Nat.le_refl now, notBefore⟩
          | redeem session => exact induction now
      | sweep instant => exact induction now
      | advance elapsed =>
          obtain ⟨notBefore, ordered⟩ := List.pairwise_cons.mp (induction (now + elapsed))
          apply List.Pairwise.cons _ ordered
          intro instant member
          exact Nat.le_trans (Nat.le_add_right now elapsed) (notBefore instant member)

/-- Of these times, the ones that come an interval after the last one picked. -/
def spaced (interval : Duration) : Instant → List Instant → List Instant
  | _, [] => []
  | last, now :: later =>
      if interval ≤ now - last then now :: spaced interval now later
      else spaced interval last later

/-- Those times lie an interval apart, from the start on. -/
theorem pairwise_spaced {interval : Duration} {last : Instant} {times : List Instant}
    (ordered : (last :: times).Pairwise (· ≤ ·)) :
    (last :: spaced interval last times).Pairwise
      fun earlier later => earlier + interval ≤ later := by
  induction times generalizing last with
  | nil => exact List.pairwise_singleton _ _
  | cons now later induction =>
      obtain ⟨afterLast, others⟩ := List.pairwise_cons.mp ordered
      have passed : last ≤ now := afterLast now List.mem_cons_self
      rw [spaced]
      split
      · rename_i due
        have next := induction others
        obtain ⟨afterNow, -⟩ := List.pairwise_cons.mp next
        apply List.Pairwise.cons _ next
        refine List.forall_mem_cons.mpr ⟨?_, ?_⟩
        · exact (Nat.le_sub_iff_add_le' passed).mp due
        · intro instant member
          apply Nat.le_trans (Nat.add_le_add_right passed interval)
          exact afterNow instant member
      · apply induction
        apply List.Pairwise.cons _ (List.pairwise_cons.mp others).2
        intro instant member
        exact afterLast instant (List.mem_cons_of_mem now member)

namespace VerdictTable

@[simp] theorem sweepIfDue_sweepInterval (table : VerdictTable) (now : Instant) :
    (table.sweepIfDue now).sweepInterval = table.sweepInterval := by
  unfold sweepIfDue
  split <;> rfl

theorem sweepIfDue_of_due {table : VerdictTable} {now : Instant}
    (due : table.sweepInterval ≤ now - table.lastSweep) :
    table.sweepIfDue now = { table with lastSweep := now }.sweep now :=
  if_pos due

theorem sweepIfDue_of_not_due {table : VerdictTable} {now : Instant}
    (early : ¬table.sweepInterval ≤ now - table.lastSweep) :
    table.sweepIfDue now = table :=
  if_neg early

/-- Beyond the sweep, remembering changes the entries alone. -/
theorem remember_lastSweep (table : VerdictTable) (now : Instant) (session : SessionKey)
    (verdict : Verdict) :
    (table.remember now session verdict).2.lastSweep = (table.sweepIfDue now).lastSweep ∧
      (table.remember now session verdict).2.sweepInterval = table.sweepInterval := by
  have kept := table.sweepIfDue_sweepInterval now
  unfold remember
  simp only
  split
  · exact ⟨rfl, kept⟩
  · exact ⟨rfl, kept⟩

end VerdictTable

namespace TimedTable

/-- The time at which an operation sweeps the table in passing, if it does. -/
def passingSweep? (state : TimedTable) : TableOp → Option Instant
  | .act (.remember _ _) =>
      if state.table.sweepInterval ≤ state.now - state.table.lastSweep then
        some state.now
      else none
  | .act (.redeem _) | .sweep _ | .advance _ => none

theorem isSome_passingSweep?_remember {state : TimedTable} {session : SessionKey}
    {verdict : Verdict} :
    (state.passingSweep? (.act (.remember session verdict))).isSome = true ↔
      state.table.sweepInterval ≤ state.now - state.table.lastSweep := by
  rw [passingSweep?]
  split
  · rename_i due
    exact iff_of_true rfl due
  · rename_i early
    exact iff_of_false Bool.false_ne_true early

/-- The times at which a run sweeps the table in passing. -/
def passingSweeps (state : TimedTable) : List TableOp → List Instant
  | [] => []
  | op :: ops => (state.passingSweep? op).toList ++ (state.step op).2.passingSweeps ops

theorem passingSweeps_eq (state : TimedTable) (ops : List TableOp) :
    state.passingSweeps ops =
      spaced state.table.sweepInterval state.table.lastSweep
        (TableOp.rememberTimes state.now ops) := by
  induction ops generalizing state with
  | nil => rfl
  | cons op ops induction =>
      rw [passingSweeps, induction]
      cases op with
      | act action =>
          cases action with
          | remember session verdict =>
              obtain ⟨sameSweep, sameInterval⟩ :=
                state.table.remember_lastSweep state.now session verdict
              have nextSweep : (state.step (.act (.remember session verdict))).2.table.lastSweep =
                  (state.table.sweepIfDue state.now).lastSweep := sameSweep
              have nextInterval :
                  (state.step (.act (.remember session verdict))).2.table.sweepInterval =
                    state.table.sweepInterval := sameInterval
              rw [nextSweep, nextInterval, step_now, TableOp.rememberTimes, spaced,
                passingSweep?]
              split
              · rename_i due
                rw [VerdictTable.sweepIfDue_of_due due]
                rfl
              · rename_i early
                rw [VerdictTable.sweepIfDue_of_not_due early]
                rfl
          | redeem session => rfl
      | sweep instant => rfl
      | advance elapsed => rfl

end TimedTable

end TrafficRelay
