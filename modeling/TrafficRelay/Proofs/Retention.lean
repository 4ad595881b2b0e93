import Mathlib.Data.List.Nodup
import Mathlib.Data.List.Perm.Subperm
import TrafficRelay.Proofs.PassingSweeps

/-!
# How long entries stay

An entry that a sweep in passing left was younger than the time to live then, and
the next such sweep takes place at the latest when a verdict is remembered after
the sweep interval.  So whatever is on record after a verdict has been remembered
is younger than the two together, and there are no more entries than verdicts
were put on record within that time.
-/

namespace TrafficRelay

private theorem age_lt_add {now last since timeToLive interval : Nat}
    (swept : last ≤ now) (recent : now - last < interval)
    (young : last ≤ since ∨ last - since < timeToLive) :
    now - since < timeToLive + interval := by
  omega

namespace VerdictTable

variable {table : VerdictTable}

/-- Entries of different sessions were put on record by different answers. -/
theorem size_le_countP (distinct : table.Distinct) {replies : List TableReply}
    {counts : TableReply → Bool}
    (recorded : ∀ session entry, (session, entry) ∈ table.entries →
      ⟨session, entry.since, .remembered true⟩ ∈ replies ∧
        counts ⟨session, entry.since, .remembered true⟩ = true) :
    table.size ≤ replies.countP counts := by
  let answers := table.entries.map fun entry =>
    (⟨entry.1, entry.2.since, .remembered true⟩ : TableReply)
  have sessions : answers.map TableReply.session = table.entries.map Prod.fst := by
    simp [answers, Function.comp_def]
  have nodup : answers.Nodup := by
    apply List.Nodup.of_map TableReply.session
    rw [sessions]
    exact distinct
  have subset : answers ⊆ replies.filter counts := by
    intro answer member
    obtain ⟨⟨session, entry⟩, present, rfl⟩ := List.mem_map.mp member
    exact List.mem_filter.mpr (recorded session entry present)
  have lengths := (nodup.subperm subset).length_le
  rwa [List.length_map, ← List.countP_eq_length_filter] at lengths

end VerdictTable

namespace TimedTable

/-- The entries on record were made by now, and the last sweep in passing would
not have removed any of them. -/
structure Retained (state : TimedTable) : Prop where
  swept : state.table.lastSweep ≤ state.now
  past : ∀ session entry, (session, entry) ∈ state.table.entries → entry.since ≤ state.now
  young : ∀ session entry, (session, entry) ∈ state.table.entries →
    state.table.lastSweep ≤ entry.since ∨
      state.table.lastSweep - entry.since < state.table.timeToLive

/-- Each entry was put on record by one of these answers. -/
def Recorded (state : TimedTable) (replies : List TableReply) : Prop :=
  ∀ session entry, (session, entry) ∈ state.table.entries →
    ⟨session, entry.since, .remembered true⟩ ∈ replies

variable {state : TimedTable}

theorem step_remember (state : TimedTable) (session : SessionKey) (verdict : Verdict) :
    state.step (.act (.remember session verdict)) =
      (some ⟨session, state.now,
          .remembered (state.table.remember state.now session verdict).1⟩,
        ⟨state.now, (state.table.remember state.now session verdict).2⟩) := rfl

theorem retained_new (timeToLive sweepInterval : Duration) (start : Instant) :
    (TimedTable.new timeToLive sweepInterval start).Retained where
  swept := Nat.le_refl start
  past _ _ member := by cases member
  young _ _ member := by cases member

namespace Retained

/-- Time may pass and entries may go. -/
theorem of_subset (retained : state.Retained) {now : Instant} {table : VerdictTable}
    (later : state.now ≤ now)
    (subset : ∀ entry ∈ table.entries, entry ∈ state.table.entries)
    (sameSweep : table.lastSweep = state.table.lastSweep)
    (sameTimeToLive : table.timeToLive = state.table.timeToLive) :
    Retained ⟨now, table⟩ where
  swept := by
    rw [sameSweep]
    exact Nat.le_trans retained.swept later
  past session entry member := by
    apply Nat.le_trans _ later
    exact retained.past session entry (subset _ member)
  young session entry member := by
    rw [sameSweep, sameTimeToLive]
    exact retained.young session entry (subset _ member)

theorem sweepIfDue (retained : state.Retained) :
    Retained ⟨state.now, state.table.sweepIfDue state.now⟩ := by
  by_cases due : state.table.sweepInterval ≤ state.now - state.table.lastSweep
  · rw [VerdictTable.sweepIfDue_of_due due]
    constructor
    · exact Nat.le_refl _
    · intro session entry member
      exact retained.past session entry (VerdictTable.mem_entries_sweep_iff.mp member).1
    · intro session entry member
      exact Or.inr (VerdictTable.mem_entries_sweep_iff.mp member).2
  · rw [VerdictTable.sweepIfDue_of_not_due due]
    exact retained

theorem insert (retained : state.Retained) (session : SessionKey) (verdict : Verdict) :
    Retained ⟨state.now, state.table.insert session ⟨verdict, state.now⟩⟩ := by
  constructor
  · exact retained.swept
  · intro other entry member
    rcases List.mem_cons.mp member with new | old
    · cases new
      exact Nat.le_refl _
    · exact retained.past other entry (VerdictTable.mem_entries_of_erase old).2
  · intro other entry member
    rcases List.mem_cons.mp member with new | old
    · cases new
      exact Or.inl retained.swept
    · exact retained.young other entry (VerdictTable.mem_entries_of_erase old).2

theorem step (retained : state.Retained) (op : TableOp) :
    (state.step op).2.Retained := by
  cases op with
  | act action =>
      cases action with
      | remember session verdict =>
          have swept := retained.sweepIfDue
          rw [step_remember]
          rcases state.table.remember_cases state.now session verdict with
            refused | stored
          · rw [refused]
            exact swept
          · rw [stored]
            exact swept.insert session verdict
      | redeem session =>
          refine retained.of_subset (Nat.le_refl _) ?_ rfl rfl
          intro entry member
          exact (VerdictTable.mem_entries_of_erase member).2
  | sweep instant =>
      refine retained.of_subset (Nat.le_refl _) ?_ rfl rfl
      intro entry member
      exact (VerdictTable.mem_entries_sweep_iff.mp member).1
  | advance elapsed =>
      exact retained.of_subset (Nat.le_add_right _ _) (fun _ member => member) rfl rfl

/-- What is left once the table has been swept if that was due. -/
theorem age_lt (retained : state.Retained) {session : SessionKey} {entry : VerdictEntry}
    (member : (session, entry) ∈ (state.table.sweepIfDue state.now).entries) :
    state.now - entry.since < state.table.timeToLive + state.table.sweepInterval := by
  by_cases due : state.table.sweepInterval ≤ state.now - state.table.lastSweep
  · rw [VerdictTable.sweepIfDue_of_due due] at member
    apply Nat.lt_of_lt_of_le (VerdictTable.mem_entries_sweep_iff.mp member).2
    exact Nat.le_add_right _ _
  · rw [VerdictTable.sweepIfDue_of_not_due due] at member
    apply age_lt_add retained.swept (Nat.lt_of_not_le due)
    exact retained.young session entry member

end Retained

theorem recorded_new (timeToLive sweepInterval : Duration) (start : Instant) :
    (TimedTable.new timeToLive sweepInterval start).Recorded [] := by
  intro session entry member
  cases member

theorem Recorded.of_subset {replies more : List TableReply} {next : TimedTable}
    (recorded : state.Recorded replies)
    (subset : ∀ entry ∈ next.table.entries, entry ∈ state.table.entries) :
    next.Recorded (replies ++ more) := by
  intro session entry member
  apply List.mem_append_left
  exact recorded session entry (subset _ member)

theorem Recorded.step {replies : List TableReply} (recorded : state.Recorded replies)
    (op : TableOp) :
    (state.step op).2.Recorded (replies ++ (state.step op).1.toList) := by
  cases op with
  | act action =>
      cases action with
      | remember session verdict =>
          rw [step_remember]
          rcases state.table.remember_cases state.now session verdict with
            refused | stored
          · rw [refused]
            apply recorded.of_subset
            intro entry member
            exact VerdictTable.mem_entries_of_sweepIfDue member
          · rw [stored]
            intro other entry member
            rcases List.mem_cons.mp member with new | old
            · cases new
              exact List.mem_append_right _ List.mem_cons_self
            · apply List.mem_append_left
              apply recorded
              apply VerdictTable.mem_entries_of_sweepIfDue
              exact (VerdictTable.mem_entries_of_erase old).2
      | redeem session =>
          apply recorded.of_subset
          intro entry member
          exact (VerdictTable.mem_entries_of_erase member).2
  | sweep instant =>
      apply recorded.of_subset
      intro entry member
      exact (VerdictTable.mem_entries_sweep_iff.mp member).1
  | advance elapsed =>
      apply recorded.of_subset
      intro entry member
      exact member

theorem step_distinct (distinct : state.table.Distinct) (op : TableOp) :
    (state.step op).2.table.Distinct := by
  cases op with
  | act action => exact distinct.act state.now action
  | sweep instant => exact distinct.sweep instant
  | advance elapsed => exact distinct

theorem step_durations (state : TimedTable) (op : TableOp) :
    (state.step op).2.table.timeToLive = state.table.timeToLive ∧
      (state.step op).2.table.sweepInterval = state.table.sweepInterval := by
  cases op with
  | act action =>
      refine ⟨state.table.act_timeToLive state.now action, ?_⟩
      cases action with
      | remember session verdict =>
          exact (state.table.remember_lastSweep state.now session verdict).2
      | redeem session => rfl
  | sweep instant => exact ⟨rfl, rfl⟩
  | advance elapsed => exact ⟨rfl, rfl⟩

/-- What holds of the table after any run. -/
structure Sound (timeToLive sweepInterval : Duration) (replies : List TableReply)
    (state : TimedTable) : Prop where
  timeToLive : state.table.timeToLive = timeToLive
  sweepInterval : state.table.sweepInterval = sweepInterval
  distinct : state.table.Distinct
  retained : state.Retained
  recorded : state.Recorded replies

theorem Sound.run {timeToLive sweepInterval : Duration} {replies : List TableReply}
    (sound : state.Sound timeToLive sweepInterval replies) (ops : List TableOp) :
    (state.run ops).Sound timeToLive sweepInterval (replies ++ state.replies ops) := by
  induction ops generalizing state replies with
  | nil =>
      rw [TimedTable.replies, List.append_nil]
      exact sound
  | cons op ops induction =>
      obtain ⟨sameTimeToLive, sameInterval⟩ := state.step_durations op
      rw [TimedTable.replies, ← List.append_assoc]
      apply induction
      constructor
      · rw [sameTimeToLive, sound.timeToLive]
      · rw [sameInterval, sound.sweepInterval]
      · exact step_distinct sound.distinct op
      · exact sound.retained.step op
      · exact sound.recorded.step op

theorem sound_new (timeToLive sweepInterval : Duration) (start : Instant) :
    (TimedTable.new timeToLive sweepInterval start).Sound timeToLive sweepInterval [] where
  timeToLive := rfl
  sweepInterval := rfl
  distinct := VerdictTable.Distinct.empty _ _ _
  retained := retained_new _ _ _
  recorded := recorded_new _ _ _

namespace Sound

variable {timeToLive sweepInterval : Duration} {replies : List TableReply}
  {state : TimedTable}

/-- What remembering leaves on record was put there a short time ago. -/
theorem recent (sound : state.Sound timeToLive sweepInterval replies)
    {session : SessionKey} {entry : VerdictEntry}
    (member : (session, entry) ∈ (state.table.sweepIfDue state.now).entries) :
    entry.since ≤ state.now ∧
      state.now - entry.since < timeToLive + sweepInterval ∧
      ⟨session, entry.since, .remembered true⟩ ∈ replies := by
  have present := VerdictTable.mem_entries_of_sweepIfDue member
  have young := sound.retained.age_lt member
  rw [sound.timeToLive, sound.sweepInterval] at young
  exact ⟨sound.retained.past session entry present, young,
    sound.recorded session entry present⟩

theorem recent_of_remember (sound : state.Sound timeToLive sweepInterval replies)
    {session other : SessionKey} {verdict : Verdict} {entry : VerdictEntry}
    (member : (other, entry) ∈ (state.table.remember state.now session verdict).2.entries) :
    other = session ∧ entry = ⟨verdict, state.now⟩ ∨
      entry.since ≤ state.now ∧ state.now - entry.since < timeToLive + sweepInterval := by
  rcases state.table.remember_cases state.now session verdict with refused | stored
  · rw [refused] at member
    obtain ⟨past, young, -⟩ := sound.recent member
    exact Or.inr ⟨past, young⟩
  · rw [stored] at member
    rcases List.mem_cons.mp member with new | old
    · exact Or.inl (Prod.mk.inj new)
    · obtain ⟨past, young, -⟩ := sound.recent (VerdictTable.mem_entries_of_erase old).2
      exact Or.inr ⟨past, young⟩

theorem size_remember_le (sound : state.Sound timeToLive sweepInterval replies)
    (session : SessionKey) (verdict : Verdict) :
    (state.table.remember state.now session verdict).2.size ≤
      1 + replies.countP (fun reply => reply.answer = .remembered true ∧
        state.now - reply.instant < timeToLive + sweepInterval) := by
  have swept := sound.distinct.sweepIfDue state.now
  rcases state.table.remember_cases state.now session verdict with refused | stored
  · rw [refused]
    apply Nat.le_trans _ (Nat.le_add_left _ 1)
    apply VerdictTable.size_le_countP swept
    intro other entry member
    obtain ⟨-, young, recorded⟩ := sound.recent member
    exact ⟨recorded, decide_eq_true ⟨rfl, young⟩⟩
  · have size : (state.table.remember state.now session verdict).2.size =
        1 + ((state.table.sweepIfDue state.now).erase session).size := by
      rw [stored]
      exact Nat.add_comm _ 1
    rw [size]
    apply Nat.add_le_add_left
    apply VerdictTable.size_le_countP (swept.erase session)
    intro other entry member
    obtain ⟨-, young, recorded⟩ := sound.recent (VerdictTable.mem_entries_of_erase member).2
    exact ⟨recorded, decide_eq_true ⟨rfl, young⟩⟩

/-- A sweep in passing takes from the other sessions what has expired. -/
theorem mem_remember_iff (sound : state.Sound timeToLive sweepInterval replies)
    {session other : SessionKey} {verdict : Verdict} {entry : VerdictEntry}
    (different : other ≠ session) :
    (other, entry) ∈ (state.table.remember state.now session verdict).2.entries ↔
      (other, entry) ∈ state.table.entries ∧
        ((state.passingSweep? (.act (.remember session verdict))).isSome = true →
          state.now - entry.since < timeToLive) := by
  rw [isSome_passingSweep?_remember, ← sound.timeToLive]
  apply (VerdictTable.mem_entries_remember_iff different).trans
  exact VerdictTable.mem_entries_sweepIfDue_iff

end Sound

end TimedTable

namespace VerdictTable

/-- In any run, an entry that is on record right after a verdict has been remembered
is that verdict or younger than the time to live and the sweep interval together,
and apart from it there are no more than were put on record within that time.  What
the sweep in passing removes has reached the time to live.  Such sweeps are an
interval apart, and two runs that differ in the sweeps that are asked for, be it for
a past or a future time, make them at the same times. -/
theorem remember_bounds_retention (timeToLive sweepInterval : Duration) (start : Instant)
    (ops : List TableOp) :
    let fresh := TimedTable.new timeToLive sweepInterval start
    let state := fresh.run ops
    (∀ session verdict,
      let remember := ClockOp.act (TableAction.remember session verdict)
      let next := (state.step remember).2
      (∀ other entry, (other, entry) ∈ next.table.entries →
        other = session ∧ entry = ⟨verdict, state.now⟩ ∨
          entry.since ≤ state.now ∧
            state.now - entry.since < timeToLive + sweepInterval) ∧
        next.table.size ≤ 1 + (fresh.replies ops).countP (fun reply =>
          reply.answer = .remembered true ∧
            state.now - reply.instant < timeToLive + sweepInterval) ∧
        ∀ other entry, other ≠ session →
          ((other, entry) ∈ next.table.entries ↔
            (other, entry) ∈ state.table.entries ∧
              ((state.passingSweep? remember).isSome = true →
                state.now - entry.since < timeToLive))) ∧
      (start :: fresh.passingSweeps ops).Pairwise
        (fun earlier later => earlier + sweepInterval ≤ later) ∧
      ∀ others : List TableOp,
        (others.filter fun op => !op.isSweep) = (ops.filter fun op => !op.isSweep) →
        fresh.passingSweeps others = fresh.passingSweeps ops := by
  intro fresh state
  have sound : state.Sound timeToLive sweepInterval (fresh.replies ops) :=
    (TimedTable.sound_new timeToLive sweepInterval start).run ops
  refine ⟨?_, ?_, ?_⟩
  · intro session verdict remember next
    refine ⟨?_, sound.size_remember_le session verdict, ?_⟩
    · intro other entry member
      exact sound.recent_of_remember member
    · intro other entry different
      exact sound.mem_remember_iff different
  · rw [TimedTable.passingSweeps_eq]
    exact pairwise_spaced (TableOp.pairwise_rememberTimes start ops)
  · intro others same
    rw [TimedTable.passingSweeps_eq, TimedTable.passingSweeps_eq,
      ← TableOp.rememberTimes_withoutSweeps _ others, same,
      TableOp.rememberTimes_withoutSweeps]

/-- A sweep for a time to come empties the table, and the next sweep in passing
takes place all the same. -/
theorem remember_bounds_retention_after_sweep :
    let earlier : List TableOp := [.act (.remember (.repeating 1) .allow), .advance 2]
    let later : List TableOp := [.act (.remember (.repeating 2) .drop), .advance 2]
    let fresh := TimedTable.new 2 3 0
    let state := fresh.run (earlier ++ .sweep 9 :: later)
    let next := (state.step (.act (.remember (.repeating 3) .allow))).2
    (.repeating 1, ⟨.allow, 0⟩) ∉ (fresh.run (earlier ++ [.sweep 9])).table.entries ∧
      (.repeating 2, ⟨.drop, 2⟩) ∈ state.table.entries ∧
      (.repeating 2, ⟨.drop, 2⟩) ∉ next.table.entries ∧
      next.table.size ≤ 1 + 2 ∧
      fresh.passingSweeps (earlier ++ later) =
        fresh.passingSweeps (earlier ++ .sweep 9 :: later) := by
  intro earlier later fresh state next
  obtain ⟨bounds, -, sameTimes⟩ :=
    remember_bounds_retention 2 3 0 (earlier ++ .sweep 9 :: later)
  obtain ⟨-, size, others⟩ := bounds (.repeating 3) .allow
  refine ⟨by decide, by decide, ?_, size, sameTimes (earlier ++ later) rfl⟩
  intro member
  have kept := (others (.repeating 2) ⟨.drop, 2⟩ (by decide)).mp member
  exact absurd (kept.2 (by decide)) (by decide)

end VerdictTable

end TrafficRelay
