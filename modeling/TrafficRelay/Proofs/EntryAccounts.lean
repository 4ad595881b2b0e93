import Mathlib.Algebra.BigOperators.Group.List.Basic
import Mathlib.Algebra.GroupWithZero.Nat
import TrafficRelay.Proofs.Retention

/-!
# Where entries come from and where they go

Each entry of a table was put on record when a verdict was remembered, and it leaves in
one of four ways: it is redeemed, swept because this was asked for, swept in passing, or
replaced once it has expired.  What a run has put on record is therefore what is still
there together with what has left, entry by entry.  Several sweeps in a row amount to the
one for the latest instant.
-/

namespace TrafficRelay

/-- The ways in which an entry leaves a table. -/
inductive Departure where
  | redeemed
  | swept
  | sweptInPassing
  | replaced
  deriving DecidableEq, Repr

/-- An entry that has left, and how. -/
abbrev DepartedEntry := Departure × (SessionKey × VerdictEntry)

namespace Departure

theorem length_eq_countP (entries : List DepartedEntry) :
    entries.length = entries.countP (·.1 = redeemed) + entries.countP (·.1 = swept) +
      entries.countP (·.1 = sweptInPassing) + entries.countP (·.1 = replaced) := by
  induction entries with
  | nil => rfl
  | cons entry entries induction =>
      obtain ⟨way, entry⟩ := entry
      rw [List.length_cons, induction]
      cases way <;> simp <;> omega

theorem map_snd (way : Departure) (entries : List (SessionKey × VerdictEntry)) :
    (entries.map (way, ·)).map Prod.snd = entries := by
  rw [List.map_map]
  exact List.map_id _

theorem countP_map_self (way : Departure) (entries : List (SessionKey × VerdictEntry)) :
    (entries.map (way, ·)).countP (·.1 = way) = entries.length := by
  rw [List.countP_map]
  apply List.countP_eq_length.mpr
  intro entry _
  exact decide_eq_true rfl

theorem countP_map_of_ne {way other : Departure} (different : other ≠ way)
    (entries : List (SessionKey × VerdictEntry)) :
    (entries.map (other, ·)).countP (·.1 = way) = 0 := by
  rw [List.countP_map]
  apply List.countP_eq_zero.mpr
  intro entry _
  exact fun same => different (of_decide_eq_true same)

end Departure

namespace VerdictEntry

/-- What has expired at an instant has expired at every later one. -/
theorem expired_mono {timeToLive : Duration} {entry : VerdictEntry} {instant later : Instant}
    (ordered : instant ≤ later) (expired : entry.expired timeToLive instant = true) :
    entry.expired timeToLive later = true := by
  have old : timeToLive ≤ instant - entry.since := of_decide_eq_true expired
  exact decide_eq_true (Nat.le_trans old (Nat.sub_le_sub_right ordered entry.since))

theorem expired_max (timeToLive : Duration) (entry : VerdictEntry) (first second : Instant) :
    entry.expired timeToLive (max first second) =
      (entry.expired timeToLive first || entry.expired timeToLive second) := by
  rw [Bool.eq_iff_iff, Bool.or_eq_true]
  constructor
  · intro expired
    rcases Nat.le_total first second with ordered | ordered
    · rw [Nat.max_eq_right ordered] at expired
      exact Or.inr expired
    · rw [Nat.max_eq_left ordered] at expired
      exact Or.inl expired
  · rintro (expired | expired)
    · exact expired_mono (Nat.le_max_left first second) expired
    · exact expired_mono (Nat.le_max_right first second) expired

end VerdictEntry

namespace VerdictTable

variable {table : VerdictTable}

/-! ## Sweeps in a row -/

/-- The entries that a sweep at an instant removes. -/
def expiredEntries (table : VerdictTable) (instant : Instant) :
    List (SessionKey × VerdictEntry) :=
  table.entries.filter fun entry => entry.2.expired table.timeToLive instant

theorem length_expiredEntries (table : VerdictTable) (instant : Instant) :
    (table.expiredEntries instant).length = table.expiredCount instant :=
  List.countP_eq_length_filter.symm

theorem sweep_sweep (table : VerdictTable) (first second : Instant) :
    (table.sweep first).sweep second = table.sweep (max first second) := by
  have same (entry : SessionKey × VerdictEntry) :
      (!entry.2.expired table.timeToLive second && !entry.2.expired table.timeToLive first) =
        !entry.2.expired table.timeToLive (max first second) := by
    rw [VerdictEntry.expired_max, Bool.not_or, Bool.and_comm]
  simp only [sweep, List.filter_filter, same]

theorem perm_sweep (table : VerdictTable) (instant : Instant) :
    table.entries.Perm ((table.sweep instant).entries ++ table.expiredEntries instant) := by
  have split := List.filter_append_perm
    (fun entry : SessionKey × VerdictEntry => !entry.2.expired table.timeToLive instant)
    table.entries
  simp only [Bool.not_not] at split
  exact split.symm

theorem size_sweep (table : VerdictTable) (instant : Instant) :
    (table.sweep instant).size + table.expiredCount instant = table.size := by
  have lengths := (table.perm_sweep instant).length_eq
  rw [List.length_append, length_expiredEntries] at lengths
  exact lengths.symm

theorem expiredCount_sweep (table : VerdictTable) (first second : Instant) :
    table.expiredCount first + (table.sweep first).expiredCount second =
      table.expiredCount (max first second) := by
  have one := table.size_sweep first
  have both := (table.sweep first).size_sweep second
  have single := table.size_sweep (max first second)
  rw [sweep_sweep] at both
  omega

/-! ## Single entries -/

/-- With one entry for a session, looking it up gives all that erasing removes. -/
theorem filter_session (distinct : table.Distinct) (session : SessionKey) :
    (table.entries.filter fun entry => entry.1 = session) =
      (table.get? session).toList.map (session, ·) := by
  unfold Distinct at distinct
  unfold get?
  generalize table.entries = entries at distinct ⊢
  induction entries with
  | nil => rfl
  | cons entry rest induction =>
      obtain ⟨head, entry⟩ := entry
      obtain ⟨fresh, restDistinct⟩ := List.nodup_cons.mp distinct
      by_cases same : head = session
      · subst head
        have noOther : (rest.filter fun entry => entry.1 = session) = [] := by
          apply List.filter_eq_nil_iff.mpr
          intro other member equal
          apply fresh
          exact List.mem_map.mpr ⟨other, member, of_decide_eq_true equal⟩
        simp [noOther]
      · have different : (session == head) = false := beq_false_of_ne (Ne.symm same)
        simpa [same, List.lookup_cons, different] using induction restDistinct

theorem perm_erase (distinct : table.Distinct) (session : SessionKey) :
    table.entries.Perm
      ((table.erase session).entries ++ (table.get? session).toList.map (session, ·)) := by
  have split := List.filter_append_perm
    (fun entry : SessionKey × VerdictEntry => decide (entry.1 ≠ session)) table.entries
  simp only [decide_not, Bool.not_not] at split
  rw [filter_session distinct] at split
  simpa only [erase, decide_not] using split.symm

/-- The entry of a session that a new verdict may replace. -/
def expired? (table : VerdictTable) (now : Instant) (session : SessionKey) :
    Option VerdictEntry :=
  (table.get? session).filter fun entry => entry.expired table.timeToLive now

/-- A session has a live entry, or all that it has is expired. -/
theorem expired?_eq (table : VerdictTable) (now : Instant) (session : SessionKey) :
    table.expired? now session =
      if table.isLive now session then none else table.get? session := by
  unfold expired? isLive
  cases table.get? session with
  | none => rfl
  | some entry =>
      cases expired : entry.expired table.timeToLive now <;>
        simp [Option.filter, expired]

end VerdictTable

namespace TimedTable

/-- The entry that an operation puts on record. -/
def entering (state : TimedTable) : TableOp → List (SessionKey × VerdictEntry)
  | .act (.remember session verdict) =>
      if (state.table.remember state.now session verdict).1 then
        [(session, ⟨verdict, state.now⟩)]
      else []
  | .act (.redeem _) | .sweep _ | .advance _ => []

/-- The entries that leave in an operation.  What is swept in passing has left before
the verdict is put on record. -/
def leaving (state : TimedTable) : TableOp → List DepartedEntry
  | .act (.remember session verdict) =>
      ((state.passingSweep? (.act (.remember session verdict))).toList.flatMap
          state.table.expiredEntries).map (.sweptInPassing, ·) ++
        (((state.table.sweepIfDue state.now).expired? state.now session).toList.map
          (session, ·)).map (.replaced, ·)
  | .act (.redeem session) =>
      ((state.table.get? session).toList.map (session, ·)).map (.redeemed, ·)
  | .sweep instant => (state.table.expiredEntries instant).map (.swept, ·)
  | .advance _ => []

/-- What a run puts on record. -/
def entered (state : TimedTable) : List TableOp → List (SessionKey × VerdictEntry)
  | [] => []
  | op :: ops => state.entering op ++ (state.step op).2.entered ops

/-- What leaves in a run. -/
def departed (state : TimedTable) : List TableOp → List DepartedEntry
  | [] => []
  | op :: ops => state.leaving op ++ (state.step op).2.departed ops

/-- The count that an operation returns if it is a sweep. -/
def sweepCount? (state : TimedTable) : TableOp → Option Nat
  | .sweep instant => some (state.table.expiredCount instant)
  | .act _ | .advance _ => none

/-- The counts that the sweeps of a run return. -/
def sweepCounts (state : TimedTable) : List TableOp → List Nat
  | [] => []
  | op :: ops => (state.sweepCount? op).toList ++ (state.step op).2.sweepCounts ops

variable {state : TimedTable}

theorem perm_sweepIfDue (state : TimedTable) (session : SessionKey) (verdict : Verdict) :
    state.table.entries.Perm
      ((state.table.sweepIfDue state.now).entries ++
        (state.passingSweep? (.act (.remember session verdict))).toList.flatMap
          state.table.expiredEntries) := by
  by_cases due : state.table.sweepInterval ≤ state.now - state.table.lastSweep
  · rw [VerdictTable.sweepIfDue_of_due due, passingSweep?, if_pos due,
      Option.toList_some, List.flatMap_singleton]
    exact state.table.perm_sweep state.now
  · rw [VerdictTable.sweepIfDue_of_not_due due, passingSweep?, if_neg due,
      Option.toList_none, List.flatMap_nil, List.append_nil]

theorem map_leaving_remember (state : TimedTable) (session : SessionKey) (verdict : Verdict) :
    (state.leaving (.act (.remember session verdict))).map Prod.snd =
      (state.passingSweep? (.act (.remember session verdict))).toList.flatMap
          state.table.expiredEntries ++
        ((state.table.sweepIfDue state.now).expired? state.now session).toList.map
          (session, ·) := by
  rw [leaving, List.map_append, Departure.map_snd, Departure.map_snd]

theorem perm_remember (distinct : state.table.Distinct) (session : SessionKey)
    (verdict : Verdict) :
    (state.entering (.act (.remember session verdict)) ++ state.table.entries).Perm
      ((state.table.remember state.now session verdict).2.entries ++
        (state.leaving (.act (.remember session verdict))).map Prod.snd) := by
  have passing := state.perm_sweepIfDue session verdict
  rw [map_leaving_remember, VerdictTable.expired?_eq, entering]
  cases live : (state.table.sweepIfDue state.now).isLive state.now session with
  | true =>
      have refused : state.table.remember state.now session verdict =
          (false, state.table.sweepIfDue state.now) := if_pos live
      simpa [refused] using passing
  | false =>
      have stored : state.table.remember state.now session verdict =
          (true, (state.table.sweepIfDue state.now).insert session ⟨verdict, state.now⟩) :=
        if_neg (Bool.eq_false_iff.mp live)
      have erased := VerdictTable.perm_erase (distinct.sweepIfDue state.now) session
      have both := passing.trans (erased.append_right _)
      rw [List.append_assoc] at both
      have reordered := both.trans (List.perm_append_comm.append_left _)
      simpa [stored, VerdictTable.insert] using reordered

/-- What was on record and what an operation adds are what is on record then and what
has left. -/
theorem perm_step (distinct : state.table.Distinct) (op : TableOp) :
    (state.entering op ++ state.table.entries).Perm
      ((state.step op).2.table.entries ++ (state.leaving op).map Prod.snd) := by
  cases op with
  | act action =>
      cases action with
      | remember session verdict =>
          rw [step_remember]
          exact perm_remember distinct session verdict
      | redeem session =>
          have erased := VerdictTable.perm_erase distinct session
          rw [leaving, Departure.map_snd]
          exact erased
  | sweep instant =>
      have swept := state.table.perm_sweep instant
      rw [leaving, Departure.map_snd]
      exact swept
  | advance elapsed =>
      rw [leaving, List.map_nil, List.append_nil]
      exact List.Perm.refl _

/-- Entry by entry, what a run has put on record is there still or has left. -/
theorem perm_run (distinct : state.table.Distinct) (ops : List TableOp) :
    (state.entered ops ++ state.table.entries).Perm
      ((state.run ops).table.entries ++ (state.departed ops).map Prod.snd) := by
  induction ops generalizing state with
  | nil =>
      rw [entered, departed, List.nil_append, List.map_nil, List.append_nil]
      exact List.Perm.refl _
  | cons op ops induction =>
      have here := perm_step distinct op
      have later := induction (step_distinct distinct op)
      rw [entered, departed, run, List.map_append]
      calc
        List.Perm ((state.entering op ++ (state.step op).2.entered ops) ++ state.table.entries)
            ((state.step op).2.entered ops ++ (state.entering op ++ state.table.entries)) := by
          rw [← List.append_assoc]
          exact List.perm_append_comm.append_right _
        List.Perm _ ((state.step op).2.entered ops ++
            ((state.step op).2.table.entries ++ (state.leaving op).map Prod.snd)) :=
          here.append_left _
        List.Perm _ ((((state.step op).2.run ops).table.entries ++
            ((state.step op).2.departed ops).map Prod.snd) ++
              (state.leaving op).map Prod.snd) := by
          rw [← List.append_assoc]
          exact later.append_right _
        List.Perm _ (((state.step op).2.run ops).table.entries ++
            ((state.leaving op).map Prod.snd ++
              ((state.step op).2.departed ops).map Prod.snd)) := by
          rw [List.append_assoc]
          exact List.perm_append_comm.append_left _

theorem length_entering (state : TimedTable) (op : TableOp) :
    (state.entering op).length =
      (state.step op).1.toList.countP (fun reply => reply.answer = .remembered true) := by
  cases op with
  | act action =>
      cases action with
      | remember session verdict =>
          rw [step_remember, entering]
          cases (state.table.remember state.now session verdict).1 <;> rfl
      | redeem session => rfl
  | sweep instant => rfl
  | advance elapsed => rfl

theorem length_entered (state : TimedTable) (ops : List TableOp) :
    (state.entered ops).length =
      (state.replies ops).countP (fun reply => reply.answer = .remembered true) := by
  induction ops generalizing state with
  | nil => rfl
  | cons op ops induction =>
      rw [entered, replies, List.length_append, List.countP_append, length_entering,
        induction]

theorem sum_sweepCount? (state : TimedTable) (op : TableOp) :
    (state.sweepCount? op).toList.sum = (state.leaving op).countP (·.1 = .swept) := by
  cases op with
  | act action =>
      cases action with
      | remember session verdict =>
          rw [leaving, List.countP_append, Departure.countP_map_of_ne (by decide),
            Departure.countP_map_of_ne (by decide)]
          rfl
      | redeem session =>
          rw [leaving, Departure.countP_map_of_ne (by decide)]
          rfl
  | sweep instant =>
      rw [leaving, Departure.countP_map_self, VerdictTable.length_expiredEntries]
      exact List.sum_singleton
  | advance elapsed => rfl

theorem sum_sweepCounts (state : TimedTable) (ops : List TableOp) :
    (state.sweepCounts ops).sum = (state.departed ops).countP (·.1 = .swept) := by
  induction ops generalizing state with
  | nil => rfl
  | cons op ops induction =>
      rw [sweepCounts, departed, List.sum_append, List.countP_append, sum_sweepCount?,
        induction]

/-- Sweeps in a row leave what the one for the latest instant leaves, and return its
count between them. -/
theorem run_sweeps (state : TimedTable) {instants : List Instant} {latest : Instant}
    (last : instants.max? = some latest) :
    (state.run (instants.map .sweep)).table = state.table.sweep latest ∧
      (state.sweepCounts (instants.map .sweep)).sum = state.table.expiredCount latest := by
  induction instants generalizing state latest with
  | nil => cases last
  | cons instant instants induction =>
      cases others : instants.max? with
      | none =>
          rw [List.max?_eq_none_iff.mp others] at last ⊢
          cases last
          exact ⟨rfl, Nat.add_zero _⟩
      | some next =>
          have latestOf : max instant next = latest := by
            rw [List.max?_cons, others] at last
            exact Option.some.inj last
          obtain ⟨table, counts⟩ := induction (state.step (.sweep instant)).2 others
          subst latestOf
          constructor
          · exact table.trans (state.table.sweep_sweep instant next)
          · rw [List.map_cons, sweepCounts, List.sum_append, counts]
            exact state.table.expiredCount_sweep instant next

theorem run_distinct (distinct : state.table.Distinct) (ops : List TableOp) :
    (state.run ops).table.Distinct := by
  induction ops generalizing state with
  | nil => exact distinct
  | cons op ops induction => exact induction (step_distinct distinct op)

end TimedTable

namespace VerdictTable

/-- In any run of a table, whatever instants the sweeps are made for, the verdicts that
were put on record are those that are still there and those that have left: redeemed,
whether they were still live or not, swept, swept in passing, or replaced when they had
expired.  A session has one entry at most.  A sweep returns the number of entries that
it removes, and several of them in a row leave what the one for the latest instant
leaves and return its count between them. -/
theorem entries_accounted_for (timeToLive sweepInterval : Duration) (start : Instant)
    (ops : List TableOp) :
    let fresh := TimedTable.new timeToLive sweepInterval start
    let state := fresh.run ops
    let left (way : Departure) := (fresh.departed ops).countP (·.1 = way)
    (fresh.entered ops).Perm
        (state.table.entries ++ (fresh.departed ops).map Prod.snd) ∧
      (fresh.replies ops).countP (fun reply => reply.answer = .remembered true) =
        state.table.size + left .redeemed + (left .swept + left .sweptInPassing) +
          left .replaced ∧
      (state.table.entries.map Prod.fst).Nodup ∧
      (fresh.sweepCounts ops).sum = left .swept ∧
      (∀ instant,
        (state.table.sweep instant).entries.Sublist state.table.entries ∧
          (state.table.sweep instant).size + state.table.expiredCount instant =
            state.table.size) ∧
      ∀ (instants : List Instant) latest, instants.max? = some latest →
        (state.run (instants.map .sweep)).table = state.table.sweep latest ∧
          (state.sweepCounts (instants.map .sweep)).sum =
            state.table.expiredCount latest := by
  intro fresh state left
  have distinct : fresh.table.Distinct := Distinct.empty timeToLive sweepInterval start
  have conserved : (fresh.entered ops).Perm
      (state.table.entries ++ (fresh.departed ops).map Prod.snd) := by
    have whole := TimedTable.perm_run distinct ops
    rwa [show fresh.table.entries = [] from rfl, List.append_nil] at whole
  refine ⟨conserved, ?_, TimedTable.run_distinct distinct ops, fresh.sum_sweepCounts ops,
    ?_, ?_⟩
  · have lengths := conserved.length_eq
    rw [TimedTable.length_entered, List.length_append, List.length_map,
      Departure.length_eq_countP] at lengths
    simp only [left, size]
    omega
  · intro instant
    exact ⟨List.filter_sublist, state.table.size_sweep instant⟩
  · intro instants latest last
    exact state.run_sweeps last

/-- Six verdicts, of which one is on record in the end and one left in each way but for
two that were swept. -/
theorem entries_accounted_for_each_way :
    let ops : List TableOp :=
      [.act (.remember (.repeating 1) .allow), .act (.remember (.repeating 2) .drop),
        .act (.redeem (.repeating 1)), .advance 2,
        .act (.remember (.repeating 2) .allow), .act (.remember (.repeating 3) .allow),
        .sweep 9, .act (.remember (.repeating 4) .drop), .advance 2,
        .act (.remember (.repeating 5) .allow)]
    let fresh := TimedTable.new 2 4 0
    let state := fresh.run ops
    (fresh.replies ops).countP (fun reply => reply.answer = .remembered true) = 6 ∧
      (fresh.departed ops).map Prod.fst =
        [.redeemed, .replaced, .swept, .swept, .sweptInPassing] ∧
      (fresh.replies ops).countP (fun reply => reply.answer = .remembered true) =
        state.table.size + 1 + (2 + 1) + 1 ∧
      [5, 7, 3].max? = some 7 ∧
      (state.run ([5, 7, 3].map .sweep)).table = state.table.sweep 7 := by
  intro ops fresh state
  obtain ⟨-, count, -, -, -, sweeps⟩ := entries_accounted_for 2 4 0 ops
  refine ⟨by decide, by decide, count, by decide, ?_⟩
  exact (sweeps [5, 7, 3] 7 (by decide)).1

end VerdictTable

end TrafficRelay
