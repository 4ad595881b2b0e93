import TrafficRelay.Proofs.VerdictSlot

/-!
# Verdict tables as maps

A verdict table is looked at through `VerdictTable.live?`: the slot of a
session, with an expired entry hidden.  With at most one entry for a session, an
action does to this slot what it does to a slot that stands alone, and leaves
the slots of all other sessions as they are.  Sweeping changes nothing, for an
entry that it removes was hidden before.
-/

namespace TrafficRelay

private theorem lookup_filter {α β : Type} [BEq α] [LawfulBEq α]
    (keep : α × β → Bool) {entries : List (α × β)}
    (distinct : (entries.map Prod.fst).Nodup) (key : α) :
    (entries.filter keep).lookup key =
      (entries.lookup key).filter fun value => keep (key, value) := by
  induction entries with
  | nil => rfl
  | cons entry rest induction =>
      obtain ⟨head, value⟩ := entry
      obtain ⟨headFresh, restDistinct⟩ := List.nodup_cons.mp distinct
      have restLookup := induction restDistinct
      by_cases same : key = head
      · subst head
        have absent : rest.lookup key = none := by
          rw [List.lookup_eq_none_iff]
          intro other member
          rw [bne_iff_ne]
          intro equal
          exact headFresh (List.mem_map.mpr ⟨other, member, equal.symm⟩)
        cases kept : keep (key, value) <;>
          simp [Option.filter, kept, restLookup, absent]
      · have different : (key == head) = false := by simpa using same
        cases kept : keep (head, value) <;>
          simp [List.lookup_cons, kept, different, restLookup]

namespace VerdictTable

/-- No session has two entries. -/
def Distinct (table : VerdictTable) : Prop :=
  (table.entries.map Prod.fst).Nodup

namespace Distinct

variable {table : VerdictTable}

theorem empty (timeToLive sweepInterval : Duration) (now : Instant) :
    (VerdictTable.empty timeToLive sweepInterval now).Distinct :=
  List.nodup_nil

theorem erase (distinct : table.Distinct) (session : SessionKey) :
    (table.erase session).Distinct :=
  distinct.sublist (List.filter_sublist.map Prod.fst)

theorem insert (distinct : table.Distinct) (session : SessionKey)
    (entry : VerdictEntry) : (table.insert session entry).Distinct := by
  have fresh : session ∉ (table.erase session).entries.map Prod.fst := by
    simp [VerdictTable.erase]
  exact List.nodup_cons.mpr ⟨fresh, distinct.erase session⟩

theorem sweep (distinct : table.Distinct) (instant : Instant) :
    (table.sweep instant).Distinct :=
  distinct.sublist (List.filter_sublist.map Prod.fst)

theorem sweepIfDue (distinct : table.Distinct) (now : Instant) :
    (table.sweepIfDue now).Distinct := by
  have marked : { table with lastSweep := now }.Distinct := distinct
  unfold VerdictTable.sweepIfDue
  split
  · exact marked.sweep now
  · exact distinct

theorem remember (distinct : table.Distinct) (now : Instant)
    (session : SessionKey) (verdict : Verdict) :
    (table.remember now session verdict).2.Distinct := by
  unfold VerdictTable.remember
  have swept := distinct.sweepIfDue now
  simp only
  split
  · exact swept
  · exact swept.insert session ⟨verdict, now⟩

theorem redeem (distinct : table.Distinct) (now : Instant)
    (session : SessionKey) : (table.redeem now session).2.Distinct :=
  distinct.erase session

end Distinct

@[simp] theorem sweep_timeToLive (table : VerdictTable) (instant : Instant) :
    (table.sweep instant).timeToLive = table.timeToLive := rfl

@[simp] theorem sweepIfDue_timeToLive (table : VerdictTable) (now : Instant) :
    (table.sweepIfDue now).timeToLive = table.timeToLive := by
  unfold sweepIfDue
  split <;> rfl

@[simp] theorem remember_timeToLive (table : VerdictTable) (now : Instant)
    (session : SessionKey) (verdict : Verdict) :
    (table.remember now session verdict).2.timeToLive = table.timeToLive := by
  unfold remember
  simp only
  split
  · exact table.sweepIfDue_timeToLive now
  · exact table.sweepIfDue_timeToLive now

theorem get?_erase {table : VerdictTable} (distinct : table.Distinct)
    (session other : SessionKey) :
    (table.erase session).get? other =
      if other = session then none else table.get? other := by
  unfold get? erase
  rw [lookup_filter _ distinct]
  cases table.entries.lookup other <;>
    by_cases same : other = session <;> simp [Option.filter, same]

theorem get?_insert {table : VerdictTable} (distinct : table.Distinct)
    (session other : SessionKey) (entry : VerdictEntry) :
    (table.insert session entry).get? other =
      if other = session then some entry else table.get? other := by
  have erased := get?_erase distinct session other
  by_cases same : other = session
  · simp [get?, insert, same]
  · have different : (other == session) = false := by simpa using same
    rw [if_neg same] at erased ⊢
    simpa [get?, insert, List.lookup_cons, different] using erased

theorem get?_sweep {table : VerdictTable} (distinct : table.Distinct)
    (instant : Instant) (session : SessionKey) :
    (table.sweep instant).get? session =
      (table.get? session).filter fun entry =>
        !entry.expired table.timeToLive instant :=
  lookup_filter _ distinct session

/-- The slot of a session, without an entry that has expired. -/
def live? (table : VerdictTable) (now : Instant) (session : SessionKey) :
    VerdictSlot :=
  VerdictSlot.live table.timeToLive now (table.get? session)

theorem isLive_eq (table : VerdictTable) (now : Instant) (session : SessionKey) :
    table.isLive now session = (table.live? now session).isSome := by
  unfold isLive live? VerdictSlot.live
  cases table.get? session with
  | none => rfl
  | some entry => simp [Option.filter, apply_ite Option.isSome]

theorem live?_later (table : VerdictTable) {now later : Instant}
    (ordered : now ≤ later) (session : SessionKey) :
    VerdictSlot.live table.timeToLive later (table.live? now session) =
      table.live? later session :=
  VerdictSlot.live_live ordered (table.get? session)

theorem live?_erase {table : VerdictTable} (distinct : table.Distinct)
    (now : Instant) (session other : SessionKey) :
    (table.erase session).live? now other =
      if other = session then none else table.live? now other := by
  unfold live?
  rw [get?_erase distinct]
  by_cases same : other = session <;> simp [same, erase]

theorem live?_insert {table : VerdictTable} (distinct : table.Distinct)
    (now : Instant) (session other : SessionKey) (entry : VerdictEntry) :
    (table.insert session entry).live? now other =
      if other = session then
        VerdictSlot.live table.timeToLive now (some entry)
      else table.live? now other := by
  unfold live?
  rw [get?_insert distinct]
  by_cases same : other = session <;> simp only [same, if_true, if_false] <;> rfl

theorem live?_sweep {table : VerdictTable} (distinct : table.Distinct)
    {instant now : Instant} (past : instant ≤ now) (session : SessionKey) :
    (table.sweep instant).live? now session = table.live? now session := by
  rw [← live?_later table past]
  unfold live?
  rw [get?_sweep distinct]
  rfl

theorem live?_sweepIfDue {table : VerdictTable} (distinct : table.Distinct)
    (now : Instant) (session : SessionKey) :
    (table.sweepIfDue now).live? now session = table.live? now session := by
  have marked : { table with lastSweep := now }.Distinct := distinct
  unfold sweepIfDue
  split
  · exact live?_sweep marked (Nat.le_refl now) session
  · rfl

theorem remember_eq {table : VerdictTable} (distinct : table.Distinct)
    (now : Instant) (session : SessionKey) (verdict : Verdict) :
    table.remember now session verdict =
      if (table.live? now session).isSome then (false, table.sweepIfDue now)
      else (true, (table.sweepIfDue now).insert session ⟨verdict, now⟩) := by
  unfold remember
  simp only [isLive_eq, live?_sweepIfDue distinct]

private theorem live?_remember {table : VerdictTable} (distinct : table.Distinct)
    (now : Instant) (session other : SessionKey) (verdict : Verdict) :
    (table.remember now session verdict).2.live? now other =
      if other = session then
        VerdictSlot.live table.timeToLive now
          (VerdictSlot.remember table.timeToLive now verdict
            (table.live? now session)).2
      else table.live? now other := by
  have swept := live?_sweepIfDue distinct now other
  rw [remember_eq distinct]
  cases found : table.live? now session with
  | none =>
      simp [live?_insert (distinct.sweepIfDue now), swept,
        VerdictSlot.remember]
  | some entry =>
      have young := VerdictSlot.young_of_live_eq_some found
      by_cases same : other = session
      · subst other
        simp [swept, found, VerdictSlot.remember, Nat.not_le.mpr young,
          VerdictSlot.live_some_of_young young]
      · simp [swept, same]

def act (table : VerdictTable) (now : Instant) :
    TableAction → TableAnswer × VerdictTable
  | .remember session verdict =>
      let (stored, next) := table.remember now session verdict
      (.remembered stored, next)
  | .redeem session =>
      let (verdict?, next) := table.redeem now session
      (.redeemed verdict?, next)

theorem Distinct.act {table : VerdictTable} (distinct : table.Distinct)
    (now : Instant) (action : TableAction) : (table.act now action).2.Distinct := by
  cases action with
  | remember session verdict => exact distinct.remember now session verdict
  | redeem session => exact distinct.redeem now session

@[simp] theorem act_timeToLive (table : VerdictTable) (now : Instant)
    (action : TableAction) :
    (table.act now action).2.timeToLive = table.timeToLive := by
  cases action with
  | remember session verdict => exact table.remember_timeToLive now session verdict
  | redeem session => rfl

/-- An action is answered as the slot of its session would answer it. -/
theorem act_answer {table : VerdictTable} (distinct : table.Distinct)
    (now : Instant) (action : TableAction) :
    (table.act now action).1 =
      (VerdictSlot.act table.timeToLive now
        (table.live? now action.session) action).1 := by
  cases action with
  | remember session verdict =>
      simp only [act, TableAction.session, remember_eq distinct]
      cases found : table.live? now session with
      | none => rfl
      | some entry =>
          have young := VerdictSlot.young_of_live_eq_some found
          simp [VerdictSlot.act, VerdictSlot.remember, Nat.not_le.mpr young]
  | redeem session =>
      have redeemed : (table.redeem now session).1 =
          (table.live? now session).map (·.verdict) := rfl
      simp only [act, TableAction.session, redeemed]
      cases found : table.live? now session with
      | none => rfl
      | some entry =>
          have young := VerdictSlot.young_of_live_eq_some found
          simp [VerdictSlot.act, VerdictSlot.redeem, young]

/-- An action changes the slot of its session as it would change a slot that
stands alone, and no other slot. -/
theorem live?_act {table : VerdictTable} (distinct : table.Distinct)
    (now : Instant) (action : TableAction) (other : SessionKey) :
    (table.act now action).2.live? now other =
      if other = action.session then
        VerdictSlot.live table.timeToLive now
          (VerdictSlot.act table.timeToLive now
            (table.live? now action.session) action).2
      else table.live? now other := by
  cases action with
  | remember session verdict => exact live?_remember distinct now session other verdict
  | redeem session =>
      have erased := live?_erase distinct now session other
      cases found : table.live? now session <;>
        simpa [act, redeem, TableAction.session, found, VerdictSlot.act,
          VerdictSlot.redeem] using erased

section

variable {table : VerdictTable} {session other : SessionKey} {entry : VerdictEntry}
  {now : Instant}

theorem mem_entries_of_get? (found : table.get? session = some entry) :
    (session, entry) ∈ table.entries := by
  obtain ⟨before, after, entries, -⟩ := List.lookup_eq_some_iff.mp found
  rw [entries]
  exact List.mem_append_right _ List.mem_cons_self

/-- A sweep leaves what is younger than the time to live. -/
theorem mem_entries_sweep_iff {instant : Instant} :
    (session, entry) ∈ (table.sweep instant).entries ↔
      (session, entry) ∈ table.entries ∧ instant - entry.since < table.timeToLive := by
  have live : (!entry.expired table.timeToLive instant) = true ↔
      instant - entry.since < table.timeToLive := by
    rw [VerdictEntry.expired, Bool.not_eq_true', decide_eq_false_iff_not]
    exact Nat.not_le
  rw [sweep, List.mem_filter, live]

theorem mem_entries_sweepIfDue_iff :
    (session, entry) ∈ (table.sweepIfDue now).entries ↔
      (session, entry) ∈ table.entries ∧
        (table.sweepInterval ≤ now - table.lastSweep →
          now - entry.since < table.timeToLive) := by
  unfold sweepIfDue
  split
  · rename_i due
    rw [mem_entries_sweep_iff]
    exact and_congr_right fun _ => (imp_iff_right due).symm
  · rename_i early
    exact (and_iff_left fun due => (early due).elim).symm

theorem mem_entries_of_sweepIfDue
    (member : (other, entry) ∈ (table.sweepIfDue now).entries) :
    (other, entry) ∈ table.entries :=
  (mem_entries_sweepIfDue_iff.mp member).1

/-- Remembering either finds a live entry or puts one on record. -/
theorem remember_cases (table : VerdictTable) (now : Instant) (session : SessionKey)
    (verdict : Verdict) :
    table.remember now session verdict = (false, table.sweepIfDue now) ∨
      table.remember now session verdict =
        (true, (table.sweepIfDue now).insert session ⟨verdict, now⟩) := by
  unfold remember
  simp only
  split
  · exact Or.inl rfl
  · exact Or.inr rfl

/-- Remembering puts one entry on record at most. -/
theorem mem_entries_of_remember {verdict : Verdict}
    (member : (other, entry) ∈ (table.remember now session verdict).2.entries) :
    other = session ∧ entry = ⟨verdict, now⟩ ∨ (other, entry) ∈ table.entries := by
  rcases table.remember_cases now session verdict with refused | stored
  · rw [refused] at member
    exact Or.inr (mem_entries_of_sweepIfDue member)
  · rw [stored] at member
    rcases List.mem_cons.mp member with new | old
    · exact Or.inl (Prod.mk.inj new)
    · exact Or.inr (mem_entries_of_sweepIfDue (List.mem_filter.mp old |>.1))

theorem mem_entries_erase_iff :
    (other, entry) ∈ (table.erase session).entries ↔
      other ≠ session ∧ (other, entry) ∈ table.entries := by
  rw [erase, List.mem_filter, decide_eq_true_eq, and_comm]

theorem mem_entries_of_erase
    (member : (other, entry) ∈ (table.erase session).entries) :
    other ≠ session ∧ (other, entry) ∈ table.entries :=
  mem_entries_erase_iff.mp member

/-- To other sessions, remembering does what the sweep in passing does. -/
theorem mem_entries_remember_iff {verdict : Verdict} (different : other ≠ session) :
    (other, entry) ∈ (table.remember now session verdict).2.entries ↔
      (other, entry) ∈ (table.sweepIfDue now).entries := by
  rcases table.remember_cases now session verdict with refused | stored
  · rw [refused]
  · rw [stored, insert, List.mem_cons, mem_entries_erase_iff]
    simp [different]

end

end VerdictTable

end TrafficRelay
