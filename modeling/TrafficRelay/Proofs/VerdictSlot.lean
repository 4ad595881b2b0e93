import TrafficRelay.Verdict

/-!
# One slot for a verdict

A slot is all that a single session can have on record.  Nothing is ever swept
from it: an entry stays until it is redeemed or, having reached the time to
live, replaced.  `VerdictSlot.live` hides an expired entry; no action can tell a
slot from what `live` shows of it.
-/

namespace TrafficRelay

/-- What is done with the record of one session. -/
inductive TableAction where
  | remember (session : SessionKey) (verdict : Verdict)
  | redeem (session : SessionKey)
  deriving DecidableEq, Repr

inductive TableAnswer where
  | remembered (stored : Bool)
  | redeemed (verdict? : Option Verdict)
  deriving DecidableEq, Repr

def TableAction.session : TableAction → SessionKey
  | remember session _ | redeem session => session

/-- Nothing, or a verdict and the time it was put there. -/
abbrev VerdictSlot := Option VerdictEntry

namespace VerdictSlot

variable (timeToLive : Duration) (now : Instant)

/-- Put a verdict in the slot if it is empty or its entry is at least as old as
the time to live.  An entry that stays keeps its verdict and its time. -/
def remember (verdict : Verdict) : VerdictSlot → Bool × VerdictSlot
  | none => (true, some ⟨verdict, now⟩)
  | some entry =>
      if timeToLive ≤ now - entry.since then (true, some ⟨verdict, now⟩)
      else (false, some entry)

/-- Empty the slot.  Its verdict is returned if it is younger than the time to
live. -/
def redeem : VerdictSlot → Option Verdict × VerdictSlot
  | none => (none, none)
  | some entry =>
      (if now - entry.since < timeToLive then some entry.verdict else none, none)

def act (slot : VerdictSlot) : TableAction → TableAnswer × VerdictSlot
  | .remember _ verdict =>
      let (stored, next) := remember timeToLive now verdict slot
      (.remembered stored, next)
  | .redeem _ =>
      let (verdict?, next) := redeem timeToLive now slot
      (.redeemed verdict?, next)

/-- The slot without an entry that has expired. -/
def live (slot : VerdictSlot) : VerdictSlot :=
  slot.filter fun entry => !entry.expired timeToLive now

variable {timeToLive now}

@[simp] theorem live_none : live timeToLive now none = none := rfl

theorem live_some_of_young {entry : VerdictEntry}
    (young : now - entry.since < timeToLive) :
    live timeToLive now (some entry) = some entry := by
  have kept : ¬timeToLive ≤ now - entry.since := Nat.not_le_of_lt young
  simp [live, Option.filter, VerdictEntry.expired, Instant.since, kept]

theorem live_some_of_old {entry : VerdictEntry}
    (old : timeToLive ≤ now - entry.since) :
    live timeToLive now (some entry) = none := by
  simp [live, Option.filter, VerdictEntry.expired, Instant.since, old]

/-- Either nothing is hidden, or the slot has an entry that has expired. -/
theorem live_cases (slot : VerdictSlot) :
    live timeToLive now slot = slot ∨
      ∃ entry, slot = some entry ∧ timeToLive ≤ now - entry.since ∧
        live timeToLive now slot = none := by
  cases slot with
  | none => exact Or.inl rfl
  | some entry =>
      rcases Nat.lt_or_ge (now - entry.since) timeToLive with young | old
      · exact Or.inl (live_some_of_young young)
      · exact Or.inr ⟨entry, rfl, old, live_some_of_old old⟩

theorem young_of_live_eq_some {slot : VerdictSlot} {entry : VerdictEntry}
    (found : live timeToLive now slot = some entry) :
    now - entry.since < timeToLive := by
  have kept := (Option.filter_eq_some_iff.mp found).2
  have notExpired : entry.expired timeToLive now = false := by
    simpa using kept
  exact Nat.lt_of_not_le (of_decide_eq_false notExpired)

/-- An expired entry stays expired. -/
theorem live_live {later : Instant} (ordered : now ≤ later) (slot : VerdictSlot) :
    live timeToLive later (live timeToLive now slot) =
      live timeToLive later slot := by
  rcases live_cases slot with same | ⟨entry, rfl, old, hidden⟩
  · rw [same]
  · have laterOld : timeToLive ≤ later - entry.since :=
      Nat.le_trans old (Nat.sub_le_sub_right ordered entry.since)
    rw [hidden, live_some_of_old laterOld, live_none]

/-- An action answers according to the live entry only. -/
theorem act_live_answer (slot : VerdictSlot) (action : TableAction) :
    (act timeToLive now (live timeToLive now slot) action).1 =
      (act timeToLive now slot action).1 := by
  rcases live_cases slot with same | ⟨entry, rfl, old, hidden⟩
  · rw [same]
  · cases action with
    | remember session verdict => simp [hidden, act, remember, old]
    | redeem session => simp [hidden, act, redeem, Nat.not_lt.mpr old]

theorem live_act_live (slot : VerdictSlot) (action : TableAction) :
    live timeToLive now
        (act timeToLive now (live timeToLive now slot) action).2 =
      live timeToLive now (act timeToLive now slot action).2 := by
  rcases live_cases slot with same | ⟨entry, rfl, old, hidden⟩
  · rw [same]
  · cases action with
    | remember session verdict => simp [hidden, act, remember, old]
    | redeem session => simp [hidden, act, redeem]

end VerdictSlot

end TrafficRelay
