import TrafficRelay.Proofs.VerdictTable

/-!
# Runs under a clock

In a run, actions take place at the present reading of a clock that only moves
forward; a sweep names the instant for which it is made.  What a run of a
verdict table answers is kept as a list of replies, one for every action.
-/

namespace TrafficRelay

/-- The session key that repeats one byte. -/
def SessionKey.repeating (byte : UInt8) : SessionKey :=
  ⟨List.replicate 20 byte, List.length_replicate⟩

/-- An action, a sweep, or the passing of time. -/
inductive ClockOp (α : Type) where
  | act (action : α)
  | sweep (instant : Instant)
  | advance (elapsed : Duration)
  deriving DecidableEq, Repr

namespace ClockOp

variable {α : Type}

/-- The reading of the clock after an operation. -/
def timeAfter (now : Instant) : ClockOp α → Instant
  | advance elapsed => now + elapsed
  | act _ | sweep _ => now

/-- No sweep of a run is made for a time to come. -/
def SweepsPast : Instant → List (ClockOp α) → Prop
  | _, [] => True
  | now, op :: ops =>
      (∀ instant, op = sweep instant → instant ≤ now) ∧
        SweepsPast (op.timeAfter now) ops

theorem SweepsPast.of_append {now : Instant} {first second : List (ClockOp α)}
    (past : SweepsPast now (first ++ second)) : SweepsPast now first := by
  induction first generalizing now with
  | nil => trivial
  | cons op first induction => exact ⟨past.1, induction past.2⟩

def isSweep : ClockOp α → Bool
  | sweep _ => true
  | act _ | advance _ => false

theorem le_timeAfter (now : Instant) (op : ClockOp α) : now ≤ op.timeAfter now := by
  cases op with
  | act action => exact Nat.le_refl now
  | sweep instant => exact Nat.le_refl now
  | advance elapsed => exact Nat.le_add_right now elapsed

end ClockOp

abbrev TableOp := ClockOp TableAction

/-- The actions of a run that are about a session, with their times. -/
def TableOp.ofSession (session : SessionKey) :
    Instant → List TableOp → List (Instant × TableAction)
  | _, [] => []
  | now, .act action :: ops =>
      if action.session = session then (now, action) :: ofSession session now ops
      else ofSession session now ops
  | now, .sweep _ :: ops => ofSession session now ops
  | now, .advance elapsed :: ops => ofSession session (now + elapsed) ops

/-- The answer to one action, with its session and time. -/
structure TableReply where
  session : SessionKey
  instant : Instant
  answer : TableAnswer
  deriving DecidableEq, Repr

/-- A table and the reading of the clock. -/
structure TimedTable where
  now : Instant
  table : VerdictTable
  deriving DecidableEq, Repr

namespace TimedTable

/-- An empty table made at this instant. -/
def new (timeToLive sweepInterval : Duration) (start : Instant) : TimedTable :=
  ⟨start, .empty timeToLive sweepInterval start⟩

def step (state : TimedTable) : TableOp → Option TableReply × TimedTable
  | .act action =>
      let (answer, table) := state.table.act state.now action
      (some ⟨action.session, state.now, answer⟩, { state with table })
  | .sweep instant => (none, { state with table := state.table.sweep instant })
  | .advance elapsed => (none, { state with now := state.now + elapsed })

def replies (state : TimedTable) : List TableOp → List TableReply
  | [] => []
  | op :: ops => (state.step op).1.toList ++ (state.step op).2.replies ops

/-- The state after a run. -/
def run (state : TimedTable) : List TableOp → TimedTable
  | [] => state
  | op :: ops => (state.step op).2.run ops

@[simp] theorem step_now (state : TimedTable) (op : TableOp) :
    (state.step op).2.now = op.timeAfter state.now := by
  cases op <;> rfl

end TimedTable

end TrafficRelay
