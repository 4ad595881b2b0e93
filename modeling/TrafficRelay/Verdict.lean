import TrafficRelay.Ident
import TrafficRelay.Time

/-!
# Verdicts awaiting an answer

A request's verdict is remembered under its session key until the first answer
redeems it or its time to live has passed.  The first verdict on record wins;
a second one is refused while the first is live.  Expired entries are removed
in passing: remembering sweeps the whole table whenever the sweep interval has
passed since it last did so.
-/

namespace TrafficRelay

/-- Whether a record goes on to the outputs. -/
inductive Verdict where
  | allow
  | drop
  deriving DecidableEq, Repr, Inhabited

namespace Verdict

def ofAllowed (allowed : Bool) : Verdict := if allowed then allow else drop

def isAllow : Verdict → Bool
  | allow => true
  | drop => false

end Verdict

/-- A verdict on record and the time it was put there. -/
structure VerdictEntry where
  verdict : Verdict
  since : Instant
  deriving DecidableEq, Repr

namespace VerdictEntry

/-- An entry has expired once its age has reached the time to live. -/
def expired (timeToLive : Duration) (instant : Instant) (entry : VerdictEntry) : Bool :=
  decide (timeToLive ≤ instant.since entry.since)

end VerdictEntry

/-- The verdicts on record, at most one for a session. -/
structure VerdictTable where
  timeToLive : Duration
  sweepInterval : Duration
  lastSweep : Instant
  entries : List (SessionKey × VerdictEntry)
  deriving DecidableEq, Repr

namespace VerdictTable

def empty (timeToLive sweepInterval : Duration) (now : Instant) : VerdictTable :=
  ⟨timeToLive, sweepInterval, now, []⟩

/-- The number of entries, expired ones included. -/
def size (table : VerdictTable) : Nat := table.entries.length

def get? (table : VerdictTable) (session : SessionKey) : Option VerdictEntry :=
  table.entries.lookup session

/-- Strike whatever is on record for a session. -/
def erase (table : VerdictTable) (session : SessionKey) : VerdictTable :=
  { table with entries := table.entries.filter fun entry => entry.1 ≠ session }

/-- Put an entry on record, in place of any earlier one for the session. -/
def insert (table : VerdictTable) (session : SessionKey) (entry : VerdictEntry) :
    VerdictTable :=
  { table with entries := (session, entry) :: (table.erase session).entries }

/-- Remove every entry that has expired at an instant. -/
def sweep (table : VerdictTable) (instant : Instant) : VerdictTable :=
  { table with
    entries := table.entries.filter fun entry =>
      !entry.2.expired table.timeToLive instant }

/-- The number of entries that a sweep at an instant removes. -/
def expiredCount (table : VerdictTable) (instant : Instant) : Nat :=
  table.entries.countP fun entry => entry.2.expired table.timeToLive instant

/-- Sweep if the sweep interval has passed since this was last done. -/
def sweepIfDue (table : VerdictTable) (now : Instant) : VerdictTable :=
  if table.sweepInterval ≤ now.since table.lastSweep then
    { table with lastSweep := now }.sweep now
  else table

/-- Whether a session has an entry that has not expired. -/
def isLive (table : VerdictTable) (now : Instant) (session : SessionKey) : Bool :=
  (table.get? session).any fun entry => !entry.expired table.timeToLive now

/-- Put a verdict on record unless a live one is there already.  The first
component tells whether it was put there. -/
def remember (table : VerdictTable) (now : Instant) (session : SessionKey)
    (verdict : Verdict) : Bool × VerdictTable :=
  let table := table.sweepIfDue now
  if table.isLive now session then (false, table)
  else (true, table.insert session ⟨verdict, now⟩)

/-- Take the verdict of a session off the record.  An expired verdict is taken
off as well, but not returned. -/
def redeem (table : VerdictTable) (now : Instant) (session : SessionKey) :
    Option Verdict × VerdictTable :=
  let live := (table.get? session).filter fun entry =>
    !entry.expired table.timeToLive now
  (live.map (·.verdict), table.erase session)

end VerdictTable

end TrafficRelay
