import TrafficRelay.Failure
import TrafficRelay.Filter
import TrafficRelay.Routing

/-!
# Settings

Every setting has a default.  Two combinations are refused: keeping sessions
together without splitting the output, and a time to live of zero.
-/

namespace TrafficRelay

/-- The methods that requests may have; none means any. -/
structure FilterSettings where
  methods : List String
  deriving DecidableEq, Repr

/-- Whether a record goes to one output only, and whether a session stays with
its output. -/
structure RoutingSettings where
  splitOutput : Bool
  keepSessions : Bool
  deriving DecidableEq, Repr

/-- Time to live and sweep interval of the verdict table, in milliseconds. -/
structure VerdictSettings where
  timeToLive : UInt64
  sweepInterval : UInt64
  deriving DecidableEq, Repr

structure RelaySettings where
  filter : FilterSettings
  routing : RoutingSettings
  verdicts : VerdictSettings
  deriving DecidableEq, Repr

/-- A file that records are read from or appended to. -/
structure FileSettings where
  name : String
  path : String
  deriving DecidableEq, Repr

/-- Everything that a file relay is told. -/
structure Settings where
  inputs : List FileSettings
  outputs : List FileSettings
  relay : RelaySettings
  deriving DecidableEq, Repr

namespace FilterSettings

def default : FilterSettings := ⟨[]⟩

end FilterSettings

namespace RoutingSettings

def default : RoutingSettings := ⟨false, false⟩

/-- The policy that the two switches name. -/
def policy (settings : RoutingSettings) : Except Failure Policy :=
  match settings.splitOutput, settings.keepSessions with
  | false, false => .ok .broadcast
  | true, false => .ok .roundRobin
  | true, true => .ok .sessionAffinity
  | false, true => .error (.settings "recognize_tcp_sessions requires split_output")

end RoutingSettings

namespace VerdictSettings

def default : VerdictSettings := ⟨2000, 1000⟩

/-- The empty table with these settings. -/
def table (settings : VerdictSettings) (now : Instant) : VerdictTable :=
  .empty (.ofMilliseconds settings.timeToLive) (.ofMilliseconds settings.sweepInterval) now

end VerdictSettings

namespace RelaySettings

def default : RelaySettings := ⟨.default, .default, .default⟩

/-- The policy, if the settings go together. -/
def validate (settings : RelaySettings) : Except Failure Policy := do
  let policy ← settings.routing.policy
  if settings.verdicts.timeToLive = 0 then
    .error (.settings "verdict_cache.ttl_ms must be positive")
  else .ok policy

/-- The filter with these settings, nothing on record. -/
def newFilter (settings : RelaySettings) (now : Instant) : Filter :=
  ⟨.ofNames settings.filter.methods, settings.verdicts.table now⟩

end RelaySettings

namespace Settings

def default : Settings := ⟨[], [], .default⟩

end Settings

end TrafficRelay
