import TrafficRelay.Json.Reader
import TrafficRelay.Json.Typed
import TrafficRelay.Json.Writer
import TrafficRelay.Settings

/-!
# Settings as JSON

Every group of settings is a structure whose missing fields take their
defaults, except that a file needs both its name and its path.
-/

namespace TrafficRelay

namespace Kind

def names : List (String × Kind) :=
  [("request", .request), ("response", .response), ("replay_report", .replayReport)]

def name : Kind → String
  | request => "request"
  | response => "response"
  | replayReport => "replay_report"

def ofJson? (json : Json) : Option Kind := json.choice? names

def toJson (kind : Kind) : Json := .ofString kind.name

end Kind

namespace Policy

def names : List (String × Policy) :=
  [("broadcast", .broadcast), ("round_robin", .roundRobin),
    ("session_affinity", .sessionAffinity)]

def name : Policy → String
  | broadcast => "broadcast"
  | roundRobin => "round_robin"
  | sessionAffinity => "session_affinity"

def ofJson? (json : Json) : Option Policy := json.choice? names

def toJson (policy : Policy) : Json := .ofString policy.name

end Policy

namespace Timestamp

def ofJson? (json : Json) : Option Timestamp := json.int64?.map Timestamp.mk

def toJson (timestamp : Timestamp) : Json := .ofInt timestamp.nanoseconds.toInt

end Timestamp

namespace FilterSettings

def ofJson? (json : Json) : Option FilterSettings := do
  let [methods] ← json.fields? ["methods"] | none
  return ⟨← Json.orDefault (·.list? Json.string?) default.methods methods⟩

def toJson (settings : FilterSettings) : Json :=
  .ofFields [("methods", .ofList .ofString settings.methods)]

end FilterSettings

namespace RoutingSettings

def ofJson? (json : Json) : Option RoutingSettings := do
  let [splitOutput, keepSessions] ←
    json.fields? ["split_output", "recognize_tcp_sessions"] | none
  return ⟨← Json.orDefault Json.bool? default.splitOutput splitOutput,
    ← Json.orDefault Json.bool? default.keepSessions keepSessions⟩

def toJson (settings : RoutingSettings) : Json :=
  .ofFields [("split_output", .bool settings.splitOutput),
    ("recognize_tcp_sessions", .bool settings.keepSessions)]

end RoutingSettings

namespace VerdictSettings

def ofJson? (json : Json) : Option VerdictSettings := do
  let [timeToLive, sweepInterval] ←
    json.fields? ["ttl_ms", "sweep_interval_ms"] | none
  return ⟨← Json.orDefault Json.word? default.timeToLive timeToLive,
    ← Json.orDefault Json.word? default.sweepInterval sweepInterval⟩

def toJson (settings : VerdictSettings) : Json :=
  .ofFields [("ttl_ms", .ofNat settings.timeToLive.toNat),
    ("sweep_interval_ms", .ofNat settings.sweepInterval.toNat)]

end VerdictSettings

namespace RelaySettings

def ofJson? (json : Json) : Option RelaySettings := do
  let [filter, routing, verdicts] ←
    json.fields? ["modifier", "routing", "verdict_cache"] | none
  return ⟨← Json.orDefault FilterSettings.ofJson? default.filter filter,
    ← Json.orDefault RoutingSettings.ofJson? default.routing routing,
    ← Json.orDefault VerdictSettings.ofJson? default.verdicts verdicts⟩

def toJson (settings : RelaySettings) : Json :=
  .ofFields [("modifier", settings.filter.toJson),
    ("routing", settings.routing.toJson),
    ("verdict_cache", settings.verdicts.toJson)]

end RelaySettings

namespace FileSettings

/-- Neither field has a default. -/
def ofJson? (json : Json) : Option FileSettings := do
  let [some name, some path] ← json.fields? ["name", "path"] | none
  return ⟨← name.string?, ← path.string?⟩

def toJson (settings : FileSettings) : Json :=
  .ofFields [("name", .ofString settings.name), ("path", .ofString settings.path)]

end FileSettings

namespace Settings

def ofJson? (json : Json) : Option Settings := do
  let [inputs, outputs, relay] ← json.fields? ["inputs", "outputs", "emitter"] | none
  return ⟨← Json.orDefault (·.list? FileSettings.ofJson?) default.inputs inputs,
    ← Json.orDefault (·.list? FileSettings.ofJson?) default.outputs outputs,
    ← Json.orDefault RelaySettings.ofJson? default.relay relay⟩

def toJson (settings : Settings) : Json :=
  .ofFields [("inputs", .ofList FileSettings.toJson settings.inputs),
    ("outputs", .ofList FileSettings.toJson settings.outputs),
    ("emitter", settings.relay.toJson)]

/-- The content of the file that the settings are kept in. -/
def encode (settings : Settings) : Bytes := Bytes.ofString settings.toJson.indented

/-- Read the content of a settings file. -/
def decode (content : Bytes) : Except IoError Settings :=
  match Bytes.toString? content with
  | none => .error .notText
  | some text =>
      match (Json.parse? text).bind ofJson? with
      | none => .error .malformedText
      | some settings => .ok settings

end Settings

end TrafficRelay
