import TrafficRelay.Proofs.PartialStructures
import TrafficRelay.Settings.Json

/-!
# Partial settings

Settings that have their defaults need not be written, and what is written may be in any
order, with members of other names in between, whose values are only checked for their
form.  All of this holds for the settings as a whole and for every group of them.  A file
needs its name and its path.  The settings are read alike from all these texts, as they
are from the one that is written when they are saved.
-/

namespace TrafficRelay

theorem Bytes.toString?_ofString (text : String) :
    Bytes.toString? (Bytes.ofString text) = some text := by
  rw [toString?, ofString, Array.toArray_toList, String.fromUTF8?,
    String.toUTF8_eq_toByteArray, dif_pos text.isValidUTF8]
  rfl

/-! ## Groups of settings

The `Overlay` of a group holds of the values that say the same as its full writing,
where `isName` tells which names other members may have. -/

namespace FilterSettings

def Overlay (isName : Json.Text → Prop) (settings : FilterSettings) : Json → Prop :=
  Json.Overlays isName
    [⟨"methods", settings.methods = default.methods,
      (· = .ofList .ofString settings.methods)⟩]

theorem overlay_toJson (isName : Json.Text → Prop) (settings : FilterSettings) :
    settings.Overlay isName settings.toJson :=
  Json.overlays_ofFields (.cons ⟨rfl, rfl⟩ .nil)

theorem ofJson?_of_overlay {settings : FilterSettings} {json : Json}
    (overlay : settings.Overlay Json.Text.IsString json) : ofJson? json = some settings := by
  have distinct : ["methods"].Nodup := by decide
  obtain ⟨_, fields, _ | ⟨methods, _ | _⟩⟩ := overlay.fields? distinct rfl
  have written : (Json.ofList .ofString settings.methods).list? Json.string? =
      some settings.methods :=
    Json.list?_ofList fun method _ => Json.string?_ofString method
  have readMethods := Json.orDefault_of_fits methods Eq.symm fun _ given => given ▸ written
  simp only [ofJson?, fields, Option.bind_eq_bind, Option.bind_some, readMethods]
  rfl

end FilterSettings

namespace RoutingSettings

def Overlay (isName : Json.Text → Prop) (settings : RoutingSettings) : Json → Prop :=
  Json.Overlays isName
    [⟨"split_output", settings.splitOutput = default.splitOutput,
      (· = .bool settings.splitOutput)⟩,
    ⟨"recognize_tcp_sessions", settings.keepSessions = default.keepSessions,
      (· = .bool settings.keepSessions)⟩]

theorem overlay_toJson (isName : Json.Text → Prop) (settings : RoutingSettings) :
    settings.Overlay isName settings.toJson :=
  Json.overlays_ofFields (.cons ⟨rfl, rfl⟩ (.cons ⟨rfl, rfl⟩ .nil))

theorem ofJson?_of_overlay {settings : RoutingSettings} {json : Json}
    (overlay : settings.Overlay Json.Text.IsString json) : ofJson? json = some settings := by
  have distinct : ["split_output", "recognize_tcp_sessions"].Nodup := by decide
  obtain ⟨_, fields, _ | ⟨splitOutput, _ | ⟨keepSessions, _ | _⟩⟩⟩ :=
    overlay.fields? distinct rfl
  have readSplitOutput := Json.orDefault_of_fits splitOutput Eq.symm
    fun _ given => given ▸ Json.bool?_bool settings.splitOutput
  have readKeepSessions := Json.orDefault_of_fits keepSessions Eq.symm
    fun _ given => given ▸ Json.bool?_bool settings.keepSessions
  simp only [ofJson?, fields, Option.bind_eq_bind, Option.bind_some, readSplitOutput,
    readKeepSessions]
  rfl

end RoutingSettings

namespace VerdictSettings

def Overlay (isName : Json.Text → Prop) (settings : VerdictSettings) : Json → Prop :=
  Json.Overlays isName
    [⟨"ttl_ms", settings.timeToLive = default.timeToLive,
      (· = .ofNat settings.timeToLive.toNat)⟩,
    ⟨"sweep_interval_ms", settings.sweepInterval = default.sweepInterval,
      (· = .ofNat settings.sweepInterval.toNat)⟩]

theorem overlay_toJson (isName : Json.Text → Prop) (settings : VerdictSettings) :
    settings.Overlay isName settings.toJson :=
  Json.overlays_ofFields (.cons ⟨rfl, rfl⟩ (.cons ⟨rfl, rfl⟩ .nil))

theorem ofJson?_of_overlay {settings : VerdictSettings} {json : Json}
    (overlay : settings.Overlay Json.Text.IsString json) : ofJson? json = some settings := by
  have distinct : ["ttl_ms", "sweep_interval_ms"].Nodup := by decide
  obtain ⟨_, fields, _ | ⟨timeToLive, _ | ⟨sweepInterval, _ | _⟩⟩⟩ :=
    overlay.fields? distinct rfl
  have readTimeToLive := Json.orDefault_of_fits timeToLive Eq.symm
    fun _ given => given ▸ Json.word?_ofNat settings.timeToLive
  have readSweepInterval := Json.orDefault_of_fits sweepInterval Eq.symm
    fun _ given => given ▸ Json.word?_ofNat settings.sweepInterval
  simp only [ofJson?, fields, Option.bind_eq_bind, Option.bind_some, readTimeToLive,
    readSweepInterval]
  rfl

end VerdictSettings

namespace RelaySettings

def Overlay (isName : Json.Text → Prop) (settings : RelaySettings) : Json → Prop :=
  Json.Overlays isName
    [⟨"modifier", settings.filter = default.filter, settings.filter.Overlay isName⟩,
    ⟨"routing", settings.routing = default.routing, settings.routing.Overlay isName⟩,
    ⟨"verdict_cache", settings.verdicts = default.verdicts,
      settings.verdicts.Overlay isName⟩]

theorem overlay_toJson (isName : Json.Text → Prop) (settings : RelaySettings) :
    settings.Overlay isName settings.toJson :=
  Json.overlays_ofFields (.cons ⟨rfl, settings.filter.overlay_toJson isName⟩
    (.cons ⟨rfl, settings.routing.overlay_toJson isName⟩
      (.cons ⟨rfl, settings.verdicts.overlay_toJson isName⟩ .nil)))

theorem ofJson?_of_overlay {settings : RelaySettings} {json : Json}
    (overlay : settings.Overlay Json.Text.IsString json) : ofJson? json = some settings := by
  have distinct : ["modifier", "routing", "verdict_cache"].Nodup := by decide
  obtain ⟨_, fields, _ | ⟨filter, _ | ⟨routing, _ | ⟨verdicts, _ | _⟩⟩⟩⟩ :=
    overlay.fields? distinct rfl
  have readFilter := Json.orDefault_of_fits filter Eq.symm
    fun _ => FilterSettings.ofJson?_of_overlay
  have readRouting := Json.orDefault_of_fits routing Eq.symm
    fun _ => RoutingSettings.ofJson?_of_overlay
  have readVerdicts := Json.orDefault_of_fits verdicts Eq.symm
    fun _ => VerdictSettings.ofJson?_of_overlay
  simp only [ofJson?, fields, Option.bind_eq_bind, Option.bind_some, readFilter,
    readRouting, readVerdicts]
  rfl

end RelaySettings

namespace FileSettings

/-- Neither field may be left out. -/
def Overlay (isName : Json.Text → Prop) (settings : FileSettings) : Json → Prop :=
  Json.Overlays isName
    [⟨"name", False, (· = .ofString settings.name)⟩,
    ⟨"path", False, (· = .ofString settings.path)⟩]

theorem overlay_toJson (isName : Json.Text → Prop) (settings : FileSettings) :
    settings.Overlay isName settings.toJson :=
  Json.overlays_ofFields (.cons ⟨rfl, rfl⟩ (.cons ⟨rfl, rfl⟩ .nil))

theorem ofJson?_of_overlay {settings : FileSettings} {json : Json}
    (overlay : settings.Overlay Json.Text.IsString json) : ofJson? json = some settings := by
  have distinct : ["name", "path"].Nodup := by decide
  obtain ⟨_, fields, _ | ⟨name, _ | ⟨path, _ | _⟩⟩⟩ := overlay.fields? distinct rfl
  obtain ⟨_, rfl, rfl⟩ := name.exists_value not_false
  obtain ⟨_, rfl, rfl⟩ := path.exists_value not_false
  simp only [ofJson?, fields, Option.bind_eq_bind, Option.bind_some, Json.string?_ofString]
  rfl

end FileSettings

namespace Settings

/-- The values that say the same as the full writing of the settings, where `isName`
tells which names other members may have. -/
def Overlay (isName : Json.Text → Prop) (settings : Settings) : Json → Prop :=
  Json.Overlays isName
    [⟨"inputs", settings.inputs = default.inputs,
      Json.StandsFor (FileSettings.Overlay isName) settings.inputs⟩,
    ⟨"outputs", settings.outputs = default.outputs,
      Json.StandsFor (FileSettings.Overlay isName) settings.outputs⟩,
    ⟨"emitter", settings.relay = default.relay, settings.relay.Overlay isName⟩]

theorem overlay_toJson (isName : Json.Text → Prop) (settings : Settings) :
    settings.Overlay isName settings.toJson :=
  Json.overlays_ofFields
    (.cons ⟨rfl, Json.standsFor_ofList (FileSettings.overlay_toJson isName)⟩
      (.cons ⟨rfl, Json.standsFor_ofList (FileSettings.overlay_toJson isName)⟩
        (.cons ⟨rfl, settings.relay.overlay_toJson isName⟩ .nil)))

theorem ofJson?_of_overlay {settings : Settings} {json : Json}
    (overlay : settings.Overlay Json.Text.IsString json) : ofJson? json = some settings := by
  have distinct : ["inputs", "outputs", "emitter"].Nodup := by decide
  obtain ⟨_, fields, _ | ⟨inputs, _ | ⟨outputs, _ | ⟨relay, _ | _⟩⟩⟩⟩ :=
    overlay.fields? distinct rfl
  have readFiles (files : List FileSettings) (value : Json)
      (stands : Json.StandsFor (FileSettings.Overlay Json.Text.IsString) files value) :
      value.list? FileSettings.ofJson? = some files :=
    stands.list? fun _ _ => FileSettings.ofJson?_of_overlay
  have readInputs := Json.orDefault_of_fits inputs Eq.symm (readFiles settings.inputs)
  have readOutputs := Json.orDefault_of_fits outputs Eq.symm (readFiles settings.outputs)
  have readRelay := Json.orDefault_of_fits relay Eq.symm
    fun _ => RelaySettings.ofJson?_of_overlay
  simp only [ofJson?, fields, Option.bind_eq_bind, Option.bind_some, readInputs,
    readOutputs, readRelay]
  rfl

end Settings

/-! ## Faults

Every group that is given is read, so the whole is not read if one of them cannot be. -/

namespace RelaySettings

/-- A field of the settings or of one of their groups is given twice, or a key there is
no string. -/
inductive Faulty : Json → Prop where
  | refused {json : Json} :
      json.Refused ["modifier", "routing", "verdict_cache"] → Faulty json
  | filter {members : List (Json.Text × Json)} {value : Json} :
      (.ofString "modifier", value) ∈ members → value.Refused ["methods"] →
      Faulty (.object members)
  | routing {members : List (Json.Text × Json)} {value : Json} :
      (.ofString "routing", value) ∈ members →
      value.Refused ["split_output", "recognize_tcp_sessions"] → Faulty (.object members)
  | verdicts {members : List (Json.Text × Json)} {value : Json} :
      (.ofString "verdict_cache", value) ∈ members →
      value.Refused ["ttl_ms", "sweep_interval_ms"] → Faulty (.object members)

/-- Every group that is given is read. -/
theorem ofJson?_object {members : List (Json.Text × Json)} {settings : RelaySettings}
    (read : ofJson? (.object members) = some settings) (value : Json) :
    ((.ofString "modifier", value) ∈ members →
      FilterSettings.ofJson? value = some settings.filter) ∧
    ((.ofString "routing", value) ∈ members →
      RoutingSettings.ofJson? value = some settings.routing) ∧
    ((.ofString "verdict_cache", value) ∈ members →
      VerdictSettings.ofJson? value = some settings.verdicts) := by
  obtain ⟨_, fields, read⟩ := Option.bind_eq_some_iff.mp read
  obtain _ | ⟨filter, _ | ⟨routing, _ | ⟨verdicts, _ | _⟩⟩⟩ := Json.forall₂_of_fields? fields
  obtain ⟨_, readFilter, read⟩ := Option.bind_eq_some_iff.mp read
  obtain ⟨_, readRouting, read⟩ := Option.bind_eq_some_iff.mp read
  obtain ⟨_, readVerdicts, read⟩ := Option.bind_eq_some_iff.mp read
  cases read
  refine ⟨fun given => ?_, fun given => ?_, fun given => ?_⟩
  · rwa [(filter value).mpr given] at readFilter
  · rwa [(routing value).mpr given] at readRouting
  · rwa [(verdicts value).mpr given] at readVerdicts

theorem ofJson?_of_faulty {json : Json} (faulty : Faulty json) : ofJson? json = none := by
  apply Option.eq_none_iff_forall_ne_some.mpr
  intro settings read
  cases faulty with
  | refused refused => exact refused.not_read read
  | filter given refused => exact refused.not_read ((ofJson?_object read _).1 given)
  | routing given refused => exact refused.not_read ((ofJson?_object read _).2.1 given)
  | verdicts given refused => exact refused.not_read ((ofJson?_object read _).2.2 given)

end RelaySettings

namespace FileSettings

/-- The name or the path is given twice or not at all, or a key is no string. -/
inductive Faulty : Json → Prop where
  | refused {json : Json} : json.Refused ["name", "path"] → Faulty json
  | lacks {members : List (Json.Text × Json)} {name : String} :
      name ∈ ["name", "path"] → (∀ member ∈ members, member.1 ≠ .ofString name) →
      Faulty (.object members)

/-- Both fields are given. -/
theorem ofJson?_object {members : List (Json.Text × Json)} {settings : FileSettings}
    (read : ofJson? (.object members) = some settings) :
    (∃ value, (.ofString "name", value) ∈ members) ∧
      ∃ value, (.ofString "path", value) ∈ members := by
  obtain ⟨_, fields, read⟩ := Option.bind_eq_some_iff.mp read
  obtain _ | ⟨name, _ | ⟨path, _ | _⟩⟩ := Json.forall₂_of_fields? fields
  rename_i name? path?
  cases name? with
  | none => cases read
  | some nameValue =>
      cases path? with
      | none => cases read
      | some pathValue =>
          exact ⟨⟨nameValue, (name nameValue).mp rfl⟩, ⟨pathValue, (path pathValue).mp rfl⟩⟩

theorem ofJson?_of_faulty {json : Json} (faulty : Faulty json) : ofJson? json = none := by
  apply Option.eq_none_iff_forall_ne_some.mpr
  intro settings read
  cases faulty with
  | refused refused => exact refused.not_read read
  | lacks required missing =>
      obtain ⟨⟨_, name⟩, ⟨_, path⟩⟩ := ofJson?_object read
      rcases List.mem_pair.mp required with rfl | rfl
      · exact missing _ name rfl
      · exact missing _ path rfl

theorem Faulty.list?_ne_some {file : Json} (faulty : Faulty file) {files : List Json}
    (member : file ∈ files) {list : List FileSettings} :
    (Json.array files).list? ofJson? ≠ some list := by
  intro all
  obtain ⟨item, read⟩ := Json.exists_of_mem_list? all member
  rw [ofJson?_of_faulty faulty] at read
  cases read

end FileSettings

namespace Settings

/-- There is a fault in the settings themselves, in one of their files, or in those of the
relay. -/
inductive Faulty : Json → Prop where
  | refused {json : Json} : json.Refused ["inputs", "outputs", "emitter"] → Faulty json
  | input {members : List (Json.Text × Json)} {files : List Json} {file : Json} :
      (.ofString "inputs", .array files) ∈ members → file ∈ files →
      FileSettings.Faulty file → Faulty (.object members)
  | output {members : List (Json.Text × Json)} {files : List Json} {file : Json} :
      (.ofString "outputs", .array files) ∈ members → file ∈ files →
      FileSettings.Faulty file → Faulty (.object members)
  | relay {members : List (Json.Text × Json)} {value : Json} :
      (.ofString "emitter", value) ∈ members → RelaySettings.Faulty value →
      Faulty (.object members)

theorem ofJson?_object {members : List (Json.Text × Json)} {settings : Settings}
    (read : ofJson? (.object members) = some settings) (value : Json) :
    ((.ofString "inputs", value) ∈ members →
      value.list? FileSettings.ofJson? = some settings.inputs) ∧
    ((.ofString "outputs", value) ∈ members →
      value.list? FileSettings.ofJson? = some settings.outputs) ∧
    ((.ofString "emitter", value) ∈ members →
      RelaySettings.ofJson? value = some settings.relay) := by
  obtain ⟨_, fields, read⟩ := Option.bind_eq_some_iff.mp read
  obtain _ | ⟨inputs, _ | ⟨outputs, _ | ⟨relay, _ | _⟩⟩⟩ := Json.forall₂_of_fields? fields
  obtain ⟨_, readInputs, read⟩ := Option.bind_eq_some_iff.mp read
  obtain ⟨_, readOutputs, read⟩ := Option.bind_eq_some_iff.mp read
  obtain ⟨_, readRelay, read⟩ := Option.bind_eq_some_iff.mp read
  cases read
  refine ⟨fun given => ?_, fun given => ?_, fun given => ?_⟩
  · rwa [(inputs value).mpr given] at readInputs
  · rwa [(outputs value).mpr given] at readOutputs
  · rwa [(relay value).mpr given] at readRelay

theorem ofJson?_of_faulty {json : Json} (faulty : Faulty json) : ofJson? json = none := by
  apply Option.eq_none_iff_forall_ne_some.mpr
  intro settings read
  cases faulty with
  | refused refused => exact refused.not_read read
  | input given member faulty =>
      exact faulty.list?_ne_some member ((ofJson?_object read _).1 given)
  | output given member faulty =>
      exact faulty.list?_ne_some member ((ofJson?_object read _).2.1 given)
  | relay given faulty =>
      have readRelay := (ofJson?_object read _).2.2 given
      rw [RelaySettings.ofJson?_of_faulty faulty] at readRelay
      cases readRelay

/-! ## Texts -/

theorem decode_of_overlay {settings : Settings} {json : Json} {text : String}
    (overlay : settings.Overlay Json.Text.IsString json) (spells : json.Spells text) :
    decode (Bytes.ofString text) = .ok settings := by
  have read := ofJson?_of_overlay overlay
  simp only [decode, Bytes.toString?_ofString, Json.parse?_of_spells spells,
    Option.bind_some, read]

theorem decode_of_faulty {json : Json} {text : String} (faulty : Faulty json)
    (spells : json.Spells text) : decode (Bytes.ofString text) = .error .malformedText := by
  have unread := ofJson?_of_faulty faulty
  simp only [decode, Bytes.toString?_ofString, Json.parse?_of_spells spells,
    Option.bind_some, unread]

/-- Settings are read from every text of every value that says the same as their full
writing: fields with their defaults may be left out, members may be in any order, and
others may be put in if their names are unknown and are strings of characters, whatever
their values.  A field that is given twice, a key that is no string, or a file without
name or path, in whichever group, makes a text unreadable. -/
theorem decode_overlays :
    (∀ (settings : Settings) (json : Json) (text : String),
      settings.Overlay Json.Text.IsString json → json.Spells text →
      decode (Bytes.ofString text) = .ok settings) ∧
    ∀ (json : Json) (text : String), Faulty json → json.Spells text →
      decode (Bytes.ofString text) = .error .malformedText := by
  constructor
  · intro settings json text overlay spells
    exact decode_of_overlay overlay spells
  · intro json text faulty spells
    exact decode_of_faulty faulty spells

/-- Members out of order, and one with an unknown name whose value repeats a known name
and has a number that is out of any range; then a group that is given twice. -/
theorem decode_overlays_nested :
    decode (Bytes.ofString
        ("\x7b\"emitter\":\x7b\"routing\":\x7b\"x\":null,\"split_output\":true\x7d\x7d," ++
          "\"z\":\x7b\"inputs\":1e999,\"inputs\":1e999\x7d,\"inputs\":[]\x7d")) =
      .ok ⟨[], [], ⟨.default, ⟨true, false⟩, ⟨2000, 1000⟩⟩⟩ ∧
    decode (Bytes.ofString
        "\x7b\"emitter\":\x7b\"routing\":\x7b\x7d,\"routing\":\x7b\x7d\x7d\x7d") =
      .error .malformedText := by
  constructor
  · let routing : Json := .ofFields [("x", .null), ("split_output", .bool true)]
    let relay : Json := .ofFields [("routing", routing)]
    let huge : Json := .number ['1', 'e', '9', '9', '9']
    let unknown : Json := .ofFields [("inputs", huge), ("inputs", huge)]
    let json : Json := .ofFields [("emitter", relay), ("z", unknown), ("inputs", .array [])]
    have routingOverlay :
        RoutingSettings.Overlay Json.Text.IsString ⟨true, false⟩ routing := by
      refine ⟨[("split_output", .bool true)], [Json.keyed ("x", .null)], _,
        .give rfl (.leave rfl .nil), ?_, .swap _ _ [], rfl⟩
      exact List.forall_mem_singleton.mpr ⟨Json.keyed_isString _, by decide⟩
    have relayOverlay : RelaySettings.Overlay Json.Text.IsString
        ⟨.default, ⟨true, false⟩, .default⟩ relay := by
      refine ⟨[("routing", routing)], [], _,
        .leave rfl (.give routingOverlay (.leave rfl .nil)), ?_, .refl _, rfl⟩
      exact fun other none => absurd none List.not_mem_nil
    have overlay : Settings.Overlay Json.Text.IsString
        ⟨[], [], ⟨.default, ⟨true, false⟩, .default⟩⟩ json := by
      refine ⟨[("inputs", .array []), ("emitter", relay)], [Json.keyed ("z", unknown)], _,
        .give ⟨[], rfl, .nil⟩ (.leave rfl (.give relayOverlay .nil)), ?_,
        List.perm_append_singleton _ _, rfl⟩
      exact List.forall_mem_singleton.mpr ⟨Json.keyed_isString _, by decide⟩
    have wellFormed : json.WellFormed := by
      have isOne : Json.IsWhole ['1'] := by simp [Json.IsWhole, Json.IsDigits]
      have isExponent : Json.IsExponent ('e' :: ([] ++ ['9', '9', '9'])) :=
        .digits (Or.inl rfl) (Or.inl rfl) (by simp [Json.IsDigits])
      have isHuge : huge.WellFormed := .number (.parts (Or.inl rfl) isOne .absent isExponent)
      have isUnknown : unknown.WellFormed := Json.wellFormed_ofFields (by simp [isHuge])
      have isRouting : routing.WellFormed :=
        Json.wellFormed_ofFields (by simp [Json.WellFormed.null, Json.WellFormed.bool])
      have isRelay : relay.WellFormed := Json.wellFormed_ofFields (by simp [isRouting])
      have isEmpty : (Json.array []).WellFormed := .array (by simp)
      exact Json.wellFormed_ofFields (by simp [isRelay, isUnknown, isEmpty])
    have text : json.compact =
        "\x7b\"emitter\":\x7b\"routing\":\x7b\"x\":null,\"split_output\":true\x7d\x7d," ++
          "\"z\":\x7b\"inputs\":1e999,\"inputs\":1e999\x7d,\"inputs\":[]\x7d" := by
      rfl
    rw [← text]
    exact decode_overlays.1 _ _ _ overlay wellFormed.spells_compact
  · let relay : Json := .ofFields [("routing", .object []), ("routing", .object [])]
    let json : Json := .ofFields [("emitter", relay)]
    have twice : relay.Refused ["modifier", "routing", "verdict_cache"] := by
      have known : "routing" ∈ ["modifier", "routing", "verdict_cache"] := by decide
      exact .repeats known (by decide)
    have faulty : Faulty json := .relay List.mem_cons_self (.refused twice)
    have wellFormed : json.WellFormed := by
      have isEmpty : (Json.object []).WellFormed := .object (by simp) (by simp)
      have isRelay : relay.WellFormed := Json.wellFormed_ofFields (by simp [isEmpty])
      exact Json.wellFormed_ofFields (by simp [isRelay])
    have text : json.compact =
        "\x7b\"emitter\":\x7b\"routing\":\x7b\x7d,\"routing\":\x7b\x7d\x7d\x7d" := by
      rfl
    rw [← text]
    exact decode_overlays.2 _ _ faulty wellFormed.spells_compact

/-- A key that is a surrogate standing alone is grammatical, and no known name, but it is
not passed over. -/
theorem unpaired_name_refused :
    ¬∀ (settings : Settings) (json : Json) (text : String),
      settings.Overlay (fun _ => True) json → json.Spells text →
      decode (Bytes.ofString text) = .ok settings := by
  intro read
  let member : Json.Text × Json := ([.surrogate 0xd800], .null)
  have overlay : default.Overlay (fun _ => True) (.object [member]) := by
    refine ⟨[], [member], [member], ?_, ?_, .refl _, rfl⟩
    · exact .leave rfl (.leave rfl (.leave rfl .nil))
    · intro other isMember
      rw [List.mem_singleton.mp isMember]
      exact ⟨trivial, by decide⟩
  have spells : (Json.object [member]).Spells "\x7b\"\\ud800\":null\x7d" := by
    have escape : Json.UnitSpelled 0xd800 ['\\', 'u', 'd', '8', '0', '0'] :=
      Json.unitSpelled_unitEscape (by decide)
    have key : Json.Text.Spelled member.1 (['\\', 'u', 'd', '8', '0', '0'] ++ []) :=
      .alone escape rfl (fun _ _ _ none => by cases none) .nil
    have spaced : Json.Spaced [.beginObject, .string member.1, .colon, .null, .endObject]
        (['\x7b'] ++ ('\x22' :: (['\\', 'u', 'd', '8', '0', '0'] ++ ['\x22']) ++
          ([':'] ++ (['n', 'u', 'l', 'l'] ++ (['\x7d'] ++ []))))) :=
      .token rfl (.token ⟨_, key, rfl⟩ (.token rfl (.token rfl (.token rfl .nil))))
    exact spaced
  have refused : Faulty (.object [member]) := by
    apply Faulty.refused
    apply Json.Refused.misnames List.mem_cons_self
    rintro ⟨value, same⟩
    have first : .surrogate 0xd800 ∈ Json.Text.ofString value := by
      rw [← same]
      exact List.mem_cons_self
    obtain ⟨_, -, other⟩ := List.mem_map.mp first
    cases other
  have failed := decode_of_faulty refused spells
  rw [read default _ _ overlay spells] at failed
  cases failed

end Settings

end TrafficRelay
