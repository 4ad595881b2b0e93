import TrafficRelay.FileRelay
import TrafficRelay.Proofs.PartialSettings
import TrafficRelay.Proofs.TreeFiles

/-!
# Saved settings

Settings that were saved are loaded again as they were.  Each group of settings is
written as a structure with all its fields, which is one of its overlays, and with
indentation, which is one of the spellings.
-/

namespace TrafficRelay

namespace FilterSettings

theorem wellFormed_toJson (settings : FilterSettings) : settings.toJson.WellFormed := by
  have methods : (Json.ofList .ofString settings.methods).WellFormed :=
    Json.wellFormed_ofList fun method _ => Json.wellFormed_ofString method
  apply Json.wellFormed_ofFields
  simp [methods]

end FilterSettings

namespace RoutingSettings

theorem wellFormed_toJson (settings : RoutingSettings) : settings.toJson.WellFormed := by
  apply Json.wellFormed_ofFields
  simp [Json.WellFormed.bool]

end RoutingSettings

namespace VerdictSettings

theorem wellFormed_toJson (settings : VerdictSettings) : settings.toJson.WellFormed := by
  apply Json.wellFormed_ofFields
  simp [Json.wellFormed_ofNat]

end VerdictSettings

namespace RelaySettings

theorem wellFormed_toJson (settings : RelaySettings) : settings.toJson.WellFormed := by
  apply Json.wellFormed_ofFields
  simp [FilterSettings.wellFormed_toJson, RoutingSettings.wellFormed_toJson,
    VerdictSettings.wellFormed_toJson]

end RelaySettings

namespace FileSettings

theorem wellFormed_toJson (settings : FileSettings) : settings.toJson.WellFormed := by
  apply Json.wellFormed_ofFields
  simp [Json.wellFormed_ofString]

end FileSettings

namespace Settings

theorem wellFormed_toJson (settings : Settings) : settings.toJson.WellFormed := by
  have files (list : List FileSettings) :
      (Json.ofList FileSettings.toJson list).WellFormed :=
    Json.wellFormed_ofList fun file _ => file.wellFormed_toJson
  apply Json.wellFormed_ofFields
  simp [files, RelaySettings.wellFormed_toJson]

/-- The content of a settings file is read as the settings that it was made from. -/
theorem decode_encode (settings : Settings) : decode settings.encode = .ok settings :=
  decode_of_overlay (settings.overlay_toJson _) settings.wellFormed_toJson.spells_indented

/-- Wherever a file can be written, any settings can be saved, whether they go together
or not, and are loaded from there as they were.  No other file is changed by that. -/
theorem load_saved (settings : Settings) {tree : FileTree} {path : String}
    {location : Location} (located : tree.locateFile path = .ok location) :
    ∃ written,
      settings.save tree path = .ok written ∧
      load written path = .ok settings ∧
      ∀ other, other ≠ location → written.entry? other = tree.entry? other := by
  have below : location ≠ [] := by
    rintro rfl
    exact (FileTree.locateFile_eq_ok located).1 rfl
  have holds := tree.holdsFile_set below settings.encode
  have read : (tree.set location (.file settings.encode)).read path =
      .ok settings.encode :=
    bind_eq_ok.mpr ⟨location, holds.openExisting located, holds.content⟩
  refine ⟨_, ?_, ?_, holds.others⟩
  · exact bind_eq_ok.mpr ⟨location, located, rfl⟩
  · exact bind_eq_ok.mpr ⟨settings.encode, read, settings.decode_encode⟩

/-- Quotation marks, backslashes, control characters and characters beyond the first
plane in names, the largest word, and settings that would be refused. -/
theorem load_saved_unusual :
    let relay : RelaySettings :=
      ⟨⟨["GET", "\x00\x1f\x7f"]⟩, ⟨false, true⟩, ⟨0, 18446744073709551615⟩⟩
    let settings : Settings :=
      ⟨[⟨"\"in\\", "a\tb\nc"⟩], [⟨"🐵é", "out"⟩, ⟨"", "/\u2028"⟩], relay⟩
    (∃ failure, relay.validate = .error failure) ∧
      ∃ written, settings.save FileTree.empty "f" = .ok written ∧
        load written "f" = .ok settings := by
  intro relay settings
  have located : FileTree.empty.locateFile "f" = .ok ["work", "f"] := by rfl
  obtain ⟨written, saved, loaded, -⟩ := settings.load_saved located
  exact ⟨⟨_, rfl⟩, written, saved, loaded⟩

end Settings

end TrafficRelay
