import Cartograph.Proofs.Json.Rearranging
import Cartograph.Settings.Codec

/-!
# Settings, written and read

Settings that were written read back, however the members of the objects are ordered and whether or
not surplus items are passed over (`Settings.ofJson?_toJson`).
-/

namespace Cartograph

open Json

theorem word64?_toNat (n : UInt64) : word64? (.int n.toNat) = some n := by
  have hn : n.toNat < UInt64.size := n.toNat_lt_size
  have hread : (Json.int n.toNat).nat? = some n.toNat := rfl
  simp only [word64?, hread, Option.bind_eq_bind, Option.bind_some, if_pos hn, UInt64.ofNat_toNat]

section

variable {form : Json → Json} (hform : Rearranges form) (surplus : Bool)

include hform

theorem DiscoverySettings.ofJson?_toJson (settings : DiscoverySettings) :
    DiscoverySettings.ofJson? surplus (form settings.toJson) = some settings := by
  obtain ⟨moved, hwritten, hmoved⟩ := hform.obj
    [("skip_dirs", .arr (settings.skippedDirectories.map .str)),
      ("skip_hidden_dirs", .bool settings.skipsHidden),
      ("binary_extensions", .arr (settings.binaryExtensions.map .str)),
      ("respect_gitignore", .bool settings.heedsIgnoreFile)] (by simp)
  have hlist : ∀ names : List String,
      listOf? string? (form (.arr (names.map .str))) = some names := fun names =>
    hform.listOf? fun name _ => by rw [hform.str]; rfl
  rw [toJson, hwritten]
  simp only [ofJson?, fieldsOf?, List.map_cons, List.map_nil, hmoved, Option.bind_eq_bind,
    Option.bind_some]
  simp [member?, fieldOr, hlist, hform.bool, bool?]

theorem ExtractionSettings.ofJson?_toJson (settings : ExtractionSettings) :
    ExtractionSettings.ofJson? surplus (form settings.toJson) = some settings := by
  obtain ⟨moved, hwritten, hmoved⟩ := hform.obj
    [("generic_read_limit", .int settings.readLimit.toNat),
      ("threads", .int settings.workers.toNat)] (by simp)
  rw [toJson, hwritten]
  simp only [ofJson?, fieldsOf?, List.map_cons, List.map_nil, hmoved, Option.bind_eq_bind,
    Option.bind_some]
  simp [member?, fieldOr, hform.int, word64?_toNat]

/-- **Settings read back.** -/
theorem Settings.ofJson?_toJson (settings : Settings) :
    Settings.ofJson? surplus (form settings.toJson) = some settings := by
  obtain ⟨moved, hwritten, hmoved⟩ := hform.obj
    [("discovery", settings.discovery.toJson), ("extraction", settings.extraction.toJson)] (by simp)
  rw [toJson, hwritten]
  simp only [ofJson?, fieldsOf?, List.map_cons, List.map_nil, hmoved, Option.bind_eq_bind,
    Option.bind_some]
  simp [member?, fieldOr, DiscoverySettings.ofJson?_toJson hform,
    ExtractionSettings.ofJson?_toJson hform]

end

end Cartograph
