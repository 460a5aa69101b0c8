import Cartograph.Json.Basic
import Cartograph.Settings.Basic

/-!
# Settings as JSON

How settings are written as JSON values and read back. Whatever is left out keeps its default, and
members that are not known are passed over. A group of settings may also be given as an array of
its first fields.
-/

namespace Cartograph

open Json

/-! ## Reading fields -/

/-- What an absent field is and how a field is read. -/
def fieldOr {α : Type} (fallback : α) (read : Json → Option α) : Option Json → Option α
  | some value => read value
  | none => some fallback

/-- A number that fits an unsigned 64-bit word. -/
def word64? (value : Json) : Option UInt64 := do
  let n ← value.nat?
  if n < UInt64.size then some (UInt64.ofNat n) else none

/-- The values of the `keys`, found by name in an object and by place in an array. An array with
more items is read only if `surplus` items are passed over. -/
def fieldsOf? (surplus : Bool) (keys : List String) : Json → Option (List (Option Json))
  | .obj members => some (keys.map fun key => member? key members)
  | .arr items =>
    if surplus || items.length ≤ keys.length then
      some ((List.range keys.length).map fun i => items[i]?)
    else none
  | _ => none

/-! ## Finding files -/

/-- The settings for finding files as JSON. -/
def DiscoverySettings.toJson (settings : DiscoverySettings) : Json :=
  .obj [("skip_dirs", .arr (settings.skippedDirectories.map .str)),
    ("skip_hidden_dirs", .bool settings.skipsHidden),
    ("binary_extensions", .arr (settings.binaryExtensions.map .str)),
    ("respect_gitignore", .bool settings.heedsIgnoreFile)]

/-- The settings for finding files from JSON. -/
def DiscoverySettings.ofJson? (surplus : Bool) (value : Json) : Option DiscoverySettings := do
  let usual : DiscoverySettings := {}
  match ← fieldsOf? surplus ["skip_dirs", "skip_hidden_dirs", "binary_extensions",
    "respect_gitignore"] value with
  | [skipped, hidden, binary, heeds] =>
    return {
      skippedDirectories := ← fieldOr usual.skippedDirectories (listOf? string?) skipped
      skipsHidden := ← fieldOr usual.skipsHidden bool? hidden
      binaryExtensions := ← fieldOr usual.binaryExtensions (listOf? string?) binary
      heedsIgnoreFile := ← fieldOr usual.heedsIgnoreFile bool? heeds }
  | _ => none

/-! ## Looking into files -/

/-- The settings for looking into files as JSON. -/
def ExtractionSettings.toJson (settings : ExtractionSettings) : Json :=
  .obj [("generic_read_limit", .int settings.readLimit.toNat),
    ("threads", .int settings.workers.toNat)]

/-- The settings for looking into files from JSON. -/
def ExtractionSettings.ofJson? (surplus : Bool) (value : Json) : Option ExtractionSettings := do
  let usual : ExtractionSettings := {}
  match ← fieldsOf? surplus ["generic_read_limit", "threads"] value with
  | [limit, workers] =>
    return {
      readLimit := ← fieldOr usual.readLimit word64? limit
      workers := ← fieldOr usual.workers word64? workers }
  | _ => none

/-! ## All settings -/

/-- Settings as JSON. -/
def Settings.toJson (settings : Settings) : Json :=
  .obj [("discovery", settings.discovery.toJson), ("extraction", settings.extraction.toJson)]

/-- Settings from JSON. -/
def Settings.ofJson? (surplus : Bool) (value : Json) : Option Settings := do
  match ← fieldsOf? surplus ["discovery", "extraction"] value with
  | [discovery, extraction] =>
    return {
      discovery := ← fieldOr {} (DiscoverySettings.ofJson? surplus) discovery
      extraction := ← fieldOr {} (ExtractionSettings.ofJson? surplus) extraction }
  | _ => none

end Cartograph
