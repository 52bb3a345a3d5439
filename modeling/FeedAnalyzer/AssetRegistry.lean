import FeedAnalyzer.RowTable

/-!
# The asset registry

An `AssetId` is a text that the loaded registry declares.  The database keeps plain
text, and `AssetId.parse` raises for an asset that has left the registry since.
-/

namespace Feed

open Transact Table

/-- A wall-clock time of day, as `session_complete_at` declares it. -/
structure ClockTime where
  hour : Nat
  minute : Nat
  hour_lt : hour < 24
  minute_lt : minute < 60

/-- One declared asset. -/
structure AssetEntry where
  assetId : String
  timezone : String
  currency : String
  sessionCompleteAt : ClockTime
  priceKind : String := "PROVIDER_DAILY_CLOSE"
  isAdjusted : Bool := false

/-- The validated registry, without duplicate asset ids. -/
structure Registry where
  registryVersion : String
  assets : Table AssetEntry.assetId

/-- Approved provider reference series for one canonical asset. -/
structure AssetReferenceSeries where
  assetId : String
  timezone : String
  currency : String
  priceKind : String
  isAdjusted : Bool
  registryVersion : String
  sessionCompletionHour : Nat
  sessionCompletionMinute : Nat
  deriving DecidableEq

/-- What looking a text up in the registry raises. -/
inductive RegistryError where
  | unknownAsset (message : String)
  | valueError (message : String)
  deriving DecidableEq

namespace Registry

variable (reg : Registry)

def isKnownAsset (assetId : String) : Bool :=
  reg.assets.has assetId

def toSeries (entry : AssetEntry) : AssetReferenceSeries where
  assetId := entry.assetId
  timezone := entry.timezone
  currency := entry.currency
  priceKind := entry.priceKind
  isAdjusted := entry.isAdjusted
  registryVersion := reg.registryVersion
  sessionCompletionHour := entry.sessionCompleteAt.hour
  sessionCompletionMinute := entry.sessionCompleteAt.minute

/-- The approved reference series of an asset. -/
def resolve (assetId : String) : Except RegistryError AssetReferenceSeries :=
  match reg.assets.find? assetId with
  | none => .error (.unknownAsset s!"no approved reference series for asset_id='{assetId}'")
  | some entry => .ok (reg.toSeries entry)

end Registry

abbrev AssetId (reg : Registry) : Type :=
  { text : String // reg.isKnownAsset text = true }

namespace AssetId

variable {reg : Registry}

/-- The plain text of an asset id. -/
def value (a : AssetId reg) : String := a.1

/-- `AssetId(text)`. -/
def parse (reg : Registry) (text : String) : Except RegistryError (AssetId reg) :=
  if h : reg.isKnownAsset text = true then .ok ⟨text, h⟩
  else .error (.valueError
    s!"unknown asset_id '{text}'; declare it in the asset registry (assets.json / ASSET_REGISTRY_PATH)")

@[simp] theorem parse_value (a : AssetId reg) : parse reg a.value = .ok a := by
  simp [parse, value, a.2]

variable {text : String}

theorem parse_eq_ok_iff {a : AssetId reg} : parse reg text = .ok a ↔ a.value = text := by
  constructor
  · intro hparse
    unfold parse at hparse
    split at hparse
    · cases hparse
      rfl
    · cases hparse
  · rintro rfl
    exact parse_value a

theorem parse_eq_error_iff : (∃ e, parse reg text = .error e) ↔ reg.isKnownAsset text = false := by
  unfold parse
  by_cases h : reg.isKnownAsset text <;> simp [h]

/-- **Canonical assets resolve.**  No message that parsed raises
`UnknownAssetError`. -/
theorem resolve_eq_ok (a : AssetId reg) : ∃ entry ∈ reg.assets, entry.assetId = a.value ∧
      reg.resolve a.value = .ok (reg.toSeries entry) := by
  obtain ⟨entry, hentry, hid⟩ := has_eq_true_iff.mp a.2
  refine ⟨entry, hentry, hid, ?_⟩
  have hfind : reg.assets.find? a.value = some entry :=
    find?_eq_some_iff.mpr ⟨hentry, hid⟩
  simp [Registry.resolve, hfind]

end AssetId

def goldEntry : AssetEntry where
  assetId := "GOLD"
  timezone := "UTC"
  currency := "USD"
  sessionCompleteAt := ⟨17, 0, by decide, by decide⟩

/-- The registry that declares gold alone. -/
def goldRegistry : Registry where
  registryVersion := "v1"
  assets := (∅ : Table AssetEntry.assetId).insertNew goldEntry

theorem eq_goldEntry {entry : AssetEntry} (hentry : entry ∈ goldRegistry.assets) :
    entry = goldEntry := by
  rcases mem_insertNew.mp hentry with hempty | hgold
  · exact absurd hempty (not_mem_empty entry)
  · exact hgold.2

def gold : AssetId goldRegistry := ⟨"GOLD", by decide⟩

end Feed
