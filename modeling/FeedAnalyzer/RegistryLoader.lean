import FeedAnalyzer.Messages
import FeedAnalyzer.TextScan

/-!
# Loading the asset registry

`parse_registry` reads a decoded JSON document and raises on any inconsistency.  Python's
text functions are a parameter (`PythonText`).  `parseRegistry_wellFormed` says what every
accepted document gives.
-/

namespace Feed

open Transact List Table

/-- A decoded JSON value; keys of an object are distinct. -/
inductive Json where
  | null
  | bool (b : Bool)
  | num (x : Rat)
  | str (text : String)
  | arr (items : List Json)
  | obj (fields : List (String × Json))

namespace Json

/-- `bool(value)`. -/
def truthy : Json → Bool
  | .null => false
  | .bool b => b
  | .num x => x ≠ 0
  | .str text => text ≠ ""
  | .arr items => !items.isEmpty
  | .obj fields => !fields.isEmpty

end Json

/-- `data.get(key)` of a decoded object. -/
abbrev Fields : Type := List (String × Json)

def Fields.get (data : Fields) (key : String) : Json := (data.lookup key).getD .null

/-- What the loader uses of Python's texts.  The separators of an edge id and the space are
not alphanumeric. -/
structure PythonText where
  /-- `str(value)` of a value that is not a text. -/
  render : Json → String
  /-- `repr(value)`. -/
  quote : Json → String
  isAlnum : Char → Bool
  upper : String → String
  lower : String → String
  strip : String → String
  /-- `int(text)` of a text that `isdigit` accepts. -/
  digits : String → Option Nat
  render_ne : ∀ value, render value ≠ ""
  isAlnum_separator : ∀ c ∈ ['-', '>', '|'], isAlnum c = false
  isAlnum_space : ∀ c, isWhiteSpace c = true → isAlnum c = false

/-- `str(value)`. -/
def PythonText.str (py : PythonText) : Json → String
  | .str text => text
  | value => py.render value

theorem PythonText.str_ne {py : PythonText} {value : Json} (htruthy : value.truthy) :
    py.str value ≠ "" := by
  cases value with
  | str text => exact of_decide_eq_true htruthy
  | null => cases htruthy
  | _ => exact py.render_ne _

inductive LoaderError where
  | invalidRegistry (message : String)
  | typeError (message : String)
  deriving DecidableEq

def require (condition : Bool) (message : String) : Except LoaderError Unit :=
  if condition then .ok () else .error (.invalidRegistry message)

theorem require_eq_ok {condition : Bool} {message : String} {u : Unit}
    (hok : require condition message = .ok u) : condition := by
  unfold require at hok
  split at hok
  · next hcondition => exact hcondition
  · cases hok

variable {ε α : Type} {x : Except ε α}

theorem bind_eq_ok {β : Type} {f : α → Except ε β} {b : β} (hok : x >>= f = .ok b) :
    ∃ a, x = .ok a ∧ f a = .ok b := by
  cases x with
  | error e => cases hok
  | ok a => exact ⟨a, rfl, hok⟩

/-- One asset of the registry file. -/
structure DeclaredAsset extends AssetEntry where
  name : String
  code : String
  provider : String
  providerSymbol : String
  economicIdentity : String
  expectedExchange : String
  keywords : List String
  fallback : Option String
  groupId : String

/-- A fan-out target for industry-scope news, never itself tradeable. -/
structure AssetGroup where
  groupId : String
  displayName : String
  industryKeywords : List String
  members : List String

/-- The key of an asset in the loaded registry. -/
def DeclaredAsset.key (entry : DeclaredAsset) : String := entry.assetId

structure LoadedRegistry where
  registryVersion : String
  rolloverPolicy : String
  assets : Table DeclaredAsset.key
  groups : Table AssetGroup.groupId

/-- The part of the registry that the services resolve assets with. -/
def LoadedRegistry.registry (loaded : LoadedRegistry) : Registry where
  registryVersion := loaded.registryVersion
  assets :=
    { rows := loaded.assets.rows.map DeclaredAsset.toAssetEntry
      nodup := by
        rw [List.map_map]
        exact loaded.assets.nodup }

theorem LoadedRegistry.isKnownAsset_eq (loaded : LoadedRegistry) (text : String) :
    loaded.registry.isKnownAsset text = loaded.assets.has text := by
  unfold Registry.isKnownAsset has LoadedRegistry.registry
  rw [any_map]
  rfl

def knownProviders : List String := ["biquote.io", "yahoo"]

def requiredAssetFields : List String :=
  ["asset_id", "name", "code", "provider", "provider_symbol", "economic_identity",
    "expected_exchange", "currency", "timezone", "session_complete_at"]

/-- `asset_id.replace("_", "").isalnum()`. -/
def isWord (py : PythonText) (text : String) : Bool :=
  let letters := text.toList.filter (· ≠ '_')
  !letters.isEmpty && letters.all py.isAlnum

section Loader

variable (py : PythonText)

def parseSessionClose (raw : Json) (assetId : String) : Except LoaderError ClockTime :=
  match raw with
  | .str text =>
    let cut := Text.partition [':'] text.toList
    if text.toList.count ':' = 1 then
      match py.digits (String.ofList cut.1), py.digits (String.ofList cut.2.2) with
      | some hour, some minute =>
        if h : hour < 24 ∧ minute < 60 then .ok ⟨hour, minute, h.1, h.2⟩
        else .error (.invalidRegistry
          s!"{assetId}: session_complete_at is not a valid time: {py.quote raw}")
      | _, _ => .error (.invalidRegistry
          s!"{assetId}: session_complete_at is not a valid time: {py.quote raw}")
    else .error (.invalidRegistry
      s!"{assetId}: session_complete_at must be 'HH:MM', got {py.quote raw}")
  | _ => .error (.invalidRegistry
      s!"{assetId}: session_complete_at must be 'HH:MM', got {py.quote raw}")

/-- One keyword, matched without case downstream. -/
def keyword (assetId : String) : Json → Except LoaderError String
  | .str text =>
    if py.strip text ≠ "" then .ok (py.lower (py.strip text))
    else .error (.invalidRegistry s!"{assetId}: keywords must be non-empty strings")
  | _ => .error (.invalidRegistry s!"{assetId}: keywords must be non-empty strings")

def parseKeywords (assetId : String) : Json → Except LoaderError (List String)
  | .null => .ok []
  | .arr items => items.mapM (keyword py assetId)
  | _ => .error (.invalidRegistry s!"{assetId}: keywords must be a list")

def buildAsset (raw : Json) (groupId : String) : Except LoaderError DeclaredAsset :=
  match raw with
  | .obj fields => do
    let data : Fields := fields
    let assetId := py.str ((data.lookup "asset_id").getD (.str "<missing>"))
    let missing := requiredAssetFields.filter (fun key => !(data.get key).truthy)
    let missingNames := ", ".intercalate missing
    require missing.isEmpty s!"{assetId}: missing required field(s): {missingNames}"
    require (!(assetId.toList.contains ':'))
      s!"{assetId}: asset_id must not contain ':' (use 'code' for that)"
    require (isWord py assetId && assetId == py.upper assetId)
      s!"{assetId}: asset_id must be UPPER_SNAKE_CASE alphanumerics"
    let provider := py.str (data.get "provider")
    let known := ", ".intercalate knownProviders
    require (knownProviders.contains provider)
      s!"{assetId}: unknown provider '{provider}' (known: {known})"
    let sessionCompleteAt ← parseSessionClose py (data.get "session_complete_at") assetId
    let keywords ← parseKeywords py assetId (data.get "keywords")
    pure
      { assetId := assetId
        timezone := py.str (data.get "timezone")
        currency := py.str (data.get "currency")
        sessionCompleteAt := sessionCompleteAt
        priceKind := py.str ((data.lookup "price_kind").getD (.str "PROVIDER_DAILY_CLOSE"))
        isAdjusted := (data.get "is_adjusted").truthy
        name := py.str (data.get "name")
        code := py.str (data.get "code")
        provider := provider
        providerSymbol := py.str (data.get "provider_symbol")
        economicIdentity := py.str (data.get "economic_identity")
        expectedExchange := py.str (data.get "expected_exchange")
        keywords := keywords
        fallback :=
          match data.get "fallback" with
          | .null => none
          | value => if py.str value = "" then none else some (py.str value)
        groupId := groupId }
  | _ => .error (.invalidRegistry "each asset entry must be an object")

def addAssets (groupId : String) : List Json → Table DeclaredAsset.key → List String →
    Except LoaderError (Table DeclaredAsset.key × List String)
  | [], assets, members => .ok (assets, members)
  | raw :: rest, assets, members => do
    let entry ← buildAsset py raw groupId
    require (!(assets.has entry.key)) s!"duplicate asset_id '{entry.assetId}' in the registry"
    addAssets groupId rest (assets.insertNew entry) (members ++ [entry.assetId])

/-- `group.get("assets") or []`, which has to be a list. -/
def memberItems (groupId : String) (raw : Json) : Except LoaderError (List Json) :=
  if raw.truthy then
    match raw with
    | .arr items => .ok items
    | _ => .error (.invalidRegistry s!"{groupId}: assets must be a list")
  else .ok []

def addGroup (raw : Json) (assets : Table DeclaredAsset.key) (groups : Table AssetGroup.groupId) :
    Except LoaderError (Table DeclaredAsset.key × Table AssetGroup.groupId) :=
  match raw with
  | .obj fields => do
    let group : Fields := fields
    let groupId := py.str ((group.lookup "group_id").getD (.str "<missing>"))
    require (group.get "group_id").truthy "group_id is required for every group"
    require (group.get "display_name").truthy s!"{groupId}: display_name is required"
    require (!(groups.has groupId)) s!"duplicate group_id '{groupId}'"
    let items ← memberItems groupId (group.get "assets")
    let (assets, members) ← addAssets py groupId items assets []
    require (!members.isEmpty) s!"{groupId}: a group must declare at least one asset"
    let industryKeywords ← parseKeywords py groupId (group.get "industry_keywords")
    pure (assets, groups.insertNew
      { groupId := groupId
        displayName := py.str (group.get "display_name")
        industryKeywords := industryKeywords
        members := members })
  | _ => .error (.invalidRegistry "each group entry must be an object")

def addGroups : List Json → Table DeclaredAsset.key → Table AssetGroup.groupId →
    Except LoaderError (Table DeclaredAsset.key × Table AssetGroup.groupId)
  | [], assets, groups => .ok (assets, groups)
  | raw :: rest, assets, groups => do
    let (assets, groups) ← addGroup py raw assets groups
    addGroups rest assets groups

/-- `doc.get("groups") or []`, as the loop goes through it. -/
def groupItems : Json → Except LoaderError (List Json)
  | .arr items => .ok items
  | .obj fields => .ok (fields.map (fun field => .str field.1))
  | .str text => .ok (text.toList.map (fun c => .str (String.singleton c)))
  | .null => .ok []
  | .bool false => .ok []
  | .bool true => .error (.typeError "'bool' object is not iterable")
  | .num x => if x = 0 then .ok [] else .error (.typeError "number is not iterable")

def claimants (assets : Table DeclaredAsset.key) (keyword : String) : List String :=
  assets.rows.flatMap (fun entry =>
    (entry.keywords.filter (· = keyword)).map (fun _ => entry.assetId))

/-- The keywords that are claimed more than once. -/
def keywordClashes (assets : Table DeclaredAsset.key) : List String :=
  (assets.rows.flatMap DeclaredAsset.keywords).eraseDups.filter (fun keyword =>
    1 < (claimants assets keyword).length)

def clashText (assets : Table DeclaredAsset.key) (keyword : String) : String :=
  py.quote (.str keyword) ++ " -> " ++
    ", ".intercalate ((claimants assets keyword).mergeSort (· ≤ ·))

def checkFallbacks (assets : Table DeclaredAsset.key) : List DeclaredAsset → Except LoaderError Unit
  | [] => .ok ()
  | entry :: rest => do
    match entry.fallback with
    | none => pure ()
    | some fallback =>
      require (assets.has fallback)
        s!"{entry.assetId}: fallback '{fallback}' is not a declared asset"
    checkFallbacks assets rest

/-- Validate a decoded registry document. -/
def parseRegistry (payload : Json) : Except LoaderError LoadedRegistry :=
  match payload with
  | .obj fields => do
    let doc : Fields := fields
    require (doc.get "registry_version").truthy "registry_version is required"
    require (doc.get "rollover_policy").truthy "rollover_policy is required"
    let items ← groupItems (doc.get "groups")
    let (assets, groups) ← addGroups py items ∅ ∅
    require (!assets.rows.isEmpty) "the registry declares no assets"
    let overlap := (groups.rows.map AssetGroup.groupId).filter (fun id => assets.has id)
    require overlap.isEmpty
      ("group_id/asset_id collision: " ++ ", ".intercalate (overlap.mergeSort (· ≤ ·)))
    let clashes := (keywordClashes assets).mergeSort (· ≤ ·)
    require clashes.isEmpty ("keyword claimed by multiple assets: " ++
        "; ".intercalate (clashes.map (clashText py assets)))
    checkFallbacks assets assets.rows
    pure
      { registryVersion := py.str (doc.get "registry_version")
        rolloverPolicy := py.str (doc.get "rollover_policy")
        assets := assets
        groups := groups }
  | _ => .error (.invalidRegistry "registry root must be an object")

end Loader

/-- Asset ids are words, and group ids are no asset ids. -/
structure LoadedRegistry.WellFormed (py : PythonText) (loaded : LoadedRegistry) : Prop where
  asset_word : ∀ entry ∈ loaded.assets, isWord py entry.assetId = true
  group_ne : ∀ group ∈ loaded.groups, group.groupId ≠ ""
  group_not_asset : ∀ group ∈ loaded.groups, loaded.assets.has group.groupId = false

section WellFormed

variable {py : PythonText} {assets : Table DeclaredAsset.key}

/-- A word has only underscores besides its letters and digits. -/
theorem not_mem_of_isWord {text : String} (hword : isWord py text) {c : Char}
    (hne : c ≠ '_') (hc : py.isAlnum c = false) : c ∉ text.toList := by
  intro hmem
  have hletter : c ∈ text.toList.filter (· ≠ '_') := mem_filter.mpr ⟨hmem, by simp [hne]⟩
  have halnum := all_eq_true.mp (Bool.and_eq_true_iff.mp hword).2 c hletter
  rw [hc] at halnum
  cases halnum

def Checked (py : PythonText) (entry : DeclaredAsset) : Prop :=
  isWord py entry.assetId = true ∧ entry.provider ∈ knownProviders

variable {raw payload : Json} {groupId : String} {loaded : LoadedRegistry}

theorem buildAsset_checked {entry : DeclaredAsset} (hok : buildAsset py raw groupId = .ok entry) :
    Checked py entry := by
  unfold buildAsset at hok
  split at hok
  · obtain ⟨_, _, hok⟩ := bind_eq_ok hok
    obtain ⟨_, _, hok⟩ := bind_eq_ok hok
    obtain ⟨_, hword, hok⟩ := bind_eq_ok hok
    obtain ⟨_, hprovider, hok⟩ := bind_eq_ok hok
    obtain ⟨_, _, hok⟩ := bind_eq_ok hok
    obtain ⟨_, _, hok⟩ := bind_eq_ok hok
    cases hok
    constructor
    · exact (Bool.and_eq_true_iff.mp (require_eq_ok hword)).1
    · exact contains_iff_mem.mp (require_eq_ok hprovider)
  · cases hok

section Built

variable {Q : DeclaredAsset → Prop}
  (hbuilt : ∀ {raw groupId entry}, buildAsset py raw groupId = .ok entry → Q entry)

include hbuilt

variable {items : List Json} {groups : Table AssetGroup.groupId}
  {result : Table DeclaredAsset.key × Table AssetGroup.groupId}

/-- The loop over the members of a group keeps what holds of every new one. -/
theorem addAssets_forall {members : List String} {result : Table DeclaredAsset.key × List String}
    (hok : addAssets py groupId items assets members = .ok result)
    (hassets : ∀ entry ∈ assets, Q entry) : ∀ entry ∈ result.1, Q entry := by
  induction items generalizing assets members with
  | nil =>
    cases hok
    exact hassets
  | cons raw rest ih =>
    obtain ⟨entry, hbuild, hok⟩ := bind_eq_ok hok
    obtain ⟨_, _, hok⟩ := bind_eq_ok hok
    apply ih hok
    intro entry' hentry'
    rcases mem_insertNew.mp hentry' with hold | ⟨_, rfl⟩
    · exact hassets entry' hold
    · exact hbuilt hbuild

theorem addGroup_forall (hok : addGroup py raw assets groups = .ok result)
    (hassets : ∀ entry ∈ assets, Q entry) (hgroups : ∀ group ∈ groups, group.groupId ≠ "") :
    (∀ entry ∈ result.1, Q entry) ∧ ∀ group ∈ result.2, group.groupId ≠ "" := by
  unfold addGroup at hok
  split at hok
  · next fields =>
    obtain ⟨_, hid, hok⟩ := bind_eq_ok hok
    obtain ⟨_, _, hok⟩ := bind_eq_ok hok
    obtain ⟨_, _, hok⟩ := bind_eq_ok hok
    obtain ⟨items, _, hok⟩ := bind_eq_ok hok
    obtain ⟨added, hadded, hok⟩ := bind_eq_ok hok
    obtain ⟨_, _, hok⟩ := bind_eq_ok hok
    obtain ⟨keywords, _, hok⟩ := bind_eq_ok hok
    cases hok
    refine ⟨addAssets_forall hbuilt hadded hassets, ?_⟩
    intro group hgroup
    rcases mem_insertNew.mp hgroup with hold | ⟨_, rfl⟩
    · exact hgroups group hold
    · have htruthy := require_eq_ok hid
      have hlookup : ((lookup "group_id" fields).getD (.str "<missing>")).truthy := by
        unfold Fields.get at htruthy
        cases hfound : lookup "group_id" fields with
        | none =>
          rw [hfound] at htruthy
          cases htruthy
        | some value =>
          rw [hfound] at htruthy
          exact htruthy
      exact PythonText.str_ne hlookup
  · cases hok

theorem addGroups_forall (hok : addGroups py items assets groups = .ok result)
    (hassets : ∀ entry ∈ assets, Q entry) (hgroups : ∀ group ∈ groups, group.groupId ≠ "") :
    (∀ entry ∈ result.1, Q entry) ∧ ∀ group ∈ result.2, group.groupId ≠ "" := by
  induction items generalizing assets groups with
  | nil =>
    cases hok
    exact ⟨hassets, hgroups⟩
  | cons raw rest ih =>
    obtain ⟨added, hadded, hok⟩ := bind_eq_ok hok
    obtain ⟨hassets', hgroups'⟩ := addGroup_forall hbuilt hadded hassets hgroups
    exact ih hok hassets' hgroups'

/-- What holds of every asset that is built holds of those of an accepted registry. -/
theorem parseRegistry_forall (hok : parseRegistry py payload = .ok loaded) :
    (∀ entry ∈ loaded.assets, Q entry) ∧ (∀ group ∈ loaded.groups, group.groupId ≠ "") ∧
      ∀ group ∈ loaded.groups, loaded.assets.has group.groupId = false := by
  unfold parseRegistry at hok
  split at hok
  · obtain ⟨_, _, hok⟩ := bind_eq_ok hok
    obtain ⟨_, _, hok⟩ := bind_eq_ok hok
    obtain ⟨items, _, hok⟩ := bind_eq_ok hok
    obtain ⟨added, hadded, hok⟩ := bind_eq_ok hok
    obtain ⟨_, _, hok⟩ := bind_eq_ok hok
    obtain ⟨_, hoverlap, hok⟩ := bind_eq_ok hok
    obtain ⟨_, _, hok⟩ := bind_eq_ok hok
    obtain ⟨_, _, hok⟩ := bind_eq_ok hok
    cases hok
    obtain ⟨hassets, hgroups⟩ := addGroups_forall hbuilt hadded
      (fun entry hentry => absurd hentry (not_mem_empty entry))
      fun group hgroup => absurd hgroup (not_mem_empty group)
    refine ⟨hassets, hgroups, fun group hgroup => ?_⟩
    apply Bool.eq_false_iff.mpr
    intro hasset
    have hempty := isEmpty_iff.mp (require_eq_ok hoverlap)
    have hmem := mem_filter.mpr ⟨mem_map_of_mem hgroup, hasset⟩
    rw [hempty] at hmem
    cases hmem
  · cases hok

end Built

/-- **Every accepted registry is well formed.** -/
theorem parseRegistry_wellFormed (hok : parseRegistry py payload = .ok loaded) :
    loaded.WellFormed py := by
  obtain ⟨hassets, hgroups, hdistinct⟩ := parseRegistry_forall buildAsset_checked hok
  exact ⟨fun entry hentry => (hassets entry hentry).1, hgroups, hdistinct⟩

theorem LoadedRegistry.WellFormed.assetId_word (hwell : loaded.WellFormed py)
    (a : AssetId loaded.registry) : isWord py a.value := by
  have hknown := a.2
  rw [loaded.isKnownAsset_eq] at hknown
  obtain ⟨entry, hentry, hid⟩ := has_eq_true_iff.mp hknown
  have hword := hwell.asset_word entry hentry
  rwa [show entry.assetId = a.value from hid] at hword

end WellFormed

/-- Every asset has a provider that some adapter serves, and a declared fallback is
declared. -/
structure PriceRegistry extends LoadedRegistry where
  provider_known : ∀ entry ∈ assets, entry.provider ∈ knownProviders
  fallback_known : ∀ entry ∈ assets, ∀ fallback, entry.fallback = some fallback →
    assets.has fallback = true

structure ProviderSeries extends AssetReferenceSeries where
  provider : String
  providerSymbol : String
  fallback : Option String

namespace PriceRegistry

variable (reg : PriceRegistry)

def toProviderSeries (entry : DeclaredAsset) : ProviderSeries where
  toAssetReferenceSeries := reg.registry.toSeries entry.toAssetEntry
  provider := entry.provider
  providerSymbol := entry.providerSymbol
  fallback := entry.fallback

/-- `resolve`, with the fields that a price lookup reads. -/
def resolve (assetId : String) : Except RegistryError ProviderSeries :=
  match reg.assets.find? assetId with
  | none => .error (.unknownAsset s!"no approved reference series for asset_id='{assetId}'")
  | some entry => .ok (reg.toProviderSeries entry)

/-- What a successful lookup gives: a series with a served provider, whose
fallback can be looked up too. -/
theorem resolve_spec {assetId : String} {series : ProviderSeries}
    (hresolve : reg.resolve assetId = .ok series) :
    series.provider ∈ knownProviders ∧ ∀ fallback, series.fallback = some fallback →
        ∃ other, reg.resolve fallback = .ok other := by
  unfold resolve at hresolve
  cases hfind : reg.assets.find? assetId with
  | none =>
    rw [hfind] at hresolve
    cases hresolve
  | some entry =>
    rw [hfind] at hresolve
    cases hresolve
    have hentry := (find?_eq_some_iff.mp hfind).1
    constructor
    · exact reg.provider_known entry hentry
    · intro fallback hfallback
      obtain ⟨other, hother, hkey⟩ :=
        has_eq_true_iff.mp (reg.fallback_known entry hentry fallback hfallback)
      have hlookup := find?_eq_some_iff.mpr ⟨hother, hkey⟩
      exact ⟨reg.toProviderSeries other, by simp [resolve, hlookup]⟩

theorem resolve_assetId (a : AssetId reg.registry) :
    ∃ series, reg.resolve a.value = .ok series := by
  have hknown := a.2
  rw [reg.isKnownAsset_eq] at hknown
  obtain ⟨entry, hentry, hkey⟩ := has_eq_true_iff.mp hknown
  have hfind : reg.assets.find? a.value = some entry :=
    find?_eq_some_iff.mpr ⟨hentry, hkey⟩
  exact ⟨reg.toProviderSeries entry, by simp [resolve, hfind]⟩

end PriceRegistry

def asciiText : PythonText where
  render := fun _ => "value"
  quote := fun _ => "value"
  isAlnum := Char.isAlphanum
  upper := fun text => String.ofList (text.toList.map Char.toUpper)
  lower := fun text => String.ofList (text.toList.map Char.toLower)
  strip := stripWhitespace
  digits := fun text =>
    if text.toList.isEmpty = false ∧ text.toList.all Char.isDigit then
      some (text.toList.foldl (fun n c => 10 * n + (c.toNat - '0'.toNat)) 0)
    else none
  render_ne := fun _ => by decide
  isAlnum_separator := by
    intro c hc
    simp only [List.mem_cons, List.not_mem_nil, or_false] at hc
    rcases hc with rfl | rfl | rfl <;> decide
  isAlnum_space := by
    intro c hspace
    have hcode : c.toNat ≤ 47 ∨ 123 ≤ c.toNat := by
      simp only [isWhiteSpace, decide_eq_true_eq, List.mem_cons, List.not_mem_nil, or_false]
        at hspace
      omega
    have hval : c.val.toNat = c.toNat := rfl
    delta Char.isAlphanum Char.isAlpha Char.isUpper Char.isLower Char.isDigit
    simp only [Bool.or_eq_false_iff, Bool.and_eq_false_iff, decide_eq_false_iff_not, ge_iff_le,
      UInt32.le_iff_toNat_le]
    rw [hval]
    have hbounds : 'A'.val.toNat = 65 ∧ 'Z'.val.toNat = 90 ∧ 'a'.val.toNat = 97 ∧
        'z'.val.toNat = 122 ∧ '0'.val.toNat = 48 ∧ '9'.val.toNat = 57 := by decide
    omega

def metalDocument (assetId name : String) : Json :=
  .obj [("asset_id", .str assetId), ("name", .str name), ("code", .str name),
    ("provider", .str "yahoo"), ("provider_symbol", .str name),
    ("economic_identity", .str name), ("expected_exchange", .str "COMEX"),
    ("currency", .str "USD"), ("timezone", .str "UTC"), ("session_complete_at", .str "17:00")]

def metalsDocument : Json :=
  .obj [("registry_version", .str "1"), ("rollover_policy", .str "front"), ("groups", .arr [
      .obj [("group_id", .str "PRECIOUS_METALS"), ("display_name", .str "Precious metals"),
        ("assets", .arr [metalDocument "GOLD" "Gold", metalDocument "SILVER" "Silver"])]])]

theorem metalsDocument_accepted : (parseRegistry asciiText metalsDocument).toOption.isSome := by
  decide +kernel

def metals : LoadedRegistry :=
  (parseRegistry asciiText metalsDocument).toOption.get metalsDocument_accepted

theorem eq_ok_of_isSome (hsome : x.toOption.isSome) : x = .ok (x.toOption.get hsome) := by
  cases x with
  | ok a => rfl
  | error e => cases hsome

end Feed
