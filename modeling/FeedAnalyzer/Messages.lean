import FeedAnalyzer.AssetRegistry
import FeedAnalyzer.TextScan

/-!
# Message contracts

The messages the services exchange.  What a message's validators check is a field of the
structure.  Instants are microseconds since the epoch in UTC, dates are days, and
decimal and floating-point quantities are rationals.
-/

namespace Feed

abbrev Uuid : Type := Nat

/-- A probability-like quantity, as the contracts bound it. -/
abbrev Confidence : Type := { x : Rat // 0 ≤ x ∧ x ≤ 1 }

/-! The ranges of the numbers that concrete values share. -/

theorem one_range : (0 : Rat) ≤ 1 ∧ (1 : Rat) ≤ 1 := by decide +kernel
theorem half_range : (0 : Rat) ≤ 1 / 2 ∧ (1 / 2 : Rat) ≤ 1 := by decide +kernel
theorem rat_one_pos : (0 : Rat) < 1 := by decide +kernel
theorem rat_half_pos : (0 : Rat) < 1 / 2 := by decide +kernel
theorem hundred_pos : (0 : Rat) < 100 := by decide +kernel
theorem hundredOne_pos : (0 : Rat) < 101 := by decide +kernel

inductive EventType where
  | militaryConflict | straitClosure | supplyDisruption | sanctions | rateDecision
  | inflationChange | recessionSignal | corporateEarnings | politicalTransition
  | naturalDisaster | corporateAcquisition | executiveChange | regulatoryAction
  | debtCrisis | restructuring | legalDispute | productRecall | dividendChange
  | contractWin | shareBuyback | ipoListing | cybersecurityIncident | tradePolicy
  | fiscalPolicy | currencyCrisis | sovereignDebt | geopoliticalTension
  | commodityPriceShock | economicDataRelease | pandemicOutbreak | energyPolicy
  | other | sport | entertainment | lifestyle
  deriving DecidableEq

/-- The enum's text. -/
def EventType.value : EventType → String
  | .militaryConflict => "MILITARY_CONFLICT"
  | .straitClosure => "STRAIT_CLOSURE"
  | .supplyDisruption => "SUPPLY_DISRUPTION"
  | .sanctions => "SANCTIONS"
  | .rateDecision => "RATE_DECISION"
  | .inflationChange => "INFLATION_CHANGE"
  | .recessionSignal => "RECESSION_SIGNAL"
  | .corporateEarnings => "CORPORATE_EARNINGS"
  | .politicalTransition => "POLITICAL_TRANSITION"
  | .naturalDisaster => "NATURAL_DISASTER"
  | .corporateAcquisition => "CORPORATE_ACQUISITION"
  | .executiveChange => "EXECUTIVE_CHANGE"
  | .regulatoryAction => "REGULATORY_ACTION"
  | .debtCrisis => "DEBT_CRISIS"
  | .restructuring => "RESTRUCTURING"
  | .legalDispute => "LEGAL_DISPUTE"
  | .productRecall => "PRODUCT_RECALL"
  | .dividendChange => "DIVIDEND_CHANGE"
  | .contractWin => "CONTRACT_WIN"
  | .shareBuyback => "SHARE_BUYBACK"
  | .ipoListing => "IPO_LISTING"
  | .cybersecurityIncident => "CYBERSECURITY_INCIDENT"
  | .tradePolicy => "TRADE_POLICY"
  | .fiscalPolicy => "FISCAL_POLICY"
  | .currencyCrisis => "CURRENCY_CRISIS"
  | .sovereignDebt => "SOVEREIGN_DEBT"
  | .geopoliticalTension => "GEOPOLITICAL_TENSION"
  | .commodityPriceShock => "COMMODITY_PRICE_SHOCK"
  | .economicDataRelease => "ECONOMIC_DATA_RELEASE"
  | .pandemicOutbreak => "PANDEMIC_OUTBREAK"
  | .energyPolicy => "ENERGY_POLICY"
  | .other => "OTHER"
  | .sport => "SPORT"
  | .entertainment => "ENTERTAINMENT"
  | .lifestyle => "LIFESTYLE"

inductive Direction where
  | up | down | neutral
  deriving DecidableEq

inductive Magnitude where
  | small | medium | large
  deriving DecidableEq

/-- The enums' texts. -/
def Direction.value : Direction → String
  | .up => "UP"
  | .down => "DOWN"
  | .neutral => "NEUTRAL"

def Magnitude.value : Magnitude → String
  | .small => "SMALL"
  | .medium => "MEDIUM"
  | .large => "LARGE"

inductive Horizon where
  | oneTradingDay
  deriving DecidableEq

inductive ExtractionMethod where
  | localOnly | llmAssisted
  deriving DecidableEq

inductive DecisionMethod where
  | graphOnly | llmArbitrated
  deriving DecidableEq

inductive PriceKind where
  | providerDailyClose | officialSettlement | avanzaSampledClose
  deriving DecidableEq

namespace PriceKind

/-- The enum's text, which the registry's own text is compared with. -/
def value : PriceKind → String
  | .providerDailyClose => "PROVIDER_DAILY_CLOSE"
  | .officialSettlement => "OFFICIAL_SETTLEMENT"
  | .avanzaSampledClose => "AVANZA_SAMPLED_CLOSE"

end PriceKind

inductive EventPolarity where
  | occurrence | resolution
  deriving DecidableEq

inductive ConditionCode where
  | transportAffected | safeHavenOnly | riskPremiumElevated | upstreamUp | upstreamDown
  deriving DecidableEq

def ConditionCode.value : ConditionCode → String
  | .transportAffected => "TRANSPORT_AFFECTED"
  | .safeHavenOnly => "SAFE_HAVEN_ONLY"
  | .riskPremiumElevated => "RISK_PREMIUM_ELEVATED"
  | .upstreamUp => "UPSTREAM_UP"
  | .upstreamDown => "UPSTREAM_DOWN"

/-- What the producer fills in: a fresh id and the clock. -/
structure Envelope where
  messageId : Uuid
  now : Int

/-- The characters that count as white space around a text. -/
def isWhiteSpace (c : Char) : Bool :=
  c.toNat ∈ [9, 10, 11, 12, 13, 32, 133, 160, 5760, 8192, 8193, 8194, 8195, 8196, 8197, 8198, 8199,
    8200, 8201, 8202, 8232, 8233, 8239, 8287, 12288]

/-- `str_strip_whitespace`. -/
def stripWhitespace (text : String) : String :=
  String.ofList (Text.strip isWhiteSpace text.toList)

structure ContributingEdge where
  edgeId : String
  direction : Direction
  currentWeight : Rat
  influenceWeight : Rat
  path : String
  current_range : 0 ≤ currentWeight ∧ currentWeight ≤ 1
  influence_range : 0 ≤ influenceWeight ∧ influenceWeight ≤ 1
  deriving DecidableEq

/-- One fired correlation edge; its assets are texts in a row and `AssetId`s in a message.
-/
structure PropagationHop (A : Type) where
  sourceAssetId : A
  targetAssetId : A
  condition : ConditionCode
  direction : Direction
  edgeWeight : Rat
  deriving DecidableEq

/-- The fired correlation edges of a prediction. -/
abbrev Chain (reg : Registry) : Type := List (PropagationHop (AssetId reg))

/-- One article behind an event. -/
structure SourceRef where
  articleId : Uuid
  sourceId : String
  canonicalUrl : String
  title : String
  publishedAt : Int

structure FactConflictValue where
  sourceId : String
  value : String
  deriving DecidableEq

/-- A field on which the sources of an event disagree. -/
structure FactConflict where
  field : String
  values : List FactConflictValue

inductive LlmStatus where
  | success | failed
  deriving DecidableEq

structure LlmMetadata where
  promptVersion : String
  model : String
  contextHash : String
  inputTokens : Nat
  outputTokens : Nat
  latencyMs : Nat
  attemptCount : Nat
  status : LlmStatus
  attempted : 1 ≤ attemptCount

/-- Where a sampled close comes from. -/
structure SampleProvenance where
  mappingVersion : String
  currency : String
  observedAt : Int

structure CloseObservation where
  session : Int
  close : Rat
  providerBarTime : Option Int := none
  fetchedAt : Int
  source : String
  providerSymbol : String
  priceKind : PriceKind
  isAdjusted : Bool
  registryVersion : String
  sample : Option SampleProvenance := none
  fallbackReason : Option String := none
  close_pos : 0 < close
  valid_sampled_close :
    match priceKind with
    | .avanzaSampledClose =>
      source = "avanza" ∧ isAdjusted = false ∧ providerBarTime = none ∧
        ∃ p, sample = some p ∧ p.observedAt ≤ fetchedAt
    | _ => sample = none

theorem no_sample : (none : Option SampleProvenance) = none := rfl

/-- Produced by Ingestion. -/
structure ArticleIngested where
  correlationId : Uuid
  articleId : Uuid
  sourceId : String
  canonicalUrl : String
  title : String
  body : String
  publishedAt : Int
  language : String
  country : String

variable (reg : Registry)

/-- Produced by Cleansing. -/
structure EventDetected where
  messageId : Uuid
  correlationId : Uuid
  occurredAt : Int
  eventId : Uuid
  clusterId : Uuid
  canonicalSummary : String
  eventType : EventType
  actor : Option String
  action : Option String
  object : Option String
  affectedAssetIds : List (AssetId reg)
  polarity : EventPolarity
  contextTags : List ConditionCode
  firstSeenAt : Int
  lastSeenAt : Int
  sources : List SourceRef
  factConflicts : List FactConflict
  extractionMethod : ExtractionMethod
  llmMetadata : Option LlmMetadata

/-- Produced by Prediction. -/
structure PredictionMade where
  messageId : Uuid
  correlationId : Uuid
  causationId : Option Uuid
  occurredAt : Int
  predictionId : Uuid
  contextId : Uuid
  contextVersion : Nat
  eventIds : List Uuid
  assetId : AssetId reg
  direction : Direction
  magnitude : Magnitude
  confidence : Confidence
  horizon : Horizon
  rationale : String
  contributingEdges : List ContributingEdge
  decisionAt : Int
  supersedesPredictionId : Option Uuid
  decisionMethod : DecisionMethod
  propagationDepth : Nat
  propagationChain : Chain reg

/-- Produced by Verification; names both sessions. -/
structure PriceRequested where
  messageId : Uuid
  correlationId : Uuid
  causationId : Option Uuid
  occurredAt : Int
  requestId : Uuid
  predictionId : Uuid
  assetId : AssetId reg
  baselineSession : Int
  settlementSession : Int
  marketCalendar : String

/-- Produced by Market Data; carries both closes. -/
structure PriceObserved where
  messageId : Uuid
  requestId : Uuid
  predictionId : Uuid
  assetId : AssetId reg
  baseline : CloseObservation
  settlement : CloseObservation
  consistent_sampled_pair : (baseline.priceKind = .avanzaSampledClose ∨
      settlement.priceKind = .avanzaSampledClose) →
    baseline.priceKind = settlement.priceKind ∧
      baseline.sample.map (fun p => (p.currency, p.mappingVersion)) =
        settlement.sample.map (fun p => (p.currency, p.mappingVersion))

/-- How the closes of a score were obtained. -/
inductive PricePolicy where
  | dailyCloseV1 | avanzaSampledCloseV1
  deriving DecidableEq

/-- Produced by Verification; the evidence Credibility learns from. -/
structure PredictionScored where
  messageId : Uuid
  correlationId : Uuid
  causationId : Option Uuid
  occurredAt : Int
  predictionId : Uuid
  contextId : Uuid
  assetId : AssetId reg
  predictedDirection : Direction
  actualDirection : Direction
  predictedMagnitude : Magnitude
  actualMagnitude : Magnitude
  confidence : Confidence
  actualReturn : Rat
  isCorrect : Bool
  score : Rat
  contributingEdges : List ContributingEdge
  sourceIds : List String
  baseline : CloseObservation
  settlement : CloseObservation
  scoredAt : Int
  pricePolicy : PricePolicy
  propagationChain : Chain reg

end Feed
