import Mathlib.Algebra.Group.Nat.Defs
import FeedAnalyzer.CleansingStore

/-!
# The Cleansing pipeline

`process_article` drops near duplicates, embeds and extracts an article, and assigns
it to a cluster, in separate transactions.  `close_ready_clusters` claims the due
clusters at once and turns them into events one by one.

Text normalisation, the feature hash and the keyword tables are parameters.
-/

namespace Cleansing

open Feed Transact

/-- The types that carry no causal event. -/
def nonClusteringEventTypes : List EventType := [.sport, .entertainment, .lifestyle, .other]

def gate2Compatible (left right : EventType) : Bool :=
  left = right ∧ left ∉ nonClusteringEventTypes

/-- One turn of the loop over the candidates. -/
def considerCandidate (articleEventType : EventType) (similarityThreshold : Rat)
    (best : Option ClusterCandidate) (candidate : ClusterCandidate) : Option ClusterCandidate :=
  if candidate.similarity < similarityThreshold then best
  else if !gate2Compatible articleEventType candidate.eventType then best
  else
    match best with
    | none => some candidate
    | some b => if b.similarity < candidate.similarity then some candidate else best

/-- The best candidate that passes both gates; the first among equals. -/
def decideAssignment (articleEventType : EventType) (candidates : List ClusterCandidate)
    (similarityThreshold : Rat) : Option Uuid :=
  (candidates.foldl (considerCandidate articleEventType similarityThreshold) none).map
    ClusterCandidate.clusterId

structure CleansingSettings where
  dedupWindowHours : Nat := 48
  simhashMaxDistance : Nat := 3
  similarityThreshold : Rat := 4 / 5
  quietPeriodMinutes : Nat := 30
  maxLifetimeHours : Nat := 24
  dedup_pos : 1 ≤ dedupWindowHours := by decide
  distance_le : simhashMaxDistance ≤ 64 := by decide
  threshold_range : 0 ≤ similarityThreshold ∧ similarityThreshold ≤ 1 := by decide +kernel
  quiet_pos : 1 ≤ quietPeriodMinutes := by decide
  lifetime_pos : 1 ≤ maxLifetimeHours := by decide

/-- The text functions the pipeline calls. -/
structure TextTools where
  usableTitle : String → String
  usableBody : String → String
  prepareInputs : String → String → String × String
  tokens : String → List String
  featureHash : String → Nat
  strip : String → String

structure CleansingPipeline (reg : Registry) where
  settings : CleansingSettings := {}
  text : TextTools
  gatedAssetsForEventType : EventType → String → List (AssetId reg)
  /-- Whether an LLM merger is configured. -/
  llmMerger : Bool

namespace TextTools

variable (T : TextTools)

def bitWeight (tokens : List String) (bit : Nat) : Int :=
  tokens.foldl (fun weight token =>
    weight + if (T.featureHash token).testBit bit then 1 else -1) 0

/-- A 64-bit SimHash of the text; empty text hashes to 0. -/
def simhash (text : String) : Nat :=
  let tokens := T.tokens text
  if tokens = [] then 0
  else (List.range 64).foldl (fun fingerprint bit =>
      if 0 < T.bitWeight tokens bit then fingerprint ||| (1 <<< bit) else fingerprint) 0

end TextTools

/-- The number of differing bits among the lowest 64. -/
def hammingDistance (left right : Nat) : Nat :=
  ((List.range 64).filter (fun bit => (left ^^^ right).testBit bit)).length

def isNearDuplicate (candidate existing maxDistance : Nat) : Bool :=
  hammingDistance candidate existing ≤ maxDistance

/-- The values that are not empty, each once. -/
def distinctNonempty (values : List (Option String)) : List String :=
  (values.filterMap (Option.filter (· ≠ ""))).eraseDups

/-- Sources conflict when they name more than one actor. -/
def detectFactConflicts (actions : List ActionRow) : List FactConflict :=
  if 1 < (distinctNonempty (actions.map ActionRow.actor)).length then
    [{ field := "actor"
       values := actions.filterMap (fun row =>
         (row.actor.filter (· ≠ "")).map (fun actor =>
           { sourceId := toString row.articleId, value := actor })) }]
  else []

/-- The most common value; the first among equals. -/
def majority (values : List (Option String)) : Option String :=
  let present := values.filterMap (Option.filter (· ≠ ""))
  present.eraseDups.foldl (fun (best : Option String) value =>
    match best with
    | none => some value
    | some b => if present.count b < present.count value then some value else best) none

variable {reg : Registry}

/-- One turn of the loop over the named assets. -/
def collectAsset (collected : List (AssetId reg)) (raw : String) :
    Except CleansingError (List (AssetId reg)) :=
  match AssetId.parse reg raw with
  | .error (.valueError message) => .error (.valueError message)
  | .error (.unknownAsset message) => .error (.valueError message)
  | .ok asset => .ok (if asset ∈ collected then collected else collected ++ [asset])

/-- The assets the actions name, each once; a retired one raises. -/
def affectedAssets (reg : Registry) (actions : List ActionRow) :
    Except CleansingError (List (AssetId reg)) :=
  (actions.flatMap ActionRow.affectedAssetIds).foldlM collectAsset []

/-- `RESOLUTION` only on a strict majority. -/
def eventPolarity (actions : List ActionRow) : EventPolarity :=
  let resolution := (actions.filter (fun row => row.polarity = .resolution)).length
  if actions.length - resolution < resolution then .resolution else .occurrence

def contextTags (actions : List ActionRow) : List ConditionCode :=
  (actions.flatMap ActionRow.contextTags).eraseDups

def sources (articles : List MemberRow) : List SourceRef :=
  articles.map (fun row =>
    { articleId := row.articleId
      sourceId := row.sourceId
      canonicalUrl := row.canonicalUrl
      title := row.title
      publishedAt := row.publishedAt })

namespace CleansingPipeline

variable (P : CleansingPipeline reg)

/-- The assets of the actions, or else those that the type implies and the headlines
evidence. -/
def resolvedAssets (actions : List ActionRow) (eventType : EventType)
    (articles : List MemberRow) : Except CleansingError (List (AssetId reg)) := do
  let assets ← affectedAssets reg actions
  if assets ≠ [] then pure assets
  else if eventType ∈ nonClusteringEventTypes then pure []
  else
    let titles := " ".intercalate ((articles.map MemberRow.title).filter (· ≠ ""))
    pure (P.gatedAssetsForEventType eventType titles)

/-- What an event takes from its cluster, however it is built. -/
def newEventDetected (record : ClusterRow) (articles : List MemberRow)
    (actions : List ActionRow) (stamp : EventStamp) (assets : List (AssetId reg))
    (canonicalSummary : String) (actor action object : Option String)
    (factConflicts : List FactConflict) (extractionMethod : ExtractionMethod)
    (llmMetadata : Option LlmMetadata) : EventDetected reg where
  messageId := stamp.messageId
  correlationId := (articles.head?.map MemberRow.correlationId).getD stamp.correlationId
  occurredAt := stamp.now
  eventId := stamp.eventId
  clusterId := record.clusterId
  canonicalSummary := canonicalSummary
  eventType := record.eventType
  actor := actor
  action := action
  object := object
  affectedAssetIds := assets
  polarity := eventPolarity actions
  contextTags := Cleansing.contextTags actions
  firstSeenAt := (articles.map MemberRow.publishedAt).min?.getD record.firstSeenAt
  lastSeenAt := (articles.map MemberRow.publishedAt).max?.getD record.lastSeenAt
  sources := Cleansing.sources articles
  factConflicts := factConflicts
  extractionMethod := extractionMethod
  llmMetadata := llmMetadata

def buildLocalEvent (record : ClusterRow) (articles : List MemberRow) (actions : List ActionRow) :
    Service reg (EventDetected reg) := do
  let stamp ← ask .newEvent
  match P.resolvedAssets actions record.eventType articles with
  | .error e => .fail e
  | .ok assets =>
    pure (newEventDetected record articles actions stamp assets
      ((articles.head?.map MemberRow.title).getD record.eventType.value)
      (majority (actions.map ActionRow.actor)) (majority (actions.map ActionRow.actionLemma))
      (majority (actions.map ActionRow.object)) [] .localOnly none)

def optStr (value : Option String) : Option String :=
  (value.map P.text.strip).filter (· ≠ "")

def llmMetadataOf (result : LlmResult) : LlmMetadata where
  promptVersion := result.promptVersion
  model := result.model
  contextHash := result.contextHash
  inputTokens := result.inputTokens
  outputTokens := result.outputTokens
  latencyMs := result.latencyMs
  attemptCount := max 1 result.attemptCount
  status := if result.status = "SUCCESS" then .success else .failed
  attempted := Nat.le_max_left 1 _

/-- Build an event with the language model.  What the gateway raises becomes an
`AmbiguousMergeError`. -/
def merge (record : ClusterRow) (articles : List MemberRow) (actions : List ActionRow) :
    Service reg (EventDetected reg) := do
  let result ← (ask (.completeStructured record articles)).catchWith
    fun e => .fail (.ambiguousMerge s!"LLM merge failed: {e.message}")
  let summary := P.text.strip result.canonicalSummary
  if summary = "" then
    .fail (.ambiguousMerge "LLM merge returned an empty canonical_summary")
  else
    let stamp ← ask .newEvent
    match P.resolvedAssets actions record.eventType articles with
    | .error e => .fail e
    | .ok assets =>
      pure (newEventDetected record articles actions stamp assets summary
        (P.optStr result.actor) (P.optStr result.action) (P.optStr result.object)
        (detectFactConflicts actions) .llmAssisted (some (llmMetadataOf result)))

def buildEvent (record : ClusterRow) (articles : List MemberRow) (actions : List ActionRow) :
    Service reg (EventDetected reg) :=
  if detectFactConflicts actions ≠ [] then
    if P.llmMerger then P.merge record articles actions
    else .fail (.ambiguousMerge "ambiguous cluster and no LLM merger configured")
  else P.buildLocalEvent record articles actions

/-- The `except` clause: only an ambiguous merge defers the cluster. -/
def deferMerge (clusterId : Uuid) : CleansingError → Service reg (Option (EventDetected reg))
  | .ambiguousMerge _ => do
    ask (.setClusterState clusterId .errorRetryable)
    pure none
  | e => .fail e

/-- The event of one claimed cluster, or `none` when it is deferred. -/
def eventOrDefer (record : ClusterRow) (articles : List MemberRow) (actions : List ActionRow) :
    Service reg (Option (EventDetected reg)) :=
  ((P.buildEvent record articles actions).bind (fun event => .ret (some event))).catchWith
    (deferMerge record.clusterId)

/-- The loop over the claimed clusters. -/
def closeClusters : List ClusterRow → Nat → Service reg Nat
  | [], produced => pure produced
  | record :: rest, produced => do
    let articles ← ask (.loadClusterArticles record.clusterId)
    let actions ← ask (.loadClusterActions record.clusterId)
    match ← P.eventOrDefer record articles actions with
    | none => closeClusters rest produced
    | some event =>
      ask (.storeEventWithOutbox event)
      closeClusters rest (produced + 1)

def claimAndClose (now : Int) : Service reg Nat := do
  let claimed ← ask (.claimReadyClusters now)
  P.closeClusters claimed 0

/-- Close all due clusters into events. -/
def closeReadyClusters : Service reg Nat := do
  let now ← ask .currentTime
  P.claimAndClose now

end CleansingPipeline

def factsFromMessage (message : ArticleIngested) : ArticleFacts where
  articleId := message.articleId
  sourceId := message.sourceId
  canonicalUrl := message.canonicalUrl
  title := message.title
  body := message.body
  language := message.language
  country := message.country
  publishedAt := message.publishedAt
  correlationId := message.correlationId

/-- How handling an article ends, as its last log line says. -/
inductive ArticleOutcome where
  | replaySkipped
  | nearDuplicateDropped
  | clusterCreated (clusterId : Uuid)
  | clusterJoined (clusterId : Uuid)
  deriving DecidableEq

def microsPerMinute : Int := 60000000

def microsPerHour : Int := 3600000000

namespace CleansingPipeline

variable (P : CleansingPipeline reg)

/-- Create a cluster or join the one that was chosen. -/
def writeAssignment (facts : ArticleFacts) (eventType : EventType) (vector : List Rat)
    (quietAt lifetimeAt : Int) (candidates : List ClusterCandidate) : Service reg ArticleOutcome :=
  match decideAssignment eventType candidates P.settings.similarityThreshold with
  | none => do
    let clusterId ← ask (.createCluster facts eventType vector quietAt lifetimeAt)
    pure (.clusterCreated clusterId)
  | some clusterId => do
    ask (.addArticleToCluster clusterId facts vector quietAt)
    pure (.clusterJoined clusterId)

/-- Look for candidates and assign the article. -/
def assignToCluster (facts : ArticleFacts) (eventType : EventType) (vector : List Rat) :
    Service reg ArticleOutcome := do
  let now ← ask .currentTime
  let quietAt := now + P.settings.quietPeriodMinutes * microsPerMinute
  let lifetimeAt := now + P.settings.maxLifetimeHours * microsPerHour
  if eventType = .other then
    P.writeAssignment facts eventType vector quietAt lifetimeAt []
  else
    let candidates ← ask (.findCandidateClusters vector eventType)
    P.writeAssignment facts eventType vector quietAt lifetimeAt candidates

def storeArticle (facts : ArticleFacts) (fingerprint : Nat) (vector : List Rat)
    (action : ExtractedAction reg) : Service reg ArticleOutcome := do
  ask (.storeFingerprint facts.articleId fingerprint facts.sourceId facts.publishedAt)
  ask (.storeEmbedding facts.articleId vector)
  ask (.storeAction facts.articleId action facts.language)
  P.assignToCluster facts action.eventType vector

/-- The facts that are stored: quality-approved text only. -/
def usableFacts (message : ArticleIngested) : ArticleFacts :=
  let title := P.text.usableTitle message.title
  { factsFromMessage message with
    title := if title = "" then "[unusable title]" else title
    body := P.text.usableBody message.body }

/-- Dedup, embed, extract and assign to a cluster. -/
def processArticle (message : ArticleIngested) : Service reg ArticleOutcome := do
  if ← ask (.articleAlreadyProcessed message.articleId) then
    pure .replaySkipped
  else
    let (title, body) := P.text.prepareInputs message.title message.body
    let text := P.text.usableTitle message.title ++ "\n" ++ P.text.usableBody message.body
    let fingerprint := P.text.simhash text
    let now ← ask .currentTime
    let recent ← ask (.recentFingerprints (now - P.settings.dedupWindowHours * microsPerHour))
    if recent.any (fun existing =>
        isNearDuplicate fingerprint existing P.settings.simhashMaxDistance) then
      pure .nearDuplicateDropped
    else
      let vector ← ask (.embed text)
      let action ← ask (.extract title message.language body message.canonicalUrl)
      P.storeArticle (P.usableFacts message) fingerprint vector action

end CleansingPipeline

/-- A unit of work of the service: an article of the queue, or a sweep. -/
inductive Job where
  | article (message : ArticleIngested)
  | closeSweep

/-- How a job ends. -/
inductive JobResult where
  | article (outcome : ArticleOutcome)
  | produced (events : Nat)
  deriving DecidableEq

def CleansingPipeline.perform (P : CleansingPipeline reg) : Job → Service reg JobResult
  | .article message => (P.processArticle message).bind fun outcome => .ret (.article outcome)
  | .closeSweep => P.closeReadyClusters.bind fun events => .ret (.produced events)

/-- Text is kept as it is; each is one token. -/
def plainText : TextTools where
  usableTitle title := title
  usableBody body := body
  prepareInputs title body := (title, body)
  tokens text := [text]
  featureHash token := 2 ^ token.length - 1
  strip text := text

def plainRepository : CleansingRepository where
  processingVersion := "v1"
  cosineDistance _ _ := 0

/-- No language model, and no assets implied by an event type. -/
def plainPipeline : CleansingPipeline goldRegistry where
  text := plainText
  gatedAssetsForEventType _ _ := []
  llmMerger := false

def plainArticle (articleId : Uuid) (title : String) : ArticleIngested where
  correlationId := articleId
  articleId := articleId
  sourceId := "wire"
  canonicalUrl := "wire/a"
  title := title
  body := ""
  publishedAt := 0
  language := "en"
  country := "GB"

/-- A strait closure, and a new cluster's id. -/
def articleAnswer (clusterId : Uuid) : Answer goldRegistry where
  clusterId := clusterId
  vector := List.replicate embeddingDim 0
  action := { eventType := .straitClosure }

/-- The answers to a sweep a day later. -/
def sweepAnswer (stamp : EventStamp) : Answer goldRegistry where
  now := 24 * microsPerHour
  stamp := stamp

end Cleansing
