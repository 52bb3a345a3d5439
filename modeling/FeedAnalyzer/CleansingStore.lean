import FeedAnalyzer.Messages
import FeedAnalyzer.TransactionProc

/-!
# The Cleansing database

The tables of the `cleansing` schema, and the repository methods as transactions.
`claim_ready_clusters` looks at `OPEN` and `QUIET` clusters only, while
`add_article_to_cluster` writes `OPEN` whatever the state was.
-/

namespace Cleansing

open Feed Transact

inductive ClusterState where
  | opened | quiet | ready | merging | merged | errorRetryable | errorTerminal
  deriving DecidableEq

def ClusterState.acceptsArticles : ClusterState → Bool
  | .opened => true
  | .quiet => true
  | _ => false

/-- Normalised fields of an article. -/
structure ArticleFacts where
  articleId : Uuid
  sourceId : String
  canonicalUrl : String
  title : String
  body : String
  language : String
  country : String
  publishedAt : Int
  correlationId : Uuid

/-- What local extraction says about an article. -/
structure ExtractedAction (reg : Registry) where
  actor : Option String := none
  actionLemma : Option String := none
  object : Option String := none
  originalLemma : Option String := none
  eventType : EventType
  affectedAssetIds : List (AssetId reg) := []
  polarity : EventPolarity := .occurrence
  contextTags : List ConditionCode := []

structure FingerprintRow where
  articleId : Uuid
  simhash : Nat
  sourceId : String
  publishedAt : Int
  processingVersion : String

structure EmbeddingRow where
  articleId : Uuid
  embedding : List Rat
  processingVersion : String

/-- A row of `article_actions`; assets are plain text here. -/
structure ActionRow where
  articleId : Uuid
  actor : Option String
  actionLemma : Option String
  object : Option String
  originalLemma : Option String
  eventType : EventType
  language : String
  affectedAssetIds : List String
  polarity : EventPolarity
  contextTags : List ConditionCode

structure ClusterRow where
  clusterId : Uuid
  eventType : EventType
  state : ClusterState
  articleCount : Nat
  firstSeenAt : Int
  lastSeenAt : Int
  quietDeadline : Int
  lifetimeDeadline : Int
  centroid : List Rat
  processingVersion : String

def ClusterRow.withState (row : ClusterRow) (state : ClusterState) : ClusterRow :=
  { row with state := state }

@[simp] theorem ClusterRow.clusterId_withState (row : ClusterRow) (state : ClusterState) :
    (row.withState state).clusterId = row.clusterId := rfl

@[simp] theorem ClusterRow.state_withState (row : ClusterRow) (state : ClusterState) :
    (row.withState state).state = state := rfl

/-- A row of `cluster_articles`. -/
structure MemberRow where
  clusterId : Uuid
  articleId : Uuid
  title : String
  sourceId : String
  canonicalUrl : String
  publishedAt : Int
  correlationId : Uuid

def MemberRow.key (row : MemberRow) : Uuid × Uuid := (row.clusterId, row.articleId)

/-- A row of `events`. -/
structure EventRow (reg : Registry) where
  eventId : Uuid
  clusterId : Uuid
  payload : EventDetected reg

/-- A row of `outbox_events`. -/
structure OutboxRow (reg : Registry) where
  messageId : Uuid
  aggregateId : Uuid
  payload : EventDetected reg

/-- The tables.  An event's cluster is unique besides its id. -/
structure Store (reg : Registry) where
  fingerprints : Table FingerprintRow.articleId
  embeddings : Table EmbeddingRow.articleId
  actions : Table ActionRow.articleId
  clusters : Table ClusterRow.clusterId
  members : Table MemberRow.key
  events : Table (@EventRow.eventId reg)
  eventCluster_nodup : (events.rows.map EventRow.clusterId).Nodup
  outbox : Table (@OutboxRow.messageId reg)

instance {reg : Registry} : EmptyCollection (Store reg) where
  emptyCollection := ⟨∅, ∅, ∅, ∅, ∅, ∅, List.nodup_nil, ∅⟩

/-- A cluster a new article might join. -/
structure ClusterCandidate where
  clusterId : Uuid
  eventType : EventType
  similarity : Rat

inductive CleansingError where
  | embeddingUnavailable (message : String)
  | extraction (message : String)
  | ambiguousMerge (message : String)
  | valueError (message : String)
  | gateway (message : String)
  | uniqueViolation (constraint : String)
  | foreignKeyViolation (constraint : String)
  | database (message : String)
  deriving DecidableEq

/-- The text of an exception. -/
def CleansingError.message : CleansingError → String
  | .embeddingUnavailable message => message
  | .extraction message => message
  | .ambiguousMerge message => message
  | .valueError message => message
  | .gateway message => message
  | .uniqueViolation constraint => constraint
  | .foreignKeyViolation constraint => constraint
  | .database message => message

/-- `EMBEDDING_DIM`, the dimension of every vector column. -/
def embeddingDim : Nat := 1024

/-- The running mean of a centroid and one more vector. -/
def updateCentroid (centroid : List Rat) (articleCount : Nat) (newVector : List Rat) :
    Except CleansingError (List Rat) :=
  if centroid = [] then .ok newVector
  else if centroid.length ≠ newVector.length then
    .error (.valueError "centroid and new vector must have equal length")
  else
    .ok (List.zipWith
      (fun existing incoming => (existing * articleCount + incoming) / (articleCount + 1))
      centroid newVector)

/-- The repository's settings, and pgvector's distance `<=>`. -/
structure CleansingRepository where
  processingVersion : String
  cosineDistance : List Rat → List Rat → Rat

namespace Store

variable {reg : Registry}

def articleAlreadyProcessed (articleId : Uuid) (s : Store reg) :
    Except CleansingError (Bool × Store reg) :=
  .ok (s.fingerprints.has articleId, s)

def recentFingerprints (repo : CleansingRepository) (since : Int) (s : Store reg) :
    Except CleansingError (List Nat × Store reg) :=
  .ok ((s.fingerprints.rows.filter (fun row =>
    since ≤ row.publishedAt ∧ row.processingVersion = repo.processingVersion)).map
      FingerprintRow.simhash, s)

def storeFingerprint (repo : CleansingRepository) (articleId : Uuid) (simhash : Nat)
    (sourceId : String) (publishedAt : Int) (s : Store reg) :
    Except CleansingError (Unit × Store reg) :=
  .ok ((), { s with
    fingerprints := s.fingerprints.insertNew
      { articleId, simhash, sourceId, publishedAt,
        processingVersion := repo.processingVersion } })

/-- The column takes vectors of one dimension only. -/
def storeEmbedding (repo : CleansingRepository) (articleId : Uuid) (vector : List Rat)
    (s : Store reg) : Except CleansingError (Unit × Store reg) :=
  if vector.length ≠ embeddingDim then .error (.database "expected 1024 dimensions")
  else
    .ok ((), { s with
      embeddings := s.embeddings.insertNew
        { articleId, embedding := vector, processingVersion := repo.processingVersion } })

def storeAction (articleId : Uuid) (action : ExtractedAction reg) (language : String)
    (s : Store reg) : Except CleansingError (Unit × Store reg) :=
  .ok ((), { s with
    actions := s.actions.insertNew
      { articleId
        actor := action.actor
        actionLemma := action.actionLemma
        object := action.object
        originalLemma := action.originalLemma
        eventType := action.eventType
        language
        affectedAssetIds := action.affectedAssetIds.map AssetId.value
        polarity := action.polarity
        contextTags := action.contextTags } })

/-- Nearest clusters of the same type that take articles. -/
def findCandidateClusters (repo : CleansingRepository) (tie : Uuid → Nat) (vector : List Rat)
    (eventType : EventType) (s : Store reg) :
    Except CleansingError (List ClusterCandidate × Store reg) :=
  .ok ((selectOrdered (fun row => row.state.acceptsArticles ∧ row.eventType = eventType ∧
        row.processingVersion = repo.processingVersion)
      (fun row => repo.cosineDistance row.centroid vector)
      (fun row => tie row.clusterId) 5 s.clusters.rows).map
    (fun row =>
      { clusterId := row.clusterId
        eventType := row.eventType
        similarity := 1 - repo.cosineDistance row.centroid vector }), s)

def memberRow (clusterId : Uuid) (facts : ArticleFacts) : MemberRow where
  clusterId := clusterId
  articleId := facts.articleId
  title := facts.title
  sourceId := facts.sourceId
  canonicalUrl := facts.canonicalUrl
  publishedAt := facts.publishedAt
  correlationId := facts.correlationId

/-- Open a new cluster, under an id just drawn, with one article. -/
def createCluster (repo : CleansingRepository) (clusterId : Uuid) (facts : ArticleFacts)
    (eventType : EventType) (vector : List Rat) (quietDeadline lifetimeDeadline : Int)
    (s : Store reg) : Except CleansingError (Uuid × Store reg) :=
  if s.clusters.has clusterId then .error (.uniqueViolation "event_clusters_pkey")
  else if vector.length ≠ embeddingDim then .error (.database "expected 1024 dimensions")
  else
    .ok (clusterId, { s with
      clusters := s.clusters.insertNew
        { clusterId, eventType
          state := .opened
          articleCount := 1
          firstSeenAt := facts.publishedAt
          lastSeenAt := facts.publishedAt
          quietDeadline, lifetimeDeadline
          centroid := vector
          processingVersion := repo.processingVersion }
      members := s.members.insertNew (memberRow clusterId facts) })

def joinedRow (facts : ArticleFacts) (quietDeadline : Int) (centroid : List Rat)
    (row : ClusterRow) : ClusterRow :=
  { row with
    articleCount := row.articleCount + 1
    lastSeenAt := facts.publishedAt
    quietDeadline := quietDeadline
    centroid := centroid
    state := .opened }

@[simp] theorem clusterId_joinedRow (facts : ArticleFacts) (quietDeadline : Int)
    (centroid : List Rat) (row : ClusterRow) :
    (joinedRow facts quietDeadline centroid row).clusterId = row.clusterId := rfl

@[simp] theorem state_joinedRow (facts : ArticleFacts) (quietDeadline : Int) (centroid : List Rat)
    (row : ClusterRow) : (joinedRow facts quietDeadline centroid row).state = .opened := rfl

/-- Add an article, resetting the quiet timer and writing `OPEN`. -/
def addArticleToCluster (clusterId : Uuid) (facts : ArticleFacts) (articleVector : List Rat)
    (quietDeadline : Int) (s : Store reg) : Except CleansingError (Unit × Store reg) :=
  match s.clusters.find? clusterId with
  | none => .ok ((), s)
  | some row =>
    match updateCentroid row.centroid row.articleCount articleVector with
    | .error e => .error e
    | .ok newCentroid =>
      .ok ((), { s with
        clusters := s.clusters.updateWhere (fun r => r.clusterId = clusterId)
          (joinedRow facts quietDeadline newCentroid)
          (clusterId_joinedRow facts quietDeadline newCentroid)
        members := s.members.insertNew (memberRow clusterId facts) })

/-- `UPDATE event_clusters SET state = … WHERE p`. -/
def setStateWhere (s : Store reg) (p : ClusterRow → Bool) (state : ClusterState) : Store reg :=
  { s with
    clusters := s.clusters.updateWhere p (fun row => row.withState state)
      (fun row => row.clusterId_withState state) }

/-- The quiet period or the lifetime has passed. -/
def dueAt (now : Int) (row : ClusterRow) : Bool :=
  row.state.acceptsArticles ∧ (row.quietDeadline ≤ now ∨ row.lifetimeDeadline ≤ now)

/-- At most twenty due clusters, the longest quiet first, and none that is locked. -/
def dueClusters (tie : Uuid → Nat) (locked : Uuid → Bool) (now : Int) (s : Store reg) :
    List ClusterRow :=
  selectOrdered (fun row => dueAt now row ∧ locked row.clusterId = false)
    ClusterRow.quietDeadline (fun row => tie row.clusterId) 20 s.clusters.rows

/-- Make the due clusters `MERGING` and return them. -/
def claimReadyClusters (tie : Uuid → Nat) (locked : Uuid → Bool) (now : Int) (s : Store reg) :
    Except CleansingError (List ClusterRow × Store reg) :=
  let rows := dueClusters tie locked now s
  .ok (rows.map (fun row => row.withState .merging),
    s.setStateWhere (fun row => rows.any (fun r => r.clusterId = row.clusterId)) .merging)

def loadClusterArticles (tie : Uuid → Nat) (clusterId : Uuid) (s : Store reg) :
    Except CleansingError (List MemberRow × Store reg) :=
  .ok (selectOrdered (fun row => row.clusterId = clusterId) MemberRow.publishedAt
    (fun row => tie row.articleId) s.members.rows.length s.members.rows, s)

/-- The actions of the cluster's articles, in any order. -/
def loadClusterActions (tie : Uuid → Nat) (clusterId : Uuid) (s : Store reg) :
    Except CleansingError (List ActionRow × Store reg) :=
  .ok (selectOrdered (fun row => s.members.has (clusterId, row.articleId)) (fun _ => (0 : Nat))
    (fun row => tie row.articleId) s.actions.rows.length s.actions.rows, s)

def setClusterState (clusterId : Uuid) (state : ClusterState) (s : Store reg) :
    Except CleansingError (Unit × Store reg) :=
  .ok ((), s.setStateWhere (fun row => row.clusterId = clusterId) state)

/-- The outbox row and the `MERGED` mark. -/
def enqueueEvent (event : EventDetected reg) (s : Store reg) : Store reg :=
  { s.setStateWhere (fun row => row.clusterId = event.clusterId) .merged with
    outbox := s.outbox.insertNew
      { messageId := event.messageId, aggregateId := event.eventId, payload := event } }

/-- Store the event, unless its cluster has one, and its outbox row, and mark the cluster
`MERGED`. -/
def storeEventWithOutbox (event : EventDetected reg) (s : Store reg) :
    Except CleansingError (Unit × Store reg) :=
  if hcluster : s.events.rows.any (fun row => row.clusterId = event.clusterId) = true then
    .ok ((), s.enqueueEvent event)
  else if s.events.has event.eventId then .error (.uniqueViolation "events_pkey")
  else if s.clusters.has event.clusterId = false then
    .error (.foreignKeyViolation "events_cluster_id_fkey")
  else
    .ok ((), enqueueEvent event { s with
      events := s.events.insertNew
        { eventId := event.eventId, clusterId := event.clusterId, payload := event }
      eventCluster_nodup := by
        apply Table.nodup_map_insertNew s.eventCluster_nodup
        intro row hrow heq
        exact hcluster (List.any_eq_true.mpr ⟨row, hrow, decide_eq_true heq⟩) })

end Store

/-- What the language model's gateway returns. -/
structure LlmResult where
  canonicalSummary : String := ""
  actor : Option String := none
  action : Option String := none
  object : Option String := none
  promptVersion : String := ""
  model : String := ""
  contextHash : String := ""
  inputTokens : Nat := 0
  outputTokens : Nat := 0
  latencyMs : Nat := 0
  attemptCount : Nat := 1
  status : String := "SUCCESS"

/-- The ids and the clock of a new event. -/
structure EventStamp where
  messageId : Uuid := 0
  eventId : Uuid := 0
  correlationId : Uuid := 0
  now : Int := 0

inductive Call (reg : Registry) where
  | articleAlreadyProcessed (articleId : Uuid)
  | recentFingerprints (since : Int)
  | storeFingerprint (articleId : Uuid) (simhash : Nat) (sourceId : String) (publishedAt : Int)
  | storeEmbedding (articleId : Uuid) (vector : List Rat)
  | storeAction (articleId : Uuid) (action : ExtractedAction reg) (language : String)
  | findCandidateClusters (vector : List Rat) (eventType : EventType)
  | createCluster (facts : ArticleFacts) (eventType : EventType) (vector : List Rat)
      (quietDeadline lifetimeDeadline : Int)
  | addArticleToCluster (clusterId : Uuid) (facts : ArticleFacts) (articleVector : List Rat)
      (quietDeadline : Int)
  | claimReadyClusters (now : Int)
  | loadClusterArticles (clusterId : Uuid)
  | loadClusterActions (clusterId : Uuid)
  | setClusterState (clusterId : Uuid) (state : ClusterState)
  | storeEventWithOutbox (event : EventDetected reg)
  | currentTime
  | embed (text : String)
  | extract (title language body canonicalUrl : String)
  | completeStructured (record : ClusterRow) (articles : List MemberRow)
  | newEvent

@[reducible] def Call.Ret {reg : Registry} : Call reg → Type
  | .articleAlreadyProcessed _ => Bool
  | .recentFingerprints _ => List Nat
  | .storeFingerprint _ _ _ _ => Unit
  | .storeEmbedding _ _ => Unit
  | .storeAction _ _ _ => Unit
  | .findCandidateClusters _ _ => List ClusterCandidate
  | .createCluster _ _ _ _ _ => Uuid
  | .addArticleToCluster _ _ _ _ => Unit
  | .claimReadyClusters _ => List ClusterRow
  | .loadClusterArticles _ => List MemberRow
  | .loadClusterActions _ => List ActionRow
  | .setClusterState _ _ => Unit
  | .storeEventWithOutbox _ => Unit
  | .currentTime => Int
  | .embed _ => List Rat
  | .extract _ _ _ _ => ExtractedAction reg
  | .completeStructured _ _ => LlmResult
  | .newEvent => EventStamp

@[reducible] def Surroundings (reg : Registry) : Interface where
  Call := Call reg
  Ret := Call.Ret

abbrev Service (reg : Registry) (α : Type) : Type := Proc (Surroundings reg) CleansingError α

abbrev ask {reg : Registry} (c : Call reg) : Service reg c.Ret :=
  Proc.perform (I := Surroundings reg) c

theorem ask_bind {reg : Registry} {β : Type} (c : Call reg) (f : c.Ret → Service reg β) :
    (ask c).bind f = .call c (Proc.onOk f) :=
  Proc.perform_bind (I := Surroundings reg) c f

/-- A fault, or what the call asks for.  `tie` orders rows that `ORDER BY` leaves equal, and
`locked` are rows of other transactions. -/
structure Answer (reg : Registry) where
  fault : Option String := none
  now : Int := 0
  clusterId : Uuid := 0
  vector : List Rat := []
  action : ExtractedAction reg := { eventType := .other }
  llm : LlmResult := {}
  stamp : EventStamp := {}
  tie : Uuid → Nat := fun _ => 0
  locked : Uuid → Bool := fun _ => false

/-- Run one call. -/
def handle {reg : Registry} (repo : CleansingRepository) :
    Handler (Surroundings reg) (Store reg) (Answer reg) CleansingError :=
  fun w c s =>
    match c with
    | .articleAlreadyProcessed articleId =>
      commit (w.fault.map .database) (Store.articleAlreadyProcessed articleId) s
    | .recentFingerprints since =>
      commit (w.fault.map .database) (Store.recentFingerprints repo since) s
    | .storeFingerprint articleId simhash sourceId publishedAt =>
      commit (w.fault.map .database)
        (Store.storeFingerprint repo articleId simhash sourceId publishedAt) s
    | .storeEmbedding articleId vector =>
      commit (w.fault.map .database) (Store.storeEmbedding repo articleId vector) s
    | .storeAction articleId action language =>
      commit (w.fault.map .database) (Store.storeAction articleId action language) s
    | .findCandidateClusters vector eventType =>
      commit (w.fault.map .database) (Store.findCandidateClusters repo w.tie vector eventType) s
    | .createCluster facts eventType vector quietDeadline lifetimeDeadline =>
      commit (w.fault.map .database)
        (Store.createCluster repo w.clusterId facts eventType vector quietDeadline
          lifetimeDeadline) s
    | .addArticleToCluster clusterId facts articleVector quietDeadline =>
      commit (w.fault.map .database)
        (Store.addArticleToCluster clusterId facts articleVector quietDeadline) s
    | .claimReadyClusters now =>
      commit (w.fault.map .database) (Store.claimReadyClusters w.tie w.locked now) s
    | .loadClusterArticles clusterId =>
      commit (w.fault.map .database) (Store.loadClusterArticles w.tie clusterId) s
    | .loadClusterActions clusterId =>
      commit (w.fault.map .database) (Store.loadClusterActions w.tie clusterId) s
    | .setClusterState clusterId state =>
      commit (w.fault.map .database) (Store.setClusterState clusterId state) s
    | .storeEventWithOutbox event =>
      commit (w.fault.map .database) (Store.storeEventWithOutbox event) s
    | .currentTime => (.ok w.now, s)
    | .embed _ => commit (w.fault.map .embeddingUnavailable) (fun s => .ok (w.vector, s)) s
    | .extract _ _ _ _ => commit (w.fault.map .extraction) (fun s => .ok (w.action, s)) s
    | .completeStructured _ _ => commit (w.fault.map .gateway) (fun s => .ok (w.llm, s)) s
    | .newEvent => (.ok w.stamp, s)

end Cleansing
