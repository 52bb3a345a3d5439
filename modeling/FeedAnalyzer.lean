import FeedAnalyzer.TransactionProc
import FeedAnalyzer.InterleavedRun
import FeedAnalyzer.RowTable
import FeedAnalyzer.Binary64
import FeedAnalyzer.AssetRegistry
import FeedAnalyzer.Messages
import FeedAnalyzer.MarketCalendar
import FeedAnalyzer.VerificationStore
import FeedAnalyzer.VerificationPipeline
import FeedAnalyzer.WithdrawalOrder
import FeedAnalyzer.WithdrawalRace
import FeedAnalyzer.CleansingPipeline
import FeedAnalyzer.ExclusiveClaim
import FeedAnalyzer.CleansingEffects
import FeedAnalyzer.CleansingCalls
import FeedAnalyzer.ClusterLifecycle
import FeedAnalyzer.ArticleAssignment
import FeedAnalyzer.PredictionDecision
import FeedAnalyzer.PredictionStore
import FeedAnalyzer.PredictionPipeline
import FeedAnalyzer.PredictionEffects
import FeedAnalyzer.PredictionCalls
import FeedAnalyzer.ContextClosing
import FeedAnalyzer.ContextClaims
import FeedAnalyzer.EventRedelivery
import FeedAnalyzer.StanceRules
import FeedAnalyzer.StanceRuns
import FeedAnalyzer.StanceManagement
import FeedAnalyzer.StanceSessions
import FeedAnalyzer.DeliveryCrashes
import FeedAnalyzer.RegistryLoader
import FeedAnalyzer.CausalGraph
import FeedAnalyzer.CredibilityStore
import FeedAnalyzer.CredibilityPipeline
import FeedAnalyzer.CreditEffects
import FeedAnalyzer.DeadLetters
import FeedAnalyzer.CreditRouting
import FeedAnalyzer.MarketDataStore
import FeedAnalyzer.RetryBackoff
import FeedAnalyzer.MarketDataPipeline
import FeedAnalyzer.RequestLifecycle
import FeedAnalyzer.ConformingProc
import FeedAnalyzer.MarketDataCalls
import FeedAnalyzer.PublishedCloses
import FeedAnalyzer.AttemptOutcome
import FeedAnalyzer.SchedulerTick
import FeedAnalyzer.RequestSettlement
import FeedAnalyzer.RequestProgress
import FeedAnalyzer.BrowserAdapter
import FeedAnalyzer.GatewayStore
import FeedAnalyzer.GatewayBridge
import FeedAnalyzer.GatewayEngine
import FeedAnalyzer.OwnedTokens
import FeedAnalyzer.GatewayEffects
import FeedAnalyzer.AttemptOwnership
import FeedAnalyzer.GatewayRuns
import FeedAnalyzer.SlotRelease
import FeedAnalyzer.CommandTurns
import FeedAnalyzer.ResultHandling
import FeedAnalyzer.LateResults
import FeedAnalyzer.ReleasingResults
import FeedAnalyzer.BodyFetcher
import FeedAnalyzer.OutboxRelay
import FeedAnalyzer.OutboxDelivery
import FeedAnalyzer.SourceAdapters
import FeedAnalyzer.SnapshotStore
import FeedAnalyzer.SnapshotWorker
import FeedAnalyzer.SnapshotJobs
import FeedAnalyzer.SnapshotCooldown
import FeedAnalyzer.IntradayBars
import FeedAnalyzer.IntradayCollector
import FeedAnalyzer.GuidedRun
import FeedAnalyzer.IntradayStreams
import FeedAnalyzer.IntradayRevisions
import FeedAnalyzer.DecisionLaws
import FeedAnalyzer.CreditStages
import FeedAnalyzer.ContextVersions
import FeedAnalyzer.ContextEdges
import FeedAnalyzer.PredictionEvidence
import FeedAnalyzer.PropagationChains
import FeedAnalyzer.QuietRun
import FeedAnalyzer.ResearchCapture
import FeedAnalyzer.ClusterSweep
import FeedAnalyzer.ConcurrentCredit
import FeedAnalyzer.IngestionPipeline
import FeedAnalyzer.MessageRetries
import FeedAnalyzer.OutcomeWeights
import FeedAnalyzer.PriceReader
import FeedAnalyzer.CloseReads
import FeedAnalyzer.StructureLearner
import FeedAnalyzer.CircuitRuns
import FeedAnalyzer.CacheKeys
import FeedAnalyzer.ToolProtocol
import FeedAnalyzer.CompanyKeywords
import FeedAnalyzer.MergePrompt
import FeedAnalyzer.LlmGateway
import FeedAnalyzer.CredibleInterval
import FeedAnalyzer.PredictionLedger
