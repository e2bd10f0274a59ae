import AllTomorrow.InsertionDict
import AllTomorrow.PythonValues
import AllTomorrow.RaisingState
import AllTomorrow.MachineRuns
import AllTomorrow.DomainRecords
import AllTomorrow.DomainTransitions
import AllTomorrow.SemanticStore
import AllTomorrow.SemanticStoreEffects
import AllTomorrow.SemanticStoreChanges
import AllTomorrow.SemanticStoreIntegrity
import AllTomorrow.SemanticStoreRevisions
import AllTomorrow.ExecutionRefHistory
import AllTomorrow.AutonomousBatch
import AllTomorrow.WorkClaims
import AllTomorrow.OperatorServices
import AllTomorrow.DurableRunBridge
import AllTomorrow.SemanticStoreLifecycle
import AllTomorrow.DurableRunRecovery
import AllTomorrow.DurablePorts
import AllTomorrow.ReconciliationLoop
import AllTomorrow.CrashRecovery
import AllTomorrow.ConcurrentStart
import AllTomorrow.CrashTriples
import AllTomorrow.DbosAdapter
import AllTomorrow.DbosStartWindow
import AllTomorrow.ServiceActions
import AllTomorrow.ExecutorLoop
import AllTomorrow.InterferenceTriples
import AllTomorrow.ServiceRuns
import AllTomorrow.GoalCancellation
import AllTomorrow.TerminalWork
import AllTomorrow.AnsweredWork
import AllTomorrow.ExecutorRequests
import AllTomorrow.CycleOutcome
import AllTomorrow.ResumedRuns
import AllTomorrow.ResumeOnAnswer
import AllTomorrow.KeyedTables
import AllTomorrow.PostgresTables
import AllTomorrow.PostgresStore
import AllTomorrow.PostgresRunEffects
import AllTomorrow.PostgresProcesses
import AllTomorrow.RunRevisionCache
import AllTomorrow.ErrorNormalization
import AllTomorrow.DeliveryReconciler
import AllTomorrow.DeliveryRuns
import AllTomorrow.DeliveryProgress
import AllTomorrow.DeliveryReplay
import AllTomorrow.DeliveryStore
import AllTomorrow.DeliveryIntents
import AllTomorrow.DeliveryConvergence
import AllTomorrow.ApprovalAuthority
import AllTomorrow.ApprovalLaws
import AllTomorrow.PythonObjects
import AllTomorrow.PipelineContracts
import AllTomorrow.IsoTimestamps
import AllTomorrow.RunSnapshots
import AllTomorrow.RunStateStore
import AllTomorrow.SnapshotRoundTrip
import AllTomorrow.PipelineVersions
import AllTomorrow.RunStoreCalls
import AllTomorrow.PipelineDocuments
import AllTomorrow.ResumeTokens
import AllTomorrow.PipelineRuntime
import AllTomorrow.PipelineDrive
import AllTomorrow.StoredDefinitions
import AllTomorrow.SettledRuns
import AllTomorrow.ReplanBudget
import AllTomorrow.DeviceAgent
import AllTomorrow.DeviceTableChanges
import AllTomorrow.LeaseIndex
import AllTomorrow.DeviceOwnership
import AllTomorrow.BrokenWork
import AllTomorrow.AbandonedWork
import AllTomorrow.LeaseCompletion
import AllTomorrow.PostgresDevices
import AllTomorrow.DeviceRevocation
import AllTomorrow.NeedUserCoordinator
import AllTomorrow.AnswerSignals
import AllTomorrow.LateAnswers
import AllTomorrow.ResearcherObservation
import AllTomorrow.ObservedOnce
import AllTomorrow.ResearcherDecisions
import AllTomorrow.ResearcherAuthority
import AllTomorrow.DecisionReplay
import AllTomorrow.ProjectFolders
import AllTomorrow.ProjectChanges
import AllTomorrow.PromotionLaws
import AllTomorrow.ChangeStages
import AllTomorrow.ReviewedFiles
import AllTomorrow.BesidePrograms
import AllTomorrow.OverseerExecution
import AllTomorrow.FilesAndRecords
import AllTomorrow.ImprovementProposals
import AllTomorrow.ImprovementLaws
import AllTomorrow.PromotionTargets
import AllTomorrow.WalkingSkeleton
import AllTomorrow.SkeletonTogether
import AllTomorrow.AttachedRefs
import AllTomorrow.CrashingState
import AllTomorrow.CrashingChange
import AllTomorrow.ChangeRecovery
import AllTomorrow.AutonomousWork
import AllTomorrow.AutonomousBatches
import AllTomorrow.JudgementChecks
import AllTomorrow.AutonomyLimits
import AllTomorrow.WakeProgress
import AllTomorrow.QuestionLifecycle
import AllTomorrow.OutboundMessages
import AllTomorrow.RepairRegister
import AllTomorrow.RepairOnce
import AllTomorrow.FactoryStore
import AllTomorrow.FactoryProfile
import AllTomorrow.FactorySteps
import AllTomorrow.FactoryRun
import AllTomorrow.AnsweredPrograms
import AllTomorrow.FactoryWorld
import AllTomorrow.KilledTopics
import AllTomorrow.DecidedProposals
import AllTomorrow.FactoryStaff
import AllTomorrow.StaffedRoles
import AllTomorrow.CouncilDebate
import AllTomorrow.CouncilPrivacy
import AllTomorrow.ShopPayments
import AllTomorrow.PaymentRecords
import AllTomorrow.ReportRevisions
import AllTomorrow.ReportParts
import AllTomorrow.ArtifactFiles
import AllTomorrow.UploadedArtifacts
import AllTomorrow.AuthSessions
import AllTomorrow.TimestampOrder
import AllTomorrow.WakeBudget
import AllTomorrow.TopicRefusals
import AllTomorrow.IdleResearch
import AllTomorrow.DeliveryOutbox
import AllTomorrow.StartAttempts
import AllTomorrow.LedgerUpdates
import AllTomorrow.MixedEvaluator
import AllTomorrow.ReportChunks
import AllTomorrow.HashedKeys
import AllTomorrow.ReportComposer
import AllTomorrow.SecretRedaction
import AllTomorrow.PipelineReferences
import AllTomorrow.JsonRoundTrip
import AllTomorrow.JsonLexing
import AllTomorrow.ModelReplies
import AllTomorrow.ContestedChange
import AllTomorrow.ForeignFiles
import AllTomorrow.CapabilitySelection
import AllTomorrow.CatchUpPeriods
import AllTomorrow.GraphSearch
import AllTomorrow.OpenWorkIndex
import AllTomorrow.ResourceLedgers
import AllTomorrow.WebhookReceipts
import AllTomorrow.WorkGraphs
import AllTomorrow.WorkerRecords
import AllTomorrow.WorkspaceSources
import AllTomorrow.KeptDecisions
