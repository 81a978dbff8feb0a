import DeviceShell.Lib.Dict
import DeviceShell.Lib.Machine
import DeviceShell.Lib.Value
import DeviceShell.Lib.Versioned
import DeviceShell.Lib.KeyedStore
import DeviceShell.Lib.PyLib
import DeviceShell.Lib.Logged
import DeviceShell.Lib.Stateful
import DeviceShell.Lib.Coroutine
import DeviceShell.Lib.Operators
import DeviceShell.Lib.References
import DeviceShell.Lib.Text
import DeviceShell.Lib.Regex
import DeviceShell.Lib.Fallible
import DeviceShell.Framework.Models
import DeviceShell.Framework.Decisions
import DeviceShell.Framework.Runtime
import DeviceShell.Framework.RuntimeMachine
import DeviceShell.Framework.Sections
import DeviceShell.Framework.Terminal
import DeviceShell.Framework.Fence
import DeviceShell.Framework.DecisionGate
import DeviceShell.Framework.AdvanceEvidence
import DeviceShell.Framework.Resources
import DeviceShell.Framework.ResourceOwners
import DeviceShell.Framework.LeaseAgreement
import DeviceShell.Framework.Expression
import DeviceShell.Framework.Conditions
import DeviceShell.Framework.TaskPlan
import DeviceShell.Framework.TaskInputs
import DeviceShell.Framework.Orchestrator
import DeviceShell.Framework.OrchestratorMachine
import DeviceShell.Framework.Contract
import DeviceShell.Framework.Methods
import DeviceShell.Framework.ChildRuns
import DeviceShell.Framework.ExecRules
import DeviceShell.Framework.TaskSuccess
import DeviceShell.Framework.Course
import DeviceShell.Framework.Revisions
import DeviceShell.Persistence.WorkflowStores
import DeviceShell.Framework.Restart
import DeviceShell.Lib.RegexSearch
import DeviceShell.Lib.Pool
import DeviceShell.Gateway.Idempotency
import DeviceShell.Lib.Redaction
import DeviceShell.Desktop.SecretFilter
import DeviceShell.Desktop.SessionEvents
import DeviceShell.Terminal.PlanParser
import DeviceShell.Activity.TerminalRequest
import DeviceShell.Tasking.CommandRisk
import DeviceShell.Tasking.Plans
import DeviceShell.Tasking.PlanGate
import DeviceShell.Tasking.PlanApproval
import DeviceShell.Huawei.Package
import DeviceShell.Huawei.Parsers
import DeviceShell.Huawei.Cleanup
import DeviceShell.Activity.Execution
import DeviceShell.Activity.DeviceActivity
import DeviceShell.Huawei.Reconcile
import DeviceShell.Huawei.UpgradeWorkflow
import DeviceShell.Huawei.DeviceLog
import DeviceShell.Huawei.Reboot
import DeviceShell.Huawei.ConfirmedUpgrade
import DeviceShell.Studio.Models
import DeviceShell.Studio.DefinitionStores
import DeviceShell.Studio.StoreMirror
import DeviceShell.Studio.StoreAgreement
import DeviceShell.Lib.PyRe
import DeviceShell.Lib.Method
import DeviceShell.Lib.Lending
import DeviceShell.Terminal.Matching
import DeviceShell.Terminal.Runner
import DeviceShell.Terminal.SilentCycles
import DeviceShell.Terminal.BranchTargets
import DeviceShell.Terminal.Timers
import DeviceShell.Terminal.PasswordPrompts
import DeviceShell.Terminal.RunnerMoves
import DeviceShell.Terminal.RunnerProgress
import DeviceShell.Terminal.RunnerLifecycle
import DeviceShell.Terminal.Coordinator
import DeviceShell.Terminal.SessionLeases
import DeviceShell.Huawei.CleanupPlan
import DeviceShell.Persistence.EventStores
import DeviceShell.Persistence.RunRecords
import DeviceShell.Framework.DecisionWrites
import DeviceShell.Activity.Executor
import DeviceShell.Framework.ResumeFromStep
import DeviceShell.Lib.AsyncLock
import DeviceShell.Activity.DeviceForEach
import DeviceShell.Activity.DeviceScheduling
import DeviceShell.Activity.LoopBodies
import DeviceShell.Activity.LoopAgreement
import DeviceShell.Framework.RichValues
import DeviceShell.Huawei.Probe
import DeviceShell.Huawei.TopologyDecision
import DeviceShell.Lib.RegexCaptures
import DeviceShell.Lib.Numerals
import DeviceShell.Huawei.ParserTotality
import DeviceShell.Huawei.ArtifactVerification
import DeviceShell.Lib.Headers
import DeviceShell.Huawei.StorageScope
import DeviceShell.Huawei.TransferReconcile
import DeviceShell.Lib.ObjectHeap
import DeviceShell.Ai.Results
import DeviceShell.Ai.StoredResults
import DeviceShell.Ai.ParallelBatches
import DeviceShell.Tasking.PlanOrder
import DeviceShell.Tasking.PlanAgreement
import DeviceShell.Tasking.TaskService
import DeviceShell.Framework.RuleResults
import DeviceShell.Studio.RoundTrips
import DeviceShell.Studio.Validation
import DeviceShell.Studio.Portable
import DeviceShell.Studio.DeviceLoops
import DeviceShell.Studio.LoopChains
import DeviceShell.Studio.LoopOwnership
import DeviceShell.Studio.PublishedDependencies
import DeviceShell.Lib.CommandLine
import DeviceShell.Transfers.Paths
import DeviceShell.Transfers.Steps
import DeviceShell.Transfers.CommandLines
import DeviceShell.Lib.Saturation
import DeviceShell.Tasking.WorkflowEngine
import DeviceShell.Tasking.EngineOrder
import DeviceShell.Framework.JsonInputs
import DeviceShell.Transfers.ServiceLifecycle
import DeviceShell.Transfers.IdleStop
import DeviceShell.Tasking.TaskCreation
import DeviceShell.Lib.Incremental
import DeviceShell.Lib.Utf8
import DeviceShell.Telnet.Session
import DeviceShell.Telnet.Chunking
import DeviceShell.Telnet.Framing
import DeviceShell.Devices.ImportParser
import DeviceShell.Devices.ImportIsolation
import DeviceShell.Lib.MarkedTexts
import DeviceShell.Lib.ValueTexts
import DeviceShell.Framework.Templates
import DeviceShell.Framework.Passes
import DeviceShell.Activity.LoopTemplates
import DeviceShell.Mcp.Approvals
import DeviceShell.Mcp.ApprovedActions
import DeviceShell.Mcp.ApprovalRecords
import DeviceShell.Lib.RecentlyUsed
import DeviceShell.Gateway.ResultStore
import DeviceShell.Gateway.ResultRetention
import DeviceShell.Gateway.FlowPlan
import DeviceShell.Gateway.FlowEngine
import DeviceShell.Gateway.FlowBounds
import DeviceShell.Lib.GraphSplice
import DeviceShell.Studio.Expansion
import DeviceShell.Studio.ExpansionOrder
import DeviceShell.Studio.ExpansionPlaces
import DeviceShell.Studio.AcceptedGraphs
import DeviceShell.Lib.CycleSearch
import DeviceShell.Studio.ExpansionRun
import DeviceShell.Transfers.TransferQueue
import DeviceShell.Transfers.QueueDisplay
import DeviceShell.Transfers.QueueOrder
import DeviceShell.Lib.Layering
import DeviceShell.Framework.PlanSchedule
import DeviceShell.Lib.Worklist
import DeviceShell.Studio.StepSelection
import DeviceShell.Framework.Supervision
