import DeviceShell.Framework.Orchestrator
import DeviceShell.Framework.Sections
import DeviceShell.Tasking.Plans

/-!
# The task service

`TaskService` of `application/tasking/task_service.py`, as far as a task is created: the plan of a
request, `create` and `start_plan`, and the record that the compatibility clients read. The methods
run on the `World` of the orchestrator and on the service's own dictionaries; an exception leaves
what was changed before it.

What may raise from outside is a part of the service: the task store, the backend that keeps the
records, the event bus and the registry of workflows.
-/

namespace DeviceShell.Tasking

open Framework (TaskPlan WorkflowNode TaskRun TaskRunStatus World Orchestrator)

/-! ## Requests -/

/-- `DeviceTarget`. -/
structure DeviceTarget where
  deviceId : String := ""
  sessionId : String := ""
  protocol : String := "auto"

/-- `TaskCreate`. -/
structure TaskCreate where
  workflow : WorkflowDefinition
  target : DeviceTarget
  source : String := "unknown"
  context : Dict String Value := ∅
  frameworkPlan : Option TaskPlan := none

section

variable [PyLib]

/-- `a or b or ...`, of which the last is the default of the caller. -/
def firstTruthy (values : List (Option Value)) : Option Value :=
  values.findSome? fun value => value.filter Value.truthy

/-- `dict(a or b or {})`. -/
def dictOf (values : List (Option Value)) : Except PyError (Dict String Value) :=
  ((firstTruthy values).getD (.dict [])).toDict

/-- `str(a or b or default)`. -/
def textOf (values : List (Option Value)) (default : String) : String :=
  ((firstTruthy values).map Value.pyStr).getD default

/-- `WorkflowNode.from_dict`. -/
def nodeOfDict (payload : Dict String Value) : Except PyError WorkflowNode := do
  let dependsOn ← ((payload.get? "depends_on").getD (.list [])).iter
  let inputMapping ← dictOf [payload.get? "input_mapping", payload.get? "inputs"]
  let runIf ← dictOf [payload.get? "run_if"]
  let retryPolicy ← dictOf [payload.get? "retry_policy"]
  let repeatPolicy ← dictOf [payload.get? "repeat_policy", payload.get? "repeat"]
  let group := strip (textOf [payload.get? "parallel_group"] "")
  return {
    id := textOf [payload.get? "id"] ""
    workflowId := textOf [payload.get? "workflow_id", payload.get? "workflow"] ""
    dependsOn := (dependsOn.map Value.pyStr).filter (· ≠ "")
    inputMapping := inputMapping
    version := textOf [payload.get? "version"] "1"
    runIf := if runIf.entries.isEmpty then none else some runIf
    retryPolicy := retryPolicy
    repeatPolicy := repeatPolicy
    parallelGroup := if group = "" then none else some group }

/-- `TaskPlan.from_dict`. -/
def planOfDict (payload : Dict String Value) : Except PyError TaskPlan := do
  let rawNodes ← ((firstTruthy [payload.get? "nodes", payload.get? "workflows"]).getD
    (.list [])).iter
  return {
    id := textOf [payload.get? "id", payload.get? "plan_id"] ""
    version := textOf [payload.get? "version"] "1"
    nodes := ← (rawNodes.filterMap Value.asDict?).mapM nodeOfDict }

/-- `action_to_workflow`. -/
def actionWorkflows : Dict String String :=
  ⟨[("command", "terminal.command"), ("batch", "terminal.batch"), ("reboot", "device.reboot"),
    ("wait_online", "device.wait_online"), ("verify_version", "device.verify_version")]⟩

/-- The node of a step of a legacy workflow, where there is one. -/
def legacyNode (step : WorkflowStep) : Option WorkflowNode := do
  let workflowId ← actionWorkflows.get? (PyLib.casefold (strip step.action.name))
  let params := step.action.parameters.merge step.params
  let allowed := match workflowId, params.get? "command", params.get? "commands" with
    | "terminal.command", some (.str command), _ => !isBlank command
    | "terminal.command", _, _ => false
    | "terminal.batch", _, some (.list commands) => !commands.isEmpty
    | "terminal.batch", _, _ => false
    | _, _, _ => true
  if strip step.id = "" ∨ allowed = false then none
  else some {
    id := strip step.id
    workflowId := workflowId
    dependsOn := step.dependsOn.filter (· ≠ "")
    inputMapping := params }

/-- `_legacy_workflow_task_plan`. -/
def legacyWorkflowTaskPlan (workflow : WorkflowDefinition) : Option TaskPlan := do
  let nodes ← workflow.steps.mapM legacyNode
  let plan : TaskPlan := {
    id := "legacy-workflow:" ++ if workflow.id = "" then "workflow" else workflow.id
    version := if workflow.version = "" then "1" else workflow.version
    nodes := nodes }
  if nodes.isEmpty ∨ ¬ (nodes.map (·.id)).Nodup then none
  else if plan.validate.isOk then some plan
  else none

/-! ## Records -/

/-- The view of a workflow for the clients, without its labels and descriptions. -/
structure WorkflowView where
  id : String := ""
  version : String := ""
  name : String := ""
  outputs : List Value := []
  states : List String := []

/-- `TaskRecord`, as a projection fills it; the result repeats some of its fields. -/
structure TaskRecord where
  id : String
  status : String
  workflowId : String
  deviceId : String
  sessionId : String
  source : String
  progressPercent : ℕ
  currentStepId : String
  errorCode : String
  message : String
  outputs : Dict String Value
  workflowView : WorkflowView
  planId : String
  planHash : String
  parentTaskId : String
  planRevision : ℤ

/-- The fields of a record, by which two records are compared. -/
def TaskRecord.toValue (record : TaskRecord) : Value :=
  .list [.str record.id, .str record.status, .str record.workflowId, .str record.deviceId,
    .str record.sessionId, .str record.source, .int record.progressPercent,
    .str record.currentStepId, .str record.errorCode, .str record.message,
    .ofDict record.outputs, .str record.workflowView.id, .str record.workflowView.version,
    .str record.workflowView.name, .list record.workflowView.outputs,
    .list (record.workflowView.states.map .str), .str record.planId, .str record.planHash,
    .str record.parentTaskId, .int record.planRevision]

/-- `_STATUS_MAP`. -/
def recordStatus : TaskRunStatus → String
  | .created => "pending"
  | .running => "running"
  | .waitingChild => "running"
  | .waitingDecision => "waiting_for_decision"
  | .waitingReconcile => "paused"
  | .unknown => "paused"
  | .succeeded => "completed"
  | .failed => "failed"
  | .cancelled => "cancelled"

/-- `TaskRunProjector._message`. -/
def statusMessage : TaskRunStatus → String
  | .created => "Task queued."
  | .running => "Task running."
  | .waitingChild => "Task waiting for child workflow."
  | .waitingDecision => "Task waiting for decision."
  | .waitingReconcile => "Task waiting for reconciliation."
  | .unknown => "Task outcome is unknown."
  | .succeeded => "Task completed."
  | .failed => "Task failed."
  | .cancelled => "Task cancelled."

/-- `_session_from_run_outputs`. -/
def sessionFromOutputs (outputs : Dict String Value) : String :=
  (outputs.values.findSome? fun value => match value with
    | .dict entries => match (⟨entries⟩ : Dict String Value).get? "session_id" with
      | some (.str candidate) => if isBlank candidate then none else some candidate
      | _ => none
    | _ => none).getD ""

/-- `list(metadata.get("workflow_outputs") or ())`. -/
def declaredOutputs (metadata : Dict String Value) : Except PyError (List Value) :=
  ((firstTruthy [metadata.get? "workflow_outputs"]).getD (.list [])).iter

/-- `max(0, int(metadata.get("revision") or context.get("plan_revision") or version or 0))`. -/
def planRevision (metadata context : Dict String Value) (version : String) : Except PyError ℤ := do
  let revision := (firstTruthy [metadata.get? "revision", context.get? "plan_revision",
    some (.str version)]).getD (.int 0)
  return max 0 (← revision.toInt)

/-- `except (KeyError, ValueError)`, with the subclasses of the two. -/
def isLookupOrValueError : PyError → Bool
  | .keyError _ | .valueError _ | .decisionValidation _ => true
  | .taskInputResolution .. | .taskInputDependency .. => true
  | _ => false

end

/-! ## The service -/

/-- What a `TaskService` is built from. -/
structure TaskService (ρ : Type) where
  orchestrator : Orchestrator ρ
  /-- `store.save` of the orchestrator. -/
  storeSave : TaskRun → Except PyError Unit
  /-- `_framework_workflows.build`. -/
  workflows : Option (String → Dict String Value → Except PyError Framework.WorkflowDefinition) :=
    none
  /-- `_backend.persist_framework_task`. -/
  persist : Option (String → TaskCreate → TaskRecord → Except PyError Unit) := none
  /-- `_event_bus.publish`, of an event about a record. -/
  publish : Option (String → TaskRecord → Except PyError Unit) := none
  /-- `_workflow_staging_cleanup`. -/
  stagingCleanup : Option (String → Except PyError Unit) := none

/-- The state of a `TaskService` and of its orchestrator. -/
structure ServiceState (ρ : Type) where
  world : World ρ
  /-- `_framework_requests`. -/
  requests : Dict String TaskCreate := ∅
  /-- `_framework_plans`. -/
  plans : Dict String TaskPlan := ∅
  /-- `_framework_records`. -/
  records : Dict String TaskRecord := ∅
  /-- `_cleaned_workflow_staging`. -/
  cleanedStaging : List String := []
  /-- The tasks whose execution was scheduled. -/
  scheduled : List String := []

/-- A method of the service. -/
abbrev ServiceMethod (ρ : Type) := Stateful (ServiceState ρ)

namespace TaskService

variable {ρ : Type} [PyLib] (svc : TaskService ρ)

/-- `_framework_request_plan`. -/
def frameworkRequestPlan (request : TaskCreate) :
    Except PyError (Option (TaskPlan × Dict String Value)) := do
  let metadata := request.workflow.metadata
  match request.frameworkPlan, metadata.get? "framework_task_plan" with
  | some plan, _ => return some (plan, ← dictOf [metadata.get? "framework_inputs"])
  | none, some (.dict entries) =>
    let plan ← planOfDict ⟨entries⟩
    plan.validate
    return some (plan, ← dictOf [metadata.get? "framework_inputs"])
  | none, _ =>
    let canonicalId := strip (textOf [metadata.get? "canonical_workflow_id"] "")
    match svc.workflows, metadata.get? "framework_inputs" with
    | none, _ => return none
    | some build, some (.dict inputs) =>
      if canonicalId = "" then
        return (legacyWorkflowTaskPlan request.workflow).map fun plan => (plan, ∅)
      else
        let definition ← build canonicalId ⟨inputs⟩
        let node : WorkflowNode := {
          id := "workflow"
          workflowId := definition.id
          inputMapping := ⟨inputs.map fun e => (e.1, .str ("$\x7b" ++ e.1 ++ "\x7d"))⟩ }
        return some ({
          id := "workflow-task:" ++ definition.id ++ ":" ++ definition.version
          version := definition.version
          nodes := [node] }, ⟨inputs⟩)
    | some _, _ => return (legacyWorkflowTaskPlan request.workflow).map fun plan => (plan, ∅)

/-- The canonical workflow of a view, where it can be built. -/
def canonicalDefinition (metadata : Dict String Value) :
    Except PyError (Option Framework.WorkflowDefinition) :=
  let canonicalId := strip (textOf [metadata.get? "canonical_workflow_id"] "")
  match svc.workflows, metadata.get? "framework_inputs" with
  | some build, some (.dict inputs) =>
    if canonicalId = "" then .ok none
    else match build canonicalId ⟨inputs⟩ with
      | .ok definition => .ok (some definition)
      | .error e => if isLookupOrValueError e then .ok none else .error e
  | _, _ => .ok none

/-- The ids of the states of a plan without a legacy workflow, in the order in which they run. -/
def planStates (plan : TaskPlan) : List String :=
  match plan.orderedNodes with
  | .ok nodes => nodes.map (·.id)
  | .error _ => plan.nodes.map (·.id)

/-- The ids of the steps of a legacy workflow, in the order of the plan where it has them all. -/
def stepStates (steps : List WorkflowStep) (plan : Option TaskPlan) : List String :=
  let ids := steps.map (·.id)
  let ordered := (plan.bind fun plan => plan.orderedNodes.toOption).elim [] fun nodes =>
    nodes.map (·.id)
  if ordered ≠ [] ∧ ∀ id ∈ ordered, id ∈ ids ∧ id ≠ "" then ordered else ids

/-- `_framework_workflow_view`, without the states of loop bodies. -/
def frameworkWorkflowView (metadata : Dict String Value) (workflow : WorkflowDefinition)
    (plan : Option TaskPlan) : Except PyError WorkflowView := do
  match ← svc.canonicalDefinition metadata with
  | some definition =>
    return {
      id := definition.id
      version := definition.version
      outputs := ← declaredOutputs metadata
      states := definition.states.map (·.id) }
  | none =>
    match workflow.steps, plan with
    | [], some plan =>
      return {
        id := plan.id
        version := plan.version
        name := workflow.name
        outputs := ← declaredOutputs metadata
        states := planStates plan }
    | [], none => return {}
    | steps, plan =>
      return {
        id := if workflow.id ≠ "" then workflow.id else (plan.map (·.id)).getD "workflow"
        version := if workflow.version ≠ "" then workflow.version
          else (plan.map (·.version)).getD "1"
        name := workflow.name
        outputs := ← declaredOutputs metadata
        states := stepStates steps plan }

/-- The record of a run. -/
def projectRun (request : TaskCreate) (run : TaskRun) (view : WorkflowView) (revision : ℤ) :
    TaskRecord :=
  let metadata := request.workflow.metadata
  let error := run.error.getD ∅
  { id := run.id
    status := recordStatus run.status
    workflowId := if request.workflow.id ≠ "" then request.workflow.id else run.planId
    deviceId := run.deviceId
    sessionId := if request.target.sessionId ≠ "" then request.target.sessionId
      else sessionFromOutputs run.outputs
    source := request.source
    progressPercent := if run.status = .succeeded then 100 else 0
    currentStepId := run.nodeRuns.keys.getLast?.getD ""
    errorCode := Value.strOr (error.get? "code") ""
    message := Value.strOr (error.get? "message") (statusMessage run.status)
    outputs := run.outputs
    workflowView := view
    planId := Value.strOr (metadata.get? "plan_id") ""
    planHash := Value.strOr (metadata.get? "plan_hash") ""
    parentTaskId := Value.strOr (metadata.get? "parent_task_id") ""
    planRevision := revision }

/-! ## Methods -/

/-- A method of the orchestrator. -/
def onWorld {α : Type} (m : Framework.Method ρ α) : ServiceMethod ρ α := do
  let s ← get
  let (result, world) := m.run s.world
  set { s with world := world }
  match result with
  | .ok a => return a
  | .error e => throw e

/-- A call of something outside, which may raise. -/
def external (result : Except PyError Unit) : ServiceMethod ρ Unit := liftM result

/-- `_project_framework_task`. -/
def projectFrameworkTask (taskId : String) : ServiceMethod ρ TaskRecord := do
  let s ← get
  let request ← match s.requests.get? taskId with
    | some request => pure request
    | none => throw (.keyError taskId)
  let run ← onWorld (Orchestrator.getTask taskId)
  let metadata := request.workflow.metadata
  let view ← liftM (svc.frameworkWorkflowView metadata request.workflow (s.plans.get? taskId))
  let revision ← liftM (planRevision metadata run.context request.workflow.version)
  let record := projectRun request run view revision
  let previous := s.records.get? taskId
  modify fun s => { s with records := s.records.set taskId record }
  match svc.persist with
  | some persist => external (persist taskId request record)
  | none => pure ()
  match svc.publish, previous with
  | none, _ => pure ()
  | some publish, none => external (publish "task.created" record)
  | some publish, some old =>
    if old.toValue.pyEq record.toValue then pure () else external (publish "task.updated" record)
  let stagingId := strip (textOf [run.context.get? "workflow_staging_id"] "")
  if stagingId ≠ "" ∧ run.status.terminal = true ∧ stagingId ∉ (← get).cleanedStaging then
    match svc.stagingCleanup with
    | some cleanup => external (cleanup stagingId)
    | none => pure ()
    modify fun s => { s with cleanedStaging := stagingId :: s.cleanedStaging }
  return record

/-- `_save` of the orchestrator, with a store that may raise. -/
def saveTask (run : TaskRun) : Framework.Method ρ TaskRun := do
  modify fun w => { w with tasks := w.tasks.set run.id run }
  match svc.storeSave run with
  | .error e => throw e
  | .ok () => svc.orchestrator.save run

/-- The context with which `start` stores a task. -/
def startContext (plan : TaskPlan) (id : String) (context : Dict String Value)
    (childRunId : Option String) : Except PyError (Dict String Value) :=
  let context := context.setDefault "resource_owner_id" (.str id)
  match childRunId.filter (· ≠ "") with
  | some childId =>
    if plan.nodes.length ≠ 1 then
      .error (.valueError "child_run_id is only supported for single-node TaskPlans")
    else .ok (context.set "orchestrator.child_run_id" (.str childId))
  | none => .ok context

/-- The task that `start` stores. -/
def startedTask (plan : TaskPlan) (id deviceId : String) (inputs context : Dict String Value) :
    TaskRun where
  id := id
  planId := plan.id
  deviceId := deviceId
  status := .running
  inputs := inputs
  context := context

/-- `TaskOrchestrator.start`, with a store that may raise. -/
def startTask (plan : TaskPlan) (deviceId : String) (inputs context : Dict String Value)
    (taskRunId childRunId : Option String) : Framework.Method ρ TaskRun := do
  plan.validate
  if isBlank deviceId then
    throw (.valueError "device_id is required")
  let id := (taskRunId.filter (· ≠ "")).getD (Orchestrator.uuid4 (← get))
  let context ← startContext plan id context childRunId
  svc.orchestrator.acquire id deviceId id
  Orchestrator.note (.created id)
  modify fun w => { w with issued := id :: w.issued }
  svc.saveTask (startedTask plan id deviceId inputs context)

/-- `start_plan`. -/
def startPlan (plan : TaskPlan) (deviceId : String) (inputs context : Dict String Value)
    (taskRunId childRunId : Option String) : ServiceMethod ρ TaskRun :=
  onWorld (svc.startTask plan deviceId inputs context taskRunId childRunId)

/-- `str(uuid4())`: a text under which the service and its orchestrator know nothing. -/
def uuid4 (s : ServiceState ρ) : String :=
  String.ofList (List.replicate ((((s.world.issued ++ s.world.tasks.keys) ++
    (s.requests.keys ++ s.plans.keys ++ s.records.keys)).map String.length).foldr max 0 + 1) 'u')

/-- The context of a request. -/
def requestContext (request : TaskCreate) (deviceId : String) : Dict String Value :=
  request.context.merge ⟨[("source", .str request.source),
    ("target", .dict [("device_id", .str deviceId), ("session_id", .str request.target.sessionId),
      ("protocol", .str request.target.protocol)])]⟩

/-- `create`. -/
def create (request : TaskCreate) : ServiceMethod ρ TaskRecord := do
  match ← liftM (svc.frameworkRequestPlan request) with
  | none =>
    throw (.other "Legacy task execution is disabled; submit a Framework TaskPlan.")
  | some (plan, inputs) =>
    let taskId := uuid4 (← get)
    let deviceId := strip request.target.deviceId
    if deviceId = "" then
      throw (.valueError "device_id is required")
    modify fun s => { s with
      requests := s.requests.set taskId request
      plans := s.plans.set taskId plan }
    let _ ← tryCatch (svc.startPlan plan deviceId inputs (requestContext request deviceId)
        (some taskId) (if plan.nodes.length = 1 then some taskId else none)) fun e => do
      modify fun s => { s with
        requests := s.requests.erase taskId
        plans := s.plans.erase taskId }
      throw e
    let record ← svc.projectFrameworkTask taskId
    modify fun s => { s with scheduled := taskId :: s.scheduled }
    return record

end TaskService

end DeviceShell.Tasking
