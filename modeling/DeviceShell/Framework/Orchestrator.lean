import DeviceShell.Lib.Coroutine
import DeviceShell.Lib.Stateful
import DeviceShell.Framework.Fence
import DeviceShell.Framework.TaskInputs

/-!
# The task orchestrator

`TaskOrchestrator` of `framework/orchestrator.py`. The methods that never await are `Method`s: they
run at once on the `World`, which holds the workflow runtime with its child runs and the stored
tasks. `execute` and `_execute_parallel_node` are coroutines: besides the world they read and write
the `Frame` of one call of `execute`, its local variables, which the two and the closure
`record_child` share. An exception leaves the frame as it is, so the handlers of `execute` find in
it what the source's handlers find.

`history` records what a reader of the log would see: when a node's `run_if` was consulted, when a
child was started, when `execute` stored a task, and when a resume from a step cleared nodes. No
method reads it.
-/

namespace DeviceShell.Framework

/-- What happened to the tasks, in order. -/
inductive TaskEvent where
  /-- `execute` reached a node without a child; the values its `run_if` is evaluated on. -/
  | reached (execution : ℕ) (nodeId : String) (inputs outputs context : Dict String Value)
  /-- A child was started for a node; whether it is of the node's last repeat iteration. -/
  | childStarted (taskId nodeId childId : String) (lastIteration : Bool)
  /-- `execute` stored a task; the child runs as they are then. -/
  | stored (execution : ℕ) (plan : TaskPlan) (task : TaskRun) (children : Dict String WorkflowRun)
  /-- A resume from a step cleared some nodes. -/
  | cleared (taskId : String) (nodeIds : List String)
  /-- A task was started. -/
  | created (taskId : String)

/-- The state of a `TaskOrchestrator`, of its runtime and of their stores. -/
structure World (ρ : Type) where
  runtime : RuntimeState ρ
  /-- The task store, of which the index `_runs` is a part. -/
  tasks : Dict String TaskRun := ∅
  /-- `_resource_leases`. -/
  resourceLeases : Dict String ResourceLease := ∅
  /-- The time. -/
  clock : ℚ := 0
  /-- The ids under which tasks were started. -/
  issued : List String := []
  history : List TaskEvent := []

/-- What a `TaskOrchestrator` is built from. -/
structure Orchestrator (ρ : Type) where
  /-- The settings of its runtime. -/
  runtime : RuntimeConfig
  /-- The resource coordinator of its runtime. -/
  coordinator : Option (ResourceCoordinator ρ) := none
  /-- Its own resource coordinator. -/
  resourceCoordinator : Option (ResourceCoordinator ρ) := none
  /-- `workflows.build`. -/
  build : String → Dict String Value → Except PyError WorkflowDefinition

/-- A method that never awaits. What it changed before it raises stays changed. -/
abbrev Method (ρ : Type) := Stateful (World ρ)

namespace Orchestrator

section Methods

variable {ρ : Type} [PyLib] (o : Orchestrator ρ)

/-! ## The runtime -/

omit [PyLib] in
/-- `runtime.runs.get(id)`. -/
def getChild (id : String) : Method ρ WorkflowRun := do
  match (← get).runtime.runs.get? id with
  | some run => return run
  | none => throw (.keyError ("workflow run not found: " ++ id))

/-- A method of the runtime on a stored run, which is given by its input and its section. -/
def onChild (id : String) (input : RuntimeInput)
    (section_ : World ρ → WorkflowRun → SaveM WorkflowRun) : Method ρ WorkflowRun := do
  let run ← getChild id
  let w ← get
  set { w with runtime := Runtime.step o.coordinator o.runtime w.runtime (w.clock, input) }
  match (section_ w run).result with
  | .ok run => return run
  | .error e => throw e

/-- `runtime.pause`. -/
def pauseChild (id : String) : Method ρ WorkflowRun :=
  o.onChild id (.pause id) fun w run => Runtime.pause w.clock run

/-- `runtime.resume`. -/
def resumeChild (id : String) (context : Dict String Value) : Method ρ WorkflowRun :=
  o.onChild id (.resume id context) fun _ run => Runtime.resume run context

/-- `runtime.cancel`. -/
def cancelChild (id : String) : Method ρ WorkflowRun :=
  o.onChild id (.cancel id) fun _ run => Runtime.cancel run

/-- `runtime.apply_decision`. -/
def decideChild (id : String) (submission : DecisionSubmission) : Method ρ WorkflowRun :=
  o.onChild id (.applyDecision id submission) fun w run =>
    Runtime.applyDecision w.clock w.runtime.definitions run submission

/-- `runtime.start`. -/
def startChild (definition : WorkflowDefinition) (deviceId : String)
    (context : Dict String Value) (runId : Option String) : Method ρ WorkflowRun := do
  let w ← get
  let (result, runtime) :=
    Runtime.start o.coordinator w.clock w.runtime definition deviceId context runId
  set { w with runtime := runtime }
  match result with
  | .ok run => return run
  | .error e => throw e

/-! ## The task store -/

omit [PyLib] in
/-- The world after `_save`: a terminal task gives its lease back. -/
def saved (w : World ρ) (run : TaskRun) : World ρ :=
  let w := { w with tasks := w.tasks.set run.id run }
  if run.status.terminal then
    match w.resourceLeases.get? run.id, o.resourceCoordinator with
    | some lease, some c =>
      { w with
        resourceLeases := w.resourceLeases.erase run.id
        runtime := { w.runtime with resources := c.release w.clock w.runtime.resources lease } }
    | _, _ => { w with resourceLeases := w.resourceLeases.erase run.id }
  else w

omit [PyLib] in
/-- `_save`. -/
def save (run : TaskRun) : Method ρ TaskRun := do
  modify fun w => o.saved w run
  return run

omit [PyLib] in
/-- `get`. -/
def getTask (taskId : String) : Method ρ TaskRun := do
  match (← get).tasks.get? taskId with
  | some run => return run
  | none => throw (.keyError ("task run not found: " ++ taskId))

omit [PyLib] in
/-- `resource_coordinator.acquire` of the device of a task, for an owner. -/
def acquire (taskId deviceId ownerId : String) : Method ρ Unit := do
  match o.resourceCoordinator with
  | none => return ()
  | some c =>
    let w ← get
    match c.acquire w.clock w.runtime.resources ⟨"device", deviceId, ownerId, 900⟩ with
    | (.ok lease, resources) =>
      set { w with
        runtime := { w.runtime with resources := resources }
        resourceLeases := w.resourceLeases.set taskId lease }
    | (.error e, resources) =>
      set { w with runtime := { w.runtime with resources := resources } }
      throw e

omit [PyLib] in
/-- Adds to the history. -/
def note (event : TaskEvent) : Method ρ Unit :=
  modify fun w => { w with history := w.history ++ [event] }

omit [PyLib] in
/-- `str(uuid4())`: a text under which no task was started. -/
def uuid4 (w : World ρ) : String :=
  String.ofList (List.replicate
    (((w.issued ++ w.tasks.keys).map String.length).foldr max 0 + 1) 'u')

/-- `start`. -/
def start (plan : TaskPlan) (deviceId : String) (inputs context : Dict String Value)
    (taskRunId childRunId : Option String) : Method ρ TaskRun := do
  plan.validate
  if isBlank deviceId then
    throw (.valueError "device_id is required")
  let id := (taskRunId.filter (· ≠ "")).getD (uuid4 (← get))
  let context := context.setDefault "resource_owner_id" (.str id)
  let context ← match childRunId.filter (· ≠ "") with
    | some childId =>
      if plan.nodes.length ≠ 1 then
        throw (.valueError "child_run_id is only supported for single-node TaskPlans")
      else pure (context.set "orchestrator.child_run_id" (.str childId))
    | none => pure context
  o.acquire id deviceId id
  note (.created id)
  modify fun w => { w with issued := id :: w.issued }
  o.save
    { id := id
      planId := plan.id
      deviceId := deviceId
      status := .running
      inputs := inputs
      context := context }

/-! ## Control of a task -/

omit [PyLib] in
/-- The first of some child runs that has not ended. -/
def firstUnfinished : List String → Method ρ (Option WorkflowRun)
  | [] => return none
  | id :: rest => do
    let child ← getChild id
    if child.status.terminal then firstUnfinished rest else return some child

omit [PyLib] in
/-- `_active_child`: the last recorded child that has not ended. -/
def activeChild (task : TaskRun) : Method ρ (Option WorkflowRun) :=
  firstUnfinished task.nodeRuns.values.reverse

/-- `pause`. -/
def pause (taskId : String) : Method ρ TaskRun := do
  let task ← getTask taskId
  if task.status.terminal then return task
  else
    match ← activeChild task with
    | some child => let _ ← o.pauseChild child.id
    | none => pure ()
    o.save { task with status := .waitingReconcile }

/-- `_resume_from_step`. -/
def resumeFromStep (task : TaskRun) (plan : TaskPlan) (stepId : String)
    (context : Dict String Value) (cancelActive : Bool) : Method ρ TaskRun := do
  let downstream := plan.downstreamNodeIds stepId
  if cancelActive then
    match ← activeChild task with
    | some child => let _ ← o.cancelChild child.id
    | none => pure ()
  note (.cleared task.id downstream)
  o.save { task with
    status := .running
    nodeRuns := task.nodeRuns.filterKeys fun key => !downstream.contains key
    outputs := task.outputs.filterKeys fun key => !downstream.contains key
    error := none
    context := (task.context.merge context).set "resume_from_step" (.str stepId) }

omit [PyLib] in
/-- The first of some nodes whose recorded child failed, was cancelled or is unknown. -/
def firstRestartable (task : TaskRun) : List WorkflowNode → Method ρ String
  | [] => return ""
  | node :: rest => do
    match (task.nodeRuns.get? node.id).filter (· ≠ "") with
    | none => firstRestartable task rest
    | some childId =>
      match (← get).runtime.runs.get? childId with
      | none => firstRestartable task rest
      | some child =>
        if child.status = .failed ∨ child.status = .cancelled ∨ child.status = .unknown then
          return node.id
        else firstRestartable task rest

omit [PyLib] in
/-- `_failed_child_step`. -/
def failedChildStep (task : TaskRun) (plan : TaskPlan) : Method ρ String := do
  firstRestartable task (← plan.orderedNodes)

/-- The last lines of `resume`. -/
def resumeRunning (task : TaskRun) (context : Dict String Value) : Method ρ TaskRun :=
  o.save { task with status := .running, context := task.context.merge context }

/-- `resume`. -/
def resume (taskId : String) (context : Dict String Value) (stepId : String)
    (plan : Option TaskPlan) : Method ρ TaskRun := do
  let task ← getTask taskId
  if stepId ≠ "" then
    match plan with
    | some plan =>
      if plan.nodes.any (·.id == stepId) then o.resumeFromStep task plan stepId context true
      else throw (.valueError ("unknown workflow step: " ++ stepId))
    | none => throw (.valueError ("unknown workflow step: " ++ stepId))
  else
    match ← activeChild task, plan with
    | some child, _ =>
      let _ ← o.resumeChild child.id context
      o.resumeRunning task context
    | none, none => o.resumeRunning task context
    | none, some plan =>
      if task.status = .failed ∨ task.status = .unknown then
        let failedStep ← failedChildStep task plan
        if failedStep ≠ "" then o.resumeFromStep task plan failedStep context false
        else o.resumeRunning task context
      else o.resumeRunning task context

/-- `cancel`. -/
def cancel (taskId : String) : Method ρ TaskRun := do
  let task ← getTask taskId
  if task.status.terminal then return task
  else
    match ← activeChild task with
    | some child => let _ ← o.cancelChild child.id
    | none => pure ()
    o.save { task with status := .cancelled }

omit [PyLib] in
/-- `delete`. -/
def delete (taskId : String) : Method ρ Unit := do
  let task ← getTask taskId
  if task.status.terminal then
    modify fun w => { w with tasks := w.tasks.erase taskId }
  else throw (.valueError "only terminal task runs can be deleted")

/-- `apply_decision`. -/
def applyDecision (taskId : String) (submission : DecisionSubmission) : Method ρ TaskRun := do
  let task ← getTask taskId
  match ← activeChild task with
  | none => throw (.valueError "task is not waiting for a child Workflow decision")
  | some child =>
    let updated ← o.decideChild child.id submission
    let projected := projectNodeOutputs updated.outputs
    let nodeId := strippedEntry child.context "node_id"
    let outputs := if projected.entries.isEmpty ∨ nodeId = "" then task.outputs
      else task.outputs.set nodeId (.ofDict projected)
    let status := if updated.status = .running ∨ updated.status = .succeeded then .running
      else aggregateChildStatus updated.status
    o.save { task with status := status, outputs := outputs }

end Methods

end Orchestrator

/-! ## The local variables of `execute` -/

/-- The local variables of one call of `execute`. -/
structure Frame where
  /-- The number of the call. -/
  id : ℕ
  plan : TaskPlan
  task : TaskRun
  outputs : Dict String Value
  nodeRuns : Dict String String
  continuedFailures : List String
  parallelCompleted : List String := []

/-- What the coroutines of one call read and write. -/
structure Scope (ρ : Type) where
  world : World ρ
  frame : Frame

/-- What `_execute_parallel_node` returns for its node. -/
structure BatchResult where
  nodeId : String
  /-- The status of the node's last child, or `none` for a node that was skipped. -/
  status : Option RunStatus
  output : Dict String Value
  error : Option (Dict String Value)
  childId : Option String

/-- What the coroutines await. -/
inductive Wait where
  /-- `runtime.run_until_blocked`. -/
  | child (id : String)
  /-- `_sleep`. -/
  | sleep
  /-- The first step of a coroutine that `asyncio.gather` schedules. -/
  | scheduled
  /-- `asyncio.gather` of `_execute_parallel_node` for the nodes of a batch. -/
  | gather (task : TaskRun) (batch : List WorkflowNode) (outputs : Dict String Value)

/-- What an awaited thing yields. -/
@[reducible] def Wait.Reply : Wait → Type
  | .child _ => Except PyError WorkflowRun
  | .sleep => Unit
  | .scheduled => Unit
  | .gather _ _ _ => Except PyError (List BatchResult)

/-- A coroutine of one call of `execute`. -/
abbrev Exec (ρ α : Type) := Co (Scope ρ) Wait Wait.Reply PyError α

namespace Exec

variable {ρ α : Type}

/-- Runs a method. -/
def call (m : Method ρ α) : Exec ρ α :=
  .get fun s =>
    let (result, world) := m.run s.world
    .set { s with world := world } (.done result)

/-- Reads local variables. -/
def frame : Exec ρ Frame := Co.read Scope.frame

/-- Assigns to local variables. -/
def assign (f : Frame → Frame) : Exec ρ Unit := Co.modify fun s => { s with frame := f s.frame }

/-- `await self.runtime.run_until_blocked(id)`. -/
def runUntilBlocked (id : String) : Exec ρ WorkflowRun :=
  .await (Wait.child id) fun reply => .done reply

/-- `await self._sleep(...)`. -/
def sleep : Exec ρ Unit := .await Wait.sleep fun _ => .done (.ok ())

/-- `await asyncio.gather(...)` of `_execute_parallel_node` for the nodes of a batch. -/
def gather (task : TaskRun) (batch : List WorkflowNode) (outputs : Dict String Value) :
    Exec ρ (List BatchResult) :=
  .await (Wait.gather task batch outputs) fun reply => .done reply

end Exec

namespace Orchestrator

open Exec

section Execute

variable {ρ : Type} [PyLib] (o : Orchestrator ρ)

omit [PyLib] in
/-- `self._save(run)` in `execute`. -/
def saveRun (run : TaskRun) : Exec ρ TaskRun := do
  let run ← call (o.save run)
  let f ← frame
  let children ← Co.read (·.world.runtime.runs)
  call (note (.stored f.id f.plan run children))
  return run

omit [PyLib] in
/-- `task = self._save(replace(task, ...))`. -/
def saveTask (change : Frame → TaskRun) : Exec ρ Unit := do
  let f ← frame
  let run ← o.saveRun (change f)
  assign fun f => { f with task := run }

/-- `max(1, min(limit, int(policy.get(key, 1) or 1)))`. -/
def policyCount (policy : Dict String Value) (key : String) (limit : ℕ) : Except PyError ℕ := do
  let count := entry policy key
  let n ← (if count.truthy then count else .int 1).toInt
  return max 1 (min limit n.toNat)

/-- What a node needs before its first child is started. -/
structure Prepared where
  deviceId : String
  context : Dict String Value
  inputs : Dict String Value
  definition : WorkflowDefinition
  maxAttempts : ℕ
  maxIterations : ℕ

/-- The lines before the loops of a node, which `execute` and `_execute_parallel_node` share. -/
def prepare (task : TaskRun) (node : WorkflowNode) (outputs : Dict String Value) :
    Except PyError Prepared := do
  let inputs ← resolveNodeInputs node task.inputs outputs task.context
  let (deviceId, context, inputs) ← nodeTarget task inputs
  let definition ← o.build node.workflowId inputs
  let maxAttempts ← policyCount node.retryPolicy "max_attempts" 5
  let maxIterations ← policyCount node.repeatPolicy "max_iterations" 20
  let backoff := entry node.retryPolicy "backoff_seconds"
  let _ ← (if backoff.truthy then backoff else .int 0).toFloat
  return { deviceId, context, inputs, definition, maxAttempts, maxIterations }

/-- The context of a child. -/
def childContext (task : TaskRun) (node : WorkflowNode) (p : Prepared)
    (iteration attempt : ℕ) : Dict String Value :=
  p.context.merge ⟨[("task_run_id", .str task.id), ("node_id", .str node.id),
    ("inputs", .ofDict p.inputs), ("retry_attempt", .int (attempt + 1)),
    ("retry_limit", .int p.maxAttempts), ("repeat_iteration", .int (iteration + 1)),
    ("repeat_limit", .int p.maxIterations),
    ("resource_owner_id", .str (Value.strOr (task.context.get? "resource_owner_id") task.id))]⟩

/-- `self.runtime.start` for an attempt of a node. -/
def startAttempt (task : TaskRun) (node : WorkflowNode) (p : Prepared) (iteration attempt : ℕ)
    (runId : Option String) : Exec ρ WorkflowRun := do
  let child ← call (o.startChild p.definition p.deviceId
    (childContext task node p iteration attempt) runId)
  call (note (.childStarted task.id node.id child.id (iteration + 1 == p.maxIterations)))
  return child

/-- `status in {RunStatus.FAILED.value, "unknown"}`: what is tried again. -/
def retryable : RunStatus → Bool
  | .failed => true
  | .unknown => true
  | _ => false

/-- `aggregate in {FAILED, CANCELLED, UNKNOWN}`. -/
def failedAggregate : TaskRunStatus → Bool
  | .failed => true
  | .cancelled => true
  | .unknown => true
  | _ => false

/-! ### `_execute_parallel_node` -/

/-- `record_child`. -/
def recordChild (nodeId childId : String) : Exec ρ Unit := do
  assign fun f => { f with nodeRuns := f.nodeRuns.set nodeId childId }
  let f ← frame
  let _ ← o.saveRun { f.task with nodeRuns := f.nodeRuns, status := .waitingChild }

/-- The result of a member whose child did not succeed. -/
def memberStopped (node : WorkflowNode) (child : WorkflowRun) : BatchResult :=
  ⟨node.id, some child.status, projectNodeOutputs child.outputs, child.error, some child.id⟩

/-- One attempt in `_execute_parallel_node`: the child that succeeded, or the result with which the
coroutine returns. `again` is the next attempt, if one is left. -/
def memberAttempt (task : TaskRun) (node : WorkflowNode) (p : Prepared) (iteration attempt : ℕ)
    (again : Option (Exec ρ (WorkflowRun ⊕ BatchResult))) : Exec ρ (WorkflowRun ⊕ BatchResult) := do
  if 0 < attempt then
    sleep
  let child ← o.startAttempt task node p iteration attempt none
  o.recordChild node.id child.id
  let child ← runUntilBlocked child.id
  if child.status = .succeeded then return .inl child
  else
    match again, retryable child.status with
    | some again, true => again
    | _, _ => return .inr (memberStopped node child)

/-- The last attempts of one iteration in `_execute_parallel_node`; the number is how many are left
after the next one. -/
def memberAttempts (task : TaskRun) (node : WorkflowNode) (p : Prepared) (iteration : ℕ) :
    ℕ → Exec ρ (WorkflowRun ⊕ BatchResult)
  | 0 => memberAttempt o task node p iteration (p.maxAttempts - 1) none
  | left + 1 => memberAttempt o task node p iteration (p.maxAttempts - (left + 2))
      (some (memberAttempts task node p iteration left))

/-- The result of a member whose iterations have all succeeded. -/
def memberResult (node : WorkflowNode) (p : Prepared) (child : WorkflowRun) : BatchResult :=
  let output := projectNodeOutputs child.outputs
  ⟨node.id, some .succeeded,
    if 1 < p.maxIterations then output.set "repeat_iterations" (.int p.maxIterations) else output,
    none, some child.id⟩

/-- One iteration of `_execute_parallel_node`. `next` is what follows when it succeeds. -/
def memberIteration (task : TaskRun) (node : WorkflowNode) (p : Prepared) (iteration : ℕ)
    (next : WorkflowRun → Exec ρ BatchResult) : Exec ρ BatchResult := do
  match ← o.memberAttempts task node p iteration (p.maxAttempts - 1) with
  | .inl child => next child
  | .inr result => return result

/-- The last iterations of `_execute_parallel_node`; the number is how many are left after the next
one. -/
def memberIterations (task : TaskRun) (node : WorkflowNode) (p : Prepared) : ℕ → Exec ρ BatchResult
  | 0 => o.memberIteration task node p (p.maxIterations - 1) fun child =>
      return memberResult node p child
  | left + 1 => o.memberIteration task node p (p.maxIterations - (left + 2)) fun _ =>
      memberIterations task node p left

/-- `_execute_parallel_node`. -/
def executeParallelNode (task : TaskRun) (node : WorkflowNode) (values : Dict String Value) :
    Exec ρ BatchResult := do
  let f ← frame
  call (note (.reached f.id node.id task.inputs values task.context))
  if ← Co.lift (skips node task.inputs values task.context) then
    return ⟨node.id, none, skippedOutput, none, none⟩
  else
    let p ← Co.lift (o.prepare task node values)
    o.memberIterations task node p (p.maxIterations - 1)

/-! ### `execute` -/

/-- `sorted(continued_failures)` as a context value. -/
def continuedValue (continued : List String) : Value :=
  .list ((continued.dedup.insertionSort (· ≤ ·)).map .str)

/-- `continued_failures.add(node_id)`. -/
def addContinued (continued : List String) (nodeId : String) : List String :=
  if continued.contains nodeId then continued else continued ++ [nodeId]

/-- The result of a member that neither succeeded nor was skipped. -/
def BatchResult.unsuccessful (result : BatchResult) : Bool :=
  result.status.isSome && result.status != some .succeeded

/-- `status` of a result. -/
def BatchResult.statusValue (result : BatchResult) : Value :=
  .str ((result.status.map RunStatus.value).getD "skipped")

/-- `self._continues_after_failure(nodes_by_id[node_id])`. -/
def continuesIn (batch : List WorkflowNode) (nodeId : String) : Bool :=
  (batch.reverse.find? fun node => node.id == nodeId).any continuesAfterFailure

/-- Records a result that is a continued failure. -/
def continueFailure (batch : List WorkflowNode) (f : Frame) (result : BatchResult) : Frame :=
  if BatchResult.unsuccessful result && continuesIn batch result.nodeId then
    { f with
      continuedFailures := addContinued f.continuedFailures result.nodeId
      outputs := f.outputs.set result.nodeId (if result.output.entries.isEmpty then
          .ofDict ⟨[("status", BatchResult.statusValue result)]⟩
        else .ofDict result.output) }
  else f

/-- Cancels the recorded child of a result unless it has ended. -/
def cancelUnfinished (childId : String) : Method ρ Unit := do
  match (← get).runtime.runs.get? childId with
  | none => return ()
  | some child =>
    if child.status.terminal then return ()
    else let _ ← o.cancelChild child.id

/-- Cancels some children unless they have ended. -/
def cancelAll : List String → Method ρ Unit
  | [] => return ()
  | childId :: rest => do
    o.cancelUnfinished childId
    cancelAll rest

/-- The context without `parallel_batch`. -/
def withoutBatch (context : Dict String Value) : Dict String Value := context.erase "parallel_batch"

/-- `value["..."]` of an output that a later line reads as a dictionary. -/
def asOutput (value : Value) : Except PyError (Dict String Value) :=
  match value with
  | .dict entries => .ok ⟨entries⟩
  | _ => .error (.attributeError "object has no attribute 'get'")

/-- The outputs and the children with one result of a batch without failures. -/
def takeResult (batch : List WorkflowNode) (f : Frame) (result : BatchResult) : Frame :=
  let output : Dict String Value := if !result.output.entries.isEmpty then result.output
    else ⟨[("status", BatchResult.statusValue result)]⟩
  let outputs := f.outputs.set result.nodeId (.ofDict output)
  { f with
    nodeRuns := match result.childId with
      | some childId => f.nodeRuns.set result.nodeId childId
      | none => f.nodeRuns
    outputs := match batch.find? fun node => node.id == result.nodeId with
      | some node => recordVariableOutput outputs node output
      | none => outputs }

/-- Takes over the results of a batch without failures, in order. -/
def takeResults (batch : List WorkflowNode) : List BatchResult → Exec ρ Unit
  | [] => return ()
  | result :: rest => do
    assign fun f => takeResult batch f result
    let f ← frame
    let output ← Co.lift (asOutput (entry f.outputs result.nodeId))
    assign fun f => { f with
      task := { f.task with context := contextWithTargetOutput f.task.context output }
      parallelCompleted := f.parallelCompleted ++ [result.nodeId] }
    takeResults batch rest

/-- `[item.id for item in batch]` and the group, as a context value. -/
def batchValue (batch : List WorkflowNode) : Value :=
  .dict [("group", .str ((batch.head?.bind (·.group?)).getD "parallel")),
    ("node_ids", .list (batch.map fun node => .str node.id))]

/-- The parallel branch of `execute`: the task with which `execute` returns, if it does. -/
def executeBatch (batch : List WorkflowNode) : Exec ρ (Option TaskRun) := do
  o.saveTask fun f => { f.task with
    status := .waitingChild
    context := f.task.context.set "parallel_batch" (batchValue batch) }
  let f ← frame
  let results ← gather f.task batch f.outputs
  assign fun f => results.foldl (continueFailure batch) f
  let failures := results.filter fun result =>
    BatchResult.unsuccessful result && !continuesIn batch result.nodeId
  match failures with
  | first :: _ =>
    assign fun f => { f with
      outputs := (results.filter fun result => !result.output.entries.isEmpty).foldl
        (fun outputs result => outputs.set result.nodeId (.ofDict result.output)) f.outputs }
    call (o.cancelAll (results.filterMap (·.childId)))
    let f ← frame
    return some (← o.saveRun { f.task with
      status := (first.status.map aggregateChildStatus).getD .waitingChild
      outputs := f.outputs
      error := first.error
      context := withoutBatch f.task.context })
  | [] =>
    takeResults batch results
    o.saveTask fun f => { f.task with
      nodeRuns := f.nodeRuns
      outputs := f.outputs
      status := .running
      context := if f.continuedFailures.isEmpty then withoutBatch f.task.context
        else (withoutBatch f.task.context).set "continued_failures"
          (continuedValue f.continuedFailures) }
    return none

/-- The branch of `execute` for a node that has a child. -/
def executeRecorded (node : WorkflowNode) (childId : String) : Exec ρ (Option TaskRun) := do
  let child ← call (getChild childId)
  let child ← if child.status.active then runUntilBlocked child.id else pure child
  let projected := projectNodeOutputs child.outputs
  if child.status = .succeeded then
    assign fun f => { f with
      outputs := recordVariableOutput (f.outputs.set node.id (.ofDict projected)) node projected
      task := { f.task with context := contextWithTargetOutput f.task.context projected } }
    return none
  else
    let aggregate := aggregateChildStatus child.status
    if !projected.entries.isEmpty then
      assign fun f => { f with outputs := f.outputs.set node.id (.ofDict projected) }
    let f ← frame
    if f.continuedFailures.contains node.id ||
        (continuesAfterFailure node && failedAggregate aggregate) then
      assign fun f =>
        let continued := addContinued f.continuedFailures node.id
        { f with
          continuedFailures := continued
          outputs := f.outputs.setDefault node.id
            (.ofDict ⟨[("status", .str child.status.value)]⟩)
          task := { f.task with
            context := f.task.context.set "continued_failures" (continuedValue continued) } }
      return none
    else if failedAggregate aggregate then
      return some (← o.saveRun { f.task with
        status := aggregate, outputs := f.outputs, error := child.error })
    else
      return some (← o.saveRun { f.task with status := aggregate, outputs := f.outputs })

/-- How the attempts of one iteration in `execute` end. -/
inductive AttemptEnd where
  | succeeded (child : WorkflowRun)
  /-- `failure_continued = True`. -/
  | continued
  | returned (run : TaskRun)

/-- The run id of a child: the given one, for the first child of a plan with one node. -/
def childRunId (f : Frame) (iteration attempt : ℕ) : Option String :=
  if f.plan.nodes.length = 1 ∧ attempt = 0 ∧ iteration = 0 then
    (some (Value.strOr (f.task.context.get? "orchestrator.child_run_id") "")).filter (· ≠ "")
  else none

/-- The last lines of an attempt in `execute` whose child did not succeed and is not tried again. -/
def endAttempt (node : WorkflowNode) (child : WorkflowRun) : Exec ρ AttemptEnd := do
  let aggregate := aggregateChildStatus child.status
  let projected := projectNodeOutputs child.outputs
  if !projected.entries.isEmpty then
    assign fun f => { f with outputs := f.outputs.set node.id (.ofDict projected) }
  if continuesAfterFailure node && failedAggregate aggregate then
    assign fun f => { f with
      continuedFailures := addContinued f.continuedFailures node.id
      outputs := f.outputs.setDefault node.id
        (.ofDict ⟨[("status", .str child.status.value)]⟩) }
    o.saveTask fun f => { f.task with
      outputs := f.outputs
      status := .running
      context := f.task.context.set "continued_failures" (continuedValue f.continuedFailures) }
    return .continued
  else
    let f ← frame
    return .returned (← o.saveRun { f.task with
      status := aggregate
      outputs := f.outputs
      error := if aggregate = .failed ∨ aggregate = .unknown then child.error else f.task.error })

/-- One attempt in `execute`. `again` is the next attempt, if one is left. -/
def attempt (node : WorkflowNode) (p : Prepared) (iteration attempt : ℕ)
    (again : Option (Exec ρ AttemptEnd)) : Exec ρ AttemptEnd := do
  if 0 < attempt then
    sleep
  let f ← frame
  let child ← o.startAttempt f.task node p iteration attempt (childRunId f iteration attempt)
  assign fun f => { f with nodeRuns := f.nodeRuns.set node.id child.id }
  o.saveTask fun f => { f.task with nodeRuns := f.nodeRuns, status := .waitingChild }
  let child ← runUntilBlocked child.id
  if child.status = .succeeded then return .succeeded child
  else
    match again, retryable child.status with
    | some again, true => again
    | _, _ => o.endAttempt node child

/-- The last attempts of one iteration in `execute`; the number is how many are left after the next
one. -/
def attempts (node : WorkflowNode) (p : Prepared) (iteration : ℕ) : ℕ → Exec ρ AttemptEnd
  | 0 => attempt o node p iteration (p.maxAttempts - 1) none
  | left + 1 => attempt o node p iteration (p.maxAttempts - (left + 2))
      (some (attempts node p iteration left))

/-- `outputs[node.id]["repeat_iterations"] = iteration + 1`. -/
def setRepeated (outputs : Dict String Value) (nodeId : String) (iterations : ℕ) :
    Except PyError (Dict String Value) :=
  match entry outputs nodeId with
  | .dict entries => .ok (outputs.set nodeId
      (.ofDict ((⟨entries⟩ : Dict String Value).set "repeat_iterations" (.int iterations))))
  | _ => .error (.typeError "object does not support item assignment")

/-- The last lines of an iteration in `execute`. -/
def endIteration (node : WorkflowNode) (p : Prepared) (iteration : ℕ) (child : WorkflowRun) :
    Exec ρ Unit := do
  let projected := projectNodeOutputs child.outputs
  assign fun f => { f with
    outputs := recordVariableOutput (f.outputs.set node.id (.ofDict projected)) node projected }
  if 1 < p.maxIterations then
    let f ← frame
    let outputs ← Co.lift (setRepeated f.outputs node.id (iteration + 1))
    assign fun f => { f with outputs := outputs }
  o.saveTask fun f => { f.task with
    outputs := f.outputs
    status := .running
    context := contextWithTargetOutput f.task.context projected }

/-- One iteration of a node in `execute`. `next` is what follows when it succeeds. -/
def iteration (node : WorkflowNode) (p : Prepared) (iteration : ℕ)
    (next : Exec ρ (Option TaskRun)) : Exec ρ (Option TaskRun) := do
  match ← o.attempts node p iteration (p.maxAttempts - 1) with
  | .returned run => return some run
  | .continued => return none
  | .succeeded child =>
    o.endIteration node p iteration child
    next

/-- The last iterations of a node in `execute`; the number is how many are left after the next
one. -/
def iterations (node : WorkflowNode) (p : Prepared) : ℕ → Exec ρ (Option TaskRun)
  | 0 => iteration o node p (p.maxIterations - 1) (return none)
  | left + 1 => iteration o node p (p.maxIterations - (left + 2)) (iterations node p left)

/-- The branch of `execute` for a node without a child. -/
def executeFresh (node : WorkflowNode) : Exec ρ (Option TaskRun) := do
  let f ← frame
  call (note (.reached f.id node.id f.task.inputs f.outputs f.task.context))
  if ← Co.lift (skips node f.task.inputs f.outputs f.task.context) then
    assign fun f => { f with outputs := f.outputs.set node.id (.ofDict skippedOutput) }
    o.saveTask fun f => { f.task with outputs := f.outputs, status := .running }
    return none
  else
    let p ← Co.lift (o.prepare f.task node f.outputs)
    o.iterations node p (p.maxIterations - 1)

/-- One node of the loop in `execute`, which begins the batch of a parallel group at the first of
its nodes unless one of them has a child. -/
def executeNode (batches : Dict String (List WorkflowNode)) (node : WorkflowNode) :
    Exec ρ (Option TaskRun) := do
  let f ← frame
  match (batches.get? node.id).filter fun batch => !batch.any fun item => f.nodeRuns.contains item.id with
  | some batch => o.executeBatch batch
  | none =>
    match f.nodeRuns.get? node.id with
    | some childId => o.executeRecorded node childId
    | none => o.executeFresh node

/-- The loop of `execute` over its nodes. -/
def executeNodes (batches : Dict String (List WorkflowNode)) :
    List WorkflowNode → Exec ρ TaskRun
  | [] => do
    let f ← frame
    o.saveRun { f.task with status := .succeeded, outputs := f.outputs }
  | node :: rest => do
    if (← frame).parallelCompleted.contains node.id then
      executeNodes batches rest
    else
      match ← o.executeNode batches node with
      | some run => return run
      | none => executeNodes batches rest

/-- `{batch[0].id: batch for batch in plan.execution_batches() if len(batch) > 1}`. -/
def parallelBatches (batches : List (List WorkflowNode)) : Dict String (List WorkflowNode) :=
  batches.foldl (fun d batch => match batch with
    | first :: _ :: _ => d.set first.id batch
    | _ => d) ∅

/-- What `execute` tries. -/
def executePlan (plan : TaskPlan) : Exec ρ TaskRun := do
  Co.lift (validateInputDependencies plan)
  let batches ← Co.lift plan.executionBatches
  let ordered ← Co.lift plan.orderedNodes
  o.executeNodes (parallelBatches batches) ordered

/-- The error of a task whose `execute` caught an exception. -/
def taskError (e : PyError) : Dict String Value :=
  match e with
  | .taskInputResolution expression missing available path =>
    ⟨[("code", .str "unresolved_task_input"), ("message", .str e.text),
      ("class", .str "deterministic"), ("expression", .str expression),
      ("missing_segment", .str missing), ("available_keys", .list (available.map .str)),
      ("resolved_path", .str path)]⟩
  | .taskInputDependency nodeId reference required =>
    ⟨[("code", .str "task_input_dependency_missing"), ("message", .str e.text),
      ("class", .str "deterministic"), ("node_id", .str nodeId), ("reference", .str reference),
      ("required_dependency", .str required)]⟩
  | e => ⟨[("code", .str "task_orchestration_failed"), ("message", .str e.text)]⟩

/-- The handlers of `execute`. -/
def failTask (e : PyError) : Exec ρ TaskRun := do
  let f ← frame
  call (o.cancelAll f.nodeRuns.values)
  o.saveRun { f.task with status := .failed, outputs := f.outputs, error := some (taskError e) }

/-- `execute` from its `try` on. -/
def execute (plan : TaskPlan) : Exec ρ TaskRun :=
  (o.executePlan plan).tryCatch o.failTask

/-- `{str(item) for item in task.context.get("continued_failures", ()) if str(item)}`. -/
def continuedFailuresOf (task : TaskRun) : Except PyError (List String) := do
  let continued ← ((task.context.get? "continued_failures").getD (.list [])).iter
  return ((continued.map Value.pyStr).filter (· ≠ "")).dedup

/-- `execute` up to its `try`: the local variables. -/
def prologue (id : ℕ) (taskId : String) (plan : TaskPlan) : Method ρ Frame := do
  let task ← getTask taskId
  plan.validate
  if task.planId ≠ plan.id then
    throw (.valueError ("task run plan mismatch: expected " ++ task.planId ++ ", received " ++
      plan.id))
  if !(← get).resourceLeases.contains task.id then
    o.acquire task.id task.deviceId
      (Value.strOr (task.context.get? "resource_owner_id") task.id)
  let continuedFailures ← continuedFailuresOf task
  return {
    id := id
    plan := plan
    task := task
    outputs := task.outputs
    nodeRuns := task.nodeRuns
    continuedFailures := continuedFailures }

end Execute

end Orchestrator

end DeviceShell.Framework
