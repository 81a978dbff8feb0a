import DeviceShell.Lib.Saturation
import DeviceShell.Tasking.Plans

/-!
# The legacy workflow engine

`WorkflowEngine` of `application/tasking/service.py`, one task at a time: `start`, `execute_step`,
`pause`, `resume`, `cancel` and `apply_decision`. An operation gives the engine that it leaves, also
where it raises, and the invocations of the execution tool that it made, with what the engine held
when it made them. What the tool does is given, as the outcomes of the invocations in turn; after
the last of them the task is cancelled from outside. The ids of decisions are given as well.
-/

namespace DeviceShell.Tasking.Engine

/-! ## The protocol -/

/-- `TaskStatus`. -/
inductive TaskStatus where
  | pending
  | running
  | waitingForDecision
  | waitingForUser
  | paused
  | resumed
  | completed
  | success
  | failed
  | cancelled
deriving DecidableEq, Repr

/-- `StepStatus`. -/
inductive StepStatus where
  | pending
  | running
  | waitingForDecision
  | waitingForUser
  | paused
  | resumed
  | completed
  | success
  | failed
  | skipped
  | cancelled
deriving DecidableEq, Repr

/-- `ToolError`. -/
structure ToolError where
  code : String := ""
  message : String := ""
  errorClass : String := "unknown"
  retryable : Bool := false
  details : Dict String Value := ∅

/-- `ToolError.to_dict`. -/
def ToolError.toDict (error : ToolError) : Value :=
  .dict [("code", .str error.code), ("message", .str error.message),
    ("error_class", .str error.errorClass), ("retryable", .bool error.retryable),
    ("details", .ofDict error.details)]

/-- `ToolResult`, as far as the engine reads it. -/
structure ToolResult where
  tool : String
  facts : Dict String Value := ∅
  output : String := ""
  error : Option ToolError := none
  attempt : ℕ := 1

/-- `WorkflowStepState`. -/
structure WorkflowStepState where
  stepId : String
  status : StepStatus := .pending
  attempt : ℕ := 0
  result : Option ToolResult := none
  error : Option ToolError := none

/-- `state.status in {COMPLETED, SUCCESS}`. -/
def WorkflowStepState.isDone (state : WorkflowStepState) : Bool :=
  state.status == .completed || state.status == .success

/-- `Decision`. -/
structure Decision where
  decisionId : String
  action : Action
  taskId : String := ""
  expectedRevision : Option ℤ := none

/-- `Checkpoint`. The approved steps stand in its context. -/
structure Checkpoint where
  revision : ℤ := 0
  currentStep : String := ""
  completedSteps : List String := []
  stepStates : List WorkflowStepState := []
  outputs : Dict String Value := ∅
  approvedSteps : Value := .list []
  failedStepId : String := ""
  attempts : Dict String ℕ := ∅
  pendingDecisionId : String := ""
  errorCode : String := ""
  errorMessage : String := ""
  decisions : List Decision := []

/-- `WorkflowInstance`. -/
structure WorkflowInstance where
  status : TaskStatus := .pending
  currentStep : String := ""
  outputs : Dict String Value := ∅
  stepStates : List WorkflowStepState := []
  checkpoint : Option Checkpoint := none
  decisions : List Decision := []

/-- `Task`. The approved steps stand in its context. -/
structure Task where
  id : String
  status : TaskStatus := .pending
  workflow : Option WorkflowInstance := none
  checkpoint : Option Checkpoint := none
  approvedSteps : Value := .list []
  decisions : List Decision := []

/-- `DecisionContext`. -/
structure DecisionContext where
  currentStep : String
  error : Option ToolError := none
  result : Option ToolResult := none
  availableActions : List Action
  checkpointRevision : ℤ

/-! ## Workflows -/

/-- `dep in ids` for every dependency. -/
def dependenciesIn (step : WorkflowStep) (ids : List String) : Bool :=
  step.dependsOn.all fun dependency => ids.contains dependency

/-- A round of the resolution of dependencies. -/
def resolveRound (steps : List WorkflowStep) (resolved : List String) : List String :=
  resolved ++ (steps.filter fun step =>
    !resolved.contains step.id && dependenciesIn step resolved).map (·.id)

/-- The steps whose dependencies can be resolved. -/
def resolvedSteps (steps : List WorkflowStep) : List String :=
  saturate (resolveRound steps) (steps.length + 1) []

/-- `_validate_workflow`. -/
def validateWorkflow (workflow : WorkflowDefinition) : Except PyError Unit :=
  let ids := workflow.steps.map (·.id)
  if workflow.steps = [] ∨ workflow.maxSteps < workflow.steps.length then
    .error (.valueError "Workflow step count is invalid")
  else if ¬ ids.Nodup ∨ workflow.steps.any (fun step => !dependenciesIn step ids) then
    .error (.valueError "Workflow dependencies are invalid")
  else if (resolvedSteps workflow.steps).length ≠ workflow.steps.length then
    .error (.valueError "Workflow contains a dependency cycle")
  else .ok ()

/-- A pass of `resume_from` over the steps: those that depend on one that is reset. -/
def resetPass (steps : List WorkflowStep) (reset : List String) : List String :=
  steps.foldl (fun reset step =>
    if !reset.contains step.id && step.dependsOn.any (fun d => reset.contains d) then
      reset ++ [step.id]
    else reset) reset

/-- The steps that `resume_from` resets. -/
def resetSteps (steps : List WorkflowStep) (stepId : String) : List String :=
  saturate (resetPass steps) (steps.length + 1) [stepId]

/-! ## The engine -/

/-- `WorkflowEngine`, attached to a task. -/
structure WorkflowEngine where
  workflow : WorkflowDefinition
  task : Task
  states : Dict String WorkflowStepState
  outputs : Dict String Value
  attempts : Dict String ℕ
  decisions : List Decision
  pendingContext : Option DecisionContext
  pendingDecisionId : String
  approvedSteps : List String
  revision : ℤ

/-- What an execution tool was called for: the step, the states and the approved steps at the time,
and whether it returned. -/
structure Invocation where
  step : WorkflowStep
  states : Dict String WorkflowStepState
  approvedSteps : List String
  returned : Bool

/-- What the execution tool does. -/
inductive InvokeOutcome where
  | returned (result : ToolResult)
  | raised (error : ToolError) (requiresDecision : Bool)
  | cancelled

/-- What an operation of the engine comes to. -/
structure Outcome where
  engine : WorkflowEngine
  invocations : List Invocation := []
  raised : Option PyError := none

/-- The ids of the steps that are completed. -/
def completedIds (states : Dict String WorkflowStepState) : List String :=
  states.keys.filter fun id => (states.get? id).any WorkflowStepState.isDone

/-- `_next_ready`. -/
def nextReady (steps : List WorkflowStep) (states : Dict String WorkflowStepState) : String :=
  let completed := completedIds states
  ((steps.find? fun step => !completed.contains step.id && dependenciesIn step completed).map
    (·.id)).getD ""

namespace WorkflowEngine

variable (e : WorkflowEngine)

/-- `_current_step`. -/
def currentStep : String := (e.task.workflow.map (·.currentStep)).getD ""

/-- The value of the first state that has one. -/
def firstState {α : Type} (f : WorkflowStepState → Option α) : Option α :=
  e.states.values.findSome? f

/-- `_save`. -/
def save (status : TaskStatus) (current : String) : WorkflowEngine :=
  let completed := completedIds e.states
  let checkpoint : Checkpoint := {
    revision := e.revision + 1
    currentStep := current
    completedSteps := (e.workflow.steps.map (·.id)).filter fun id => completed.contains id
    stepStates := e.states.values
    outputs := e.outputs
    approvedSteps := .list ((e.approvedSteps.mergeSort (· ≤ ·)).map .str)
    failedStepId := ((e.states.entries.find? fun s => s.2.status == .failed).map Prod.fst).getD ""
    attempts := e.attempts
    pendingDecisionId := e.pendingDecisionId
    errorCode := ((e.firstState (·.error)).map (·.code)).getD ""
    errorMessage := ((e.firstState (·.error)).map (·.message)).getD ""
    decisions := e.decisions }
  let instance_ : WorkflowInstance := {
    status := status
    currentStep := current
    outputs := e.outputs
    stepStates := e.states.values
    checkpoint := some checkpoint
    decisions := e.decisions }
  { e with
    revision := e.revision + 1
    task := { e.task with
      status := status
      workflow := some instance_
      checkpoint := some checkpoint
      decisions := e.decisions } }

@[simp] theorem save_workflow (status : TaskStatus) (current : String) :
    (e.save status current).workflow = e.workflow := rfl

@[simp] theorem save_states (status : TaskStatus) (current : String) :
    (e.save status current).states = e.states := rfl

@[simp] theorem save_attempts (status : TaskStatus) (current : String) :
    (e.save status current).attempts = e.attempts := rfl

@[simp] theorem save_approvedSteps (status : TaskStatus) (current : String) :
    (e.save status current).approvedSteps = e.approvedSteps := rfl

@[simp] theorem save_currentStep (status : TaskStatus) (current : String) :
    (e.save status current).currentStep = current := rfl

/-- The state of a step is replaced. -/
def setState (stepId : String) (f : WorkflowStepState → WorkflowStepState) : WorkflowEngine :=
  { e with states := e.states.set stepId (f ((e.states.get? stepId).getD { stepId := stepId })) }

end WorkflowEngine

/-- `_decision_actions`. -/
def decisionActions (steps : List WorkflowStep) (states : Dict String WorkflowStepState)
    (stepId : String) (userConfirmation : Bool) : List Action :=
  let act (name target : String) : Action := { name := name, targetStep := target }
  if userConfirmation then [act "approve" stepId, act "cancel" ""]
  else match steps.findIdx? fun step => step.id == stepId with
    | none => [act "retry" stepId, act "cancel" ""]
    | some index =>
      let error := ((states.get? stepId).bind (·.error)).filter fun error =>
        error.code != "unsupported_operation" && error.code != "package_upgrade_error"
      let previous := if index = 0 then none else steps[index - 1]?
      [act "retry" stepId] ++ (error.map fun _ => act "continue" stepId).toList ++
        (previous.map fun step => act "resume_from" step.id).toList ++ [act "cancel" ""]

/-! ## Starting -/

/-- `str(item)` of the items of a list or of a tuple. -/
def approvedOf [PyLib] : Value → List String
  | .list items => (items.map Value.pyStr).dedup
  | _ => []

/-- The checkpoint of a task. -/
def Task.restored (task : Task) : Option Checkpoint :=
  task.checkpoint.or (task.workflow.bind (·.checkpoint))

/-- The states that a task is started with. -/
def restoredStates (workflow : WorkflowDefinition) (task : Task) : Dict String WorkflowStepState :=
  let fresh : Dict String WorkflowStepState :=
    workflow.steps.foldl (fun d step => d.set step.id { stepId := step.id }) ∅
  match task.restored with
  | none => fresh
  | some checkpoint =>
    let kept := checkpoint.stepStates.foldl (fun d state => d.set state.stepId state) fresh
    checkpoint.completedSteps.foldl (fun d id => match d.get? id with
      | none => d
      | some state => if state.isDone then d else d.set id { state with status := .completed }) kept

/-- The step at which a task stands. -/
def Task.standsAt (task : Task) : String :=
  match task.restored with
  | some checkpoint => checkpoint.currentStep
  | none => (task.workflow.map (·.currentStep)).getD ""

/-- The step with which a task goes on. -/
def startStep (workflow : WorkflowDefinition) (task : Task) : String :=
  let states := restoredStates workflow task
  let current := task.standsAt
  if current = "" ∨ (completedIds states).contains current then nextReady workflow.steps states
  else current

/-- The steps that are listed as approved when a task is started. -/
def Task.listedSteps [PyLib] (task : Task) : List String :=
  approvedOf ((task.restored.map (·.approvedSteps)).getD task.approvedSteps)

/-- The status with which a task goes on. -/
def TaskStatus.started : TaskStatus → TaskStatus
  | .cancelled => .cancelled
  | .completed => .completed
  | .waitingForDecision => .waitingForDecision
  | .paused => .paused
  | .waitingForUser => .waitingForUser
  | _ => .running

/-- A task waits for an operator. -/
def TaskStatus.isWaiting (status : TaskStatus) : Bool :=
  status == .waitingForDecision || status == .waitingForUser

/-- The decision that a task is started with. -/
def restoredContext (workflow : WorkflowDefinition) (task : Task) : Option DecisionContext :=
  let states := restoredStates workflow task
  let failedId := (task.restored.map (·.failedStepId)).getD (startStep workflow task)
  let state := states.get? failedId
  if task.status.started.isWaiting then
    some {
      currentStep := failedId
      error := state.bind (·.error)
      result := state.bind (·.result)
      availableActions :=
        decisionActions workflow.steps states failedId (task.status.started == .waitingForUser)
      checkpointRevision := ((task.restored.map (·.revision)).getD 0) + 1 }
  else none

/-- `start`. -/
def start [PyLib] (workflow : WorkflowDefinition) (task : Task) : Except PyError WorkflowEngine :=
  (validateWorkflow workflow).map fun _ =>
    let e : WorkflowEngine := {
      workflow := workflow
      task := task
      states := restoredStates workflow task
      outputs := (task.restored.map (·.outputs)).getD ((task.workflow.map (·.outputs)).getD ∅)
      attempts := (task.restored.map (·.attempts)).getD ∅
      decisions := (task.restored.map (·.decisions)).getD task.decisions
      pendingContext := restoredContext workflow task
      pendingDecisionId := (task.restored.map (·.pendingDecisionId)).getD ""
      approvedSteps := task.listedSteps
      revision := (task.restored.map (·.revision)).getD 0 }
    e.save task.status.started (startStep workflow task)

/-! ## Execution -/

namespace WorkflowEngine

variable (e : WorkflowEngine)

/-- `create_decision`. -/
def createDecision (stepId uuid : String) (error : Option ToolError) (result : Option ToolResult)
    (waitingStatus : TaskStatus) : WorkflowEngine :=
  let context : DecisionContext := {
    currentStep := stepId
    error := error
    result := result
    availableActions :=
      decisionActions e.workflow.steps e.states stepId (waitingStatus == .waitingForUser)
    checkpointRevision := e.revision + 1 }
  { e with pendingContext := some context, pendingDecisionId := uuid }.save waitingStatus stepId

variable [PyLib]

/-- `max(1, int(step.retry_policy.get("max_attempts", 1) or 1))`. -/
def maxAttempts (step : WorkflowStep) : Except PyError ℤ :=
  ((((step.retryPolicy.get? "max_attempts").filter Value.truthy).getD (.int 1)).toInt).map (max 1)

/-- `bool(step.retry_policy.get(key, False))`. -/
def policyFlag (step : WorkflowStep) (key : String) : Bool :=
  ((step.retryPolicy.get? key).map Value.truthy).getD false

/-- `requires_judgment`. -/
def requiresJudgment (error : ToolError) (requiresDecision : Bool) : Bool :=
  requiresDecision || ["human", "agent", "ambiguous"].contains (PyLib.casefold error.errorClass)

/-- `terminal`. -/
def isTerminal (step : WorkflowStep) (error : ToolError) (requiresDecision : Bool) : Bool :=
  !requiresJudgment error requiresDecision &&
    (policyFlag step "terminal" ||
      ["terminal", "fatal"].contains (PyLib.casefold error.errorClass) ||
      error.code == "unsupported_operation")

/-- `deterministic`; such an error is retryable. -/
def isDeterministic (step : WorkflowStep) (error : ToolError) (requiresDecision : Bool) : Bool :=
  !requiresJudgment error requiresDecision &&
    (PyLib.casefold error.errorClass == "deterministic" || policyFlag step "deterministic" ||
      step.retryPolicy.contains "max_attempts")

/-- The engine with an attempt of a step begun, from a state of the step. -/
def beginAttempt (step : WorkflowStep) (state : WorkflowStepState) : WorkflowEngine :=
  let attempt := (e.attempts.get? step.id).getD state.attempt + 1
  { e with
    attempts := e.attempts.set step.id attempt
    states := e.states.set step.id { state with status := .running, attempt := attempt }
    }.save .running step.id

/-- `result.facts or {"output": result.output}`. -/
def stepOutput (result : ToolResult) : Value :=
  if result.facts.entries = [] then .dict [("output", .str result.output)] else .ofDict result.facts

/-- The engine with a step completed. -/
def completeStep (step : WorkflowStep) (result : ToolResult) : WorkflowEngine :=
  let e' := { e with outputs := e.outputs.set step.id (stepOutput result) }.setState step.id
    fun state => { state with status := .completed, result := some result, error := none }
  let next := nextReady e'.workflow.steps e'.states
  e'.save (if next = "" then .completed else .running) next

/-- `failed_result`. -/
def failedResult (step : WorkflowStep) (error : ToolError) (attempt : ℕ) : ToolResult where
  tool := if step.action.name ≠ "" then step.action.name else step.kind
  error := some error
  attempt := attempt

/-- The engine with an attempt of a step failed. -/
def failStep (step : WorkflowStep) (error : ToolError) : WorkflowEngine :=
  let attempt := (e.attempts.get? step.id).getD 0
  e.setState step.id fun state =>
    { state with
      status := .failed, result := some (failedResult step error attempt), error := some error }

/-- The loop of `execute_step`, from a state of the step. -/
def attemptStep (step : WorkflowStep) (maxAttempts : ℤ) (uuid : String) :
    List InvokeOutcome → WorkflowEngine → WorkflowStepState → Outcome
  | [], e, state =>
    let e := e.beginAttempt step state
    { engine := e
      invocations := [⟨step, e.states, e.approvedSteps, false⟩]
      raised := some (.other "CancelledError") }
  | outcome :: rest, e, state =>
    let e := e.beginAttempt step state
    let attempt := (e.attempts.get? step.id).getD 0
    match outcome with
    | .cancelled =>
      { engine := e
        invocations := [⟨step, e.states, e.approvedSteps, false⟩]
        raised := some (.other "CancelledError") }
    | .returned result =>
      { engine := e.completeStep step result
        invocations := [⟨step, e.states, e.approvedSteps, true⟩] }
    | .raised error requiresDecision =>
      let failed := e.failStep step error
      let invocation : Invocation := ⟨step, e.states, e.approvedSteps, false⟩
      if isTerminal step error requiresDecision then
        { engine := failed.save .failed step.id, invocations := [invocation] }
      else if isDeterministic step error requiresDecision ∧ attempt < maxAttempts then
        -- The next attempt begins from the state that this one failed with.
        let next := attemptStep step maxAttempts uuid rest failed
          ((failed.states.get? step.id).getD state)
        { next with invocations := invocation :: next.invocations }
      else
        { engine := failed.createDecision step.id uuid (some error)
            (some (failedResult step error attempt)) .waitingForDecision
          invocations := [invocation] }

/-- `execute_step`. -/
def executeStep (uuid : String) (outcomes : List InvokeOutcome) : Outcome :=
  if e.task.status ∈ [.paused, .cancelled, .completed, .waitingForDecision, .waitingForUser] then
    { engine := e }
  else if e.currentStep = "" then { engine := e.save .completed "" }
  else match e.workflow.steps.find? fun step => step.id == e.currentStep with
    | none => { engine := e, raised := some (.other "coroutine raised StopIteration") }
    | some step =>
      if PyLib.casefold step.kind = "decision" then
        { engine := e.createDecision step.id uuid none none .waitingForDecision }
      else if step.action.confirmationRequired ∧ step.id ∉ e.approvedSteps then
        { engine := e.createDecision step.id uuid none none .waitingForUser }
      else match maxAttempts step with
        | .error error => { engine := e, raised := some error }
        | .ok maxAttempts =>
          attemptStep step maxAttempts uuid outcomes e
            ((e.states.get? step.id).getD { stepId := step.id })

/-! ## Operators -/

omit [PyLib] in
/-- `pause`. -/
def pause : WorkflowEngine :=
  if e.task.status ∈ [.running, .resumed] then e.save .paused e.currentStep else e

omit [PyLib] in
/-- `resume`. -/
def resume : WorkflowEngine :=
  if e.task.status ∈ [.paused, .waitingForUser, .resumed] then e.save .running e.currentStep else e

omit [PyLib] in
/-- `cancel`. -/
def cancel : WorkflowEngine :=
  if e.task.status ∈ [.completed, .cancelled] then e
  else { e with pendingContext := none, pendingDecisionId := "" }.save .cancelled e.currentStep

omit [PyLib] in
/-- The error of a step that is not known. -/
def unknownStep (stepId : String) : PyError := .valueError ("Unknown workflow step: " ++ stepId)

omit [PyLib] in
/-- The state of a step as it is reset. -/
def resetState (stepId : String) : WorkflowEngine :=
  { e.setState stepId fun state => { state with status := .pending, result := none, error := none }
    with attempts := e.attempts.set stepId 0 }

omit [PyLib] in
/-- `retry_step`. -/
def retryStep (stepId : String) : Outcome :=
  if e.states.contains stepId = false then { engine := e, raised := some (unknownStep stepId) }
  else
    let reset := e.resetState stepId
    { engine := { reset with pendingContext := none, pendingDecisionId := "" }.save .running stepId }

omit [PyLib] in
/-- `resume_from`. -/
def resumeFrom (stepId : String) : Outcome :=
  if e.states.contains stepId = false then { engine := e, raised := some (unknownStep stepId) }
  else
    let reset := (resetSteps e.workflow.steps stepId).foldl
      (fun e id => { e.resetState id with outputs := e.outputs.erase id }) e
    { engine := { reset with pendingContext := none, pendingDecisionId := "" }.save .running stepId }

omit [PyLib] in
/-- The result of a step whose failure an operator accepted. -/
def acceptedResult (stepId : String) (state : WorkflowStepState) : ToolResult where
  tool := (state.result.map (·.tool)).getD stepId
  facts := ⟨[("human_confirmed", .bool true),
    ("accepted_error", (state.error.map ToolError.toDict).getD (.dict []))]⟩
  output := (state.result.map (·.output)).getD ""
  attempt := state.attempt

omit [PyLib] in
/-- `accept_failed_step`. -/
def acceptFailedStep (stepId : String) : Outcome :=
  match e.states.get? stepId with
  | none => { engine := e, raised := some (unknownStep stepId) }
  | some state =>
    let result := acceptedResult stepId state
    let accepted : WorkflowEngine := { e with
      states := e.states.set stepId
        { state with status := .completed, result := some result, error := none }
      outputs := e.outputs.set stepId (.ofDict result.facts) }
    let next := nextReady accepted.workflow.steps accepted.states
    { engine := { accepted with pendingContext := none, pendingDecisionId := "" }.save
        (if next = "" then .completed else .running) next }

/-- `action.target_step or str(action.parameters.get("step_id") or ...)`, or else the current
step. -/
def targetOf (action : Action) : String :=
  let given := if action.targetStep ≠ "" then action.targetStep
    else Value.strOr (((action.parameters.get? "step_id").filter Value.truthy).or
      (action.parameters.get? "target_step")) ""
  if given ≠ "" then given else e.currentStep

/-- The action of a name that the pending decision offers. -/
def offered (name : String) : Option Action :=
  e.pendingContext.bind fun context =>
    context.availableActions.find? fun action => PyLib.casefold action.name == name

/-- The names that `apply_decision` knows. -/
def decisionNames : List String :=
  ["retry", "retry_step", "resume_from", "resume-from", "cancel", "pause", "resume", "continue",
    "accept", "accept_failure", "accept-failure", "approve"]

/-- The checks of `apply_decision`. -/
def checkDecision (decision : Decision) : Except PyError String :=
  let name := PyLib.casefold decision.action.name
  if e.pendingContext.isNone ∨ e.task.status.isWaiting = false then
    .error (.valueError "Workflow is not waiting for a decision")
  else if decision.expectedRevision.any fun revision => revision ≠ e.revision then
    .error (.valueError "Decision checkpoint revision does not match the workflow")
  else if decision.taskId ≠ "" ∧ decision.taskId ≠ e.task.id then
    .error (.valueError "Decision belongs to another task")
  else if name ∉ decisionNames then
    .error (.valueError ("Unsupported workflow decision action: " ++ decision.action.name))
  else if e.offered name = none then
    .error (.valueError ("Workflow decision action is not available: " ++ decision.action.name))
  else .ok name

/-- The names of a retry. -/
def retryNames : List String := ["retry", "retry_step"]

/-- The names of a return to a step. -/
def resumeFromNames : List String := ["resume_from", "resume-from"]

/-- The names of an acceptance. -/
def acceptNames : List String := ["continue", "accept", "accept_failure", "accept-failure"]

/-- What a decision with a name does to the engine. -/
def takeAction (name target : String) : Outcome :=
  if name ∈ retryNames then e.retryStep target
  else if name ∈ resumeFromNames then e.resumeFrom target
  else if name ∈ acceptNames then e.acceptFailedStep target
  else if name = "cancel" then { engine := e.cancel }
  else if name = "pause" then { engine := e.pause }
  else if name = "approve" then
    { engine := { e with approvedSteps := insert target e.approvedSteps }.resume }
  else { engine := e.resume }

/-- `apply_decision`. -/
def applyDecision (decision : Decision) : Outcome :=
  match e.checkDecision decision with
  | .error error => { engine := e, raised := some error }
  | .ok name =>
    let taken := { e with
      decisions := e.decisions ++ [decision], pendingContext := none, pendingDecisionId := "" }
    taken.takeAction name (e.targetOf decision.action)

end WorkflowEngine

end DeviceShell.Tasking.Engine
