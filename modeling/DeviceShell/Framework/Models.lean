import DeviceShell.Lib.PyLib

/-!
# The records of the workflow framework

The data model of `framework/models.py` and `framework/events.py`, as far as the runtime, the
orchestrator and the decision engine read or write it. Presentation fields (labels, summaries of
options) and the fields that only handlers read (an action's parameters, its interaction policy)
are left out.
-/

namespace DeviceShell.Framework

/-- `RunStatus`, with the one further text that a stored run may carry and that the orchestrator
looks for, `unknown`. -/
inductive RunStatus where
  | pending
  | running
  | waitingReconcile
  | waitingDecision
  | recovering
  | paused
  | succeeded
  | failed
  | cancelled
  | unknown
deriving DecidableEq, Repr

/-- The text of a status. -/
def RunStatus.value : RunStatus → String
  | .pending => "pending"
  | .running => "running"
  | .waitingReconcile => "waiting_reconcile"
  | .waitingDecision => "waiting_decision"
  | .recovering => "recovering"
  | .paused => "paused"
  | .succeeded => "succeeded"
  | .failed => "failed"
  | .cancelled => "cancelled"
  | .unknown => "unknown"

/-- `status in {RunStatus.SUCCEEDED, RunStatus.FAILED, RunStatus.CANCELLED}`. -/
def RunStatus.terminal : RunStatus → Bool
  | .succeeded => true
  | .failed => true
  | .cancelled => true
  | _ => false

/-- `status in {RunStatus.RUNNING, RunStatus.RECOVERING}`: what a tick acts on. -/
def RunStatus.active : RunStatus → Bool
  | .running => true
  | .recovering => true
  | _ => false

/-- A status that a tick acts on is not terminal. -/
theorem RunStatus.not_terminal_of_active {s : RunStatus} (h : s.active = true) :
    s.terminal = false := by
  cases s <;> simp_all [RunStatus.active, RunStatus.terminal]

/-- `ActionStatus`. -/
inductive ActionStatus where
  | planned
  | running
  | succeeded
  | failed
  | timedOut
  | unknown
  | cancelled
deriving DecidableEq, Repr

/-- `ReconcileClassification`. A provider may return any text; the runtime compares with these. -/
inductive ReconcileClassification where
  | success
  | notStarted
  | inProgress
  | failed
  | indeterminate
deriving DecidableEq, Repr

/-- The text of a classification. -/
def ReconcileClassification.value : ReconcileClassification → String
  | .success => "confirmed_success"
  | .notStarted => "confirmed_not_started"
  | .inProgress => "confirmed_in_progress"
  | .failed => "confirmed_failed"
  | .indeterminate => "indeterminate"

/-- `Expectation`. -/
structure Expectation where
  eventType : String
  timeoutSeconds : ℚ := 30
  idleTimeoutSeconds : ℚ := 0
  terminal : Bool := true

/-- `ReconcilePolicy`. -/
structure ReconcilePolicy where
  provider : String := ""
  probes : List String := []
  onClassification : Dict String String := ∅

/-- `Option` of a decision point. -/
structure DecisionOption where
  id : String
  kind : String
  allowedActors : List String := ["human", "agent", "rule"]
  requiresReason : Bool := false
  inputSchema : Dict String Value := ∅
  nextState : String := ""

/-- `ActionSpec`. -/
structure ActionSpec where
  id : String
  operation : String
  expectations : List Expectation := []
  timeoutSeconds : ℚ := 60
  maxAttempts : ℕ := 1
  reconcile : ReconcilePolicy := {}
  risk : String := "normal"

/-- `StateNode`. -/
structure StateNode where
  id : String
  action : Option ActionSpec := none
  nextState : String := ""
  transitions : Dict String String := ∅
  decisionOptions : List DecisionOption := []
  terminal : Bool := false

/-- `WorkflowDefinition`. -/
structure WorkflowDefinition where
  id : String
  version : String
  startState : String
  states : List StateNode

/-- The first state with an id: `next(item for item in definition.states if item.id == id)`, which
raises when there is none. -/
def WorkflowDefinition.state (d : WorkflowDefinition) (id : String) : Except PyError StateNode :=
  match d.states.find? (·.id == id) with
  | some state => .ok state
  | none => .error .stopIteration

/-- The key under which the runtime registers a definition. -/
def WorkflowDefinition.key (d : WorkflowDefinition) : String := d.id ++ ":" ++ d.version

/-- The states that the transitions of a state name. -/
def StateNode.references (s : StateNode) : List String :=
  (if s.nextState = "" then [] else [s.nextState]) ++ s.transitions.values

/-- A risky action without a reconcile provider must at least have probes. -/
def StateNode.needsProbes [PyLib] (s : StateNode) : Bool :=
  match s.action with
  | some action =>
    action.reconcile.provider == "" &&
      ["high", "critical"].contains (PyLib.casefold action.risk) && action.reconcile.probes.isEmpty
  | none => false

/-- `WorkflowDefinition.validate`. -/
def WorkflowDefinition.validate [PyLib] (d : WorkflowDefinition) : Except PyError Unit := do
  if isBlank d.id || isBlank d.version then
    throw (.valueError "workflow id and version are required")
  if d.states.isEmpty then
    throw (.valueError "workflow must contain at least one state")
  let ids := d.states.map (·.id)
  if ids.dedup.length ≠ ids.length || !ids.contains d.startState then
    throw (.valueError "workflow states or start_state are invalid")
  match d.states.find? (·.needsProbes) with
  | some state => throw (.valueError s!"destructive state requires reconcile probes: {state.id}")
  | none => pure ()
  if (d.states.flatMap (·.references)).any (fun r => !ids.contains r) then
    throw (.valueError "workflow references an unknown state")

/-- `DeviceStateSnapshot`, of which the watchdog reads the reachability. -/
structure DeviceStateSnapshot where
  reachability : String := "unknown"

/-- `ProgressSnapshot`. -/
structure ProgressSnapshot where
  stage : String := ""
  lastEventType : String := ""
  lastProgressAt : String := ""

/-- `ActionAttempt`. -/
structure ActionAttempt where
  id : String
  actionId : String
  attempt : ℕ
  status : ActionStatus := .planned
  startedAt : String := ""
  deadlineAt : String := ""
  lastProgressAt : String := ""
  lastEventType : String := ""
  result : Dict String Value := ∅
  error : Option (Dict String Value) := none

/-- `Event`. The id is `none` for an event that was built with a fresh one. -/
structure Event where
  type : String
  runId : String
  actionId : String := ""
  eventId : Option String := none
  observedAt : String := ""
  progress : Bool := false

/-- What a handler may put among its result's events: an event, or the bare name of one. -/
inductive ResultEvent where
  | event (e : Event)
  | named (type : String)

/-- `ActionResult`. -/
structure ActionResult where
  status : ActionStatus
  events : List ResultEvent := []
  facts : Dict String Value := ∅
  error : Option (Dict String Value) := none

/-- `ReconcileResult`. -/
structure ReconcileResult where
  classification : String
  facts : Dict String Value := ∅
  evidence : List (Dict String Value) := []

/-- `DecisionPoint`. -/
structure DecisionPoint where
  id : String
  runId : String
  revision : ℕ
  reasonCode : String
  options : List DecisionOption
  evidence : List (Dict String Value) := []

/-- `WorkflowRun`. -/
structure WorkflowRun where
  id : String
  workflowId : String
  workflowVersion : String
  deviceId : String
  status : RunStatus := .pending
  currentState : String := ""
  revision : ℕ := 0
  context : Dict String Value := ∅
  deviceState : DeviceStateSnapshot := {}
  progress : ProgressSnapshot := {}
  attempts : List ActionAttempt := []
  decisionPoint : Option DecisionPoint := none
  error : Option (Dict String Value) := none
  outputs : Dict String Value := ∅

/-- The key under which the runtime looks for a run's definition. -/
def WorkflowRun.definitionKey (run : WorkflowRun) : String :=
  run.workflowId ++ ":" ++ run.workflowVersion

/-- The context key of the fence. -/
def recoveryKey : String := "framework.recovery"

/-- `recovery = run.context.get("framework.recovery")`, when it is a dictionary. -/
def WorkflowRun.recovery? (run : WorkflowRun) : Option (Dict String Value) :=
  (run.context.get? recoveryKey).bind Value.asDict?

/-- `isinstance(recovery, dict) and bool(recovery.get("required"))`. -/
def WorkflowRun.fenced (run : WorkflowRun) : Bool :=
  match run.recovery? with
  | some recovery => ((recovery.get? "required").map Value.truthy).getD false
  | none => false

end DeviceShell.Framework
