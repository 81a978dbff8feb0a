import DeviceShell.Terminal.Runner

/-!
# One execution per session

`TerminalExecutionCoordinator` of `application/terminal/execution_coordinator.py`: the executions,
and for each session the lease that says who uses it. A lease is held by an execution or by an
external owner; an execution that an external owner starts under its own lease gives it back when it
finishes.

The lock of the coordinator makes each of its methods one step. A runner calls `on_finished` from
within its own method, and the coordinator changes only its leases then, so `onRunner` runs the
method first and the callback after it.
-/

namespace DeviceShell.Terminal

/-! ## State -/

/-- What a coordinator is made with. -/
structure Services where
  resolveSecret : String → Except PyError String
  /-- The readings of the clock that the execution with the given id takes. -/
  clock : String → ℕ → ℚ

/-- A `TerminalExecutionRunner` with what it was made with. -/
structure Registered where
  execution : Execution
  runner : Runner

namespace Registered

/-- Whether an execution is running. -/
def isRunning (r : Registered) : Bool := r.runner.status = .running

/-- `runner.session_id`. -/
def sessionId (r : Registered) : String := r.execution.sessionId

end Registered

/-- The state of a `TerminalExecutionCoordinator`. -/
structure Coordinator where
  executions : Dict String Registered := ∅
  sessionLeases : Dict String String := ∅
  /-- The callback of each external owner, by a name for the callback. -/
  externalLeaseCancellers : Dict String String := ∅
  runnerParentLeases : Dict String String := ∅
  idempotency : Dict String String := ∅
  /-- The callbacks of external owners that have been called, the last first. -/
  called : List String := []

/-- A method of the coordinator. -/
abbrev CoordinatorM := Method ExecutionError Coordinator

namespace Coordinator

/-- `self._session_leases.get(session_id)`, where it is not empty. -/
def activeId (c : Coordinator) (sessionId : String) : Option String :=
  (c.sessionLeases.get? sessionId).filter (· ≠ "")

/-- `_runner_finished`. -/
def runnerFinished (execution : Execution) (c : Coordinator) : Coordinator :=
  if c.sessionLeases.get? execution.sessionId = some execution.executionId then
    let parentId := (c.runnerParentLeases.get? execution.executionId).getD ""
    { c with
      runnerParentLeases := c.runnerParentLeases.erase execution.executionId
      sessionLeases :=
        if parentId ≠ "" && c.externalLeaseCancellers.contains parentId then
          c.sessionLeases.set execution.sessionId parentId
        else c.sessionLeases.erase execution.sessionId }
  else c

/-- The state of a runner changes, and it calls `on_finished` if it has finished. -/
def store (registered : Registered) (runner : Runner) (c : Coordinator) : Coordinator :=
  let changed := { c with
    executions := c.executions.set registered.execution.executionId
      { registered with runner := runner } }
  if registered.runner.effects.count .finished < runner.effects.count .finished then
    changed.runnerFinished registered.execution
  else changed

/-- `can_use_parent_lease`. -/
def canUseParentLease (c : Coordinator) (sessionId leaseOwnerId : String) : Bool :=
  c.activeId sessionId = some leaseOwnerId && c.externalLeaseCancellers.contains leaseOwnerId

/-- A runner is registered and takes the lease of its session. -/
def register (execution : Execution) (parentId : Option String) (idempotencyKey : String)
    (c : Coordinator) : Coordinator :=
  { c with
    executions := c.executions.set execution.executionId { execution := execution, runner := {} }
    sessionLeases := c.sessionLeases.set execution.sessionId execution.executionId
    runnerParentLeases := match parentId with
      | some parentId => c.runnerParentLeases.set execution.executionId parentId
      | none => c.runnerParentLeases
    idempotency :=
      if idempotencyKey ≠ "" then c.idempotency.set idempotencyKey execution.executionId
      else c.idempotency }

end Coordinator

/-! ## Methods -/

/-- `TerminalPlanError("session_busy", ...)`. -/
def sessionBusy (activeId : String) : ExecutionError :=
  .terminalPlan "session_busy" ("会话正在执行其他任务: " ++ activeId)

section

variable [PyLib]

/-- A method of a runner that is registered. -/
def onRunner {α : Type} (registered : Registered) (m : RunnerM α) : CoordinatorM α :=
  match m.run registered.runner with
  | none => Method.exhausted
  | some (result, runner) => do
    modify fun c => c.store registered runner
    Method.lift result

/-- What `start` makes a runner with. -/
def Services.execution (services : Services) (sessionId deviceId : String)
    (plan : TerminalExecutionPlan) (runId : String) : Execution where
  executionId := runId
  sessionId := sessionId
  deviceId := deviceId
  plan := plan
  resolveSecret := services.resolveSecret
  clock := services.clock runId

/-- The arguments of `start`, with the text that `uuid4` returns. -/
structure StartRequest where
  sessionId : String
  deviceId : String
  plan : TerminalExecutionPlan
  executionId : String := ""
  idempotencyKey : String := ""
  leaseOwnerId : String := ""
  uuid : String

namespace StartRequest

/-- `run_id`. -/
def runId (request : StartRequest) : String :=
  if request.executionId ≠ "" then request.executionId else request.uuid

/-- The execution that the request names by its idempotency key. -/
def existing (request : StartRequest) (c : Coordinator) : Option String :=
  if request.idempotencyKey ≠ "" then
    (c.idempotency.get? request.idempotencyKey).filter (· ≠ "")
  else none

/-- The lease under which the request starts its execution, or the id that keeps it from
starting. -/
def parent (request : StartRequest) (c : Coordinator) : Except String (Option String) :=
  match c.activeId request.sessionId with
  | none => .ok none
  | some activeId =>
    if c.canUseParentLease request.sessionId request.leaseOwnerId then .ok (some activeId)
    else .error activeId

end StartRequest

namespace Coordinator

/-- `start`, which returns the id of the runner. -/
def start (services : Services) (fuel : ℕ) (request : StartRequest) : CoordinatorM String := do
  let c ← get
  match request.existing c with
  | some existingId => match c.executions.get? existingId with
    | some _ => pure existingId
    | none => throw (.python (.keyError existingId))
  | none => match request.parent c with
    | .error activeId => throw (sessionBusy activeId)
    | .ok parentId => do
      let execution := services.execution request.sessionId request.deviceId request.plan
        request.runId
      modify fun c => c.register execution parentId request.idempotencyKey
      onRunner { execution := execution, runner := {} } (Terminal.start execution fuel)
      return request.runId

/-- `get`. -/
def find (executionId : String) : CoordinatorM Registered := do
  let c ← get
  match c.executions.get? executionId with
  | some registered => pure registered
  | none => throw (.terminalPlan "execution_not_found" ("未找到终端执行: " ++ executionId))

/-- `cancel`. -/
def cancel (executionId : String) (byUser : Bool) : CoordinatorM Unit := do
  let registered ← find executionId
  onRunner registered (Terminal.cancel registered.execution byUser)

/-- What `resume` does when the runner raises: a lease that the execution holds is given up. -/
def rollback (execution : Execution) (executionId : String) (c : Coordinator) : Coordinator :=
  if c.sessionLeases.get? execution.sessionId = some executionId then
    { c with sessionLeases := c.sessionLeases.erase execution.sessionId }
  else c

/-- `resume`. -/
def resume (fuel : ℕ) (executionId : String) : CoordinatorM Unit := do
  let registered ← find executionId
  let sessionId := registered.sessionId
  let c ← get
  match (c.activeId sessionId).filter (· ≠ executionId) with
  | some activeId => throw (sessionBusy activeId)
  | none => do
    modify fun c => { c with sessionLeases := c.sessionLeases.set sessionId executionId }
    tryCatch (onRunner registered (Terminal.resume registered.execution fuel)) fun e => do
      modify fun c => c.rollback registered.execution executionId
      throw e

/-- `cancel_for_user_input`. -/
def cancelForUserInput (sessionId : String) : CoordinatorM String := do
  let c ← get
  let executionId := (c.sessionLeases.get? sessionId).getD ""
  match c.executions.get? executionId, c.externalLeaseCancellers.get? executionId with
  | some _, _ => do
    cancel executionId true
    return executionId
  | none, some onCancel => do
    modify fun c => { c with
      sessionLeases := c.sessionLeases.erase sessionId
      externalLeaseCancellers := c.externalLeaseCancellers.erase executionId
      called := onCancel :: c.called }
    return executionId
  | none, none => pure executionId

/-- `acquire_external_lease`. -/
def acquireExternalLease (sessionId ownerId onCancel : String) : CoordinatorM Unit := do
  let c ← get
  match (c.activeId sessionId).filter (· ≠ ownerId) with
  | some activeId => throw (sessionBusy activeId)
  | none => modify fun c => { c with
      sessionLeases := c.sessionLeases.set sessionId ownerId
      externalLeaseCancellers := c.externalLeaseCancellers.set ownerId onCancel }

/-- `release_external_lease`. -/
def releaseExternalLease (sessionId ownerId : String) : CoordinatorM Unit :=
  modify fun c => { c with
    sessionLeases :=
      if c.sessionLeases.get? sessionId = some ownerId then c.sessionLeases.erase sessionId
      else c.sessionLeases
    externalLeaseCancellers := c.externalLeaseCancellers.erase ownerId }

/-- `_active_for_session`. -/
def activeForSession (c : Coordinator) (sessionId : String) : Option Registered :=
  (c.activeId sessionId).bind c.executions.get?

variable [PyRe]

/-- A stimulus for the execution that holds the lease of a session: `on_output` and
`on_session_state`. -/
def onSession (fuel : ℕ) (sessionId : String) (stimulus : Stimulus) : CoordinatorM Unit := do
  let c ← get
  match c.activeForSession sessionId with
  | some registered => onRunner registered (handle registered.execution fuel stimulus)
  | none => pure ()

/-- A stimulus for an execution by its id: a scheduled callback, or the caller's input through
`get(execution_id).send_manual_input(...)`. -/
def onExecution (fuel : ℕ) (executionId : String) (stimulus : Stimulus) : CoordinatorM Unit := do
  let registered ← find executionId
  onRunner registered (handle registered.execution fuel stimulus)

end Coordinator

variable [PyRe]

/-- What can happen to a coordinator. -/
inductive Operation where
  | start (request : StartRequest)
  | cancel (executionId : String) (byUser : Bool)
  | resume (executionId : String)
  | cancelForUserInput (sessionId : String)
  | acquireExternalLease (sessionId ownerId onCancel : String)
  | releaseExternalLease (sessionId ownerId : String)
  | output (sessionId message : String)
  | sessionState (sessionId state : String)
  | fires (executionId : String) (timer : Timer)
  | manualInput (executionId text control secretRef : String) (appendEnter : Bool)

/-- The method that an operation calls. -/
def perform (services : Services) (fuel : ℕ) : Operation → CoordinatorM Unit
  | .start request => do
    let _ ← Coordinator.start services fuel request
    return ()
  | .cancel executionId byUser => Coordinator.cancel executionId byUser
  | .resume executionId => Coordinator.resume fuel executionId
  | .cancelForUserInput sessionId => do
    let _ ← Coordinator.cancelForUserInput sessionId
    return ()
  | .acquireExternalLease sessionId ownerId onCancel =>
    Coordinator.acquireExternalLease sessionId ownerId onCancel
  | .releaseExternalLease sessionId ownerId => Coordinator.releaseExternalLease sessionId ownerId
  | .output sessionId message => Coordinator.onSession fuel sessionId (.output message)
  | .sessionState sessionId state => Coordinator.onSession fuel sessionId (.sessionState state)
  | .fires executionId timer => Coordinator.onExecution fuel executionId (.fires timer)
  | .manualInput executionId text control secretRef appendEnter =>
    Coordinator.onExecution fuel executionId (.manualInput text control secretRef appendEnter)

end

end DeviceShell.Terminal
