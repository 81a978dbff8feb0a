import DeviceShell.Lib.Machine
import Mathlib.Data.List.Perm.Basic
import Mathlib.Logic.Function.Basic

/-!
# The queues of the transfers

`TransferQueueMixin` of `application/transfer_queue.py` with what `ManagedTransferService` and
`OperationManager` do to queued transfers. Every session has a queue of operations and at most one
worker, a coroutine that takes the operations from the queue one by one, makes each a task and awaits
it. What a coroutine does between two points where it suspends happens at once.

The file service and its idle stop are in `Transfers.ServiceLifecycle`. The progress of a transfer
is left out. The executor of terminal plans does nothing to a queue, except that it calls back when
the terminal is taken over.
-/

namespace DeviceShell.Transfers

/-! ## Operations -/

/-- `OperationRecord.status`. -/
inductive OperationStatus where
  | queued | running | staged | completed | failed | cancelled | interrupted
deriving DecidableEq

/-- `TERMINAL_OPERATION_STATUSES`. -/
def OperationStatus.terminal : OperationStatus → Bool
  | .queued | .running => false
  | .staged | .completed | .failed | .cancelled | .interrupted => true

/-- What is read and shown of an operation. -/
structure OperationRecord where
  sessionId : String
  status : OperationStatus
  stage : String
  message : String
  queuePosition : Option ℕ := none
  cancellable : Bool := true
  errorCode : String := ""
deriving DecidableEq

/-- The arguments of `OperationManager.update`. -/
structure Update where
  status : Option OperationStatus := none
  stage : Option String := none
  message : Option String := none
  queuePosition : Option ℕ := none
  clearQueuePosition : Bool := false
  errorCode : Option String := none

/-- The record that `update` stores. -/
def OperationRecord.update (r : OperationRecord) (u : Update) : OperationRecord :=
  let status := u.status.getD r.status
  { r with
    status := status
    stage := u.stage.getD r.stage
    message := u.message.getD r.message
    queuePosition :=
      if u.clearQueuePosition then none else (u.queuePosition.map (max 1)).or r.queuePosition
    cancellable := r.cancellable && !status.terminal
    errorCode := u.errorCode.getD r.errorCode }

/-- What is registered to cancel an operation: `_cancel_queued` or `_cancel_active` of a session. -/
inductive Canceller where
  | queued (sessionId : String)
  | active (sessionId : String)
deriving DecidableEq

/-! ## Coroutines -/

/-- Where a worker is: it is to be resumed, or it awaits the task of an operation. -/
inductive Worker where
  | ready
  | waiting (operationId : String)
deriving DecidableEq

/-- Where the task of a transfer is. -/
inductive Phase where
  | created
  | running
  /-- It is over, with an exception that is not a cancellation or without one. -/
  | done (crashed : Bool)
deriving DecidableEq

/-- `task.done()`. -/
def Phase.over : Phase → Bool
  | .done _ => true
  | _ => false

/-- The task of a transfer. -/
structure TransferTask where
  operationId : String
  sessionId : String
  phase : Phase := .created
  cancelRequested : Bool := false
deriving DecidableEq

/-- What happens to an operation and its queue. -/
inductive QueueEvent where
  | enqueued (sessionId operationId : String)
  /-- It is taken from the queue and made a task. -/
  | launched (sessionId operationId : String)
  /-- It leaves the queue otherwise. -/
  | dropped (sessionId operationId : String)
deriving DecidableEq

/-- The operation that an event is about. -/
def QueueEvent.operationId : QueueEvent → String
  | .enqueued _ id => id
  | .launched _ id => id
  | .dropped _ id => id

/-- The service, with the events so far, the last one first. -/
structure TransferService where
  records : String → Option OperationRecord := fun _ => none
  cancellers : String → Option Canceller := fun _ => none
  queues : String → List String := fun _ => []
  workers : String → Option Worker := fun _ => none
  tasks : List TransferTask := []
  paused : String → Bool := fun _ => false
  /-- The text of the error of `_connected_session`. -/
  unavailable : String → Option String := fun _ => none
  log : List QueueEvent := []

namespace TransferService

variable (s : TransferService)

/-! ## `OperationManager` -/

/-- `update`. -/
def update (id : String) (u : Update) : TransferService :=
  match s.records id with
  | none => s
  | some r =>
    let r := r.update u
    { s with
      records := Function.update s.records id (some r)
      cancellers := if r.status.terminal then Function.update s.cancellers id none else s.cancellers }

/-- `register_canceller`. -/
def registerCanceller (id : String) (canceller : Canceller) : TransferService :=
  match s.records id with
  | none => s
  | some r =>
    if r.status.terminal then s
    else { s with cancellers := Function.update s.cancellers id (some canceller) }

/-- `_mark_cancelled`. -/
def markCancelled (id : String) : TransferService :=
  match s.records id with
  | none => s
  | some r =>
    if r.status.terminal then s
    else s.update id {
      status := some .cancelled
      stage := some "cancelled"
      message := some "文件传输已取消。"
      clearQueuePosition := true
      errorCode := some "transfer_cancelled" }

/-- `_mark_failed`. -/
def markFailed (id code message : String) : TransferService :=
  match s.records id with
  | none => s
  | some r =>
    if r.status.terminal then s
    else if code = "transfer_cancelled" then s.markCancelled id
    else s.update id {
      status := some .failed
      stage := some r.stage
      message := some message
      clearQueuePosition := true
      errorCode := some code }

/-! ## Queues -/

/-- `"paused" if paused else "queued"`. -/
def queueStage (paused : Bool) : String := if paused then "paused" else "queued"

/-- The loops over the operations of a queue, from a position on: what `_refresh_queue_positions`,
`_pause_queue_for_takeover` and `resume_queue` do to those that are queued. An operation without a
record would raise; there is none in a queue. -/
def updateQueued (u : ℕ → Update) : ℕ → List String → TransferService → TransferService
  | _, [], s => s
  | position, id :: rest, s =>
    updateQueued u (position + 1) rest (match s.records id with
      | none => s
      | some r => if r.status = .queued then s.update id (u position) else s)

/-- `_refresh_queue_positions`. -/
def refreshQueuePositions (sessionId : String) : TransferService :=
  updateQueued (fun position =>
      { queuePosition := some position, stage := some (queueStage (s.paused sessionId)) })
    1 (s.queues sessionId) s

def setQueue (sessionId : String) (queue : List String) : TransferService :=
  { s with queues := Function.update s.queues sessionId queue }

def setWorker (sessionId : String) (worker : Option Worker) : TransferService :=
  { s with workers := Function.update s.workers sessionId worker }

def record (e : QueueEvent) : TransferService := { s with log := e :: s.log }

/-- `_ensure_worker`. -/
def ensureWorker (sessionId : String) : TransferService :=
  if s.paused sessionId = true ∨ s.workers sessionId ≠ none then s
  else s.setWorker sessionId (some .ready)

/-- `_enqueue`. -/
def enqueue (id sessionId : String) : TransferService :=
  let s := (s.setQueue sessionId (s.queues sessionId ++ [id])).record (.enqueued sessionId id)
  let s := s.registerCanceller id (.queued sessionId)
  (s.refreshQueuePositions sessionId).ensureWorker sessionId

/-- `start_upload` and `start_download`, where what is asked for is in order. -/
def start (id sessionId : String) : TransferService :=
  match s.unavailable sessionId with
  | some _ => s
  | none =>
    let created : OperationRecord :=
      { sessionId := sessionId, status := .queued, stage := "queued", message := "文件传输已加入队列。" }
    enqueue { s with records := Function.update s.records id (some created) } id sessionId

/-! ## The worker -/

/-- The end of `_run_session_queue`. -/
def finishWorker (sessionId : String) : TransferService :=
  let s := s.setWorker sessionId none
  if s.queues sessionId = [] then s else s.ensureWorker sessionId

/-- An operation of the queue is made a task. -/
def launch (id sessionId : String) : TransferService :=
  let s := s.update id {
    status := some .running
    stage := some "prechecking"
    message := some "正在准备传输。"
    clearQueuePosition := true }
  let s := { s with tasks := { operationId := id, sessionId := sessionId } :: s.tasks }
  let s := s.registerCanceller id (.active sessionId)
  (s.setWorker sessionId (some (.waiting id))).record (.launched sessionId id)

/-- The loop of `_run_session_queue` over what is in the queue, until a task is awaited. -/
def drain (sessionId : String) : List String → TransferService → TransferService
  | [], s => s.finishWorker sessionId
  | id :: rest, s =>
    let s := (s.setQueue sessionId rest).refreshQueuePositions sessionId
    match s.records id with
    | none => (s.record (.dropped sessionId id)).finishWorker sessionId
    | some r =>
      if r.status ≠ .queued then drain sessionId rest (s.record (.dropped sessionId id))
      else match s.unavailable sessionId with
        | some message => drain sessionId rest
            ((s.markFailed id "session_unavailable" message).record (.dropped sessionId id))
        | none => s.launch id sessionId

/-- `_run_session_queue` from a resumption to the next task that is awaited. -/
def resumeLoop (sessionId : String) : TransferService :=
  if s.paused sessionId then s.finishWorker sessionId else drain sessionId (s.queues sessionId) s

/-- The worker is resumed, where it has not begun or the task that it awaits is over. -/
def runWorker (sessionId : String) : TransferService :=
  match s.workers sessionId with
  | none => s
  | some .ready => s.resumeLoop sessionId
  | some (.waiting id) =>
    match s.tasks.find? fun t => t.operationId = id with
    | none => s
    | some t => match t.phase with
      | .done crashed =>
        let s := { s with tasks := s.tasks.filter fun t => t.operationId ≠ id }
        let s := s.setWorker sessionId (some .ready)
        if crashed then s.finishWorker sessionId else s.resumeLoop sessionId
      | _ => s

/-! ## Cancelling and pausing -/

/-- `_cancel_queued`. -/
def cancelQueued (id sessionId : String) : TransferService :=
  let dropped := id ∈ s.queues sessionId
  let s := s.setQueue sessionId ((s.queues sessionId).erase id)
  let s := if dropped then s.record (.dropped sessionId id) else s
  (s.markCancelled id).refreshQueuePositions sessionId

/-- `_pause_queue_for_takeover`. -/
def pauseQueueForTakeover (sessionId : String) : TransferService :=
  updateQueued (fun _ =>
      { stage := some "paused", message := some "手工输入已接管终端，队列暂停。" })
    1 (s.queues sessionId) { s with paused := Function.update s.paused sessionId true }

/-- `task.cancel()`, of the task of an operation. -/
def cancelTask (id : String) : TransferService :=
  { s with tasks := s.tasks.map fun t =>
      if t.operationId = id ∧ t.phase.over = false then { t with cancelRequested := true } else t }

/-- `_cancel_active`. -/
def cancelActive (id sessionId : String) (pauseQueue : Bool) : TransferService :=
  let s := if pauseQueue then s.pauseQueueForTakeover sessionId else s
  (s.cancelTask id).markCancelled id

/-- What `OperationManager.cancel` does where the operation has not ended after the callback. -/
def endCancelled (id : String) : TransferService :=
  match s.records id with
  | none => s
  | some latest =>
    if latest.status.terminal then s
    else s.update id {
      status := some .cancelled
      stage := some "cancelled"
      message := some "操作已取消。"
      errorCode := some "operation_cancelled" }

/-- The callback of `OperationManager.cancel`. -/
def callCanceller (id : String) : Canceller → TransferService
  | .queued sessionId => s.cancelQueued id sessionId
  | .active sessionId => s.cancelActive id sessionId false

/-- `OperationManager.cancel`. -/
def cancel (id : String) : TransferService :=
  match s.records id with
  | none => s
  | some r =>
    if r.status.terminal then s
    else match s.cancellers id with
      | none => s
      | some canceller =>
        if r.cancellable = false then s else (s.callCanceller id canceller).endCancelled id

/-- The loop of `cancel_session`, and whether it comes to its end: a task goes on when the history is
cleared, and its operation is not there any more. -/
def cancelEach (sessionId : String) : List String → TransferService → TransferService × Bool
  | [], s => (s, true)
  | id :: rest, s => match s.records id with
    | none => (s, false)
    | some r =>
      cancelEach sessionId rest
        (if r.sessionId ≠ sessionId ∨ r.status.terminal = true then s else s.cancel id)

/-- `operation_ids` of `cancel_session`. -/
def operationIds (sessionId : String) : List String :=
  (s.tasks.map TransferTask.operationId ++ s.queues sessionId).dedup

/-- `cancel_session`, which takes the set of the operations in some order. -/
def cancelSession (sessionId : String) (order : List String) : TransferService :=
  let result := cancelEach sessionId order s
  if result.2 then
    { result.1 with paused := Function.update result.1.paused sessionId false }
  else result.1

/-- `resume_queue`. -/
def resumeQueue (sessionId : String) : TransferService :=
  match s.unavailable sessionId with
  | some _ => s
  | none =>
    let s := { s with paused := Function.update s.paused sessionId false }
    let s := updateQueued (fun _ =>
        { stage := some "queued", message := some "文件传输等待执行。" }) 1 (s.queues sessionId) s
    (s.refreshQueuePositions sessionId).ensureWorker sessionId

/-- `clear_history`. -/
def clearHistory : TransferService :=
  { s with
    records := fun id => (s.records id).filter fun r => !r.status.terminal
    cancellers := fun id =>
      if (s.records id).any fun r => r.status.terminal then none else s.cancellers id }

/-! ## The tasks -/

/-- How the action of a transfer ends. -/
inductive Outcome where
  | completed (message : String)
  | failed (code message : String)
  | cancelled
  /-- With an exception that is not caught. -/
  | crashed
deriving DecidableEq

def setPhase (id : String) (phase : Phase) : TransferService :=
  { s with tasks := s.tasks.map fun t => if t.operationId = id then { t with phase := phase } else t }

/-- The end of `_execute`; an operation that is not there any more is an exception. -/
def finishTask (id : String) (outcome : Outcome) : TransferService :=
  match s.records id, outcome with
  | _, .crashed => s.setPhase id (.done true)
  | none, _ => s.setPhase id (.done true)
  | some _, .completed message =>
    (s.update id {
      status := some .completed
      stage := some "completed"
      message := some message
      errorCode := some "" }).setPhase id (.done false)
  | some r, .failed code message =>
    (if r.status = .cancelled then s else s.markFailed id code message).setPhase id (.done false)
  | some _, .cancelled => (s.markCancelled id).setPhase id (.done false)

/-! ## Steps -/

inductive Action where
  | start (id sessionId : String)
  | cancel (id : String)
  | cancelSession (sessionId : String) (order : List String)
  | resumeQueue (sessionId : String)
  | clearHistory
  | runWorker (sessionId : String)
  /-- The task of an operation begins. -/
  | beginTask (id : String)
  /-- The task of an operation reports what it is doing. -/
  | report (id stage message : String)
  | endTask (id : String) (outcome : Outcome)
  /-- The terminal is taken over from a transfer that has it. -/
  | takeover (id : String)
  /-- The session gets lost, or it comes back. -/
  | session (sessionId : String) (error : Option String)
deriving DecidableEq

/-- The task of an operation, where it is in one of the given phases. -/
def taskIn (id : String) (phases : List Phase) : Option TransferTask :=
  s.tasks.find? fun t => t.operationId = id ∧ t.phase ∈ phases

def step (s : TransferService) : Action → TransferService
  | .start id sessionId => s.start id sessionId
  | .cancel id => s.cancel id
  | .cancelSession sessionId order => s.cancelSession sessionId order
  | .resumeQueue sessionId => s.resumeQueue sessionId
  | .clearHistory => s.clearHistory
  | .runWorker sessionId => s.runWorker sessionId
  | .beginTask id => match s.taskIn id [.created] with
    | none => s
    -- A task that is cancelled before it begins does not run.
    | some t => s.setPhase id (if t.cancelRequested then .done false else .running)
  | .report id stage message => match s.taskIn id [.running] with
    | none => s
    | some _ => s.update id { stage := some stage, message := some message }
  | .endTask id outcome => match s.taskIn id [.running] with
    | none => s
    | some _ => s.finishTask id outcome
  | .takeover id => match s.taskIn id [.running] with
    | none => s
    | some t => s.cancelActive id t.sessionId true
  | .session sessionId error =>
    { s with unavailable := Function.update s.unavailable sessionId error }

/-- What can happen: the ids of new operations are new, and the order of a set is one of the set. -/
def Possible (s : TransferService) : Action → Prop
  | .start id _ => s.records id = none ∧ ∀ e ∈ s.log, e.operationId ≠ id
  | .cancelSession sessionId order => order.Perm (s.operationIds sessionId)
  | _ => True

instance decidablePossible (s : TransferService) : ∀ a, Decidable (Possible s a)
  | .start _ _ => inferInstanceAs (Decidable (_ ∧ _))
  | .cancelSession _ _ => inferInstanceAs (Decidable (List.Perm _ _))
  | .cancel _ | .resumeQueue _ | .clearHistory | .runWorker _ | .beginTask _ | .report _ _ _
  | .endTask _ _ | .takeover _ | .session _ _ => inferInstanceAs (Decidable True)

end TransferService

end DeviceShell.Transfers
