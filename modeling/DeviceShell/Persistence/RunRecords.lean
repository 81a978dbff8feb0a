import DeviceShell.Framework.RuntimeMachine
import DeviceShell.Framework.TaskPlan
import DeviceShell.Persistence.EventStores
import DeviceShell.Studio.Models

/-!
# Records through their dictionaries

The run, task and event stores keep a record as the JSON text of its `to_dict` and rebuild it with
`_run_from_dict`, `_task_run_from_dict` and `_event_from_dict`. The records here have all fields of
the classes of `framework/models.py`; `RunRecord.run` is the part of a run that the runtime reads.

Every field is read back as it was written, and an enum member as the member of its text. Where a
decoder says `or` with a text that is not empty, the empty text is read back as that text: a version
as `1`, the risk of an option as `normal`, the source of an event as `engine`
(`runFromDict_toDict`, `eventFromDict_toDict`). `reloads_iff` says that nothing else is lost.
-/

namespace DeviceShell.Framework

/-! ## The records with all their fields -/

/-- `Option`. -/
structure OptionRecord where
  id : String
  kind : String
  label : String
  description : String := ""
  risk : String := "normal"
  allowedActors : List String := ["human", "agent", "rule"]
  requiresReason : Bool := false
  inputSchema : Dict String Value := ∅
  preconditions : List (Dict String Value) := []
  nextState : String := ""

/-- `DeviceStateSnapshot`. -/
structure DeviceStateRecord where
  reachability : String := "unknown"
  transport : String := "unknown"
  cli : String := "unknown"
  facts : Dict String Value := ∅
  observedAt : String := ""

/-- `ProgressSnapshot`. -/
structure ProgressRecord where
  stage : String := ""
  lastEventType : String := ""
  lastProgressAt : String := ""
  completedUnits : ℤ := 0
  totalUnits : ℤ := 0
  details : Dict String Value := ∅

/-- `ActionAttempt`. -/
structure AttemptRecord where
  id : String
  actionId : String
  attempt : ℤ
  status : ActionStatus := .planned
  startedAt : String := ""
  deadlineAt : String := ""
  lastProgressAt : String := ""
  lastEventType : String := ""
  sessionId : String := ""
  result : Dict String Value := ∅
  error : Option (Dict String Value) := none

/-- `DecisionPoint`. -/
structure DecisionRecord where
  id : String
  runId : String
  revision : ℤ
  reasonCode : String
  summary : String
  options : List OptionRecord
  evidence : List (Dict String Value) := []
  expiresAt : String := ""

/-- `WorkflowRun`. -/
structure RunRecord where
  id : String
  workflowId : String
  workflowVersion : String
  deviceId : String
  status : RunStatus := .pending
  currentState : String := ""
  revision : ℤ := 0
  context : Dict String Value := ∅
  deviceState : DeviceStateRecord := {}
  progress : ProgressRecord := {}
  attempts : List AttemptRecord := []
  decisionPoint : Option DecisionRecord := none
  error : Option (Dict String Value) := none
  outputs : Dict String Value := ∅

/-- What the decision engine reads of an option. -/
def OptionRecord.option (item : OptionRecord) : DecisionOption where
  id := item.id
  kind := item.kind
  allowedActors := item.allowedActors
  requiresReason := item.requiresReason
  inputSchema := item.inputSchema
  nextState := item.nextState

/-- What the runtime reads of an attempt. -/
def AttemptRecord.action (item : AttemptRecord) : ActionAttempt where
  id := item.id
  actionId := item.actionId
  attempt := item.attempt.toNat
  status := item.status
  startedAt := item.startedAt
  deadlineAt := item.deadlineAt
  lastProgressAt := item.lastProgressAt
  lastEventType := item.lastEventType
  result := item.result
  error := item.error

/-- What the decision engine reads of a decision point. -/
def DecisionRecord.point (item : DecisionRecord) : DecisionPoint where
  id := item.id
  runId := item.runId
  revision := item.revision.toNat
  reasonCode := item.reasonCode
  options := item.options.map OptionRecord.option
  evidence := item.evidence

/-- What the runtime reads of a run. -/
def RunRecord.run (item : RunRecord) : WorkflowRun where
  id := item.id
  workflowId := item.workflowId
  workflowVersion := item.workflowVersion
  deviceId := item.deviceId
  status := item.status
  currentState := item.currentState
  revision := item.revision.toNat
  context := item.context
  deviceState := { reachability := item.deviceState.reachability }
  progress := {
    stage := item.progress.stage
    lastEventType := item.progress.lastEventType
    lastProgressAt := item.progress.lastProgressAt }
  attempts := item.attempts.map AttemptRecord.action
  decisionPoint := item.decisionPoint.map DecisionRecord.point
  error := item.error
  outputs := item.outputs

/-! ## The texts of the enumerations -/

/-- The text of a status. -/
def ActionStatus.value : ActionStatus → String
  | .planned => "planned"
  | .running => "running"
  | .succeeded => "succeeded"
  | .failed => "failed"
  | .timedOut => "timed_out"
  | .unknown => "unknown"
  | .cancelled => "cancelled"

/-- The text of a status. -/
def TaskRunStatus.value : TaskRunStatus → String
  | .created => "created"
  | .running => "running"
  | .waitingChild => "waiting_child"
  | .waitingDecision => "waiting_decision"
  | .waitingReconcile => "waiting_reconcile"
  | .unknown => "unknown"
  | .succeeded => "succeeded"
  | .failed => "failed"
  | .cancelled => "cancelled"

def RunStatus.members : List RunStatus :=
  [.pending, .running, .waitingReconcile, .waitingDecision, .recovering, .paused, .succeeded,
    .failed, .cancelled, .unknown]

def ActionStatus.members : List ActionStatus :=
  [.planned, .running, .succeeded, .failed, .timedOut, .unknown, .cancelled]

def TaskRunStatus.members : List TaskRunStatus :=
  [.created, .running, .waitingChild, .waitingDecision, .waitingReconcile, .unknown, .succeeded,
    .failed, .cancelled]

/-- The member that a stored text is equal to. Every status that is stored is a member. -/
def memberOf {σ : Type} (members : List σ) (value : σ → String) (text : String) :
    Except PyError σ :=
  match members.find? fun s => value s = text with
  | some s => .ok s
  | none => .error (.other ("not a status: " ++ text))

@[simp] theorem memberOf_runStatus (s : RunStatus) :
    memberOf RunStatus.members RunStatus.value s.value = .ok s := by
  cases s <;> rfl

@[simp] theorem memberOf_actionStatus (s : ActionStatus) :
    memberOf ActionStatus.members ActionStatus.value s.value = .ok s := by
  cases s <;> rfl

@[simp] theorem memberOf_taskRunStatus (s : TaskRunStatus) :
    memberOf TaskRunStatus.members TaskRunStatus.value s.value = .ok s := by
  cases s <;> rfl

theorem RunStatus.value_ne (s : RunStatus) : s.value ≠ "" := by
  cases s <;> decide

theorem TaskRunStatus.value_ne (s : TaskRunStatus) : s.value ≠ "" := by
  cases s <;> decide

/-! ## `to_dict` -/

/-- A dictionary or `None`. -/
def dictOrNone : Option (Dict String Value) → Value
  | some d => .ofDict d
  | none => .none

/-- `Option.to_dict`. -/
def OptionRecord.toDict (item : OptionRecord) : Dict String Value :=
  ⟨[("id", .str item.id), ("kind", .str item.kind), ("label", .str item.label),
    ("description", .str item.description), ("risk", .str item.risk),
    ("allowed_actors", .list (item.allowedActors.map .str)),
    ("requires_reason", .bool item.requiresReason), ("input_schema", .ofDict item.inputSchema),
    ("preconditions", .list (item.preconditions.map .ofDict)),
    ("next_state", .str item.nextState)]⟩

/-- `DeviceStateSnapshot.to_dict`. -/
def DeviceStateRecord.toDict (item : DeviceStateRecord) : Dict String Value :=
  ⟨[("reachability", .str item.reachability), ("transport", .str item.transport),
    ("cli", .str item.cli), ("facts", .ofDict item.facts), ("observed_at", .str item.observedAt)]⟩

/-- `ProgressSnapshot.to_dict`. -/
def ProgressRecord.toDict (item : ProgressRecord) : Dict String Value :=
  ⟨[("stage", .str item.stage), ("last_event_type", .str item.lastEventType),
    ("last_progress_at", .str item.lastProgressAt), ("completed_units", .int item.completedUnits),
    ("total_units", .int item.totalUnits), ("details", .ofDict item.details)]⟩

/-- `ActionAttempt.to_dict`. -/
def AttemptRecord.toDict (item : AttemptRecord) : Dict String Value :=
  ⟨[("id", .str item.id), ("action_id", .str item.actionId), ("attempt", .int item.attempt),
    ("status", .str item.status.value), ("started_at", .str item.startedAt),
    ("deadline_at", .str item.deadlineAt), ("last_progress_at", .str item.lastProgressAt),
    ("last_event_type", .str item.lastEventType), ("session_id", .str item.sessionId),
    ("result", .ofDict item.result), ("error", dictOrNone item.error)]⟩

/-- `DecisionPoint.to_dict`. -/
def DecisionRecord.toDict (item : DecisionRecord) : Dict String Value :=
  ⟨[("id", .str item.id), ("run_id", .str item.runId), ("revision", .int item.revision),
    ("reason_code", .str item.reasonCode), ("summary", .str item.summary),
    ("options", .list ((item.options.map OptionRecord.toDict).map .ofDict)),
    ("evidence", .list (item.evidence.map .ofDict)), ("expires_at", .str item.expiresAt)]⟩

/-- `WorkflowRun.to_dict`. -/
def RunRecord.toDict (item : RunRecord) : Dict String Value :=
  ⟨[("id", .str item.id), ("workflow_id", .str item.workflowId),
    ("workflow_version", .str item.workflowVersion), ("device_id", .str item.deviceId),
    ("status", .str item.status.value), ("current_state", .str item.currentState),
    ("revision", .int item.revision), ("context", .ofDict item.context),
    ("device_state", .ofDict item.deviceState.toDict), ("progress", .ofDict item.progress.toDict),
    ("attempts", .list ((item.attempts.map AttemptRecord.toDict).map .ofDict)),
    ("decision_point", dictOrNone (item.decisionPoint.map DecisionRecord.toDict)),
    ("error", dictOrNone item.error), ("outputs", .ofDict item.outputs)]⟩

/-- `TaskRun.to_dict`. -/
def TaskRun.toDict (item : TaskRun) : Dict String Value :=
  ⟨[("id", .str item.id), ("plan_id", .str item.planId), ("device_id", .str item.deviceId),
    ("status", .str item.status.value), ("inputs", .ofDict item.inputs),
    ("node_runs", .ofDict (item.nodeRuns.mapValues .str)), ("outputs", .ofDict item.outputs),
    ("error", dictOrNone item.error), ("context", .ofDict item.context)]⟩

end DeviceShell.Framework

namespace DeviceShell.Persistence

open Framework
open Studio (getOr getTruthy getDict mappings)

/-- `Event.to_dict`. -/
def WorkflowEvent.toDict (event : WorkflowEvent) : Dict String Value :=
  ⟨[("event_id", .str event.eventId), ("type", .str event.type), ("run_id", .str event.runId),
    ("action_id", .str event.actionId), ("sequence", .int event.sequence),
    ("source", .str event.source), ("payload", .dict event.payload),
    ("correlation_id", .str event.correlationId), ("observed_at", .str event.observedAt),
    ("progress", .bool event.progress), ("evidence_ref", .str event.evidenceRef)]⟩

/-! ## The decoders -/

/-- The text that a field is given. Every field that holds a text is stored with one. -/
def asText : Value → Except PyError String
  | .str s => .ok s
  | _ => .error (.other "not a text")

/-- The number that a field is given. Every field that holds a number is stored with one. -/
def asNumber : Value → Except PyError ℤ
  | .int n => .ok n
  | _ => .error (.other "not a number")

/-- A call with the items of a dictionary as its keyword arguments names none that the class does
not have. -/
def checkKeywords (names : List String) (arguments : Dict String Value) : Except PyError Unit :=
  match arguments.keys.find? fun key => !names.contains key with
  | some key => .error (.typeError ("got an unexpected keyword argument '" ++ key ++ "'"))
  | none => .ok ()

/-- An argument without default. -/
def required (arguments : Dict String Value) (key : String) : Except PyError Value :=
  match arguments.get? key with
  | some v => .ok v
  | none => .error (.typeError ("missing required argument: '" ++ key ++ "'"))

/-- The dictionary under a key, if it is one. -/
def dictUnder (payload : Dict String Value) (key : String) : Option (Dict String Value) :=
  (payload.get? key).bind Value.asDict?

section

variable [PyLib]

/-- `str(payload.get(key) or default)`. -/
def orText (payload : Dict String Value) (key default : String) : String :=
  Value.strOr (payload.get? key) default

/-- `int(payload.get(key) or 0)`. -/
def orNumber (payload : Dict String Value) (key : String) : Except PyError ℤ :=
  (getTruthy payload key (.int 0)).toInt

/-- `DeviceStateSnapshot(**raw_device)`. -/
def deviceStateOf (arguments : Dict String Value) : Except PyError DeviceStateRecord := do
  checkKeywords ["reachability", "transport", "cli", "facts", "observed_at"] arguments
  return {
    reachability := ← asText (getOr arguments "reachability" (.str "unknown"))
    transport := ← asText (getOr arguments "transport" (.str "unknown"))
    cli := ← asText (getOr arguments "cli" (.str "unknown"))
    facts := ← (getOr arguments "facts" (.dict [])).toDict
    observedAt := ← asText (getOr arguments "observed_at" (.str "")) }

/-- `ProgressSnapshot(**raw_progress)`. -/
def progressOf (arguments : Dict String Value) : Except PyError ProgressRecord := do
  checkKeywords ["stage", "last_event_type", "last_progress_at", "completed_units", "total_units",
    "details"] arguments
  return {
    stage := ← asText (getOr arguments "stage" (.str ""))
    lastEventType := ← asText (getOr arguments "last_event_type" (.str ""))
    lastProgressAt := ← asText (getOr arguments "last_progress_at" (.str ""))
    completedUnits := ← asNumber (getOr arguments "completed_units" (.int 0))
    totalUnits := ← asNumber (getOr arguments "total_units" (.int 0))
    details := ← (getOr arguments "details" (.dict [])).toDict }

/-- `ActionAttempt(**dict(item))`. -/
def attemptOf (arguments : Dict String Value) : Except PyError AttemptRecord := do
  checkKeywords ["id", "action_id", "attempt", "status", "started_at", "deadline_at",
    "last_progress_at", "last_event_type", "session_id", "result", "error"] arguments
  return {
    id := ← asText (← required arguments "id")
    actionId := ← asText (← required arguments "action_id")
    attempt := ← asNumber (← required arguments "attempt")
    status := ← memberOf ActionStatus.members ActionStatus.value
      (← asText (getOr arguments "status" (.str ActionStatus.planned.value)))
    startedAt := ← asText (getOr arguments "started_at" (.str ""))
    deadlineAt := ← asText (getOr arguments "deadline_at" (.str ""))
    lastProgressAt := ← asText (getOr arguments "last_progress_at" (.str ""))
    lastEventType := ← asText (getOr arguments "last_event_type" (.str ""))
    sessionId := ← asText (getOr arguments "session_id" (.str ""))
    result := ← (getOr arguments "result" (.dict [])).toDict
    error := dictUnder arguments "error" }

/-- `Option(...)` of `_run_from_dict`. -/
def optionOf (item : Dict String Value) : Except PyError OptionRecord := do
  return {
    id := orText item "id" ""
    kind := orText item "kind" ""
    label := orText item "label" ""
    description := orText item "description" ""
    risk := orText item "risk" "normal"
    allowedActors := (← (getOr item "allowed_actors"
      (.list [.str "human", .str "agent", .str "rule"])).iter).map Value.pyStr
    requiresReason := (getOr item "requires_reason" (.bool false)).truthy
    inputSchema := ← getDict item "input_schema"
    preconditions := ← mappings (getOr item "preconditions" (.list []))
    nextState := orText item "next_state" "" }

/-- `DecisionPoint(...)` of `_run_from_dict`. -/
def decisionOf (raw : Dict String Value) : Except PyError DecisionRecord := do
  return {
    id := orText raw "id" ""
    runId := orText raw "run_id" ""
    revision := ← orNumber raw "revision"
    reasonCode := orText raw "reason_code" ""
    summary := orText raw "summary" ""
    options := ← (← mappings (getOr raw "options" (.list []))).mapM optionOf
    evidence := ← mappings (getOr raw "evidence" (.list []))
    expiresAt := orText raw "expires_at" "" }

/-- `_run_from_dict`. -/
def runFromDict (payload : Dict String Value) : Except PyError RunRecord := do
  let rawDevice ← getDict payload "device_state"
  let rawProgress ← getDict payload "progress"
  return {
    id := orText payload "id" ""
    workflowId := orText payload "workflow_id" ""
    workflowVersion := orText payload "workflow_version" "1"
    deviceId := orText payload "device_id" ""
    status := ← memberOf RunStatus.members RunStatus.value (orText payload "status" "pending")
    currentState := orText payload "current_state" ""
    revision := ← orNumber payload "revision"
    context := ← getDict payload "context"
    deviceState := ← deviceStateOf rawDevice
    progress := ← progressOf rawProgress
    attempts := ← (← mappings (getTruthy payload "attempts" (.list []))).mapM attemptOf
    decisionPoint := ← (dictUnder payload "decision_point").mapM decisionOf
    error := dictUnder payload "error"
    outputs := ← getDict payload "outputs" }

/-- `_task_run_from_dict`. -/
def taskRunFromDict (payload : Dict String Value) : Except PyError TaskRun := do
  return {
    id := orText payload "id" ""
    planId := orText payload "plan_id" ""
    deviceId := orText payload "device_id" ""
    status := ← memberOf TaskRunStatus.members TaskRunStatus.value
      (orText payload "status" "created")
    inputs := ← getDict payload "inputs"
    nodeRuns := (← getDict payload "node_runs").mapValues Value.pyStr
    outputs := ← getDict payload "outputs"
    error := dictUnder payload "error"
    context := ← getDict payload "context" }

/-- `_event_from_dict`. -/
def eventFromDict (payload : Dict String Value) : Except PyError WorkflowEvent := do
  return {
    type := orText payload "type" ""
    runId := orText payload "run_id" ""
    actionId := orText payload "action_id" ""
    sequence := ← orNumber payload "sequence"
    eventId := orText payload "event_id" ""
    source := orText payload "source" "engine"
    payload := (← getDict payload "payload").entries
    correlationId := orText payload "correlation_id" ""
    observedAt := orText payload "observed_at" ""
    progress := (getOr payload "progress" (.bool false)).truthy
    evidenceRef := orText payload "evidence_ref" "" }

/-! ## What is read back -/

/-- What is read back of an option. -/
def reloadOption (item : OptionRecord) : OptionRecord :=
  { item with risk := if item.risk = "" then "normal" else item.risk }

/-- What is read back of a decision point. -/
def reloadDecision (item : DecisionRecord) : DecisionRecord :=
  { item with options := item.options.map reloadOption }

/-- What is read back of a run. -/
def reloadRun (item : RunRecord) : RunRecord :=
  { item with
    workflowVersion := if item.workflowVersion = "" then "1" else item.workflowVersion
    decisionPoint := item.decisionPoint.map reloadDecision }

/-- A text is read back, but for the empty one. -/
theorem orText_of_get? {payload : Dict String Value} {s : String} (key default : String)
    (h : payload.get? key = some (.str s)) :
    orText payload key default = if s = "" then default else s := by
  unfold orText
  rw [h]
  by_cases hs : s = "" <;> simp [Value.strOr, Value.truthy, Value.pyStr, hs]

/-- A text is read back where the empty one stands for itself. -/
theorem orText_same {payload : Dict String Value} {s : String} (key : String)
    (h : payload.get? key = some (.str s)) : orText payload key "" = s := by
  rw [orText_of_get? key "" h]
  split
  · rename_i hs
    exact hs.symm
  · rfl

theorem orText_of_ne {payload : Dict String Value} {key s : String} (default : String)
    (h : payload.get? key = some (.str s)) (hs : s ≠ "") : orText payload key default = s := by
  rw [orText_of_get? key default h, if_neg hs]

theorem orNumber_of_get? {payload : Dict String Value} {key : String} {n : ℤ}
    (h : payload.get? key = some (.int n)) : orNumber payload key = .ok n := by
  unfold orNumber getTruthy getOr
  rw [h]
  by_cases hn : n = 0 <;> simp [Value.truthy, Value.toInt, hn]

omit [PyLib] in
theorem dictUnder_of_get? {payload : Dict String Value} {key : String}
    {d : Option (Dict String Value)} (h : payload.get? key = some (dictOrNone d)) :
    dictUnder payload key = d := by
  unfold dictUnder
  rw [h]
  cases d <;> rfl

omit [PyLib] in
/-- The dictionaries of a list are read back one by one. -/
theorem readBack {α : Type} {toDict : α → Dict String Value}
    {fromDict : Dict String Value → Except PyError α} {back : α → α}
    (hback : ∀ a, fromDict (toDict a) = .ok (back a)) (items : List α) :
    (items.map toDict).mapM fromDict = .ok (items.map back) := by
  refine Except.mapM_eq_ok.2 ?_
  induction items with
  | nil => exact .nil
  | cons a rest ih => exact .cons (hback a) ih

omit [PyLib] in
theorem mappings_getTruthy {payload : Dict String Value} {key : String}
    {items : List (Dict String Value)} (h : payload.get? key = some (.list (items.map .ofDict))) :
    mappings (getTruthy payload key (.list [])) = .ok items := by
  unfold getTruthy getOr
  rw [h]
  cases items with
  | nil => rfl
  | cons item rest => exact Studio.mappings_list (item :: rest)

theorem optionOf_toDict (item : OptionRecord) : optionOf item.toDict = .ok (reloadOption item) := by
  have hactors : (getOr item.toDict "allowed_actors"
      (.list [.str "human", .str "agent", .str "rule"])).iter =
      .ok (item.allowedActors.map Value.str) := rfl
  have htexts : (item.allowedActors.map Value.str).map Value.pyStr = item.allowedActors := by
    rw [List.map_map]
    exact List.map_id _
  have hschema : getDict item.toDict "input_schema" = .ok item.inputSchema :=
    Studio.getDict_of_get? rfl
  have hpreconditions : mappings (getOr item.toDict "preconditions" (.list [])) =
      .ok item.preconditions := Studio.mappings_list _
  unfold optionOf
  rw [hactors, hschema, hpreconditions]
  simp only [bind, Except.bind, pure, Except.pure, htexts]
  rw [orText_same "id" rfl, orText_same "kind" rfl,
    orText_same "label" rfl, orText_same "description" rfl,
    orText_of_get? "risk" "normal" rfl, orText_same "next_state" rfl]
  rfl

theorem decisionOf_toDict (item : DecisionRecord) :
    decisionOf item.toDict = .ok (reloadDecision item) := by
  have hrevision : orNumber item.toDict "revision" = .ok item.revision := orNumber_of_get? rfl
  have hoptions : mappings (getOr item.toDict "options" (.list [])) =
      .ok (item.options.map OptionRecord.toDict) := Studio.mappings_list _
  have hback := readBack optionOf_toDict item.options
  have hevidence : mappings (getOr item.toDict "evidence" (.list [])) = .ok item.evidence :=
    Studio.mappings_list _
  unfold decisionOf
  rw [hrevision, hoptions, hevidence]
  simp only [bind, Except.bind, pure, Except.pure]
  rw [hback, orText_same "id" rfl, orText_same "run_id" rfl,
    orText_same "reason_code" rfl, orText_same "summary" rfl,
    orText_same "expires_at" rfl]
  rfl

omit [PyLib] in
theorem deviceStateOf_toDict (item : DeviceStateRecord) :
    deviceStateOf item.toDict = .ok item := by
  obtain ⟨reachability, transport, cli, ⟨facts⟩, observedAt⟩ := item
  rfl

omit [PyLib] in
theorem progressOf_toDict (item : ProgressRecord) : progressOf item.toDict = .ok item := by
  obtain ⟨stage, lastEventType, lastProgressAt, completedUnits, totalUnits, ⟨details⟩⟩ := item
  rfl

omit [PyLib] in
theorem attemptOf_toDict (item : AttemptRecord) : attemptOf item.toDict = .ok item := by
  obtain ⟨id, actionId, attempt, status, startedAt, deadlineAt, lastProgressAt, lastEventType,
    sessionId, ⟨result⟩, error⟩ := item
  cases status <;> cases error <;> rfl

/-- A run is read back as it was written, but for an empty version and empty risks. -/
theorem runFromDict_toDict (item : RunRecord) : runFromDict item.toDict = .ok (reloadRun item) := by
  have hdevice : getDict item.toDict "device_state" = .ok item.deviceState.toDict :=
    Studio.getDict_of_get? rfl
  have hprogress : getDict item.toDict "progress" = .ok item.progress.toDict :=
    Studio.getDict_of_get? rfl
  have hrevision : orNumber item.toDict "revision" = .ok item.revision := orNumber_of_get? rfl
  have hcontext : getDict item.toDict "context" = .ok item.context := Studio.getDict_of_get? rfl
  have houtputs : getDict item.toDict "outputs" = .ok item.outputs := Studio.getDict_of_get? rfl
  have herror : dictUnder item.toDict "error" = item.error := dictUnder_of_get? rfl
  have hdecision : dictUnder item.toDict "decision_point" =
      item.decisionPoint.map DecisionRecord.toDict := dictUnder_of_get? rfl
  have hattempts : mappings (getTruthy item.toDict "attempts" (.list [])) =
      .ok (item.attempts.map AttemptRecord.toDict) :=
    mappings_getTruthy rfl
  have hattemptsBack : (item.attempts.map AttemptRecord.toDict).mapM attemptOf =
      .ok item.attempts := by
    have hback : ∀ a : AttemptRecord, attemptOf a.toDict = .ok (id a) := attemptOf_toDict
    rw [readBack hback, List.map_id]
  have hstatus : orText item.toDict "status" "pending" = item.status.value :=
    orText_of_ne "pending" rfl item.status.value_ne
  have hpoint : (item.decisionPoint.map DecisionRecord.toDict).mapM decisionOf =
      .ok (item.decisionPoint.map reloadDecision) := by
    cases item.decisionPoint with
    | none => rfl
    | some point =>
      have hback := decisionOf_toDict point
      simp [Option.mapM, hback, Functor.map, Except.map]
  unfold runFromDict
  rw [hdevice, hprogress, hrevision, hcontext, houtputs, herror, hdecision, hattempts, hstatus,
    memberOf_runStatus, hpoint]
  simp only [bind, Except.bind, pure, Except.pure]
  rw [deviceStateOf_toDict, progressOf_toDict, hattemptsBack, orText_same "id" rfl,
    orText_same "workflow_id" rfl, orText_of_get? "workflow_version" "1" rfl,
    orText_same "device_id" rfl, orText_same "current_state" rfl]
  rfl

/-- A task run is read back as it was written. -/
theorem taskRunFromDict_toDict (item : TaskRun) : taskRunFromDict item.toDict = .ok item := by
  have hinputs : getDict item.toDict "inputs" = .ok item.inputs := Studio.getDict_of_get? rfl
  have hnodes : getDict item.toDict "node_runs" = .ok (item.nodeRuns.mapValues .str) :=
    Studio.getDict_of_get? rfl
  have houtputs : getDict item.toDict "outputs" = .ok item.outputs := Studio.getDict_of_get? rfl
  have hcontext : getDict item.toDict "context" = .ok item.context := Studio.getDict_of_get? rfl
  have herror : dictUnder item.toDict "error" = item.error := dictUnder_of_get? rfl
  have hstatus : orText item.toDict "status" "created" = item.status.value :=
    orText_of_ne "created" rfl item.status.value_ne
  have htexts : (item.nodeRuns.mapValues Value.str).mapValues Value.pyStr = item.nodeRuns := by
    unfold Dict.mapValues
    rw [List.map_map]
    exact congrArg Dict.mk (List.map_id _)
  unfold taskRunFromDict
  rw [hinputs, hnodes, houtputs, hcontext, herror, hstatus, memberOf_taskRunStatus]
  simp only [bind, Except.bind, pure, Except.pure]
  rw [htexts, orText_same "id" rfl, orText_same "plan_id" rfl,
    orText_same "device_id" rfl]

/-- An event is read back as the stores read it: an empty source becomes `engine`. -/
theorem eventFromDict_toDict (event : WorkflowEvent) :
    eventFromDict event.toDict = .ok event.reload := by
  have hsequence : orNumber event.toDict "sequence" = .ok event.sequence := orNumber_of_get? rfl
  have hpayload : getDict event.toDict "payload" = .ok ⟨event.payload⟩ :=
    Studio.getDict_of_get? rfl
  unfold eventFromDict
  rw [hsequence, hpayload]
  simp only [bind, Except.bind, pure, Except.pure]
  rw [orText_same "type" rfl, orText_same "run_id" rfl,
    orText_same "action_id" rfl, orText_same "event_id" rfl,
    orText_of_get? "source" "engine" rfl, orText_same "correlation_id" rfl,
    orText_same "observed_at" rfl, orText_same "evidence_ref" rfl]
  rfl


/-! ## When nothing is lost -/

/-- A run in which no empty text stands for another one. -/
structure Lasting (item : RunRecord) : Prop where
  version : item.workflowVersion ≠ ""
  risk : ∀ point, item.decisionPoint = some point → ∀ option ∈ point.options, option.risk ≠ ""

omit [PyLib] in
theorem reloadDecision_eq_iff (item : DecisionRecord) :
    reloadDecision item = item ↔ ∀ option ∈ item.options, option.risk ≠ "" := by
  have hoption : ∀ option : OptionRecord, reloadOption option = option ↔ option.risk ≠ "" := by
    intro option
    obtain ⟨_, _, _, _, risk, _, _, _, _, _⟩ := option
    by_cases hrisk : risk = "" <;> simp [reloadOption, hrisk]
  have hoptions : item.options.map reloadOption = item.options ↔
      ∀ option ∈ item.options, option.risk ≠ "" := by
    induction item.options with
    | nil => simp
    | cons option rest ih => simp [ih, hoption]
  rw [← hoptions]
  obtain ⟨_, _, _, _, _, _, _, _⟩ := item
  simp [reloadDecision]

omit [PyLib] in
theorem reloadRun_eq_iff (item : RunRecord) : reloadRun item = item ↔ Lasting item := by
  obtain ⟨_, _, version, _, _, _, _, _, _, _, _, point, _, _⟩ := item
  have hpoint : point.map reloadDecision = point ↔
      ∀ p, point = some p → ∀ option ∈ p.options, option.risk ≠ "" := by
    cases point with
    | none => simp
    | some point => simp [reloadDecision_eq_iff]
  constructor
  · intro h
    have hversion := congrArg RunRecord.workflowVersion h
    have hsame := congrArg RunRecord.decisionPoint h
    refine ⟨fun hempty => ?_, hpoint.mp hsame⟩
    simp only at hempty
    simp [reloadRun, hempty] at hversion
  · rintro ⟨hversion, hrisk⟩
    simp only at hversion hrisk
    simp [reloadRun, hversion, hpoint.mpr hrisk]

theorem runFromDict_toDict_iff (item : RunRecord) :
    runFromDict item.toDict = .ok item ↔ Lasting item := by
  rw [runFromDict_toDict, Except.ok.injEq, reloadRun_eq_iff]

theorem eventFromDict_toDict_iff (event : WorkflowEvent) :
    eventFromDict event.toDict = .ok event ↔ event.source ≠ "" := by
  rw [eventFromDict_toDict, Except.ok.injEq]
  obtain ⟨_, _, _, _, _, source, _, _, _, _, _⟩ := event
  by_cases hsource : source = "" <;> simp [WorkflowEvent.reload, hsource]

/-- A run, a task run and an event are read back as they were written. -/
structure Reloads (run : RunRecord) (task : TaskRun) (event : WorkflowEvent) : Prop where
  run_back : runFromDict run.toDict = .ok run
  task_back : taskRunFromDict task.toDict = .ok task
  event_back : eventFromDict event.toDict = .ok event

/-- The records are read back as they were written exactly when the version of the run, the risks of
its options and the source of the event are not empty. -/
theorem reloads_iff (run : RunRecord) (task : TaskRun) (event : WorkflowEvent) :
    Reloads run task event ↔ Lasting run ∧ event.source ≠ "" := by
  constructor
  · rintro ⟨hback, -, heventBack⟩
    exact ⟨(runFromDict_toDict_iff run).mp hback, (eventFromDict_toDict_iff event).mp heventBack⟩
  · rintro ⟨hlasting, hsource⟩
    constructor
    case run_back => exact (runFromDict_toDict_iff run).mpr hlasting
    case task_back => exact taskRunFromDict_toDict task
    case event_back => exact (eventFromDict_toDict_iff event).mpr hsource

end

/-- `_option` of `framework/dsl.py`. -/
def dslOption [PyLib] (raw : Dict String Value) : Except PyError OptionRecord := do
  return {
    id := Studio.getStr raw "id" ""
    kind := Studio.getStr raw "kind" ""
    label := (getOr raw "label" (getOr raw "id" (.str ""))).pyStr
    description := Studio.getStr raw "description" ""
    risk := Studio.getStr raw "risk" "normal"
    allowedActors := (← (getOr raw "allowed_actors"
      (.list [.str "human", .str "agent", .str "rule"])).iter).map Value.pyStr
    requiresReason := (getOr raw "requires_reason" (.bool false)).truthy
    inputSchema := ← (getOr raw "input_schema" (.dict [])).toDict
    nextState := Studio.getStr raw "next_state" "" }

/-- A workflow that asks for a decision at once. -/
def asking (option : OptionRecord) : WorkflowDefinition where
  id := "ask"
  version := "1"
  startState := "confirm"
  states := [{ id := "confirm", decisionOptions := [option.option] }]

/-- The run that waits for the decision. -/
def askedRun (option : OptionRecord) : RunRecord where
  id := "run"
  workflowId := "ask"
  workflowVersion := "1"
  deviceId := "device"
  status := .waitingDecision
  currentState := "confirm"
  revision := 1
  progress := { stage := "confirm" }
  decisionPoint := some {
    id := "uuuu"
    runId := "run"
    revision := 1
    reasonCode := "decision_required"
    summary := "Workflow state confirm requires a constrained decision."
    options := [option] }

/-- A decision is asked for with an option whose document gives the empty risk. -/
theorem not_reloads_askedRun : let _ := PyLib.atEpoch
    ∃ option, dslOption ⟨[("id", .str "go"), ("risk", .str "")]⟩ = .ok option ∧
      ((Runtime.reached (none : Option (ResourceCoordinator Unit)) ⟨[], [], 5⟩ ()
        [(0, .start (asking option) "device" ∅ (some "run")), (0, .tick "run")]).runs.get? "run" =
          some (askedRun option).run) ∧
        ∀ task event, ¬Reloads (askedRun option) task event := by
  intro pyLib
  refine ⟨{ id := "go", kind := "", label := "go", risk := "" }, rfl, rfl, ?_⟩
  intro task event h
  have hlasting := (runFromDict_toDict_iff _).mp h.run_back
  have hrisk := hlasting.risk _ rfl _ List.mem_cons_self
  exact absurd rfl hrisk

end DeviceShell.Persistence
