import DeviceShell.Activity.Execution
import DeviceShell.Framework.Runtime

/-!
# From an operation of the device to the result of an action

The three layers over `DeviceExecutionTool` through which an action of the upgrade runs: the
Activity handlers (`DeviceActivityHandler` for the generic operations, the vendor adapter for the
rollback), `ActivityExecutor`, which checks the preconditions first, and `ActivityActionHandler`,
which gives the runtime an `ActionResult`. The facts that the runtime stores under the action are
the outputs of the Activity, as they come.
-/

namespace DeviceShell.Activity

open Framework Huawei

/-- `ActivityStatus`, as far as a result carries it. -/
inductive ActivityStatus where
  | succeeded
  | failed
  | unknown
  | cancelled
deriving DecidableEq, Repr

/-- The text of a status. -/
def ActivityStatus.value : ActivityStatus → String
  | .succeeded => "succeeded"
  | .failed => "failed"
  | .unknown => "unknown"
  | .cancelled => "cancelled"

/-- `ActivityResult`. -/
structure ActivityResult where
  status : ActivityStatus
  outputs : Dict String Value := ∅
  evidence : List (Dict String Value) := []
  operationId : String := ""
  error : Option (Dict String Value) := none

variable [PyLib]

/-- `_SUCCESS_STATUSES`. -/
def successStatuses : List String := ["success", "succeeded", "completed", "ok", "ready"]

/-- `execution_status` of a status text. -/
def executionStatus (status : String) : String :=
  if successStatuses.contains (PyLib.casefold status) then "succeeded"
  else if status = "unknown" ∨ status = "cancelled" then status
  else "failed"

/-- The error of a command's output. -/
def outputError (source : Dict String Value) (error : Option (Dict String Value)) :
    Option (Dict String Value) :=
  match error with
  | some e => some e
  | none => match (source.get? "error").bind Value.asDict? with
    | some e => some e
    | none =>
      let code := Value.strOr (source.get? "error_code") ""
      let message := Value.strOr (source.get? "error_message") ""
      if isBlank code ∧ isBlank message then none
      else some ⟨[("code", .str (if code = "" then "command_failed" else code)),
        ("message", .str (if message = "" then "command failed" else message)),
        ("class", .str (Value.strOr (source.get? "error_class") "deterministic"))]⟩

/-- `normalize_command_output`, without the fields that no part of the framework reads (the two
streams, the exit codes and the duration). -/
def normalizeCommandOutput (source : Dict String Value) (status : String)
    (error : Option (Dict String Value)) : Dict String Value :=
  let rawStatus := Value.strOr (source.get? "status") status
  let rawOutput := match source.get? "output" with
    | some v => v
    | none => (source.get? "probe_output").getD ((source.get? "stdout").getD (.str ""))
  let output := match rawOutput with
    | .none => ""
    | v => v.pyStr
  let data := ((source.get? "data").bind Value.asDict?).getD source
  ((((source.set "output" (.str output)).set "status" (.str rawStatus)).set "execution_status"
    (.str (executionStatus rawStatus))).set "data" (.ofDict data)).set "error"
      (((outputError source error).map Value.ofDict).getD .none)

/-- `normalized.setdefault(key, value)`. -/
def setDefault (d : Dict String Value) (key : String) (value : Value) : Dict String Value :=
  if d.contains key then d else d.set key value

/-- What the handlers know of their target. -/
structure ActivityTarget where
  deviceId : String := ""
  sessionId : String := ""
  host : String := ""
  port : ℤ := 0

/-- `DeviceActivityHandler._normalize_outputs`, without the fields of `device.info`. -/
def normalizeOutputs (outputs : Dict String Value) (operation : String) (target : ActivityTarget)
    (status : String) (error : Option (Dict String Value)) : Dict String Value :=
  let normalized := normalizeCommandOutput outputs status error
  let executionId := Value.strOr (normalized.get? "execution_id")
    (Value.strOr (normalized.get? "probe_execution_id")
      (Value.strOr (normalized.get? "operation_id") ""))
  let operationId := Value.strOr (normalized.get? "operation_id") executionId
  let statusText := Value.strOr (normalized.get? "status") ""
  let normalized := setDefault normalized "execution_id" (.str executionId)
  let normalized := setDefault normalized "operation_id" (.str operationId)
  let normalized := setDefault normalized "session_id" (.str target.sessionId)
  let normalized := setDefault normalized "device_id" (.str target.deviceId)
  let normalized := setDefault normalized "cli_status"
    (.str (if operation = "device.wait_online" ∧ statusText = "completed" then "ready" else ""))
  let normalized := setDefault normalized "host" (.str target.host)
  let normalized := setDefault normalized "port" (.int target.port)
  let normalized := setDefault normalized "evidence" (.list [])
  normalized.set "execution_status"
    (.str (if successStatuses.contains (PyLib.casefold statusText) then "succeeded"
      else if status = "unknown" ∨ status = "cancelled" then status else "failed"))

/-- `_UNCERTAIN_OPERATIONS`. -/
def uncertainOperations : List String := ["device.reboot", "device.wait_online"]

/-- The dictionaries in a list value. -/
def dictItems (value : Option Value) : List (Dict String Value) :=
  match value with
  | some (.list items) => items.filterMap Value.asDict?
  | _ => []

/-- `DeviceActivityHandler.execute` on what the execution of its operation returns or raises, for
the operations other than `device.info`. -/
def deviceActivity (operation : String) (target : ActivityTarget)
    (response : Except DeviceException (Dict String Value)) : ActivityResult :=
  let uncertain : ActivityStatus :=
    if uncertainOperations.contains operation then .unknown else .failed
  match response with
  | .error (.workflow e) =>
    let error : Dict String Value := ⟨[("code", .str e.code), ("message", .str e.message),
      ("class", .str e.errorClass), ("retryable", .bool e.retryable)]⟩
    { status := uncertain
      outputs := normalizeOutputs e.details operation target uncertain.value (some error)
      evidence := [⟨[("kind", .str "device_activity_error"), ("operation", .str operation),
        ("code", .str e.code)]⟩]
      error := some error }
  | .error (.other message) =>
    let error : Dict String Value := ⟨[("code", .str "device_activity_failed"),
      ("message", .str message), ("class", .str "unknown")]⟩
    { status := uncertain
      outputs := normalizeOutputs ∅ operation target uncertain.value (some error)
      evidence := [⟨[("kind", .str "device_activity_error"), ("operation", .str operation)]⟩]
      error := some error }
  | .ok data =>
    let outputs := normalizeOutputs data operation target "completed" none
    let operationId := Value.strOr (outputs.get? "operation_id")
      (Value.strOr (outputs.get? "execution_id") "")
    let rawStatus := PyLib.casefold (Value.strOr (outputs.get? "status") "completed")
    if successStatuses.contains rawStatus then
      let outputs := outputs.set "execution_status" (.str "succeeded")
      { status := .succeeded
        outputs := outputs
        evidence := dictItems (outputs.get? "evidence")
        operationId := operationId }
    else
      let error : Dict String Value :=
        ⟨[("code", .str (Value.strOr (outputs.get? "error_code") "device_activity_failed")),
          ("message", .str (Value.strOr (outputs.get? "output") "device operation failed")),
          ("class", .str "deterministic")]⟩
      let outputs := normalizeOutputs (outputs.set "execution_status" (.str "failed")) operation
        target rawStatus (some error)
      { status := .failed
        outputs := outputs
        evidence := dictItems (outputs.get? "evidence")
        operationId := operationId
        error := some error }

/-- `ActivityExecutor.execute`: a precondition that fails ends the Activity before its handler
runs. -/
def executeActivity (precondition : Option (Dict String Value)) (handled : ActivityResult) :
    ActivityResult :=
  match precondition with
  | some error =>
    { status := .failed
      outputs := ⟨[("status", .str ActivityStatus.failed.value)]⟩
      error := some error }
  | none => handled

/-- `ActivityActionHandler.execute` on the result of the Activity. -/
def actionResult (result : ActivityResult) : ActionResult :=
  let facts := result.outputs
  let facts := match result.error with
    | some e => setDefault facts "error" (.ofDict e)
    | none => facts
  let facts := if result.operationId ≠ "" then facts.set "operation_id" (.str result.operationId)
    else facts
  let facts := if result.evidence ≠ [] then
      facts.set "evidence" (.list (result.evidence.map .ofDict))
    else facts
  { status := match result.status with
      | .succeeded => .succeeded
      | .failed => .failed
      | .unknown => .unknown
      | .cancelled => .cancelled
    facts := facts
    error := result.error }

end DeviceShell.Activity
