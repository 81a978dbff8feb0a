import DeviceShell.Activity.DeviceActivity

/-!
# Huawei VRP: the rollback and the reconciliation of outcomes

The rollback Activity of `HuaweiVrpDeviceVendorAdapter` and `HuaweiVrpReconcileProvider`, which
classifies an action whose outcome is not known from what the run recorded and from read-only probes
of the device. The probes are the environment (`DevicePorts`).
-/

namespace DeviceShell.Huawei

open Framework Activity

variable [PyLib]

/-! ## The rollback Activity -/

/-- `HuaweiVrpDeviceVendorAdapter.execute_activity` on the data of an Activity, or what it raises. -/
def vendorActivity (activityId : String) (response : Except DeviceException (Dict String Value)) :
    ActivityResult :=
  match response with
  | .ok data =>
    { status := .succeeded
      outputs := data
      evidence := dictItems (data.get? "evidence")
      operationId := Value.strOr (data.get? "operation_id")
        (Value.strOr (data.get? "execution_id") "") }
  | .error (.workflow e) =>
    let code := PyLib.casefold e.code
    let uncertain := ["device.startup.configure", "device.startup.rollback"].contains activityId &&
      (["unknown", "timeout", "transient", "connection"].contains e.errorClass ||
        ["timeout", "disconnect", "connection", "interrupted"].any fun x => occursIn x code)
    { status := if uncertain then .unknown else .failed
      outputs := e.details
      evidence := [⟨[("kind", .str "huawei_activity_error"), ("activity_id", .str activityId),
        ("code", .str e.code)]⟩]
      error := some ⟨[("code", .str e.code), ("message", .str e.message),
        ("class", .str e.errorClass), ("retryable", .bool e.retryable)]⟩ }
  | .error (.other message) =>
    { status := .failed
      evidence := [⟨[("kind", .str "huawei_activity_error"), ("activity_id", .str activityId)]⟩]
      error := some ⟨[("code", .str "huawei_activity_failed"), ("message", .str message),
        ("class", .str "unknown")]⟩ }

/-- `_run_step` on the data of an operation. -/
def runStep (response : Except DeviceException (Dict String Value)) :
    Except DeviceException (Dict String Value) := do
  let result ← response
  if successStatuses.contains (PyLib.casefold (Value.strOr (result.get? "status") "completed")) then
    return result
  else
    .error (.workflow {
      code := Value.strOr (result.get? "error_code")
        (Value.strOr (result.get? "status") "device_operation_failed")
      message := Value.strOr (result.get? "output") "Device operation failed." })

/-- `_previous_startup`. -/
def previousStartup (run : WorkflowRun) : Dict String Value :=
  let facts := ((run.context.get? "action.precheck.facts").bind Value.asDict?).getD ∅
  ((facts.get? "startup").bind Value.asDict?).getD ∅

/-- The command of the rollback: that of the parameters, or one that restores the startup software
which the precheck recorded. -/
def rollbackCommand (parameter : String) (run : WorkflowRun) : Except DeviceException String :=
  if strip parameter ≠ "" then .ok (strip parameter)
  else
    let facts := ((run.context.get? "action.precheck.facts").bind Value.asDict?).getD ∅
    match (facts.get? "startup").getD (.dict []) with
    | .dict startup =>
      let previous := strip (Value.strOr ((⟨startup⟩ : Dict String Value).get? "current_system") "")
      if previous = "" then
        .error (.workflow {
          code := "rollback_state_unknown"
          message := "The pre-upgrade startup package could not be confirmed; " ++
            "rollback needs an explicit operator decision."
          errorClass := "ambiguous" })
      else .ok ("startup system-software " ++ previous)
    | _ => .error (.other "object has no attribute 'get'")

/-- What the device control does with a command. -/
abbrev Terminal := String → Except DeviceException CommandResult

/-- The Activity `device.startup.rollback`. -/
def rollbackActivity (parameter : String) (run : WorkflowRun) (terminal : Terminal) :
    ActivityResult :=
  vendorActivity "device.startup.rollback" do
    let command ← rollbackCommand parameter run
    runStep ((terminal command).bind executeCommand)

/-! ## The reconcile provider -/

/-- What a probe raises: an error that the provider catches, or another one. -/
inductive ProbeError where
  | caught (message code : String)
  | escaping

/-- `SessionView`. -/
structure SessionView where
  sessionId : String
  status : String

/-- What the probes of a reconcile return. -/
structure DevicePorts where
  openSession : Except ProbeError SessionView
  probeCli : Except ProbeError (Dict String Value)
  operation : String → Except ProbeError (Dict String Value)
  displayStartup : Except ProbeError (Dict String Value)

/-- `_action_facts`. -/
def actionFacts (run : WorkflowRun) (actionId : String) : Dict String Value :=
  ((run.context.get? ("action." ++ actionId ++ ".facts")).bind Value.asDict?).getD ∅

/-- `_last_operation_id`. -/
def lastOperationId (run : WorkflowRun) (actionId : String) : String :=
  ((run.attempts.reverse.filter fun a => a.actionId == actionId).findSome? fun a =>
    let direct := strip (Value.strOr (a.result.get? "operation_id") "")
    if direct ≠ "" then some direct
    else ((a.result.get? "data").bind Value.asDict?).map fun nested =>
      strip (Value.strOr (nested.get? "operation_id") "")).getD ""

/-- A result that is not decided. -/
def indeterminate (facts : Dict String Value) (evidence : List (Dict String Value)) :
    ReconcileResult :=
  { classification := ReconcileClassification.indeterminate.value
    facts := facts
    evidence := evidence }

/-- The end of `reconcile` on an error of a probe. -/
def probeFailed (evidence : List (Dict String Value)) : ProbeError → Option ReconcileResult
  | .caught message code => some (indeterminate ∅
      (evidence ++ [⟨[("error", .str message), ("error_code", .str code)]⟩]))
  | .escaping => none

/-- The branch of the readiness of the device. -/
def reconcileOnline (evidence : List (Dict String Value)) (ports : DevicePorts) :
    Option ReconcileResult :=
  match ports.openSession with
  | .error e => probeFailed evidence e
  | .ok view =>
    let evidence := evidence ++ [⟨[("probe", .str "session"), ("status", .str view.status),
      ("session_id", .str view.sessionId)]⟩]
    let status := PyLib.casefold view.status
    if ["connected", "ready", "open"].contains status then
      match ports.probeCli with
      | .error e => probeFailed evidence e
      | .ok probe =>
        let evidence := evidence ++ [⟨[("probe", .str "cli"), ("transport_status", .str status),
          ("cli_status", (probe.get? "cli_status").getD (.str "unknown")),
          ("probe_command", (probe.get? "probe_command").getD (.str "")),
          ("execution_id", (probe.get? "execution_id").getD (.str "")),
          ("error_code", (probe.get? "error_code").getD (.str ""))]⟩]
        let facts := (⟨[("session_id", .str view.sessionId),
          ("transport_status", .str status)]⟩ : Dict String Value).merge probe
        if ((probe.get? "cli_status").getD .none).pyEq (.str "ready") then
          some { classification := ReconcileClassification.success.value
                 facts := facts
                 evidence := evidence }
        else some (indeterminate facts evidence)
    else
      some {
        classification :=
          if ["creating", "connecting", "authenticating"].contains status then
            ReconcileClassification.inProgress.value
          else ReconcileClassification.indeterminate.value
        facts := ⟨[("session_id", .str view.sessionId), ("transport_status", .str status),
          ("cli_status", .str "unknown")]⟩
        evidence := evidence }

/-- The branch of the reboot, which asks nothing of the device. -/
def reconcileReboot (actionId : String) (run : WorkflowRun) (evidence : List (Dict String Value)) :
    ReconcileResult :=
  let signals := (((actionFacts run actionId).get? "reboot").bind Value.asDict?).getD ∅
  let commandSent := ((signals.get? "command_sent").getD (.bool false)).truthy
  let disconnectObserved := ((signals.get? "disconnect_observed").getD (.bool false)).truthy
  let evidence := evidence ++ [⟨[("probe", .str "reboot_execution"),
    ("command_sent", .bool commandSent), ("disconnect_observed", .bool disconnectObserved)]⟩]
  { classification :=
      if commandSent ∧ disconnectObserved then ReconcileClassification.success.value
      else if !commandSent then ReconcileClassification.notStarted.value
      else ReconcileClassification.indeterminate.value
    facts := signals
    evidence := evidence }

/-- The branch of the transfer; `none` where it falls through. -/
def reconcileTransfer (actionId : String) (run : WorkflowRun) (evidence : List (Dict String Value))
    (ports : DevicePorts) : Option ReconcileResult :=
  let operationId := lastOperationId run actionId
  if operationId = "" then some (indeterminate ∅ evidence)
  else match ports.operation operationId with
    | .error e => probeFailed evidence e
    | .ok snapshot =>
      let status := PyLib.casefold (Value.strOr (snapshot.get? "status") "")
      let evidence := evidence ++ [⟨[("probe", .str "operation"),
        ("operation_id", .str operationId), ("status", .str status)]⟩]
      let answer (c : ReconcileClassification) : Option ReconcileResult :=
        some { classification := c.value, facts := snapshot, evidence := evidence }
      if ["completed", "success", "succeeded"].contains status then answer .success
      else if ["running", "pending", "queued", "downloading", "verifying"].contains status then
        answer .inProgress
      else if ["failed", "cancelled", "canceled", "interrupted"].contains status then answer .failed
      else some (indeterminate ∅ evidence)

/-- The branches that read `display startup`: what they look for in its output decides. -/
def reconcileByStartup (found : String → Bool) (expectedKey expected : String)
    (evidence : List (Dict String Value)) (ports : DevicePorts) : Option ReconcileResult :=
  match ports.displayStartup with
  | .error e => probeFailed evidence e
  | .ok data =>
    let output := Value.strOr (data.get? "output") ""
    let matched := expected ≠ "" && found output
    let evidence := evidence ++ [⟨[("probe", .str "display startup"),
      (expectedKey, .str expected), ("matched", .bool matched)]⟩]
    let facts : Dict String Value := ⟨[("output", .str output)]⟩
    if matched then
      some { classification := ReconcileClassification.success.value
             facts := facts
             evidence := evidence }
    else some (indeterminate facts evidence)

/-- `HuaweiVrpReconcileProvider.reconcile`; `none` where it raises. `package` is the action's
parameter. -/
def huaweiReconcile (providerId : String) (action : ActionSpec) (package : String)
    (run : WorkflowRun) (reason : String) (ports : DevicePorts) : Option ReconcileResult :=
  let evidence : List (Dict String Value) :=
    [⟨[("reason", .str reason), ("provider", .str providerId)]⟩]
  if endsWith providerId "online" ∨ action.operation = "device.wait_online" then
    reconcileOnline evidence ports
  else if endsWith providerId "reboot" then some (reconcileReboot action.id run evidence)
  else if endsWith providerId "transfer" then reconcileTransfer action.id run evidence ports
  else if endsWith providerId "startup" then
    let expected := packageBasename package
    reconcileByStartup (fun output => startupUsesPackage output expected) "expected_package"
      expected evidence ports
  else if endsWith providerId "rollback" then
    let expected := packageBasename
      (Value.strOr ((previousStartup run).get? "current_system") "")
    reconcileByStartup (fun output => occursIn expected (PyLib.casefold output))
      "expected_current_system" expected evidence ports
  else some (indeterminate ∅ evidence)

end DeviceShell.Huawei
