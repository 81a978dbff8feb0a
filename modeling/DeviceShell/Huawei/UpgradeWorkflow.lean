import DeviceShell.Framework.Models

/-!
# The package upgrade as a workflow

`HuaweiVrpPackageUpgradeProvider.build`: the definition `network.package_upgrade` for given inputs.
An action's parameters are read by its Activity only, so they are not part of the definition here;
the two that the properties of an upgrade speak about, the package and the validation commands, are
in `UpgradeInputs`.
-/

namespace DeviceShell.Huawei

open Framework

variable [PyLib]

/-- The inputs of an upgrade, as `build` reads them. -/
structure UpgradeInputs where
  package : String
  /-- `activation_policy == "reboot"`; otherwise it is `stage_only`. -/
  reboots : Bool
  autoReboot : Bool
  /-- `package_source == "local"`; otherwise it is `device`. -/
  localTransfer : Bool
  topologyPolicy : String
  hasValidation : Bool
deriving DecidableEq

/-- `str(inputs.get(key) or default).casefold()`, one of the given values. -/
def choice (inputs : Dict String Value) (key default : String) (values : List String)
    (message : String) : Except PyError String :=
  let value := PyLib.casefold (Value.strOr (inputs.get? key) default)
  if values.contains value then .ok value else .error (.valueError message)

/-- The part of `build` that reads and checks its inputs. -/
def readUpgradeInputs (inputs : Dict String Value) : Except PyError UpgradeInputs := do
  let package := strip (Value.strOr (inputs.get? "package_ref") "")
  if package = "" then
    throw (.valueError "package_ref is required")
  let activation ← choice inputs "activation_policy" "reboot" ["stage_only", "reboot"]
    "activation_policy must be stage_only or reboot"
  let source ← choice inputs "package_source" "local" ["local", "device"]
    "package_source must be local or device"
  let topology ← choice inputs "topology_policy" "auto" ["auto", "single", "required"]
    "topology_policy must be auto, single, or required"
  let _ ← choice inputs "cleanup_policy" "never" ["never", "auto"]
    "cleanup_policy must be never or auto"
  let _ ← choice inputs "recovery_protocol" "same" ["", "same", "auto", "ssh", "telnet", "serial"]
    "recovery_protocol must be same, auto, ssh, telnet, or serial"
  let _ ← choice inputs "transfer_protocol" "ftp" ["ftp", "sftp"]
    "transfer_protocol must be ftp or sftp"
  return {
    package := package
    reboots := activation == "reboot"
    autoReboot := ((inputs.get? "auto_reboot").getD (.bool true)).truthy
    localTransfer := source == "local"
    topologyPolicy := topology
    hasValidation := match inputs.get? "validation_commands" with
      | some (.list commands) => !commands.isEmpty
      | _ => false }

/-- An option of an operator. -/
def operatorOption (id kind : String) (nextState : String := "") : DecisionOption :=
  { id := id, kind := kind, allowedActors := ["human", "rule"], requiresReason := true,
    nextState := nextState }

/-- An option that ends the workflow. -/
def abortOption (id : String) : DecisionOption :=
  { id := id, kind := "abort", requiresReason := true }

/-- `transfer_options`. -/
def transferOptions : List DecisionOption :=
  [{ id := "retry_transfer", kind := "retry" }, { id := "reconnect_transfer", kind := "reconnect" },
    abortOption "abort_transfer"]

/-- `startup_options`. -/
def startupOptions (u : UpgradeInputs) : List DecisionOption :=
  if u.reboots then
    [{ id := "retry_startup", kind := "retry" },
      operatorOption "rollback_startup" "rollback" "rollback", abortOption "abort_startup"]
  else [{ id := "retry_startup", kind := "retry" }, abortOption "abort_startup"]

/-- `verification_options`. -/
def verificationOptions : List DecisionOption :=
  [{ id := "retry_verify", kind := "retry" }, operatorOption "rollback" "rollback" "rollback",
    abortOption "abort_verify"]

/-- `rollback_options`. -/
def rollbackOptions : List DecisionOption :=
  [operatorOption "retry_rollback" "retry", abortOption "abort_rollback"]

/-- `storage_options`. -/
def storageOptions : List DecisionOption :=
  [{ id := "retry_storage", kind := "retry" }, abortOption "abort_storage"]

/-- `topology_options`. -/
def topologyOptions (u : UpgradeInputs) : List DecisionOption :=
  if u.topologyPolicy = "auto" then
    [{ id := "retry_topology", kind := "retry" },
      operatorOption "continue_single" "continue" "cleanup", abortOption "abort_topology"]
  else [{ id := "retry_topology", kind := "retry" }, abortOption "abort_topology"]

/-- The state `precheck`. -/
def precheckState (u : UpgradeInputs) : StateNode where
  id := "precheck"
  action := some {
    id := "precheck"
    operation := "device.probe"
    expectations := [{ eventType := "huawei.cli.ready" },
      { eventType := "huawei.device.facts.collected" }]
    timeoutSeconds := 120 }
  decisionOptions := topologyOptions u
  nextState := "cleanup"

/-- The state `cleanup`. -/
def cleanupState (u : UpgradeInputs) : StateNode where
  id := "cleanup"
  action := some {
    id := "cleanup"
    operation := "device.storage.cleanup"
    expectations := [{ eventType := "huawei.storage.cleaned", timeoutSeconds := 120 }]
    timeoutSeconds := 150
    maxAttempts := 2 }
  nextState := if u.localTransfer then "transfer" else "verify_package"
  decisionOptions := storageOptions

/-- The state `transfer`. -/
def transferState : StateNode where
  id := "transfer"
  action := some {
    id := "transfer"
    operation := "file.transfer"
    expectations := [{ eventType := "activity.preconditions.checked", timeoutSeconds := 5 },
      { eventType := "transfer.started", timeoutSeconds := 60 },
      { eventType := "transfer.completed", timeoutSeconds := 3600, idleTimeoutSeconds := 90 }]
    timeoutSeconds := 3600
    maxAttempts := 2
    reconcile := {
      provider := "huawei.reconcile.transfer"
      probes := ["dir", "size", "hash"]
      onClassification :=
        ⟨[("confirmed_success", "continue"), ("confirmed_not_started", "retry")]⟩ } }
  nextState := "verify_package"
  decisionOptions := transferOptions

/-- The state `verify_package`. -/
def verifyPackageState : StateNode where
  id := "verify_package"
  action := some {
    id := "verify_package"
    operation := "device.verify_artifact"
    expectations := [{ eventType := "huawei.package.verified", timeoutSeconds := 60 }]
    timeoutSeconds := 90 }
  nextState := "sync_standby"

/-- The state `sync_standby`. -/
def syncStandbyState : StateNode where
  id := "sync_standby"
  action := some {
    id := "sync_standby"
    operation := "device.storage.sync"
    expectations := [{ eventType := "huawei.storage.synced", timeoutSeconds := 180 }]
    timeoutSeconds := 210
    maxAttempts := 2 }
  nextState := "configure_startup"
  decisionOptions := storageOptions

/-- The state `configure_startup`. -/
def configureStartupState (u : UpgradeInputs) : StateNode where
  id := "configure_startup"
  action := some {
    id := "configure_startup"
    operation := "device.startup.configure"
    expectations := [{ eventType := "framework.action.sent", timeoutSeconds := 5 },
      { eventType := "huawei.startup.command.completed", timeoutSeconds := 90 },
      { eventType := "huawei.startup.verified", timeoutSeconds := 120 }]
    timeoutSeconds := 120
    risk := "high"
    reconcile := {
      provider := "huawei.reconcile.startup"
      probes := ["startup"]
      onClassification := ⟨[("confirmed_success", "continue")]⟩ } }
  nextState := if u.reboots then (if u.autoReboot then "reboot" else "reboot_approval")
    else "complete"
  decisionOptions := startupOptions u

/-- The state `reboot_approval`. -/
def rebootApprovalState : StateNode where
  id := "reboot_approval"
  decisionOptions :=
    [{ id := "approve_reboot", kind := "continue", allowedActors := ["human", "rule"],
       nextState := "reboot" },
      abortOption "abort_reboot"]

/-- The state `reboot`. -/
def rebootState : StateNode where
  id := "reboot"
  action := some {
    id := "reboot"
    operation := "device.reboot"
    expectations := [{ eventType := "huawei.reboot.started", timeoutSeconds := 210 }]
    timeoutSeconds := 210
    maxAttempts := 1
    risk := "critical"
    reconcile := {
      provider := "huawei.reconcile.reboot"
      probes := ["ping", "ssh", "cli"]
      onClassification :=
        ⟨[("confirmed_success", "continue"), ("confirmed_not_started", "retry")]⟩ } }
  nextState := "wait_online"
  decisionOptions := [operatorOption "retry_reboot" "retry", abortOption "abort_reboot"]

/-- The state `wait_online`. -/
def waitOnlineState : StateNode where
  id := "wait_online"
  action := some {
    id := "wait_online"
    operation := "device.wait_online"
    expectations := [{ eventType := "huawei.cli.ready", timeoutSeconds := 600 }]
    timeoutSeconds := 600
    maxAttempts := 3
    reconcile := { provider := "huawei.reconcile.online", probes := ["ping", "ssh", "cli"] } }
  nextState := "verify_version"
  decisionOptions := [{ id := "reconnect", kind := "reconnect" }, abortOption "abort_online"]

/-- The state `verify_version`. -/
def verifyVersionState (u : UpgradeInputs) : StateNode where
  id := "verify_version"
  action := some {
    id := "verify_version"
    operation := "device.verify_version"
    expectations := [{ eventType := "huawei.startup.package.match", timeoutSeconds := 90 }]
    timeoutSeconds := 120 }
  nextState := if u.hasValidation then "validation" else "complete"
  decisionOptions := verificationOptions

/-- The state `validation`. -/
def validationState : StateNode where
  id := "validation"
  action := some {
    id := "validation"
    operation := "device.verify"
    expectations := [{ eventType := "huawei.validation.passed", timeoutSeconds := 90 }]
    timeoutSeconds := 120 }
  nextState := "complete"

/-- The state `rollback`. -/
def rollbackState : StateNode where
  id := "rollback"
  action := some {
    id := "rollback"
    operation := "device.startup.rollback"
    expectations := [{ eventType := "huawei.rollback.verified", timeoutSeconds := 600 }]
    timeoutSeconds := 600
    maxAttempts := 1
    risk := "critical"
    reconcile := {
      provider := "huawei.reconcile.rollback"
      probes := ["startup", "version", "ping", "ssh", "cli"]
      onClassification := ⟨[("confirmed_success", "continue")]⟩ } }
  nextState := "complete"
  decisionOptions := rollbackOptions

/-- The state `complete`. -/
def completeState : StateNode where
  id := "complete"
  terminal := true

/-- `HuaweiVrpPackageUpgradeProvider.id`. -/
def upgradeId : String := "network.package_upgrade"

/-- The definition for inputs that were read. -/
def upgradeDefinition (u : UpgradeInputs) : WorkflowDefinition where
  id := upgradeId
  version := "1"
  startState := "precheck"
  states :=
    [precheckState u, cleanupState u] ++ (if u.localTransfer then [transferState] else []) ++
      [verifyPackageState, syncStandbyState, configureStartupState u] ++
      (if u.reboots then
        [rebootApprovalState, rebootState, waitOnlineState, verifyVersionState u] ++
          (if u.hasValidation then [validationState] else []) ++ [rollbackState]
      else []) ++
      [completeState]

omit [PyLib] in
/-- The states of a definition of the upgrade are among these. -/
theorem mem_upgradeStates {u : UpgradeInputs} {state : StateNode}
    (h : state ∈ (upgradeDefinition u).states) :
    state ∈ [precheckState u, cleanupState u, transferState, verifyPackageState, syncStandbyState,
      configureStartupState u, rebootApprovalState, rebootState, waitOnlineState,
      verifyVersionState u, validationState, rollbackState, completeState] := by
  unfold upgradeDefinition at h
  split_ifs at h <;> grind

/-- `HuaweiVrpPackageUpgradeProvider.build`. -/
def packageUpgrade (inputs : Dict String Value) : Except PyError WorkflowDefinition := do
  return upgradeDefinition (← readUpgradeInputs inputs)

theorem upgrade_of_packageUpgrade {inputs : Dict String Value} {d : WorkflowDefinition}
    (h : packageUpgrade inputs = .ok d) :
    ∃ u, readUpgradeInputs inputs = .ok u ∧ d = upgradeDefinition u := by
  unfold packageUpgrade at h
  cases hread : readUpgradeInputs inputs with
  | error e =>
    rw [hread] at h
    cases h
  | ok u =>
    rw [hread] at h
    exact ⟨u, rfl, (Except.ok.inj h).symm⟩

end DeviceShell.Huawei
