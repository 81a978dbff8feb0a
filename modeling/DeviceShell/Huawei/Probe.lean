import DeviceShell.Framework.TaskInputs
import DeviceShell.Huawei.Cleanup
import DeviceShell.Huawei.Reconcile

/-!
# The probe of a device, and the two ways to a single controller

The Activities `device.probe` and `device.storage.sync` of `HuaweiVrpDeviceVendorAdapter`. The probe
reads the device's topology off its output. Where that is ambiguous, the Activity fails, and the
facts that it has collected are the details of the error. An operator may then continue as with a
single controller; a run whose policy is `single` has never asked.
-/

namespace DeviceShell.Huawei

open Framework Activity

variable [PyLib] [PyText]

/-! ## The Activities -/

/-- An error of Python itself, where the Activity raises. -/
def liftDevice {α : Type} : Except PyError α → Except DeviceException α
  | .ok a => .ok a
  | .error e => .error (.other e.text)

/-- `HuaweiVrpUpgradeDriver.package_is_present`. -/
def packageIsPresent (output storage packageName : String) (packageSize : ℤ) :
    Except PyError Bool :=
  if packageSize ≤ 0 then .ok false
  else dirContainsPackage output storage packageName packageSize

/-- `list(data.get("evidence") or ())`. -/
def evidenceItems (data : Dict String Value) : Except PyError (List Value) :=
  match data.get? "evidence" with
  | some v => if v.truthy then v.iter else .ok []
  | none => .ok []

/-- `str(params.get("topology_policy") or "auto").casefold()`. -/
def topologyPolicy (params : Dict String Value) : String :=
  PyLib.casefold (Value.strOr (params.get? "topology_policy") "auto")

/-- `str(params.get("master_storage") or DEFAULT_MASTER_STORAGE)`. -/
def masterStorage (params : Dict String Value) : String :=
  Value.strOr (params.get? "master_storage") defaultMasterStorage

/-- `str(params.get("slave_storage") or DEFAULT_SLAVE_STORAGE)`. -/
def slaveStorage (params : Dict String Value) : String :=
  Value.strOr (params.get? "slave_storage") defaultSlaveStorage

/-- `_probe_standby`, for what the query of the standby storage returns. -/
def probeStandby (data params : Dict String Value)
    (standby : Except DeviceException (Dict String Value)) :
    Except DeviceException (Dict String Value) :=
  let output := Value.strOr (data.get? "output") ""
  if topologyPolicy params = "single" ∨ classifyControllerTopology output ≠ .dual then .ok data
  else do
    let standby ← standby
    let standbyOutput := (standby.get? "output").getD (.str "")
    let evidence ← liftDevice do return (← evidenceItems data) ++ (← evidenceItems standby)
    return ((data.set "output" (.str (output ++ "\n" ++ standbyOutput.pyStr))).set
      "standby_storage_output" standbyOutput).set "evidence" (.list evidence)

/-- The modes of `effective_mode`. -/
inductive EffectiveMode where
  | singleController
  | dualController
  | indeterminate
deriving DecidableEq, Repr

/-- The text of a mode. -/
def EffectiveMode.value : EffectiveMode → String
  | .singleController => "single_controller"
  | .dualController => "dual_controller"
  | .indeterminate => "indeterminate"

/-- What the standby storage is classified as. -/
def standbyStatus (data params : Dict String Value) : StandbyStorage :=
  if classifyControllerTopology (Value.strOr (data.get? "output") "") = .dual then
    classifyStandbyStorage (Value.strOr (data.get? "standby_storage_output") "")
      (slaveStorage params)
  else .notProbed

/-- The mode that the facts decide for. -/
def effectiveMode (data params : Dict String Value) : EffectiveMode :=
  let controller := classifyControllerTopology (Value.strOr (data.get? "output") "")
  if topologyPolicy params = "single" ∨ controller = .single then .singleController
  else if controller = .dual ∧ standbyStatus data params = .available then .dualController
  else .indeterminate

/-- `facts["topology_detection"]`. -/
def topologyDetection (data params : Dict String Value) : Dict String Value :=
  let effective := effectiveMode data params
  ⟨[("policy", .str (topologyPolicy params)),
    ("controller_status",
      .str (classifyControllerTopology (Value.strOr (data.get? "output") "")).value),
    ("master_storage", .str (masterStorage params)),
    ("standby_storage", .str (slaveStorage params)),
    ("standby_status", .str (standbyStatus data params).value),
    ("effective_mode", .str effective.value),
    ("include_slave", .bool (effective = .dualController)),
    ("decision", .str effective.value)]⟩

/-- `facts["startup"]`, if the output names one of the systems. -/
def startupFact (data : Dict String Value) : Option (Dict String Value) :=
  let startup := parseDisplayStartup (Value.strOr (data.get? "output") "")
  if startup.currentSystem ≠ "" ∨ startup.nextSystem ≠ "" then
    some ⟨[("current_system", .str startup.currentSystem), ("next_system", .str startup.nextSystem)]⟩
  else none

/-- The package of the parameters, if it is a local file that is named. -/
def localPackage? (params : Dict String Value) : Option String :=
  let package := strip (Value.strOr (params.get? "package") "")
  if package ≠ "" ∧ PyLib.casefold (Value.strOr (params.get? "package_source") "local") = "local" then
    some package
  else none

/-- The size that the probe takes for a package: none where the service cannot resolve it, whose
errors the probe catches. -/
def probedSize (transfers : Transfers) (package : String) : ℤ :=
  match transfers with
  | some resolveSource => match resolveSource package with
    | .ok size => size
    | .error _ => 0
  | none => 0

/-- A fact about the package on a storage. -/
def packageFact (name storage : String) (size : ℤ) (present : Bool) : Value :=
  .dict [("name", .str name), ("storage", .str storage), ("size_bytes", .int size),
    ("present", .bool present)]

/-- The part of `_probe_facts` about the package. -/
def probePackage (transfers : Transfers) (data params facts : Dict String Value) :
    Except PyError (Dict String Value) :=
  match localPackage? params with
  | none => .ok facts
  | some package => do
    let name := posixName (replaceChar '\\' '/' package)
    let size := probedSize transfers package
    let storage := masterStorage params
    let output := Value.strOr (data.get? "output") ""
    let present ← packageIsPresent (storageOutput output storage) storage name size
    let facts := facts.set "package" (packageFact name storage size present)
    if effectiveMode data params = .dualController then do
      let standbyOutput := Value.strOr (data.get? "standby_storage_output") ""
      let present ← dirContainsPackage standbyOutput (slaveStorage params) name
      return facts.set "standby_package" (packageFact name (slaveStorage params) size present)
    else return facts

/-- `_probe_facts`. -/
def probeFacts (transfers : Transfers) (data params : Dict String Value) :
    Except PyError (Dict String Value) :=
  let facts : Dict String Value := ⟨[("topology_detection", .ofDict (topologyDetection data params))]⟩
  let facts := match startupFact data with
    | some startup => facts.set "startup" (.ofDict startup)
    | none => facts
  probePackage transfers data params facts

/-- `device.probe` of `_execute_native`, for what its queries return. -/
def probe (transfers : Transfers) (params : Dict String Value)
    (precheck standby : Except DeviceException (Dict String Value)) :
    Except DeviceException (Dict String Value) := do
  let data ← precheck
  let data ← probeStandby data params standby
  let facts ← liftDevice (probeFacts transfers data params)
  if effectiveMode data params = .indeterminate then
    .error (.workflow {
      code := "topology_indeterminate"
      message := "无法根据设备角色和备控存储证据确认双主控拓扑。"
      errorClass := "ambiguous"
      details := facts })
  else return data.merge facts

/-- A probe of a device that answers. -/
theorem probe_answered {transfers : Transfers} {params data : Dict String Value}
    {standby : Except DeviceException (Dict String Value)} :
    probe transfers params (.ok data) standby =
      (probeStandby data params standby).bind fun data =>
        (liftDevice (probeFacts transfers data params)).bind fun facts =>
          if effectiveMode data params = .indeterminate then
            .error (.workflow {
              code := "topology_indeterminate"
              message := "无法根据设备角色和备控存储证据确认双主控拓扑。"
              errorClass := "ambiguous"
              details := facts })
          else .ok (data.merge facts) := by
  unfold probe
  rfl

/-- `_sync_commands`. -/
def syncCommands (params context : Dict String Value) : Except PyError (List String) := do
  let facts := (mapping? context "action.precheck.facts").getD ∅
  match (facts.get? "topology_detection").getD (.dict []) with
  | .dict topology =>
    if !((Dict.get? ⟨topology⟩ "include_slave").getD (.bool false)).truthy then return []
    if (mapping? facts "standby_package").any fun standby => (entry standby "present").truthy then
      return []
    let name := posixName (replaceChar '\\' '/' (Value.strOr (params.get? "package") ""))
    let primary := joinStoragePath (masterStorage params) name
    let secondary := joinStoragePath (slaveStorage params) name
    return ["copy " ++ primary ++ " " ++ secondary]
  | _ => throw (.attributeError "object has no attribute 'get'")

end DeviceShell.Huawei
