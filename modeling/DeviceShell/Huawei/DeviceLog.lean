import DeviceShell.Framework.Course
import DeviceShell.Huawei.Reconcile
import DeviceShell.Huawei.UpgradeWorkflow

/-!
# The runtime and what its devices did

The runtime of package upgrades together with a log of the devices: which commands the Activities
sent, what the devices answered, which runs changed their state and which decisions were accepted,
in the order in which they came. An input of the runtime carries what the devices did since the one
before; the log is read by no section.
-/

namespace DeviceShell.Huawei

open Framework Activity

/-- What a device did, or what is observed of a run. -/
inductive DeviceRecord where
  /-- The Activity of an attempt sent its command. -/
  | sent (runId actionId attemptId : String)
  /-- The device of a run answered `display startup`. -/
  | read (runId output : String)
  /-- A run went from one state to another. -/
  | moved (runId source target : String)
  /-- A decision of a run was accepted. -/
  | decided (runId : String)
deriving DecidableEq

/-- An input of the runtime, and what the devices did before it. -/
structure DeviceInput where
  input : ℚ × RuntimeInput
  records : List DeviceRecord := []

/-- The runtime and the log. -/
structure DeviceState (ρ : Type) where
  runtime : RuntimeState ρ
  log : List DeviceRecord := []

/-- The key of the upgrade's definition. -/
def upgradeKey : String := upgradeId ++ ":" ++ "1"

/-- The call runs the handler of the given attempt. -/
def isAttempt (runId actionId attemptId : String) : Call → Bool
  | .handler run _ action attempt _ _ =>
    run.id == runId && action.id == actionId && attempt.id == attemptId
  | _ => false

section Machine

variable {ρ : Type} [PyLib] (coordinator : Option (ResourceCoordinator ρ)) (cfg : RuntimeConfig)

omit [PyLib] in
/-- A device acts for the calls that are suspended. -/
def possible (st : RuntimeState ρ) : DeviceRecord → Bool
  | .sent runId actionId attemptId => st.calls.values.any (isAttempt runId actionId attemptId)
  | .read runId _ => st.calls.values.any fun c => c.run.id == runId
  | .moved .. | .decided _ => false

omit [PyLib] in
/-- The runs that changed their state. -/
def movesBetween (before after : Dict String WorkflowRun) : List DeviceRecord :=
  after.entries.filterMap fun entry =>
    match before.get? entry.1 with
    | some run =>
      if run.currentState = entry.2.currentState then none
      else some (.moved entry.1 run.currentState entry.2.currentState)
    | none => none

/-- The decision that an input makes. -/
def decisionOf (st : RuntimeState ρ) (input : ℚ × RuntimeInput) : List DeviceRecord :=
  match input.2 with
  | .applyDecision runId _ => (Runtime.acceptedBy st input).map fun _ => .decided runId
  | _ => []

/-- One step: the runtime takes the input, and the log records it. -/
def deviceStep (st : DeviceState ρ) (i : DeviceInput) : DeviceState ρ :=
  let runtime := Runtime.step coordinator cfg st.runtime i.input
  { runtime := runtime
    log := st.log ++ i.records ++ decisionOf st.runtime i.input ++
      movesBetween st.runtime.runs runtime.runs }

/-- The state reached from empty stores. -/
def deviceReached (resources : ρ) (inputs : List DeviceInput) : DeviceState ρ :=
  Machine.run (deviceStep coordinator cfg) { runtime := { resources := resources } } inputs

variable {coordinator cfg}

/-- The last input of a history. -/
theorem deviceReached_concat (resources : ρ) (before : List DeviceInput) (i : DeviceInput) :
    deviceReached coordinator cfg resources (before ++ [i]) =
      deviceStep coordinator cfg (deviceReached coordinator cfg resources before) i := by
  rw [deviceReached, Machine.run_append]
  rfl

end Machine

end DeviceShell.Huawei
