import DeviceShell.Lib.Stateful
import DeviceShell.Framework.TaskInputs

/-!
# The bodies of loops

The three `_run_steps` of `application/workflow_plugins/utility.py`: those of `loop.for_each` and
`loop.until`, which only differ in what they return, and that of `device.for_each`. Each runs the
steps of a body for one item, one iteration or one device: it resolves the inputs of a step from the
outputs before it, calls the child runner and puts the result into the outputs.

The child runner is the environment: what it returns may depend on everything that happened in the
body before. The state of a body is that history, of the steps that were reached, with the outputs
that they see, and of the calls.
-/

namespace DeviceShell.Activity.LoopBody

open Framework

/-- A step of a body, as `_compile_plan` writes it. -/
structure BodyStep where
  id : String
  actionId : String
  actionInputs : Dict String Value := ∅
  retryPolicy : Dict String Value := ∅
  repeatPolicy : Dict String Value := ∅

/-- What happens in a body. -/
inductive BodyEvent where
  /-- A step is reached, and sees these outputs. -/
  | entered (stepId : String) (outputs : Dict String Value)
  | called (actionId : String) (inputs : Dict String Value)

/-- `self._child_runner`, after what happened before. -/
abbrev ChildRunner :=
  List BodyEvent → String → Dict String Value → Except PyError (Dict String Value)

/-- A computation in a body. -/
abbrev Body := Stateful (List BodyEvent)

/-- Something happens. -/
def happen (event : BodyEvent) : Body Unit := do
  let history ← get
  set (history ++ [event])

/-- The child runner is awaited. -/
def call (runner : ChildRunner) (actionId : String) (inputs : Dict String Value) :
    Body (Dict String Value) := do
  let history ← get
  set (history ++ [.called actionId inputs])
  liftM (runner history actionId inputs)

section

variable [PyLib]

/-- `project_structured_output`. -/
def projectStructuredOutput (output : Dict String Value) : Dict String Value :=
  match mapping? output "result" with
  | some structured => structured.entries.foldl (fun d e => d.setDefault e.1 e.2) output
  | none => output

/-- `_project_named_values`. -/
def projectNamedValues (steps : List BodyStep) (stepResults : Dict String (Dict String Value)) :
    Dict String Value :=
  steps.foldl (fun named step =>
    if step.actionId ≠ "variable.set" then named
    else
      let result := (stepResults.get? step.id).getD ∅
      let name := strippedEntry result "name"
      if name = "" then named else named.set name (entry result "value")) ∅

/-- The results of the steps, as a value. -/
def stepsValue (stepResults : Dict String (Dict String Value)) : Value :=
  .ofDict (stepResults.mapValues .ofDict)

/-- `{**outputs, **local, "outputs": outputs}`. -/
def stepValues (outputs locals : Dict String Value) : Dict String Value :=
  (outputs.merge locals).set "outputs" (.ofDict outputs)

/-- The inputs of a step. -/
def stepInputs (step : BodyStep) (outputs locals : Dict String Value) :
    Except PyError (Dict String Value) :=
  resolveInputs { values := stepValues outputs locals } step.actionInputs

/-- What a loop over the steps carries. -/
structure Progress where
  outputs : Dict String Value
  stepResults : Dict String (Dict String Value) := ∅
  result : Dict String Value := ∅

/-- `outputs[step_id] = result` and `step_results[step_id] = result`. -/
def Progress.keep (q : Progress) (step : BodyStep) (result : Dict String Value) : Progress where
  outputs := q.outputs.set step.id (.ofDict result)
  stepResults := q.stepResults.set step.id result
  result := result

/-! ## `loop.for_each` and `loop.until` -/

/-- The loop over the steps of `loop.for_each` and of `loop.until`. -/
def plainSteps (runner : ChildRunner) (locals : Dict String Value) :
    List BodyStep → Progress → Body Progress
  | [], q => return q
  | step :: rest, q => do
    happen (.entered step.id q.outputs)
    let inputs ← liftM (stepInputs step q.outputs locals)
    let result ← call runner step.actionId inputs
    plainSteps runner locals rest (q.keep step result)

/-- `ForEachActivityHandler._run_steps`. -/
def forEachRunSteps (runner : ChildRunner) (locals scopeOutputs : Dict String Value)
    (steps : List BodyStep) : Body (Dict String Value) := do
  let q ← plainSteps runner locals steps { outputs := scopeOutputs }
  return ((projectStructuredOutput q.result).merge (projectNamedValues steps q.stepResults)).set
    "steps" (stepsValue q.stepResults)

/-- `UntilActivityHandler._run_steps`. -/
def untilRunSteps (runner : ChildRunner) (locals scopeOutputs : Dict String Value)
    (steps : List BodyStep) : Body (Dict String Value) := do
  let q ← plainSteps runner locals steps { outputs := scopeOutputs }
  return q.result.set "steps" (stepsValue q.stepResults)

/-! ## `device.for_each` -/

namespace BodyStep

variable (step : BodyStep)

/-- `int(retry.get("max_attempts", 1))`. -/
def attempts : Except PyError ℤ := ((step.retryPolicy.get? "max_attempts").getD (.int 1)).toInt

/-- `int(repeat.get("max_iterations", 1))`. -/
def iterations : Except PyError ℤ := ((step.repeatPolicy.get? "max_iterations").getD (.int 1)).toInt

/-- `float(retry.get("backoff_seconds", 0))`. -/
def backoff : Except PyError PyFloat :=
  ((step.retryPolicy.get? "backoff_seconds").getD (.int 0)).toFloat

/-- `retry.get("on_failure") == "continue"`. -/
def continues : Bool := (entry step.retryPolicy "on_failure").pyEq (.str "continue")

end BodyStep

/-- `for attempt in range(attempts)`, with so many attempts left. -/
def attemptCalls (runner : ChildRunner) (step : BodyStep) (inputs : Dict String Value) :
    ℕ → Dict String Value → Body (Dict String Value)
  | 0, result => return result
  | left + 1, result =>
    tryCatch (call runner step.actionId inputs) fun e =>
      if left ≠ 0 then do
        let _ ← liftM step.backoff
        attemptCalls runner step inputs left result
      else if step.continues then
        return ⟨[("status", .str "failed"), ("error", .dict [("message", .str e.text)])]⟩
      else throw (.other ("step " ++ step.id ++ ": " ++ e.text))

/-- `for _iteration in range(...)`, with so many iterations left. -/
def iterateCalls (runner : ChildRunner) (step : BodyStep) (inputs : Dict String Value)
    (attempts : ℕ) : ℕ → Dict String Value → Body (Dict String Value)
  | 0, result => return result
  | left + 1, result => do
    let result ← attemptCalls runner step inputs attempts result
    iterateCalls runner step inputs attempts left result

/-- The inputs of a step for the device of the loop. -/
def deviceInputs (step : BodyStep) (deviceId : String) (inputs : Dict String Value) :
    Except PyError (Dict String Value) := do
  let inputs := inputs.setDefault "device_id" (.str deviceId)
  let target ← deviceIdValue (entry inputs "device_id")
  if target ≠ deviceId then
    throw (.valueError ("step " ++ step.id ++ " must target the current loop device"))
  else return inputs.set "device_id" (.str deviceId)

/-- A variable is put into the outputs under its name. -/
def Progress.recordVariable (q : Progress) (step : BodyStep) : Progress :=
  let name := entry q.result "name"
  if step.actionId = "variable.set" ∧ name.truthy then
    { q with outputs := q.outputs.set name.pyStr (entry q.result "value") }
  else q

/-- The loop over the steps of `device.for_each`. -/
def deviceSteps (runner : ChildRunner) (deviceId : String) (locals : Dict String Value) :
    List BodyStep → Progress → Body Progress
  | [], q => return q
  | step :: rest, q => do
    happen (.entered step.id q.outputs)
    let inputs ← liftM (stepInputs step q.outputs locals)
    let inputs ← liftM (deviceInputs step deviceId inputs)
    let attempts ← liftM step.attempts
    let iterations ← liftM step.iterations
    let result ← iterateCalls runner step inputs attempts.toNat iterations.toNat q.result
    deviceSteps runner deviceId locals rest ((q.keep step result).recordVariable step)

/-- `DeviceForEachActivityHandler._run_steps`. -/
def deviceRunSteps (runner : ChildRunner) (deviceId : String)
    (locals scopeOutputs : Dict String Value) (steps : List BodyStep) :
    Body (Dict String Value) := do
  let q ← deviceSteps runner deviceId locals steps { outputs := scopeOutputs }
  return ((projectStructuredOutput q.result).merge (projectNamedValues steps q.stepResults)).set
    "steps" (stepsValue q.stepResults)

end

/-! ## What the loops bind -/

/-- The names of `loop.for_each`. -/
def itemLocals (item : Value) (index : ℕ) : Dict String Value :=
  ⟨[("item", item), ("index", .int index)]⟩

/-- The names of `device.for_each`, for a device given with these fields. -/
def deviceLocals (fields : Dict String Value) (deviceId : String) (index : ℕ) :
    Dict String Value :=
  ⟨[("device", .ofDict ((fields.set "id" (.str deviceId)).set "device_id" (.str deviceId))),
    ("device_id", .str deviceId), ("index", .int index)]⟩

/-- The names of the first iteration of `loop.until`. -/
def untilLocals : Dict String Value :=
  ⟨[("iteration", .int 1), ("result", .dict []), ("outputs", .dict [])]⟩

end DeviceShell.Activity.LoopBody
