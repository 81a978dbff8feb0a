import DeviceShell.Framework.Expression
import DeviceShell.Framework.Conditions
import DeviceShell.Framework.TaskPlan

/-!
# Inputs and outputs of task nodes

What `TaskOrchestrator` computes for a node from the inputs, outputs and context of its task: the
resolved inputs, the device it runs on, whether its `run_if` holds, and what its outputs add. These
functions are pure; the orchestrator calls them between its awaits.
-/

namespace DeviceShell.Framework

/-- `d.get(key)`. -/
def entry (d : Dict String Value) (key : String) : Value := (d.get? key).getD .none

/-- `d.get(key)` when it is a dictionary. -/
def mapping? (d : Dict String Value) (key : String) : Option (Dict String Value) :=
  (d.get? key).bind Value.asDict?

/-- `str(d.get(key) or "").strip()`. -/
def strippedEntry [PyLib] (d : Dict String Value) (key : String) : String :=
  strip (Value.strOr (d.get? key) "")

/-! ## Devices -/

/-- `device_id_value`. -/
def deviceIdValue (value : Value) : Except PyError String :=
  let value := match value with
    | .dict entries =>
      let deviceId := entry ⟨entries⟩ "device_id"
      if deviceId.truthy then deviceId else entry ⟨entries⟩ "id"
    | v => v
  match value with
  | .str s => .ok (strip s)
  | _ => .error (.valueError "device must be an ID or an object with id/device_id")

/-- The keys of a target that belong to the session with its device. -/
def sessionKeys : List String := ["session_id", "protocol", "host", "port"]

/-- `bind_device_target`. -/
def bindDeviceTarget [PyLib] (context : Dict String Value) (deviceId : String) :
    Dict String Value :=
  let target := (mapping? context "target").getD ∅
  let previous := Value.strOr (target.get? "device_id") ""
  let target := if previous ≠ "" ∧ previous ≠ deviceId then
      target.filterKeys fun key => !sessionKeys.contains key
    else target
  let target := target.set "device_id" (.str deviceId)
  let unbound : Dict String Value := ⟨[("id", .str deviceId)]⟩
  let device := match mapping? context "device" with
    | some device => if (entry device "id").pyEq (.str deviceId) then device else unbound
    | none => unbound
  (context.set "target" (.ofDict target)).set "device" (.ofDict device)

/-- `_node_target`: the device of a node, the context bound to it, and the inputs, in which it is
put in the place of a `device_id`. -/
def nodeTarget [PyLib] (task : TaskRun) (inputs : Dict String Value) :
    Except PyError (String × Dict String Value × Dict String Value) := do
  let current := match mapping? task.context "target" with
    | some target => Value.strOr (target.get? "device_id") task.deviceId
    | none => task.deviceId
  let selected ← if (entry inputs "device_id").truthy then deviceIdValue (entry inputs "device_id")
    else pure current
  let inputs := if inputs.contains "device_id" then inputs.set "device_id" (.str selected)
    else inputs
  return (selected, bindDeviceTarget task.context selected, inputs)

/-! ## References -/

/-- The value that the segments of a reference lead to. `resolved` is the way so far. -/
def followReference [PyLib] (expression : String) :
    Value → List String → List String → Except PyError Value
  | current, _, [] => .ok current
  | current, resolved, segment :: rest =>
    let unresolved (available : List String) : PyError :=
      .taskInputResolution expression segment available (".".intercalate resolved)
    match current with
    | .dict entries => match Dict.lookup segment entries with
      | some v => followReference expression v (resolved ++ [segment]) rest
      | none => match ((mapping? ⟨entries⟩ "run").bind fun run => run.get? segment) with
        | some v => followReference expression v (resolved ++ ["run", segment]) rest
        | none => .error (unresolved (entries.map (·.1)))
    | .list items => match (decimalIndex segment).bind fun n => items[n]? with
      | some v => followReference expression v (resolved ++ [segment]) rest
      | none => .error (unresolved [])
    | _ => .error (unresolved [])

/-- What the resolution of inputs depends on besides the value: the values that references read,
and the references that are left for later. -/
structure Resolution where
  values : Dict String Value
  /-- `deferred_reference_roots`. -/
  deferredRoots : List String := []
  /-- `deferred_reference_keys`. -/
  deferredKeys : List String := []

/-- The keys of an input whose text is a template. -/
def templateKeys : List String :=
  ["command", "prompt", "approve_label", "reject_label", "pattern", "source", "destination",
    "source_path", "source_name", "destination_path"]

section

variable [PyLib]

/-- `resolve_reference` of the reference with the given path. -/
def resolveReference (r : Resolution) (path : String) (containerPath : List String) :
    Except PyError Value :=
  let root := (segments path).headD ""
  if r.deferredRoots.contains root &&
      (r.deferredKeys.isEmpty || r.deferredKeys.any fun key => containerPath.contains key) then
    .ok (.str (referenceText path))
  else followReference (referenceText path) (.ofDict r.values) [] (segments path)

/-- `resolve` of a text that is not parsed as JSON. -/
def resolveText (r : Resolution) (containerPath : List String) (text : String) :
    Except PyError Value :=
  match exactReference text with
  | some path => resolveReference r path containerPath
  | none =>
    if templateKeys.contains ((containerPath.getLast?).getD "") && !(references text).isEmpty then do
      return .str (← substitute matchReference
        (fun path => do return (← resolveReference r path containerPath).pyStr) text)
    else .ok (.str text)

mutual

/-- `resolve`. `json` resolves what a text under the key `input_json` parses to. -/
def resolveWith (r : Resolution) (json : String → List String → Value → Except PyError Value)
    (containerPath : List String) : Value → Except PyError Value
  | .dict entries => do
    return .ofDict ((← resolveEntries r json containerPath entries).foldl
      (fun d e => d.set e.1 e.2) ∅)
  | .list items => do return .list (← resolveItems r json containerPath items)
  | .str text => match containerPath.getLast? == some "input_json", PyLib.jsonLoads text with
    | true, some parsed => json text containerPath parsed
    | _, _ => resolveText r containerPath text
  | v => .ok v
termination_by structural v => v

/-- `resolve` of the items of a list. -/
def resolveItems (r : Resolution) (json : String → List String → Value → Except PyError Value)
    (containerPath : List String) : List Value → Except PyError (List Value)
  | [] => .ok []
  | v :: rest => do
    let v ← resolveWith r json containerPath v
    return v :: (← resolveItems r json containerPath rest)
termination_by structural items => items

/-- `resolve` of the values of a dictionary, each under its key. -/
def resolveEntries (r : Resolution) (json : String → List String → Value → Except PyError Value)
    (containerPath : List String) : List (String × Value) → Except PyError (List (String × Value))
  | [] => .ok []
  | (key, v) :: rest => do
    let v ← resolveWith r json (containerPath ++ [key]) v
    return (key, v) :: (← resolveEntries r json containerPath rest)
termination_by structural entries => entries

end

/-- `resolve` of what a text parses to. A text in it is shorter than the text it was parsed from, so
the texts are parsed at most as deep as the first one is long. -/
def resolveParsed (r : Resolution) : ℕ → List String → Value → Except PyError Value
  | 0, _, v => .ok v
  | n + 1, containerPath, v =>
    resolveWith r (fun _ path parsed => resolveParsed r n path parsed) containerPath v

/-- `_resolve_inputs`. -/
def resolveInputs (r : Resolution) (mapping : Dict String Value) :
    Except PyError (Dict String Value) := do
  let entries ← mapping.entries.mapM fun e => do
    let v ← resolveWith r (fun text path parsed => resolveParsed r text.length path parsed) [e.1] e.2
    return (e.1, v)
  return entries.foldl (fun d e => d.set e.1 e.2) ∅

/-! ## Inputs of a node -/

/-- `_deferred_reference_roots`. -/
def deferredReferenceRoots (node : WorkflowNode) : List String :=
  if node.workflowId = "loop.for_each" then ["item", "index"]
  else if node.workflowId = "device.for_each" then ["item", "index", "device", "device_id"]
  else if node.workflowId = "loop.until" then ["iteration", "result", "outputs"]
  else []

/-- The names that the steps of a loop body introduce: their ids, and the variables they set. -/
def bodyRoot (step : Value) : Except PyError (List String) :=
  match step with
  | .dict entries =>
    let id := (entry ⟨entries⟩ "id").pyStr
    if (entry ⟨entries⟩ "action_id").pyEq (.str "variable.set") then
      match (Dict.lookup "action_inputs" entries).getD (.dict []) with
      | .dict inputs => .ok [id, Value.strOr (Dict.lookup "name" inputs) ""]
      | _ => .error (.attributeError "object has no attribute 'get'")
    else .ok [id]
  | _ => .ok []

/-- `_resolve_node_inputs`. -/
def resolveNodeInputs (node : WorkflowNode) (inputs outputs context : Dict String Value) :
    Except PyError (Dict String Value) := do
  let currentDeviceId := match mapping? context "target" with
    | some target => strippedEntry target "device_id"
    | none => ""
  let bodySteps := (node.inputMapping.get? "action_steps").getD (.list [])
  let bodyRoots ← (← bodySteps.iter).mapM bodyRoot
  let values := (inputs.merge outputs)
  let values := match mapping? context "device" with
    | some device => values.set "device" (.ofDict device)
    | none => values
  let values := ((((values.set "device_id" (.str currentDeviceId)).set "inputs" (.ofDict inputs)).set
    "outputs" (.ofDict outputs)).set "context" (.ofDict context))
  resolveInputs
    { values := values
      deferredRoots := deferredReferenceRoots node ++ bodyRoots.flatten ++
        (if bodySteps.truthy then ["outputs"] else [])
      deferredKeys := ["action_inputs"] }
    node.inputMapping

/-! ## Conditions of a node -/

/-- `resolve` of `_matches_run_if` on a text: the value, and whether it is the text itself. -/
def resolveRuleText (r : Resolution) (text : String) : Value × Bool :=
  match exactReference (strip text) with
  | some path => match resolveReference r path ["value"] with
    | .ok v => (v, false)
    | .error _ => (.str text, true)
  | none =>
    let parts := (scan matchReference text).map fun
      | .inl c => String.singleton c
      | .inr path => match resolveReference r (String.ofList path) ["value"] with
        | .ok v => v.pyStr
        | .error _ => referenceText (String.ofList path)
    (.str (String.join parts), (references text).isEmpty)

/-- `resolve` of `_matches_run_if`. -/
def resolveRuleValue (r : Resolution) (value : Value) : Value :=
  match value with
  | .str text => (resolveRuleText r text).1
  | v => v

/-- `reference_value` of `_matches_run_if`: a text without references is read as a path. -/
def referenceValue (r : Resolution) (value : Value) : Value :=
  match value with
  | .str text =>
    let (resolved, unchanged) := resolveRuleText r text
    if unchanged && !isBlank text then
      match resolveText r ["value"] (referenceText (strip text)) with
      | .ok v => v
      | .error _ => value
    else resolved
  | v => v

/-- Whether the field of a rule is a reference. -/
def fieldIsReference (rule : Dict String Value) : Bool :=
  PyLib.casefold (strippedEntry rule "field_binding") == "reference" ||
    match rule.get? "field" with
    | some (.str field) => ['$', '{'].isPrefixOf (strip field).toList
    | _ => false

/-- The rules with their references resolved, and the values with the resolved left sides under
private keys. -/
def resolveRules (r : Resolution) :
    ℕ → List Value → Dict String Value → List (Dict String Value) × Dict String Value
  | _, [], values => ([], values)
  | index, .dict entries :: rest, values =>
    let rule : Dict String Value := ⟨entries⟩
    let key := "__binding_left_" ++ toString index ++ "__"
    let (rule, values) := if fieldIsReference rule then
        ((rule.set "field" (.str key)).set "value" ((rule.get? "value").getD (.str "")),
          values.set key (referenceValue r ((rule.get? "field").getD (.str ""))))
      else (rule, values)
    let value := (rule.get? "value").getD (.str "")
    let rule := rule.set "value"
      (if PyLib.casefold (strippedEntry rule "value_binding") = "reference" then
        referenceValue r value else resolveRuleValue r value)
    let (rules, values) := resolveRules r (index + 1) rest values
    (rule :: rules, values)
  | index, _ :: rest, values => resolveRules r (index + 1) rest values

/-- `_matches_run_if`. -/
def matchesRunIf (runIf inputs outputs context : Dict String Value) : Except PyError Bool := do
  let sourceId := strippedEntry runIf "values_from"
  let values := if sourceId ≠ "" then (outputs.get? sourceId).getD (.dict [])
    else .ofDict (inputs.merge outputs)
  let expression := strippedEntry runIf "expression"
  let matched ←
    if expression ≠ "" then do
      let scope := (((⟨[("inputs", .ofDict inputs), ("outputs", .ofDict outputs)]⟩ :
        Dict String Value).merge inputs).merge outputs)
      let scope := if context.entries.isEmpty then scope else scope.set "context" (.ofDict context)
      let scope ← if sourceId ≠ "" then do pure (scope.merge (← values.toDict)) else pure scope
      pure (← evaluateExpression expression scope).truthy
    else do
      let resolution : Resolution :=
        { values := (((inputs.merge outputs).set "inputs" (.ofDict inputs)).set "outputs"
            (.ofDict outputs)).set "context" (.ofDict context) }
      let resolvedValues ← values.toDict
      let raw ← ((runIf.get? "rules").getD (.list [])).iter
      let (rules, resolvedValues) := resolveRules resolution 0 raw resolvedValues
      evaluateRules rules (.ofDict resolvedValues) (Value.strOr (runIf.get? "logical_operator") "AND")
  return matched == ((runIf.get? "expected").getD (.bool true)).truthy

/-- `node.run_if is not None and not self._matches_run_if(node.run_if, ...)`. -/
def skips (node : WorkflowNode) (inputs outputs context : Dict String Value) :
    Except PyError Bool :=
  match node.runIf with
  | none => .ok false
  | some runIf => do return !(← matchesRunIf runIf inputs outputs context)

/-! ## Outputs of a node -/

/-- `_project_node_outputs`. -/
def projectNodeOutputs (outputs : Dict String Value) : Dict String Value :=
  match mapping? outputs "run" with
  | some run => run.entries.foldl (fun projected e => projected.setDefault e.1 e.2) outputs
  | none => outputs

/-- `_record_variable_output`. -/
def recordVariableOutput (outputs : Dict String Value) (node : WorkflowNode)
    (projected : Dict String Value) : Dict String Value :=
  if node.workflowId ≠ "variable.set" then outputs
  else
    let name := strippedEntry projected "name"
    if name = "" then outputs else outputs.set name (entry projected "value")

/-- The value of one key that an output adds to the target. -/
def targetValue (output : Dict String Value) (key : String) : Value :=
  let value := entry output key
  if key = "protocol" ∧ value.truthy = false then entry output "recovery_protocol" else value

/-- `value in (None, "")`. -/
def isAbsent : Value → Bool
  | .none => true
  | .str s => s == ""
  | _ => false

/-- The target with one key of an output, and whether it changed. -/
def extendTarget (output : Dict String Value) (target : Dict String Value × Bool) (key : String) :
    Dict String Value × Bool :=
  let value := targetValue output key
  if isAbsent value || (entry target.1 key).pyEq value then target
  else (target.1.set key value, true)

/-- `_context_with_target_output`. -/
def contextWithTargetOutput (context output : Dict String Value) : Dict String Value :=
  let (target, changed) := (["device_id", "session_id", "protocol", "host", "port"]).foldl
    (extendTarget output) ((mapping? context "target").getD ∅, false)
  if changed then context.set "target" (.ofDict target) else context

end

/-- The output of a node that is skipped. -/
def skippedOutput : Dict String Value :=
  ⟨[("status", .str "skipped"), ("reason", .str "condition_false")]⟩

end DeviceShell.Framework
