import DeviceShell.Framework.TaskPlan
import DeviceShell.Tasking.CommandRisk

/-!
# Plans of agents and their compiler

`application/tasking/plans.py`: the plan that an agent proposes, and `WorkflowPlanCompiler`, which
rejects it, accepts it, or accepts it under confirmation, and compiles it for the legacy engine and
for the Framework. The compiler has the default capabilities. The catalog of named workflows is the
one it is given.
-/

namespace DeviceShell.Tasking

open Framework (TaskPlan WorkflowNode)

/-! ## The protocol -/

/-- `Action`, as the compiler fills it. -/
structure Action where
  name : String
  parameters : Dict String Value := ∅
  targetStep : String := ""
  risk : String := "normal"
  confirmationRequired : Bool := false

/-- `WorkflowStep`. -/
structure WorkflowStep where
  id : String
  kind : String := "tool"
  action : Action
  dependsOn : List String := []
  params : Dict String Value := ∅
  retryPolicy : Dict String Value := ∅
  metadata : Dict String Value := ∅

/-- `WorkflowDefinition` of the legacy engine. -/
structure WorkflowDefinition where
  id : String
  steps : List WorkflowStep
  version : String := "1"
  name : String := ""
  description : String := ""
  maxSteps : ℕ := 50
  metadata : Dict String Value := ∅

/-- `PlanStep`. -/
structure PlanStep where
  id : String
  capability : String
  params : Dict String Value := ∅
  dependsOn : List String := []
  retryPolicy : Dict String Value := ∅
  metadata : Dict String Value := ∅

/-- `WorkflowPlan`. -/
structure WorkflowPlan where
  planId : String
  objective : String
  target : Dict String String
  steps : List PlanStep
  successCriteria : List (Dict String Value) := []
  budget : Dict String Value := ∅
  parentTaskId : String := ""
  revision : ℤ := 1
  metadata : Dict String Value := ∅

/-- An entry of the errors of a plan. -/
structure PlanIssue where
  code : String
  path : String
  message : String
deriving DecidableEq, Repr

/-- The status of a `PlanValidationResult`. -/
inductive PlanStatus where
  | rejected
  | requiresConfirmation
  | validated
deriving DecidableEq, Repr

/-- The text of a status. -/
def PlanStatus.value : PlanStatus → String
  | .rejected => "rejected"
  | .requiresConfirmation => "requires_confirmation"
  | .validated => "validated"

/-- `PlanValidationResult`. -/
structure PlanValidationResult where
  status : PlanStatus
  plan : WorkflowPlan
  planHash : String
  workflow : Option WorkflowDefinition := none
  taskPlan : Option TaskPlan := none
  errors : List PlanIssue := []
  warnings : List String := []
  requiredActions : List Action := []

/-! ## The content of a plan -/

/-- The digest of a canonical JSON text. -/
class PlanHash where
  /-- `hashlib.sha256(json.dumps(value, sort_keys=True, ...).encode()).hexdigest()`. -/
  sha256 : Value → String

/-- `PlanStep.to_dict`. -/
def PlanStep.toValue (step : PlanStep) : Value :=
  .dict [("id", .str step.id), ("capability", .str step.capability),
    ("params", .ofDict step.params), ("depends_on", .list (step.dependsOn.map .str)),
    ("retry_policy", .ofDict step.retryPolicy), ("metadata", .ofDict step.metadata)]

/-- `to_dict` of a plan without its id. -/
def WorkflowPlan.content (plan : WorkflowPlan) : Value :=
  .dict [("objective", .str plan.objective),
    ("target", .ofDict (plan.target.mapValues .str)),
    ("steps", .list (plan.steps.map PlanStep.toValue)),
    ("success_criteria", .list (plan.successCriteria.map .ofDict)),
    ("budget", .ofDict plan.budget), ("parent_task_id", .str plan.parentTaskId),
    ("revision", .int plan.revision), ("metadata", .ofDict plan.metadata)]

/-- `content_hash`. -/
def WorkflowPlan.contentHash [PlanHash] (plan : WorkflowPlan) : String :=
  "sha256:" ++ PlanHash.sha256 plan.content

/-! ## Capabilities -/

/-- A type of `param_types`. -/
inductive ParamType where
  | str
  | list
  | tuple
deriving DecidableEq, Repr

/-- `item.__name__`. -/
def ParamType.name : ParamType → String
  | .str => "str"
  | .list => "list"
  | .tuple => "tuple"

/-- `isinstance(value, accepted)`. -/
def ParamType.accepts : ParamType → Value → Bool
  | .str, .str _ => true
  | .list, .list _ => true
  | _, _ => false

/-- `CapabilitySpec`. -/
structure CapabilitySpec where
  action : String
  kind : String := "device"
  requiredParams : List String := []
  paramTypes : List (String × List ParamType) := []
  workflowId : String := ""
  risk : String := ""
  confirmationRequired : Bool := false

/-- `DEFAULT_CAPABILITY_SPECS`. -/
def defaultCapabilitySpecs : Dict String CapabilitySpec :=
  ⟨[("session.open", { action := "wait_online" }),
    ("device.wait_online", { action := "wait_online" }),
    ("device.version_check", { action := "verify_version" }),
    ("terminal.command", {
      action := "command"
      requiredParams := ["command"]
      paramTypes := [("command", [.str])] }),
    ("terminal.batch", {
      action := "batch"
      requiredParams := ["commands"]
      paramTypes := [("commands", [.list, .tuple])] }),
    ("device.reboot", { action := "reboot", risk := "high", confirmationRequired := true }),
    ("device.power_off", { action := "power_off", risk := "high", confirmationRequired := true }),
    ("file.upload", {
      action := "upload"
      requiredParams := ["source_path"]
      paramTypes := [("source_path", [.str]), ("destination_path", [.str])]
      risk := "medium"
      confirmationRequired := true }),
    ("file.download", {
      action := "download"
      requiredParams := ["source_path", "destination_path"]
      paramTypes := [("source_path", [.str]), ("destination_path", [.str])] }),
    ("device.upgrade", {
      action := "device_upgrade"
      requiredParams := ["package_path"]
      paramTypes := [("package_path", [.str])]
      workflowId := "device_upgrade"
      risk := "high"
      confirmationRequired := true }),
    ("operation.wait", {
      action := "operation_wait"
      requiredParams := ["operation_id"]
      paramTypes := [("operation_id", [.str])] })]⟩

/-- `self._capabilities.get(step.capability)` when the registry contains it. -/
def PlanStep.spec? (step : PlanStep) : Option CapabilitySpec :=
  defaultCapabilitySpecs.get? step.capability

/-! ## The catalog -/

/-- `WorkflowTarget`. -/
structure WorkflowTarget where
  deviceId : String
  sessionId : String := ""
  protocol : String := "auto"

/-- What the catalog raises. -/
inductive CatalogError where
  /-- `WorkflowCatalogError`. -/
  | workflowCatalog (message : String)
  | python (e : PyError)

/-- The operations of a `WorkflowCatalog` that the compiler calls. -/
structure WorkflowCatalog where
  normalizeParameters : String → Dict String Value → Except CatalogError (Dict String Value)
  build : String → WorkflowTarget → Dict String Value → Except PyError WorkflowDefinition

/-! ## Validating a step -/

/-- `MAX_STEPS`. -/
def maxSteps : ℕ := 50

/-- `MAX_REPLANS`. -/
def maxReplans : ℕ := 3

/-- `int(d.get(key, default) or default)`. -/
def intOr [PyLib] (value : Option Value) (default : ℤ) : Except PyError ℤ :=
  ((value.filter Value.truthy).getD (.int default)).toInt

/-- A path below a step. -/
def PlanStep.path (step : PlanStep) (field : String) : String :=
  "steps." ++ step.id ++ "." ++ field

/-- A required parameter is missing. -/
def missingParam (value : Option Value) : Bool :=
  match value with
  | none => true
  | some .none => true
  | some (.str s) => isBlank s
  | some (.list items) => items.isEmpty
  | some _ => false

section

variable [PyLib]

/-- `_validate_params` of a step whose capability is known. -/
def validateParams (catalog : WorkflowCatalog) (step : PlanStep) (spec : CapabilitySpec) :
    Except PyError (List PlanIssue) := do
  let required := (spec.requiredParams.filter fun name => missingParam (step.params.get? name)).map
    fun name => ⟨"parameter_required", step.path ("params." ++ name),
      name ++ " is required for " ++ step.capability⟩
  let typed := spec.paramTypes.filterMap fun (name, accepted) =>
    match step.params.get? name with
    | none => none
    | some .none => none
    | some value =>
      if accepted.any (·.accepts value) then none
      else some ⟨"parameter_type_invalid", step.path ("params." ++ name),
        name ++ " must be " ++ " or ".intercalate (accepted.map ParamType.name)⟩
  let batch := match step.capability == "terminal.batch", step.params.get? "commands" with
    | true, some (.list items) =>
      if items.any (fun item => match item with
        | .str s => isBlank s
        | _ => true) then
        [⟨"parameter_value_invalid", step.path "params.commands",
          "commands must contain non-empty strings"⟩]
      else []
    | _, _ => []
  let named ← if spec.workflowId = "" then pure [] else
    match catalog.normalizeParameters spec.workflowId step.params with
    | .ok _ => pure []
    | .error (.workflowCatalog message) =>
      pure [⟨"parameter_value_invalid", step.path "params", message⟩]
    | .error (.python e) => throw e
  return required ++ typed ++ batch ++ named

/-- `_command`. -/
def PlanStep.command (step : PlanStep) : Except PyError String :=
  if step.capability = "terminal.command" then .ok (Value.strOr (step.params.get? "command") "")
  else if step.capability = "terminal.batch" then do
    let items ← ((step.params.get? "commands").getD (.list [])).iter
    return "\n".intercalate ((items.map Value.pyStr).filter fun s => !isBlank s)
  else if step.capability = "device.reboot" then .ok "reboot"
  else if step.capability = "device.power_off" then .ok "power_off"
  else if step.capability = "device.upgrade" then
    .ok (Value.strOr ((step.params.get? "package_path").filter Value.truthy)
      (Value.strOr (step.params.get? "package") "package_upgrade"))
  else if step.capability = "device.version_check" then
    .ok (Value.strOr (step.params.get? "command") "display version")
  else .ok ""

variable [PyText]

/-- `_classify`. -/
def classify (command : String) : RiskLevel :=
  if command = "" then .low else classifyCommandRisk command

/-- `_step_risk`. -/
def PlanStep.risk (step : PlanStep) : Except PyError RiskLevel :=
  match step.spec? with
  | none => do return classify (← step.command)
  | some spec =>
    if spec.risk = "high" then .ok .high
    else if spec.risk = "medium" then .ok .medium
    else do return classify (← step.command)

/-- What `validate` collects. -/
structure Findings where
  errors : List PlanIssue := []
  required : List Action := []
  warnings : List String := []

/-- The findings of two parts of a plan. -/
def Findings.append (f g : Findings) : Findings :=
  ⟨f.errors ++ g.errors, f.required ++ g.required, f.warnings ++ g.warnings⟩

/-- The errors of a step that do not depend on its risk; `ids` are those of the steps before it. -/
def stepErrors (catalog : WorkflowCatalog) (plan : WorkflowPlan) (ids : List String)
    (step : PlanStep) : Except PyError (List PlanIssue) := do
  let id := if isBlank step.id then
      [⟨"step_id_required", "steps", "every step requires an id"⟩]
    else if ids.contains step.id then
      [⟨"duplicate_step", "steps." ++ step.id, "step id must be unique"⟩]
    else []
  let capability ← match step.spec? with
    | none => pure [⟨"capability_not_allowed", step.path "capability",
        "unsupported capability: " ++ step.capability⟩]
    | some spec => validateParams catalog step spec
  let dependencies := (step.dependsOn.filter fun d => !(plan.steps.map (·.id)).contains d).map
    fun d => ⟨"unknown_dependency", step.path "depends_on", "unknown dependency: " ++ d⟩
  let attempts := match step.retryPolicy.get? "max_attempts" with
    | some v => some v
    | none => step.retryPolicy.get? "max"
  let retryMax ← intOr attempts 1
  let retry := if retryMax < 1 ∨ retryMax > 5 then
      [⟨"retry_budget_exceeded", step.path "retry_policy",
        "retry attempts must be between 1 and 5"⟩]
    else []
  return id ++ capability ++ dependencies ++ retry

/-- What a step adds once its risk is known. -/
def confirmStep (step : PlanStep) (risk : RiskLevel) : Findings :=
  let spec := step.spec?
  if spec.any (·.workflowId == "device_upgrade") then
    { errors := [⟨"workflow_task_only", step.path "capability",
        "device.upgrade must be started as a named Workflow Task, " ++
          "not embedded in an Agent plan."⟩] }
  else if spec.any (·.confirmationRequired) ∨ RiskLevel.medium.value ≤ risk.value then
    { required := [{
        name := (spec.map (·.action)).getD step.capability
        risk := risk.name
        confirmationRequired := true
        targetStep := step.id }]
      warnings := ["step " ++ step.id ++ " requires confirmation (" ++ risk.name ++ ")"] }
  else {}

/-- The loop of `validate` over the steps; `ids` are those of the steps before. -/
def validateSteps (catalog : WorkflowCatalog) (plan : WorkflowPlan) :
    List String → List PlanStep → Except PyError Findings
  | _, [] => .ok {}
  | ids, step :: rest => do
    let errors ← stepErrors catalog plan ids step
    -- The command is computed once before the risk, which may not need it.
    let _ ← step.command
    let risk ← step.risk
    let here : Findings := { errors := errors }
    return (here.append (confirmStep step risk)).append
      (← validateSteps catalog plan (step.id :: ids) rest)

/-! ## The order of the steps -/

/-- The rounds of `_acyclic`; the number bounds how many. -/
def acyclicLoop : ℕ → Dict String (List String) → Bool
  | 0, graph => graph.entries.isEmpty
  | n + 1, graph =>
    if graph.entries.isEmpty then true
    else
      let ready := (graph.entries.filter fun e => e.2.all fun d => !graph.contains d).map (·.1)
      if ready.isEmpty then false
      else acyclicLoop n (graph.filterKeys fun id => !ready.contains id)

/-- `_acyclic`. -/
def acyclic (steps : List PlanStep) : Bool :=
  let graph := steps.foldl (fun d step => d.set step.id step.dependsOn)
    (∅ : Dict String (List String))
  acyclicLoop graph.entries.length graph

/-! ## Compiling -/

/-- The parameters that both compilations write out. -/
def compiledParams (step : PlanStep) (params : Dict String Value) :
    Except PyError (Dict String Value) :=
  if step.capability = "terminal.command" then
    .ok (params.set "command" (.str (Value.strOr (params.get? "command") "")))
  else if step.capability = "terminal.batch" then do
    let items ← (((params.get? "commands").filter Value.truthy).getD (.list [])).iter
    return params.set "commands" (.list items)
  else .ok params

/-- `_framework_workflow_id`. -/
def frameworkWorkflowId (capability : String) (spec : CapabilitySpec) : String :=
  if spec.workflowId ≠ "" ∧ spec.workflowId ≠ "device_upgrade" then spec.workflowId
  else match capability with
    | "session.open" => "device.wait_online"
    | "device.wait_online" => "device.wait_online"
    | "device.version_check" => "device.verify_version"
    | "terminal.command" => "terminal.command"
    | "terminal.batch" => "terminal.batch"
    | "device.reboot" => "device.reboot"
    | "device.power_off" => "device.power_off"
    | "file.upload" => "file.transfer"
    | "file.download" => "file.transfer"
    | "operation.wait" => "operation.wait"
    | _ => spec.action

/-- The node of a step in `compile_task_plan`. -/
def compileNode (step : PlanStep) : Except PyError WorkflowNode :=
  match step.spec? with
  | none => .error (.keyError step.capability)
  | some spec =>
    if spec.workflowId = "device_upgrade" then
      .error (.valueError "device.upgrade must be started as a named Workflow Task.")
    else do
      let params := if step.capability = "file.upload" then
          (step.params.set "direction" (.str "upload")).setDefault "overwrite" (.bool true)
        else if step.capability = "file.download" then
          step.params.set "direction" (.str "download")
        else step.params
      return {
        id := step.id
        workflowId := frameworkWorkflowId step.capability spec
        dependsOn := step.dependsOn
        inputMapping := ← compiledParams step params }

/-- `plan.plan_id or "agent-plan"`. -/
def WorkflowPlan.compiledId (plan : WorkflowPlan) : String :=
  if plan.planId = "" then "agent-plan" else plan.planId

/-- `compile_task_plan`. -/
def compileTaskPlan (plan : WorkflowPlan) : Except PyError TaskPlan := do
  let taskPlan : TaskPlan := {
    id := plan.compiledId
    version := toString plan.revision
    nodes := ← plan.steps.mapM compileNode }
  taskPlan.validate
  return taskPlan

/-- `_terminal_step_ids`. -/
def terminalStepIds (workflow : WorkflowDefinition) : List String :=
  (workflow.steps.map (·.id)).filter fun id =>
    !(workflow.steps.flatMap (·.dependsOn)).contains id

/-- `_compile_named_workflow`. -/
def compileNamedWorkflow (item : PlanStep) (workflow : WorkflowDefinition)
    (dependencies : List String) : List WorkflowStep :=
  workflow.steps.map fun step => {
    id := item.id ++ "." ++ step.id
    kind := step.kind
    action := step.action
    dependsOn := if step.dependsOn.isEmpty then dependencies
      else step.dependsOn.map fun d => item.id ++ "." ++ d
    params := step.params
    retryPolicy := step.retryPolicy
    metadata := ((item.metadata.merge step.metadata).set "capability" (.str item.capability)).set
      "plan_step_id" (.str item.id) }

/-- The named workflow of a step, with the steps that others wait for. -/
def namedWorkflow (catalog : WorkflowCatalog) (plan : WorkflowPlan) (step : PlanStep) :
    Except PyError (Option WorkflowDefinition × List String) :=
  match step.spec? with
  | none => .error (.keyError step.capability)
  | some spec =>
    if spec.workflowId = "" then .ok (none, [step.id])
    else do
      let protocol := (plan.target.get? "protocol").getD ""
      let workflow ← catalog.build spec.workflowId
        { deviceId := (plan.target.get? "device_id").getD ""
          sessionId := (plan.target.get? "session_id").getD ""
          protocol := if protocol = "" then "auto" else protocol }
        step.params
      return (some workflow, (terminalStepIds workflow).map fun id => step.id ++ "." ++ id)

/-- The steps that a step becomes in `compile`. -/
def compileStep (step : PlanStep) (named : Option WorkflowDefinition)
    (dependencies : List String) : Except PyError (List WorkflowStep) :=
  match named, step.spec? with
  | some workflow, _ => .ok (compileNamedWorkflow step workflow dependencies)
  | none, none => .error (.keyError step.capability)
  | none, some spec => do
    let params ← compiledParams step step.params
    let risk ← step.risk
    return [{
      id := step.id
      kind := spec.kind
      action := {
        name := spec.action
        parameters := params
        targetStep := step.id
        risk := risk.name
        confirmationRequired := spec.confirmationRequired ||
          decide (RiskLevel.medium.value ≤ risk.value) }
      dependsOn := dependencies
      params := params
      retryPolicy := step.retryPolicy
      metadata := step.metadata.set "capability" (.str step.capability) }]

variable [PlanHash]

/-- `compile`. -/
def compile (catalog : WorkflowCatalog) (plan : WorkflowPlan) :
    Except PyError WorkflowDefinition := do
  let named ← plan.steps.mapM fun step => do return (step, ← namedWorkflow catalog plan step)
  let tails := named.foldl (fun d e => d.set e.1.id e.2.2) (∅ : Dict String (List String))
  let workflows := named.foldl (fun d e => match e.2.1 with
    | some workflow => d.set e.1.id workflow
    | none => d) (∅ : Dict String WorkflowDefinition)
  let steps ← plan.steps.mapM fun step => compileStep step (workflows.get? step.id)
    (step.dependsOn.flatMap fun d => (tails.get? d).getD [d])
  return {
    id := plan.compiledId
    version := toString plan.revision
    name := slice plan.objective 0 (some 120)
    description := plan.objective
    steps := steps.flatten
    maxSteps := maxSteps
    metadata := ⟨[("plan_hash", .str plan.contentHash), ("plan_id", .str plan.planId),
      ("parent_task_id", .str plan.parentTaskId),
      ("success_criteria", .list (plan.successCriteria.map .ofDict)),
      ("budget", .ofDict plan.budget)]⟩ }

/-- The findings about a plan as a whole before its steps. -/
def planErrors (plan : WorkflowPlan) : Except PyError (List PlanIssue) := do
  let objective := if isBlank plan.objective then
      [⟨"objective_required", "objective", "objective is required"⟩]
    else []
  let device := if isBlank ((plan.target.get? "device_id").getD "") then
      [⟨"device_required", "target.device_id", "target.device_id is required"⟩]
    else []
  let steps := if plan.steps.isEmpty then
      [⟨"steps_required", "steps", "at least one step is required"⟩]
    else []
  let budget ← intOr (plan.budget.get? "max_steps") maxSteps
  let tooMany := if (plan.steps.length : ℤ) > min (maxSteps : ℤ) (max 1 budget) then
      [⟨"too_many_steps", "steps", "at most " ++ toString maxSteps ++ " steps are allowed"⟩]
    else []
  return objective ++ device ++ steps ++ tooMany

/-- The findings about a plan as a whole after its steps. -/
def orderErrors (plan : WorkflowPlan) : Except PyError (List PlanIssue) := do
  let cycle := if acyclic plan.steps then []
    else [⟨"workflow_cycle", "steps", "workflow dependencies contain a cycle"⟩]
  let replans ← intOr (plan.budget.get? "max_replans") 0
  let exceeded := if replans > maxReplans then
      [⟨"replan_budget_exceeded", "budget.max_replans",
        "max_replans cannot exceed " ++ toString maxReplans⟩]
    else []
  return cycle ++ exceeded

/-- All that `validate` finds before it decides. -/
def findings (catalog : WorkflowCatalog) (plan : WorkflowPlan) : Except PyError Findings := do
  let before ← planErrors plan
  let steps ← validateSteps catalog plan [] plan.steps
  let after ← orderErrors plan
  return ⟨before ++ steps.errors ++ after, steps.required, steps.warnings⟩

/-- `WorkflowPlanCompiler.validate`. -/
def validate (catalog : WorkflowCatalog) (plan : WorkflowPlan) :
    Except PyError PlanValidationResult := do
  let found ← findings catalog plan
  if found.errors ≠ [] then
    return {
      status := .rejected
      plan := plan
      planHash := plan.contentHash
      errors := found.errors
      warnings := found.warnings
      requiredActions := found.required }
  let workflow ← compile catalog plan
  let taskPlan ← compileTaskPlan plan
  return {
    status := if found.required.isEmpty then .validated else .requiresConfirmation
    plan := plan
    planHash := plan.contentHash
    workflow := some workflow
    taskPlan := some taskPlan
    warnings := found.warnings
    requiredActions := found.required }

end

end DeviceShell.Tasking
