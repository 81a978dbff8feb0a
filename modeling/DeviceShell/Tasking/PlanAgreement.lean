import DeviceShell.Framework.Orchestrator
import DeviceShell.Lib.Fallible
import DeviceShell.Tasking.PlanGate
import DeviceShell.Tasking.PlanOrder

/-!
# The two compilations of a plan

`validate` checks a plan and compiles it twice: for the legacy engine (`compile`) and for the
Framework (`compile_task_plan`). Here is when it returns at all, and when the two compilations run
each step under the same conditions.

`Convertible` says that nothing that `validate` computes from the plan raises, `Acceptable` what a
plan without errors is. An acceptable plan is compiled step by step, to `legacyStep` and to
`frameworkNode`, so that the two agree where these two do (`PlanStep.RunsAlike`).
-/

namespace DeviceShell.Tasking

open Framework (TaskPlan WorkflowNode)

section

variable [PyLib]

/-! ## What runs a step -/

/-- The attempts of the legacy engine: `max(1, int(step.retry_policy.get("max_attempts", 1) or 1))`. -/
def WorkflowStep.maxAttempts (step : WorkflowStep) : Except PyError ℕ := do
  return max 1 (← intOr (step.retryPolicy.get? "max_attempts") 1).toNat

/-- The attempts of the Framework: `max(1, min(5, int(node.retry_policy.get(...) or 1)))`. -/
def nodeMaxAttempts (node : WorkflowNode) : Except PyError ℕ :=
  Framework.Orchestrator.policyCount node.retryPolicy "max_attempts" 5

/-- `bool(params.get("overwrite", False))`. -/
def overwrites (params : Dict String Value) : Bool :=
  ((params.get? "overwrite").getD (.bool false)).truthy

/-- The direction of a transfer of the legacy engine, and whether it overwrites. -/
def WorkflowStep.transfer? (step : WorkflowStep) : Option (String × Bool) :=
  if step.action.name = "upload" then some (PyLib.casefold "upload", overwrites step.params)
  else if step.action.name = "download" then
    some (PyLib.casefold (Value.strOr (step.params.get? "direction") "download"),
      overwrites step.params)
  else none

/-- The direction of a transfer of the Framework, and whether it overwrites. -/
def nodeTransfer? (node : WorkflowNode) : Option (String × Bool) :=
  if node.workflowId = "file.transfer" then
    some (PyLib.casefold (strip (Value.strOr (node.inputMapping.get? "direction") "upload")),
      overwrites node.inputMapping)
  else none

/-- A step and a node run with the same parameters. -/
structure SameParameters (step : WorkflowStep) (node : WorkflowNode) : Prop where
  transfer : step.transfer? = nodeTransfer? node
  /-- The parameters besides the two that a transfer reads for itself. -/
  others : ∀ key, (step.transfer?.isSome = true → key ≠ "direction" ∧ key ≠ "overwrite") →
    step.params.get? key = node.inputMapping.get? key

/-- The two compilations of a plan attempt each step under the same conditions. -/
structure CompilationsAgree (workflow : WorkflowDefinition) (taskPlan : TaskPlan) : Prop where
  ids : workflow.steps.map (·.id) = taskPlan.nodes.map (·.id)
  dependencies : workflow.steps.map (·.dependsOn) = taskPlan.nodes.map (·.dependsOn)
  parameters : List.Forall₂ SameParameters workflow.steps taskPlan.nodes
  attempts : List.Forall₂ (fun step node => step.maxAttempts = nodeMaxAttempts node)
    workflow.steps taskPlan.nodes

/-- No capability of a plan has a named workflow. -/
def Unnamed (plan : WorkflowPlan) : Prop :=
  ∀ step ∈ plan.steps, ∀ spec, step.spec? = some spec → spec.workflowId = ""

variable [PyText] [PlanHash]

/-- What the compiler promises of a plan. -/
structure PlanHolds (catalog : WorkflowCatalog) (plan : WorkflowPlan) : Prop where
  returns : ∃ result, validate catalog plan = .ok result
  agree : ∀ result, validate catalog plan = .ok result → result.status ≠ .rejected →
    Unnamed plan → ∃ workflow taskPlan, compile catalog plan = .ok workflow ∧
      compileTaskPlan plan = .ok taskPlan ∧ CompilationsAgree workflow taskPlan

end

/-! ## Conditions on a plan -/

section

variable [PyLib]

/-- `step.retry_policy.get("max_attempts", step.retry_policy.get("max", 1))`. -/
def PlanStep.retryLimit? (step : PlanStep) : Option Value :=
  match step.retryPolicy.get? "max_attempts" with
  | some v => some v
  | none => step.retryPolicy.get? "max"

/-- Nothing that is computed from a step raises. -/
structure PlanStep.Converts (catalog : WorkflowCatalog) (step : PlanStep) : Prop where
  attempts : ∃ n, intOr step.retryLimit? 1 = .ok n
  commands : step.capability = "terminal.batch" →
    ∃ items, ((step.params.get? "commands").getD (.list [])).iter = .ok items
  /-- The catalog rejects parameters in its own way only. -/
  normalized : ∀ spec, step.spec? = some spec → spec.workflowId ≠ "" →
    ∀ e, catalog.normalizeParameters spec.workflowId step.params ≠ .error (.python e)

/-- Nothing that is computed from a plan raises. -/
structure Convertible (catalog : WorkflowCatalog) (plan : WorkflowPlan) : Prop where
  maxSteps : ∃ n, intOr (plan.budget.get? "max_steps") maxSteps = .ok n
  maxReplans : ∃ n, intOr (plan.budget.get? "max_replans") 0 = .ok n
  steps : ∀ step ∈ plan.steps, step.Converts catalog

/-- The parameters that a capability asks for. -/
structure PlanStep.ValidParams (step : PlanStep) (spec : CapabilitySpec) : Prop where
  required : ∀ name ∈ spec.requiredParams, missingParam (step.params.get? name) = false
  types : ∀ e ∈ spec.paramTypes, ∀ value, step.params.get? e.1 = some value → value ≠ .none →
    e.2.any (·.accepts value) = true
  batch : step.capability = "terminal.batch" → ∀ items, step.params.get? "commands" =
    some (.list items) → ∀ item ∈ items, ∃ s, item = .str s ∧ isBlank s = false

/-- A step without errors, apart from its id being used before. -/
structure PlanStep.Valid (plan : WorkflowPlan) (step : PlanStep) : Prop where
  id : isBlank step.id = false
  capability : ∃ spec, step.spec? = some spec ∧ spec.workflowId = "" ∧ step.ValidParams spec
  dependencies : ∀ d ∈ step.dependsOn, d ∈ plan.steps.map (·.id)
  retry : ∀ n, intOr step.retryLimit? 1 = .ok n → 1 ≤ n ∧ n ≤ 5

/-- A plan without errors. -/
structure Acceptable (plan : WorkflowPlan) : Prop where
  objective : isBlank plan.objective = false
  device : isBlank ((plan.target.get? "device_id").getD "") = false
  nonempty : plan.steps ≠ []
  length : ∀ n, intOr (plan.budget.get? "max_steps") maxSteps = .ok n →
    (plan.steps.length : ℤ) ≤ min (maxSteps : ℤ) (max 1 n)
  steps : ∀ step ∈ plan.steps, step.Valid plan
  nodup : (plan.steps.map (·.id)).Nodup
  acyclic : acyclic plan.steps = true
  replans : ∀ n, intOr (plan.budget.get? "max_replans") 0 = .ok n → n ≤ maxReplans

/-- What a step keeps in both compilations. -/
structure PlanStep.RunsAlike (step : PlanStep) : Prop where
  attempts : intOr (step.retryPolicy.get? "max_attempts") 1 = .ok 1
  upload : step.capability = "file.upload" → step.params.contains "overwrite" = true
  download : step.capability = "file.download" →
    PyLib.casefold (Value.strOr (step.params.get? "direction") "download") =
      PyLib.casefold "download"

/-! ## The findings about a step -/

variable {catalog : WorkflowCatalog} {plan : WorkflowPlan} {step : PlanStep} {spec : CapabilitySpec}

omit [PyLib] in
/-- The parameters are checked unless the catalog raises something of its own. -/
theorem validateParams_returns_iff : (∃ errors, validateParams catalog step spec = .ok errors) ↔
    (spec.workflowId ≠ "" → ∀ e, catalog.normalizeParameters spec.workflowId step.params ≠
      .error (.python e)) := by
  unfold validateParams
  by_cases hnamed : spec.workflowId = ""
  · rw [if_pos hnamed]
    exact ⟨fun _ h => absurd hnamed h, fun _ => ⟨_, rfl⟩⟩
  · rw [if_neg hnamed]
    cases hresult : catalog.normalizeParameters spec.workflowId step.params with
    | ok params => simp [hnamed, bind, Except.bind, pure, Except.pure]
    | error e =>
      cases e with
      | workflowCatalog message => simp [hnamed, bind, Except.bind, pure, Except.pure]
      | python e => simp [hnamed, bind, Except.bind, throw, throwThe, MonadExceptOf.throw]

omit [PyLib] in
/-- Without a named workflow, the parameters without errors are those that are valid. -/
theorem validateParams_nil_iff (hnamed : spec.workflowId = "") :
    validateParams catalog step spec = .ok [] ↔ step.ValidParams spec := by
  unfold validateParams
  rw [if_pos hnamed]
  show Except.ok (_ ++ _ ++ _ ++ []) = Except.ok [] ↔ _
  rw [Except.ok.injEq, List.append_nil, List.append_eq_nil_iff, List.append_eq_nil_iff,
    List.map_eq_nil_iff, List.filter_eq_nil_iff, List.filterMap_eq_nil_iff]
  constructor
  · rintro ⟨⟨hrequired, htyped⟩, hbatch⟩
    refine ⟨by simpa using hrequired, ?_, ?_⟩
    · intro e he value hvalue hne
      have htype := htyped e he
      cases value <;> simp_all
    · intro hcapability items hitems item hitem
      simp only [hcapability, beq_self_eq_true, hitems, ite_eq_right_iff, reduceCtorEq, imp_false,
        List.any_eq_true, not_exists, not_and, Bool.not_eq_true] at hbatch
      have hblank := hbatch item hitem
      cases item <;> simp_all
  · intro h
    refine ⟨⟨by simpa using h.required, ?_⟩, ?_⟩
    · intro e he
      cases hvalue : step.params.get? e.1 with
      | none => simp [hvalue]
      | some value =>
        have htype := h.types e he value hvalue
        cases value <;> simp_all
    · by_cases hcapability : step.capability = "terminal.batch"
      · have hitems := h.batch hcapability
        simp only [hcapability, beq_self_eq_true]
        cases hcommands : step.params.get? "commands" with
        | none => rfl
        | some value =>
          cases value with
          | list items =>
            have hall := hitems items hcommands
            have hblank : ∀ item ∈ items, ∃ s, item = .str s ∧ isBlank s = false := hall
            simp only [ite_eq_right_iff, reduceCtorEq, imp_false, List.any_eq_true, not_exists,
              not_and, Bool.not_eq_true]
            intro item hitem
            obtain ⟨s, rfl, hs⟩ := hblank item hitem
            exact hs
          | _ => rfl
      · simp [hcapability]

omit [PyLib] in
theorem mem_specs (h : step.spec? = some spec) :
    (step.capability, spec) ∈ defaultCapabilitySpecs.entries := Dict.mem_of_get? h

omit [PyLib] in
/-- The one named workflow of the default capabilities is the upgrade. -/
theorem named_of_spec (h : step.spec? = some spec) :
    spec.workflowId = "" ∨ spec.workflowId = "device_upgrade" := by
  have hall : ∀ e ∈ defaultCapabilitySpecs.entries,
      e.2.workflowId = "" ∨ e.2.workflowId = "device_upgrade" := by decide +kernel
  exact hall _ (mem_specs h)

theorem command_returns_iff : (∃ command, step.command = .ok command) ↔
    (step.capability = "terminal.batch" →
      ∃ items, ((step.params.get? "commands").getD (.list [])).iter = .ok items) := by
  unfold PlanStep.command
  by_cases hbatch : step.capability = "terminal.batch"
  · have hcommand : step.capability ≠ "terminal.command" := by
      rw [hbatch]
      decide
    rw [if_neg hcommand, if_pos hbatch]
    constructor
    · rintro ⟨command, h⟩ -
      obtain ⟨items, hitems, -⟩ := Except.bind_eq_ok.mp h
      exact ⟨items, hitems⟩
    · intro h
      obtain ⟨items, hitems⟩ := h hbatch
      exact ⟨_, Except.bind_eq_ok.mpr ⟨items, hitems, rfl⟩⟩
  · rw [if_neg hbatch]
    refine ⟨fun _ h => absurd h hbatch, fun _ => ?_⟩
    split_ifs <;> exact ⟨_, rfl⟩

variable [PyText]

theorem risk_returns (h : ∃ command, step.command = .ok command) :
    ∃ risk, step.risk = .ok risk := by
  obtain ⟨command, hcommand⟩ := h
  have hclassify : ∃ risk, (do return classify (← step.command) : Except PyError RiskLevel) =
      .ok risk := ⟨_, Except.bind_eq_ok.mpr ⟨command, hcommand, rfl⟩⟩
  unfold PlanStep.risk
  cases step.spec? with
  | none => exact hclassify
  | some spec =>
    dsimp only
    split_ifs
    · exact ⟨_, rfl⟩
    · exact ⟨_, rfl⟩
    · exact hclassify

variable {ids : List String}

omit [PyLib] [PyText] in
/-- The error of the id of a step. -/
def idErrors (ids : List String) (step : PlanStep) : List PlanIssue :=
  if isBlank step.id then [⟨"step_id_required", "steps", "every step requires an id"⟩]
  else if ids.contains step.id then
    [⟨"duplicate_step", "steps." ++ step.id, "step id must be unique"⟩]
  else []

/-- The errors of the capability of a step. -/
def capabilityErrors (catalog : WorkflowCatalog) (step : PlanStep) :
    Except PyError (List PlanIssue) :=
  match step.spec? with
  | none => .ok [⟨"capability_not_allowed", step.path "capability",
      "unsupported capability: " ++ step.capability⟩]
  | some spec => validateParams catalog step spec

/-- The errors of the dependencies of a step. -/
def dependencyErrors (plan : WorkflowPlan) (step : PlanStep) : List PlanIssue :=
  (step.dependsOn.filter fun d => !(plan.steps.map (·.id)).contains d).map
    fun d => ⟨"unknown_dependency", step.path "depends_on", "unknown dependency: " ++ d⟩

/-- The error of the retry limit of a step. -/
def retryErrors (step : PlanStep) (retryMax : ℤ) : List PlanIssue :=
  if retryMax < 1 ∨ retryMax > 5 then
    [⟨"retry_budget_exceeded", step.path "retry_policy",
      "retry attempts must be between 1 and 5"⟩]
  else []

omit [PyText] in
theorem stepErrors_eq : stepErrors catalog plan ids step =
    (capabilityErrors catalog step >>= fun capability => intOr step.retryLimit? 1 >>= fun n =>
      .ok (idErrors ids step ++ capability ++ dependencyErrors plan step ++ retryErrors step n)) := by
  unfold stepErrors capabilityErrors
  cases step.spec? <;> rfl

omit [PyText] in
/-- What `validate` computes for the errors of a step. -/
theorem stepErrors_returns_iff : (∃ errors, stepErrors catalog plan ids step = .ok errors) ↔
    (∃ n, intOr step.retryLimit? 1 = .ok n) ∧
      ∀ spec, step.spec? = some spec → spec.workflowId ≠ "" →
        ∀ e, catalog.normalizeParameters spec.workflowId step.params ≠ .error (.python e) := by
  have hcapability : (∃ errors, capabilityErrors catalog step = .ok errors) ↔
      ∀ spec, step.spec? = some spec → spec.workflowId ≠ "" →
        ∀ e, catalog.normalizeParameters spec.workflowId step.params ≠ .error (.python e) := by
    unfold capabilityErrors
    cases step.spec? with
    | none =>
      constructor
      · intro _ spec heq
        cases heq
      · exact fun _ => ⟨_, rfl⟩
    | some spec =>
      rw [validateParams_returns_iff]
      constructor
      · intro h spec' heq
        cases heq
        exact h
      · exact fun h => h spec rfl
  rw [← hcapability, stepErrors_eq]
  constructor
  · rintro ⟨errors, h⟩
    obtain ⟨capability, hcap, h⟩ := Except.bind_eq_ok.mp h
    obtain ⟨n, hn, -⟩ := Except.bind_eq_ok.mp h
    exact ⟨⟨n, hn⟩, capability, hcap⟩
  · rintro ⟨⟨n, hn⟩, capability, hcap⟩
    exact ⟨_, Except.bind_eq_ok.mpr ⟨capability, hcap, Except.bind_eq_ok.mpr ⟨n, hn, rfl⟩⟩⟩

omit [PyLib] [PyText] in
theorem confirmStep_errors (risk : RiskLevel) : (confirmStep step risk).errors = [] ↔
    ∀ spec, step.spec? = some spec → spec.workflowId ≠ "device_upgrade" := by
  unfold confirmStep
  cases step.spec? with
  | none => by_cases h : RiskLevel.medium.value ≤ risk.value <;> simp [h]
  | some spec =>
    by_cases hupgrade : spec.workflowId = "device_upgrade"
    · simp [hupgrade]
    · simp only [Option.any_some, beq_iff_eq, hupgrade, if_false, Option.some.injEq, ne_eq,
        forall_eq', not_false_eq_true, iff_true]
      split_ifs <;> rfl

omit [PyText] in
/-- A step adds no error when it is valid and its id is new. -/
theorem stepErrors_nil_iff {errors : List PlanIssue} {risk : RiskLevel}
    (h : stepErrors catalog plan ids step = .ok errors) :
    errors ++ (confirmStep step risk).errors = [] ↔ step.Valid plan ∧ step.id ∉ ids := by
  rw [stepErrors_eq] at h
  obtain ⟨capability, hcap, h⟩ := Except.bind_eq_ok.mp h
  obtain ⟨n, hn, h⟩ := Except.bind_eq_ok.mp h
  obtain rfl := Except.ok.inj h
  have hid : idErrors ids step = [] ↔ isBlank step.id = false ∧ step.id ∉ ids := by
    unfold idErrors
    split_ifs with hblank hdouble
    · simp [hblank]
    · simpa using fun _ => by simpa using hdouble
    · simpa [hblank] using hdouble
  have hspec : capability = [] ∧ (confirmStep step risk).errors = [] ↔
      ∃ spec, step.spec? = some spec ∧ spec.workflowId = "" ∧ step.ValidParams spec := by
    rw [confirmStep_errors]
    unfold capabilityErrors at hcap
    cases hspec : step.spec? with
    | none =>
      rw [hspec] at hcap
      obtain rfl := Except.ok.inj hcap
      simp
    | some spec =>
      rw [hspec] at hcap
      have hcap : validateParams catalog step spec = .ok capability := hcap
      rcases named_of_spec hspec with hnamed | hnamed
      · have hvalid : validateParams catalog step spec = .ok [] ↔ step.ValidParams spec :=
          validateParams_nil_iff hnamed
        rw [hcap, Except.ok.injEq] at hvalid
        simp [hnamed, hvalid]
      · simp [hnamed]
  have hdependencies : dependencyErrors plan step = [] ↔
      ∀ d ∈ step.dependsOn, d ∈ plan.steps.map (·.id) := by
    simp [dependencyErrors, List.filter_eq_nil_iff]
  have hlimit : retryErrors step n = [] ↔
      ∀ m, intOr step.retryLimit? 1 = .ok m → 1 ≤ m ∧ m ≤ 5 := by
    unfold retryErrors
    simp only [hn, Except.ok.injEq, forall_eq']
    split_ifs with hout
    · simp only [false_iff]
      omega
    · simp only [true_iff]
      omega
  rw [List.append_eq_nil_iff, List.append_eq_nil_iff, List.append_eq_nil_iff,
    List.append_eq_nil_iff, hid, hdependencies, hlimit]
  constructor
  · rintro ⟨⟨⟨⟨⟨hblank, hnew⟩, hcapability⟩, hdeps⟩, hbounds⟩, hconfirm⟩
    exact ⟨⟨hblank, hspec.mp ⟨hcapability, hconfirm⟩, hdeps, hbounds⟩, hnew⟩
  · rintro ⟨h, hnew⟩
    obtain ⟨hcapability, hconfirm⟩ := hspec.mpr h.capability
    exact ⟨⟨⟨⟨⟨h.id, hnew⟩, hcapability⟩, h.dependencies⟩, h.retry⟩, hconfirm⟩

/-! ## The findings about a plan -/

/-- The loop over the steps returns when nothing that is computed from them raises. -/
theorem validateSteps_returns_iff {steps : List PlanStep} :
    (∃ found, validateSteps catalog plan ids steps = .ok found) ↔
      ∀ step ∈ steps, step.Converts catalog := by
  induction steps generalizing ids with
  | nil => simp [validateSteps]
  | cons step rest ih =>
    unfold validateSteps
    rw [List.forall_mem_cons]
    constructor
    · rintro ⟨found, h⟩
      obtain ⟨errors, herrors, h⟩ := Except.bind_eq_ok.mp h
      obtain ⟨command, hcommand, h⟩ := Except.bind_eq_ok.mp h
      obtain ⟨risk, hrisk, h⟩ := Except.bind_eq_ok.mp h
      obtain ⟨found', hfound, -⟩ := Except.bind_eq_ok.mp h
      obtain ⟨hattempts, hnormalized⟩ := stepErrors_returns_iff.mp ⟨errors, herrors⟩
      exact ⟨⟨hattempts, command_returns_iff.mp ⟨command, hcommand⟩, hnormalized⟩,
        ih.mp ⟨found', hfound⟩⟩
    · rintro ⟨h, hrest⟩
      obtain ⟨errors, herrors⟩ := stepErrors_returns_iff.mpr ⟨h.attempts, h.normalized⟩
      obtain ⟨command, hcommand⟩ := command_returns_iff.mpr h.commands
      obtain ⟨risk, hrisk⟩ := risk_returns ⟨command, hcommand⟩
      obtain ⟨found, hfound⟩ := ih.mpr hrest
      exact ⟨_, Except.bind_eq_ok.mpr ⟨errors, herrors, Except.bind_eq_ok.mpr ⟨command, hcommand,
        Except.bind_eq_ok.mpr ⟨risk, hrisk, Except.bind_eq_ok.mpr ⟨found, hfound, rfl⟩⟩⟩⟩⟩

/-- The steps without errors are valid, and their ids are new and distinct. -/
theorem validateSteps_nil_iff {steps : List PlanStep} {found : Findings}
    (h : validateSteps catalog plan ids steps = .ok found) : found.errors = [] ↔
      (∀ step ∈ steps, step.Valid plan) ∧ (steps.map (·.id)).Nodup ∧
        ∀ step ∈ steps, step.id ∉ ids := by
  induction steps generalizing ids found with
  | nil =>
    obtain rfl := Except.ok.inj h
    simp
  | cons step rest ih =>
    unfold validateSteps at h
    obtain ⟨errors, herrors, h⟩ := Except.bind_eq_ok.mp h
    obtain ⟨command, -, h⟩ := Except.bind_eq_ok.mp h
    obtain ⟨risk, -, h⟩ := Except.bind_eq_ok.mp h
    obtain ⟨found', hfound, h⟩ := Except.bind_eq_ok.mp h
    obtain rfl := Except.ok.inj h
    have hall : (errors ++ (confirmStep step risk).errors) ++ found'.errors = [] ↔ _ :=
      List.append_eq_nil_iff.trans (and_congr (stepErrors_nil_iff herrors) (ih hfound))
    refine hall.trans ?_
    simp only [List.mem_cons, not_or, List.map_cons, List.nodup_cons, List.mem_map,
      forall_eq_or_imp]
    constructor
    · rintro ⟨⟨hvalid, hnew⟩, hrest, hnodup, hids⟩
      refine ⟨⟨hvalid, hrest⟩, ⟨?_, hnodup⟩, hnew, fun other hother => (hids other hother).2⟩
      rintro ⟨other, hother, heq⟩
      exact (hids other hother).1 heq
    · rintro ⟨⟨hvalid, hrest⟩, ⟨hfresh, hnodup⟩, hnew, hids⟩
      refine ⟨⟨hvalid, hnew⟩, hrest, hnodup, fun other hother => ⟨fun heq => ?_, hids other hother⟩⟩
      exact hfresh ⟨other, hother, heq⟩

/-- Nothing raises before the plan is compiled when the plan is convertible. -/
theorem findings_returns_iff : (∃ found, findings catalog plan = .ok found) ↔
    Convertible catalog plan := by
  unfold findings
  constructor
  · rintro ⟨found, h⟩
    obtain ⟨before, hbefore, h⟩ := Except.bind_eq_ok.mp h
    obtain ⟨steps, hsteps, h⟩ := Except.bind_eq_ok.mp h
    obtain ⟨after, hafter, h⟩ := Except.bind_eq_ok.mp h
    obtain ⟨n, hn, -⟩ := Except.bind_eq_ok.mp hbefore
    obtain ⟨m, hm, -⟩ := Except.bind_eq_ok.mp hafter
    exact ⟨⟨n, hn⟩, ⟨m, hm⟩, validateSteps_returns_iff.mp ⟨steps, hsteps⟩⟩
  · rintro ⟨⟨n, hn⟩, ⟨m, hm⟩, hsteps⟩
    obtain ⟨steps, hsteps⟩ := validateSteps_returns_iff.mpr hsteps
    exact ⟨_, Except.bind_eq_ok.mpr ⟨_, Except.bind_eq_ok.mpr ⟨n, hn, rfl⟩,
      Except.bind_eq_ok.mpr ⟨steps, hsteps, Except.bind_eq_ok.mpr
        ⟨_, Except.bind_eq_ok.mpr ⟨m, hm, rfl⟩, rfl⟩⟩⟩⟩

/-- The plans without errors. -/
theorem findings_nil_iff {found : Findings} (h : findings catalog plan = .ok found) :
    found.errors = [] ↔ Acceptable plan := by
  unfold findings at h
  obtain ⟨before, hbefore, h⟩ := Except.bind_eq_ok.mp h
  obtain ⟨steps, hsteps, h⟩ := Except.bind_eq_ok.mp h
  obtain ⟨after, hafter, h⟩ := Except.bind_eq_ok.mp h
  obtain rfl := Except.ok.inj h
  obtain ⟨n, hn, hbefore⟩ := Except.bind_eq_ok.mp hbefore
  obtain ⟨m, hm, hafter⟩ := Except.bind_eq_ok.mp hafter
  obtain rfl := Except.ok.inj hbefore
  obtain rfl := Except.ok.inj hafter
  have hloop := validateSteps_nil_iff hsteps
  simp only [List.append_eq_nil_iff, hloop]
  constructor
  · rintro ⟨⟨⟨⟨⟨hobjective, hdevice⟩, hnonempty⟩, hlength⟩, hvalid, hnodup, -⟩, hacyclic, hreplans⟩
    constructor
    · simpa using hobjective
    · simpa using hdevice
    · simpa using hnonempty
    · intro k hk
      rw [hn] at hk
      obtain rfl := Except.ok.inj hk
      by_contra hlong
      rw [if_pos (by omega)] at hlength
      cases hlength
    · exact hvalid
    · exact hnodup
    · simpa using hacyclic
    · intro k hk
      rw [hm] at hk
      obtain rfl := Except.ok.inj hk
      simpa using hreplans
  · intro h
    refine ⟨⟨⟨⟨⟨?_, ?_⟩, ?_⟩, ?_⟩, h.steps, h.nodup, fun _ _ => List.not_mem_nil⟩, ?_, ?_⟩
    · simp [h.objective]
    · simp [h.device]
    · simp [h.nonempty]
    · rw [if_neg (by have := h.length n hn; omega)]
    · simp [h.acyclic]
    · rw [if_neg (by have := h.replans m hm; omega)]

/-! ## The compilations of an acceptable plan -/

/-- The specification of a capability that is known. -/
def PlanStep.capabilitySpec (step : PlanStep) : CapabilitySpec := step.spec?.getD { action := "" }

/-- What `compile` makes of a step of an acceptable plan. -/
def legacyStep (step : PlanStep) : WorkflowStep :=
  let risk := match step.risk with
    | .ok risk => risk
    | .error _ => .low
  { id := step.id
    kind := step.capabilitySpec.kind
    action := {
      name := step.capabilitySpec.action
      parameters := step.params
      targetStep := step.id
      risk := risk.name
      confirmationRequired := step.capabilitySpec.confirmationRequired ||
        decide (RiskLevel.medium.value ≤ risk.value) }
    dependsOn := step.dependsOn
    params := step.params
    retryPolicy := step.retryPolicy
    metadata := step.metadata.set "capability" (.str step.capability) }

/-- What `compile_task_plan` makes of a step of an acceptable plan. -/
def frameworkNode (step : PlanStep) : WorkflowNode where
  id := step.id
  workflowId := frameworkWorkflowId step.capability step.capabilitySpec
  dependsOn := step.dependsOn
  inputMapping :=
    if step.capability = "file.upload" then
      (step.params.set "direction" (.str "upload")).setDefault "overwrite" (.bool true)
    else if step.capability = "file.download" then
      step.params.set "direction" (.str "download")
    else step.params

omit [PyText] in
theorem PlanStep.spec_of_valid (h : step.Valid plan) :
    step.spec? = some step.capabilitySpec ∧ step.capabilitySpec.workflowId = "" ∧ step.ValidParams step.capabilitySpec := by
  obtain ⟨spec, hspec, hnamed, hparams⟩ := h.capability
  have heq : step.capabilitySpec = spec := by
    unfold PlanStep.capabilitySpec
    rw [hspec]
    rfl
  rw [heq]
  exact ⟨hspec, hnamed, hparams⟩

omit [PyText] in
/-- The parameters that both compilations write out are those of the step. -/
theorem compiledParams_of_valid (h : step.Valid plan) :
    compiledParams step step.params = .ok step.params := by
  obtain ⟨spec, hspec, -, hparams⟩ := h.capability
  unfold compiledParams
  by_cases hcommand : step.capability = "terminal.command"
  · rw [if_pos hcommand]
    have hdefault : defaultCapabilitySpecs.get? step.capability = some {
        action := "command"
        requiredParams := ["command"]
        paramTypes := [("command", [.str])] } := by
      rw [hcommand]
      rfl
    obtain rfl := Option.some.inj (hdefault.symm.trans hspec)
    have hpresent := hparams.required "command" (List.mem_singleton_self _)
    have htypes := hparams.types ("command", [.str]) (List.mem_singleton_self _)
    cases hvalue : step.params.get? "command" with
    | none =>
      rw [hvalue] at hpresent
      cases hpresent
    | some value =>
      rw [hvalue] at hpresent
      cases value with
      | str text =>
        have htext : text ≠ "" := by
          rintro rfl
          cases hpresent
        have hor : Value.strOr (some (.str text)) "" = text := by
          simp [Value.strOr, Value.truthy, Value.pyStr, htext]
        rw [hor]
        exact congrArg Except.ok (Dict.set_of_get? hvalue)
      | none => cases hpresent
      | _ => cases htypes _ hvalue (by simp)
  · rw [if_neg hcommand]
    by_cases hbatch : step.capability = "terminal.batch"
    · rw [if_pos hbatch]
      have hdefault : defaultCapabilitySpecs.get? step.capability = some {
          action := "batch"
          requiredParams := ["commands"]
          paramTypes := [("commands", [.list, .tuple])] } := by
        rw [hbatch]
        rfl
      obtain rfl := Option.some.inj (hdefault.symm.trans hspec)
      have hpresent := hparams.required "commands" (List.mem_singleton_self _)
      have htypes := hparams.types ("commands", [.list, .tuple]) (List.mem_singleton_self _)
      cases hvalue : step.params.get? "commands" with
      | none =>
        rw [hvalue] at hpresent
        cases hpresent
      | some value =>
        rw [hvalue] at hpresent
        cases value with
        | list items =>
          have htruthy : (Value.list items).truthy = true := by
            simpa [missingParam, Value.truthy] using hpresent
          have hiter : (((some (Value.list items)).filter Value.truthy).getD (.list [])).iter =
              .ok items := by
            rw [Option.filter_some, if_pos htruthy]
            rfl
          rw [hiter]
          exact congrArg Except.ok (Dict.set_of_get? hvalue)
        | none => cases hpresent
        | _ => cases htypes _ hvalue (by simp)
    · rw [if_neg hbatch]

omit [PyText] in
theorem frameworkNode_of_valid (h : step.Valid plan) :
    compileNode step = .ok (frameworkNode step) := by
  obtain ⟨hspec, hnamed, -⟩ := PlanStep.spec_of_valid h
  have hother : step.capabilitySpec.workflowId ≠ "device_upgrade" := by
    rw [hnamed]
    decide
  unfold compileNode frameworkNode
  rw [hspec]
  dsimp only
  rw [if_neg hother]
  split_ifs with hupload hdownload
  · unfold compiledParams
    rw [hupload]
    rfl
  · unfold compiledParams
    rw [hdownload]
    rfl
  · rw [compiledParams_of_valid h]
    rfl

theorem legacyStep_of_valid (h : step.Valid plan) (hconverts : step.Converts catalog) :
    compileStep step none step.dependsOn = .ok [legacyStep step] := by
  obtain ⟨hspec, -, -⟩ := PlanStep.spec_of_valid h
  obtain ⟨risk, hrisk⟩ := risk_returns (command_returns_iff.mpr hconverts.commands)
  unfold compileStep legacyStep
  rw [hspec, hrisk]
  dsimp only
  rw [compiledParams_of_valid h]
  rfl

/-- A step without a named workflow, as `compile` collects it. -/
def unnamedStep (step : PlanStep) : PlanStep × Option WorkflowDefinition × List String :=
  (step, none, [step.id])

omit [PyLib] [PyText] in
/-- Where no workflow is named, a dependency stands for itself. -/
theorem tails_unnamed (steps : List PlanStep) (d : String) :
    ((((steps.map unnamedStep).foldl (fun d e => d.set e.1.id e.2.2)
      (∅ : Dict String (List String))).get? d).getD [d]) = [d] := by
  have hall : ∀ tails : Dict String (List String), (∀ k l, tails.get? k = some l → l = [k]) →
      ∀ k l, ((steps.map unnamedStep).foldl (fun d e => d.set e.1.id e.2.2) tails).get? k =
        some l → l = [k] := by
    induction steps with
    | nil => exact fun _ h => h
    | cons step rest ih =>
      intro tails h
      refine ih _ fun k l hk => ?_
      rw [Dict.get?_set] at hk
      split_ifs at hk with heq
      · obtain rfl := Option.some.inj hk
        rw [heq]
        rfl
      · exact h k l hk
  cases htail : ((steps.map unnamedStep).foldl (fun d e => d.set e.1.id e.2.2)
      (∅ : Dict String (List String))).get? d with
  | none => rfl
  | some l => exact hall ∅ (fun k l h => by cases h) d l htail

variable [PlanHash]

/-- An acceptable plan is compiled step by step. -/
theorem compile_acceptable (hconverts : Convertible catalog plan) (h : Acceptable plan) :
    ∃ workflow, compile catalog plan = .ok workflow ∧
      workflow.steps = plan.steps.map legacyStep := by
  have hnamed : (plan.steps.mapM fun step => do
        return (step, ← namedWorkflow catalog plan step) : Except PyError _) =
      .ok (plan.steps.map unnamedStep) := by
    refine Except.mapM_eq_map fun step hstep => ?_
    obtain ⟨hspec, hnamed, -⟩ := PlanStep.spec_of_valid (h.steps step hstep)
    unfold namedWorkflow
    rw [hspec]
    dsimp only
    rw [if_pos hnamed]
    rfl
  -- No step names a workflow, so the dictionary of the workflows stays empty.
  have hworkflows (f : Dict String WorkflowDefinition → _ → Dict String WorkflowDefinition)
      (hf : ∀ d step, f d (unnamedStep step) = d) :
      (plan.steps.map unnamedStep).foldl f ∅ = ∅ := by
    generalize plan.steps = steps
    induction steps with
    | nil => rfl
    | cons step rest ih => rw [List.map_cons, List.foldl_cons, hf, ih]
  unfold compile
  refine ⟨_, Except.bind_eq_ok.mpr ⟨_, hnamed, Except.bind_eq_ok.mpr
    ⟨plan.steps.map fun step => [legacyStep step], ?_, rfl⟩⟩, ?_⟩
  · rw [hworkflows _ fun _ _ => rfl]
    refine Except.mapM_eq_map fun step hstep => ?_
    simp only [tails_unnamed, List.flatMap_singleton']
    exact legacyStep_of_valid (h.steps step hstep) (hconverts.steps step hstep)
  show (plan.steps.map fun step => [legacyStep step]).flatten = plan.steps.map legacyStep
  generalize plan.steps = steps
  induction steps with
  | nil => rfl
  | cons step rest ih => rw [List.map_cons, List.flatten_cons, ih, List.map_cons, List.singleton_append]

omit [PyLib] [PyText] [PlanHash] in
/-- The text of a number is not blank. -/
theorem isBlank_toString (n : ℤ) : isBlank (toString n) = false := by
  have hdigit (c : Char) (hc : c.isDigit = true) : isSpace c = false := by
    have hrange : 48 ≤ c.toNat ∧ c.toNat ≤ 57 := by
      simpa [Char.isDigit, UInt32.le_iff_toNat_le] using hc
    unfold isSpace
    simp
    omega
  have hnat (m : ℕ) : ∃ c ∈ m.repr.toList, isSpace c = false := by
    obtain ⟨c, hc⟩ := List.exists_mem_of_ne_nil _ (Nat.toDigits_ne_nil (n := m) (b := 10))
    refine ⟨c, by rwa [Nat.toList_repr], hdigit c ?_⟩
    exact Nat.isDigit_of_mem_toDigits (by decide) (by decide) hc
  have hall : ∃ c ∈ (toString n).toList, isSpace c = false := by
    rw [Int.toString_eq_repr, Int.repr_eq_if]
    split_ifs
    · exact hnat n.toNat
    · refine ⟨'-', ?_, by decide⟩
      rw [String.toList_append]
      exact List.mem_append_left _ (by decide)
  obtain ⟨c, hc, hspace⟩ := hall
  unfold isBlank
  rw [List.all_eq_false]
  exact ⟨c, hc, by simp [hspace]⟩

omit [PyLib] [PyText] [PlanHash] in
/-- Every capability has a workflow of the Framework. -/
theorem workflow_of_spec (h : step.spec? = some spec) :
    isBlank (frameworkWorkflowId step.capability spec) = false := by
  have hall : ∀ e ∈ defaultCapabilitySpecs.entries,
      isBlank (frameworkWorkflowId e.1 e.2) = false := by decide +kernel
  exact hall _ (mem_specs h)

omit [PyText] [PlanHash] in
/-- The task plan of an acceptable plan is valid unless its id is blank. -/
theorem validate_acceptable (h : Acceptable plan) {taskPlan : TaskPlan}
    (hnodes : taskPlan.nodes = plan.steps.map frameworkNode)
    (hversion : isBlank taskPlan.version = false) :
    taskPlan.validate = .ok () ↔ isBlank taskPlan.id = false := by
  have hids : taskPlan.nodes.map (·.id) = plan.steps.map (·.id) := by
    rw [hnodes, List.map_map]
    rfl
  have hsome : taskPlan.nodes.isEmpty = false := by
    rw [hnodes, List.isEmpty_map]
    simpa using h.nonempty
  have hdistinct : (taskPlan.nodes.map (·.id)).dedup.length = taskPlan.nodes.length := by
    have hnodup := h.nodup
    rw [← hids] at hnodup
    rw [hnodup.dedup, List.length_map]
  have hfine : taskPlan.nodes.findSome? (TaskPlan.nodeError (taskPlan.nodes.map (·.id))) = none := by
    rw [List.findSome?_eq_none_iff, hids, hnodes, List.forall_mem_map]
    intro step hstep
    have hvalid := h.steps step hstep
    obtain ⟨hspec, hnamed, -⟩ := PlanStep.spec_of_valid hvalid
    have hworkflow := workflow_of_spec hspec
    have hknown : (step.dependsOn.filter fun d => !(plan.steps.map (·.id)).contains d) = [] := by
      simpa [List.filter_eq_nil_iff] using hvalid.dependencies
    unfold TaskPlan.nodeError frameworkNode
    dsimp only
    rw [hworkflow, hknown]
    rfl
  have hgroups : (taskPlan.nodes.filterMap (·.group?)).dedup = [] := by
    have hnone : taskPlan.nodes.filterMap (·.group?) = [] := by
      rw [hnodes, List.filterMap_eq_nil_iff, List.forall_mem_map]
      exact fun _ _ => rfl
    rw [hnone, List.dedup_nil]
  obtain ⟨ordered, hordered⟩ : ∃ nodes, taskPlan.orderedNodes = .ok nodes := by
    have hsame : taskPlan.nodes.map (fun node => (node.id, node.dependsOn)) =
        plan.steps.map fun step => (step.id, step.dependsOn) := by
      rw [hnodes, List.map_map]
      rfl
    exact orderedNodes_of_acyclic hsame h.nodup
      (fun step hstep => (h.steps step hstep).dependencies) h.acyclic
  unfold TaskPlan.validate
  rw [hsome, hversion]
  cases hid : isBlank taskPlan.id with
  | true =>
    constructor
    · intro hvalid
      cases hvalid
    · intro hblank
      cases hblank
  | false =>
    simp only [Bool.or_self, Bool.false_eq_true, if_false, hdistinct, ne_eq, not_true_eq_false,
      hfine, hgroups, List.find?_nil, hordered]
    exact ⟨fun _ => trivial, fun _ => rfl⟩

/-- The task plan of an acceptable plan. -/
def acceptedTaskPlan (plan : WorkflowPlan) : TaskPlan where
  id := plan.compiledId
  version := toString plan.revision
  nodes := plan.steps.map frameworkNode

omit [PyText] [PlanHash] in
/-- An acceptable plan is compiled for the Framework unless its id is blank. -/
theorem compileTaskPlan_acceptable (h : Acceptable plan) (taskPlan : TaskPlan) :
    compileTaskPlan plan = .ok taskPlan ↔
      isBlank plan.compiledId = false ∧ taskPlan = acceptedTaskPlan plan := by
  have hnodes : plan.steps.mapM compileNode = .ok (plan.steps.map frameworkNode) :=
    Except.mapM_eq_map fun step hstep => frameworkNode_of_valid (h.steps step hstep)
  have hvalid : (acceptedTaskPlan plan).validate = .ok () ↔ isBlank plan.compiledId = false :=
    validate_acceptable h rfl (isBlank_toString plan.revision)
  have hcompile : compileTaskPlan plan =
      ((acceptedTaskPlan plan).validate >>= fun _ => .ok (acceptedTaskPlan plan)) := by
    unfold compileTaskPlan
    rw [hnodes]
    rfl
  rw [hcompile, Except.bind_eq_ok, ← hvalid]
  constructor
  · rintro ⟨_, hok, heq⟩
    exact ⟨hok, (Except.ok.inj heq).symm⟩
  · rintro ⟨hok, rfl⟩
    exact ⟨(), hok, rfl⟩

/-! ## Step by step -/

omit [PyText] [PlanHash] in
/-- The capabilities that transfer files, in the terms of both sides. -/
theorem transfer_of_valid (h : step.Valid plan) :
    (step.capabilitySpec.action = "upload" ↔ step.capability = "file.upload") ∧
      (step.capabilitySpec.action = "download" ↔ step.capability = "file.download") ∧
      (frameworkWorkflowId step.capability step.capabilitySpec = "file.transfer" ↔
        step.capability = "file.upload" ∨ step.capability = "file.download") := by
  have hall : ∀ e ∈ defaultCapabilitySpecs.entries,
      (e.2.action = "upload" ↔ e.1 = "file.upload") ∧
        (e.2.action = "download" ↔ e.1 = "file.download") ∧
        (frameworkWorkflowId e.1 e.2 = "file.transfer" ↔
          e.1 = "file.upload" ∨ e.1 = "file.download") := by decide +kernel
  exact hall _ (mem_specs (PlanStep.spec_of_valid h).1)

omit [PlanHash] in
/-- The attempts are the same when the step asks for one. -/
theorem attempts_iff (h : step.Valid plan) :
    (legacyStep step).maxAttempts = nodeMaxAttempts (frameworkNode step) ↔
      intOr (step.retryPolicy.get? "max_attempts") 1 = .ok 1 := by
  have hnode : nodeMaxAttempts (frameworkNode step) = .ok 1 := rfl
  have hlegacy : (legacyStep step).maxAttempts =
      (intOr (step.retryPolicy.get? "max_attempts") 1 >>= fun n => .ok (max 1 n.toNat)) := rfl
  rw [hnode, hlegacy]
  cases hlimit : step.retryPolicy.get? "max_attempts" with
  | none => exact ⟨fun _ => rfl, fun _ => rfl⟩
  | some v =>
    have hretry := h.retry
    have hv : step.retryLimit? = some v := by
      unfold PlanStep.retryLimit?
      rw [hlimit]
    rw [hv] at hretry
    cases hn : intOr (some v) 1 with
    | error e => exact ⟨fun heq => (by cases heq), fun heq => (by cases heq)⟩
    | ok n =>
      have hbounds := hretry n hn
      show Except.ok (max 1 n.toNat) = .ok 1 ↔ _
      rw [Except.ok.injEq, Except.ok.injEq]
      omega

omit [PyLib] [PyText] [PlanHash] in
/-- The one thing that an upload asks for besides its own parameters. -/
theorem overwrites_upload (params : Dict String Value) :
    overwrites params = overwrites ((params.set "direction" (.str "upload")).setDefault
      "overwrite" (.bool true)) ↔ params.contains "overwrite" = true := by
  have hget : (params.set "direction" (.str "upload")).get? "overwrite" =
      params.get? "overwrite" := Dict.get?_set_of_ne params (by decide) _
  have hcontains : (params.set "direction" (.str "upload")).contains "overwrite" =
      params.contains "overwrite" := congrArg Option.isSome hget
  unfold Dict.setDefault overwrites
  rw [hcontains]
  by_cases h : params.contains "overwrite" = true
  · simp [h, hget]
  · have hnone : params.get? "overwrite" = none := by
      simpa [Dict.contains] using h
    simp [h, hnone, Value.truthy]

omit [PlanHash] in
/-- The parameters are the same unless a transfer reads them differently. -/
theorem sameParameters_iff (h : step.Valid plan) :
    SameParameters (legacyStep step) (frameworkNode step) ↔
      (step.capability = "file.upload" → step.params.contains "overwrite" = true) ∧
        (step.capability = "file.download" →
          PyLib.casefold (Value.strOr (step.params.get? "direction") "download") =
            PyLib.casefold "download") := by
  obtain ⟨hup, hdown, hfile⟩ := transfer_of_valid h
  have hnode : (frameworkNode step).workflowId = "file.transfer" ↔
      step.capability = "file.upload" ∨ step.capability = "file.download" := hfile
  have hlegacy : (legacyStep step).transfer? =
      if step.capability = "file.upload" then
        some (PyLib.casefold "upload", overwrites step.params)
      else if step.capability = "file.download" then
        some (PyLib.casefold (Value.strOr (step.params.get? "direction") "download"),
          overwrites step.params)
      else none := by
    show (if step.capabilitySpec.action = "upload" then _ else
      if step.capabilitySpec.action = "download" then _ else _) = _
    simp only [hup, hdown]
    rfl
  by_cases hupload : step.capability = "file.upload"
  · have hdownload : step.capability ≠ "file.download" := by
      rw [hupload]
      decide
    have hmapping : (frameworkNode step).inputMapping =
        (step.params.set "direction" (.str "upload")).setDefault "overwrite" (.bool true) :=
      if_pos hupload
    have hdirection : (frameworkNode step).inputMapping.get? "direction" = some (.str "upload") := by
      rw [hmapping, Dict.get?_setDefault_of_ne _ (by decide), Dict.get?_set_self]
    have htransfer : nodeTransfer? (frameworkNode step) =
        some (PyLib.casefold "upload", overwrites (frameworkNode step).inputMapping) := by
      unfold nodeTransfer?
      rw [if_pos (hnode.mpr (.inl hupload)), hdirection]
      have hstrip : strip "upload" = "upload" := by decide
      show some (PyLib.casefold (strip "upload"), _) = _
      rw [hstrip]
    rw [if_pos hupload] at hlegacy
    constructor
    · intro hsame
      have heq := hsame.transfer
      rw [hlegacy, htransfer] at heq
      have heq := congrArg Prod.snd (Option.some.inj heq)
      rw [hmapping] at heq
      exact ⟨fun _ => (overwrites_upload step.params).mp heq, fun h => absurd h hdownload⟩
    · rintro ⟨hcontains, -⟩
      have heq := (overwrites_upload step.params).mpr (hcontains hupload)
      rw [← hmapping] at heq
      constructor
      · rw [hlegacy, htransfer, heq]
      · intro key hkey
        obtain ⟨hne, hne'⟩ := hkey (by rw [hlegacy]; rfl)
        rw [hmapping, Dict.get?_setDefault_of_ne _ hne', Dict.get?_set_of_ne _ hne]
        rfl
  · rw [if_neg hupload] at hlegacy
    by_cases hdownload : step.capability = "file.download"
    · have hmapping : (frameworkNode step).inputMapping =
          step.params.set "direction" (.str "download") :=
        (if_neg hupload).trans (if_pos hdownload)
      have hoverwrites : overwrites (frameworkNode step).inputMapping = overwrites step.params := by
        unfold overwrites
        rw [hmapping, Dict.get?_set_of_ne _ (by decide)]
      have htransfer : nodeTransfer? (frameworkNode step) =
          some (PyLib.casefold "download", overwrites step.params) := by
        unfold nodeTransfer?
        rw [if_pos (hnode.mpr (.inr hdownload)), hoverwrites, hmapping, Dict.get?_set_self]
        have hstrip : strip "download" = "download" := by decide
        show some (PyLib.casefold (strip "download"), _) = _
        rw [hstrip]
      rw [if_pos hdownload] at hlegacy
      constructor
      · intro hsame
        have heq := hsame.transfer
        rw [hlegacy, htransfer] at heq
        exact ⟨fun h => absurd h hupload, fun _ => congrArg Prod.fst (Option.some.inj heq)⟩
      · rintro ⟨-, heq⟩
        constructor
        · rw [hlegacy, htransfer, heq hdownload]
        · intro key hkey
          obtain ⟨hne, -⟩ := hkey (by rw [hlegacy]; rfl)
          rw [hmapping, Dict.get?_set_of_ne _ hne]
          rfl
    · have hmapping : (frameworkNode step).inputMapping = step.params :=
        (if_neg hupload).trans (if_neg hdownload)
      have htransfer : nodeTransfer? (frameworkNode step) = none := by
        unfold nodeTransfer?
        rw [if_neg]
        intro hfile
        rcases hnode.mp hfile with h | h
        · exact hupload h
        · exact hdownload h
      rw [if_neg hdownload] at hlegacy
      simp only [hupload, hdownload, false_implies, and_self, iff_true]
      constructor
      · rw [hlegacy, htransfer]
      · intro key _
        rw [hmapping]
        rfl

omit [PlanHash] in
/-- The compilations of an acceptable plan agree when every step runs alike. -/
theorem compilationsAgree_iff (h : Acceptable plan) {workflow : WorkflowDefinition}
    (hsteps : workflow.steps = plan.steps.map legacyStep) :
    CompilationsAgree workflow (acceptedTaskPlan plan) ↔ ∀ step ∈ plan.steps, step.RunsAlike := by
  have hparameters : List.Forall₂ SameParameters workflow.steps (acceptedTaskPlan plan).nodes ↔
      ∀ step ∈ plan.steps, SameParameters (legacyStep step) (frameworkNode step) := by
    rw [hsteps]
    show List.Forall₂ _ _ (plan.steps.map frameworkNode) ↔ _
    rw [List.forall₂_map_left_iff, List.forall₂_map_right_iff, List.forall₂_same]
  have hattempts : List.Forall₂ (fun step node => step.maxAttempts = nodeMaxAttempts node)
        workflow.steps (acceptedTaskPlan plan).nodes ↔
      ∀ step ∈ plan.steps, (legacyStep step).maxAttempts = nodeMaxAttempts (frameworkNode step) := by
    rw [hsteps]
    show List.Forall₂ _ _ (plan.steps.map frameworkNode) ↔ _
    rw [List.forall₂_map_left_iff, List.forall₂_map_right_iff, List.forall₂_same]
  constructor
  · intro hagree step hstep
    have hvalid := h.steps step hstep
    obtain ⟨hupload, hdownload⟩ :=
      (sameParameters_iff hvalid).mp (hparameters.mp hagree.parameters step hstep)
    exact ⟨(attempts_iff hvalid).mp (hattempts.mp hagree.attempts step hstep), hupload, hdownload⟩
  · intro hall
    constructor
    · rw [hsteps]
      show _ = (plan.steps.map frameworkNode).map _
      rw [List.map_map, List.map_map]
      rfl
    · rw [hsteps]
      show _ = (plan.steps.map frameworkNode).map _
      rw [List.map_map, List.map_map]
      rfl
    · refine hparameters.mpr fun step hstep => ?_
      have halike := hall step hstep
      exact (sameParameters_iff (h.steps step hstep)).mpr ⟨halike.upload, halike.download⟩
    · refine hattempts.mpr fun step hstep => ?_
      exact (attempts_iff (h.steps step hstep)).mpr (hall step hstep).attempts

omit [PyText] [PlanHash] in
theorem unnamed_of_acceptable (h : Acceptable plan) : Unnamed plan := by
  intro step hstep spec hspec
  obtain ⟨spec', hspec', hnamed, -⟩ := (h.steps step hstep).capability
  obtain rfl := Option.some.inj (hspec'.symm.trans hspec)
  exact hnamed

/-- `validate` returns and the compilations agree where nothing that is computed from the plan
raises and, if it has no errors, its id is not blank and its steps run alike. -/
theorem planHolds_iff (catalog : WorkflowCatalog) (plan : WorkflowPlan) :
    PlanHolds catalog plan ↔ Convertible catalog plan ∧
      (Acceptable plan → isBlank plan.compiledId = false ∧ ∀ step ∈ plan.steps, step.RunsAlike) := by
  constructor
  · intro h
    obtain ⟨result, hresult⟩ := h.returns
    have hvalidate := hresult
    unfold validate at hvalidate
    obtain ⟨found, hfound, hvalidate⟩ := Except.bind_eq_ok.mp hvalidate
    have hconverts := findings_returns_iff.mp ⟨found, hfound⟩
    refine ⟨hconverts, fun hacceptable => ?_⟩
    have herrors := (findings_nil_iff hfound).mpr hacceptable
    rw [if_neg (not_not.mpr herrors)] at hvalidate
    obtain ⟨workflow, hworkflow, hvalidate⟩ := Except.bind_eq_ok.mp hvalidate
    obtain ⟨taskPlan, htask, hvalidate⟩ := Except.bind_eq_ok.mp hvalidate
    obtain rfl := Except.ok.inj hvalidate
    have hid := ((compileTaskPlan_acceptable hacceptable taskPlan).mp htask).1
    have hstatus : (if found.required.isEmpty then PlanStatus.validated
        else .requiresConfirmation) ≠ .rejected := by
      split_ifs <;> decide
    obtain ⟨workflow', taskPlan', hworkflow', htask', hagree⟩ :=
      h.agree _ hresult hstatus (unnamed_of_acceptable hacceptable)
    obtain ⟨compiled, hcompiled, hsteps⟩ := compile_acceptable hconverts hacceptable
    obtain rfl := Except.ok.inj (hcompiled.symm.trans hworkflow')
    obtain ⟨-, rfl⟩ := (compileTaskPlan_acceptable hacceptable taskPlan').mp htask'
    exact ⟨hid, (compilationsAgree_iff hacceptable hsteps).mp hagree⟩
  · rintro ⟨hconverts, h⟩
    obtain ⟨found, hfound⟩ := findings_returns_iff.mpr hconverts
    by_cases hacceptable : Acceptable plan
    · obtain ⟨hid, halike⟩ := h hacceptable
      have herrors := (findings_nil_iff hfound).mpr hacceptable
      obtain ⟨workflow, hworkflow, hsteps⟩ := compile_acceptable hconverts hacceptable
      have htask := (compileTaskPlan_acceptable hacceptable _).mpr ⟨hid, rfl⟩
      constructor
      · unfold validate
        rw [hfound]
        dsimp only [bind, Except.bind]
        rw [if_neg (not_not.mpr herrors), hworkflow]
        dsimp only
        rw [htask]
        exact ⟨_, rfl⟩
      · intro _ _ _ _
        exact ⟨workflow, _, hworkflow, htask, (compilationsAgree_iff hacceptable hsteps).mpr halike⟩
    · -- The plan is rejected, so that nothing is compiled.
      have herrors : found.errors ≠ [] := fun hnil => hacceptable ((findings_nil_iff hfound).mp hnil)
      have hrejected : ∀ result, validate catalog plan = .ok result →
          result.status = .rejected := by
        intro result hresult
        unfold validate at hresult
        obtain ⟨found', hfound', hresult⟩ := Except.bind_eq_ok.mp hresult
        obtain rfl := Except.ok.inj (hfound.symm.trans hfound')
        rw [if_pos herrors] at hresult
        obtain rfl := Except.ok.inj hresult
        rfl
      constructor
      · unfold validate
        rw [hfound]
        dsimp only [bind, Except.bind]
        rw [if_pos herrors]
        exact ⟨_, rfl⟩
      · intro result hresult hstatus
        exact absurd (hrejected result hresult) hstatus

/-- A plan of one step with a budget. -/
def budgetPlan (budget : Dict String Value) : WorkflowPlan where
  planId := "plan-1"
  objective := "inspect"
  target := ⟨[("device_id", "d1")]⟩
  steps := [{
    id := "a"
    capability := "terminal.command"
    params := ⟨[("command", .str "display version")]⟩ }]
  budget := budget

end

/-- A budget that is no number makes `validate` raise. -/
theorem not_planHolds_budgetPlan :
    let := PyLib.decimal
    let := PyText.ascii
    let : PlanHash := ⟨fun _ => ""⟩
    ¬ PlanHolds emptyCatalog (budgetPlan ⟨[("max_steps", .str "many")]⟩) := by
  intro _ _ _ h
  obtain ⟨result, hresult⟩ := h.returns
  have hraises : (validate emptyCatalog (budgetPlan ⟨[("max_steps", .str "many")]⟩)).isOk = false := by
    decide +kernel
  rw [hresult] at hraises
  cases hraises

end DeviceShell.Tasking
