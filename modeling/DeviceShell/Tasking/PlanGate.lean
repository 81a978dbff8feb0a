import DeviceShell.Activity.TerminalRequest
import DeviceShell.Framework.TaskInputs
import DeviceShell.Lib.Fallible
import DeviceShell.Tasking.Plans

/-!
# The risk gate of plans

Which command lines an accepted plan may send, compared with what the compiler classifies. The
compiler joins the commands of a step into one text and looks at the text's first word, so a line
behind the first one escapes it; and the parameters that a step is executed with may name other
texts than the one that is classified. `gateCovers_iff` says for which plans no line escapes.
-/

namespace DeviceShell.Tasking

open Framework (TaskRun resolveNodeInputs nodeTarget)
open Activity (activityTexts)

/-- The capabilities whose steps send the command lines of their parameters. -/
def terminalCapabilities : List String :=
  ["terminal.command", "terminal.batch", "device.version_check"]

section

variable [PyLib]

/-- The lines that a step may send when its node is executed in a task with the given outputs of
other nodes. `secret` gives the secrets that references stand for. -/
def PlanStep.lines [PyText] (secret : String → String) (task : TaskRun)
    (outputs : Dict String Value) (step : PlanStep) : Except PyError (List String) := do
  let node ← compileNode step
  let resolved ← resolveNodeInputs node task.inputs outputs task.context
  let (_, _, inputs) ← nodeTarget task resolved
  return (activityTexts secret node.workflowId inputs).flatMap splitlines

variable [PyText]

/-- A step may send a line, in some task. -/
def PlanStep.Sends (step : PlanStep) (line : String) : Prop :=
  ∃ secret task outputs lines, step.lines secret task outputs = .ok lines ∧ line ∈ lines

/-- A plan that needs no confirmation sends only lines that are below medium risk each on its
own. -/
def GateCovers [PlanHash] (catalog : WorkflowCatalog) (plan : WorkflowPlan) : Prop :=
  ∀ result, validate catalog plan = .ok result → result.status = .validated →
    ∀ step ∈ plan.steps, step.capability ∈ terminalCapabilities → ∀ line, step.Sends line →
      (classifyCommandRisk line).value < RiskLevel.medium.value

/-- No check of the plan fails, no step needs confirmation, and the plan compiles. -/
def Passes [PlanHash] (catalog : WorkflowCatalog) (plan : WorkflowPlan) : Prop :=
  (∃ found, findings catalog plan = .ok found ∧ found.errors = [] ∧ found.required = []) ∧
    (∃ workflow, compile catalog plan = .ok workflow) ∧
      ∃ taskPlan, compileTaskPlan plan = .ok taskPlan

/-- A line begins harmlessly, and its words are a line of the text that is classified for the step,
or else no high-risk pattern is found in it. -/
def PlanStep.Screens (step : PlanStep) (line : String) : Prop :=
  beginsHarmlessly line = true ∧
    ((∃ command, step.command = .ok command ∧ hasLine command line) ∨ highRisk line = false)

/-- The plans that need no confirmation. -/
theorem passes_iff [PlanHash] {catalog : WorkflowCatalog} {plan : WorkflowPlan} :
    Passes catalog plan ↔
      ∃ result, validate catalog plan = .ok result ∧ result.status = .validated := by
  unfold validate
  constructor
  · rintro ⟨⟨found, hfound, herrors, hrequired⟩, ⟨workflow, hworkflow⟩, taskPlan, htask⟩
    have hpass : ¬ found.errors ≠ [] := fun h => h herrors
    let result : PlanValidationResult := {
      status := if found.required.isEmpty then .validated else .requiresConfirmation
      plan := plan
      planHash := plan.contentHash
      workflow := some workflow
      taskPlan := some taskPlan
      warnings := found.warnings
      requiredActions := found.required }
    refine ⟨result, Except.bind_eq_ok.2 ⟨found, hfound, ?_⟩, ?_⟩
    · rw [if_neg hpass]
      exact Except.bind_eq_ok.2 ⟨workflow, hworkflow, Except.bind_eq_ok.2 ⟨taskPlan, htask, rfl⟩⟩
    · show (if found.required.isEmpty then PlanStatus.validated else _) = _
      rw [hrequired]
      rfl
  · rintro ⟨result, hresult, hstatus⟩
    obtain ⟨found, hfound, hresult⟩ := Except.bind_eq_ok.1 hresult
    split at hresult
    · obtain rfl := Except.ok.inj hresult
      cases hstatus
    · rename_i herrors
      obtain ⟨workflow, hworkflow, hresult⟩ := Except.bind_eq_ok.1 hresult
      obtain ⟨taskPlan, htask, hresult⟩ := Except.bind_eq_ok.1 hresult
      obtain rfl := Except.ok.inj hresult
      have hrequired : found.required = [] := by
        by_contra hne
        have hnonempty : found.required.isEmpty = false := by simpa using hne
        change (if found.required.isEmpty then PlanStatus.validated else _) = _ at hstatus
        rw [hnonempty] at hstatus
        cases hstatus
      exact ⟨⟨found, hfound, not_not.1 herrors, hrequired⟩, ⟨workflow, hworkflow⟩, taskPlan, htask⟩

omit [PyLib] [PyText] in
/-- A step that adds neither an error nor an action to confirm is below medium risk. -/
theorem lt_of_confirmStep {step : PlanStep} {risk : RiskLevel}
    (herrors : (confirmStep step risk).errors = [])
    (hrequired : (confirmStep step risk).required = []) :
    risk.value < RiskLevel.medium.value := by
  unfold confirmStep at herrors hrequired
  dsimp only at herrors hrequired
  split at herrors
  · cases herrors
  · rename_i hupgrade
    rw [if_neg hupgrade] at hrequired
    split at hrequired
    · cases hrequired
    · rename_i hconfirm
      push Not at hconfirm
      exact hconfirm.2

/-- The steps of a plan without errors that needs no confirmation are below medium risk. -/
theorem risk_of_validateSteps {catalog : WorkflowCatalog} {plan : WorkflowPlan} {ids : List String}
    {steps : List PlanStep} {found : Findings}
    (h : validateSteps catalog plan ids steps = .ok found) (herrors : found.errors = [])
    (hrequired : found.required = []) :
    ∀ step ∈ steps, ∃ risk, step.risk = .ok risk ∧ risk.value < RiskLevel.medium.value := by
  induction steps generalizing ids found with
  | nil => simp
  | cons first rest ih =>
    unfold validateSteps at h
    obtain ⟨errors, -, h⟩ := Except.bind_eq_ok.1 h
    obtain ⟨command, -, h⟩ := Except.bind_eq_ok.1 h
    obtain ⟨risk, hrisk, h⟩ := Except.bind_eq_ok.1 h
    obtain ⟨later, hlater, h⟩ := Except.bind_eq_ok.1 h
    obtain rfl := Except.ok.inj h
    simp only [Findings.append, List.append_eq_nil_iff] at herrors hrequired
    obtain ⟨⟨-, herrors⟩, herrors'⟩ := herrors
    obtain ⟨⟨-, hrequired⟩, hrequired'⟩ := hrequired
    intro step hstep
    rcases List.mem_cons.1 hstep with rfl | hstep
    · exact ⟨risk, hrisk, lt_of_confirmStep herrors hrequired⟩
    · exact ih hlater herrors' hrequired' step hstep

omit [PyText] in
/-- A terminal capability has no risk of its own. -/
theorem risk_eq_of_terminal [PyText] {step : PlanStep}
    (hterminal : step.capability ∈ terminalCapabilities) :
    step.risk = do return classify (← step.command) := by
  unfold PlanStep.risk PlanStep.spec?
  simp only [terminalCapabilities, List.mem_cons, List.not_mem_nil, or_false] at hterminal
  rcases hterminal with hcap | hcap | hcap <;> rw [hcap] <;> rfl

variable [LawfulFold]

/-- No high-risk pattern is found in what is classified for a step of a plan that passes. -/
theorem highRisk_of_passes [PlanHash] {catalog : WorkflowCatalog} {plan : WorkflowPlan}
    (h : Passes catalog plan) {step : PlanStep} (hstep : step ∈ plan.steps)
    (hterminal : step.capability ∈ terminalCapabilities) {command : String}
    (hcommand : step.command = .ok command) : highRisk command = false := by
  obtain ⟨⟨found, hfound, herrors, hrequired⟩, -, -⟩ := h
  unfold findings at hfound
  obtain ⟨before, -, hfound⟩ := Except.bind_eq_ok.1 hfound
  obtain ⟨inSteps, hsteps, hfound⟩ := Except.bind_eq_ok.1 hfound
  obtain ⟨after, -, hfound⟩ := Except.bind_eq_ok.1 hfound
  obtain rfl := Except.ok.inj hfound
  have hinSteps : inSteps.errors = [] := by
    have h := (List.append_eq_nil_iff.1 herrors).1
    exact (List.append_eq_nil_iff.1 h).2
  obtain ⟨risk, hrisk, hlt⟩ := risk_of_validateSteps hsteps hinSteps hrequired step hstep
  rw [risk_eq_of_terminal hterminal, hcommand] at hrisk
  obtain rfl : classify command = risk := Except.ok.inj hrisk
  unfold classify at hlt
  split at hlt
  · rename_i hempty
    refine highRisk_of_blank ?_
    rw [hempty, normalizeCommand_eq]
    exact casefold_empty
  · exact (classifyCommandRisk_lt_iff.1 hlt).2

/-- No line of a plan escapes the gate exactly when the plan needs a confirmation or is rejected, or
else all its lines begin harmlessly and those that are not classified have no high-risk pattern. -/
theorem gateCovers_iff [PlanHash] (catalog : WorkflowCatalog) (plan : WorkflowPlan) :
    GateCovers catalog plan ↔ ¬ Passes catalog plan ∨
      ∀ step ∈ plan.steps, step.capability ∈ terminalCapabilities →
        ∀ line, step.Sends line → step.Screens line := by
  constructor
  · intro h
    by_cases hpasses : Passes catalog plan
    · right
      obtain ⟨result, hresult, hstatus⟩ := passes_iff.1 hpasses
      intro step hstep hterminal line hsends
      have hlt := h result hresult hstatus step hstep hterminal line hsends
      obtain ⟨hbegins, hrisk⟩ := classifyCommandRisk_lt_iff.1 hlt
      exact ⟨hbegins, .inr hrisk⟩
    · exact .inl hpasses
  · intro h result hresult hstatus step hstep hterminal line hsends
    have hpasses : Passes catalog plan := passes_iff.2 ⟨result, hresult, hstatus⟩
    rcases h with h | h
    · exact absurd hpasses h
    obtain ⟨hbegins, hclassified⟩ := h step hstep hterminal line hsends
    have hrisk : highRisk line = false := by
      rcases hclassified with ⟨command, hcommand, hline⟩ | hrisk
      · have hquiet := highRisk_of_passes hpasses hstep hterminal hcommand
        -- A pattern in the line would be one in the text that was classified.
        by_contra hfound
        rw [Bool.not_eq_false] at hfound
        rw [highRisk_of_line hline hfound] at hquiet
        cases hquiet
      · exact hrisk
    exact classifyCommandRisk_lt_iff.2 ⟨hbegins, hrisk⟩

end

/-! ## Batches -/

/-- A plan with a batch of commands. -/
def batchPlan (commands : List String) : WorkflowPlan where
  planId := "plan-1"
  objective := "inspect"
  target := ⟨[("device_id", "d1")]⟩
  steps := [{
    id := "a"
    capability := "terminal.batch"
    params := ⟨[("commands", .list (commands.map .str))]⟩ }]

/-- A catalog without named workflows. -/
def emptyCatalog : WorkflowCatalog where
  normalizeParameters workflowId _ := .error (.workflowCatalog ("unknown workflow: " ++ workflowId))
  build workflowId _ _ := .error (.valueError ("unknown workflow: " ++ workflowId))

/-- Case folding of ASCII texts works character by character. -/
theorem lawfulFold_decimal : @LawfulFold PyLib.decimal PyText.ascii :=
  let := PyLib.decimal
  let := PyText.ascii
  { casefold_append := fun s t => by
      show String.ofList ((s ++ t).toList.map Char.toLower) = _
      rw [String.toList_append, List.map_append, String.ofList_append]
      rfl
    casefold_space := by decide
    isAlnum_space := by decide }

/-- `gateCovers_iff` for a batch of one command. -/
theorem gateCovers_batchPlan :
    let := PyLib.decimal
    let := PyText.ascii
    let : PlanHash := ⟨fun _ => ""⟩
    GateCovers emptyCatalog (batchPlan ["display version"]) ↔
      ¬ Passes emptyCatalog (batchPlan ["display version"]) ∨
        ∀ step ∈ (batchPlan ["display version"]).steps, step.capability ∈ terminalCapabilities →
          ∀ line, step.Sends line → step.Screens line :=
  let := PyLib.decimal
  let := PyText.ascii
  let : PlanHash := ⟨fun _ => ""⟩
  let := lawfulFold_decimal
  gateCovers_iff emptyCatalog (batchPlan ["display version"])

/-- The second command of a batch escapes: the text that is classified begins with the first one. -/
theorem not_gateCovers_batchPlan :
    let := PyLib.decimal
    let := PyText.ascii
    let : PlanHash := ⟨fun _ => ""⟩
    ¬ GateCovers emptyCatalog (batchPlan ["display version", "system-view"]) := by
  intro _ _ _ h
  have hstatus : (validate emptyCatalog (batchPlan ["display version", "system-view"])).toOption.any
      (fun result => result.status = .validated) = true := by decide +kernel
  cases hresult : validate emptyCatalog (batchPlan ["display version", "system-view"]) with
  | error e =>
    rw [hresult] at hstatus
    cases hstatus
  | ok result =>
    rw [hresult] at hstatus
    have hvalidated : result.status = .validated := of_decide_eq_true hstatus
    let step : PlanStep := {
      id := "a"
      capability := "terminal.batch"
      params := ⟨[("commands", .list [.str "display version", .str "system-view"])]⟩ }
    let task : TaskRun := { id := "t", planId := "plan-1", deviceId := "d1" }
    have hlines : (step.lines id task ∅).toOption = some ["display version", "system-view"] := by
      decide +kernel
    cases hsent : step.lines id task ∅ with
    | error e =>
      rw [hsent] at hlines
      cases hlines
    | ok lines =>
      rw [hsent] at hlines
      obtain rfl := Option.some.inj hlines
      have hline : "system-view" ∈ ["display version", "system-view"] := by decide
      have hstep : step ∈ (batchPlan ["display version", "system-view"]).steps :=
        List.mem_singleton_self step
      have hlt := h result hresult hvalidated step hstep (by decide) "system-view"
        ⟨id, task, ∅, _, hsent, hline⟩
      exact absurd hlt (by decide +kernel)

end DeviceShell.Tasking
