import DeviceShell.Lib.Fallible
import DeviceShell.Lib.Operators

/-!
# Flows of commands

`parse_flow` of `application/ai/gateway/flow_engine.py`: a flow is a list of steps, each a command
with the steps it depends on, a rule for trying it again and a condition to wait for. Errors carry a
code and a text. The plans that it returns are exactly the well-formed ones, and `skill_flow`, which
writes such a plan out to have it read again, loses nothing (`parseFlow_toValue_iff`).
-/

namespace DeviceShell.Gateway

/-- What `parse_flow` raises. -/
inductive FlowError where
  /-- `FlowPlanError`. -/
  | plan (code message : String)
  | python (error : PyError)
deriving DecidableEq

/-- The dictionary that `_validate_retry` makes. -/
structure RetryRule where
  max : ℤ
  intervalMs : ℤ
deriving DecidableEq

/-- The dictionary that `_validate_wait_condition` makes. -/
structure WaitCondition where
  command : String
  expected : String
  intervalMs : ℤ
  maxAttempts : ℤ
deriving DecidableEq

/-- `FlowStep`. -/
structure FlowStep where
  id : String
  command : String
  dependsOn : List String := []
  retry : Option RetryRule := none
  waitCondition : Option WaitCondition := none
  timeoutSeconds : ℤ := 30
deriving DecidableEq

/-- `FlowPlan`. -/
structure FlowPlan where
  steps : List FlowStep
deriving DecidableEq

def maxFlowSteps : ℕ := 20

def maxRetries : ℤ := 5

def maxWaitAttempts : ℤ := 60

/-! ## Reading a flow -/

section

variable [PyLib]

/-- A failed check. -/
def invalidFlow {α : Type} (message : String) (code : String := "invalid_flow") :
    Except FlowError α := .error (.plan code message)

/-- `_bounded_int`. -/
def boundedInt (value : Value) (minimum maximum : ℤ) (label : String) : Except FlowError ℤ :=
  match value.toInt with
  | .error (.typeError _) => invalidFlow (label ++ " 必须是整数。")
  | .error (.valueError _) => invalidFlow (label ++ " 必须是整数。")
  | .error e => .error (.python e)
  | .ok number =>
    if number < minimum ∨ maximum < number then
      invalidFlow (label ++ " 必须在 " ++ toString minimum ++ " 到 " ++ toString maximum ++ " 之间。")
    else .ok number

/-- `str(raw.get(key) or "").strip()`. -/
def textOf (raw : Dict String Value) (key : String) : String := strip (Value.strOr (raw.get? key) "")

/-- `_validate_retry`. -/
def validateRetry (raw : Value) (stepId : String) : Except FlowError RetryRule := do
  let some raw := raw.asDict? | invalidFlow ("步骤 " ++ stepId ++ " retry 必须是对象。")
  if Value.strOr (raw.get? "on_status") "" ≠ "failed" then
    invalidFlow ("步骤 " ++ stepId ++ " retry.on_status 目前只支持 failed。")
  else
    let max ← boundedInt ((raw.get? "max").getD (.int 0)) 0 maxRetries
      ("步骤 " ++ stepId ++ " retry.max")
    let intervalMs ← boundedInt ((raw.get? "interval_ms").getD (.int 1000)) 1 60000
      ("步骤 " ++ stepId ++ " retry.interval_ms")
    return { max := max, intervalMs := intervalMs }

/-- `_validate_wait_condition`. -/
def validateWaitCondition (raw : Value) (stepId : String) : Except FlowError WaitCondition := do
  let some raw := raw.asDict? | invalidFlow ("步骤 " ++ stepId ++ " wait_condition 必须是对象。")
  if Value.strOr (raw.get? "type") "" ≠ "command_output_contains" then
    invalidFlow ("步骤 " ++ stepId ++
      " wait_condition 类型目前只支持 command_output_contains。")
  else if textOf raw "command" = "" ∨ textOf raw "expected" = "" then
    invalidFlow ("步骤 " ++ stepId ++ " wait_condition 需要 command 和 expected。")
  else
    let intervalMs ← boundedInt ((raw.get? "interval_ms").getD (.int 2000)) 1 60000
      ("步骤 " ++ stepId ++ " wait_condition.interval_ms")
    let maxAttempts ← boundedInt ((raw.get? "max_attempts").getD (.int 15)) 1 maxWaitAttempts
      ("步骤 " ++ stepId ++ " wait_condition.max_attempts")
    return {
      command := textOf raw "command"
      expected := textOf raw "expected"
      intervalMs := intervalMs
      maxAttempts := maxAttempts }

/-- `None` stays `None`, and everything else is validated. -/
def validateSome {α : Type} (validate : Value → String → Except FlowError α)
    (raw : Option Value) (stepId : String) : Except FlowError (Option α) :=
  match raw with
  | none => .ok none
  | some .none => .ok none
  | some raw => (validate raw stepId).map some

/-- The texts of `raw.get("depends_on") or []`. -/
def readDependsOn (raw : Dict String Value) : Except FlowError (List String) :=
  match (((raw.get? "depends_on").filter Value.truthy).getD (.list [])).iter with
  | .ok items => .ok (items.filterMap fun dep => dep.asStr?.map strip)
  | .error e => .error (.python e)

/-- One pass of the loop of `parse_flow`; `ids` are the ids before. -/
def parseStep (ids : List String) (raw : Value) : Except FlowError FlowStep := do
  let some raw := raw.asDict? | invalidFlow "Flow 步骤必须是对象。"
  let stepId := textOf raw "id"
  if stepId = "" then invalidFlow "Flow 步骤缺少 id。"
  else if stepId ∈ ids then invalidFlow ("Flow 步骤 id 重复: " ++ stepId) "duplicate_step"
  else if textOf raw "command" = "" then invalidFlow ("步骤 " ++ stepId ++ " 缺少 command。")
  else
    let dependsOn ← readDependsOn raw
    let retry ← validateSome validateRetry (raw.get? "retry") stepId
    let waitCondition ← validateSome validateWaitCondition (raw.get? "wait_condition") stepId
    let timeoutSeconds ← boundedInt ((raw.get? "timeout_seconds").getD (.int 30)) 1 300
      ("步骤 " ++ stepId ++ " timeout_seconds")
    return {
      id := stepId
      command := textOf raw "command"
      dependsOn := dependsOn
      retry := retry
      waitCondition := waitCondition
      timeoutSeconds := timeoutSeconds }

/-- The loop over the steps. -/
def parseSteps : List String → List Value → Except FlowError (List FlowStep)
  | _, [] => return []
  | ids, raw :: rest => do
    let step ← parseStep ids raw
    let steps ← parseSteps (ids ++ [step.id]) rest
    return step :: steps

/-- The first dependency that names no step. -/
def unknownDependency? (steps : List FlowStep) : Option (String × String) :=
  (steps.flatMap fun step => step.dependsOn.map fun dep => (step.id, dep)).find?
    fun edge => edge.2 ∉ steps.map FlowStep.id

/-- `parse_flow`. -/
def parseFlow (data : Value) : Except FlowError FlowPlan := do
  let some data := data.asDict? | invalidFlow "Flow 必须是对象。"
  let some (.list rawSteps) := data.get? "steps" | invalidFlow "Flow 至少需要一个步骤。"
  if rawSteps = [] then invalidFlow "Flow 至少需要一个步骤。"
  else if maxFlowSteps < rawSteps.length then
    invalidFlow ("Flow 最多允许 " ++ toString maxFlowSteps ++ " 个步骤。") "too_many_steps"
  else
    let steps ← parseSteps [] rawSteps
    match unknownDependency? steps with
    | some (stepId, dep) =>
      invalidFlow ("步骤 " ++ stepId ++ " 依赖未知步骤: " ++ dep) "unknown_dependency"
    | none => return { steps := steps }

end

/-! ## Writing a flow -/

/-- The dictionary of a rule. -/
def RetryRule.toValue (rule : RetryRule) : Value :=
  .dict [("max", .int rule.max), ("interval_ms", .int rule.intervalMs),
    ("on_status", .str "failed")]

/-- The dictionary of a condition. -/
def WaitCondition.toValue (condition : WaitCondition) : Value :=
  .dict [("type", .str "command_output_contains"), ("command", .str condition.command),
    ("expected", .str condition.expected), ("interval_ms", .int condition.intervalMs),
    ("max_attempts", .int condition.maxAttempts)]

/-- The dictionary that `skill_flow` makes of a step. -/
def FlowStep.toValue (step : FlowStep) : Value :=
  .dict [("id", .str step.id), ("command", .str step.command),
    ("depends_on", .list (step.dependsOn.map .str)),
    ("retry", step.retry.elim .none RetryRule.toValue),
    ("wait_condition", step.waitCondition.elim .none WaitCondition.toValue),
    ("timeout_seconds", .int step.timeoutSeconds)]

/-- The dictionary that `skill_flow` makes of a plan. -/
def FlowPlan.toValue (plan : FlowPlan) : Value :=
  .dict [("steps", .list (plan.steps.map FlowStep.toValue))]

/-! ## The plans that are read -/

/-- A text without blanks around it. -/
def Stripped (text : String) : Prop := strip text = text

/-- What is checked of a rule. -/
structure RetryRule.WellFormed (rule : RetryRule) : Prop where
  max : 0 ≤ rule.max ∧ rule.max ≤ maxRetries
  intervalMs : 1 ≤ rule.intervalMs ∧ rule.intervalMs ≤ 60000

/-- What is checked of a condition. -/
structure WaitCondition.WellFormed (condition : WaitCondition) : Prop where
  command : Stripped condition.command ∧ condition.command ≠ ""
  expected : Stripped condition.expected ∧ condition.expected ≠ ""
  intervalMs : 1 ≤ condition.intervalMs ∧ condition.intervalMs ≤ 60000
  maxAttempts : 1 ≤ condition.maxAttempts ∧ condition.maxAttempts ≤ maxWaitAttempts

/-- What is checked of a step. -/
structure FlowStep.WellFormed (step : FlowStep) : Prop where
  id : Stripped step.id ∧ step.id ≠ ""
  command : Stripped step.command ∧ step.command ≠ ""
  dependsOn : ∀ dep ∈ step.dependsOn, Stripped dep
  retry : ∀ rule, step.retry = some rule → rule.WellFormed
  waitCondition : ∀ condition, step.waitCondition = some condition → condition.WellFormed
  timeoutSeconds : 1 ≤ step.timeoutSeconds ∧ step.timeoutSeconds ≤ 300

/-- What is checked of a plan. -/
structure FlowPlan.WellFormed (plan : FlowPlan) : Prop where
  steps : ∀ step ∈ plan.steps, step.WellFormed
  nodup : (plan.steps.map FlowStep.id).Nodup
  known : ∀ step ∈ plan.steps, ∀ dep ∈ step.dependsOn, dep ∈ plan.steps.map FlowStep.id
  nonempty : plan.steps ≠ []
  length : plan.steps.length ≤ maxFlowSteps

section

variable [PyLib]

theorem boundedInt_ok {value : Value} {minimum maximum : ℤ} {label : String} {n : ℤ}
    (h : boundedInt value minimum maximum label = .ok n) : minimum ≤ n ∧ n ≤ maximum := by
  unfold boundedInt at h
  split at h
  · cases h
  · cases h
  · cases h
  · split at h
    · cases h
    · next hbounds =>
      obtain rfl := Except.ok.inj h
      omega

theorem boundedInt_int {minimum maximum n : ℤ} (h : minimum ≤ n ∧ n ≤ maximum) (label : String) :
    boundedInt (.int n) minimum maximum label = .ok n := by
  have hbounds : ¬ (n < minimum ∨ maximum < n) := by omega
  simp only [boundedInt, Value.toInt, if_neg hbounds]

theorem strOr_str (s : String) : Value.strOr (some (.str s)) "" = s := by
  by_cases hs : s = "" <;> simp [Value.strOr, Value.truthy, Value.pyStr, hs]

theorem stripped_textOf (raw : Dict String Value) (key : String) : Stripped (textOf raw key) :=
  strip_strip _

theorem validateRetry_ok {raw : Value} {stepId : String} {rule : RetryRule}
    (h : validateRetry raw stepId = .ok rule) : rule.WellFormed := by
  unfold validateRetry at h
  split at h
  · split at h
    · cases h
    · obtain ⟨max, hmax, h⟩ := Except.bind_eq_ok.1 h
      obtain ⟨intervalMs, hinterval, h⟩ := Except.bind_eq_ok.1 h
      obtain rfl := Except.ok.inj h
      exact ⟨boundedInt_ok hmax, boundedInt_ok hinterval⟩
  · cases h

theorem validateWaitCondition_ok {raw : Value} {stepId : String} {condition : WaitCondition}
    (h : validateWaitCondition raw stepId = .ok condition) : condition.WellFormed := by
  unfold validateWaitCondition at h
  split at h
  · next raw _ =>
    split at h
    · cases h
    · split at h
      · cases h
      · next htexts =>
        rw [not_or] at htexts
        obtain ⟨intervalMs, hinterval, h⟩ := Except.bind_eq_ok.1 h
        obtain ⟨maxAttempts, hmax, h⟩ := Except.bind_eq_ok.1 h
        obtain rfl := Except.ok.inj h
        exact
          { command := ⟨stripped_textOf raw "command", htexts.1⟩
            expected := ⟨stripped_textOf raw "expected", htexts.2⟩
            intervalMs := boundedInt_ok hinterval
            maxAttempts := boundedInt_ok hmax }
  · cases h

theorem validateRetry_toValue {rule : RetryRule} (h : rule.WellFormed) (stepId : String) :
    validateRetry rule.toValue stepId = .ok rule := by
  simp only [validateRetry, RetryRule.toValue, Value.asDict?, Dict.get?, Dict.lookup]
  simp [strOr_str, boundedInt_int h.max, boundedInt_int h.intervalMs, bind, Except.bind, pure,
    Except.pure]

theorem validateWaitCondition_toValue {condition : WaitCondition} (h : condition.WellFormed)
    (stepId : String) : validateWaitCondition condition.toValue stepId = .ok condition := by
  have hcommand : strip condition.command = condition.command := h.command.1
  have hexpected : strip condition.expected = condition.expected := h.expected.1
  simp only [validateWaitCondition, WaitCondition.toValue, Value.asDict?, Dict.get?, Dict.lookup,
    textOf]
  simp [strOr_str, hcommand, hexpected, h.command.2, h.expected.2, boundedInt_int h.intervalMs,
    boundedInt_int h.maxAttempts, bind, Except.bind, pure, Except.pure]

omit [PyLib] in
theorem validateSome_ok {α : Type} {validate : Value → String → Except FlowError α} {P : α → Prop}
    (hvalid : ∀ raw stepId a, validate raw stepId = .ok a → P a) {raw : Option Value}
    {stepId : String} {found : Option α} (h : validateSome validate raw stepId = .ok found) :
    ∀ a, found = some a → P a := by
  rintro a rfl
  unfold validateSome at h
  split at h
  · cases h
  · cases h
  · next raw _ =>
    cases hraw : validate raw stepId with
    | error e =>
      rw [hraw] at h
      cases h
    | ok a' =>
      rw [hraw] at h
      obtain rfl := Option.some.inj (Except.ok.inj h)
      exact hvalid raw stepId a' hraw

omit [PyLib] in
theorem validateSome_toValue {α : Type} {validate : Value → String → Except FlowError α}
    {toValue : α → Value} {stepId : String} {found : Option α}
    (hvalid : ∀ a, found = some a → validate (toValue a) stepId = .ok a)
    (hne : ∀ a, toValue a ≠ .none) :
    validateSome validate (some (found.elim .none toValue)) stepId = .ok found := by
  cases found with
  | none => rfl
  | some a =>
    unfold validateSome
    split
    · next h => cases h
    · next h => exact absurd (Option.some.inj h) (hne a)
    · next raw _ h =>
      obtain rfl := Option.some.inj h
      rw [Option.elim_some, hvalid a rfl]
      rfl

omit [PyLib] in
theorem readDependsOn_ok {raw : Dict String Value} {deps : List String}
    (h : readDependsOn raw = .ok deps) : ∀ dep ∈ deps, Stripped dep := by
  unfold readDependsOn at h
  split at h
  · obtain rfl := Except.ok.inj h
    intro dep hdep
    obtain ⟨item, -, hitem⟩ := List.mem_filterMap.1 hdep
    obtain ⟨text, -, rfl⟩ := Option.map_eq_some_iff.1 hitem
    exact strip_strip text
  · cases h

/-- A step that is read is well formed and new. -/
theorem parseStep_ok {ids : List String} {raw : Value} {step : FlowStep}
    (h : parseStep ids raw = .ok step) : step.WellFormed ∧ step.id ∉ ids := by
  unfold parseStep at h
  split at h
  · next raw _ =>
    dsimp only at h
    split at h
    · cases h
    split at h
    · cases h
    split at h
    · cases h
    next hid hnew hcommand =>
    obtain ⟨deps, hdeps, h⟩ := Except.bind_eq_ok.1 h
    obtain ⟨retry, hretry, h⟩ := Except.bind_eq_ok.1 h
    obtain ⟨condition, hcondition, h⟩ := Except.bind_eq_ok.1 h
    obtain ⟨timeout, htimeout, h⟩ := Except.bind_eq_ok.1 h
    obtain rfl := Except.ok.inj h
    exact ⟨
      { id := ⟨stripped_textOf raw "id", hid⟩
        command := ⟨stripped_textOf raw "command", hcommand⟩
        dependsOn := readDependsOn_ok hdeps
        retry := validateSome_ok (fun _ _ _ => validateRetry_ok) hretry
        waitCondition := validateSome_ok (fun _ _ _ => validateWaitCondition_ok) hcondition
        timeoutSeconds := boundedInt_ok htimeout }, hnew⟩
  · cases h

/-- A well-formed step is read from what is written of it. -/
theorem parseStep_toValue {ids : List String} {step : FlowStep} (h : step.WellFormed)
    (hnew : step.id ∉ ids) : parseStep ids step.toValue = .ok step := by
  let raw : Dict String Value := ⟨[("id", .str step.id), ("command", .str step.command),
    ("depends_on", .list (step.dependsOn.map .str)),
    ("retry", step.retry.elim .none RetryRule.toValue),
    ("wait_condition", step.waitCondition.elim .none WaitCondition.toValue),
    ("timeout_seconds", .int step.timeoutSeconds)]⟩
  have hid : textOf raw "id" = step.id := by
    have hget : raw.get? "id" = some (.str step.id) := rfl
    rw [textOf, hget, strOr_str]
    exact h.id.1
  have hcommand : textOf raw "command" = step.command := by
    have hget : raw.get? "command" = some (.str step.command) := rfl
    rw [textOf, hget, strOr_str]
    exact h.command.1
  have hdeps : readDependsOn raw = .ok step.dependsOn := by
    have hget : raw.get? "depends_on" = some (.list (step.dependsOn.map .str)) := rfl
    have hitems : ((some (Value.list (step.dependsOn.map .str))).filter Value.truthy).getD (.list []) =
        .list (step.dependsOn.map .str) := by
      cases hd : step.dependsOn <;> rfl
    have hstrip : (step.dependsOn.map Value.str).filterMap (fun dep => dep.asStr?.map strip) =
        step.dependsOn := by
      rw [List.filterMap_map]
      have hsame : ∀ dep ∈ step.dependsOn, ((fun dep => dep.asStr?.map strip) ∘ Value.str) dep =
          some dep := fun dep hdep => congrArg some (h.dependsOn dep hdep)
      rw [List.filterMap_congr hsame, List.filterMap_some]
    simp only [readDependsOn, hget, hitems, Value.iter, hstrip]
  have hretry : validateSome validateRetry (raw.get? "retry") step.id = .ok step.retry :=
    validateSome_toValue (fun rule hrule => validateRetry_toValue (h.retry rule hrule) step.id)
      fun _ => by simp [RetryRule.toValue]
  have hcondition : validateSome validateWaitCondition (raw.get? "wait_condition") step.id =
      .ok step.waitCondition :=
    validateSome_toValue
      (fun condition hc => validateWaitCondition_toValue (h.waitCondition condition hc) step.id)
      fun _ => by simp [WaitCondition.toValue]
  have htimeout : (raw.get? "timeout_seconds").getD (.int 30) = .int step.timeoutSeconds := rfl
  have hraw : step.toValue.asDict? = some raw := rfl
  unfold parseStep
  simp only [hraw, hid, if_neg h.id.2, if_neg hnew, hcommand, if_neg h.command.2, hdeps, hretry,
    hcondition, htimeout, boundedInt_int h.timeoutSeconds, bind, Except.bind, pure, Except.pure]

/-- The steps that are read are well formed, and their ids are distinct and new. -/
theorem parseSteps_ok {ids : List String} {raws : List Value} {steps : List FlowStep}
    (h : parseSteps ids raws = .ok steps) :
    (∀ step ∈ steps, step.WellFormed ∧ step.id ∉ ids) ∧ (steps.map FlowStep.id).Nodup ∧
      steps.length = raws.length := by
  induction raws generalizing ids steps with
  | nil =>
    obtain rfl := Except.ok.inj h
    simp
  | cons raw rest ih =>
    obtain ⟨step, hstep, h⟩ := Except.bind_eq_ok.1 h
    obtain ⟨others, hothers, h⟩ := Except.bind_eq_ok.1 h
    obtain rfl := Except.ok.inj h
    obtain ⟨hall, hnodup, hlen⟩ := ih hothers
    refine ⟨fun step' hmem => ?_, ?_, by simp [hlen]⟩
    · rcases List.mem_cons.1 hmem with rfl | hmem
      · exact parseStep_ok hstep
      · have hnew := (hall step' hmem).2
        exact ⟨(hall step' hmem).1, fun hin => hnew (List.mem_append_left _ hin)⟩
    · rw [List.map_cons, List.nodup_cons]
      refine ⟨fun hin => ?_, hnodup⟩
      obtain ⟨step', hmem, heq⟩ := List.mem_map.1 hin
      exact (hall step' hmem).2 (by simp [heq])

theorem parseSteps_toValue {ids : List String} {steps : List FlowStep}
    (hall : ∀ step ∈ steps, step.WellFormed ∧ step.id ∉ ids)
    (hnodup : (steps.map FlowStep.id).Nodup) :
    parseSteps ids (steps.map FlowStep.toValue) = .ok steps := by
  induction steps generalizing ids with
  | nil => rfl
  | cons step rest ih =>
    rw [List.map_cons, List.nodup_cons] at hnodup
    obtain ⟨hstep, hnew⟩ := hall step List.mem_cons_self
    have hrest : ∀ step' ∈ rest, step'.WellFormed ∧ step'.id ∉ ids ++ [step.id] := by
      intro step' hmem
      refine ⟨(hall step' (List.mem_cons_of_mem _ hmem)).1, fun hin => ?_⟩
      rcases List.mem_append.1 hin with hin | hin
      · exact (hall step' (List.mem_cons_of_mem _ hmem)).2 hin
      · exact hnodup.1 (List.mem_singleton.1 hin ▸ List.mem_map_of_mem hmem)
    rw [List.map_cons, parseSteps]
    simp only [parseStep_toValue hstep hnew, ih hrest hnodup.2, bind, Except.bind, pure,
      Except.pure]

omit [PyLib] in
theorem unknownDependency?_eq_none {steps : List FlowStep} : unknownDependency? steps = none ↔
    ∀ step ∈ steps, ∀ dep ∈ step.dependsOn, dep ∈ steps.map FlowStep.id := by
  rw [unknownDependency?, List.find?_eq_none]
  constructor
  · intro h step hstep dep hdep
    have hedge := h (step.id, dep) (List.mem_flatMap.2 ⟨step, hstep, List.mem_map_of_mem hdep⟩)
    simpa using hedge
  · intro h edge hedge
    obtain ⟨step, hstep, hedge⟩ := List.mem_flatMap.1 hedge
    obtain ⟨dep, hdep, rfl⟩ := List.mem_map.1 hedge
    simpa using h step hstep dep hdep

theorem parseFlow_ok {data : Value} {plan : FlowPlan} (h : parseFlow data = .ok plan) :
    plan.WellFormed := by
  unfold parseFlow at h
  split at h
  · split at h
    · next raws _ =>
      split at h
      · cases h
      split at h
      · cases h
      next hne hlen =>
      have hpos : 0 < raws.length := List.length_pos_iff.2 hne
      obtain ⟨steps, hsteps, h⟩ := Except.bind_eq_ok.1 h
      obtain ⟨hall, hnodup, hlength⟩ := parseSteps_ok hsteps
      split at h
      · cases h
      · next hknown =>
        obtain rfl := Except.ok.inj h
        exact
          { steps := fun step hmem => (hall step hmem).1
            nodup := hnodup
            known := unknownDependency?_eq_none.1 hknown
            nonempty := List.length_pos_iff.1 (hlength ▸ hpos)
            length := hlength ▸ not_lt.1 hlen }
    · cases h
  · cases h

theorem parseFlow_toValue {plan : FlowPlan} (h : plan.WellFormed) :
    parseFlow plan.toValue = .ok plan := by
  have hdata : plan.toValue.asDict? =
      some ⟨[("steps", .list (plan.steps.map FlowStep.toValue))]⟩ := rfl
  have hsteps : (⟨[("steps", .list (plan.steps.map FlowStep.toValue))]⟩ : Dict String Value).get?
      "steps" = some (.list (plan.steps.map FlowStep.toValue)) := rfl
  have hne : plan.steps.map FlowStep.toValue ≠ [] := by simpa using h.nonempty
  have hlen : ¬ maxFlowSteps < (plan.steps.map FlowStep.toValue).length := by
    rw [List.length_map]
    exact not_lt.2 h.length
  have hall : ∀ step ∈ plan.steps, step.WellFormed ∧ step.id ∉ ([] : List String) :=
    fun step hmem => ⟨h.steps step hmem, List.not_mem_nil⟩
  have hread := parseSteps_toValue hall h.nodup
  have hknown := unknownDependency?_eq_none.2 h.known
  unfold parseFlow
  simp only [hdata, hsteps, if_neg hne, if_neg hlen, hread, hknown, bind, Except.bind, pure,
    Except.pure]

/-- The plans that are read from some data are the well-formed ones, and each of these is read again
from what is written of it. -/
theorem parseFlow_toValue_iff (plan : FlowPlan) :
    ((∃ data, parseFlow data = .ok plan) ↔ plan.WellFormed) ∧
      (parseFlow plan.toValue = .ok plan ↔ plan.WellFormed) := by
  refine ⟨⟨fun h => ?_, fun h => ⟨plan.toValue, parseFlow_toValue h⟩⟩, parseFlow_ok,
    parseFlow_toValue⟩
  obtain ⟨data, hdata⟩ := h
  exact parseFlow_ok hdata

end

end DeviceShell.Gateway
