import DeviceShell.Lib.Fallible
import DeviceShell.Lib.Operators
import DeviceShell.Lib.Regex
import DeviceShell.Lib.Text

/-!
# Terminal execution plans

`application/terminal/plan_models.py` and `plan_parser.py`: the steps of a plan, the plan that a
list of submitted dictionaries parses to, and the plan that a batch of commands becomes. A
`TerminalPlanError` carries its code and its text; what Python's own operations raise is kept apart
from it.
-/

namespace DeviceShell.Terminal

/-! ## Steps -/

/-- `ResponseRule`. -/
structure ResponseRule where
  pattern : String
  text : String := ""
  control : String := ""
  secretRef : String := ""
  appendEnter : Bool := true
  caseSensitive : Bool := false
  maxMatches : ℤ := 1
deriving DecidableEq, Repr

/-- `SendStep`. -/
structure SendStep where
  text : String := ""
  control : String := ""
  secretRef : String := ""
  secretPrefix : String := ""
  secretSuffix : String := ""
  appendEnter : Bool := true
  label : String := ""
  name : String := ""
  nextStep : Option ℕ := none
deriving DecidableEq, Repr

/-- `ExpectStep`. -/
structure ExpectStep where
  success : List String := []
  pattern : String := ""
  responses : List ResponseRule := []
  failures : List String := []
  successMarkers : List String := []
  timeoutSeconds : PyFloat := .finite 30
  idleSeconds : PyFloat := .finite 0
  caseSensitive : Bool := false
  maxOutputChars : ℤ := 16384
  timeoutCode : String := "step_timeout"
  label : String := ""
  name : String := ""
  onMatch : String := ""
  onFailure : String := ""
  maxRetries : ℤ := 0
  disconnectIsSuccess : Bool := false
  successTarget : Option ℕ := none
deriving DecidableEq, Repr

/-- `WaitStateStep`. -/
structure WaitStateStep where
  state : String
  timeoutSeconds : PyFloat := .finite 60
  label : String := ""
  name : String := ""
  onMatch : String := ""
  onFailure : String := ""
  maxRetries : ℤ := 0
  timeoutCode : String := "step_timeout"
deriving DecidableEq, Repr

/-- `TerminalStep`. -/
inductive TerminalStep where
  | send (step : SendStep)
  | expect (step : ExpectStep)
  | waitState (step : WaitStateStep)
deriving DecidableEq, Repr

/-- `step.name`. -/
def TerminalStep.name : TerminalStep → String
  | .send step => step.name
  | .expect step => step.name
  | .waitState step => step.name

/-- `TerminalExecutionPlan`. -/
structure TerminalExecutionPlan where
  steps : List TerminalStep
  totalTimeoutSeconds : PyFloat := .finite 60
deriving DecidableEq, Repr

/-- What parsing a plan raises. -/
inductive PlanError where
  /-- `TerminalPlanError`. -/
  | terminalPlan (code message : String)
  | python (e : PyError)
deriving DecidableEq, Repr

/-- `raise TerminalPlanError("invalid_plan", message)`. -/
def invalidPlan {α : Type} (message : String) : Except PlanError α :=
  .error (.terminalPlan "invalid_plan" message)

/-- An operation of Python's own in the parser. -/
def liftPython {α : Type} : Except PyError α → Except PlanError α
  | .ok a => .ok a
  | .error e => .error (.python e)

/-- `MAX_PLAN_STEPS`. -/
def maxPlanSteps : ℕ := 100

/-- `MAX_MATCH_TEXT`. -/
def maxMatchText : ℕ := 512

/-- `MAX_STEP_OUTPUT_CHARS`. -/
def maxStepOutputChars : ℕ := 32768

/-- `DEFAULT_PAGINATION_MAX_MATCHES`. -/
def defaultPaginationMaxMatches : ℤ := 100

/-- The keys of `CONTROL_TEXT`. -/
def controls : List String := ["enter", "space", "ctrl_c", "ctrl_y"]

/-! ## Fields of a submitted step -/

/-- A bound of `_number`, with the text `:g` gives it. -/
structure Bound where
  value : ℚ
  text : String

/-- The bound that a natural number is. -/
def Bound.nat (n : ℕ) : Bound := ⟨n, toString n⟩

/-- `.05`. -/
def Bound.twentieth : Bound := ⟨1 / 20, "0.05"⟩

section

variable [PyLib]

/-- `_number`. -/
def number (value : Value) (label : String) (minimum maximum : Bound) : Except PlanError PyFloat :=
  match value.toFloat with
  | .error (.typeError _) => invalidPlan (label ++ " 必须是数字。")
  | .error (.valueError _) => invalidPlan (label ++ " 必须是数字。")
  | .error e => .error (.python e)
  | .ok x =>
    if x.lt (.finite minimum.value) || (PyFloat.finite maximum.value).lt x then
      invalidPlan (label ++ " 必须在 " ++ minimum.text ++ " 到 " ++ maximum.text ++ " 之间。")
    else .ok x

/-- `int(_number(...))`. -/
def integer (value : Value) (label : String) (minimum maximum : Bound) : Except PlanError ℤ := do
  liftPython (Value.toInt (.float (← number value label minimum maximum)))

/-- `value is None`. -/
def isNull : Value → Bool
  | .none => true
  | _ => false

/-- `raw.get(key, default)`. -/
def fieldOr (raw : Dict String Value) (key : String) (default : Value) : Value :=
  (raw.get? key).getD default

/-- `str(raw.get(key) or "").strip()`. -/
def strippedField (raw : Dict String Value) (key : String) : String :=
  strip (Value.strOr (raw.get? key) "")

/-- `_match_text`. -/
def matchText (value : Option Value) (label : String) : Except PlanError String :=
  let text := strip (Value.strOr value "")
  if text = "" then invalidPlan (label ++ " 匹配文本不能为空。")
  else if text.length > maxMatchText then invalidPlan (label ++ " 匹配文本过长。")
  else .ok text

/-- `_match_list`. -/
def matchList (value : Value) (label : String) : Except PlanError (List String) :=
  match value with
  | .list items => items.mapM fun item => matchText (some item) label
  | _ => invalidPlan (label ++ " 必须是数组。")

/-- `_numeric_transition`. -/
def numericTransition (value : Option Value) (index : ℕ) : Except PlanError (Option ℕ) :=
  match value with
  | some (.list [v]) => match v.asInt? with
    | some n =>
      if n < 0 then invalidPlan ("步骤 " ++ toString index ++ " success 目标索引不能为负数。")
      else .ok (some n.toNat)
    | none => .ok none
  | _ => .ok none

/-- A text that is a first character of one kind and at most 63 of another after it. -/
def isShortName (first rest : Char → Bool) (s : String) : Bool :=
  match s.toList with
  | [] => false
  | c :: cs => first c && decide (cs.length ≤ 63) && cs.all rest

/-- `_timeout_code`. -/
def timeoutCode (value : Option Value) (index : ℕ) : Except PlanError String :=
  let code := strip (Value.strOr value "step_timeout")
  if isShortName Char.isLower (fun c => c.isLower || c.isDigit || "_.-".toList.contains c) code then
    .ok code
  else invalidPlan ("步骤 " ++ toString index ++ " timeout_code 无效。")

/-- `_step_name`. -/
def stepName (raw : Dict String Value) (index : ℕ) : Except PlanError String :=
  let name := strippedField raw "name"
  if name ≠ "" ∧
      isShortName Char.isAlpha (fun c => c.isAlphanum || "_.-".toList.contains c) name = false then
    invalidPlan ("步骤 " ++ toString index ++
      " name 必须以字母开头，且只包含字母、数字、点、横线或下划线。")
  else .ok name

/-! ## Inputs -/

open Regex in
/-- `re.fullmatch` of the reference to a runtime secret of a managed transfer. -/
def isRuntimeSecretRef (ref : String) : Bool :=
  let hex (n : ℕ) : Regex := all (List.replicate n
    (chars fun c => c.isDigit || ('a' ≤ c && c ≤ 'f')))
  let pattern := all [exact "managed_transfer.", hex 8, exact "-", hex 4, exact "-", hex 4,
    exact "-", hex 4, exact "-", hex 12, exact ".",
    Regex.any [exact "username", exact "password", exact "command"]]
  (ways pattern ⟨none, ref.toList, []⟩).any fun c => c.rest.isEmpty

/-- The references to secrets that every plan may use. -/
def allowedSecretRefs : List String :=
  ["", "transfer.username", "transfer.password", "file_transfer.username", "file_transfer.password"]

/-- `_exclusive_input`: the text, the control and the reference to a secret. -/
def exclusiveInput (raw : Dict String Value) (label : String) :
    Except PlanError (String × String × String) :=
  let text := Value.strOr (raw.get? "text") ""
  let control := PyLib.casefold (strippedField raw "control")
  let secretRef := strippedField raw "secret_ref"
  if ([text, control, secretRef].filter (· ≠ "")).length ≠ 1 then
    invalidPlan (label ++ " 必须且只能包含 text、control、secret_ref 之一。")
  else if control ≠ "" ∧ control ∉ controls then
    invalidPlan (label ++ " 控制输入无效: " ++ control)
  else if secretRef ∉ allowedSecretRefs ∧ isRuntimeSecretRef secretRef = false then
    .error (.terminalPlan "secret_ref_not_allowed" (label ++ " 不允许使用凭据引用: " ++ secretRef))
  else if text.length > 16384 then invalidPlan (label ++ " 文本过长。")
  else .ok (text, control, secretRef)

/-! ## Parsing a step -/

/-- `_parse_send_step`. -/
def parseSendStep (raw : Dict String Value) (index : ℕ) : Except PlanError SendStep := do
  let label := "步骤 " ++ toString index
  let (text, control, secretRef) ← exclusiveInput raw label
  let secretPrefix := Value.strOr (raw.get? "secret_prefix") ""
  let secretSuffix := Value.strOr (raw.get? "secret_suffix") ""
  if (secretPrefix ≠ "" ∨ secretSuffix ≠ "") ∧ secretRef = "" then
    invalidPlan (label ++ " 只能为凭据引用设置 secret_prefix/secret_suffix。")
  if secretPrefix.length > 1024 ∨ secretSuffix.length > 1024 then
    invalidPlan (label ++ " 凭据前后缀过长。")
  return {
    text := text
    control := control
    secretRef := secretRef
    secretPrefix := secretPrefix
    secretSuffix := secretSuffix
    appendEnter := (fieldOr raw "append_enter" (.bool true)).truthy
    label := Value.strOr (raw.get? "label")
      (if text ≠ "" then text else if control ≠ "" then control else secretRef)
    name := ← stepName raw index
    nextStep := ← numericTransition (raw.get? "success") index }

/-- The body of the loop of `_parse_expect_step` over the responses. -/
def parseResponse (index responseIndex : ℕ) (item : Value) : Except PlanError ResponseRule := do
  let label := "步骤 " ++ toString index ++ " 响应 " ++ toString responseIndex
  match item with
  | .dict entries =>
    let item : Dict String Value := ⟨entries⟩
    let (text, control, secretRef) ← exclusiveInput item label
    return {
      pattern := ← matchText (item.get? "match") label
      text := text
      control := control
      secretRef := secretRef
      appendEnter := (fieldOr item "append_enter" (.bool true)).truthy
      caseSensitive := (fieldOr item "case_sensitive" (.bool false)).truthy
      maxMatches := ← integer (fieldOr item "max_matches" (.int 1)) "max_matches" (.nat 1)
        (.nat 1000) }
  | _ => .error (.python (.attributeError "object has no attribute 'get'"))

/-- `_parse_expect_step`. -/
def parseExpectStep (raw : Dict String Value) (index : ℕ) : Except PlanError ExpectStep := do
  let label := "步骤 " ++ toString index
  let pattern := strippedField raw "pattern"
  if pattern ≠ "" then
    let _ ← matchText (some (.str pattern)) (label ++ " pattern")
  let successTarget ← numericTransition (raw.get? "success") index
  let given := ((raw.get? "success").filter Value.truthy).getD (.list [])
  let success ← if successTarget.isSome then pure [pattern]
    else matchList given (label ++ " success")
  match fieldOr raw "responses" (.list []) with
  | .list items =>
    let responses ← items.zipIdx.mapM fun item => parseResponse index item.2 item.1
    return {
      success := success
      pattern := pattern
      responses := responses
      failures := ← matchList (fieldOr raw "failures" (.list [])) (label ++ " failures")
      successMarkers := ← matchList (fieldOr raw "success_markers" (.list []))
        (label ++ " success_markers")
      timeoutSeconds := ← number (fieldOr raw "timeout_seconds" (.int 30)) "timeout_seconds"
        .twentieth (.nat 3600)
      idleSeconds := ← number (fieldOr raw "idle_seconds" (.int 0)) "idle_seconds" (.nat 0)
        (.nat 60)
      caseSensitive := (fieldOr raw "case_sensitive" (.bool false)).truthy
      maxOutputChars := ← integer (fieldOr raw "max_output_chars" (.int 16384)) "max_output_chars"
        (.nat 1) (.nat maxStepOutputChars)
      timeoutCode := ← timeoutCode (raw.get? "timeout_code") index
      label := Value.strOr (raw.get? "label") ""
      name := ← stepName raw index
      onMatch := strippedField raw "on_match"
      onFailure := strippedField raw "on_failure"
      maxRetries := ← integer (fieldOr raw "max_retries" (.int 0)) "max_retries" (.nat 0) (.nat 100)
      disconnectIsSuccess := (fieldOr raw "disconnect_is_success" (.bool false)).truthy
      successTarget := successTarget }
  | _ => invalidPlan (label ++ " responses 必须是数组。")

/-- `_parse_wait_state_step`. -/
def parseWaitStateStep (raw : Dict String Value) (index : ℕ) : Except PlanError WaitStateStep := do
  let state := PyLib.casefold (strippedField raw "state")
  if state ≠ "connected" ∧ state ≠ "disconnected" then
    invalidPlan ("步骤 " ++ toString index ++ " wait_state 只支持 connected 或 disconnected。")
  return {
    state := state
    timeoutSeconds := ← number (fieldOr raw "timeout_seconds" (.int 60)) "timeout_seconds"
      .twentieth (.nat 3600)
    label := Value.strOr (raw.get? "label") state
    name := ← stepName raw index
    onMatch := strippedField raw "on_match"
    onFailure := strippedField raw "on_failure"
    maxRetries := ← integer (fieldOr raw "max_retries" (.int 0)) "max_retries" (.nat 0) (.nat 100)
    timeoutCode := ← timeoutCode (raw.get? "timeout_code") index }

/-- The body of the loop of `parse_terminal_plan`. -/
def parseStep (raw : Dict String Value) (index : ℕ) : Except PlanError TerminalStep := do
  let kind := PyLib.casefold (strippedField raw "type")
  if kind = "send" then return .send (← parseSendStep raw index)
  else if kind = "expect" then return .expect (← parseExpectStep raw index)
  else if kind = "wait_state" then return .waitState (← parseWaitStateStep raw index)
  else invalidPlan ("步骤 " ++ toString index ++ " 类型无效: " ++
    (if kind = "" then "<empty>" else kind))

/-! ## Compatibility forms -/

/-- `_normalize_compat_steps` of a `send`. -/
def normalizeSend (item : Dict String Value) : List (Dict String Value) :=
  let item := item.set "type" (.str "send")
  let item := if item.contains "enter" && !item.contains "append_enter" then
      (item.erase "enter").set "append_enter" (.bool (fieldOr item "enter" .none).truthy)
    else item
  let expected := fieldOr item "expect_prompt" .none
  let item := item.erase "expect_prompt"
  if expected.truthy then
    [item, ⟨[("type", .str "expect"), ("pattern", .str expected.pyStr),
      ("success", .list [.str expected.pyStr]), ("label", .str ("expect " ++ expected.pyStr))]⟩]
  else [item]

/-- `_normalize_compat_steps` of an `expect`. -/
def normalizeExpect (item : Dict String Value) : Except PlanError (Dict String Value) :=
  let item := item.set "type" (.str "expect")
  let found := fieldOr item "match" .none
  let item := item.erase "match"
  let item := if isNull found = false ∧ item.contains "pattern" = false ∧
      item.contains "success" = false then item.set "pattern" (.str found.pyStr)
    else item
  let response := fieldOr item "respond" .none
  let item := item.erase "respond"
  if isNull response = false ∧ item.contains "responses" = false then
    match response with
    | .dict entries =>
      let rule : Dict String Value := ⟨[("match", .str (Value.strOr (some found)
        (Value.strOr (item.get? "pattern") "")))]⟩
      .ok (item.set "responses" (.list [.ofDict (rule.merge ⟨entries⟩)]))
    | _ => invalidPlan "expect.respond 必须是对象。"
  else .ok item

/-- The body of the loop of `_normalize_compat_steps`. -/
def normalizeCompatStep (raw : Value) : Except PlanError (List (Dict String Value)) := do
  let item ← liftPython raw.toDict
  let action := PyLib.casefold (strip (Value.strOr ((item.get? "action").filter Value.truthy)
    (Value.strOr (item.get? "type") "")))
  if action = "done" then return []
  else if action = "send" then return normalizeSend item
  else if action = "expect" then return [← normalizeExpect item]
  else return [item]

/-- `_normalize_compat_steps`. -/
def normalizeCompatSteps (steps : List Value) : Except PlanError (List (Dict String Value)) := do
  return (← steps.mapM normalizeCompatStep).flatten

/-! ## Branches -/

/-- `names` of `_validate_plan_branches`. -/
def stepNames : ℕ → List TerminalStep → Dict String ℕ → Except PlanError (Dict String ℕ)
  | _, [], names => .ok names
  | index, step :: rest, names =>
    if step.name = "" then stepNames (index + 1) rest names
    else if names.contains step.name then invalidPlan ("步骤名称重复: " ++ step.name)
    else stepNames (index + 1) rest (names.set step.name index)

/-- The body of the inner loop of `_validate_plan_branches`. -/
def validateBranch (names : Dict String ℕ) (index : ℕ) (maxRetries : ℤ)
    (fieldName target : String) : Except PlanError Unit :=
  if target = "" ∨ (fieldName = "on_failure" ∧ target = "stop") then .ok ()
  else
    let targetIndex := if fieldName = "on_failure" ∧ target = "retry" then some index
      else names.get? target
    match targetIndex with
    | none => invalidPlan ("步骤 " ++ toString index ++ " " ++ fieldName ++ " 指向未知步骤: " ++ target)
    | some targetIndex =>
      if targetIndex ≤ index ∧ maxRetries < 1 then
        invalidPlan ("步骤 " ++ toString index ++ " 的向后跳转必须设置 max_retries。")
      else .ok ()

/-- The branches of a step that `_validate_plan_branches` looks at, and its `max_retries`. -/
def TerminalStep.branches? : TerminalStep → Option (String × String × ℤ)
  | .send _ => none
  | .expect step => some (step.onMatch, step.onFailure, step.maxRetries)
  | .waitState step => some (step.onMatch, step.onFailure, step.maxRetries)

/-- `_validate_plan_branches`. -/
def validatePlanBranches (steps : List TerminalStep) : Except PlanError Unit := do
  let names ← stepNames 0 steps ∅
  steps.zipIdx.forM fun (step, index) => match step.branches? with
    | none => pure ()
    | some (onMatch, onFailure, maxRetries) => do
      validateBranch names index maxRetries "on_match" onMatch
      validateBranch names index maxRetries "on_failure" onFailure

/-- The target by number of a step. -/
def TerminalStep.target? : TerminalStep → Option ℕ
  | .send step => step.nextStep
  | .expect step => step.successTarget
  | .waitState _ => none

/-- `_validate_numeric_transitions`. -/
def validateNumericTransitions (steps : List TerminalStep) : Except PlanError Unit :=
  steps.zipIdx.forM fun (step, index) => match step.target? with
    | none => pure ()
    | some target =>
      if target ≥ steps.length then
        invalidPlan ("步骤 " ++ toString index ++ " success 目标索引超出计划范围: " ++
          toString target ++ "。")
      else pure ()

omit [PyLib] in
/-- The targets by number of steps that are valid are positions of the plan. -/
theorem target_lt {steps : List TerminalStep} (h : validateNumericTransitions steps = .ok ())
    {index target : ℕ} {step : TerminalStep} (hstep : steps[index]? = some step)
    (htarget : step.target? = some target) : target < steps.length := by
  have hmem : (step, index) ∈ steps.zipIdx := List.mem_zipIdx_iff_getElem?.mpr hstep
  have hok := Except.forM_eq_ok.mp h _ hmem
  simp only [htarget] at hok
  by_contra hge
  rw [if_pos (by omega)] at hok
  exact absurd hok (by simp [invalidPlan])

/-! ## Plans -/

/-- `parse_terminal_plan`. -/
def parseTerminalPlan (steps : Value) (totalTimeoutSeconds : Value) :
    Except PlanError TerminalExecutionPlan :=
  match steps with
  | .list (first :: rest) => do
    let items := first :: rest
    if items.length > maxPlanSteps then
      invalidPlan ("交互计划最多允许 " ++ toString maxPlanSteps ++ " 个步骤。")
    let total ← number totalTimeoutSeconds "total_timeout_seconds" (.nat 1) (.nat 3600)
    let normalized ← normalizeCompatSteps items
    let parsed ← normalized.zipIdx.mapM fun raw => parseStep raw.1 raw.2
    validatePlanBranches parsed
    validateNumericTransitions parsed
    return ⟨parsed, total⟩
  | _ => invalidPlan "交互计划至少需要一个步骤。"

/-- When a plan is accepted: its steps are parsed and validated, whatever its total timeout. -/
theorem parseTerminalPlan_eq_ok {raw total : Value} {plan : TerminalExecutionPlan} :
    parseTerminalPlan raw total = .ok plan ↔ ∃ first rest normalized,
      raw = .list (first :: rest) ∧ (first :: rest).length ≤ maxPlanSteps ∧
      number total "total_timeout_seconds" (.nat 1) (.nat 3600) = .ok plan.totalTimeoutSeconds ∧
      normalizeCompatSteps (first :: rest) = .ok normalized ∧
      (normalized.zipIdx.mapM fun raw => parseStep raw.1 raw.2) = .ok plan.steps ∧
      validatePlanBranches plan.steps = .ok () ∧ validateNumericTransitions plan.steps = .ok () := by
  unfold parseTerminalPlan
  constructor
  · intro h
    split at h
    · rename_i first rest
      by_cases hlength : (first :: rest).length > maxPlanSteps
      · simp only [if_pos hlength] at h
        exact absurd h (by simp [invalidPlan, bind, Except.bind])
      · simp only [if_neg hlength] at h
        obtain ⟨seconds, hseconds, h⟩ := Except.bind_eq_ok.mp h
        obtain ⟨normalized, hnormalized, h⟩ := Except.bind_eq_ok.mp h
        obtain ⟨parsed, hparsed, h⟩ := Except.bind_eq_ok.mp h
        obtain ⟨_, hbranches, h⟩ := Except.bind_eq_ok.mp h
        obtain ⟨_, hnumeric, h⟩ := Except.bind_eq_ok.mp h
        cases h
        exact ⟨first, rest, normalized, rfl, by omega, hseconds, hnormalized, hparsed, hbranches,
          hnumeric⟩
    · exact absurd h (by simp [invalidPlan])
  · rintro ⟨first, rest, normalized, rfl, hlength, hseconds, hnormalized, hparsed, hbranches,
      hnumeric⟩
    have hshort : ¬(first :: rest).length > maxPlanSteps := by omega
    simp only [if_neg hshort]
    refine Except.bind_eq_ok.mpr ⟨_, hseconds, Except.bind_eq_ok.mpr ⟨_, hnormalized, ?_⟩⟩
    refine Except.bind_eq_ok.mpr ⟨_, hparsed, Except.bind_eq_ok.mpr ⟨_, hbranches, ?_⟩⟩
    exact Except.bind_eq_ok.mpr ⟨_, hnumeric, rfl⟩

/-- The failures that a batch looks for by default. -/
def batchFailures : List String :=
  ["Error:", "Unrecognized command", "Unknown command", "Incomplete command"]

/-- The two steps of a command of `build_batch_plan`. -/
def batchSteps (timeout : PyFloat) (outputLimit : ℤ) (terminalPrompt : String)
    (failurePatterns : List String) (command : String) : List TerminalStep :=
  [.send { text := command, appendEnter := true, label := command },
    .expect {
      success := [if terminalPrompt = "" then "device_prompt" else terminalPrompt]
      responses := [{
        pattern := "pagination_prompt"
        control := "space"
        appendEnter := false
        maxMatches := defaultPaginationMaxMatches }]
      failures := if failurePatterns.isEmpty then batchFailures else failurePatterns
      timeoutSeconds := timeout
      idleSeconds := if terminalPrompt ≠ "" ∨ failurePatterns ≠ [] then .finite 0
        else .finite (4 / 5)
      maxOutputChars := outputLimit
      label := command }]

/-- The command at an index of a batch. -/
def batchCommand (raw : String) (index : ℕ) : Except PlanError String :=
  let command := strip raw
  if command = "" then invalidPlan ("命令 " ++ toString index ++ " 不能为空。")
  else if command.length > 16384 then invalidPlan ("命令 " ++ toString index ++ " 过长。")
  else .ok command

/-- `build_batch_plan`. -/
def buildBatchPlan (commands : List String) (commandTimeoutSeconds totalTimeoutSeconds : Value)
    (maxOutputChars : Value) (terminalPrompt : String) (failurePatterns : List String) :
    Except PlanError TerminalExecutionPlan := do
  if commands.isEmpty ∨ commands.length > 50 then
    invalidPlan "批量命令数量必须在 1 到 50 之间。"
  let timeout ← number commandTimeoutSeconds "command_timeout_seconds" (.nat 1) (.nat 300)
  let outputLimit ← integer maxOutputChars "max_output_chars_per_step" (.nat 1)
    (.nat maxStepOutputChars)
  let commands ← commands.zipIdx.mapM fun raw => batchCommand raw.1 raw.2
  let steps := commands.flatMap (batchSteps timeout outputLimit terminalPrompt failurePatterns)
  let total ← number (if isNull totalTimeoutSeconds then .int 60 else totalTimeoutSeconds)
    "total_timeout_seconds" (.nat 1) (.nat 3600)
  return ⟨steps, total⟩

end

end DeviceShell.Terminal
