import DeviceShell.Lib.Method
import DeviceShell.Terminal.Matching
import DeviceShell.Terminal.PlanParser

/-!
# Running a terminal plan

`TerminalExecutionRunner` of `application/terminal/execution_runner.py`: a state and one method for
each thing that can happen to an execution. What a method does outside the runner (a send, a timer,
the call of `on_finished`) is noted in `effects`. The methods that go on with the plan take a bound
on the iterations of the loop of `_advance_locked`.
-/

namespace DeviceShell.Terminal

/-! ## State -/

/-- The values of `TerminalExecutionRunner.status` and of `TerminalStepResult.status`. -/
inductive ExecutionStatus where
  | pending
  | running
  | completed
  | failed
  | timedOut
  | cancelled
  | cancelledByUser
  | disconnected
deriving DecidableEq, Repr

namespace ExecutionStatus

/-- The code's text for a status. -/
def text : ExecutionStatus → String
  | pending => "pending"
  | running => "running"
  | completed => "completed"
  | failed => "failed"
  | timedOut => "timed_out"
  | cancelled => "cancelled"
  | cancelledByUser => "cancelled_by_user"
  | disconnected => "disconnected"

/-- Whether the status is in `TERMINAL_STATUSES`. -/
def isTerminal : ExecutionStatus → Bool
  | pending | running => false
  | _ => true

end ExecutionStatus

/-- `RESPONSE_RETRY_DELAY_MS`. -/
def responseRetryDelayMs : ℤ := 120

/-- `MAX_EXECUTION_EVENTS`. -/
def maxExecutionEvents : ℕ := 200

/-- `CONTROL_TEXT`. -/
def controlText : List (String × String) :=
  [("enter", "\r"), ("space", " "), ("ctrl_c", "\x03"), ("ctrl_y", "\x19")]

/-- `TerminalInput`. -/
structure TerminalInput where
  text : String
  sensitive : Bool := false
  secretRef : String := ""
deriving DecidableEq, Repr

/-- The values of `TerminalStepResult.type`. -/
inductive StepKind where
  | send
  | expect
  | waitState
deriving DecidableEq, Repr

/-- `TerminalStepResult`. -/
structure StepResult where
  index : ℕ
  type : StepKind
  status : ExecutionStatus
  label : String
  startedMonotonic : ℚ
  completedMonotonic : ℚ := 0
  output : String := ""
  matched : String := ""
  responseCount : ℕ := 0
  responsesSent : List String := []
  errorCode : String := ""
  message : String := ""
deriving DecidableEq, Repr

/-- An event of an execution; a key that the dictionary does not have is an empty text. -/
structure ExecutionEvent where
  cursor : ℕ := 0
  type : String
  timestamp : ℚ := 0
  data : String := ""
  matched : String := ""
  control : String := ""
  promptType : String := ""
  status : String := ""
  errorCode : String := ""
  message : String := ""
deriving DecidableEq, Repr

/-- A callback given to `schedule`, with the token it was given. -/
inductive Timer where
  | total (token : ℕ)
  | step (token : ℕ)
  | idle (token : ℕ)
  | responseRetry (token : ℕ)
deriving DecidableEq, Repr

/-- What a runner does outside itself. -/
inductive Effect where
  /-- `send_input` of a step or of the caller's own input. -/
  | sent (payload : TerminalInput)
  /-- `send_input` of a response rule, given by its position in the step. -/
  | responded (rule : ℕ) (payload : TerminalInput)
  /-- `schedule`. -/
  | scheduled (delay : ℤ) (timer : Timer)
  /-- `_arm_wait_locked` of a step. -/
  | armed (step : ℕ)
  /-- `on_finished`. -/
  | finished
deriving DecidableEq, Repr

/-- The state of a `TerminalExecutionRunner`. -/
structure Runner where
  status : ExecutionStatus := .pending
  errorCode : String := ""
  message : String := ""
  currentStep : ℕ := 0
  startedMonotonic : ℚ := 0
  completedMonotonic : ℚ := 0
  stepResults : List StepResult := []
  activeResult : Option StepResult := none
  scanBuffer : String := ""
  responseCounts : Dict ℕ ℕ := ∅
  branchCounts : Dict (ℕ × ℕ × String) ℕ := ∅
  knownSecrets : List String := []
  events : List ExecutionEvent := []
  eventCursor : ℕ := 0
  lastOutput : String := ""
  matchedPrompt : String := ""
  interactionPrompt : Option PromptMatch := none
  answeredInteractionPrompt : String := ""
  stepToken : ℕ := 0
  lastOutputMonotonic : ℚ := 0
  completionEvent : Bool := false
  attentionEvent : Bool := false
  /-- How often the clock has been read. -/
  readings : ℕ := 0
  /-- What the runner has done outside itself, the last first. -/
  effects : List Effect := []

/-- What a runner is made with. -/
structure Execution where
  executionId : String
  sessionId : String
  deviceId : String
  plan : TerminalExecutionPlan
  resolveSecret : String → Except PyError String
  /-- The readings of the clock, in order. -/
  clock : ℕ → ℚ

/-- What a method of the runner raises. -/
inductive ExecutionError where
  /-- `TerminalPlanError`. -/
  | terminalPlan (code message : String) (details : List (String × String) := [])
  | python (e : PyError)

/-- A method of the runner. -/
abbrev RunnerM := Method ExecutionError Runner

/-- `self.is_terminal`. -/
def Runner.isTerminal (s : Runner) : Bool := s.status.isTerminal

/-- `_current_plan_step`. -/
def Runner.currentPlanStep (x : Execution) (s : Runner) : Option TerminalStep :=
  x.plan.steps[s.currentStep]?

/-- `_record_event_locked`. -/
def Runner.recordEvent (x : Execution) (event : ExecutionEvent) (s : Runner) : Runner :=
  let recorded := { event with
    cursor := s.eventCursor + 1
    timestamp := x.clock s.readings
    data := lastChars event.data 4096 }
  let events := s.events ++ [recorded]
  { s with
    eventCursor := s.eventCursor + 1
    readings := s.readings + 1
    events := events.drop (events.length - maxExecutionEvents) }

/-- `_finish_active_step_locked`. -/
def Runner.finishActiveStep (x : Execution) (status : ExecutionStatus)
    (matched errorCode message : String) (s : Runner) : Runner :=
  match s.activeResult with
  | none => s
  | some result => { s with
      readings := s.readings + 1
      stepResults := s.stepResults ++ [{ result with
        status := status
        completedMonotonic := x.clock s.readings
        matched := matched
        errorCode := errorCode
        message := message }]
      activeResult := none }

/-- `_finish_locked`. -/
def Runner.finish (x : Execution) (status : ExecutionStatus) (errorCode message : String)
    (s : Runner) : Runner :=
  if s.isTerminal then s
  else
    let ended := { s with status := status, errorCode := errorCode, message := message }
    let noted := ended.recordEvent x
      { type := "finished", status := status.text, errorCode := errorCode, message := message }
    { noted with
      completedMonotonic := x.clock noted.readings
      readings := noted.readings + 1
      stepToken := noted.stepToken + 1
      completionEvent := true
      attentionEvent := true
      effects := .finished :: noted.effects }

@[simp] theorem Runner.finishActiveStep_status (x : Execution) (status : ExecutionStatus)
    (matched errorCode message : String) (s : Runner) :
    (s.finishActiveStep x status matched errorCode message).status = s.status := by
  unfold Runner.finishActiveStep
  split <;> rfl

/-- What has finished is not running. -/
theorem Runner.finish_not_running {x : Execution} {status : ExecutionStatus}
    (h : status ≠ .running) (errorCode message : String) (s : Runner) :
    (s.finish x status errorCode message).status ≠ .running := by
  unfold Runner.finish
  by_cases hterminal : s.isTerminal = true
  · rw [if_pos hterminal]
    intro hrunning
    rw [Runner.isTerminal, hrunning] at hterminal
    exact absurd hterminal (by decide)
  · rw [if_neg hterminal]
    exact h

/-- An execution that runs finishes with the given status. -/
theorem Runner.finish_status {x : Execution} {s : Runner} (h : s.status = .running)
    (status : ExecutionStatus) (errorCode message : String) :
    (s.finish x status errorCode message).status = status := by
  have hs : ¬s.isTerminal = true := by
    rw [Runner.isTerminal, h]
    decide
  unfold Runner.finish
  rw [if_neg hs]
  rfl

section

variable [PyLib]

/-! ## Inputs and timers -/

/-- `int(seconds * 1000)`. -/
def milliseconds : PyFloat → Except PyError ℤ
  | .finite q => Value.toInt (.float (.finite (q * 1000)))
  | seconds => Value.toInt (.float seconds)

/-- `self.schedule(int(seconds * 1000), ...)`. -/
def schedule (seconds : PyFloat) (timer : Timer) : RunnerM Unit :=
  match milliseconds seconds with
  | .ok delay => modify fun s => { s with effects := .scheduled delay timer :: s.effects }
  | .error e => throw (.python e)

/-- `_input_for`. -/
def inputFor (x : Execution) (text control secretRef secretPrefix secretSuffix : String)
    (appendEnter : Bool) : RunnerM TerminalInput :=
  let ending := if appendEnter then "\r" else ""
  if control ≠ "" then match controlText.lookup control with
    | some payload => pure { text := payload }
    | none => throw (.python (.keyError control))
  else if secretRef ≠ "" then match x.resolveSecret secretRef with
    | .error (.keyError _) | .error (.valueError _) =>
      throw (.terminalPlan "secret_unavailable" ("本地凭据不可用: " ++ secretRef))
    | .error e => throw (.python e)
    | .ok value =>
      if value = "" then
        throw (.terminalPlan "secret_unavailable" ("本地凭据为空: " ++ secretRef))
      else do
        let redactOutput := secretRefRequiresRedaction secretRef
        modify fun s =>
          if redactOutput then { s with knownSecrets := s.knownSecrets ++ [value] } else s
        return {
          text := secretPrefix ++ value ++ secretSuffix ++ ending
          sensitive := redactOutput
          secretRef := secretRef }
  else pure { text := text ++ ending }

/-- Whether an input can be made. -/
def Execution.hasInput (x : Execution) (control secretRef : String) : Bool :=
  if control ≠ "" then (controlText.lookup control).isSome
  else if secretRef ≠ "" then match x.resolveSecret secretRef with
    | .ok value => value ≠ ""
    | .error _ => false
  else true

open Method in
/-- Making an input learns a secret at most, and it succeeds exactly where `hasInput` says so. -/
theorem inputFor_ensures (x : Execution) (text control secretRef secretPrefix secretSuffix : String)
    (appendEnter : Bool) (s : Runner) :
    Ensures (inputFor x text control secretRef secretPrefix secretSuffix appendEnter) s fun r s' =>
      (∃ secrets, s' = { s with knownSecrets := secrets }) ∧
        (r.isOk ↔ x.hasInput control secretRef = true) := by
  have hsame : ∃ secrets, s = { s with knownSecrets := secrets } := ⟨s.knownSecrets, rfl⟩
  unfold inputFor Execution.hasInput
  by_cases hcontrol : control = ""
  · by_cases href : secretRef = ""
    · simp only [hcontrol, href, ne_eq, not_true_eq_false, if_false]
      exact ensures_pure ⟨hsame, by simp [Except.isOk, Except.toBool]⟩
    · simp only [hcontrol, href, ne_eq, not_true_eq_false, not_false_eq_true, if_false, if_true]
      cases hvalue : x.resolveSecret secretRef with
      | error e =>
        cases e <;> exact ensures_throw ⟨hsame, by simp [Except.isOk, Except.toBool]⟩
      | ok value =>
        refine Ensures.ite (fun hempty => ?_) fun hsome => ?_
        · exact ensures_throw ⟨hsame, by simp [hempty, Except.isOk, Except.toBool]⟩
        · apply ensures_modify_bind
          refine ensures_pure ⟨?_, by simp [hsome, Except.isOk, Except.toBool]⟩
          by_cases hredact : secretRefRequiresRedaction secretRef = true
          · exact ⟨s.knownSecrets ++ [value], by rw [if_pos hredact]⟩
          · exact ⟨s.knownSecrets, by rw [if_neg hredact]⟩
  · simp only [ne_eq, hcontrol, not_false_eq_true, if_true]
    cases hpayload : controlText.lookup control with
    | none => exact ensures_throw ⟨hsame, by simp [Except.isOk, Except.toBool]⟩
    | some payload => exact ensures_pure ⟨hsame, by simp [Except.isOk, Except.toBool]⟩

open Method in
/-- Scheduling notes a timer, or raises. -/
theorem schedule_ensures (seconds : PyFloat) (timer : Timer) (s : Runner) :
    Ensures (schedule seconds timer) s fun _ s' =>
      s' = s ∨ ∃ delay, milliseconds seconds = .ok delay ∧
        s' = { s with effects := .scheduled delay timer :: s.effects } := by
  unfold schedule
  cases milliseconds seconds with
  | error e => exact ensures_throw (.inl rfl)
  | ok delay => exact ensures_modify (.inr ⟨delay, rfl, rfl⟩)

/-- `self.send_input(...)`. -/
def sendInput (payload : TerminalInput) : RunnerM Unit :=
  modify fun s => { s with effects := .sent payload :: s.effects }

/-! ## Going on with the plan -/

/-- The state in which a step waits, before its timeout is scheduled. -/
def Runner.arm (x : Execution) (kind : StepKind) (label : String) (s : Runner) : Runner :=
  { s with
    stepToken := s.stepToken + 1
    scanBuffer := ""
    responseCounts := ∅
    lastOutputMonotonic := x.clock s.readings
    activeResult := some {
      index := s.currentStep
      type := kind
      status := .running
      label := label
      startedMonotonic := x.clock (s.readings + 1) }
    readings := s.readings + 2
    effects := .armed s.currentStep :: s.effects }

/-- `_arm_wait_locked`, with the type, label and timeout of the step. -/
def armWait (x : Execution) (kind : StepKind) (label : String) (timeoutSeconds : PyFloat) :
    RunnerM Unit := do
  modify fun s => s.arm x kind label
  let s ← get
  schedule timeoutSeconds (.step s.stepToken)

/-- `_run_send_locked` up to its handler of `TerminalPlanError`. -/
def sendStep (x : Execution) (step : SendStep) (nextIndex : ℕ) : RunnerM Bool := do
  let payload ← inputFor x step.text step.control step.secretRef step.secretPrefix
    step.secretSuffix step.appendEnter
  modify fun s => { s.finishActiveStep x .completed "" "" "" with currentStep := nextIndex }
  match x.plan.steps[nextIndex]? with
  | some (.expect next) => do
    armWait x .expect next.label next.timeoutSeconds
    let armed ← get
    sendInput payload
    let s ← get
    return s.status = .running && s.currentStep = armed.currentStep
  | _ => do
    sendInput payload
    return false

/-- The state in which a send step has begun. -/
def Runner.beginSend (x : Execution) (label : String) (s : Runner) : Runner :=
  { s with
    readings := s.readings + 1
    activeResult := some {
      index := s.currentStep
      type := .send
      status := .running
      label := label
      startedMonotonic := x.clock s.readings } }

/-- `_run_send_locked`. -/
def runSend (x : Execution) (step : SendStep) : RunnerM Bool := do
  modify fun s => s.beginSend x step.label
  let s ← get
  tryCatch (sendStep x step (step.nextStep.getD (s.currentStep + 1))) fun
    | .terminalPlan code message _ => do
      modify fun s => (s.finishActiveStep x .failed "" code message).finish x .failed code message
      return false
    | e => throw e

/-- `_advance_locked`. -/
def advance (x : Execution) : ℕ → RunnerM Unit
  | 0 => Method.exhausted
  | fuel + 1 => do
    let s ← get
    if s.status ≠ .running then pure ()
    else match s.currentPlanStep x with
      | none => modify fun s => s.finish x .completed "" "终端交互执行完成。"
      | some (.send step) => do
        let armed ← runSend x step
        if armed then pure () else advance x fuel
      | some (.expect step) => armWait x .expect step.label step.timeoutSeconds
      | some (.waitState step) => armWait x .waitState step.label step.timeoutSeconds

/-- `target_index` of `_take_branch_locked`. -/
def branchTarget (x : Execution) (source : ℕ) (target : String) : Option ℕ :=
  if target = "retry" then some source
  else x.plan.steps.findIdx? fun candidate => candidate.name = target

/-- The count of a branch that does not lead forward. -/
def Runner.countBranch (index : ℕ) (reason : String) (s : Runner) : Runner :=
  if index ≤ s.currentStep then
    let key := (s.currentStep, index, reason)
    { s with branchCounts := s.branchCounts.set key ((s.branchCounts.get? key).getD 0 + 1) }
  else s

/-- Whether a branch has been taken more often than the step's `max_retries`. -/
def Runner.exceedsBranch (index : ℕ) (reason : String) (maxRetries : ℤ) (s : Runner) : Bool :=
  index ≤ s.currentStep && maxRetries < (s.branchCounts.get? (s.currentStep, index, reason)).getD 0

/-- `_take_branch_locked`, with the step's `max_retries`. -/
def takeBranch (x : Execution) (fuel : ℕ) (maxRetries : ℤ) (target reason : String) :
    RunnerM Bool := do
  if target = "" ∨ target = "stop" then pure false
  else do
    let s ← get
    match branchTarget x s.currentStep target with
    | none => do
      modify fun s => s.finish x .failed "invalid_branch" ("执行时找不到分支步骤: " ++ target)
      return true
    | some index => do
      modify fun s => s.countBranch index reason
      let s ← get
      if s.exceedsBranch index reason maxRetries then do
        modify fun s => s.finish x .failed "branch_limit_exceeded"
          ("步骤 " ++ toString s.currentStep ++ " 的分支重试超过上限。")
        return true
      else do
        modify fun s => { s with currentStep := index }
        advance x fuel
        return true

/-- `if not self._take_branch_locked(...)`: the step after this one, where there is no branch. -/
def branchOrNext (x : Execution) (fuel : ℕ) (maxRetries : ℤ) (target reason : String) :
    RunnerM Unit := do
  let taken ← takeBranch x fuel maxRetries target reason
  if taken then pure ()
  else do
    modify fun s => { s with currentStep := s.currentStep + 1 }
    advance x fuel

/-- The state in which a step that expects output has completed. -/
def Runner.completeStep (x : Execution) (matched : String) (s : Runner) : Runner :=
  ({ s with matchedPrompt := matched }.recordEvent x
    { type := "matched", matched := matched }).finishActiveStep x .completed matched "" ""

/-- `_complete_expect_locked`. -/
def completeExpect (x : Execution) (fuel : ℕ) (step : ExpectStep) (matched : String) :
    RunnerM Unit := do
  modify fun s => s.completeStep x matched
  match step.successTarget with
  | some target => do
    let s ← get
    if target = s.currentStep ∨ target ≥ x.plan.steps.length then
      modify fun s => s.finish x .completed "" "终端交互执行完成。"
    else do
      modify fun s => { s with currentStep := target }
      advance x fuel
  | none => branchOrNext x fuel step.maxRetries step.onMatch "match"

/-! ## Looking at the output -/

variable [PyRe]

/-- The loop of `_apply_responses_locked`: of the rules that match, the one whose match ends
first. -/
def matchedRule (scanBuffer : String) (rules : List ResponseRule) :
    Option (ℕ × ResponseRule × String × ℕ) :=
  rules.zipIdx.foldl (fun best item =>
    match matchToken scanBuffer item.1.pattern item.1.caseSensitive, best with
    | none, best => best
    | some found, none => some (item.2, item.1, found)
    | some found, some (index, rule, first) =>
      if found.2 < first.2 then some (item.2, item.1, found) else some (index, rule, first)) none

/-- `_has_pending_response_locked`. -/
def hasPendingResponse (step : ExpectStep) (s : Runner) : Bool :=
  s.scanBuffer ≠ "" && step.responses.zipIdx.any fun item =>
    ((s.responseCounts.get? item.2).getD 0 : ℤ) < item.1.maxMatches &&
      (matchToken s.scanBuffer item.1.pattern item.1.caseSensitive).isSome

/-- The execution and its step fail at once. -/
def Runner.fail (x : Execution) (matched errorCode stepMessage message : String) (s : Runner) :
    Runner :=
  (s.finishActiveStep x .failed matched errorCode stepMessage).finish x .failed errorCode message

/-- The state in which a response has been chosen, before it is sent. -/
def Runner.answer (x : Execution) (rule : ResponseRule) (payload : TerminalInput) (stop : ℕ)
    (result : StepResult) (s : Runner) : Runner :=
  let noted := { s with
    activeResult := some { result with
      responseCount := result.responseCount + 1
      responsesSent := result.responsesSent ++ [rule.pattern] }
    matchedPrompt := rule.pattern
    answeredInteractionPrompt := rule.pattern }.recordEvent x
      { type := "auto_response", matched := rule.pattern
        data := if payload.sensitive then "[redacted]" else payload.text
        control := rule.control }
  { noted with scanBuffer := slice noted.scanBuffer stop none }

/-- `_apply_responses_locked` after the handler of `TerminalPlanError`. -/
def respond (x : Execution) (step : ExpectStep) (index : ℕ) (rule : ResponseRule) (stop : ℕ)
    (payload : TerminalInput) : RunnerM Unit := do
  let s ← get
  match s.activeResult with
  | none => throw (.python (.other "AssertionError"))
  | some result => do
    modify fun s => s.answer x rule payload stop result
    modify fun s => { s with effects := .responded index payload :: s.effects }
    let s ← get
    if hasPendingResponse step s then
      modify fun s => { s with
        effects := .scheduled responseRetryDelayMs (.responseRetry s.stepToken) :: s.effects }
    else pure ()

/-- The payload of a response, or nothing where the execution has failed over it. -/
def responsePayload (x : Execution) (rule : ResponseRule) (matched : String) :
    RunnerM (Option TerminalInput) :=
  tryCatch (do
    let payload ← inputFor x rule.text rule.control rule.secretRef "" "" rule.appendEnter
    if asksForPassword matched && !payload.sensitive then do
      modify fun s => s.fail x matched "secret_required" "密码提示只能使用 secret_ref。"
        "密码提示只能使用 secret_ref。"
      return none
    else return some payload) fun
    | .terminalPlan code message _ => do
      modify fun s => s.fail x "" code message message
      return none
    | e => throw e

/-- `_apply_responses_locked`. -/
def applyResponses (x : Execution) (step : ExpectStep) : RunnerM Unit := do
  let s ← get
  match matchedRule s.scanBuffer step.responses with
  | none => pure ()
  | some (index, rule, found, stop) => do
    let count := (s.responseCounts.get? index).getD 0 + 1
    modify fun s => { s with responseCounts := s.responseCounts.set index count }
    if count > rule.maxMatches then
      modify fun s => s.fail x found "response_limit_exceeded"
        ("交互响应超过上限: " ++ rule.pattern)
        ("步骤 " ++ toString s.currentStep ++ " 交互响应超过上限。")
    else do
      let payload ← responsePayload x rule found
      match payload with
      | none => pure ()
      | some payload => respond x step index rule stop payload

/-- `_success_tokens`. -/
def successTokens (step : ExpectStep) : List String :=
  if step.pattern ≠ "" then [step.pattern]
  else if step.success = [] then ["device_prompt"] else step.success

/-- The success marker that ends a step. -/
def markerFound (step : ExpectStep) (s : Runner) : Option (String × ℕ) :=
  (firstMatch s.scanBuffer step.successMarkers step.caseSensitive).filter
    fun _ => !step.disconnectIsSuccess

/-- `failure` of `_evaluate_expect_locked`. -/
def failureFound (step : ExpectStep) (responded : Bool) (s : Runner) : Option (String × ℕ) :=
  if !responded && step.successMarkers.isEmpty then
    firstMatch s.scanBuffer step.failures step.caseSensitive
  else none

/-- `_evaluate_expect_locked` from the search for a success marker on. -/
def evaluateOutcome (x : Execution) (fuel : ℕ) (step : ExpectStep) (responded : Bool)
    (expectedSuccess : Option (String × ℕ)) : RunnerM Unit := do
  let s ← get
  match markerFound step s, failureFound step responded s with
  | some marker, _ => completeExpect x fuel step marker.1
  | none, some failure => do
    modify fun s => s.finishActiveStep x .failed failure.1 "terminal_failure"
      ("终端输出匹配失败条件: " ++ failure.1)
    let taken ← takeBranch x fuel step.maxRetries step.onFailure "failure"
    if taken then pure ()
    else
      modify fun s => s.finish x .failed "terminal_failure"
        ("步骤 " ++ toString s.currentStep ++ " 执行失败。")
  | none, none =>
    if s.status ≠ .running then pure ()
    else match expectedSuccess.filter (fun _ => !step.disconnectIsSuccess) with
      | some success => completeExpect x fuel step success.1
      | none =>
        if (PyFloat.finite 0).lt step.idleSeconds then schedule step.idleSeconds (.idle s.stepToken)
        else pure ()

/-- Whether the target of `success` is a send step that answers the prompt. -/
def answeredByPlan (x : Execution) (step : ExpectStep) (currentStep : ℕ) :
    Except ExecutionError Bool :=
  match step.successTarget with
  | none => .ok false
  | some target =>
    if target ≤ currentStep then .ok false
    else match x.plan.steps[target]? with
      | some (.send _) => .ok true
      | some _ => .ok false
      | none => .error (.python (.indexError "tuple index out of range"))

/-- The interaction that has been answered is forgotten at any other prompt. -/
def Runner.forgetAnswered (prompt : Option PromptMatch) (s : Runner) : Runner :=
  match prompt with
  | none => s
  | some prompt =>
    if prompt.type = .command ∨ prompt.text ≠ s.answeredInteractionPrompt then
      { s with answeredInteractionPrompt := "" }
    else s

/-- A prompt that waits for the caller's input. -/
def Runner.requireInteraction (x : Execution) (prompt : PromptMatch) (s : Runner) : Runner :=
  let noted := if s.interactionPrompt ≠ some prompt then
      { s with interactionPrompt := some prompt, matchedPrompt := prompt.text }.recordEvent x
        { type := "interaction_required", matched := prompt.text, promptType := prompt.type.text }
    else s
  { noted with attentionEvent := true }

/-- `_evaluate_expect_locked`. -/
def evaluateExpect (x : Execution) (fuel : ℕ) (step : ExpectStep) : RunnerM Unit := do
  let before ← get
  applyResponses x step
  let s ← get
  if s.status ≠ .running then pure ()
  else do
    -- A count that was there stays in its place, so the counts are equal when their entries are.
    let responded := decide (s.responseCounts.entries ≠ before.responseCounts.entries)
    let prompt := classifyTerminalPrompt s.scanBuffer
    modify fun s => s.forgetAnswered prompt
    let expectedSuccess := firstMatch s.scanBuffer (successTokens step) step.caseSensitive
    match prompt.filter (fun prompt => prompt.type.isInteraction && !responded) with
    | none => evaluateOutcome x fuel step responded expectedSuccess
    | some prompt => do
      let answered ← Method.lift (answeredByPlan x step s.currentStep)
      if answered then completeExpect x fuel step prompt.text
      else if expectedSuccess.isNone then modify fun s => s.requireInteraction x prompt
      else evaluateOutcome x fuel step responded expectedSuccess

/-! ## Stimuli -/

/-- The state in which an execution begins to run. -/
def Runner.begin (x : Execution) (s : Runner) : Runner :=
  { s with
    status := .running
    startedMonotonic := x.clock s.readings
    readings := s.readings + 1 }

/-- `start`. -/
def start (x : Execution) (fuel : ℕ) : RunnerM Unit := do
  let s ← get
  if s.status ≠ .pending then pure ()
  else do
    modify fun s => (s.begin x).recordEvent x { type := "started" }
    schedule x.plan.totalTimeoutSeconds (.total s.stepToken)
    advance x fuel

/-- The state in which a chunk of output has arrived. -/
def Runner.receive (x : Execution) (step : ExpectStep) (result : StepResult) (message : String)
    (s : Runner) : Runner :=
  let output := lastChars (result.output ++ message) step.maxOutputChars
  let noted := { s with
    lastOutputMonotonic := x.clock s.readings
    readings := s.readings + 1
    activeResult := some { result with output := output }
    lastOutput := output }.recordEvent x { type := "output", data := lastChars message 4096 }
  { noted with
    scanBuffer := lastChars (noted.scanBuffer ++ stripTerminalAnsi message) step.maxOutputChars
    interactionPrompt := none }

/-- `on_output`. -/
def onOutput (x : Execution) (fuel : ℕ) (message : String) : RunnerM Unit := do
  let s ← get
  if message = "" ∨ s.status ≠ .running then pure ()
  else match s.currentPlanStep x, s.activeResult with
    | some (.expect step), some result => do
      modify fun s => s.receive x step result message
      evaluateExpect x fuel step
    | _, _ => pure ()

/-- Whether the state of the session ends it. -/
def endsSession (state : String) : Bool :=
  state = "disconnected" || state = "closed" || state = "failed"

/-- The step and the execution end with the session. -/
def Runner.disconnect (x : Execution) (state : String) (s : Runner) : Runner :=
  let message := "终端会话状态变为 " ++ state ++ "。"
  (s.finishActiveStep x .disconnected "" "session_disconnected" message).finish x .disconnected
    "session_disconnected" message

/-- `on_session_state`. -/
def onSessionState (x : Execution) (fuel : ℕ) (state : String) : RunnerM Unit := do
  let normalized := PyLib.casefold (strip state)
  let s ← get
  if s.status ≠ .running then pure ()
  else match s.currentPlanStep x with
    | some (.waitState step) =>
      if normalized = step.state then do
        modify fun s => s.finishActiveStep x .completed normalized "" ""
        branchOrNext x fuel step.maxRetries step.onMatch "match"
      else if endsSession normalized then modify fun s => s.disconnect x normalized
      else pure ()
    | some (.expect step) =>
      if endsSession normalized && step.disconnectIsSuccess then do
        modify fun s => s.finishActiveStep x .completed "disconnected" "" ""
        branchOrNext x fuel step.maxRetries step.onMatch "disconnect"
      else if endsSession normalized then modify fun s => s.disconnect x normalized
      else pure ()
    | _ =>
      if endsSession normalized then modify fun s => s.disconnect x normalized else pure ()

/-- `cancel`. -/
def cancel (x : Execution) (byUser : Bool) : RunnerM Unit :=
  let status := if byUser then ExecutionStatus.cancelledByUser else .cancelled
  let code := if byUser then "cancelled_by_user" else "execution_cancelled"
  let message := if byUser then "用户输入已接管终端。" else "执行已取消。"
  modify fun s =>
    if s.isTerminal then s
    else (s.finishActiveStep x status "" code message).finish x status code message

/-- The prompt that the caller's input answers is taken away. -/
def Runner.takeAnswer (s : Runner) : Runner :=
  { s with
    interactionPrompt := none
    answeredInteractionPrompt := match s.interactionPrompt with
      | some prompt => prompt.text
      | none => s.answeredInteractionPrompt
    attentionEvent := false }

/-- The input that a caller sends, once it has been checked. -/
def sendChecked (x : Execution) (fuel : ℕ) (step : ExpectStep) (control : String)
    (payload : TerminalInput) : RunnerM Unit := do
  modify fun s => { s with matchedPrompt := "" }.recordEvent x
    { type := "manual_input"
      data := if payload.sensitive then "[redacted]" else payload.text
      control := control }
  sendInput payload
  let s ← get
  modify fun s => s.takeAnswer
  match s.interactionPrompt, step.successTarget with
  | some prompt, some _ => completeExpect x fuel step prompt.text
  | _, _ => modify fun s => { s with scanBuffer := "" }

/-- `send_manual_input`. -/
def sendManualInput (x : Execution) (fuel : ℕ) (text control secretRef : String)
    (appendEnter : Bool) : RunnerM Unit := do
  let s ← get
  if s.status ≠ .running then
    throw (.terminalPlan "execution_not_running" "终端执行当前不可接收输入。")
  else match s.currentPlanStep x with
    | some (.expect step) =>
      let normalizedControl := PyLib.casefold (strip control)
      if s.answeredInteractionPrompt ≠ "" then
        throw (.terminalPlan "duplicate_response" "当前交互点已经收到应答。"
          [("prompt", s.answeredInteractionPrompt)])
      else if ([text, normalizedControl, secretRef].filter (· ≠ "")).length ≠ 1 then
        throw (.terminalPlan "invalid_input" "输入必须且只能提供 text、control 或 secret_ref 之一。")
      else if normalizedControl ≠ "" ∧ normalizedControl ∉ controls then
        throw (.terminalPlan "invalid_input" ("不支持的控制键: " ++ normalizedControl))
      else do
        let payload ← inputFor x text normalizedControl secretRef "" "" appendEnter
        if (s.interactionPrompt.any fun prompt => asksForPassword prompt.text) &&
            !payload.sensitive then
          throw (.terminalPlan "secret_required" "密码提示只能使用 secret_ref。")
        else sendChecked x fuel step normalizedControl payload
    | _ => throw (.terminalPlan "input_not_expected" "当前步骤不是等待输入的交互步骤。")

/-- The results without the one of the step that is done again. -/
def Runner.dropInterrupted (s : Runner) : List StepResult :=
  match s.stepResults.getLast? with
  | some last => if last.index = s.currentStep then s.stepResults.dropLast else s.stepResults
  | none => s.stepResults

/-- The state from which `resume` goes on. -/
def Runner.reset (x : Execution) (s : Runner) : Runner :=
  { s with
    stepResults := s.dropInterrupted
    status := .running
    errorCode := ""
    message := ""
    completedMonotonic := 0
    completionEvent := false
    startedMonotonic := x.clock s.readings
    readings := s.readings + 1
    activeResult := none
    scanBuffer := ""
    responseCounts := ∅
    interactionPrompt := none
    answeredInteractionPrompt := ""
    attentionEvent := false
    stepToken := s.stepToken + 1 }

/-- `resume`. -/
def resume (x : Execution) (fuel : ℕ) : RunnerM Unit := do
  let s ← get
  if s.status ≠ .cancelledByUser then
    throw (.terminalPlan "execution_not_resumable" "只有被用户接管的终端执行可以恢复。")
  else do
    modify fun s => (s.reset x).recordEvent x { type := "resumed" }
    schedule x.plan.totalTimeoutSeconds (.total (s.stepToken + 1))
    advance x fuel

/-- `_on_response_retry`. -/
def onResponseRetry (x : Execution) (fuel : ℕ) (token : ℕ) : RunnerM Unit := do
  let s ← get
  if s.status ≠ .running ∨ token ≠ s.stepToken then pure ()
  else match s.currentPlanStep x with
    | some (.expect step) => evaluateExpect x fuel step
    | _ => pure ()

/-- `step.label`. -/
def TerminalStep.label : TerminalStep → String
  | .send step => step.label
  | .expect step => step.label
  | .waitState step => step.label

/-- The code of the error that a step's timeout is. -/
def Runner.timeoutCode (s : Runner) : TerminalStep → String
  | .send _ => "step_timeout"
  | .expect step => if s.interactionPrompt.isSome then "interaction_timeout" else step.timeoutCode
  | .waitState step => step.timeoutCode

/-- The text of a step's timeout. -/
def timeoutMessage (currentStep : ℕ) (label : String) : String :=
  "步骤 " ++ toString currentStep ++ "「" ++
    (if label = "" then toString currentStep else label) ++ "」等待超时。"

/-- The branch that a step has for its timeout. -/
def timeoutBranch (x : Execution) (fuel : ℕ) (step : TerminalStep) : RunnerM Bool :=
  match step.branches? with
  | none => pure false
  | some (_, onFailure, maxRetries) => takeBranch x fuel maxRetries onFailure "timeout"

/-- `_on_step_timeout`. -/
def onStepTimeout (x : Execution) (fuel : ℕ) (token : ℕ) : RunnerM Unit := do
  let s ← get
  if s.status ≠ .running ∨ token ≠ s.stepToken then pure ()
  else match s.currentPlanStep x with
    | none => throw (.python (.attributeError "'NoneType' object has no attribute 'label'"))
    | some step => do
      modify fun s => s.finishActiveStep x .timedOut "" (s.timeoutCode step)
        (timeoutMessage s.currentStep step.label)
      let taken ← timeoutBranch x fuel step
      if taken then pure ()
      else
        modify fun s => s.finish x .timedOut (s.timeoutCode step)
          (timeoutMessage s.currentStep step.label)

/-- `_on_idle_timeout`. -/
def onIdleTimeout (x : Execution) (fuel : ℕ) (token : ℕ) : RunnerM Unit := do
  let s ← get
  if s.status ≠ .running ∨ token ≠ s.stepToken then pure ()
  else match s.currentPlanStep x with
    | some (.expect step) =>
      if step.idleSeconds.lt (.finite 0) || step.idleSeconds.eq (.finite 0) ||
          !s.responseCounts.entries.isEmpty then pure ()
      else do
        modify fun s => { s with readings := s.readings + 1 }
        if (PyFloat.finite (x.clock s.readings - s.lastOutputMonotonic)).lt step.idleSeconds ||
            !(s.activeResult.any fun result => result.output ≠ "") then pure ()
        else do
          modify fun s => s.finishActiveStep x .completed "idle" "" ""
          branchOrNext x fuel step.maxRetries step.onMatch "match"
    | _ => pure ()

/-- `_on_total_timeout`. -/
def onTotalTimeout (x : Execution) (token : ℕ) : RunnerM Unit :=
  modify fun s =>
    if s.status ≠ .running ∨ token > s.stepToken then s
    else (s.finishActiveStep x .timedOut "" "execution_timeout" "终端交互总时限已到。").finish x
      .timedOut "execution_timeout" "终端交互总时限已到。"

/-- What can happen to an execution. -/
inductive Stimulus where
  | start
  | output (message : String)
  | sessionState (state : String)
  | cancel (byUser : Bool)
  | manualInput (text control secretRef : String) (appendEnter : Bool)
  | resume
  /-- A scheduled callback runs, whenever it was scheduled. -/
  | fires (timer : Timer)

/-- The method that a stimulus calls. -/
def handle (x : Execution) (fuel : ℕ) : Stimulus → RunnerM Unit
  | .start => Terminal.start x fuel
  | .output message => onOutput x fuel message
  | .sessionState state => onSessionState x fuel state
  | .cancel byUser => Terminal.cancel x byUser
  | .manualInput text control secretRef appendEnter =>
    sendManualInput x fuel text control secretRef appendEnter
  | .resume => Terminal.resume x fuel
  | .fires (.total token) => onTotalTimeout x token
  | .fires (.step token) => onStepTimeout x fuel token
  | .fires (.idle token) => onIdleTimeout x fuel token
  | .fires (.responseRetry token) => onResponseRetry x fuel token

end

end DeviceShell.Terminal
