import DeviceShell.Terminal.PlanParser

/-!
# Terminal requests of device activities

What `DeviceActivityHandler` and `DeviceExecutionTool` make of the inputs of a terminal activity:
the `CommandRequest` that they hand to `DeviceControlService.execute`, the terminal plan that it
becomes there, and the texts that the plan may write to the device.
-/

namespace DeviceShell.Activity

open Terminal

/-- `CommandRequest`, without the fields that no activity sets. -/
structure CommandRequest where
  commands : List String := []
  mode : String := "batch"
  timeoutSeconds : ℤ := 30
  totalTimeoutSeconds : Value := .none
  maxOutputChars : ℤ := 16384
  steps : List (Dict String Value) := []

/-- What the execution of an action asks the device control to do with a terminal. -/
inductive TerminalRequest where
  /-- `send_raw` of a control key. -/
  | controlKey (byte : ℕ)
  | execute (request : CommandRequest)

/-- What refuses a request. -/
inductive RequestError where
  /-- `UnsupportedOperationError`, with the code of the plan error it stands for. -/
  | unsupported (message : String) (code : Option String)
  | python (e : PyError)

/-- An operation of Python's own. -/
def RequestError.lift {α : Type} : Except PyError α → Except RequestError α
  | .ok a => .ok a
  | .error e => .error (.python e)

variable [PyLib]

/-- The parameters of `DeviceActivityHandler.execute`. -/
def activityParams (inputs : Dict String Value) : Dict String Value :=
  let params := ((inputs.get? "params").bind Value.asDict?).getD inputs
  params.filterKeys fun key => ! ["device_id", "session_id", "protocol", "params"].contains key

/-- The activities among `_EXECUTION_ACTIONS` that write command lines of their inputs. -/
def executionAction (activityId : String) : Option String :=
  if activityId = "terminal.command" then some "command"
  else if activityId = "terminal.batch" then some "batch"
  else if activityId = "device.verify_version" then some "verify_version"
  else if activityId = "device.info" then some "verify_version"
  else none

/-- `control_key_byte`. -/
def controlKeyByte (controlKey : String) : Option ℕ :=
  match (PyLib.upper (strip controlKey)).toList.filter (· ≠ ' ') with
  | ['C', 'T', 'R', 'L', '+', c] =>
    if 'A' ≤ c ∧ c ≤ 'Z' then some (c.toNat - 'A'.toNat + 1) else none
  | _ => none

/-- The commands of an action: the list under `commands`, or else one command. -/
def requestCommands (params : Dict String Value) (default : String) : List String :=
  match params.get? "commands" with
  | some (.list items) => items.map Value.pyStr
  | _ => [Value.strOr (params.get? "command") default]

/-- The `CommandRequest` of an action. -/
def commandRequest (params : Dict String Value) (commands : List String) (mode : String) :
    Except RequestError CommandRequest := RequestError.lift do
  let positive (key : String) (default : ℤ) : Except PyError ℤ :=
    (((params.get? key).filter Value.truthy).getD (.int default)).toInt
  let timeout ← positive "timeout_seconds" 30
  let limit ← positive "max_output_chars" 16384
  let steps ← ((params.get? "steps").getD (.list [])).iter
  return {
    commands := commands
    mode := mode
    timeoutSeconds := timeout
    totalTimeoutSeconds := (params.get? "total_timeout_seconds").getD .none
    maxOutputChars := limit
    steps := steps.filterMap Value.asDict? }

/-- `DeviceExecutionTool.execute` up to the device control, for the actions that write commands. -/
def terminalRequest (action : String) (params : Dict String Value) :
    Except RequestError TerminalRequest := do
  if action = "verify_version" then
    return .execute (← commandRequest params (requestCommands params "display version")
      (Value.strOr (params.get? "mode") "batch"))
  let mode := PyLib.casefold (Value.strOr (params.get? "mode") "batch")
  let commands := requestCommands params ""
  match commands with
  | [command] => match controlKeyByte command with
    | some byte => return .controlKey byte
    | none => pure ()
  | _ => pure ()
  if mode ≠ "interactive" ∧ commands.all isBlank then
    throw (.unsupported "Command execution requires a non-empty command." none)
  return .execute (← commandRequest params commands mode)

/-- The plan of `DeviceControlService.execute`. -/
def CommandRequest.plan (request : CommandRequest) :
    Except RequestError TerminalExecutionPlan := do
  let parsed ←
    if PyLib.casefold request.mode = "interactive" then
      if request.steps.isEmpty then
        throw (.unsupported "Interactive execution requires steps." none)
      else pure (parseTerminalPlan (.list (request.steps.map Value.ofDict))
        (if request.totalTimeoutSeconds.truthy then request.totalTimeoutSeconds else .int 60))
    else if request.commands.isEmpty then
      throw (.unsupported "Command execution requires at least one command." none)
    else pure (buildBatchPlan request.commands (.int request.timeoutSeconds)
      request.totalTimeoutSeconds (.int request.maxOutputChars) "" [])
  match parsed with
  | .ok plan => return plan
  | .error (.terminalPlan code message) => throw (.unsupported message (some code))
  | .error (.python e) => throw (.python e)

/-! ## What a plan writes -/

/-- The texts that an input of a plan writes, a control key being none. `secret` gives the secrets
that references stand for. -/
def inputTexts (secret : String → String) (text control secretRef before after : String) :
    List String :=
  if control ≠ "" then []
  else if secretRef ≠ "" then [before ++ secret secretRef ++ after]
  else [text]

/-- The texts that a step may write. -/
def stepTexts (secret : String → String) : TerminalStep → List String
  | .send step => inputTexts secret step.text step.control step.secretRef step.secretPrefix
      step.secretSuffix
  | .expect step => step.responses.flatMap fun rule =>
      inputTexts secret rule.text rule.control rule.secretRef "" ""
  | .waitState _ => []

/-- The texts that an activity may write to the device, given its inputs. -/
def activityTexts (secret : String → String) (activityId : String) (inputs : Dict String Value) :
    List String :=
  match executionAction activityId with
  | none => []
  | some action => match terminalRequest action (activityParams inputs) with
    | .ok (.execute request) => match request.plan with
      | .ok plan => plan.steps.flatMap (stepTexts secret)
      | .error _ => []
    | _ => []

end DeviceShell.Activity
