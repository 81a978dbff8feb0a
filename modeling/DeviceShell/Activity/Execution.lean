import DeviceShell.Huawei.Parsers

/-!
# The execution of a device's operations

`DeviceExecutionTool.execute` for the operations of an upgrade that this development follows: the
verification of the startup package, the reboot and a plain command. What the terminal does is a
`CommandResult` or an exception of the device control, which is the environment; the tool turns it
into the data of the operation or raises.
-/

namespace DeviceShell.Activity

open Huawei

/-- `DeviceWorkflowExecutionError`. -/
structure ExecutionError where
  code : String
  message : String
  errorClass : String := "unknown"
  retryable : Bool := false
  details : Dict String Value := ∅

/-- What an operation of the device raises. -/
inductive DeviceException where
  | workflow (error : ExecutionError)
  | other (message : String)

/-- `CommandResult`. -/
structure CommandResult where
  status : String
  output : String := ""
  errorCode : String := ""
  executionId : String := ""
  durationMs : ℤ := 0
  steps : List (Dict String Value) := []
  data : Dict String Value := ∅

variable [PyLib]

/-- `str(value).casefold() in {...}` of a command's status. -/
def statusSucceeded (status : String) : Bool :=
  ["success", "succeeded", "completed", "ok"].contains (PyLib.casefold status)

/-- `_raise_for_failed_result`. -/
def raiseForFailedResult (status errorCode message : String) : Except DeviceException Unit :=
  if statusSucceeded status then .ok ()
  else
    let code := if errorCode ≠ "" then errorCode
      else if status ≠ "" then status else "device_operation_failed"
    let folded := PyLib.casefold message
    let timeout := occursIn "timeout" (PyLib.casefold code) || occursIn "timeout" folded
    let humanReview := occursIn "unknown command" folded ||
      occursIn "unrecognized command" folded || PyLib.casefold code == "terminal_failure"
    .error (.workflow {
      code := code
      message := message
      errorClass := if timeout then "deterministic" else if humanReview then "ambiguous"
        else "unknown"
      retryable := timeout })

/-- `result.output or default`. -/
def outputOr (result : CommandResult) (default : String) : String :=
  if result.output ≠ "" then result.output else default

/-- The evidence of a terminal execution. -/
def terminalEvidence (result : CommandResult) : Value :=
  .list [.dict [("kind", .str "terminal_execution"), ("execution_id", .str result.executionId),
    ("steps", .list (result.steps.map .ofDict))]]

/-- The data of a command that succeeded. -/
def commandData (result : CommandResult) : Dict String Value :=
  ((((result.data.set "output" (.str result.output)).set "status" (.str result.status)).set
    "execution_id" (.str result.executionId)).set "duration_ms" (.int result.durationMs)).set
      "evidence" (terminalEvidence result)

/-- `execute` for a plain command. -/
def executeCommand (result : CommandResult) : Except DeviceException (Dict String Value) := do
  raiseForFailedResult result.status result.errorCode (outputOr result "Device command failed.")
  return commandData result

/-- `execute` for `verify_version`, with the `fact` and the expected value of its parameters. The
device's command profile is the vendor's. -/
def executeVerifyVersion (fact expected : String) (result : CommandResult) :
    Except DeviceException (Dict String Value) := do
  raiseForFailedResult result.status result.errorCode (outputOr result "Device command failed.")
  if fact = "startup_package" then
    if expected ≠ "" ∧ !startupUsesPackage result.output expected then
      .error (.workflow {
        code := "version_mismatch"
        message := "Expected startup package " ++ PyLib.repr (.str expected) ++
          " was not observed in display startup." })
    else return commandData result
  else if expected ≠ "" ∧ !occursIn expected result.output then
    .error (.workflow {
      code := "version_mismatch"
      message := "Expected version " ++ PyLib.repr (.str expected) ++ " was not observed." })
  else return commandData result

/-- A step of the terminal matched the loss of the connection. -/
def sawDisconnect (steps : List (Dict String Value)) : Bool :=
  steps.any fun step => PyLib.casefold (Value.strOr (step.get? "matched") "") == "disconnected"

/-- `DeviceControlService.reboot`: the terminal's result with the two facts of the reboot. -/
def controlReboot (result : CommandResult) : CommandResult :=
  { result with
    data := (result.data.set "reboot_command_sent" (.bool (result.steps.any fun step =>
        Value.strOr (step.get? "type") "" == "send" &&
          Value.strOr (step.get? "status") "" == "completed"))).set
      "reboot_disconnect_observed" (.bool (sawDisconnect result.steps)) }

/-- `execute` for `reboot`, on what the device control returns. -/
def executeReboot (result : CommandResult) : Except DeviceException (Dict String Value) :=
  if sawDisconnect result.steps ∧ !statusSucceeded result.status then
    -- The transport may report a timeout after the disconnect; the device is rebooting.
    .ok (((((result.data.set "reboot_command_sent" (.bool true)).set "reboot_disconnect_observed"
      (.bool true)).set "status" (.str "completed")).set "execution_id"
        (.str result.executionId)).set "evidence" (terminalEvidence result))
  else do
    raiseForFailedResult result.status result.errorCode (outputOr result "Reboot failed.")
    return result.data

/-- A verification of the startup package that returns has read an output that the package
matches. -/
theorem startupUsesPackage_of_executeVerifyVersion {expected : String} {result : CommandResult}
    {data : Dict String Value} (hexpected : expected ≠ "")
    (h : executeVerifyVersion "startup_package" expected result = .ok data) :
    startupUsesPackage result.output expected = true := by
  unfold executeVerifyVersion at h
  rw [Except.bind_eq_ok] at h
  obtain ⟨-, -, h⟩ := h
  rw [if_pos rfl] at h
  by_cases hmatch : startupUsesPackage result.output expected = true
  · exact hmatch
  · rw [if_pos ⟨hexpected, by simpa using hmatch⟩] at h
    cases h

end DeviceShell.Activity
