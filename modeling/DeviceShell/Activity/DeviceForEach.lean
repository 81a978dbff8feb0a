import DeviceShell.Lib.AsyncLock
import DeviceShell.Lib.Machine
import DeviceShell.Activity.DeviceActivity
import DeviceShell.Framework.TaskInputs

/-!
# Workers over a list of devices

`DeviceForEachActivityHandler.execute` of `application/workflow_plugins/utility.py`. After its checks
it starts so many workers; each takes the next device of the list, waits for the lock of that device
id, runs the body for the device and records a row. The workers share the position in the list, the
rows, the locks and the flag that a failure sets, and change them only between two suspensions.

A worker's `Phase` says at which of its suspensions it stands. What the event loop resumes, and how a
body ends, is the environment (`Input`); a section of a worker then runs up to its next suspension
(`proceed`). `history` records what happened to each device; no part of the handler reads it.
-/

namespace DeviceShell.Activity.DeviceForEach

open Framework

/-- What the checks of `execute` let through. -/
structure Plan where
  devices : List Value
  nonempty : devices ≠ []
  concurrency : ℕ
  bounds : 1 ≤ concurrency ∧ concurrency ≤ 32
  failureStrategy : String
  strategies : failureStrategy = "stop" ∨ failureStrategy = "continue"
  actionId : String
  actionSteps : Value

/-- The outputs of a result without rows. -/
def noRows (devices : List Value) : Dict String Value :=
  ⟨[("devices", .list devices), ("results", .list []), ("count", .int 0), ("succeeded", .int 0),
    ("failed", .int 0), ("status", .str "failed")]⟩

/-- The error of a result. -/
def errorOf (code message : String) : Dict String Value :=
  ⟨[("code", .str code), ("message", .str message), ("class", .str "deterministic")]⟩

/-- A result that a check returns. -/
def refused (outputs : Dict String Value) (code message : String) : ActivityResult :=
  { status := .failed, outputs := outputs, error := some (errorOf code message) }

/-- The checks at the head of `execute`, for a handler with or without a child runner. -/
def prepare [PyLib] (hasRunner : Bool) (inputs : Dict String Value) :
    Except PyError (Except ActivityResult Plan) :=
  match entry inputs "devices" with
  | .list devices =>
    let actionId := strippedEntry inputs "action_id"
    let steps := entry inputs "action_steps"
    if hnonempty : devices = [] then
      .ok (.error (refused (noRows []) "device_list_invalid"
        "device.for_each requires a non-empty devices list"))
    else if (actionId = "" ∧ !steps.truthy) ∨ !hasRunner then
      .ok (.error (refused (noRows devices) "device_action_invalid"
        "device.for_each requires an executable action"))
    else match (inputs.get? "concurrency").getD (.int 1) with
      | .int concurrency =>
        if hbounds : 1 ≤ concurrency ∧ concurrency ≤ 32 then
          match (inputs.get? "failure_strategy").getD (.str "continue") with
          | .str strategy =>
            if hstrategy : strategy = "stop" ∨ strategy = "continue" then
              .ok (.ok ⟨devices, hnonempty, concurrency.toNat, by omega, strategy, hstrategy,
                actionId, steps⟩)
            else
              .ok (.error (refused ∅ "device_failure_strategy_invalid"
                "failure_strategy must be stop or continue"))
          -- A list or a dictionary has no hash.
          | .list _ => .error (.typeError "unhashable type: 'list'")
          | .dict _ => .error (.typeError "unhashable type: 'dict'")
          | _ => .ok (.error (refused ∅ "device_failure_strategy_invalid"
              "failure_strategy must be stop or continue"))
        else
          .ok (.error (refused (noRows devices) "device_concurrency_invalid"
            "concurrency must be an integer between 1 and 32"))
      | _ => .ok (.error (refused (noRows devices) "device_concurrency_invalid"
          "concurrency must be an integer between 1 and 32"))
  | _ => .ok (.error (refused (noRows []) "device_list_invalid"
      "device.for_each requires a non-empty devices list"))

/-- What `run_device` returns: the output for the device, and whether it failed. -/
abbrev Row := Dict String Value × Bool

/-- How the body for a device ends, once it runs. -/
inductive BodyEnd where
  | returned (result : Dict String Value)
  /-- An `Exception`, by its text. -/
  | raised (message : String)
  /-- What is not an `Exception`: the worker is cancelled. -/
  | cancelled

/-- Where a worker stands. -/
inductive Phase where
  | created
  /-- In one of its sections. -/
  | running
  /-- In the queue of a device's lock. -/
  | waiting (index : ℕ)
  /-- With the lock, before `run_device`. -/
  | holding (index : ℕ)
  /-- In `run_device`, with the lease it has acquired. -/
  | inBody (index : ℕ) (lease : Option String)
  | ended (raised : Bool)

/-- What happened to the devices, by their indices. -/
inductive Event where
  | started (index : ℕ)
  | acquired (index : ℕ) (lease : String)
  | released (index : ℕ) (lease : String)
  | recorded (index : ℕ) (failed : Bool)
deriving DecidableEq, Repr

/-- What the workers share, and where each of them stands. -/
structure Workers where
  nextIndex : ℕ := 0
  stopped : Bool := false
  deviceLocks : Dict String AsyncLock := ∅
  rows : Dict ℕ Row := ∅
  phase : ℕ → Phase := fun _ => .created
  history : List Event := []

/-- What the event loop does with a worker. -/
inductive Input where
  | run (n : ℕ)
  | wake (n : ℕ)
  | finish (n : ℕ) (end_ : BodyEnd)
  | cancel (n : ℕ)

/-- The worker that is resumed or cancelled. -/
def Input.worker : Input → ℕ
  | .run n => n
  | .wake n => n
  | .finish n _ => n
  | .cancel n => n

/-- A worker, or the body that it runs, is cancelled. -/
def Input.Cancels : Input → Prop
  | .cancel _ => True
  | .finish _ .cancelled => True
  | _ => False

namespace Workers

/-- A worker goes to another of its points. -/
def goto (s : Workers) (n : ℕ) (phase : Phase) : Workers :=
  { s with phase := Function.update s.phase n phase }

/-- Something happened to a device. -/
def log (s : Workers) (event : Event) : Workers := { s with history := s.history ++ [event] }

/-- `device_locks.setdefault(key, asyncio.Lock())`. -/
def lock (s : Workers) (key : String) : AsyncLock := (s.deviceLocks.get? key).getD {}

/-- A lock changes. -/
def setLock (s : Workers) (key : String) (lock : AsyncLock) : Workers :=
  { s with deviceLocks := s.deviceLocks.set key lock }

end Workers

namespace Plan

section Text

variable [PyLib]

/-- The statuses of a result that failed. -/
def failedStatuses : List String := ["failed", "unknown", "cancelled"]

/-- `str(result.get("execution_status") or result.get("status") or "").casefold() in {...}`. -/
def statusFailed (result : Dict String Value) : Bool :=
  let status := entry result "execution_status"
  let text := if status.truthy then status.pyStr else Value.strOr (result.get? "status") ""
  failedStatuses.contains (PyLib.casefold text)

/-- `child_failed`. -/
def childFailed (result : Dict String Value) : Except PyError Bool :=
  match (result.get? "steps").getD (.dict []) with
  | .dict entries =>
    let stepFailed := entries.any fun e => match e.2 with
      | .dict step => statusFailed ⟨step⟩
      | _ => false
    .ok (stepFailed || statusFailed result)
  | _ => .error (.attributeError "object has no attribute 'values'")

/-- The row of a device whose body raised. -/
def failedRow (deviceId message : String) : Row :=
  (⟨[("device_id", .str deviceId), ("status", .str "failed"), ("execution_status", .str "failed"),
    ("error", .dict [("message", .str message)])]⟩, true)

/-- The row of a device whose body returned. -/
def returnedRow (deviceId : String) (result : Dict String Value) : Row :=
  match childFailed result with
  | .ok failed => ((result.set "device_id" (.str deviceId)).set "execution_status"
      (.str (if failed then "failed" else "succeeded")), failed)
  | .error e => failedRow deviceId e.text

end Text

variable (p : Plan)

/-- `devices[index]`. -/
def device (index : ℕ) : Value := p.devices.getD index .none

/-- The key of a device's lock. -/
def lockKey (index : ℕ) : String :=
  match deviceIdValue (p.device index) with
  | .ok deviceId => deviceId
  | .error _ => "invalid-device-" ++ toString index

/-- How many workers there are. -/
def workerCount : ℕ := min p.concurrency p.devices.length

/-- A device's row is recorded after its lock is given back. -/
def record (n index : ℕ) (row : Row) (s : Workers) : Workers :=
  let s := s.setLock (p.lockKey index) (s.lock (p.lockKey index)).release
  let s := { s with rows := s.rows.set index row }
  let s := { s with stopped := s.stopped || (row.2 && p.failureStrategy == "stop") }
  (s.log (.recorded index row.2)).goto n .running

/-- A worker leaves `async with lock` for good. -/
def leave (n index : ℕ) (raised : Bool) (s : Workers) : Workers :=
  (s.setLock (p.lockKey index) (s.lock (p.lockKey index)).release).goto n (.ended raised)

variable [PyLib] (acquire : Option (ℕ → Except String String))

/-- `run_device` up to the body: the lease it acquired, or the row it returns. `acquire` is what the
resources answer for the device at an index. -/
def begin_ (index : ℕ) : Except Row (Option String) :=
  match deviceIdValue (p.device index) with
  | .error e => .error (failedRow "" e.text)
  | .ok deviceId =>
    if deviceId = "" then .error (failedRow "" "device ID must not be empty")
    else match acquire with
      | none => .ok none
      | some acquire => match acquire index with
        | .ok lease => .ok (some lease)
        | .error message => .error (failedRow deviceId message)

/-- A worker with the lock of its device. -/
def enter (n index : ℕ) (s : Workers) : Workers :=
  if s.stopped then p.leave n index false s
  else
    let s := (s.log (.started index)).goto n (.inBody index none)
    match p.begin_ acquire index with
    | .error row => p.record n index row s
    | .ok none => s
    | .ok (some lease) => (s.log (.acquired index lease)).goto n (.inBody index (some lease))

/-- A worker takes the next device and asks for its lock. -/
def take (n : ℕ) (s : Workers) : Workers :=
  let index := s.nextIndex
  let (lock, taken) := (s.lock (p.lockKey index)).acquire n
  let s := { s with nextIndex := index + 1 }
  (s.setLock (p.lockKey index) lock).goto n (if taken then .holding index else .waiting index)

/-- A section of a worker from where it stands, with so many devices left to take. -/
def proceedFrom (n : ℕ) : ℕ → Workers → Workers
  | 0, s => s.goto n (.ended false)
  | left + 1, s =>
    if s.stopped then s.goto n (.ended false)
    else
      let s := p.take n s
      match s.phase n with
      | .holding index =>
        let s := p.enter acquire n index s
        -- The body did not suspend: its row is recorded, and the loop goes on.
        match s.phase n with
        | .running => proceedFrom n left s
        | _ => s
      | _ => s

/-- `while not stopped and next_index < len(devices)`, up to the next suspension. -/
def proceed (n : ℕ) (s : Workers) : Workers :=
  match s.phase n with
  | .running => p.proceedFrom acquire n (p.devices.length - s.nextIndex) s
  | _ => s

/-- The lease of a body is given back. -/
def releaseLease (index : ℕ) (lease : Option String) (s : Workers) : Workers :=
  match lease with
  | none => s
  | some lease => s.log (.released index lease)

/-- A body ends. -/
def finish (n index : ℕ) (lease : Option String) (end_ : BodyEnd) (s : Workers) : Workers :=
  let s := releaseLease index lease s
  match end_ with
  | .returned result => p.record n index (returnedRow (p.lockKey index) result) s
  | .raised message => p.record n index (failedRow (p.lockKey index) message) s
  | .cancelled => p.leave n index true s

/-- The event loop can do this with the worker. -/
def Enabled (s : Workers) : Input → Prop
  | .run n => n < p.workerCount ∧ s.phase n = .created
  | .wake n => ∃ index, s.phase n = .waiting index ∧ (s.lock (p.lockKey index)).Resumes n
  | .finish n _ => ∃ index lease, s.phase n = .inBody index lease
  | .cancel n => (n < p.workerCount ∧ s.phase n = .created) ∨ ∃ index, s.phase n = .waiting index

/-- What the event loop does with a worker, and the section that follows. -/
def step (s : Workers) : Input → Workers
  | .run n => match s.phase n with
    | .created => if n < p.workerCount then p.proceed acquire n (s.goto n .running) else s
    | _ => s
  | .wake n => match s.phase n with
    | .waiting index =>
      if (s.lock (p.lockKey index)).Resumes n then
        let s := s.setLock (p.lockKey index) (s.lock (p.lockKey index)).resume
        p.proceed acquire n (p.enter acquire n index (s.goto n (.holding index)))
      else s
    | _ => s
  | .finish n end_ => match s.phase n with
    | .inBody index lease => p.proceed acquire n (p.finish n index lease end_ s)
    | _ => s
  | .cancel n => match s.phase n with
    | .created => if n < p.workerCount then s.goto n (.ended true) else s
    | .waiting index =>
      (s.setLock (p.lockKey index) ((s.lock (p.lockKey index)).cancel n)).goto n (.ended true)
    | _ => s

/-- How `execute` stands: its workers have not all ended, or it raises, or it returns. -/
inductive Outcome where
  | pending
  | raised
  | returned (result : ActivityResult)

/-- `results`. -/
def results (s : Workers) : List (Dict String Value) :=
  (s.rows.entries.mergeSort fun a b => a.1 ≤ b.1).map fun e => e.2.1

/-- `failed`. -/
def failedCount (s : Workers) : ℕ := (s.rows.values.filter (·.2)).length

/-- The result of `execute` from the rows. -/
def resultOf (s : Workers) : ActivityResult :=
  let results := results s
  let failed := failedCount s
  let stop := failed ≠ 0 ∧ p.failureStrategy = "stop"
  { status := if stop then .failed else .succeeded
    outputs := ⟨[("devices", .list p.devices), ("results", .list (results.map .ofDict)),
      ("count", .int results.length), ("succeeded", .int (results.length - failed)),
      ("failed", .int failed),
      ("status", .str (if failed ≠ 0 then "partial_failure" else "completed"))]⟩
    error := if stop then some (errorOf "device_child_failed" "device iteration failed")
      else none }

/-- Whether a worker has ended, and whether by raising. -/
def hasEnded : Phase → Bool
  | .ended _ => true
  | _ => false

/-- Whether a worker has raised. -/
def hasRaised : Phase → Bool
  | .ended raised => raised
  | _ => false

/-- What `execute` makes of its workers. -/
def outcome (s : Workers) : Outcome :=
  if (List.range p.workerCount).all fun n => hasEnded (s.phase n) then
    if (List.range p.workerCount).any fun n => hasRaised (s.phase n) then .raised
    else .returned (p.resultOf s)
  else .pending

/-- The workers after a run. -/
def run (inputs : List Input) : Workers := Machine.run (p.step acquire) {} inputs

end Plan

/-- `execute`, on what the event loop has done so far. -/
def execute [PyLib] (hasRunner : Bool) (inputs : Dict String Value)
    (acquire : Option (ℕ → Except String String)) (sofar : List Input) :
    Except PyError Plan.Outcome := do
  match ← prepare hasRunner inputs with
  | .error result => return .returned result
  | .ok p => return p.outcome (p.run acquire sofar)

end DeviceShell.Activity.DeviceForEach
