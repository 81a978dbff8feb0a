import DeviceShell.Lib.Machine
import DeviceShell.Lib.ObjectHeap
import DeviceShell.Lib.PyLib

/-!
# The results of the AI service

`AiApplicationService` keeps the payload of every execution under a result id, and under an
idempotency key for a call that names one. Payloads are copied, but only at the top: the dictionaries
of a batch's commands are the same objects in the stored payload, in the response and in the cached
copy. `get_result` without the raw output takes the outputs out of those.
-/

namespace DeviceShell.Ai

/-! ## The store -/

/-- The service, as far as results go. -/
structure ResultStore where
  heap : ObjectHeap := []
  /-- `self._results`: payloads by result id and by idempotency key. -/
  results : Dict String ℕ := ∅

namespace ResultStore

/-- A new object, and its place. -/
def alloc (s : ResultStore) (o : Object) : ResultStore × ℕ :=
  ({ s with heap := s.heap.alloc o }, s.heap.length)

/-- A fresh result id, from the digits of `uuid4`. -/
def resultId (hex : String) : String := "ai-" ++ hex

/-- The key of a cached response. -/
def idemKey (source kind key : String) : String :=
  "idem:" ++ source ++ ":" ++ kind ++ ":" ++ key

/-- A text as it is held. -/
def text (s : String) : Slot := .plain (.str s)

/-- `_store_result`: the payload is stored, and a copy of it returned. -/
def storeResult (s : ResultStore) (hex kind : String) (data : Dict String Slot) :
    ResultStore × ℕ :=
  let payload := (⟨[("ok", .plain (.bool true)), ("result_id", text (resultId hex)),
    ("kind", text kind)]⟩ : Dict String Slot).merge data
  let (s, n) := s.alloc (.dict payload)
  { s with results := s.results.set (resultId hex) n }.alloc (.dict payload)

/-- `_cached`: a copy of the response, if there is one. -/
def cached (s : ResultStore) (source kind key : String) : Option (ResultStore × ℕ) :=
  if key = "" then none
  else match (s.results.get? (idemKey source kind key)).bind s.heap.dict? with
    | some d => if d.entries = [] then none else some (s.alloc (.dict d))
    | none => none

/-- `_cache`: a copy of the response is kept. -/
def cache (s : ResultStore) (source kind key : String) (n : ℕ) : ResultStore :=
  if key = "" then s
  else match s.heap.dict? n with
    | some d =>
      let (s, m) := s.alloc (.dict d)
      { s with results := s.results.set (idemKey source kind key) m }
    | none => s

/-- The items of the results of a payload. -/
def items (s : ResultStore) (payload : Dict String Slot) : List Slot :=
  match payload.get? "results" with
  | some (.ref n) => (s.heap.list? n).getD []
  | _ => []

/-- `item.pop("output", None)` of every item that is a dictionary. -/
def popOutputs (h : ObjectHeap) (items : List Slot) : ObjectHeap :=
  items.foldl (fun h item => match item with
    | .ref n => h.pop n "output"
    | .plain _ => h) h

/-- `get_result`; `none` for an id that is unknown. -/
def getResult (s : ResultStore) (id : String) (includeRaw : Bool) : Option (ResultStore × ℕ) :=
  match (s.results.get? id).bind s.heap.dict? with
  | none => none
  | some payload =>
    if includeRaw then some (s.alloc (.dict payload))
    else some ({ s with heap := popOutputs s.heap (s.items payload) }.alloc
      (.dict (payload.erase "output")))

/-! ## What is stored -/

/-- The data of a command's result. -/
def commandData (sessionId deviceId command output : String) : Dict String Slot :=
  ⟨[("status", text "success"), ("session_id", text sessionId), ("device_id", text deviceId),
    ("command", text command), ("output", text output)]⟩

/-- What the execution of a batch says of one of its commands. -/
structure CommandRow where
  hex : String
  status : String
  command : String
  output : String
  errorCode : String := ""

/-- The data of the result of a batch's command. -/
def rowData (sessionId deviceId : String) (index : ℕ) (row : CommandRow) : Dict String Slot :=
  ⟨[("status", text row.status), ("session_id", text sessionId), ("device_id", text deviceId),
    ("command", text row.command), ("output", text row.output), ("step_index", .plain (.int index)),
    ("error_code", text row.errorCode)]⟩

/-- What the execution of a batch says. -/
structure BatchRow where
  hex : String
  status : String
  sessionId : String
  deviceId : String
  executionId : String := ""
  rows : List CommandRow
  commandCount : ℕ
  steps : Value := .list []
  output : String := ""
  timeoutSeconds : ℤ := 30
  durationMs : Value := .int 0
  errorCode : String := ""
  message : String := ""

/-- The data of a batch's result. -/
def batchData (row : BatchRow) (results : ℕ) : Dict String Slot :=
  ⟨[("status", text row.status), ("session_id", text row.sessionId), ("device_id", text row.deviceId),
    ("execution_id", text row.executionId), ("results", .ref results), ("steps", .plain row.steps),
    ("output", text row.output), ("command_count", .plain (.int row.commandCount)),
    ("timeout_seconds", .plain (.int row.timeoutSeconds)), ("duration_ms", .plain row.durationMs),
    ("error_code", text row.errorCode), ("message", text row.message)]⟩

/-- What the steps of a skill come to. -/
structure SkillRow where
  hex : String
  status : String
  sessionId : String
  deviceId : String
  skillName : String
  steps : List Value

/-- The data of a skill's result. -/
def skillData (row : SkillRow) : Dict String Slot :=
  ⟨[("status", text row.status), ("session_id", text row.sessionId), ("device_id", text row.deviceId),
    ("skill_name", text row.skillName), ("steps", .plain (.list row.steps)),
    ("command_count", .plain (.int row.steps.length))]⟩

/-- The results of a batch's commands, from the first index on, and their places. -/
def storeRows (sessionId deviceId : String) : ResultStore → ℕ → List CommandRow →
    ResultStore × List ℕ
  | s, _, [] => (s, [])
  | s, index, row :: rows =>
    let (s, n) := s.storeResult row.hex "command" (rowData sessionId deviceId index row)
    let (s, ns) := storeRows sessionId deviceId s (index + 1) rows
    (s, n :: ns)

/-- An execution that has finished. -/
inductive Finished where
  | command (hex sessionId deviceId command output : String)
  | batch (row : BatchRow)
  | skill (row : SkillRow)

/-- The kind of a call. -/
def Finished.kind : Finished → String
  | .command .. => "command"
  | .batch _ => "batch"
  | .skill _ => "skill"

/-- The digits of the ids that the results get. -/
def Finished.hexes : Finished → List String
  | .command hex .. => [hex]
  | .batch row => row.rows.map CommandRow.hex ++ [row.hex]
  | .skill row => [row.hex]

/-- The end of `execute_command`, `execute_batch` and `run_skill`: the result is stored. -/
def store (s : ResultStore) : Finished → ResultStore × ℕ
  | .command hex sessionId deviceId command output =>
    s.storeResult hex "command" (commandData sessionId deviceId command output)
  | .batch row =>
    let (s, ns) := storeRows row.sessionId row.deviceId s 0 row.rows
    let (s, results) := s.alloc (.list (ns.map Slot.ref))
    s.storeResult row.hex "batch" (batchData row results)
  | .skill row => s.storeResult row.hex "skill" (skillData row)

/-- What a request of `execute_parallel_batches` came to: a response, or an error. -/
inductive ParallelOutcome where
  | response (n : ℕ)
  | failed (error : String)

/-- The response of an outcome. -/
def ParallelOutcome.response? : ParallelOutcome → Option ℕ
  | .response n => some n
  | .failed _ => none

/-- The item of a request. -/
def parallelItem (h : ObjectHeap) (index : ℕ) : ParallelOutcome → Dict String Slot
  | .response n => ⟨[("index", .plain (.int index)),
      ("status", ((h.dict? n).bind fun d => d.get? "status").getD (text "failed")),
      ("result", .ref n)]⟩
  | .failed error => ⟨[("index", .plain (.int index)), ("status", text "failed"),
      ("error", text error)]⟩

/-- Whether an item's status is success. -/
def succeeded (item : Dict String Slot) : Bool :=
  match item.get? "status" with
  | some (.plain v) => v.pyEq (.str "success")
  | _ => false

/-- The items of a parallel execution, from the first index on, and their places. -/
def allocItems : ResultStore → List (Dict String Slot) → ResultStore × List ℕ
  | s, [] => (s, [])
  | s, item :: items =>
    let (s, n) := s.alloc (.dict item)
    let (s, ns) := allocItems s items
    (s, n :: ns)

/-- The data of a parallel execution's result. -/
def parallelData (items : List (Dict String Slot)) (results : ℕ) : Dict String Slot :=
  let completed := (items.filter succeeded).length
  let status := if completed = items.length then "success"
    else if completed ≠ 0 then "partial" else "failed"
  ⟨[("status", text status), ("request_count", .plain (.int items.length)),
    ("completed_count", .plain (.int completed)),
    ("failed_count", .plain (.int (items.length - completed))), ("results", .ref results)]⟩

/-- The end of `execute_parallel_batches`. -/
def storeParallel (s : ResultStore) (hex : String) (outcomes : List ParallelOutcome) :
    ResultStore × ℕ :=
  let items := outcomes.zipIdx.map fun p => parallelItem s.heap p.2 p.1
  let (s, ns) := s.allocItems items
  let (s, results) := s.alloc (.list (ns.map Slot.ref))
  s.storeResult hex "parallel_batch" (parallelData items results)

end ResultStore

end DeviceShell.Ai
