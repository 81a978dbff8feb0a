import DeviceShell.Lib.Pool
import DeviceShell.Lib.PyLib
import DeviceShell.Lib.Text

/-!
# Idempotency keys

`DesktopMcpService.invoke` and `AiApplicationService.execute_command` and `execute_batch`, as far as
their caches are concerned. Each looks its key up, and when nothing is there it awaits its work and
fills the cache afterwards. So a key means at most once exactly while no call looks a key up that
another call is working on. A response is a dictionary whose list `results` is shared by all its
copies, and `get_result` takes the outputs out of that list in place; a payload therefore names the
list by the number of a cell. In every run without such an overlap, and without outputs taken out of
a response that a call was answered with, a key means at most once (`atMostOnce`).
-/

namespace DeviceShell.Gateway

/-! ## Caches -/

/-- A key of one of the two caches. -/
inductive CacheKey where
  /-- A key of `DesktopMcpService._idempotency`. -/
  | tool (text : String)
  /-- A key of `AiApplicationService._results` that `_cache` writes. -/
  | ai (text : String)
deriving DecidableEq, Repr

/-- A payload of `_store_result`. -/
structure Payload where
  resultId : String
  kind : String
  fields : Dict String Value
  /-- The list under `results`, when there is one. -/
  cell : Option ℕ := none

/-- What a cache holds. -/
inductive Held where
  | payload (p : Payload)
  | value (v : Value)

/-- The list that is shared with what a cache holds. -/
def Held.cell : Held → Option ℕ
  | .payload p => p.cell
  | .value _ => none

/-- A response as its caller sees it: with what the shared list contains at that time. -/
structure Shown where
  held : Held
  items : List (Dict String Value)

/-- A call succeeded under a key. `replayed` says that it found the response in the cache. -/
structure Answer where
  call : ℕ
  key : CacheKey
  shown : Shown
  replayed : Bool

/-- What spoils the meaning of a key. -/
inductive Slip where
  /-- A key was looked up in vain while another call worked on it. -/
  | overlapped (key : CacheKey)
  /-- Outputs were taken out of a response that a call was answered with. -/
  | stripped (cell : ℕ)
deriving DecidableEq, Repr

/-- The caches of the two services. The last three fields record what happens; no method reads
them. -/
structure GatewayState where
  /-- `DesktopMcpService._idempotency`. -/
  idempotency : Dict String Held := ∅
  /-- `AiApplicationService._results`. -/
  results : Dict String Payload := ∅
  cells : Dict ℕ (List (Dict String Value)) := ∅
  /-- The number of results stored so far. -/
  stored : ℕ := 0
  /-- The calls that work under a key. -/
  inFlight : List (ℕ × CacheKey) := []
  answers : List Answer := []
  slips : List Slip := []

/-- What a cache holds under a key. -/
def GatewayState.cached (s : GatewayState) : CacheKey → Option Held
  | .tool text => s.idempotency.get? text
  | .ai text => (s.results.get? text).map .payload

/-- Writes a cache. Only payloads are written to the results. -/
def GatewayState.fill (s : GatewayState) : CacheKey → Held → GatewayState
  | .tool text, held => { s with idempotency := s.idempotency.set text held }
  | .ai text, .payload p => { s with results := s.results.set text p }
  | .ai _, .value _ => s

/-- A response as it is now. -/
def GatewayState.shown (s : GatewayState) (held : Held) : Shown :=
  ⟨held, (held.cell.bind s.cells.get?).getD []⟩

/-! ## Calls -/

/-- How a call ends without success. -/
inductive Fault where
  | raised (message : String)
  | cancelled

/-- A session, as far as a call reads it. -/
structure SessionRef where
  id : String
  deviceId : String

/-- What a call awaits. -/
inductive GatewayAwait where
  /-- A session for the call's target. -/
  | session
  /-- `control.send_raw`. -/
  | sendRaw (sessionId command : String)
  /-- The output that a command has left in the session's log. -/
  | output (sessionId : String)
  /-- `run_terminal_batch`. -/
  | execute (sessionId : String) (commands : List String)
  /-- The handler of another tool. -/
  | tool (handler : String) (params : Dict String Value)

/-- What is answered. -/
abbrev GatewayReply : GatewayAwait → Type
  | .session => Except Fault SessionRef
  | .sendRaw _ _ => Except Fault Unit
  | .output _ => Except Fault String
  | .execute _ _ => Except Fault (Dict String Value)
  | .tool _ _ => Except Fault Value

/-- A call. -/
abbrev Call (α : Type) := Co GatewayState GatewayAwait GatewayReply Fault α

/-- A call is answered under a key. -/
def GatewayState.answer (call : ℕ) (key : CacheKey) (held : Held) (replayed : Bool)
    (s : GatewayState) : GatewayState :=
  { s with answers := ⟨call, key, s.shown held, replayed⟩ :: s.answers }

/-- Looks a key up; a key that is not there is worked on from then on. -/
def lookup (call : ℕ) (key : CacheKey) : Call (Option Held) := do
  match ← Co.read (·.cached key) with
  | some held => do
    Co.modify (·.answer call key held true)
    return some held
  | none => do
    Co.modify fun s => { s with
      inFlight := (call, key) :: s.inFlight
      slips := if s.inFlight.any (·.2 = key) then .overlapped key :: s.slips else s.slips }
    return none

/-- A call no longer works under a key. -/
def leave (call : ℕ) (key : CacheKey) (s : GatewayState) : GatewayState :=
  { s with inFlight := s.inFlight.filter (· ≠ (call, key)) }

/-- Fills a cache with the response that the call is answered with. -/
def finish (call : ℕ) (key : CacheKey) (held : Held) : Call Unit :=
  Co.modify fun s => (leave call key (s.fill key held)).answer call key held false

/-- A method with a key: the cached response, or else what `work` returns. Without a key nothing is
cached. -/
def keyed (call : ℕ) (key : Option CacheKey) (work : Call Held) : Call Held :=
  match key with
  | none => work
  | some key => do
    match ← lookup call key with
    | some held => return held
    | none => do
      let held ← work.tryCatch fun e => do
        Co.modify (leave call key)
        Co.raise e
      finish call key held
      return held

/-- The payload that is stored as the `n`-th result. -/
def newPayload (n : ℕ) (kind : String) (fields : Dict String Value)
    (items : Option (List (Dict String Value))) : Payload where
  resultId := "ai-" ++ toString n
  kind := kind
  fields := fields
  cell := items.map fun _ => n

/-- Stores a payload with its list. -/
def GatewayState.store (p : Payload) (items : Option (List (Dict String Value)))
    (s : GatewayState) : GatewayState :=
  { s with
    results := s.results.set p.resultId p
    cells := match items with
      | some items => s.cells.set s.stored items
      | none => s.cells
    stored := s.stored + 1 }

/-- `_store_result`, with the list under `results` when there is one. -/
def storeResult (kind : String) (fields : Dict String Value)
    (items : Option (List (Dict String Value))) : Call Payload := do
  let n ← Co.read (·.stored)
  Co.modify (·.store (newPayload n kind fields items) items)
  return newPayload n kind fields items

/-- The cache key of `_cached` and `_cache`. -/
def aiKey (source kind : String) (key : Option String) : Option CacheKey :=
  (key.filter (· ≠ "")).map fun key => .ai ("idem:" ++ source ++ ":" ++ kind ++ ":" ++ key)

/-- The payload as a dictionary, without its list. -/
def Payload.entries (p : Payload) : Dict String Value :=
  (⟨[("ok", .bool true), ("result_id", .str p.resultId), ("kind", .str p.kind)]⟩ :
    Dict String Value).merge p.fields

section

variable [PyLib] (redactText : String → String)

/-- The last characters of a text. -/
def lastChars (n : ℕ) (s : String) : String :=
  String.ofList (s.toList.drop (s.length - n))

/-- `AiApplicationService.execute_command`. -/
def executeCommand (call : ℕ) (command source : String) (key : Option String) : Call Held := do
  let normalized := strip command
  if normalized = "" then Co.raise (.raised "A command is required.")
  else do
    let session ← Co.lift (← Co.awaiting .session)
    keyed call (aiKey source "command" key) do
      Co.lift (← Co.awaiting (.sendRaw session.id normalized))
      let output ← Co.lift (← Co.awaiting (.output session.id))
      return .payload (← storeResult "command" ⟨[("status", .str "success"),
        ("session_id", .str session.id), ("device_id", .str session.deviceId),
        ("command", .str (redactText normalized)),
        ("output", .str (redactText (lastChars 32768 output)))]⟩ none)

/-- The entry of a step in the list `results` of a batch. -/
def stepFields (session : SessionRef) (executionStatus : String) (steps : List Value)
    (index : ℕ) (command : String) : Dict String Value :=
  let step : Dict String Value := (steps[index * 2 + 1]?.bind Value.asDict?).getD ∅
  let status := if (step.get? "status").any fun v => v.pyEq (.str "completed") then "success"
    else Value.strOr (step.get? "status") executionStatus
  ⟨[("status", .str status), ("session_id", .str session.id),
    ("device_id", .str session.deviceId), ("command", .str (redactText command)),
    ("output", .str (redactText (Value.strOr (step.get? "output") ""))),
    ("step_index", .int index), ("error_code", .str (Value.strOr (step.get? "error_code") ""))]⟩

/-- The loop of `execute_batch` over its commands. -/
def storeSteps (session : SessionRef) (executionStatus : String) (steps : List Value) :
    List (String × ℕ) → Call (List (Dict String Value))
  | [] => return []
  | (command, index) :: rest => do
    let stored ← storeResult "command"
      (stepFields redactText session executionStatus steps index command) none
    return stored.entries :: (← storeSteps session executionStatus steps rest)

/-- `AiApplicationService.execute_batch`. -/
def executeBatch (call : ℕ) (commands : List String) (timeoutSeconds : ℤ) (source : String)
    (key : Option String) : Call Held :=
  if commands.isEmpty then Co.raise (.raised "At least one command is required.")
  else keyed call (aiKey source "batch" key) do
    let session ← Co.lift (← Co.awaiting .session)
    let normalized := (commands.map strip).filter (· ≠ "")
    let execution ← Co.lift (← Co.awaiting (.execute session.id normalized))
    let status := Value.strOr (execution.get? "status") "failed"
    let steps := match execution.get? "steps" with
      | some (.list steps) => some steps
      | _ => none
    let items ← match steps with
      | some steps => storeSteps redactText session status steps normalized.zipIdx
      | none => pure []
    return .payload (← storeResult "batch" ⟨[
      ("status", .str (if status = "completed" then "success" else status)),
      ("session_id", .str session.id), ("device_id", .str session.deviceId),
      ("execution_id", .str (Value.strOr (execution.get? "execution_id") "")),
      ("steps", .list (steps.getD [])), ("output", .str (Value.strOr (execution.get? "output") "")),
      ("command_count", .int normalized.length), ("timeout_seconds", .int timeoutSeconds),
      ("error_code", .str (Value.strOr (execution.get? "error_code") "")),
      ("message", .str (Value.strOr (execution.get? "message") ""))]⟩ (some items))

/-! ## Results -/

/-- Takes the outputs out of a list of step results. -/
def stripOutputs (items : List (Dict String Value)) : List (Dict String Value) :=
  items.map (·.erase "output")

/-- Takes the outputs out of the list in a cell. -/
def strip_ (cell : ℕ) (s : GatewayState) : GatewayState :=
  let items := (s.cells.get? cell).getD []
  { s with
    cells := s.cells.set cell (stripOutputs items)
    slips := if s.answers.any (fun a => a.shown.held.cell = some cell) &&
        items.any (·.contains "output") then .stripped cell :: s.slips else s.slips }

/-- Takes the outputs out of the list of a payload. -/
def Payload.stripItems (p : Payload) : Call Unit :=
  match p.cell with
  | some cell => Co.modify (strip_ cell)
  | none => pure ()

/-- `AiApplicationService.get_result`. What is stored by other operations is no payload with a
list, and is read by awaiting the tool as another one. -/
def getResult (resultId : String) (includeRaw : Bool) (params : Dict String Value) :
    Call Held := do
  match ← Co.read (·.results.get? resultId) with
  | none => return .value (← Co.lift (← Co.awaiting (.tool "ai_get_result" params)))
  | some p =>
    if includeRaw then return .payload p
    else do
      p.stripItems
      return .payload { p with fields := p.fields.erase "output" }

/-! ## Tools -/

/-- The tools whose responses are not cached. -/
def liveReads : List String :=
  ["task_get", "task_wait", "task_list", "decision_get", "task_framework_get"]

/-- `_text`. -/
def requiredText (params : Dict String Value) (name : String) : Call String :=
  let value := strip (Value.strOr (params.get? name) "")
  if value = "" then Co.raise (.raised (name ++ " is required.")) else pure value

/-- `_optional_text` as a key. -/
def idempotencyKey (params : Dict String Value) : String :=
  strip (Value.strOr (params.get? "idempotency_key") "")

/-- `_tool_ai_execute_command`. -/
def toolAiExecuteCommand (call : ℕ) (params : Dict String Value) : Call Held := do
  let _ ← Co.lift (← Co.awaiting .session)
  let command ← requiredText params "command"
  executeCommand redactText call command "mcp" (some (idempotencyKey params))

/-- `_tool_ai_execute_batch`. -/
def toolAiExecuteBatch (call : ℕ) (params : Dict String Value) : Call Held := do
  let _ ← Co.lift (← Co.awaiting .session)
  match params.get? "commands" with
  | some (.list (first :: rest)) =>
    executeBatch redactText call ((first :: rest).map Value.pyStr) 30 "mcp"
      (some (idempotencyKey params))
  | _ => Co.raise (.raised "commands must contain at least one entry.")

/-- `_tool_ai_execute_script`. -/
def toolAiExecuteScript (call : ℕ) (params : Dict String Value) : Call Held := do
  let _ ← Co.lift (← Co.awaiting .session)
  let script ← requiredText params "script"
  executeBatch redactText call (((splitlines script).map strip).filter (· ≠ "")) 30 "mcp"
    (some (idempotencyKey params))

/-- `_tool_ai_get_result`. -/
def toolAiGetResult (params : Dict String Value) : Call Held := do
  let resultId ← requiredText params "result_id"
  getResult resultId (((params.get? "include_raw").getD (.bool false)).truthy) params

/-- The handler of a tool. -/
def handle (call : ℕ) (handler : String) (params : Dict String Value) : Call Held :=
  if handler = "ai_execute_command" then toolAiExecuteCommand redactText call params
  else if handler = "ai_execute_batch" then toolAiExecuteBatch redactText call params
  else if handler = "ai_execute_script" then toolAiExecuteScript redactText call params
  else if handler = "ai_get_result" then toolAiGetResult params
  else do
    return .value (← Co.lift (← Co.awaiting (.tool handler params)))

/-- The key of `_idempotency` that a call works on. -/
def toolKey (handler : String) (params : Dict String Value) : Option CacheKey :=
  if idempotencyKey params ≠ "" ∧ handler ∉ liveReads then
    some (.tool (handler ++ "\x00" ++ idempotencyKey params))
  else none

/-- `DesktopMcpService.invoke`. -/
def invoke (call : ℕ) (tool : String) (params : Dict String Value) : Call Held :=
  let handler := replaceChar '.' '_' tool
  keyed call (toolKey handler params) (handle redactText call handler params)

/-- A call of one of the methods. -/
inductive GatewayCall where
  | invoke (tool : String) (params : Dict String Value)
  | executeCommand (command source : String) (key : Option String)
  | executeBatch (commands : List String) (timeoutSeconds : ℤ) (source : String)
      (key : Option String)

/-- The coroutine of a call. -/
def program (call : ℕ) : GatewayCall → Call Held
  | .invoke tool params => invoke redactText call tool params
  | .executeCommand command source key => executeCommand redactText call command source key
  | .executeBatch commands timeoutSeconds source key =>
    executeBatch redactText call commands timeoutSeconds source key

end

/-! ## The meaning of a key -/

/-- A key means at most once: all calls that succeed under it are answered alike, and at most one of
them did the work. -/
def AtMostOnce (s : GatewayState) : Prop :=
  (∀ a ∈ s.answers, ∀ b ∈ s.answers, a.key = b.key → a.shown = b.shown) ∧
    s.answers.Pairwise fun a b => a.key = b.key → a.replayed = true ∨ b.replayed = true

/-- The services with the calls that they work on. -/
abbrev GatewayPool := Pool GatewayState GatewayAwait GatewayReply Fault Held

/-- What happens to the services. -/
abbrev GatewayInput := PoolInput GatewayCall GatewayAwait GatewayReply

/-- An input lets no call look up a key that another call works on, and takes no output out of a
response that a call was answered with. -/
def Clear [PyLib] (redactText : String → String) (p : GatewayPool) (i : GatewayInput) : Prop :=
  (Pool.step (program redactText) p i).state.slips = p.state.slips

/-- Keys of results are not those of `_cache`. -/
def Proper : CacheKey → Prop
  | .tool _ => True
  | .ai text => ∃ rest, text = "idem:" ++ rest

/-- What a cache can hold under a key. -/
def Fits : CacheKey → Held → Prop
  | .ai _, .value _ => False
  | _, _ => True

/-- The list of a response has been stored. -/
def Listed (held : Held) (s : GatewayState) : Prop := ∀ c, held.cell = some c → c < s.stored

/-- A step of the call `n`. -/
inductive GatewayStep (n : ℕ) : GatewayState → GatewayState → Prop where
  | hit (key : CacheKey) (held : Held) {s : GatewayState} (hproper : Proper key)
      (hcached : s.cached key = some held) :
    GatewayStep n s (s.answer n key held true)
  | miss (key : CacheKey) {s : GatewayState} (hproper : Proper key)
      (hcached : s.cached key = none) :
    GatewayStep n s { s with
      inFlight := (n, key) :: s.inFlight
      slips := if s.inFlight.any (·.2 = key) then .overlapped key :: s.slips else s.slips }
  | finish (key : CacheKey) (held : Held) {s : GatewayState} (hopen : (n, key) ∈ s.inFlight)
      (hfits : Fits key held) (hlisted : Listed held s) :
    GatewayStep n s ((leave n key (s.fill key held)).answer n key held false)
  | leave (key : CacheKey) {s : GatewayState} : GatewayStep n s (leave n key s)
  | store (kind : String) (fields : Dict String Value) (items : Option (List (Dict String Value)))
      {s : GatewayState} : GatewayStep n s (s.store (newPayload s.stored kind fields items) items)
  | strip (cell : ℕ) {s : GatewayState} (hcell : cell < s.stored) : GatewayStep n s (strip_ cell s)

/-- What the meaning of a key rests on. -/
structure Ordered (s : GatewayState) : Prop where
  /-- One call at most works on a key. -/
  owner : ∀ c c' key, (c, key) ∈ s.inFlight → (c', key) ∈ s.inFlight → c = c'
  /-- A key that is worked on is not in the cache. -/
  working : ∀ c key, (c, key) ∈ s.inFlight → s.cached key = none
  /-- What a call was answered with is in the cache. -/
  answered : ∀ a ∈ s.answers, s.cached a.key = some a.shown.held ∧ s.shown a.shown.held = a.shown
  once : s.answers.Pairwise fun a b => a.key = b.key → a.replayed = true ∨ b.replayed = true

/-- The invariant of the services. -/
structure GatewayInvariant (s : GatewayState) : Prop where
  listed : ∀ key held, s.cached key = some held → Listed held s
  working : ∀ c key, (c, key) ∈ s.inFlight → Proper key
  answered : ∀ a ∈ s.answers, Proper a.key
  ordered : s.slips = [] → Ordered s

/-- Under the invariant and without slips a key means at most once. -/
theorem GatewayInvariant.meansOnce {s : GatewayState} (h : GatewayInvariant s)
    (hslips : s.slips = []) : AtMostOnce s := by
  have hordered := h.ordered hslips
  refine ⟨fun a ha b hb hkey => ?_, hordered.once⟩
  obtain ⟨hcached, hshown⟩ := hordered.answered a ha
  obtain ⟨hcached', hshown'⟩ := hordered.answered b hb
  have hheld : a.shown.held = b.shown.held := by
    rw [hkey, hcached'] at hcached
    exact (Option.some.inj hcached).symm
  calc a.shown = s.shown a.shown.held := hshown.symm
    _ = s.shown b.shown.held := by rw [hheld]
    _ = b.shown := hshown'

/-! ## What a step preserves -/

/-- A payload can be held under every key. -/
theorem fits_payload (key : CacheKey) (p : Payload) : Fits key (.payload p) := by
  cases key <;> trivial

/-- Filling a cache under a key that fits. -/
theorem cached_fill (s : GatewayState) {key : CacheKey} {held : Held} (hfits : Fits key held)
    (key' : CacheKey) :
    (s.fill key held).cached key' = if key' = key then some held else s.cached key' := by
  cases key with
  | tool text =>
    cases key' with
    | tool text' =>
      by_cases heq : text' = text
      · simp [GatewayState.cached, GatewayState.fill, heq]
      · simp [GatewayState.cached, GatewayState.fill, heq, Dict.get?_set_of_ne]
    | ai text' => rfl
  | ai text =>
    cases held with
    | value v => exact hfits.elim
    | payload p =>
      cases key' with
      | tool text' => rfl
      | ai text' =>
        by_cases heq : text' = text
        · simp [GatewayState.cached, GatewayState.fill, heq]
        · simp [GatewayState.cached, GatewayState.fill, heq, Dict.get?_set_of_ne]

@[simp] theorem fill_cells (s : GatewayState) (key : CacheKey) (held : Held) :
    (s.fill key held).cells = s.cells := by
  unfold GatewayState.fill
  split <;> rfl

@[simp] theorem fill_stored (s : GatewayState) (key : CacheKey) (held : Held) :
    (s.fill key held).stored = s.stored := by
  unfold GatewayState.fill
  split <;> rfl

@[simp] theorem fill_inFlight (s : GatewayState) (key : CacheKey) (held : Held) :
    (s.fill key held).inFlight = s.inFlight := by
  unfold GatewayState.fill
  split <;> rfl

@[simp] theorem fill_answers (s : GatewayState) (key : CacheKey) (held : Held) :
    (s.fill key held).answers = s.answers := by
  unfold GatewayState.fill
  split <;> rfl

@[simp] theorem fill_slips (s : GatewayState) (key : CacheKey) (held : Held) :
    (s.fill key held).slips = s.slips := by
  unfold GatewayState.fill
  split <;> rfl

/-- What is being worked on after a call has left a key. -/
theorem mem_leave {n c : ℕ} {key key' : CacheKey} {s : GatewayState} :
    (c, key') ∈ (leave n key s).inFlight ↔ (c, key') ∈ s.inFlight ∧ ¬(c = n ∧ key' = key) := by
  simp only [leave, List.mem_filter, decide_eq_true_eq, ne_eq, Prod.mk.injEq]

/-- The key of a result is none of `_cache`. -/
theorem resultId_ne {key : CacheKey} (hproper : Proper key) (n : ℕ) :
    key ≠ .ai ("ai-" ++ toString n) := by
  rintro rfl
  obtain ⟨rest, hrest⟩ := hproper
  have hchars := congrArg String.toList hrest
  simp at hchars

/-- A cached response is answered again. -/
theorem hit_invariant {n : ℕ} {key : CacheKey} {held : Held} {s : GatewayState}
    (h : GatewayInvariant s) (hproper : Proper key) (hcached : s.cached key = some held) :
    GatewayInvariant (s.answer n key held true) := by
  refine ⟨h.listed, h.working, ?_, fun hslips => ?_⟩
  · intro a ha
    rcases List.mem_cons.1 ha with rfl | ha
    · exact hproper
    · exact h.answered a ha
  · have hordered := h.ordered hslips
    refine ⟨hordered.owner, hordered.working, ?_, ?_⟩
    · intro a ha
      rcases List.mem_cons.1 ha with rfl | ha
      · exact ⟨hcached, rfl⟩
      · exact hordered.answered a ha
    · exact List.pairwise_cons.2 ⟨fun b _ _ => Or.inl rfl, hordered.once⟩

/-- A call begins to work on a key. -/
theorem miss_invariant {n : ℕ} {key : CacheKey} {s : GatewayState} (h : GatewayInvariant s)
    (hproper : Proper key) (hcached : s.cached key = none) :
    GatewayInvariant { s with
      inFlight := (n, key) :: s.inFlight
      slips := if s.inFlight.any (·.2 = key) then .overlapped key :: s.slips else s.slips } := by
  refine ⟨h.listed, ?_, h.answered, fun hslips => ?_⟩
  · intro c key' hmem
    rcases List.mem_cons.1 hmem with heq | hmem
    · obtain ⟨-, rfl⟩ := Prod.mk.inj heq
      exact hproper
    · exact h.working c key' hmem
  -- Without a slip no other call works on the key.
  · change (if s.inFlight.any (·.2 = key) then Slip.overlapped key :: s.slips else s.slips) = []
      at hslips
    split at hslips
    · cases hslips
    rename_i hnone
    have hordered := h.ordered hslips
    have hfree (c : ℕ) : (c, key) ∉ s.inFlight := by
      intro hmem
      exact hnone (List.any_eq_true.2 ⟨(c, key), hmem, by simp⟩)
    refine ⟨?_, ?_, hordered.answered, hordered.once⟩
    · intro c c' key' hmem hmem'
      rcases List.mem_cons.1 hmem with heq | hmem <;> rcases List.mem_cons.1 hmem' with heq' | hmem'
      · exact (Prod.mk.inj heq).1.trans (Prod.mk.inj heq').1.symm
      · rw [(Prod.mk.inj heq).2] at hmem'
        exact absurd hmem' (hfree c')
      · rw [(Prod.mk.inj heq').2] at hmem
        exact absurd hmem (hfree c)
      · exact hordered.owner c c' key' hmem hmem'
    · intro c key' hmem
      rcases List.mem_cons.1 hmem with heq | hmem
      · rw [(Prod.mk.inj heq).2]
        exact hcached
      · exact hordered.working c key' hmem

/-- A call fills the cache with what it is answered with. -/
theorem finish_invariant {n : ℕ} {key : CacheKey} {held : Held} {s : GatewayState}
    (h : GatewayInvariant s) (hopen : (n, key) ∈ s.inFlight) (hfits : Fits key held)
    (hlisted : Listed held s) :
    GatewayInvariant ((leave n key (s.fill key held)).answer n key held false) := by
  have hcached (key' : CacheKey) :
      (leave n key (s.fill key held)).cached key' =
        if key' = key then some held else s.cached key' := cached_fill s hfits key'
  have hshown (held' : Held) : (leave n key (s.fill key held)).shown held' = s.shown held' := by
    simp [GatewayState.shown, leave]
  have hinFlight {c : ℕ} {key' : CacheKey} :
      (c, key') ∈ (leave n key (s.fill key held)).inFlight ↔
        (c, key') ∈ s.inFlight ∧ ¬(c = n ∧ key' = key) := by
    rw [mem_leave, fill_inFlight]
  have hanswers : (leave n key (s.fill key held)).answers = s.answers := fill_answers s key held
  refine ⟨?_, ?_, ?_, fun hslips => ?_⟩
  · intro key' held' hheld c hc
    have hstored : (leave n key (s.fill key held)).stored = s.stored := fill_stored s key held
    show c < (leave n key (s.fill key held)).stored
    rw [hstored]
    change (leave n key (s.fill key held)).cached key' = some held' at hheld
    rw [hcached key'] at hheld
    split at hheld
    · obtain rfl := Option.some.inj hheld
      exact hlisted c hc
    · exact h.listed key' held' hheld c hc
  · intro c key' hmem
    exact h.working c key' (hinFlight.1 hmem).1
  · intro a ha
    rcases List.mem_cons.1 ha with rfl | ha
    · exact h.working n key hopen
    · rw [hanswers] at ha
      exact h.answered a ha
  · have hbefore : s.slips = [] := (fill_slips s key held).symm.trans hslips
    have hordered := h.ordered hbefore
    -- Nothing was answered under the key before, since the cache did not have it.
    have hnew : ∀ a ∈ s.answers, a.key ≠ key := by
      rintro a ha rfl
      have hsome := (hordered.answered a ha).1
      rw [hordered.working n _ hopen] at hsome
      cases hsome
    refine ⟨?_, ?_, ?_, ?_⟩
    · intro c c' key' hmem hmem'
      exact hordered.owner c c' key' (hinFlight.1 hmem).1 (hinFlight.1 hmem').1
    · intro c key' hmem
      obtain ⟨hbusy, hother⟩ := hinFlight.1 hmem
      have hne : key' ≠ key := by
        rintro rfl
        exact hother ⟨hordered.owner c n key' hbusy hopen, rfl⟩
      show (leave n key (s.fill key held)).cached key' = none
      rw [hcached key', if_neg hne]
      exact hordered.working c key' hbusy
    · intro a ha
      show (leave n key (s.fill key held)).cached a.key = some a.shown.held ∧
        (leave n key (s.fill key held)).shown a.shown.held = a.shown
      rw [hcached a.key]
      rcases List.mem_cons.1 ha with rfl | ha
      · exact ⟨if_pos rfl, rfl⟩
      · rw [hanswers] at ha
        rw [if_neg (hnew a ha), hshown a.shown.held]
        exact hordered.answered a ha
    · show List.Pairwise _ (_ :: (leave n key (s.fill key held)).answers)
      rw [hanswers]
      refine List.pairwise_cons.2 ⟨fun b hb hkey => ?_, hordered.once⟩
      exact absurd hkey.symm (hnew b hb)

/-- A call gives a key up. -/
theorem leave_invariant {n : ℕ} {key : CacheKey} {s : GatewayState} (h : GatewayInvariant s) :
    GatewayInvariant (leave n key s) := by
  refine ⟨h.listed, fun c key' hmem => h.working c key' (mem_leave.1 hmem).1, h.answered,
    fun hslips => ?_⟩
  have hordered := h.ordered hslips
  refine ⟨fun c c' key' hmem hmem' => ?_, fun c key' hmem => ?_, hordered.answered, hordered.once⟩
  · exact hordered.owner c c' key' (mem_leave.1 hmem).1 (mem_leave.1 hmem').1
  · exact hordered.working c key' (mem_leave.1 hmem).1

/-- A result is stored. -/
theorem store_invariant {kind : String} {fields : Dict String Value}
    {items : Option (List (Dict String Value))} {s : GatewayState} (h : GatewayInvariant s) :
    GatewayInvariant (s.store (newPayload s.stored kind fields items) items) := by
  have hcached (key : CacheKey) :
      (s.store (newPayload s.stored kind fields items) items).cached key =
        if key = .ai ("ai-" ++ toString s.stored) then
          some (.payload (newPayload s.stored kind fields items)) else s.cached key :=
    cached_fill s (fits_payload (.ai _) _) key
  set s' := s.store (newPayload s.stored kind fields items) items with hs'
  -- A list that was stored before is where it was.
  have hcells (c : ℕ) (hc : c < s.stored) : s'.cells.get? c = s.cells.get? c := by
    have hne : c ≠ s.stored := Nat.ne_of_lt hc
    cases items with
    | none => rfl
    | some items => exact Dict.get?_set_of_ne s.cells hne items
  have hshown (held : Held) (hlisted : Listed held s) : s'.shown held = s.shown held := by
    unfold GatewayState.shown
    cases hcell : held.cell with
    | none => rfl
    | some c =>
      show Shown.mk held ((s'.cells.get? c).getD []) = Shown.mk held ((s.cells.get? c).getD [])
      rw [hcells c (hlisted c hcell)]
  refine ⟨?_, h.working, h.answered, fun hslips => ?_⟩
  · intro key held hheld c hc
    show c < s.stored + 1
    rw [hcached key] at hheld
    split at hheld
    · obtain rfl := Option.some.inj hheld
      change (items.map fun _ => s.stored) = some c at hc
      obtain ⟨-, -, rfl⟩ := Option.map_eq_some_iff.1 hc
      omega
    · have hlt := h.listed key held hheld c hc
      omega
  · have hordered := h.ordered hslips
    refine ⟨hordered.owner, ?_, ?_, hordered.once⟩
    · intro c key hmem
      rw [hcached key, if_neg (resultId_ne (h.working c key hmem) _)]
      exact hordered.working c key hmem
    · intro a ha
      obtain ⟨hheld, hsame⟩ := hordered.answered a ha
      rw [hcached a.key, if_neg (resultId_ne (h.answered a ha) _),
        hshown a.shown.held (h.listed a.key a.shown.held hheld)]
      exact ⟨hheld, hsame⟩

/-- Taking outputs out of a list that has none changes nothing. -/
theorem stripOutputs_eq {items : List (Dict String Value)}
    (h : items.any (·.contains "output") = false) : stripOutputs items = items := by
  unfold stripOutputs
  calc items.map (·.erase "output") = items.map id := by
        refine List.map_congr_left fun d hd => ?_
        have hnone : d.contains "output" = false := by
          simpa using List.any_eq_false.1 h d hd
        have hmem : "output" ∉ d.keys := by
          rw [← Dict.contains_iff_mem_keys, hnone]
          exact Bool.false_ne_true
        exact Dict.erase_of_not_mem hmem
    _ = items := List.map_id items

/-- Outputs are taken out of a list. -/
theorem strip_invariant {cell : ℕ} {s : GatewayState} (h : GatewayInvariant s) :
    GatewayInvariant (strip_ cell s) := by
  refine ⟨h.listed, h.working, h.answered, fun hslips => ?_⟩
  change (if _ then Slip.stripped cell :: s.slips else s.slips) = [] at hslips
  split at hslips
  · cases hslips
  rename_i hclear
  have hordered := h.ordered hslips
  refine ⟨hordered.owner, hordered.working, fun a ha => ?_, hordered.once⟩
  obtain ⟨hheld, hsame⟩ := hordered.answered a ha
  refine ⟨hheld, ?_⟩
  rw [← hsame]
  have hcells (c : ℕ) (hc : a.shown.held.cell = some c) :
      ((strip_ cell s).cells.get? c).getD [] = (s.cells.get? c).getD [] := by
    by_cases heq : c = cell
    · -- The list of an answered response has no output left.
      rw [heq] at hc ⊢
      have hanswered : s.answers.any (fun b => b.shown.held.cell = some cell) = true :=
        List.any_eq_true.2 ⟨a, ha, decide_eq_true hc⟩
      have hnone : ((s.cells.get? cell).getD []).any (·.contains "output") = false := by
        simpa [hanswered] using hclear
      show ((s.cells.set cell (stripOutputs ((s.cells.get? cell).getD []))).get? cell).getD [] = _
      rw [Dict.get?_set_self, stripOutputs_eq hnone]
      rfl
    · show ((s.cells.set cell _).get? c).getD [] = _
      rw [Dict.get?_set_of_ne s.cells heq]
  unfold GatewayState.shown
  cases hcell : a.shown.held.cell with
  | none => rfl
  | some c => exact congrArg (Shown.mk a.shown.held) (hcells c hcell)

/-- One step of a call keeps the invariant. -/
theorem gatewayStep_invariant (n : ℕ) (s s' : GatewayState) (h : GatewayInvariant s)
    (hstep : GatewayStep n s s') : GatewayInvariant s' := by
  cases hstep with
  | hit key held hproper hcached => exact hit_invariant h hproper hcached
  | miss key hproper hcached => exact miss_invariant h hproper hcached
  | finish key held hopen hfits hlisted => exact finish_invariant h hopen hfits hlisted
  | leave key => exact leave_invariant h
  | store kind fields items => exact store_invariant h
  | strip cell hcell => exact strip_invariant h

/-- A call stops no other one from working on a key. -/
theorem gatewayStep_inFlight {n m : ℕ} (hne : m ≠ n) {s s' : GatewayState}
    (hstep : GatewayStep m s s') {key : CacheKey} (h : (n, key) ∈ s.inFlight) :
    (n, key) ∈ s'.inFlight := by
  have hother (key' : CacheKey) : ¬(n = m ∧ key = key') := fun heq => hne heq.1.symm
  cases hstep with
  | hit key' held hproper hcached => exact h
  | miss key' hproper hcached => exact List.mem_cons_of_mem _ h
  | finish key' held hopen hfits hlisted =>
    have hfill : (n, key) ∈ (s.fill key' held).inFlight := by rwa [fill_inFlight]
    exact mem_leave.2 ⟨hfill, hother key'⟩
  | leave key' => exact mem_leave.2 ⟨h, hother key'⟩
  | store kind fields items => exact h
  | strip cell hcell => exact h

/-! ## What a call does -/

/-- The call `n` works on the keys in `S`. -/
def Works (n : ℕ) (S : Set CacheKey) (s : GatewayState) : Prop :=
  ∀ key ∈ S, (n, key) ∈ s.inFlight

/-- Working on keys is left alone by the other calls. -/
theorem works_stable (n : ℕ) (S : Set CacheKey) : Pool.Stable GatewayStep n (Works n S) :=
  fun _ _ _ hne hstep h key hkey => gatewayStep_inFlight hne hstep (h key hkey)

/-- From a state with `P` the call `n` only makes its steps, works on the keys in `S` throughout and
returns with `Q`. -/
abbrev Runs {α : Type} (n : ℕ) (S : Set CacheKey) (P : GatewayState → Prop)
    (Q : α → GatewayState → Prop) (m : Call α) : Prop :=
  Pool.Runs GatewayInvariant GatewayStep n (Works n S) P Q m

/-- The keys that a method works on, with its own. -/
def withKey (S : Set CacheKey) : Option CacheKey → Set CacheKey
  | none => S
  | some key => insert key S

/-- A call that gives a key up works on the other ones. -/
theorem works_leave {n : ℕ} {S : Set CacheKey} {key : CacheKey} (hnew : key ∉ S)
    {s : GatewayState} (h : Works n S s) : Works n S (leave n key s) := by
  intro key' hkey'
  have hne : key' ≠ key := fun heq => hnew (heq ▸ hkey')
  exact mem_leave.2 ⟨h key' hkey', fun hboth => hne hboth.2⟩

/-- Looking a key up: the response of an earlier call, or from then on the call works on the key. -/
theorem runs_lookup {n : ℕ} {S : Set CacheKey} {key : CacheKey} (hproper : Proper key) :
    Runs n S (fun _ => True)
      (fun r t => (∀ held, r = some held → Listed held t) ∧ (r = none → (n, key) ∈ t.inFlight))
      (lookup n key) := by
  intro s hs hworks _
  show Co.Holds _ _ _ _ (match s.cached key with
    | some held => _
    | none => _ : Call (Option Held)) s
  cases hcached : s.cached key with
  | some held =>
    have hstep := GatewayStep.hit (n := n) key held hproper hcached
    have hlisted := hs.listed key held hcached
    refine ⟨hstep, gatewayStep_invariant n s _ hs hstep, hworks, fun held' heq => ?_, ?_⟩
    · obtain rfl := Option.some.inj heq
      exact hlisted
    · intro h
      cases h
  | none =>
    have hstep := GatewayStep.miss (n := n) key hproper hcached
    refine ⟨hstep, gatewayStep_invariant n s _ hs hstep, fun k hk => ?_, fun held' heq => ?_, ?_⟩
    · exact List.mem_cons_of_mem _ (hworks k hk)
    · cases heq
    · intro _
      exact List.mem_cons_self

/-- The work of a call under a key, which it gives up when the work fails. -/
theorem runs_guarded {n : ℕ} {S : Set CacheKey} {key : CacheKey} (hnew : key ∉ S)
    {Q : Held → GatewayState → Prop} {work : Call Held}
    (hwork : Runs n (insert key S) (fun _ => True) Q work) :
    Runs n S (fun t => (n, key) ∈ t.inFlight) (fun held t => (n, key) ∈ t.inFlight ∧ Q held t)
      (work.tryCatch fun e => do
        Co.modify (leave n key)
        Co.raise e) := by
  intro s hs hworks hopen
  have hmono := Pool.awaits_monotone (ρ := GatewayReply) GatewayInvariant GatewayStep n
  have hall : Works n (insert key S) s := by
    rintro k (rfl | hk)
    · exact hopen
    · exact hworks k hk
  refine Co.Holds.tryCatch hmono ?_
  refine Co.Holds.mono hmono ?_ ?_ (hwork s hs hall trivial)
  · rintro held t ⟨ht, hworks', hQ⟩
    have hkey := hworks' key (Set.mem_insert key S)
    exact ⟨ht, fun k hk => hworks' k (Set.mem_insert_of_mem key hk), hkey, hQ⟩
  · rintro e t ⟨ht, hworks'⟩
    have hothers : Works n S t := fun k hk => hworks' k (Set.mem_insert_of_mem key hk)
    exact ⟨.leave key, leave_invariant ht, works_leave hnew hothers⟩

/-- Filling the cache. -/
theorem runs_finish {n : ℕ} {S : Set CacheKey} {key : CacheKey} {held : Held} (hnew : key ∉ S) :
    Runs n S (fun t => (n, key) ∈ t.inFlight ∧ Listed held t ∧ Fits key held)
      (fun _ t => Listed held t) (finish n key held) := by
  refine Pool.Runs.modify gatewayStep_invariant ?_ ?_ ?_
  · rintro s - - ⟨hopen, hlisted, hfits⟩
    exact GatewayStep.finish key held hopen hfits hlisted
  · intro s hworks
    have hfill : Works n S (s.fill key held) := by
      intro k hk
      rw [fill_inFlight]
      exact hworks k hk
    exact works_leave hnew hfill
  · rintro s - ⟨-, hlisted, -⟩ c hc
    show c < (s.fill key held).stored
    rw [fill_stored]
    exact hlisted c hc

/-- A method with a key. -/
theorem runs_keyed {n : ℕ} {S : Set CacheKey} {key : Option CacheKey} {work : Call Held}
    (hproper : ∀ k, key = some k → Proper k) (hnew : ∀ k, key = some k → k ∉ S)
    (hwork : Runs n (withKey S key) (fun _ => True)
      (fun held t => Listed held t ∧ ∀ k, key = some k → Fits k held) work) :
    Runs n S (fun _ => True) Listed (keyed n key work) := by
  cases key with
  | none => exact hwork.imp (fun _ h => h) fun held t h => h.1
  | some key =>
    have hnew := hnew key rfl
    refine Pool.Runs.bind (runs_lookup (hproper key rfl)) fun r => ?_
    cases r with
    | some held => exact Pool.Runs.pure fun s _ h => h.1 held rfl
    | none =>
      have hguarded := runs_guarded hnew hwork
      refine Pool.Runs.bind (hguarded.imp (fun s h => h.2 rfl) fun held t h => h) fun held => ?_
      refine Pool.Runs.bind ((runs_finish hnew).imp ?_ fun _ _ h => h) fun _ => Pool.Runs.pure fun s _ h => h
      rintro s ⟨hopen, hlisted, hfits⟩
      exact ⟨hopen, hlisted, hfits key rfl⟩

/-- Storing a result: the list of what is stored has been stored. -/
theorem runs_storeResult {n : ℕ} {S : Set CacheKey} {kind : String} {fields : Dict String Value}
    {items : Option (List (Dict String Value))} :
    Runs n S (fun _ => True) (fun p t => Listed (.payload p) t) (storeResult kind fields items) := by
  intro s hs hworks _
  have hstep := GatewayStep.store (n := n) (s := s) kind fields items
  refine ⟨hstep, gatewayStep_invariant n s _ hs hstep, hworks, fun c hc => ?_⟩
  change (items.map fun _ => s.stored) = some c at hc
  obtain ⟨-, -, rfl⟩ := Option.map_eq_some_iff.1 hc
  exact Nat.lt_succ_self _

/-- The keys of `_cache`. -/
theorem proper_aiKey {source kind : String} {key : Option String} {k : CacheKey}
    (h : aiKey source kind key = some k) : Proper k := by
  obtain ⟨text, -, rfl⟩ := Option.map_eq_some_iff.1 h
  refine ⟨source ++ ":" ++ kind ++ ":" ++ text, ?_⟩
  simp only [String.append_assoc]

/-- A key of `_cache` is none of `_idempotency`. -/
theorem aiKey_ne_tool {source kind : String} {key : Option String} {text : String} :
    aiKey source kind key ≠ some (.tool text) := by
  simp [aiKey]

section

variable [PyLib] (redactText : String → String)

/-- The loop over the commands of a batch. -/
theorem runs_storeSteps {n : ℕ} {S : Set CacheKey} (session : SessionRef)
    (executionStatus : String) (steps : List Value) (commands : List (String × ℕ)) :
    Runs n S (fun _ => True) (fun _ _ => True)
      (storeSteps redactText session executionStatus steps commands) := by
  induction commands with
  | nil => exact Pool.Runs.pure fun s _ h => trivial
  | cons head rest ih =>
    obtain ⟨command, index⟩ := head
    unfold storeSteps
    refine Pool.Runs.bind (runs_storeResult.imp (fun _ h => h) fun _ _ _ => trivial) fun stored => ?_
    exact Pool.Runs.bind ih fun _ => Pool.Runs.pure fun s _ h => trivial

omit [PyLib] in
/-- `execute_command`. -/
theorem runs_executeCommand {n : ℕ} {S : Set CacheKey} (command source : String)
    (key : Option String) (hnew : ∀ k, aiKey source "command" key = some k → k ∉ S) :
    Runs n S (fun _ => True) Listed (executeCommand redactText n command source key) := by
  refine Pool.Runs.ite (fun _ => Pool.Runs.raise) fun _ => Pool.Runs.reply (works_stable _ _) fun session => ?_
  refine runs_keyed (fun k hk => proper_aiKey hk) hnew ?_
  refine Pool.Runs.reply (works_stable _ _) fun _ => Pool.Runs.reply (works_stable _ _) fun output => Pool.Runs.bind runs_storeResult fun p => ?_
  exact Pool.Runs.pure fun s _ h => ⟨h, fun k hk => fits_payload k p⟩

/-- `execute_batch`. -/
theorem runs_executeBatch {n : ℕ} {S : Set CacheKey} (commands : List String) (timeoutSeconds : ℤ)
    (source : String) (key : Option String)
    (hnew : ∀ k, aiKey source "batch" key = some k → k ∉ S) :
    Runs n S (fun _ => True) Listed
      (executeBatch redactText n commands timeoutSeconds source key) := by
  refine Pool.Runs.ite (fun _ => Pool.Runs.raise) fun _ => ?_
  refine runs_keyed (fun k hk => proper_aiKey hk) hnew ?_
  refine Pool.Runs.reply (works_stable _ _) fun session => Pool.Runs.reply (works_stable _ _) fun execution => ?_
  have hrest (items : List (Dict String Value)) (fields : Dict String Value) :
      Runs n (withKey S (aiKey source "batch" key)) (fun _ => True)
        (fun held t => Listed held t ∧ ∀ k, aiKey source "batch" key = some k → Fits k held)
        (do return .payload (← storeResult "batch" fields (some items))) := by
    refine Pool.Runs.bind runs_storeResult fun p => ?_
    exact Pool.Runs.pure fun s _ h => ⟨h, fun k hk => fits_payload k p⟩
  split
  · exact Pool.Runs.bind (runs_storeSteps redactText _ _ _ _) fun items => hrest items _
  · exact Pool.Runs.bind (Pool.Runs.pure fun _ _ _ => trivial) fun items => hrest items _

omit [PyLib] in
/-- Taking the outputs out of the list of a payload. -/
theorem runs_stripItems {n : ℕ} {S : Set CacheKey} (p : Payload) :
    Runs n S (Listed (.payload p)) (fun _ => Listed (.payload p)) p.stripItems := by
  unfold Payload.stripItems
  split
  · rename_i cell hcell
    refine Pool.Runs.modify gatewayStep_invariant (fun t _ _ hP => ?_) (fun t ht => ht)
      fun t _ hP => hP
    exact GatewayStep.strip cell (hP cell hcell)
  · exact Pool.Runs.pure fun t _ ht => ht

omit [PyLib] in
/-- `get_result`. -/
theorem runs_getResult {n : ℕ} {S : Set CacheKey} (resultId : String) (includeRaw : Bool)
    (params : Dict String Value) :
    Runs n S (fun _ => True) Listed (getResult resultId includeRaw params) := by
  intro s hs hworks _
  -- The payload that is found has a list that has been stored.
  have hfound (p : Payload) (hp : s.results.get? resultId = some p) : Listed (.payload p) s := by
    have hcached : s.cached (.ai resultId) = some (.payload p) := by
      simp only [GatewayState.cached, hp, Option.map_some]
    exact hs.listed _ _ hcached
  show Co.Holds _ _ _ _ (match s.results.get? resultId with
    | none => _
    | some p => _ : Call Held) s
  cases hp : s.results.get? resultId with
  | none =>
    have hrule : Runs n S (fun _ => True) Listed (do
        return .value (← Co.lift (← Co.awaiting (.tool "ai_get_result" params)))) := by
      refine Pool.Runs.reply (works_stable _ _) fun v => Pool.Runs.pure fun t _ _ c hc => ?_
      cases hc
    exact hrule s hs hworks trivial
  | some p =>
    have hlisted := hfound p hp
    have hrule : Runs n S (Listed (.payload p)) Listed (if includeRaw then return .payload p
        else do
          p.stripItems
          return .payload { p with fields := p.fields.erase "output" }) := by
      refine Pool.Runs.ite (fun _ => Pool.Runs.pure fun t _ ht => ht) fun _ => ?_
      exact Pool.Runs.bind (runs_stripItems p) fun _ => Pool.Runs.pure fun t _ ht => ht
    exact hrule s hs hworks hlisted

/-- A parameter that is required. -/
theorem runs_requiredText {n : ℕ} {S : Set CacheKey} {P : GatewayState → Prop}
    (params : Dict String Value) (name : String) :
    Runs n S P (fun _ _ => True) (requiredText params name) :=
  Pool.Runs.ite (fun _ => Pool.Runs.raise) fun _ => Pool.Runs.pure fun _ _ _ => trivial

omit [PyLib] in
/-- A key of `_cache` when no such key is worked on. -/
theorem aiKey_notMem {S : Set CacheKey} (hS : ∀ text, .ai text ∉ S) {source kind : String}
    {key : Option String} (k : CacheKey) (hk : aiKey source kind key = some k) : k ∉ S := by
  cases k with
  | tool text => exact absurd hk aiKey_ne_tool
  | ai text => exact hS text

/-- `_tool_ai_execute_command`. -/
theorem runs_toolAiExecuteCommand {n : ℕ} {S : Set CacheKey} (hS : ∀ text, .ai text ∉ S)
    (params : Dict String Value) :
    Runs n S (fun _ => True) Listed (toolAiExecuteCommand redactText n params) := by
  refine Pool.Runs.reply (works_stable _ _) fun _ => Pool.Runs.bind (runs_requiredText params "command") fun command => ?_
  exact runs_executeCommand redactText command "mcp" _ (aiKey_notMem hS)

/-- `_tool_ai_execute_batch`. -/
theorem runs_toolAiExecuteBatch {n : ℕ} {S : Set CacheKey} (hS : ∀ text, .ai text ∉ S)
    (params : Dict String Value) :
    Runs n S (fun _ => True) Listed (toolAiExecuteBatch redactText n params) := by
  refine Pool.Runs.reply (works_stable _ _) fun _ => ?_
  split
  · exact runs_executeBatch redactText _ 30 "mcp" _ (aiKey_notMem hS)
  · exact Pool.Runs.raise

/-- `_tool_ai_execute_script`. -/
theorem runs_toolAiExecuteScript {n : ℕ} {S : Set CacheKey} (hS : ∀ text, .ai text ∉ S)
    (params : Dict String Value) :
    Runs n S (fun _ => True) Listed (toolAiExecuteScript redactText n params) := by
  refine Pool.Runs.reply (works_stable _ _) fun _ => Pool.Runs.bind (runs_requiredText params "script") fun script => ?_
  exact runs_executeBatch redactText _ 30 "mcp" _ (aiKey_notMem hS)

/-- `_tool_ai_get_result`. -/
theorem runs_toolAiGetResult {n : ℕ} {S : Set CacheKey} (params : Dict String Value) :
    Runs n S (fun _ => True) Listed (toolAiGetResult params) :=
  Pool.Runs.bind (runs_requiredText params "result_id") fun resultId => runs_getResult resultId _ params

/-- The handler of a tool, which may work on a key of `_cache`. -/
theorem runs_handle {n : ℕ} {S : Set CacheKey} (hS : ∀ text, .ai text ∉ S) (handler : String)
    (params : Dict String Value) :
    Runs n S (fun _ => True) Listed (handle redactText n handler params) := by
  unfold handle
  refine Pool.Runs.ite (fun _ => runs_toolAiExecuteCommand redactText hS params) fun _ => ?_
  refine Pool.Runs.ite (fun _ => runs_toolAiExecuteBatch redactText hS params) fun _ => ?_
  refine Pool.Runs.ite (fun _ => runs_toolAiExecuteScript redactText hS params) fun _ => ?_
  refine Pool.Runs.ite (fun _ => runs_toolAiGetResult params) fun _ => ?_
  refine Pool.Runs.reply (works_stable _ _) fun v => Pool.Runs.pure fun t _ _ c hc => ?_
  cases hc

/-- A key of `_idempotency` is none of `_cache`. -/
theorem toolKey_eq {handler : String} {params : Dict String Value} {k : CacheKey}
    (h : toolKey handler params = some k) : ∃ text, k = .tool text := by
  unfold toolKey at h
  split at h
  · exact ⟨_, (Option.some.inj h).symm⟩
  · cases h

/-- `invoke`. -/
theorem runs_invoke {n : ℕ} (tool : String) (params : Dict String Value) :
    Runs n ∅ (fun _ => True) Listed (invoke redactText n tool params) := by
  refine runs_keyed ?_ (fun k _ => Set.notMem_empty k) ?_
  · intro k hk
    obtain ⟨text, rfl⟩ := toolKey_eq hk
    trivial
  · have hS (text : String) :
        CacheKey.ai text ∉ withKey ∅ (toolKey (replaceChar '.' '_' tool) params) := by
      unfold toolKey
      split <;> simp [withKey]
    refine (runs_handle redactText hS _ params).imp (fun _ h => h) fun held t hlisted => ?_
    refine ⟨hlisted, fun k hk => ?_⟩
    obtain ⟨text, rfl⟩ := toolKey_eq hk
    trivial

/-- Every call only makes its steps. -/
theorem runs_program {n : ℕ} (call : GatewayCall) :
    Runs n ∅ (fun _ => True) Listed (program redactText n call) := by
  cases call with
  | invoke tool params => exact runs_invoke redactText tool params
  | executeCommand command source key =>
    exact runs_executeCommand redactText command source key fun k _ => Set.notMem_empty k
  | executeBatch commands timeoutSeconds source key =>
    exact runs_executeBatch redactText commands timeoutSeconds source key
      fun k _ => Set.notMem_empty k

omit [PyLib] in
/-- Services that nobody has called. -/
theorem gatewayInvariant_initial : GatewayInvariant {} := by
  refine ⟨?_, ?_, ?_, fun _ => ⟨?_, ?_, ?_, List.Pairwise.nil⟩⟩
  · intro key held hcached
    cases key <;> cases hcached
  · intro c key hmem
    cases hmem
  · intro a ha
    cases ha
  · intro c c' key hmem
    cases hmem
  · intro c key hmem
    cases hmem
  · intro a ha
    cases ha

/-- The invariant holds in every run. -/
theorem gateway_invariant (inputs : List GatewayInput) :
    GatewayInvariant
      (Machine.run (Pool.step (program redactText)) (Pool.initial {}) inputs).state := by
  refine Pool.invariant gatewayStep_invariant ?_ gatewayInvariant_initial inputs
  intro n call s hs
  have hmono := Pool.awaits_monotone (ρ := GatewayReply) GatewayInvariant GatewayStep n
  have hworks : Works n ∅ s := fun key hkey => hkey.elim
  exact Co.Holds.mono hmono (fun _ _ _ => trivial) (fun _ _ _ => trivial)
    (runs_program redactText call s hs hworks trivial)

end

instance [PyLib] (redactText : String → String) (p : GatewayPool) (i : GatewayInput) :
    Decidable (Clear redactText p i) :=
  inferInstanceAs (Decidable (_ = _))

/-- A terminal on which every batch completes. -/
def completing : (w : GatewayAwait) → GatewayReply w
  | .session => .ok ⟨"s1", "d1"⟩
  | .sendRaw _ _ => .ok ()
  | .output _ => .ok ""
  | .execute _ _ => .ok ⟨[("status", .str "completed"), ("steps", .list [])]⟩
  | .tool _ _ => .ok .none

/-- A batch of one command under the key `"k"`. -/
def batchCall : GatewayCall := .executeBatch ["display version"] 30 "desktop-ui" (some "k")

end DeviceShell.Gateway
