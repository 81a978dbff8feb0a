import DeviceShell.Lib.KeyedStore
import DeviceShell.Lib.Machine
import DeviceShell.Lib.Text
import DeviceShell.Tasking.CommandRisk

/-!
# Approvals of device actions

`interfaces/mcp/approval.py` and the gate of `AppControlService._invoke` in `interfaces/mcp/service.py`.
A tool call that asks for an action of medium or higher risk is answered with a request for approval;
when the user has approved it, a call with the token of the approval is let through, once. The store
reads a clock at every access and lets pending and approved requests expire.

Calls come from the threads of an HTTP server. Between its accesses to the cache, the approvals and
the device a call may be overtaken by others, so a call is three inputs of `step`: it arrives, it
comes to the gate, and the action it was let through for ends.
-/

namespace DeviceShell.Mcp

open Tasking (RiskLevel)

/-- `AiDeviceAction`. -/
structure DeviceAction where
  kind : String
  label : String
  risk : RiskLevel
  deviceId : String := ""
  command : String := ""
  params : Dict String Value := ∅

/-- `requires_confirmation`. -/
def DeviceAction.requiresConfirmation (action : DeviceAction) : Bool :=
  decide (RiskLevel.medium.value ≤ action.risk.value)

/-- The SHA-256 digest of the JSON text of a kind, a device, a command and parameters. -/
class ActionDigest where
  digest : String → String → String → Dict String Value → String

/-- `normalize_command`. -/
def normalizeCommand [PyLib] (command : String) : String := " ".intercalate (words (strip command))

/-- `action_fingerprint`. -/
def fingerprint [PyLib] [ActionDigest] (action : DeviceAction) : String :=
  ActionDigest.digest action.kind action.deviceId (normalizeCommand action.command) action.params

/-! ## The store -/

/-- `ApprovalRecord.status`. -/
inductive ApprovalStatus where
  | pending
  | approved
  | rejected
  | consumed
  | expired
deriving DecidableEq, Repr

/-- `status` as its text. -/
def ApprovalStatus.value : ApprovalStatus → String
  | .pending => "pending"
  | .approved => "approved"
  | .rejected => "rejected"
  | .consumed => "consumed"
  | .expired => "expired"

/-- `ApprovalRecord`. -/
structure ApprovalRecord where
  id : String
  action : DeviceAction
  source : String
  reason : String
  /-- `created_monotonic`. -/
  created : ℚ
  /-- `expires_monotonic`. -/
  expires : ℚ
  status : ApprovalStatus := .pending
  token : String := ""

/-- What the store raises. -/
inductive ApprovalError where
  /-- `AppControlError`. -/
  | appControl (code message : String) (status : ℕ)
  /-- The `TypeError` of `hmac.compare_digest`. -/
  | typeError

/-- `ApprovalStore`. -/
structure ApprovalStore where
  ttlSeconds : ℚ
  /-- `_records`. -/
  records : Rows ApprovalRecord.id := .empty

/-- A record at a reading of the clock. -/
def ApprovalRecord.expire (now : ℚ) (r : ApprovalRecord) : ApprovalRecord :=
  if (r.status = .pending ∨ r.status = .approved) ∧ r.expires ≤ now then
    { r with status := .expired, token := "" }
  else r

@[simp] theorem ApprovalRecord.expire_id (now : ℚ) (r : ApprovalRecord) :
    (r.expire now).id = r.id := by
  unfold expire
  split <;> rfl

namespace ApprovalStore

variable (now : ℚ) (s : ApprovalStore)

/-- `_expire_locked`. -/
def expireLocked : ApprovalStore :=
  { s with records := s.records.map (·.expire now) (ApprovalRecord.expire_id now) }

/-- A record is put in the place of the one with its id. -/
def keep (r : ApprovalRecord) : ApprovalStore := { s with records := s.records.put r }

/-- `get`. -/
def get (approvalId : String) : Except ApprovalError ApprovalRecord × ApprovalStore :=
  let s := s.expireLocked now
  match s.records.rows.get? approvalId with
  | some r => (.ok r, s)
  | none => (.error (.appControl "approval_not_found" ("未找到审批请求: " ++ approvalId) 404), s)

/-- `pending`. -/
def pending : List ApprovalRecord × ApprovalStore :=
  let s := s.expireLocked now
  (s.records.rows.values.filter fun r => r.status = .pending, s)

/-- The pending record that `approve` and `reject` decide about. -/
def decided (approvalId : String) (decide : ApprovalRecord → ApprovalRecord) :
    Except ApprovalError ApprovalRecord × ApprovalStore :=
  let s := s.expireLocked now
  match s.records.rows.get? approvalId with
  | none => (.error (.appControl "approval_not_found" "审批请求不存在。" 404), s)
  | some r =>
    if r.status = .pending then (.ok (decide r), s.keep (decide r))
    else (.error (.appControl "approval_not_pending"
      ("审批请求当前状态为 " ++ r.status.value ++ "。") 409), s)

/-- `approve`; `token` is the new token. -/
def approve (approvalId token : String) : Except ApprovalError ApprovalRecord × ApprovalStore :=
  s.decided now approvalId fun r => { r with status := .approved, token := token }

/-- `reject`. -/
def reject (approvalId : String) : Except ApprovalError ApprovalRecord × ApprovalStore :=
  s.decided now approvalId fun r => { r with status := .rejected }

section

variable [PyLib] [ActionDigest]

/-- `request`; `fresh` is the new id. -/
def request (action : DeviceAction) (source reason fresh : String) :
    ApprovalRecord × ApprovalStore :=
  let s := s.expireLocked now
  match s.records.rows.values.find? fun r =>
      r.status = .pending ∧ r.source = source ∧ fingerprint r.action = fingerprint action with
  | some r => (r, s)
  | none =>
    let r : ApprovalRecord :=
      { id := fresh
        action := action
        source := source
        reason := reason
        created := now
        expires := now + s.ttlSeconds }
    (r, s.keep r)

/-- `consume`. -/
def consume (approvalToken : String) (action : DeviceAction) :
    Except ApprovalError ApprovalRecord × ApprovalStore :=
  if approvalToken = "" then
    (.error (.appControl "approval_required" "该动作需要用户在 OdyTerm 中确认。" 409), s)
  else
    let s := s.expireLocked now
    -- `compare_digest` raises for a text that is not ASCII, once there is a token to compare with.
    if approvalToken.toList.any (fun c => decide (128 ≤ c.toNat)) ∧
        s.records.rows.values.any (fun r => r.token ≠ "") then (.error .typeError, s)
    else match s.records.rows.values.find? fun r => r.token ≠ "" ∧ r.token = approvalToken with
      | none => (.error (.appControl "invalid_approval_token" "审批令牌无效或已过期。" 409), s)
      | some r =>
        if r.status ≠ .approved then
          (.error (.appControl "approval_not_available"
            ("审批令牌当前状态为 " ++ r.status.value ++ "。") 409), s)
        else if fingerprint r.action ≠ fingerprint action then
          (.error (.appControl "approval_action_mismatch"
            "审批令牌与当前设备、命令或参数不匹配。" 409), s)
        else
          let r := { r with status := .consumed, token := "" }
          (.ok r, s.keep r)

end

end ApprovalStore

/-! ## What the operations of the store do -/

/-- A record that is pending or approved has not expired when the clock was read. -/
theorem ApprovalRecord.lt_of_expire {r : ApprovalRecord} {now : ℚ}
    (h : (r.expire now).status = .pending ∨ (r.expire now).status = .approved) :
    now < (r.expire now).expires := by
  unfold ApprovalRecord.expire at h ⊢
  split at h
  · simp at h
  · next hopen =>
    rw [if_neg hopen]
    exact not_le.1 fun hle => hopen ⟨h, hle⟩

namespace ApprovalStore

variable (a : ApprovalStore) (now : ℚ)

/-- A decision fails, or it is about a record that is pending and has not expired. -/
theorem decided_cases (id : String) (f : ApprovalRecord → ApprovalRecord) :
    (∃ e, a.decided now id f = (.error e, a.expireLocked now)) ∨
      ∃ r, (a.expireLocked now).records.rows.get? id = some r ∧ r.status = .pending ∧
        a.decided now id f = (.ok (f r), (a.expireLocked now).keep (f r)) := by
  unfold decided
  dsimp only
  cases hget : (a.expireLocked now).records.rows.get? id with
  | none => exact .inl ⟨_, rfl⟩
  | some r =>
    by_cases hp : r.status = .pending
    · exact .inr ⟨r, rfl, hp, if_pos hp⟩
    · exact .inl ⟨_, if_neg hp⟩

/-- A record that is open when the clock was read has not expired. -/
theorem lt_expires {a : ApprovalStore} {now : ℚ} {id : String} {r : ApprovalRecord}
    (hget : (a.expireLocked now).records.rows.get? id = some r)
    (hopen : r.status = .pending ∨ r.status = .approved) : now < r.expires := by
  rw [expireLocked, Rows.map, Dict.get?_mapValues, Option.map_eq_some_iff] at hget
  obtain ⟨r', -, rfl⟩ := hget
  exact ApprovalRecord.lt_of_expire hopen

variable [PyLib] [ActionDigest]

/-- A request is answered with a pending record for the same source and fingerprint, or with a new
record when there is none. -/
theorem request_cases (action : DeviceAction) (source reason fresh : String) :
    (∃ r, (a.expireLocked now).records.rows.get? r.id = some r ∧ r.status = .pending ∧
        r.source = source ∧ fingerprint r.action = fingerprint action ∧
        a.request now action source reason fresh = (r, a.expireLocked now)) ∨
      ∃ r : ApprovalRecord,
        r = { id := fresh, action := action, source := source, reason := reason, created := now
              expires := now + a.ttlSeconds } ∧
        (∀ r' ∈ (a.expireLocked now).records.rows.values, r'.status = .pending →
          r'.source = source → fingerprint r'.action ≠ fingerprint action) ∧
        a.request now action source reason fresh = (r, (a.expireLocked now).keep r) := by
  unfold request
  dsimp only
  split
  · next r hfind =>
    have hmem := List.mem_of_find?_eq_some hfind
    have hsame := List.find?_some hfind
    simp only [Bool.decide_and, Bool.and_eq_true, decide_eq_true_eq] at hsame
    exact .inl ⟨r, Rows.get?_of_mem hmem, hsame.1, hsame.2.1, hsame.2.2, rfl⟩
  · next hfind =>
    refine .inr ⟨_, rfl, fun r' hr' hp hs hf => ?_, rfl⟩
    have hno := List.find?_eq_none.1 hfind r' hr'
    simp [hp, hs, hf] at hno

/-- A token is refused, or it is the one of an approved record for the fingerprint. -/
theorem consume_cases (token : String) (action : DeviceAction) :
    (∃ e, a.consume now token action = (.error e, a)) ∨
      (∃ e, a.consume now token action = (.error e, a.expireLocked now)) ∨
      ∃ r, (a.expireLocked now).records.rows.get? r.id = some r ∧ r.status = .approved ∧
        r.token = token ∧ fingerprint r.action = fingerprint action ∧
        a.consume now token action =
          (.ok { r with status := .consumed, token := "" },
            (a.expireLocked now).keep { r with status := .consumed, token := "" }) := by
  unfold consume
  split
  · exact .inl ⟨_, rfl⟩
  · refine .inr ?_
    dsimp only
    split
    · exact .inl ⟨_, rfl⟩
    split
    · exact .inl ⟨_, rfl⟩
    · next r hfind =>
      have hmem := List.mem_of_find?_eq_some hfind
      have hsame := List.find?_some hfind
      simp only [Bool.decide_and, Bool.and_eq_true, decide_eq_true_eq] at hsame
      split
      · exact .inl ⟨_, rfl⟩
      · next hs =>
        split
        · exact .inl ⟨_, rfl⟩
        · next hf =>
          exact .inr ⟨r, Rows.get?_of_mem hmem, not_not.1 hs, hsame.2, not_not.1 hf, rfl⟩

end ApprovalStore

/-! ## The gate of the control service -/

/-- A call of a tool, with the action that `_build_action` made of its parameters. -/
structure ToolCall where
  source : String
  tool : String
  /-- `idempotency_key`. -/
  idempotencyKey : String := ""
  /-- `approval_token`. -/
  approvalToken : String := ""
  /-- `_approval_reason`. -/
  reason : String := ""
  action : DeviceAction

/-- How an action ends on the device. -/
inductive Outcome where
  | succeeded (data : Value)
  /-- A result that is not `ok`, and whether it asks for an approval. -/
  | failed (approvalRequired : Bool) (action : DeviceAction) (reason : String)
  | raised

/-- The response of a call, as far as it is kept for its idempotency key. -/
inductive Reply where
  | success (data : Value)
  | approvalRequired (record : ApprovalRecord)
  | failure

/-- What happens in the service. -/
inductive Event where
  /-- An approval is requested. -/
  | requested (approvalId : String) (action : DeviceAction) (expires : ℚ)
  | approved (approvalId : String) (now : ℚ)
  | rejected (approvalId : String)
  /-- An action is let through, with the approval that it uses up. -/
  | admitted (approval : Option String) (action : DeviceAction) (now : ℚ)

/-- `AppControlService`. -/
structure ControlService where
  approvals : ApprovalStore
  /-- `requires_device_approval`. -/
  requiresApproval : Bool
  /-- `_idempotency`. -/
  replies : Dict String Reply := ∅
  /-- The calls that are on their way to the gate. -/
  arriving : List ToolCall := []
  /-- The calls whose action is under way. -/
  running : List ToolCall := []
  /-- What happened, the last first. -/
  log : List Event := []

/-- What comes to the service. -/
inductive Input where
  /-- A call reads the kept replies. -/
  | arrive (call : ToolCall)
  /-- The arriving call with the given number comes to the gate. -/
  | gate (index : ℕ) (now : ℚ) (fresh : String)
  /-- The action of the running call with the given number ends. -/
  | finish (index : ℕ) (outcome : Outcome) (now : ℚ) (fresh : String)
  | approve (approvalId token : String) (now : ℚ)
  | reject (approvalId : String) (now : ℚ)
  | get (approvalId : String) (now : ℚ)
  | pending (now : ℚ)

namespace ControlService

/-- `f"{source}\\0{tool}\\0{idempotency_key}"`. -/
def cacheKey (call : ToolCall) : String :=
  call.source ++ "\x00" ++ call.tool ++ "\x00" ++ call.idempotencyKey

variable [PyLib] [ActionDigest] (s : ControlService)

/-- A new or pending request for an approval. -/
def requestApproval (now : ℚ) (action : DeviceAction) (source reason fresh : String) :
    ApprovalRecord × ControlService :=
  let (r, approvals) := s.approvals.request now action source reason fresh
  (r, { s with
    approvals := approvals
    log := .requested r.id r.action r.expires :: s.log })

/-- The part of `_invoke` at the gate. -/
def atGate (call : ToolCall) (now : ℚ) (fresh : String) : ControlService :=
  if call.action.requiresConfirmation ∧ s.requiresApproval then
    if call.approvalToken = "" then
      (s.requestApproval now call.action call.source call.reason fresh).2
    else match s.approvals.consume now call.approvalToken call.action with
      | (.error _, approvals) => { s with approvals := approvals }
      | (.ok r, approvals) =>
        { s with
          approvals := approvals
          running := s.running ++ [call]
          log := .admitted (some r.id) call.action now :: s.log }
  else
    { s with
      running := s.running ++ [call]
      log := .admitted none call.action now :: s.log }

/-- `_result_response`, and keeping the reply. -/
def finished (call : ToolCall) (outcome : Outcome) (now : ℚ) (fresh : String) : ControlService :=
  let keepReply (reply : Reply) (s : ControlService) : ControlService :=
    if call.idempotencyKey = "" then s
    else { s with replies := s.replies.set (cacheKey call) reply }
  match outcome with
  | .raised => s
  | .succeeded data => keepReply (.success data) s
  | .failed approvalRequired action reason =>
    if approvalRequired ∧ s.requiresApproval then
      let (r, s) := s.requestApproval now action "app-action" reason fresh
      keepReply (.approvalRequired r) s
    else keepReply .failure s

/-- One input. -/
def step (s : ControlService) : Input → ControlService
  | .arrive call =>
    if call.idempotencyKey ≠ "" ∧ s.replies.contains (cacheKey call) then s
    else { s with arriving := s.arriving ++ [call] }
  | .gate index now fresh => match s.arriving[index]? with
    | none => s
    | some call => { s with arriving := s.arriving.eraseIdx index }.atGate call now fresh
  | .finish index outcome now fresh => match s.running[index]? with
    | none => s
    | some call => { s with running := s.running.eraseIdx index }.finished call outcome now fresh
  | .approve approvalId token now => match s.approvals.approve now approvalId token with
    | (.error _, approvals) => { s with approvals := approvals }
    | (.ok r, approvals) =>
      { s with approvals := approvals, log := .approved r.id now :: s.log }
  | .reject approvalId now => match s.approvals.reject now approvalId with
    | (.error _, approvals) => { s with approvals := approvals }
    | (.ok r, approvals) => { s with approvals := approvals, log := .rejected r.id :: s.log }
  | .get approvalId now => { s with approvals := (s.approvals.get now approvalId).2 }
  | .pending now => { s with approvals := (s.approvals.pending now).2 }

/-! ## Runs -/

/-- The new id that comes with an input is not the id of a record. -/
def FreshId (s : ControlService) : Input → Prop
  | .gate _ _ fresh => fresh ∉ s.approvals.records.rows.keys
  | .finish _ _ _ fresh => fresh ∉ s.approvals.records.rows.keys
  | _ => True

instance decidableFreshId (s : ControlService) : ∀ input, Decidable (s.FreshId input)
  | .arrive _ => inferInstanceAs (Decidable True)
  | .gate _ _ fresh => inferInstanceAs (Decidable (fresh ∉ s.approvals.records.rows.keys))
  | .finish _ _ _ fresh => inferInstanceAs (Decidable (fresh ∉ s.approvals.records.rows.keys))
  | .approve _ _ _ => inferInstanceAs (Decidable True)
  | .reject _ _ => inferInstanceAs (Decidable True)
  | .get _ _ => inferInstanceAs (Decidable True)
  | .pending _ => inferInstanceAs (Decidable True)

/-- The service as it starts. -/
def start (ttlSeconds : ℚ) (requiresApproval : Bool) : ControlService :=
  { approvals := { ttlSeconds := ttlSeconds }, requiresApproval := requiresApproval }

/-- A digest that only joins its texts. -/
@[reducible] def joinedDigest : ActionDigest :=
  ⟨fun kind deviceId command _ => kind ++ "/" ++ deviceId ++ "/" ++ command⟩

/-- A configuration is to be saved, with the given token. -/
def saveCall (approvalToken : String) : ToolCall where
  source := "tool-calling"
  tool := "terminal_run"
  approvalToken := approvalToken
  action := { kind := "terminal", label := "", risk := .high, deviceId := "r1", command := "save" }

/-- The approval of the call is asked for and given, and two calls overtake each other with it. -/
def overtaking : List Input :=
  [.arrive (saveCall ""), .gate 0 0 "a1", .approve "a1" "t1" 1, .arrive (saveCall "t1"),
    .arrive (saveCall "t1"), .gate 1 2 "a2", .gate 0 3 "a3"]

end ControlService

end DeviceShell.Mcp
