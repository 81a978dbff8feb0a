import DeviceShell.Mcp.Approvals

/-!
# Every action that needs an approval has one

The events of the service are looked at with what came before them (`Event.Covered`): an approval is
asked for, then given or refused at most once, and an action that needs an approval is let through
with one that was given for an action of the same fingerprint, has not expired and was not used before.
In every run, whatever calls overtake each other at the gate, each event of the log is covered
(`accountable_run`). What carries the induction is that each record of the store is vouched for by
the log (`Vouches`). The only thing the store relies on is that new ids are new.
-/

namespace DeviceShell.Mcp

/-- The approval that an event is about. -/
def Event.approvalId? : Event → Option String
  | .requested id _ _ => some id
  | .approved id _ => some id
  | .rejected id => some id
  | .admitted approval _ _ => approval

/-- The event is a decision about the approval. -/
def Event.Decides (approvalId : String) : Event → Prop
  | .approved id _ => id = approvalId
  | .rejected id => id = approvalId
  | _ => False

theorem Event.approvalId?_of_decides {id : String} {e : Event} (h : e.Decides id) :
    e.approvalId? = some id := by
  cases e <;> simp_all [Event.Decides, Event.approvalId?]

section

variable [PyLib] [ActionDigest]

/-- An event has what it needs among the events before it, the last of them first. -/
def Event.Covered (requiresApproval : Bool) (before : List Event) : Event → Prop
  | .requested id action expires =>
    (∀ e ∈ before, ¬ e.Decides id) ∧
      ∀ action' expires', .requested id action' expires' ∈ before →
        action' = action ∧ expires' = expires
  | .approved id now =>
    (∃ action expires, .requested id action expires ∈ before ∧ now < expires) ∧
      ∀ e ∈ before, ¬ e.Decides id
  | .rejected id =>
    (∃ action expires, .requested id action expires ∈ before) ∧ ∀ e ∈ before, ¬ e.Decides id
  | .admitted (some id) action now =>
    (∃ asked expires, .requested id asked expires ∈ before ∧
        fingerprint asked = fingerprint action ∧ now < expires) ∧
      (∃ given, .approved id given ∈ before) ∧ .rejected id ∉ before ∧
      ∀ action' now', .admitted (some id) action' now' ∉ before
  | .admitted none action _ => action.requiresConfirmation = true → requiresApproval = false

/-- The action that is let through. -/
def Event.admittedAction? : Event → Option DeviceAction
  | .admitted _ action _ => some action
  | _ => none

/-- Every event of a log, the last one first, has what it needs among those before it. -/
def Accountable (requiresApproval : Bool) : List Event → Prop
  | [] => True
  | e :: before => e.Covered requiresApproval before ∧ Accountable requiresApproval before

end

/-! ## Records and their events -/

/-- What the log says about a record of the store. -/
structure ApprovalRecord.Vouched (log : List Event) (r : ApprovalRecord) : Prop where
  requested : .requested r.id r.action r.expires ∈ log
  unchanged : ∀ action expires, .requested r.id action expires ∈ log →
    action = r.action ∧ expires = r.expires
  undecided : r.status = .pending → ∀ e ∈ log, ¬ e.Decides r.id
  given : r.status = .approved → ∃ now, .approved r.id now ∈ log
  notRejected : r.status = .approved → .rejected r.id ∉ log
  unused : r.status = .pending ∨ r.status = .approved →
    ∀ action now, .admitted (some r.id) action now ∉ log

/-- An event about another approval does not matter to a record. -/
theorem ApprovalRecord.Vouched.cons {log : List Event} {r : ApprovalRecord} (h : r.Vouched log)
    {e : Event} (he : e.approvalId? ≠ some r.id) : r.Vouched (e :: log) where
  requested := List.mem_cons_of_mem e h.requested
  unchanged action expires hmem := by
    rcases List.mem_cons.1 hmem with rfl | hmem
    · exact absurd rfl he
    · exact h.unchanged action expires hmem
  undecided hp e' hmem := by
    rcases List.mem_cons.1 hmem with rfl | hmem
    · exact fun hd => he (Event.approvalId?_of_decides hd)
    · exact h.undecided hp e' hmem
  given ha := (h.given ha).imp fun _ hmem => List.mem_cons_of_mem e hmem
  notRejected ha hmem := by
    rcases List.mem_cons.1 hmem with rfl | hmem
    · exact he rfl
    · exact h.notRejected ha hmem
  unused hs action now hmem := by
    rcases List.mem_cons.1 hmem with rfl | hmem
    · exact he rfl
    · exact h.unused hs action now hmem

/-- A record with the same id, action and expiry that is neither pending nor approved. -/
theorem ApprovalRecord.Vouched.closed {log : List Event} {r : ApprovalRecord} (h : r.Vouched log)
    {status : ApprovalStatus} (hs : ¬ (status = .pending ∨ status = .approved)) (token : String) :
    ApprovalRecord.Vouched log { r with status := status, token := token } where
  requested := h.requested
  unchanged := h.unchanged
  undecided hp := absurd (.inl hp) hs
  given ha := absurd (.inr ha) hs
  notRejected ha := absurd (.inr ha) hs
  unused hopen := absurd hopen hs

/-- An event about a record that is closed, other than a request. -/
theorem ApprovalRecord.Vouched.cons_closed {log : List Event} {r : ApprovalRecord}
    (h : r.Vouched log) (hs : ¬ (r.status = .pending ∨ r.status = .approved)) {e : Event}
    (he : ∀ id action expires, e ≠ .requested id action expires) : r.Vouched (e :: log) where
  requested := List.mem_cons_of_mem e h.requested
  unchanged action expires hmem := by
    rcases List.mem_cons.1 hmem with heq | hmem
    · exact absurd heq.symm (he _ _ _)
    · exact h.unchanged action expires hmem
  undecided hp := absurd (.inl hp) hs
  given ha := absurd (.inr ha) hs
  notRejected ha := absurd (.inr ha) hs
  unused hopen := absurd hopen hs

/-- A pending record is approved. -/
theorem ApprovalRecord.Vouched.approve {log : List Event} {r : ApprovalRecord} (h : r.Vouched log)
    (hp : r.status = .pending) (token : String) (now : ℚ) :
    ApprovalRecord.Vouched (.approved r.id now :: log)
      { r with status := .approved, token := token } where
  requested := List.mem_cons_of_mem _ h.requested
  unchanged action expires hmem := by
    rcases List.mem_cons.1 hmem with heq | hmem
    · cases heq
    · exact h.unchanged action expires hmem
  undecided hs := by cases hs
  given _ := ⟨now, List.mem_cons_self⟩
  notRejected _ hmem := by
    rcases List.mem_cons.1 hmem with heq | hmem
    · cases heq
    · exact h.undecided hp _ hmem rfl
  unused _ action now hmem := by
    rcases List.mem_cons.1 hmem with heq | hmem
    · cases heq
    · exact h.unused (.inl hp) action now hmem

theorem ApprovalRecord.Vouched.expire {log : List Event} {r : ApprovalRecord} (h : r.Vouched log)
    (now : ℚ) : (r.expire now).Vouched log := by
  unfold ApprovalRecord.expire
  split
  · exact h.closed (by decide) ""
  · exact h

/-- Every event of the log is about a record, and every record is vouched for by the log. -/
structure Vouches (log : List Event) (records : Rows ApprovalRecord.id) : Prop where
  known : ∀ e ∈ log, ∀ id, e.approvalId? = some id → id ∈ records.rows.keys
  vouched : ∀ k r, records.rows.get? k = some r → r.Vouched log

namespace Vouches

variable {log : List Event} {records : Rows ApprovalRecord.id}

/-- No event is about a new id. -/
theorem unknown (h : Vouches log records) {id : String} (hid : id ∉ records.rows.keys) {e : Event}
    (he : e ∈ log) : e.approvalId? ≠ some id := fun heq => hid (h.known e he id heq)

theorem expire (h : Vouches log records) (now : ℚ) :
    Vouches log (records.map (·.expire now) (ApprovalRecord.expire_id now)) where
  known e he id hid := by
    rw [Dict.mem_keys_iff]
    obtain ⟨r, hr⟩ := (Dict.mem_keys_iff _ _).1 (h.known e he id hid)
    exact ⟨r.expire now, by simp [Rows.map, hr]⟩
  vouched k r hr := by
    rw [Rows.map, Dict.get?_mapValues, Option.map_eq_some_iff] at hr
    obtain ⟨r', hr', rfl⟩ := hr
    exact (h.vouched k r' hr').expire now

/-- A record is put into the store together with an event about it. -/
theorem put (h : Vouches log records) {e : Event} {r : ApprovalRecord}
    (he : e.approvalId? = some r.id) (hr : r.Vouched (e :: log)) :
    Vouches (e :: log) (records.put r) where
  known e' he' id hid := by
    rw [Rows.put, Dict.mem_keys_set]
    rcases List.mem_cons.1 he' with rfl | he'
    · exact .inl (Option.some.inj (hid.symm.trans he))
    · exact .inr (h.known e' he' id hid)
  vouched k r' hr' := by
    rw [Rows.get?_put] at hr'
    by_cases hk : k = r.id
    · rw [if_pos hk] at hr'
      exact Option.some.inj hr' ▸ hr
    · rw [if_neg hk] at hr'
      have hk' : r'.id = k := records.keyed k r' hr'
      refine (h.vouched k r' hr').cons fun heq => hk ?_
      rw [← hk']
      exact Option.some.inj (heq.symm.trans he)

/-- An event about no approval. -/
theorem cons (h : Vouches log records) {e : Event} (he : e.approvalId? = none) :
    Vouches (e :: log) records where
  known e' he' id hid := by
    rcases List.mem_cons.1 he' with rfl | he'
    · rw [he] at hid
      cases hid
    · exact h.known e' he' id hid
  vouched k r hr := (h.vouched k r hr).cons (by simp [he])

end Vouches

/-! ## One input -/

section

variable [PyLib] [ActionDigest]

/-- What is kept over the runs of a service. -/
structure ControlService.Vouched (s : ControlService) : Prop where
  vouches : Vouches s.log s.approvals.records
  accountable : Accountable s.requiresApproval s.log
  /-- Each action under way was let through on its own. -/
  running : (s.running.map ToolCall.action).Subperm (s.log.filterMap Event.admittedAction?)

namespace Vouches

variable {a : ApprovalStore} {log : List Event} (requiresApproval : Bool)

theorem request (h : Vouches log a.records) (now : ℚ) (action : DeviceAction)
    (source reason : String) {fresh : String} (hfresh : fresh ∉ a.records.rows.keys)
    {r : ApprovalRecord} {a' : ApprovalStore}
    (heq : a.request now action source reason fresh = (r, a')) :
    (Event.requested r.id r.action r.expires).Covered requiresApproval log ∧
      Vouches (.requested r.id r.action r.expires :: log) a'.records := by
  have hexp : Vouches log (a.expireLocked now).records := h.expire now
  rcases a.request_cases now action source reason fresh with
    ⟨r', hget, hp, -, -, hreq⟩ | ⟨r', hr', -, hreq⟩
  · obtain ⟨rfl, rfl⟩ := Prod.mk.inj (heq.symm.trans hreq)
    have hv := hexp.vouched _ r hget
    -- The record is there already: the event repeats what the log says.
    have hv' : r.Vouched (.requested r.id r.action r.expires :: log) :=
      { requested := List.mem_cons_self
        unchanged := fun action expires hmem => by
          rcases List.mem_cons.1 hmem with heq | hmem
          · simpa using heq
          · exact hv.unchanged action expires hmem
        undecided := fun _ e he => by
          rcases List.mem_cons.1 he with rfl | he
          · exact id
          · exact hv.undecided hp e he
        given := fun ha => absurd (hp.symm.trans ha) (by decide)
        notRejected := fun ha => absurd (hp.symm.trans ha) (by decide)
        unused := fun hs action now hmem => by
          rcases List.mem_cons.1 hmem with heq | hmem
          · cases heq
          · exact hv.unused hs action now hmem }
    refine ⟨⟨hv.undecided hp, hv.unchanged⟩, ?_⟩
    rw [← Rows.put_of_get? hget]
    exact hexp.put rfl hv'
  · obtain ⟨rfl, rfl⟩ := Prod.mk.inj (heq.symm.trans hreq)
    have hid : r.id ∉ (a.expireLocked now).records.rows.keys := by
      rw [hr', ← Dict.get?_eq_none_iff]
      simp [ApprovalStore.expireLocked, Rows.map, (Dict.get?_eq_none_iff _ _).2 hfresh]
    have hnone := fun e (he : e ∈ log) => hexp.unknown hid he
    have hpending : r.status = .pending := by rw [hr']
    have hv : r.Vouched (.requested r.id r.action r.expires :: log) :=
      { requested := List.mem_cons_self
        unchanged := fun action expires hmem => by
          rcases List.mem_cons.1 hmem with heq | hmem
          · simpa using heq
          · exact absurd rfl (hnone _ hmem)
        undecided := fun _ e he => by
          rcases List.mem_cons.1 he with rfl | he
          · exact id
          · exact fun hd => hnone e he (Event.approvalId?_of_decides hd)
        given := fun ha => absurd (hpending.symm.trans ha) (by decide)
        notRejected := fun ha => absurd (hpending.symm.trans ha) (by decide)
        unused := fun _ action now hmem => by
          rcases List.mem_cons.1 hmem with heq | hmem
          · cases heq
          · exact hnone _ hmem rfl }
    have hundecided : ∀ e ∈ log, ¬ e.Decides r.id :=
      fun e he hd => hnone e he (Event.approvalId?_of_decides hd)
    exact ⟨⟨hundecided, fun _ _ hmem => absurd rfl (hnone _ hmem)⟩, hexp.put rfl hv⟩

end Vouches

namespace ControlService.Vouched

variable {s : ControlService}

/-- The approvals and the log are the same, and no more actions are under way. -/
theorem congr (h : s.Vouched) {s' : ControlService} (happrovals : s'.approvals = s.approvals)
    (hlog : s'.log = s.log) (hmode : s'.requiresApproval = s.requiresApproval)
    (hrunning : s'.running.Sublist s.running) : s'.Vouched where
  vouches := by
    rw [happrovals, hlog]
    exact h.vouches
  accountable := by
    rw [hmode, hlog]
    exact h.accountable
  running := by
    rw [hlog]
    exact (hrunning.map ToolCall.action).subperm.trans h.running

/-- A call is let through. -/
theorem let_through (h : s.Vouched) {call : ToolCall} {now : ℚ} {approval : Option String}
    {approvals : ApprovalStore}
    (hcov : Event.Covered s.requiresApproval s.log (.admitted approval call.action now))
    (happrovals : Vouches (.admitted approval call.action now :: s.log) approvals.records) :
    ControlService.Vouched
      { s with
        approvals := approvals
        running := s.running ++ [call]
        log := .admitted approval call.action now :: s.log } where
  vouches := happrovals
  accountable := ⟨hcov, h.accountable⟩
  running := by
    have hlast : ((s.running ++ [call]).map ToolCall.action).Perm
        (call.action :: s.running.map ToolCall.action) := by
      simp
    exact hlast.subperm_right.2 ((List.subperm_cons _).2 h.running)

/-- The clock is read. -/
theorem expire (h : s.Vouched) (now : ℚ) :
    ControlService.Vouched { s with approvals := s.approvals.expireLocked now } :=
  ⟨h.vouches.expire now, h.accountable, h.running⟩

theorem requestApproval (h : s.Vouched) (now : ℚ) (action : DeviceAction) (source reason : String)
    {fresh : String} (hfresh : fresh ∉ s.approvals.records.rows.keys) :
    (s.requestApproval now action source reason fresh).2.Vouched := by
  have hreq := h.vouches.request s.requiresApproval now action source reason hfresh
    Prod.mk.eta.symm
  exact ⟨hreq.2, ⟨hreq.1, h.accountable⟩, h.running⟩

theorem atGate (h : s.Vouched) (call : ToolCall) (now : ℚ) {fresh : String}
    (hfresh : fresh ∉ s.approvals.records.rows.keys) : (s.atGate call now fresh).Vouched := by
  unfold ControlService.atGate
  split
  · split
    · exact h.requestApproval now call.action call.source call.reason hfresh
    · rcases s.approvals.consume_cases now call.approvalToken call.action with
        ⟨e, heq⟩ | ⟨e, heq⟩ | ⟨r, hget, hs, -, hf, heq⟩ <;> rw [heq]
      · exact h.congr rfl rfl rfl (List.Sublist.refl _)
      · exact (h.expire now).congr rfl rfl rfl (List.Sublist.refl _)
      · have hexp : Vouches s.log (s.approvals.expireLocked now).records := h.vouches.expire now
        have hv := hexp.vouched _ r hget
        have hlt := ApprovalStore.lt_expires hget (.inr hs)
        have hused := (hv.closed (by decide : ¬ (ApprovalStatus.consumed = .pending ∨ ApprovalStatus.consumed = .approved)) "").cons_closed (by simp)
          (e := .admitted (some r.id) call.action now) fun _ _ _ => by simp
        have hcov : Event.Covered s.requiresApproval s.log (.admitted (some r.id) call.action now) :=
          ⟨⟨r.action, r.expires, hv.requested, hf, hlt⟩, hv.given hs, hv.notRejected hs,
            hv.unused (.inr hs)⟩
        exact h.let_through hcov (hexp.put rfl hused)
  · next hfree =>
    have hcov : Event.Covered s.requiresApproval s.log (.admitted none call.action now) :=
      fun hconfirm => by
        by_contra hmode
        exact hfree ⟨hconfirm, by simpa using hmode⟩
    exact h.let_through hcov (h.vouches.cons rfl)

theorem finished (h : s.Vouched) (call : ToolCall) (outcome : Outcome) (now : ℚ) {fresh : String}
    (hfresh : fresh ∉ s.approvals.records.rows.keys) :
    (s.finished call outcome now fresh).Vouched := by
  have hkeep : ∀ (s' : ControlService) (replies : Dict String Reply), s'.Vouched →
      (if call.idempotencyKey = "" then s' else { s' with replies := replies }).Vouched := by
    intro s' replies hs'
    split
    · exact hs'
    · exact hs'.congr rfl rfl rfl (List.Sublist.refl _)
  unfold ControlService.finished
  cases outcome with
  | raised => exact h
  | succeeded data => exact hkeep _ _ h
  | failed approvalRequired action reason =>
    dsimp only
    split
    · exact hkeep _ _ (h.requestApproval now action "app-action" reason hfresh)
    · exact hkeep _ _ h

theorem approve (h : s.Vouched) (id token : String) (now : ℚ) :
    (s.step (.approve id token now)).Vouched := by
  rw [step]
  rcases s.approvals.decided_cases now id
      (fun r => { r with status := .approved, token := token }) with ⟨e, heq⟩ | ⟨r, hget, hp, heq⟩
  · rw [ApprovalStore.approve, heq]
    exact (h.expire now).congr rfl rfl rfl (List.Sublist.refl _)
  · rw [ApprovalStore.approve, heq]
    have hexp : Vouches s.log (s.approvals.expireLocked now).records := h.vouches.expire now
    have hv := hexp.vouched _ r hget
    have hlt := ApprovalStore.lt_expires hget (.inl hp)
    have hcov : Event.Covered s.requiresApproval s.log (.approved r.id now) :=
      ⟨⟨r.action, r.expires, hv.requested, hlt⟩, hv.undecided hp⟩
    exact ⟨hexp.put rfl (hv.approve hp token now), ⟨hcov, h.accountable⟩, h.running⟩

theorem reject (h : s.Vouched) (id : String) (now : ℚ) :
    (s.step (.reject id now)).Vouched := by
  rw [step]
  rcases s.approvals.decided_cases now id (fun r => { r with status := .rejected }) with
    ⟨e, heq⟩ | ⟨r, hget, hp, heq⟩
  · rw [ApprovalStore.reject, heq]
    exact (h.expire now).congr rfl rfl rfl (List.Sublist.refl _)
  · rw [ApprovalStore.reject, heq]
    have hexp : Vouches s.log (s.approvals.expireLocked now).records := h.vouches.expire now
    have hv := hexp.vouched _ r hget
    have hclosed := (hv.closed (by decide : ¬ (ApprovalStatus.rejected = .pending ∨ ApprovalStatus.rejected = .approved)) r.token).cons_closed (by simp)
      (e := .rejected r.id) fun _ _ _ => by simp
    have hcov : Event.Covered s.requiresApproval s.log (.rejected r.id) :=
      ⟨⟨r.action, r.expires, hv.requested⟩, hv.undecided hp⟩
    exact ⟨hexp.put rfl hclosed, ⟨hcov, h.accountable⟩, h.running⟩

end ControlService.Vouched

/-! ## Runs -/

namespace ControlService

theorem vouched_start (ttlSeconds : ℚ) (requiresApproval : Bool) :
    (start ttlSeconds requiresApproval).Vouched where
  vouches := ⟨fun _ he => absurd he List.not_mem_nil, fun _ _ hr => by cases hr⟩
  running := List.Subperm.refl _
  accountable := trivial

/-- What one input keeps. -/
theorem Vouched.step {s : ControlService} (h : s.Vouched) (input : Input)
    (hfresh : s.FreshId input) : (s.step input).Vouched := by
  cases input with
  | arrive call =>
    rw [ControlService.step]
    split
    · exact h
    · exact h.congr rfl rfl rfl (List.Sublist.refl _)
  | gate index now fresh =>
    rw [ControlService.step]
    split
    · exact h
    · next call _ =>
      have harrived : ControlService.Vouched { s with arriving := s.arriving.eraseIdx index } :=
        h.congr rfl rfl rfl (List.Sublist.refl _)
      exact harrived.atGate call now hfresh
  | finish index outcome now fresh =>
    rw [ControlService.step]
    split
    · exact h
    · next call _ =>
      have hended : ControlService.Vouched { s with running := s.running.eraseIdx index } :=
        h.congr rfl rfl rfl (List.eraseIdx_sublist _ _)
      exact hended.finished call outcome now hfresh
  | approve approvalId token now => exact h.approve approvalId token now
  | reject approvalId now => exact h.reject approvalId now
  | get approvalId now =>
    have hget : (s.approvals.get now approvalId).2 = s.approvals.expireLocked now := by
      unfold ApprovalStore.get
      dsimp only
      split <;> rfl
    rw [ControlService.step, hget]
    exact h.expire now
  | pending now => exact h.expire now

/-- Whether actions need approvals stays as it is. -/
theorem requiresApproval_step (s : ControlService) (input : Input) :
    (s.step input).requiresApproval = s.requiresApproval := by
  cases input with
  | arrive call =>
    rw [ControlService.step]
    split <;> rfl
  | gate index now fresh =>
    rw [ControlService.step]
    split
    · rfl
    · rw [atGate]
      split
      · split
        · rfl
        · split <;> rfl
      · rfl
  | finish index outcome now fresh =>
    rw [ControlService.step]
    split
    · rfl
    · unfold finished
      cases outcome with
      | raised => rfl
      | succeeded data =>
        dsimp only
        split <;> rfl
      | failed approvalRequired action reason =>
        dsimp only
        split <;> split <;> rfl
  | approve approvalId token now =>
    rw [ControlService.step]
    split <;> rfl
  | reject approvalId now =>
    rw [ControlService.step]
    split <;> rfl
  | get approvalId now => rfl
  | pending now => rfl

/-- In every run, every event has what it needs among the events before it: what is let through at
the gate and needs an approval has one that was given for it, is valid and was never used. Each
action under way was let through on its own. -/
theorem accountable_run (ttlSeconds : ℚ) (requiresApproval : Bool) (inputs : List Input)
    (hfresh : Machine.Meets ControlService.step FreshId (start ttlSeconds requiresApproval) inputs) :
    let s := Machine.run ControlService.step (start ttlSeconds requiresApproval) inputs
    Accountable requiresApproval s.log ∧
      (s.running.map ToolCall.action).Subperm (s.log.filterMap Event.admittedAction?) := by
  have hv := hfresh.invariant
    (I := fun s => s.Vouched ∧ s.requiresApproval = requiresApproval)
    (fun s i hs hi => ⟨hs.1.step i hi, (s.requiresApproval_step i).trans hs.2⟩)
    ⟨vouched_start ttlSeconds requiresApproval, rfl⟩
  have hlog := hv.1.accountable
  rw [hv.2] at hlog
  exact ⟨hlog, hv.1.running⟩

end ControlService

end

/-- Of two calls with one approval, one is let through. -/
theorem ControlService.accountable_overtaking :
    letI := PyLib.atEpoch
    letI := joinedDigest
    let s := Machine.run ControlService.step (start 300 true) overtaking
    s.log.length = 3 ∧ s.running.length = 1 ∧ Accountable true s.log ∧
      (s.running.map ToolCall.action).Subperm (s.log.filterMap Event.admittedAction?) := by
  let _ := PyLib.atEpoch
  let _ := joinedDigest
  have hmeets : Machine.Meets ControlService.step FreshId (start 300 true) overtaking := by
    decide +kernel
  exact ⟨by decide +kernel, by decide +kernel, accountable_run 300 true overtaking hmeets⟩

end DeviceShell.Mcp
