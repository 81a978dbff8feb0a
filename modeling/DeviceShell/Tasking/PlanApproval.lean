import DeviceShell.Lib.Fallible
import DeviceShell.Lib.Machine
import DeviceShell.Tasking.PlanGate

/-!
# Approving plans

The plans of `DesktopMcpService`: validating a plan stores it under its id, an approval is kept by
the id alone, and both are written to the plan store, from which a new service reads them back. A
task may be created from a plan that needs confirmation when its id is approved. An approval binds
to the content that was approved (`approvalBinds`) in every run in which a plan with an approved id
is only replaced by one with the same content hash.
-/

namespace DeviceShell.Tasking

/-! ## The service -/

/-- What a tool raises. -/
inductive ToolError where
  /-- `ResourceNotFoundError`. -/
  | resourceNotFound (message : String) (details : List (String × String))
  /-- `UnsupportedOperationError`. -/
  | unsupportedOperation (message : String) (details : List (String × String))
  | python (e : PyError)

/-- A row of the plan store. -/
structure PlanRow where
  approved : Bool
  validation : PlanValidationResult

/-- The plans of a `DesktopMcpService`, and its plan store when it has one. -/
structure PlanService where
  /-- `_plans`; the plan of an entry is that of its validation. -/
  plans : Dict String PlanValidationResult := ∅
  /-- `_approved_plans`. -/
  approved : List String := []
  /-- `_plan_store`. -/
  store : Option (Dict String PlanRow) := none

/-- A task that was created from a stored plan. -/
structure PlannedTask where
  planId : String
  validation : PlanValidationResult
  /-- `approved_steps` of the task's context, when the service sets it. -/
  approvedSteps : Option (List String)

namespace PlanService

/-- `_persist_plan`. -/
def persistPlan (validation : PlanValidationResult) (approved : Bool) (s : PlanService) :
    PlanService :=
  { s with store := s.store.map fun rows =>
      let planId := validation.plan.planId
      if planId = "" then rows
      else rows.set planId ⟨approved || s.approved.contains planId, validation⟩ }

/-- A plan under the id that it is stored with; `fresh` is the text of a new identifier. -/
def named (plan : WorkflowPlan) (fresh : String) : WorkflowPlan :=
  if plan.planId = "" then { plan with planId := "plan-" ++ fresh } else plan

section

variable [PyLib] [PyText] [PlanHash]

/-- `_tool_workflow_plan_validate`. -/
def validatePlan (catalog : WorkflowCatalog) (knownDevice : String → Bool) (plan : WorkflowPlan)
    (fresh : String) (s : PlanService) : Except ToolError PlanService :=
  let deviceId := strip ((plan.target.get? "device_id").getD "")
  if deviceId ≠ "" ∧ knownDevice deviceId = false then
    .error (.resourceNotFound "Unknown device." [("device_id", deviceId)])
  else match validate catalog (named plan fresh) with
    | .error e => .error (.python e)
    | .ok validation =>
      if validation.status = .rejected then .ok s
      else .ok (persistPlan validation false
        { s with plans := s.plans.set validation.plan.planId validation })

end

/-- The stored plan that a tool names. -/
def stored (planId message : String) (s : PlanService) : Except ToolError PlanValidationResult :=
  match s.plans.get? planId with
  | some validation => .ok validation
  | none => .error (.resourceNotFound message [("plan_id", planId)])

/-- The hash that a caller expects. -/
def checkHash (expected : String) (validation : PlanValidationResult) : Except ToolError Unit :=
  if strip expected ≠ "" ∧ strip expected ≠ validation.planHash then
    .error (.unsupportedOperation "Workflow plan hash does not match the validated plan." [])
  else .ok ()

/-- The check of an approval. -/
def checkApprovable (validation : PlanValidationResult) : Except ToolError Unit :=
  if validation.status = .rejected then
    .error (.unsupportedOperation "Only a valid plan can be approved." [])
  else .ok ()

/-- `_tool_workflow_plan_approve`: the service, and the hash of the plan that is approved. -/
def approvePlan (planId planHash : String) (s : PlanService) :
    Except ToolError (PlanService × String) :=
  let planId := strip planId
  if planId = "" then .error (.unsupportedOperation "plan_id is required." [])
  else do
    let validation ← s.stored planId "Unknown workflow plan."
    checkHash planHash validation
    checkApprovable validation
    let s := { s with approved := planId :: s.approved }
    return (s.persistPlan validation true, validation.planHash)

/-- The check of the confirmation of a plan that a task is to run. -/
def checkConfirmed (planId : String) (validation : PlanValidationResult) (s : PlanService) :
    Except ToolError Unit :=
  if validation.status ≠ .validated ∧ s.approved.contains planId = false then
    .error (.unsupportedOperation "Workflow plan requires confirmation before it can run."
      [("status", validation.status.value)])
  else if validation.workflow.isNone then
    .error (.unsupportedOperation "Validated workflow has no compiled definition." [])
  else .ok ()

/-- `_create_task` from a stored plan. `opened` is how resolving the device's session and creating
the task end. -/
def createTask (planId planHash : String) (opened : Except ToolError Unit) (s : PlanService) :
    Except ToolError PlannedTask := do
  let planId := strip planId
  let validation ← s.stored planId "Unknown or expired workflow plan."
  checkHash planHash validation
  s.checkConfirmed planId validation
  opened
  return {
    planId := planId
    validation := validation
    approvedSteps := if s.approved.contains planId then
        some ((validation.requiredActions.map (·.targetStep)).filter (· ≠ ""))
      else none }

/-- A new service over the same plan store. `readable` says which rows are among the newest 500 and
can be read back. -/
def restart (readable : String → Bool) (s : PlanService) : PlanService :=
  let rows := (s.store.getD ∅).filterKeys readable
  { plans := rows.mapValues (·.validation)
    approved := rows.keys.filter fun planId => (rows.get? planId).any (·.approved)
    store := s.store }

end PlanService

/-! ## Runs -/

/-- A call, or a restart of the process. -/
inductive PlanCall where
  | validatePlan (plan : WorkflowPlan) (fresh : String)
  | approvePlan (planId planHash : String)
  | createTask (planId planHash : String) (opened : Except ToolError Unit)
  | restart (readable : String → Bool)

/-- What the calls have done so far. -/
inductive PlanEvent where
  /-- A plan was approved while the stored plan had the hash. -/
  | approved (planId planHash : String)
  | created (task : PlannedTask)

/-- The service with what has happened. -/
structure PlanWorld where
  service : PlanService
  events : List PlanEvent := []

section

variable [PyLib] [PyText] [PlanHash]

/-- A call on the service; a call that raises changes nothing. -/
def planStep (catalog : WorkflowCatalog) (knownDevice : String → Bool) (w : PlanWorld) :
    PlanCall → PlanWorld
  | .validatePlan plan fresh => match w.service.validatePlan catalog knownDevice plan fresh with
    | .ok s => { w with service := s }
    | .error _ => w
  | .approvePlan planId planHash => match w.service.approvePlan planId planHash with
    | .ok (s, hash) => ⟨s, w.events ++ [.approved (strip planId) hash]⟩
    | .error _ => w
  | .createTask planId planHash opened => match w.service.createTask planId planHash opened with
    | .ok task => { w with events := w.events ++ [.created task] }
    | .error _ => w
  | .restart readable => { w with service := w.service.restart readable }

/-- A plan that is stored under an approved id has the content hash of the plan that is there. -/
def KeepsContent (catalog : WorkflowCatalog) (w : PlanWorld) : PlanCall → Prop
  | .validatePlan plan fresh =>
    let plan := PlanService.named plan fresh
    w.service.approved.contains plan.planId = true →
      (validate catalog plan).toOption.any (·.status ≠ .rejected) = true →
        (w.service.plans.get? plan.planId).any (·.planHash = plan.contentHash) = true
  | _ => True

end

/-- A task needs the approval of its plan's content: it runs a plan under confirmation, or marks
steps as approved. -/
def PlannedTask.NeedsApproval (task : PlannedTask) : Prop :=
  task.validation.status = .requiresConfirmation ∨ task.approvedSteps.any (· ≠ []) = true

/-- Approvals bind to the content: every task that needs one was created after the approval of the
plan with the hash that it had then, and whatever is approved, in the service or in its store, was
approved with the hash that it has. -/
structure ApprovalBinds (w : PlanWorld) : Prop where
  created : ∀ before task after, w.events = before ++ .created task :: after →
    task.NeedsApproval → .approved task.planId task.validation.planHash ∈ before
  inMemory : ∀ planId ∈ w.service.approved, ∀ validation,
    w.service.plans.get? planId = some validation →
      .approved planId validation.planHash ∈ w.events
  inStore : ∀ rows, w.service.store = some rows → ∀ planId row, rows.get? planId = some row →
    row.approved = true → .approved planId row.validation.planHash ∈ w.events

/-! ## The invariant -/

/-- What the calls keep: approvals bind, every approved plan is stored, and every plan is stored
under its own id. -/
structure PlansKept (w : PlanWorld) : Prop where
  binds : ApprovalBinds w
  stored : ∀ planId ∈ w.service.approved, ∃ validation,
    w.service.plans.get? planId = some validation
  ownId : ∀ planId validation, w.service.plans.get? planId = some validation →
    validation.plan.planId = planId
  rowOwnId : ∀ rows, w.service.store = some rows → ∀ planId row, rows.get? planId = some row →
    row.validation.plan.planId = planId

/-- A further event keeps the order of approvals and tasks when it is no task or comes after its
approval. -/
theorem created_append {events : List PlanEvent} {e : PlanEvent}
    (h : ∀ before task after, events = before ++ .created task :: after →
      task.NeedsApproval → .approved task.planId task.validation.planHash ∈ before)
    (he : ∀ task, e = .created task → task.NeedsApproval →
      .approved task.planId task.validation.planHash ∈ events) :
    ∀ before task after, events ++ [e] = before ++ .created task :: after →
      task.NeedsApproval → .approved task.planId task.validation.planHash ∈ before := by
  intro before task after heq hneeds
  rcases List.eq_nil_or_concat after with rfl | ⟨after, last, rfl⟩
  · obtain ⟨rfl, hlast⟩ := List.append_inj' heq rfl
    exact he task (List.cons.inj hlast).1 hneeds
  · rw [List.concat_eq_append, ← List.cons_append, ← List.append_assoc] at heq
    obtain ⟨rfl, -⟩ := List.append_inj' heq rfl
    exact h before task after rfl hneeds

section

variable [PyLib] [PyText] [PlanHash]

/-- A validation is about the plan it was asked for, and has its hash. -/
theorem plan_of_validate {catalog : WorkflowCatalog} {plan : WorkflowPlan}
    {result : PlanValidationResult} (h : validate catalog plan = .ok result) :
    result.plan = plan ∧ result.planHash = plan.contentHash := by
  unfold validate at h
  obtain ⟨found, -, h⟩ := Except.bind_eq_ok.1 h
  split at h
  · obtain rfl := Except.ok.inj h
    exact ⟨rfl, rfl⟩
  · obtain ⟨workflow, -, h⟩ := Except.bind_eq_ok.1 h
    obtain ⟨taskPlan, -, h⟩ := Except.bind_eq_ok.1 h
    obtain rfl := Except.ok.inj h
    exact ⟨rfl, rfl⟩

/-- What validating a plan does: nothing, or it stores a validation of the plan. -/
theorem validatePlan_cases {catalog : WorkflowCatalog} {knownDevice : String → Bool}
    {plan : WorkflowPlan} {fresh : String} {s s' : PlanService}
    (h : s.validatePlan catalog knownDevice plan fresh = .ok s') :
    s' = s ∨ ∃ validation, validate catalog (PlanService.named plan fresh) = .ok validation ∧
      validation.status ≠ .rejected ∧
        s' = PlanService.persistPlan validation false
          { s with plans := s.plans.set validation.plan.planId validation } := by
  unfold PlanService.validatePlan at h
  dsimp only at h
  split at h
  · cases h
  split at h
  · cases h
  · rename_i validation hvalidation
    split at h
    · obtain rfl := Except.ok.inj h
      exact .inl rfl
    · rename_i hstatus
      obtain rfl := Except.ok.inj h
      exact .inr ⟨validation, hvalidation, hstatus, rfl⟩

omit [PyLib] [PyText] [PlanHash] in
/-- The plan that a tool finds. -/
theorem get?_of_stored {planId message : String} {s : PlanService}
    {validation : PlanValidationResult} (h : s.stored planId message = .ok validation) :
    s.plans.get? planId = some validation := by
  unfold PlanService.stored at h
  split at h
  · rename_i found hfound
    obtain rfl := Except.ok.inj h
    exact hfound
  · cases h

omit [PyLib] [PyText] [PlanHash] in
/-- What approving a plan does. -/
theorem approvePlan_cases {planId planHash hash : String} {s s' : PlanService}
    (h : s.approvePlan planId planHash = .ok (s', hash)) :
    ∃ validation, s.plans.get? (strip planId) = some validation ∧ hash = validation.planHash ∧
      s' = PlanService.persistPlan validation true
        { s with approved := strip planId :: s.approved } := by
  unfold PlanService.approvePlan at h
  dsimp only at h
  split at h
  · cases h
  obtain ⟨validation, hstored, h⟩ := Except.bind_eq_ok.1 h
  obtain ⟨-, -, h⟩ := Except.bind_eq_ok.1 h
  obtain ⟨-, -, h⟩ := Except.bind_eq_ok.1 h
  obtain ⟨rfl, rfl⟩ := Prod.mk.inj (Except.ok.inj h)
  exact ⟨validation, get?_of_stored hstored, rfl, rfl⟩

omit [PyLib] [PyText] [PlanHash] in
/-- When a task is created from a stored plan. -/
theorem createTask_cases {planId planHash : String} {opened : Except ToolError Unit}
    {s : PlanService} {task : PlannedTask} (h : s.createTask planId planHash opened = .ok task) :
    s.plans.get? task.planId = some task.validation ∧
      (task.NeedsApproval → task.planId ∈ s.approved) := by
  unfold PlanService.createTask at h
  obtain ⟨validation, hstored, h⟩ := Except.bind_eq_ok.1 h
  obtain ⟨-, -, h⟩ := Except.bind_eq_ok.1 h
  obtain ⟨⟨⟩, hconfirmed, h⟩ := Except.bind_eq_ok.1 h
  obtain ⟨-, -, h⟩ := Except.bind_eq_ok.1 h
  obtain rfl := Except.ok.inj h
  refine ⟨get?_of_stored hstored, fun hneeds => ?_⟩
  show strip planId ∈ s.approved
  by_contra hnot
  have hcontains : s.approved.contains (strip planId) = false := by simpa using hnot
  rcases hneeds with hstatus | hmarked
  · change validation.status = .requiresConfirmation at hstatus
    have hne : validation.status ≠ .validated := by
      rw [hstatus]
      decide
    have hrefused : s.checkConfirmed (strip planId) validation = .error _ :=
      if_pos ⟨hne, hcontains⟩
    change s.checkConfirmed (strip planId) validation = _ at hconfirmed
    rw [hrefused] at hconfirmed
    cases hconfirmed
  · change (if s.approved.contains (strip planId) then some _ else none : Option _).any _ = true
      at hmarked
    rw [hcontains] at hmarked
    cases hmarked

omit [PyLib] [PyText] [PlanHash] in
/-- Where a row of the store comes from after a plan is written: it was there, or it is the plan's,
and then approved only when it is said so or the service has the approval. -/
theorem row_of_persistPlan {validation : PlanValidationResult} {approved : Bool} {s : PlanService}
    {rows : Dict String PlanRow} (hrows : (PlanService.persistPlan validation approved s).store =
      some rows) {planId : String} {row : PlanRow} (hrow : rows.get? planId = some row) :
    (∃ old, s.store = some old ∧ old.get? planId = some row) ∨
      (planId = validation.plan.planId ∧ row.validation = validation ∧
        (row.approved = true → approved = true ∨ planId ∈ s.approved)) := by
  unfold PlanService.persistPlan at hrows
  obtain ⟨old, hold, hset⟩ := Option.map_eq_some_iff.1 hrows
  dsimp only at hset
  split at hset
  · obtain rfl := hset
    exact .inl ⟨old, hold, hrow⟩
  · subst hset
    rw [Dict.get?_set] at hrow
    split at hrow
    · rename_i hid
      obtain rfl := Option.some.inj hrow
      refine .inr ⟨hid, rfl, fun happroved => ?_⟩
      rcases Bool.or_eq_true_iff.1 happroved with happroved | happroved
      · exact .inl happroved
      · rw [hid]
        exact .inr (List.contains_iff_mem.1 happroved)
    · exact .inl ⟨old, hold, hrow⟩

/-- Validating a plan with the content that an approval is for. -/
theorem validatePlan_kept {catalog : WorkflowCatalog} {knownDevice : String → Bool}
    {w : PlanWorld} {plan : WorkflowPlan} {fresh : String} (h : PlansKept w)
    (hok : KeepsContent catalog w (.validatePlan plan fresh)) :
    PlansKept (planStep catalog knownDevice w (.validatePlan plan fresh)) := by
  unfold planStep
  dsimp only
  cases hcall : w.service.validatePlan catalog knownDevice plan fresh with
  | error e => exact h
  | ok s =>
    rcases validatePlan_cases hcall with rfl | ⟨validation, hvalidation, hstatus, rfl⟩
    · exact h
    obtain ⟨hplan, hhash⟩ := plan_of_validate hvalidation
    -- The new content of an approved plan is the content that was approved.
    have hsame : validation.plan.planId ∈ w.service.approved →
        .approved validation.plan.planId validation.planHash ∈ w.events := by
      intro hmem
      obtain ⟨old, hold⟩ := h.stored _ hmem
      have hnotRejected : (validate catalog (PlanService.named plan fresh)).toOption.any
          (·.status ≠ .rejected) = true := by
        rw [hvalidation]
        exact decide_eq_true hstatus
      rw [hplan] at hmem hold ⊢
      have hcontent := hok (List.contains_iff_mem.2 hmem) hnotRejected
      rw [hold] at hcontent
      have heq : old.planHash = (PlanService.named plan fresh).contentHash :=
        of_decide_eq_true hcontent
      rw [hhash, ← heq]
      exact h.binds.inMemory _ hmem old hold
    refine ⟨⟨h.binds.created, ?_, ?_⟩, ?_, ?_, ?_⟩
    · intro planId hmem stored hstored
      change (w.service.plans.set validation.plan.planId validation).get? planId = _ at hstored
      rw [Dict.get?_set] at hstored
      split at hstored
      · rename_i hid
        obtain rfl := Option.some.inj hstored
        rw [hid]
        exact hsame (hid ▸ hmem)
      · exact h.binds.inMemory planId hmem stored hstored
    · intro rows hrows planId row hrow happroved
      rcases row_of_persistPlan hrows hrow with ⟨old, hold, hrow⟩ | ⟨hid, hvalid, hflag⟩
      · exact h.binds.inStore old hold planId row hrow happroved
      · rcases hflag happroved with hfalse | hmem
        · cases hfalse
        · rw [hvalid, hid]
          exact hsame (hid ▸ hmem)
    · intro planId hmem
      show ∃ stored, (w.service.plans.set validation.plan.planId validation).get? planId = _
      rw [Dict.get?_set]
      split
      · exact ⟨validation, rfl⟩
      · exact h.stored planId hmem
    · intro planId stored hstored
      change (w.service.plans.set validation.plan.planId validation).get? planId = _ at hstored
      rw [Dict.get?_set] at hstored
      split at hstored
      · rename_i hid
        obtain rfl := Option.some.inj hstored
        exact hid.symm
      · exact h.ownId planId stored hstored
    · intro rows hrows planId row hrow
      rcases row_of_persistPlan hrows hrow with ⟨old, hold, hrow⟩ | ⟨hid, hvalid, -⟩
      · exact h.rowOwnId old hold planId row hrow
      · rw [hvalid, hid]

omit [PyLib] [PyText] [PlanHash] in
/-- Approving a plan. -/
theorem approvePlan_kept {w : PlanWorld} {planId planHash hash : String} {s : PlanService}
    (h : PlansKept w) (hcall : w.service.approvePlan planId planHash = .ok (s, hash)) :
    PlansKept ⟨s, w.events ++ [.approved (strip planId) hash]⟩ := by
  obtain ⟨validation, hstored, rfl, rfl⟩ := approvePlan_cases hcall
  have hown : validation.plan.planId = strip planId := h.ownId _ validation hstored
  have hnew : .approved (strip planId) validation.planHash ∈
      w.events ++ [.approved (strip planId) validation.planHash] :=
    List.mem_append_right _ (List.mem_singleton_self _)
  refine ⟨⟨?_, ?_, ?_⟩, ?_, h.ownId, ?_⟩
  · exact created_append h.binds.created fun task heq => by cases heq
  · intro id hmem stored hstored'
    change w.service.plans.get? id = some stored at hstored'
    rcases List.mem_cons.1 hmem with rfl | hmem
    · rw [hstored] at hstored'
      obtain rfl := Option.some.inj hstored'
      exact hnew
    · exact List.mem_append_left _ (h.binds.inMemory id hmem stored hstored')
  · intro rows hrows id row hrow happroved
    rcases row_of_persistPlan hrows hrow with ⟨old, hold, hrow⟩ | ⟨hid, hvalid, -⟩
    · exact List.mem_append_left _ (h.binds.inStore old hold id row hrow happroved)
    · rw [hvalid, hid, hown]
      exact hnew
  · intro id hmem
    rcases List.mem_cons.1 hmem with rfl | hmem
    · exact ⟨validation, hstored⟩
    · exact h.stored id hmem
  · intro rows hrows id row hrow
    rcases row_of_persistPlan hrows hrow with ⟨old, hold, hrow⟩ | ⟨hid, hvalid, -⟩
    · exact h.rowOwnId old hold id row hrow
    · rw [hvalid, hid]

omit [PyLib] [PyText] [PlanHash] in
/-- Creating a task. -/
theorem createTask_kept {w : PlanWorld} {planId planHash : String}
    {opened : Except ToolError Unit} {task : PlannedTask} (h : PlansKept w)
    (hcall : w.service.createTask planId planHash opened = .ok task) :
    PlansKept { w with events := w.events ++ [.created task] } := by
  obtain ⟨hstored, hneeds⟩ := createTask_cases hcall
  refine ⟨⟨?_, ?_, ?_⟩, h.stored, h.ownId, h.rowOwnId⟩
  · refine created_append h.binds.created fun task' heq hneeds' => ?_
    obtain rfl := PlanEvent.created.inj heq
    exact h.binds.inMemory _ (hneeds hneeds') _ hstored
  · intro id hmem stored hstored'
    exact List.mem_append_left _ (h.binds.inMemory id hmem stored hstored')
  · intro rows hrows id row hrow happroved
    exact List.mem_append_left _ (h.binds.inStore rows hrows id row hrow happroved)

omit [PyLib] [PyText] [PlanHash] in
/-- Restarting: what is approved then is so in the store. -/
theorem restart_kept {w : PlanWorld} (h : PlansKept w) (readable : String → Bool) :
    PlansKept { w with service := w.service.restart readable } := by
  have hrow {planId : String} {row : PlanRow}
      (hget : (((w.service.store.getD ∅).filterKeys readable).get? planId) = some row) :
      ∃ rows, w.service.store = some rows ∧ rows.get? planId = some row := by
    rw [Dict.get?_filterKeys] at hget
    split at hget
    · cases hstore : w.service.store with
      | none =>
        rw [hstore] at hget
        cases hget
      | some rows =>
        rw [hstore] at hget
        exact ⟨rows, rfl, hget⟩
    · cases hget
  have hplan {planId : String} {validation : PlanValidationResult}
      (hget : (w.service.restart readable).plans.get? planId = some validation) :
      ∃ row, ((w.service.store.getD ∅).filterKeys readable).get? planId = some row ∧
        row.validation = validation := by
    unfold PlanService.restart at hget
    dsimp only at hget
    rw [Dict.get?_mapValues] at hget
    exact Option.map_eq_some_iff.1 hget
  have happroved {planId : String} (hmem : planId ∈ (w.service.restart readable).approved) :
      ∃ row, ((w.service.store.getD ∅).filterKeys readable).get? planId = some row ∧
        row.approved = true :=
    (Option.any_eq_true _ _).1 (List.mem_filter.1 hmem).2
  refine ⟨⟨h.binds.created, ?_, h.binds.inStore⟩, ?_, ?_, h.rowOwnId⟩
  · intro planId hmem validation hvalidation
    obtain ⟨row, hget, rfl⟩ := hplan hvalidation
    obtain ⟨row', hget', hflag⟩ := happroved hmem
    rw [hget] at hget'
    obtain rfl := Option.some.inj hget'
    obtain ⟨rows, hrows, hget⟩ := hrow hget
    exact h.binds.inStore rows hrows planId row hget hflag
  · intro planId hmem
    obtain ⟨row, hget, -⟩ := happroved hmem
    refine ⟨row.validation, ?_⟩
    show (((w.service.store.getD ∅).filterKeys readable).mapValues _).get? planId = _
    rw [Dict.get?_mapValues, hget]
    rfl
  · intro planId validation hvalidation
    obtain ⟨row, hget, rfl⟩ := hplan hvalidation
    obtain ⟨rows, hrows, hget⟩ := hrow hget
    exact h.rowOwnId rows hrows planId row hget

/-- Every call that keeps the content of approved plans keeps the invariant. -/
theorem planStep_kept {catalog : WorkflowCatalog} {knownDevice : String → Bool} (w : PlanWorld)
    (call : PlanCall) (h : PlansKept w) (hok : KeepsContent catalog w call) :
    PlansKept (planStep catalog knownDevice w call) := by
  cases call with
  | validatePlan plan fresh => exact validatePlan_kept h hok
  | approvePlan planId planHash =>
    unfold planStep
    dsimp only
    cases hcall : w.service.approvePlan planId planHash with
    | error e => exact h
    | ok result => exact approvePlan_kept h hcall
  | createTask planId planHash opened =>
    unfold planStep
    dsimp only
    cases hcall : w.service.createTask planId planHash opened with
    | error e => exact h
    | ok task => exact createTask_kept h hcall
  | restart readable => exact restart_kept h readable

/-- The service of an application that has no plans yet, with a plan store or without. -/
def noPlans (persistent : Bool) : PlanWorld where
  service := { store := if persistent then some ∅ else none }

omit [PyLib] [PyText] [PlanHash] in
/-- Without plans nothing is approved. -/
theorem noPlans_kept (persistent : Bool) : PlansKept (noPlans persistent) := by
  have hempty : ∀ rows, (noPlans persistent).service.store = some rows → rows = ∅ := by
    intro rows hrows
    cases persistent with
    | false => cases hrows
    | true => exact (Option.some.inj hrows).symm
  refine ⟨⟨?_, ?_, ?_⟩, ?_, ?_, ?_⟩
  · intro before task after heq
    cases before <;> cases heq
  · intro planId hmem
    cases hmem
  · intro rows hrows planId row hrow
    rw [hempty rows hrows] at hrow
    cases hrow
  · intro planId hmem
    cases hmem
  · intro planId validation hvalidation
    cases hvalidation
  · intro rows hrows planId row hrow
    rw [hempty rows hrows] at hrow
    cases hrow

/-- Approvals bind to the content in every run in which a plan with an approved id is only replaced
by one with the same hash. -/
theorem approvalBinds (catalog : WorkflowCatalog) (knownDevice : String → Bool)
    (persistent : Bool) (calls : List PlanCall)
    (h : Machine.Meets (planStep catalog knownDevice) (KeepsContent catalog) (noPlans persistent)
      calls) :
    ApprovalBinds (Machine.run (planStep catalog knownDevice) (noPlans persistent) calls) :=
  (h.invariant planStep_kept (noPlans_kept persistent)).binds

/-! ## A plan that is replaced -/

omit [PyLib] [PyText] [PlanHash] in
/-- A task under confirmation whose plan was approved with another hash only. -/
theorem not_approvalBinds_of_events {w : PlanWorld} {planId hash : String} {task : PlannedTask}
    (hevents : w.events = [.approved planId hash, .created task])
    (hstatus : task.validation.status = .requiresConfirmation)
    (hhash : task.validation.planHash ≠ hash) : ¬ ApprovalBinds w := by
  intro h
  have hmem := h.created [.approved planId hash] task [] hevents (.inl hstatus)
  obtain ⟨-, heq⟩ := PlanEvent.approved.inj (List.mem_singleton.1 hmem)
  exact hhash heq

end

/-- A plan of one step that is confirmed. -/
def confirmedPlan (objective capability : String) : WorkflowPlan where
  planId := "plan-1"
  objective := objective
  target := ⟨[("device_id", "d1")]⟩
  steps := [{ id := "a", capability := capability }]

/-- A digest that tells plans of different objectives apart. -/
def objectiveDigest : Value → String
  | .dict (("objective", .str objective) :: _) => objective
  | _ => ""

/-- `approvalBinds` for a plan that is validated, approved and run, with its validation repeated
after the approval. -/
theorem approvalBinds_repeated :
    let := PyLib.decimal
    let := PyText.ascii
    let : PlanHash := ⟨objectiveDigest⟩
    ApprovalBinds (Machine.run (planStep emptyCatalog fun _ => true) (noPlans true)
      [.validatePlan (confirmedPlan "reboot" "device.reboot") "", .approvePlan "plan-1" "",
        .validatePlan (confirmedPlan "reboot" "device.reboot") "",
        .createTask "plan-1" "" (.ok ())]) :=
  let := PyLib.decimal
  let := PyText.ascii
  let : PlanHash := ⟨objectiveDigest⟩
  have hfirst : KeepsContent emptyCatalog (noPlans true)
      (.validatePlan (confirmedPlan "reboot" "device.reboot") "") := fun hmem => by cases hmem
  have hrepeated (w : PlanWorld) (hsame : (w.service.plans.get? "plan-1").any
      (·.planHash = "sha256:reboot") = true) : KeepsContent emptyCatalog w
        (.validatePlan (confirmedPlan "reboot" "device.reboot") "") := fun _ _ => hsame
  approvalBinds emptyCatalog (fun _ => true) true _
    ⟨hfirst, trivial, hrepeated _ (by decide +kernel), trivial, trivial⟩

/-- An approval is inherited by another plan that is validated under the approved id. -/
theorem not_approvalBinds_replaced :
    let := PyLib.decimal
    let := PyText.ascii
    let : PlanHash := ⟨objectiveDigest⟩
    ¬ ApprovalBinds (Machine.run (planStep emptyCatalog fun _ => true) (noPlans true)
      [.validatePlan (confirmedPlan "reboot" "device.reboot") "", .approvePlan "plan-1" "",
        .validatePlan (confirmedPlan "power off" "device.power_off") "",
        .createTask "plan-1" "" (.ok ())]) := by
  intro _ _ _
  exact not_approvalBinds_of_events rfl rfl (by decide)

end DeviceShell.Tasking
