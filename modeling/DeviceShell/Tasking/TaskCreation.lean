import DeviceShell.Framework.Methods
import DeviceShell.Tasking.TaskService

/-!
# The creation of a task

`create` and `start_plan` store a task, acquire its device and fill the dictionaries of the service
one after the other. What is raised before the device is acquired leaves nothing behind, since
`create` takes back what it has put into the dictionaries. What is raised after it is not taken
back, and an id that the caller gives may be that of a stored task.
-/

namespace DeviceShell.Tasking

open Framework (TaskPlan TaskRun World Orchestrator)
open Stateful

/-- A call that creates a task. -/
inductive Creation where
  /-- `TaskService.create`. -/
  | create (request : TaskCreate)
  /-- `TaskOrchestrator.start`, by `start_plan`. -/
  | start (plan : TaskPlan) (deviceId : String) (inputs context : Dict String Value)
      (taskRunId childRunId : Option String)

/-- Nothing that belongs to a task has changed: the stored and the started tasks and the claims on
devices. -/
structure SameTasks {ρ : Type} (w w' : World ρ) : Prop where
  tasks : w'.tasks = w.tasks
  issued : w'.issued = w.issued
  resourceLeases : w'.resourceLeases = w.resourceLeases

/-- Neither the tasks nor the dictionaries of the service have changed. -/
structure Untouched {ρ : Type} (s s' : ServiceState ρ) : Prop where
  world : SameTasks s.world s'.world
  requests : s'.requests = s.requests
  plans : s'.plans = s.plans
  records : s'.records = s.records

/-- A call that raises leaves nothing behind, and one that returns has replaced no task. -/
def AllOrNothing {ρ : Type} (s : ServiceState ρ) : Except PyError String → ServiceState ρ → Prop
  | .error _, s' => Untouched s s'
  | .ok id, _ => s.world.tasks.get? id = none

namespace TaskService

variable {ρ : Type} [PyLib] (svc : TaskService ρ)

/-- The call on the service: it returns the id of the task. -/
def perform : Creation → ServiceMethod ρ String
  | .create request => do return (← svc.create request).id
  | .start plan deviceId inputs context taskRunId childRunId => do
    return (← svc.startPlan plan deviceId inputs context taskRunId childRunId).id

/-! ## When a task is created -/

/-- The checks of `start` pass, and it acquires the device; it stores the task with this context. -/
structure Reaches (w : World ρ) (plan : TaskPlan) (deviceId : String)
    (context : Dict String Value) (id : String) (childRunId : Option String)
    (stored : Dict String Value) : Prop where
  valid : plan.validate = .ok ()
  device : isBlank deviceId = false
  extended : startContext plan id context childRunId = .ok stored
  acquires : ((svc.orchestrator.acquire id deviceId id).run w).1 = .ok ()

/-- A task that `start` comes to store is taken by the store, and none has its id. -/
def StartsFresh (w : World ρ) (plan : TaskPlan) (deviceId : String)
    (inputs context : Dict String Value) (id : String) (childRunId : Option String) : Prop :=
  ∀ stored, svc.Reaches w plan deviceId context id childRunId stored →
    svc.storeSave (startedTask plan id deviceId inputs stored) = .ok () ∧ w.tasks.get? id = none

/-- The projection of a task that has just been stored goes through: the outputs that the metadata
declare are a list, the revision is a number, and neither the backend nor the event bus raises. -/
def Projects (id : String) (request : TaskCreate) (plan : TaskPlan) (run : TaskRun) : Prop :=
  let metadata := request.workflow.metadata
  ∃ view revision, svc.frameworkWorkflowView metadata request.workflow (some plan) = .ok view ∧
    planRevision metadata run.context request.workflow.version = .ok revision ∧
    (∀ persist, svc.persist = some persist →
      persist id request (projectRun request run view revision) = .ok ()) ∧
    ∀ publish, svc.publish = some publish →
      publish "task.created" (projectRun request run view revision) = .ok ()

/-- The child run of a plan with one node has the id of the task. -/
def childOf (plan : TaskPlan) (id : String) : Option String :=
  if plan.nodes.length = 1 then some id else none

/-- A task that `create` comes to store is taken by the store, and projected. -/
def CreatesFresh (s : ServiceState ρ) (request : TaskCreate) : Prop :=
  let id := uuid4 s
  let deviceId := strip request.target.deviceId
  ∀ plan inputs stored, svc.frameworkRequestPlan request = .ok (some (plan, inputs)) →
    svc.Reaches s.world plan deviceId (requestContext request deviceId) id (childOf plan id)
      stored →
    svc.storeSave (startedTask plan id deviceId inputs stored) = .ok () ∧
      svc.Projects id request plan (startedTask plan id deviceId inputs stored)

/-- The call creates a task that is new, or none. -/
def Fresh (s : ServiceState ρ) : Creation → Prop
  | .create request => svc.CreatesFresh s request
  | .start plan deviceId inputs context taskRunId childRunId =>
    svc.StartsFresh s.world plan deviceId inputs context
      ((taskRunId.filter (· ≠ "")).getD (Orchestrator.uuid4 s.world)) childRunId

/-! ## The orchestrator -/

omit [PyLib] in
/-- A device that is not acquired is claimed for no task. -/
theorem acquire_ensures (w : World ρ) (id deviceId : String) :
    Ensures (svc.orchestrator.acquire id deviceId id) w fun r w' =>
      (w'.tasks = w.tasks ∧ w'.issued = w.issued ∧
        ((∃ e, r = .error e) → w'.resourceLeases = w.resourceLeases)) ∧
      ((svc.orchestrator.acquire id deviceId id).run w).1 = r := by
  have hsame : Ensures (svc.orchestrator.acquire id deviceId id) w fun r w' =>
      w'.tasks = w.tasks ∧ w'.issued = w.issued ∧
        ((∃ e, r = .error e) → w'.resourceLeases = w.resourceLeases) := by
    unfold Orchestrator.acquire
    split
    · exact ⟨rfl, rfl, fun _ => rfl⟩
    · refine ensures_get ?_
      split
      · exact ⟨rfl, rfl, fun ⟨e, he⟩ => by cases he⟩
      · exact ⟨rfl, rfl, fun _ => rfl⟩
  exact ⟨hsame, rfl⟩

omit [PyLib] in
/-- The task is put into the index before the store takes it. -/
theorem saveTask_ensures (w : World ρ) (run : TaskRun) (hstatus : run.status = .running) :
    Ensures (svc.saveTask run) w fun r w' =>
      w'.tasks = w.tasks.set run.id run ∧ w'.issued = w.issued ∧
        r = (svc.storeSave run).map fun _ => run := by
  unfold saveTask
  refine ensures_modify ?_
  cases hsave : svc.storeSave run with
  | error e => exact ⟨rfl, rfl, rfl⟩
  | ok u =>
    have hopen : run.status.terminal = false := by
      rw [hstatus]
      rfl
    have hsaved (w' : World ρ) (htasks : w'.tasks = w.tasks.set run.id run)
        (hissued : w'.issued = w.issued) :
        (svc.orchestrator.saved w' run).tasks = w.tasks.set run.id run ∧
          (svc.orchestrator.saved w' run).issued = w.issued := by
      unfold Orchestrator.saved
      simp [hopen, htasks, hissued, Dict.set_set]
    obtain ⟨htasks, hissued⟩ := hsaved { w with tasks := w.tasks.set run.id run } rfl rfl
    exact ⟨htasks, hissued, rfl⟩

omit [PyLib] in
/-- `start` raises before it stores anything, or stores the task. -/
theorem startTask_ensures (w : World ρ) (plan : TaskPlan) (deviceId : String)
    (inputs context : Dict String Value) (taskRunId childRunId : Option String) :
    let id := (taskRunId.filter (· ≠ "")).getD (Orchestrator.uuid4 w)
    Ensures (svc.startTask plan deviceId inputs context taskRunId childRunId) w fun r w' =>
      ((∃ e, r = .error e) ∧ SameTasks w w' ∧
        ∀ stored, ¬svc.Reaches w plan deviceId context id childRunId stored) ∨
      ∃ stored, svc.Reaches w plan deviceId context id childRunId stored ∧
        w'.issued = id :: w.issued ∧
        w'.tasks = w.tasks.set id (startedTask plan id deviceId inputs stored) ∧
        r = (svc.storeSave (startedTask plan id deviceId inputs stored)).map fun _ =>
          startedTask plan id deviceId inputs stored := by
  intro id
  unfold startTask
  refine ensures_lift (fun _ hplan => ?_) fun e hplan => .inl ⟨⟨e, rfl⟩, ⟨rfl, rfl, rfl⟩, ?_⟩
  · by_cases hblank : isBlank deviceId = true
    · rw [if_pos hblank]
      refine .inl ⟨⟨_, rfl⟩, ⟨rfl, rfl, rfl⟩, fun stored h => ?_⟩
      have hdevice := h.device
      rw [hblank] at hdevice
      cases hdevice
    · rw [if_neg hblank]
      refine ensures_get (ensures_lift (fun stored hstored => ?_) fun e hstored => ?_)
      · refine (svc.acquire_ensures w id deviceId).bind (fun _ w' h => ?_) fun e w' h => ?_
        · obtain ⟨⟨htasks, hissued, -⟩, hresult⟩ := h
          have hreaches : svc.Reaches w plan deviceId context id childRunId stored :=
            ⟨hplan, by simpa using hblank, hstored, hresult⟩
          refine ensures_modify (ensures_modify ?_)
          refine (svc.saveTask_ensures _ (startedTask plan id deviceId inputs stored) rfl).mono
            fun r w'' h => .inr ⟨stored, hreaches, ?_, ?_, h.2.2⟩
          · rw [h.2.1]
            exact congrArg (id :: ·) hissued
          · rw [h.1]
            exact congrArg (Dict.set · id _) htasks
        · obtain ⟨⟨htasks, hissued, hleases⟩, hresult⟩ := h
          refine .inl ⟨⟨e, rfl⟩, ⟨htasks, hissued, hleases ⟨e, rfl⟩⟩, fun stored' h => ?_⟩
          have hacquires := h.acquires
          rw [hresult] at hacquires
          cases hacquires
      · refine .inl ⟨⟨e, rfl⟩, ⟨rfl, rfl, rfl⟩, fun stored h => ?_⟩
        have hextended := h.extended
        rw [hstored] at hextended
        cases hextended
  · intro stored h
    have hvalid := h.valid
    rw [hplan] at hvalid
    cases hvalid

/-! ## The service -/

omit [PyLib] in
/-- The rule of exception handlers. -/
theorem ensures_tryCatch {σ α : Type} {m : Stateful σ α} {f : PyError → Stateful σ α} {s : σ}
    {Q R : Except PyError α → σ → Prop} (hm : Ensures m s Q)
    (hok : ∀ a s', Q (.ok a) s' → R (.ok a) s')
    (herr : ∀ e s', Q (.error e) s' → Ensures (f e) s' R) : Ensures (tryCatch m f) s R := by
  unfold Ensures at hm ⊢
  rw [run_tryCatch]
  generalize m.run s = result at hm
  obtain ⟨result, s'⟩ := result
  cases result with
  | ok a => exact hok a s' hm
  | error e => exact herr e s' hm

omit [PyLib] in
/-- A method of the orchestrator leaves the dictionaries of the service. -/
theorem onWorld_ensures {α : Type} {m : Framework.Method ρ α} {s : ServiceState ρ}
    {Q : Except PyError α → World ρ → Prop} (h : Ensures m s.world Q) :
    Ensures (onWorld m) s fun r s' => Q r s'.world ∧ s' = { s with world := s'.world } := by
  unfold onWorld
  refine ensures_get ?_
  unfold Ensures at h
  generalize m.run s.world = result at h
  obtain ⟨result, w⟩ := result
  refine ensures_set ?_
  cases result with
  | ok a => exact ⟨h, rfl⟩
  | error e => exact ⟨h, rfl⟩

/-- A task that was just stored is projected, or the projection raises. -/
theorem projectFrameworkTask_ensures (s : ServiceState ρ) {id : String} {request : TaskCreate}
    {plan : TaskPlan} {run : TaskRun} (hrequest : s.requests.get? id = some request)
    (hplan : s.plans.get? id = some plan) (hrun : s.world.tasks.get? id = some run)
    (hrecord : s.records.get? id = none) (hstatus : run.status = .running) :
    Ensures (svc.projectFrameworkTask id) s fun r s' => s'.world = s.world ∧
      ((svc.Projects id request plan run ∧ ∃ record, r = .ok record ∧ record.id = run.id) ∨
        (¬svc.Projects id request plan run ∧ ∃ e, r = .error e)) := by
  unfold projectFrameworkTask
  refine ensures_get ?_
  rw [hrequest]
  have hget : Ensures (Orchestrator.getTask id) s.world fun r w' =>
      w' = s.world ∧ r = .ok run := by
    unfold Orchestrator.getTask
    refine ensures_get ?_
    rw [hrun]
    exact ⟨rfl, rfl⟩
  have hopen : run.status.terminal = false := by
    rw [hstatus]
    rfl
  simp only [pure_bind, hplan]
  refine (onWorld_ensures hget).bind (fun run' s' h => ?_) fun e s' h => ?_
  · obtain ⟨⟨hworld, hsame⟩, hs'⟩ := h
    obtain rfl : s' = s := by rw [hs', hworld]
    cases hsame
    refine ensures_lift (fun view hview => ?_) fun e hview => ⟨rfl, .inr ⟨?_, e, rfl⟩⟩
    · refine ensures_lift (fun revision hrevision => ?_) fun e hrevision =>
        ⟨rfl, .inr ⟨?_, e, rfl⟩⟩
      · -- Neither the end of the task nor an earlier record is in the way.
        refine ensures_modify ?_
        simp only [hrecord, hopen, Bool.false_eq_true, false_and, and_false, if_false]
        have hprojects : svc.Projects id request plan run ↔
            (∀ persist, svc.persist = some persist →
              persist id request (projectRun request run view revision) = .ok ()) ∧
            ∀ publish, svc.publish = some publish →
              publish "task.created" (projectRun request run view revision) = .ok () := by
          unfold Projects
          simp [hview, hrevision]
        rw [hprojects]
        cases hpersist : svc.persist with
        | none =>
          cases hpublish : svc.publish with
          | none => exact ⟨rfl, .inl ⟨by simp, _, rfl, rfl⟩⟩
          | some publish =>
            refine ensures_lift (fun u hu => ⟨rfl, .inl ⟨?_, _, rfl, rfl⟩⟩) fun e he =>
              ⟨rfl, .inr ⟨?_, e, rfl⟩⟩
            · simpa using hu
            · simp [he]
        | some persist =>
          refine ensures_lift (fun u hu => ?_) fun e he => ⟨rfl, .inr ⟨by simp [he], e, rfl⟩⟩
          cases hpublish : svc.publish with
          | none => exact ⟨rfl, .inl ⟨by simpa using hu, _, rfl, rfl⟩⟩
          | some publish =>
            refine ensures_lift (fun v hv => ⟨rfl, .inl ⟨?_, _, rfl, rfl⟩⟩) fun e he =>
              ⟨rfl, .inr ⟨?_, e, rfl⟩⟩
            · simpa using ⟨hu, hv⟩
            · simp [he]
      · rintro ⟨view', revision', hview', hrevision', -⟩
        rw [hrevision] at hrevision'
        cases hrevision'
    · rintro ⟨view', revision', hview', -⟩
      rw [hview] at hview'
      cases hview'
  · obtain ⟨⟨-, hsame⟩, -⟩ := h
    cases hsame

omit [PyLib] in
/-- The id of a new task is known to nobody. -/
theorem uuid4_not_mem (s : ServiceState ρ) :
    uuid4 s ∉ s.world.tasks.keys ∧ uuid4 s ∉ s.requests.keys ∧ uuid4 s ∉ s.plans.keys ∧
      uuid4 s ∉ s.records.keys ∧ uuid4 s ≠ "" := by
  have hnew : uuid4 s ∉ (s.world.issued ++ s.world.tasks.keys) ++
      (s.requests.keys ++ s.plans.keys ++ s.records.keys) := by
    intro h
    have hle := Framework.RuntimeState.length_le_foldr_max h
    rw [uuid4, String.length_ofList, List.length_replicate] at hle
    omega
  simp only [List.mem_append, not_or] at hnew
  refine ⟨hnew.1.2, hnew.2.1.1, hnew.2.1.2, hnew.2.2, fun hempty => ?_⟩
  have hlength := congrArg String.length hempty
  rw [uuid4, String.length_ofList, List.length_replicate] at hlength
  simp at hlength

/-! ## All or nothing -/

omit [PyLib] in
/-- `start_plan` is all or nothing exactly if the task that it stores is new and the store takes
it. -/
theorem start_allOrNothing_iff (s : ServiceState ρ) (plan : TaskPlan) (deviceId : String)
    (inputs context : Dict String Value) (taskRunId childRunId : Option String) :
    Ensures (svc.startPlan plan deviceId inputs context taskRunId childRunId) s fun r s' =>
      AllOrNothing s (r.map (·.id)) s' ↔
        svc.StartsFresh s.world plan deviceId inputs context
          ((taskRunId.filter (· ≠ "")).getD (Orchestrator.uuid4 s.world)) childRunId := by
  have hstart := svc.startTask_ensures s.world plan deviceId inputs context taskRunId childRunId
  refine (onWorld_ensures hstart).mono fun r s' h => ?_
  obtain ⟨h, hs'⟩ := h
  rcases h with ⟨⟨e, rfl⟩, hsame, hnot⟩ | ⟨stored, hreaches, hissued, htasks, rfl⟩
  · rw [hs']
    exact ⟨fun _ stored h => absurd h (hnot stored), fun _ => ⟨hsame, rfl, rfl, rfl⟩⟩
  · have honly (stored' : Dict String Value)
        (h : svc.Reaches s.world plan deviceId context
          ((taskRunId.filter (· ≠ "")).getD (Orchestrator.uuid4 s.world)) childRunId stored') :
        stored' = stored := Except.ok.inj (h.extended.symm.trans hreaches.extended)
    constructor
    · intro hall stored' hreaches'
      obtain rfl := honly stored' hreaches'
      cases hsave : svc.storeSave (startedTask plan _ deviceId inputs stored') with
      | error e =>
        -- The task was started: it is not as if nothing had happened.
        rw [hsave] at hall
        have hbefore := hall.world.issued
        rw [hissued] at hbefore
        exact absurd hbefore (by simp)
      | ok u =>
        rw [hsave] at hall
        exact ⟨rfl, hall⟩
    · intro hfresh
      obtain ⟨hsave, hnone⟩ := hfresh stored hreaches
      rw [hsave]
      exact hnone

/-- What the condition on `create` asks of a task that it comes to store. -/
theorem createsFresh_iff {s : ServiceState ρ} {request : TaskCreate} {plan : TaskPlan}
    {inputs stored : Dict String Value}
    (hresolved : svc.frameworkRequestPlan request = .ok (some (plan, inputs)))
    (hreaches : svc.Reaches s.world plan (strip request.target.deviceId)
      (requestContext request (strip request.target.deviceId)) (uuid4 s)
      (childOf plan (uuid4 s)) stored) :
    svc.CreatesFresh s request ↔
      svc.storeSave (startedTask plan (uuid4 s) (strip request.target.deviceId) inputs stored) =
        .ok () ∧
      svc.Projects (uuid4 s) request plan
        (startedTask plan (uuid4 s) (strip request.target.deviceId) inputs stored) := by
  constructor
  · intro h
    exact h plan inputs stored hresolved hreaches
  · intro h plan' inputs' stored' hresolved' hreaches'
    rw [hresolved] at hresolved'
    cases hresolved'
    have hsame := hreaches'.extended
    rw [hreaches.extended] at hsame
    cases hsame
    exact h

/-- Where `create` stands after `start_plan`: nothing has changed, or the task is stored. -/
def Started (s : ServiceState ρ) (request : TaskCreate) (plan : TaskPlan)
    (inputs : Dict String Value) (r : Except PyError TaskRun) (s' : ServiceState ρ) : Prop :=
  let id := uuid4 s
  let deviceId := strip request.target.deviceId
  let context := requestContext request deviceId
  ((∃ e, r = .error e) ∧ Untouched s s' ∧
      ∀ stored, ¬svc.Reaches s.world plan deviceId context id (childOf plan id) stored) ∨
    ∃ stored, svc.Reaches s.world plan deviceId context id (childOf plan id) stored ∧
      s'.world.issued = id :: s.world.issued ∧
      (r = (svc.storeSave (startedTask plan id deviceId inputs stored)).map fun _ =>
        startedTask plan id deviceId inputs stored) ∧
      ((∃ run, r = .ok run) → s'.requests.get? id = some request ∧ s'.plans.get? id = some plan ∧
        s'.world.tasks.get? id = some (startedTask plan id deviceId inputs stored) ∧
        s'.records.get? id = none)

/-- `create` is all or nothing exactly if the task that it stores is taken by the store and
projected. -/
theorem create_allOrNothing_iff (s : ServiceState ρ) (request : TaskCreate) :
    Ensures (svc.create request) s fun r s' =>
      AllOrNothing s (r.map (·.id)) s' ↔ svc.CreatesFresh s request := by
  -- Where it raises without a task, nothing has changed, and the condition asks for nothing.
  have hraises {s' : ServiceState ρ} (hsame : Untouched s s')
      (hnot : ∀ plan inputs stored, svc.frameworkRequestPlan request = .ok (some (plan, inputs)) →
        ¬svc.Reaches s.world plan (strip request.target.deviceId)
          (requestContext request (strip request.target.deviceId)) (uuid4 s)
          (childOf plan (uuid4 s)) stored) (e : PyError) :
      AllOrNothing s ((Except.error e : Except PyError TaskRecord).map (·.id)) s' ↔
        svc.CreatesFresh s request :=
    ⟨fun _ plan inputs stored hplan h => absurd h (hnot plan inputs stored hplan), fun _ => hsame⟩
  have hrefl : Untouched s s := ⟨⟨rfl, rfl, rfl⟩, rfl, rfl, rfl⟩
  obtain ⟨htask, hrequest, hplans, hrecord, hid⟩ := uuid4_not_mem s
  unfold create
  refine ensures_lift (fun resolved hresolved => ?_) fun e hresolved => ?_
  · cases resolved with
    | none =>
      refine hraises hrefl (fun plan inputs stored hplan => ?_) _
      rw [hresolved] at hplan
      cases hplan
    | some resolved =>
      obtain ⟨plan, inputs⟩ := resolved
      refine ensures_get ?_
      by_cases hdevice : strip request.target.deviceId = ""
      · rw [if_pos hdevice]
        refine hraises hrefl (fun plan inputs stored hplan h => ?_) _
        have hblank := h.device
        rw [hdevice] at hblank
        cases hblank
      · rw [if_neg hdevice]
        have hresolvedId : ((some (uuid4 s)).filter (· ≠ "")).getD (Orchestrator.uuid4 s.world) =
            uuid4 s := by simp [Option.filter, hid]
        have hstart := svc.startTask_ensures s.world plan (strip request.target.deviceId) inputs
          (requestContext request (strip request.target.deviceId)) (some (uuid4 s))
          (childOf plan (uuid4 s))
        dsimp only at hstart
        rw [hresolvedId] at hstart
        refine ensures_modify (Ensures.bind (Q := svc.Started s request plan inputs)
          (ensures_tryCatch (onWorld_ensures hstart) (fun run s' h => ?_) fun e s' h => ?_)
          (fun run s' h => ?_) fun e s' h => ?_)
        · obtain ⟨h, hs'⟩ := h
          rcases h with ⟨⟨e, he⟩, -⟩ | ⟨stored, hreaches, hissued, htasks, hresult⟩
          · cases he
          · refine .inr ⟨stored, hreaches, hissued, hresult, fun _ => ?_⟩
            rw [htasks, Dict.get?_set_self, hs']
            refine ⟨Dict.get?_set_self .., Dict.get?_set_self .., rfl, ?_⟩
            exact (Dict.get?_eq_none_iff _ _).2 hrecord
        · obtain ⟨h, hs'⟩ := h
          refine ensures_modify ?_
          have herased : (s.requests.set (uuid4 s) request).erase (uuid4 s) = s.requests ∧
              (s.plans.set (uuid4 s) plan).erase (uuid4 s) = s.plans :=
            ⟨Dict.erase_set_of_get? ((Dict.get?_eq_none_iff _ _).2 hrequest) request,
              Dict.erase_set_of_get? ((Dict.get?_eq_none_iff _ _).2 hplans) plan⟩
          rcases h with ⟨-, hsame, hnot⟩ | ⟨stored, hreaches, hissued, -, hresult⟩
          · refine .inl ⟨⟨e, rfl⟩, ⟨hsame, ?_, ?_, ?_⟩, hnot⟩
            · rw [hs']
              exact herased.1
            · rw [hs']
              exact herased.2
            · have hrecords := congrArg ServiceState.records hs'
              exact hrecords
          · exact .inr ⟨stored, hreaches, hissued, hresult, fun ⟨run, hrun⟩ => by cases hrun⟩
        · rcases h with ⟨⟨e, he⟩, -⟩ | ⟨stored, hreaches, hissued, hresult, hready⟩
          · cases he
          · rw [svc.createsFresh_iff hresolved hreaches]
            obtain ⟨hrequests, hplan, hrun, hnone⟩ := hready ⟨run, rfl⟩
            have hsave : svc.storeSave (startedTask plan (uuid4 s) (strip request.target.deviceId)
                inputs stored) = .ok () := by
              cases hsave : svc.storeSave (startedTask plan (uuid4 s)
                  (strip request.target.deviceId) inputs stored) with
              | error e =>
                rw [hsave] at hresult
                cases hresult
              | ok u => rfl
            refine (svc.projectFrameworkTask_ensures s' hrequests hplan hrun hnone rfl).bind
              (fun record s'' h => ?_) fun e s'' h => ?_
            · refine ensures_modify ?_
              obtain ⟨-, ⟨hprojects, record', hrecord', hsame⟩ | ⟨-, e, he⟩⟩ := h
              · cases hrecord'
                have hnew : s.world.tasks.get? record.id = none := by
                  rw [hsame]
                  exact (Dict.get?_eq_none_iff _ _).2 htask
                exact ⟨fun _ => ⟨hsave, hprojects⟩, fun _ => hnew⟩
              · cases he
            · obtain ⟨hworld, ⟨-, record', he, -⟩ | ⟨hnot, -⟩⟩ := h
              · cases he
              · refine ⟨fun hall => ?_, fun h => absurd h.2 hnot⟩
                have hbefore := hall.world.issued
                rw [hworld, hissued] at hbefore
                exact absurd hbefore (by simp)
        · rcases h with ⟨-, hsame, hnot⟩ | ⟨stored, hreaches, hissued, hresult, -⟩
          · refine hraises hsame (fun plan' inputs' stored hplan' => ?_) e
            rw [hresolved] at hplan'
            cases hplan'
            exact hnot stored
          · rw [svc.createsFresh_iff hresolved hreaches]
            refine ⟨fun hall => ?_, fun h => ?_⟩
            · have hbefore := hall.world.issued
              rw [hissued] at hbefore
              exact absurd hbefore (by simp)
            · rw [h.1] at hresult
              cases hresult
  · refine hraises hrefl (fun plan inputs stored hplan => ?_) _
    rw [hresolved] at hplan
    cases hplan

/-- The creation of a task is all or nothing exactly if every step after its device is acquired
goes through, and no task has its id. -/
theorem allOrNothing_iff_fresh (s : ServiceState ρ) (creation : Creation) :
    AllOrNothing s ((svc.perform creation).run s).1 ((svc.perform creation).run s).2 ↔
      svc.Fresh s creation := by
  have hmap {α : Type} (m : ServiceMethod ρ α) (f : α → String) :
      (do return f (← m) : ServiceMethod ρ String).run s =
        (((m.run s).1.map f), (m.run s).2) := by
    rw [run_bind]
    cases hm : m.run s with
    | mk r s' => cases r <;> rfl
  cases creation with
  | create request =>
    have hiff := svc.create_allOrNothing_iff s request
    unfold perform
    rw [hmap]
    exact hiff
  | start plan deviceId inputs context taskRunId childRunId =>
    have hiff := svc.start_allOrNothing_iff s plan deviceId inputs context taskRunId childRunId
    unfold perform
    rw [hmap]
    exact hiff

end TaskService

/-! ## Two tasks -/

/-- A service without a resource coordinator, a backend or an event bus. -/
def bareService : TaskService Unit where
  orchestrator :=
    { runtime := ⟨[], [], 5⟩, build := fun _ _ => .error (.keyError "unknown workflow") }
  storeSave _ := .ok ()

/-- The state of a service that has just been started. -/
def bareState : ServiceState Unit where
  world := { runtime := { resources := () } }

/-- A plan of one node. -/
def inspectPlan : TaskPlan where
  id := "plan"
  version := "1"
  nodes := [{ id := "inspect", workflowId := "device.info" }]

/-- A request whose workflow has a version that is no number. -/
def namedVersion : TaskCreate where
  workflow := { id := "inspect", steps := [], version := "abc" }
  target := { deviceId := "r1" }
  frameworkPlan := some inspectPlan

/-- A state in which the task `t1` is stored. -/
def storedState : ServiceState Unit where
  world :=
    { runtime := { resources := () }
      tasks := ⟨[("t1", { id := "t1", planId := "old", deviceId := "r1", status := .succeeded })]⟩ }

/-- The projection of a task raises when the version of its workflow is no number, and the task
stays stored; and a task that is started under the id of a stored one replaces it. -/
theorem not_allOrNothing :
    letI := PyLib.atEpoch
    ¬AllOrNothing bareState ((bareService.perform (.create namedVersion)).run bareState).1
        ((bareService.perform (.create namedVersion)).run bareState).2 ∧
      ¬AllOrNothing storedState
        ((bareService.perform (.start inspectPlan "r1" ∅ ∅ (some "t1") none)).run storedState).1
        ((bareService.perform (.start inspectPlan "r1" ∅ ∅ (some "t1") none)).run
          storedState).2 := by
  constructor
  · intro h
    obtain ⟨e, he⟩ : ∃ e, ((@TaskService.perform _ PyLib.atEpoch bareService
        (.create namedVersion)).run bareState).1 = .error e := ⟨_, rfl⟩
    rw [he] at h
    have hkeys : ((@TaskService.perform _ PyLib.atEpoch bareService
        (.create namedVersion)).run bareState).2.world.tasks.keys = [] := by
      rw [h.world.tasks]
      rfl
    revert hkeys
    decide +kernel
  · intro h
    have hid : ((@TaskService.perform _ PyLib.atEpoch bareService
        (.start inspectPlan "r1" ∅ ∅ (some "t1") none)).run storedState).1 = .ok "t1" := rfl
    rw [hid] at h
    have hnone : storedState.world.tasks.get? "t1" = none := h
    cases hnone

end DeviceShell.Tasking
