import DeviceShell.Persistence.WorkflowStores
import DeviceShell.Framework.OrchestratorMachine
import DeviceShell.Framework.Revisions

/-!
# What a restart fences

`recover_inflight` of the runtime and `__init__` of the task orchestrator, over the stores that a
stopped process left. Both scan a listing of at most 500 records and rewrite the ones that were in
flight: they are sweeps (`recoverInflight_eq_sweep`, `initTasks_eq_sweep`). The first looks for runs
that are running or recovering; a run that was waiting for its reconcile provider when the process
stopped is not among them.
-/

namespace DeviceShell.Framework

open Persistence

/-- The run was in the middle of an action. -/
def RunStatus.inAction (status : RunStatus) : Bool := status.active || status = .waitingReconcile

/-- The task was being executed. -/
def TaskRunStatus.inFlight (status : TaskRunStatus) : Bool :=
  status = .running || status = .waitingChild

namespace Restart

variable [PyLib] (now : ℚ) (reason : String)

/-- The run with the fence of `mark_interrupted`. -/
def interrupted (run : WorkflowRun) : WorkflowRun :=
  { run with
    status := .paused
    context := run.context.set recoveryKey
      (Runtime.fence (.str reason) [("observed_at", .str (PyLib.isoformat now))])
    revision := run.revision + 1 }

/-- `mark_interrupted`: the saves of its section. -/
def markInterrupted (content : WorkflowRunContent) (runId : String) : WorkflowRunContent :=
  match workflowRunStore.get content runId with
  | none => content
  | some run =>
    (Runtime.markInterrupted now run reason).written.foldl
      (fun content w => match w with
        | .run r => workflowRunStore.save content r
        | .event _ => content) content

/-- `recover_inflight`. -/
def recoverInflight (content : WorkflowRunContent) (limit : ℕ) : WorkflowRunContent :=
  ((workflowRunStore.list content limit).filter (·.status.active)).foldl
    (fun content run => markInterrupted now reason content run.id) content

omit [PyLib] in
/-- `TaskOrchestrator.__init__`: the task store and the index after it. -/
def initTasks (tasks : TaskRunContent) : TaskRunContent × Dict String TaskRun :=
  (taskRunStore.list tasks 500).foldl
    (fun (tasks, index) task =>
      let recovered := Orchestrator.recovered task
      (if task.status.inFlight then taskRunStore.save tasks recovered else tasks,
        index.set recovered.id recovered))
    (tasks, ∅)

/-! ## Both are sweeps -/

theorem markInterrupted_of_active {content : WorkflowRunContent} {run : WorkflowRun}
    (hget : workflowRunStore.get content run.id = some run) (hactive : run.status.active = true) :
    markInterrupted now reason content run.id =
      workflowRunStore.save content (interrupted now reason run) := by
  have hopen : ¬ (run.status.terminal = true ∨ run.status = .waitingDecision) := by
    cases hstatus : run.status <;> simp_all [RunStatus.active, RunStatus.terminal]
  unfold markInterrupted Runtime.markInterrupted
  rw [hget]
  simp only [if_neg hopen]
  rfl

/-- The runs that remain to be interrupted are stored as they were listed. -/
theorem interrupts_eq_rewrite {content : WorkflowRunContent} {runs : List WorkflowRun}
    (hnodup : (runs.map WorkflowRun.id).Nodup)
    (hstored : ∀ run ∈ runs, workflowRunStore.get content run.id = some run) :
    (runs.filter (·.status.active)).foldl
        (fun content run => markInterrupted now reason content run.id) content =
      workflowRunStore.rewrite (·.status.active) (interrupted now reason) content runs := by
  induction runs generalizing content with
  | nil => rfl
  | cons run runs ih =>
    obtain ⟨hrun, hrest⟩ := List.nodup_cons.1 hnodup
    by_cases hactive : run.status.active = true
    · have hone := markInterrupted_of_active now reason (hstored run List.mem_cons_self) hactive
      have hstored' : ∀ q ∈ runs, workflowRunStore.get
          (workflowRunStore.save content (interrupted now reason run)) q.id = some q := by
        intro q hq
        have hne : q.id ≠ run.id := fun heq => hrun (heq ▸ List.mem_map_of_mem hq)
        refine (workflowRunStore_lawful.get_save _ _ _).trans ?_
        refine (if_neg hne).trans ?_
        exact hstored q (List.mem_cons_of_mem _ hq)
      simp only [List.filter_cons, hactive, if_true, List.foldl_cons, hone, ih hrest hstored']
      simp only [KeyedStore.rewrite, List.foldl_cons, hactive, if_true]
    · have hstored' : ∀ q ∈ runs, workflowRunStore.get content q.id = some q :=
        fun q hq => hstored q (List.mem_cons_of_mem _ hq)
      simp only [List.filter_cons, hactive, Bool.false_eq_true, if_false]
      rw [ih hrest hstored']
      simp only [KeyedStore.rewrite, List.foldl_cons, hactive, Bool.false_eq_true, if_false]

theorem recoverInflight_eq_sweep (content : WorkflowRunContent) (limit : ℕ) :
    recoverInflight now reason content limit =
      workflowRunStore.sweep (·.status.active) (interrupted now reason) content limit :=
  interrupts_eq_rewrite now reason (workflowRunStore_lawful.listed_once content limit)
    (workflowRunStore_lawful.get_of_listed content limit)

omit [PyLib] in
theorem initTasks_eq_sweep (tasks : TaskRunContent) :
    (initTasks tasks).1 =
      taskRunStore.sweep (·.status.inFlight) Orchestrator.recovered tasks 500 := by
  have hfold : ∀ (listed : List TaskRun) (tasks : TaskRunContent) (index : Dict String TaskRun),
      (listed.foldl (fun (tasks, index) task =>
        let recovered := Orchestrator.recovered task
        (if task.status.inFlight then taskRunStore.save tasks recovered else tasks,
          index.set recovered.id recovered)) (tasks, index)).1 =
      taskRunStore.rewrite (·.status.inFlight) Orchestrator.recovered tasks listed := by
    intro listed
    induction listed with
    | nil => exact fun _ _ => rfl
    | cons task listed ih => exact fun tasks index => ih _ _
  exact hfold _ _ _

/-! ## The runtime over its memory store -/

/-- The content is that of a memory store with these runs. -/
def Holds (content : WorkflowRunContent) (runs : Dict String WorkflowRun) : Prop :=
  ∃ table, content = .inl table ∧ table.rows = runs

section Machine

variable {ρ : Type} (coordinator : Option (ResourceCoordinator ρ)) (cfg : RuntimeConfig)

theorem markInterrupted_holds {content : WorkflowRunContent} {st : RuntimeState ρ}
    (h : Holds content st.runs) (runId : String) :
    Holds (markInterrupted now reason content runId)
      (Runtime.interrupt coordinator now st runId reason).runs := by
  obtain ⟨table, rfl, hrows⟩ := h
  have hget : workflowRunStore.get (.inl table) runId = st.runs.get? runId := by
    rw [← hrows]
    exact Option.map_id'
  unfold markInterrupted Runtime.interrupt Runtime.withRun
  rw [hget]
  cases st.runs.get? runId with
  | none => exact ⟨table, rfl, hrows⟩
  | some run =>
    change Holds (List.foldl _ _ _) (RuntimeState.commit coordinator now st _).runs
    generalize (Runtime.markInterrupted now run reason).written = ws
    clear hget
    induction ws generalizing table st with
    | nil => exact ⟨table, rfl, hrows⟩
    | cons w ws ih =>
      cases w with
      | event e => exact ih table hrows
      | run r =>
        refine ih (table.put r) ?_
        rw [RuntimeState.apply, RuntimeState.releaseTerminal_runs, ← hrows]
        rfl

end Machine

/-! ## What is fenced -/

/-- A restart fences everything that was in flight, and leaves the rest. -/
structure Fences (before after : WorkflowRunContent) (tasksBefore tasksAfter : TaskRunContent) :
    Prop where
  /-- A run that was in the middle of an action is paused, with recovery required. -/
  runs : ∀ id, ∀ run ∈ workflowRunStore.get before id, run.status.inAction = true →
    ∃ run' ∈ workflowRunStore.get after id, run'.status = .paused ∧ run'.fenced = true
  otherRuns : ∀ id, ∀ run ∈ workflowRunStore.get before id, run.status.inAction = false →
    workflowRunStore.get after id = some run
  newRuns : ∀ id, workflowRunStore.get before id = none → workflowRunStore.get after id = none
  /-- No task is still being executed. -/
  tasks : ∀ id, ∀ task ∈ taskRunStore.get tasksAfter id, task.status.inFlight = false
  otherTasks : ∀ id, ∀ task ∈ taskRunStore.get tasksBefore id, task.status.inFlight = false →
    taskRunStore.get tasksAfter id = some task
  newTasks : ∀ id, taskRunStore.get tasksBefore id = none → taskRunStore.get tasksAfter id = none

omit [PyLib] in
theorem recovered_id (task : TaskRun) : (Orchestrator.recovered task).id = task.id := by
  unfold Orchestrator.recovered
  split <;> rfl

omit [PyLib] in
theorem recovered_inFlight (task : TaskRun) :
    (Orchestrator.recovered task).status.inFlight = false := by
  unfold Orchestrator.recovered
  split
  · rfl
  · rename_i h
    rw [not_or] at h
    simp [TaskRunStatus.inFlight, h.1, h.2]

theorem interrupted_fenced (run : WorkflowRun) : (interrupted now reason run).fenced = true := by
  have hget : (interrupted now reason run).context.get? recoveryKey = some
      (Runtime.fence (.str reason) [("observed_at", .str (PyLib.isoformat now))]) :=
    Dict.get?_set_self _ _ _
  unfold WorkflowRun.fenced WorkflowRun.recovery?
  rw [hget]
  rfl

/-- A restart fences everything exactly when no run was waiting for its reconcile provider, every
run that was running or recovering is among the first 500 of its store's listing, and so is every
task that was running or waiting for a child. -/
theorem fences_iff (runs : WorkflowRunContent) (tasks : TaskRunContent) :
    Fences runs (recoverInflight now reason runs 500) tasks (initTasks tasks).1 ↔
      (∀ id, ∀ run ∈ workflowRunStore.get runs id, run.status.inAction = true →
        run.status ≠ .waitingReconcile ∧ run ∈ workflowRunStore.list runs 500) ∧
      ∀ id, ∀ task ∈ taskRunStore.get tasks id, task.status.inFlight = true →
        task ∈ taskRunStore.list tasks 500 := by
  have hid : ∀ run, (interrupted now reason run).id = run.id := fun _ => rfl
  have hruns := KeyedStore.get_sweep (·.status.active) workflowRunStore_lawful hid runs 500
  have htasks := KeyedStore.get_sweep (·.status.inFlight) taskRunStore_lawful recovered_id tasks 500
  have hcomplete := KeyedStore.sweep_complete_iff (·.status.inFlight) taskRunStore_lawful recovered_id
    recovered_inFlight tasks 500
  rw [recoverInflight_eq_sweep, initTasks_eq_sweep]
  constructor
  · intro h
    refine ⟨fun id run hrun haction => ?_, hcomplete.1 h.tasks⟩
    obtain ⟨run', hrun', hpaused, -⟩ := h.runs id run hrun haction
    have hnot : run.status ≠ .paused := by
      intro heq
      rw [heq] at haction
      cases haction
    have hchosen : run.status.active = true ∧ run ∈ workflowRunStore.list runs 500 := by
      by_contra hskip
      have hstays := (hruns id).2.1 run hrun fun hactive hlisted => hskip ⟨hactive, hlisted⟩
      rw [hstays] at hrun'
      obtain rfl := Option.some.inj hrun'
      exact hnot hpaused
    refine ⟨fun heq => ?_, hchosen.2⟩
    have hactive := hchosen.1
    rw [heq] at hactive
    cases hactive
  · rintro ⟨hlisted, htasklisted⟩
    refine ⟨fun id run hrun haction => ?_, fun id run hrun hother => ?_, fun id => (hruns id).2.2,
      hcomplete.2 htasklisted, fun id task htask hother => ?_, fun id => (htasks id).2.2⟩
    · obtain ⟨hwaits, hmem⟩ := hlisted id run hrun haction
      have hactive : run.status.active = true := by
        simp only [RunStatus.inAction, Bool.or_eq_true, decide_eq_true_eq] at haction
        exact haction.resolve_right hwaits
      exact ⟨_, (hruns id).1 run hrun hactive hmem, rfl, interrupted_fenced now reason run⟩
    · refine (hruns id).2.1 run hrun fun hactive _ => ?_
      rw [RunStatus.inAction, hactive] at hother
      cases hother
    · refine (htasks id).2.1 task htask fun hflight _ => ?_
      rw [hflight] at hother
      cases hother

/-- A process that stopped while a provider was asked about the action of a run. -/
def waitingRun : WorkflowRunContent :=
  .inl (Rows.empty.put
    { id := "run", workflowId := "upgrade", workflowVersion := "1", deviceId := "device",
      status := .waitingReconcile, currentState := "reboot", revision := 4 })

omit [PyLib] in
/-- The run that waits for its provider is not fenced. -/
theorem not_fences_waitingRun :
    ¬ Fences waitingRun (@recoverInflight .atEpoch 0 "process_restart" waitingRun 500)
      (.inl Rows.empty) (initTasks (.inl Rows.empty)).1 := by
  let := PyLib.atEpoch
  intro h
  have hwaits : ∀ run ∈ workflowRunStore.get
      (@recoverInflight .atEpoch 0 "process_restart" waitingRun 500) "run",
      run.status = .waitingReconcile := by decide +kernel
  have hstored : ∃ run ∈ workflowRunStore.get waitingRun "run", run.status.inAction = true := by
    decide +kernel
  obtain ⟨run, hrun, haction⟩ := hstored
  obtain ⟨run', hrun', hpaused, -⟩ := h.runs "run" run hrun haction
  rw [hwaits run' hrun'] at hpaused
  cases hpaused

end Restart

end DeviceShell.Framework
