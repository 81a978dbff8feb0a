import DeviceShell.Lib.KeyedStore
import DeviceShell.Framework.TaskPlan

/-!
# The stores of workflow runs and of task runs

`MemoryWorkflowRunStore` and `MemoryTaskRunStore` keep a dictionary and list it in insertion order.
`SQLiteWorkflowRunStore` and `SQLiteTaskRunStore` of `infrastructure/persistence/sqlite_workflows.py`
keep a table with the id as primary key: an insert takes the next row, an update on conflict keeps
the row, so a table is a dictionary in the order of its rows. The run itself is the column
`payload`, its JSON text and back; the other columns are copies of some of its fields, and the
listings are ordered by them.
-/

namespace DeviceShell.Persistence

open Framework (WorkflowRun TaskRun TaskRunStatus RunStatus)

/-- A row of the table `workflow_runs`, apart from its primary key. -/
structure WorkflowRunRow where
  workflowId : String
  workflowVersion : String
  deviceId : String
  status : RunStatus
  revision : ℕ
  updatedAt : String
  payload : WorkflowRun

/-- The row that `SQLiteWorkflowRunStore.save` writes: an update leaves the columns that it does not
name. -/
def WorkflowRunRow.write (old : Option WorkflowRunRow) (run : WorkflowRun) : WorkflowRunRow where
  workflowId := (old.map (·.workflowId)).getD run.workflowId
  workflowVersion := (old.map (·.workflowVersion)).getD run.workflowVersion
  deviceId := (old.map (·.deviceId)).getD run.deviceId
  status := run.status
  revision := run.revision
  updatedAt := run.progress.lastProgressAt
  payload := run

/-- `ORDER BY updated_at DESC, id DESC`, the texts being compared by their characters. -/
def WorkflowRunRow.before (a b : WorkflowRunRow) : Prop :=
  b.updatedAt < a.updatedAt ∨ (a.updatedAt = b.updatedAt ∧ ¬ a.payload.id < b.payload.id)

instance : DecidableRel WorkflowRunRow.before := fun _ _ => inferInstanceAs (Decidable (_ ∨ _))

/-- `SQLiteWorkflowRunStore`. -/
def SQLiteWorkflowRunStore :=
  KeyedStore.ofRows WorkflowRun.id WorkflowRunRow.payload WorkflowRunRow.write
    (·.insertionSort WorkflowRunRow.before)

/-- `MemoryWorkflowRunStore`. -/
def MemoryWorkflowRunStore := KeyedStore.ofRows WorkflowRun.id id (fun _ run => run) id

/-- A row of the table `task_runs`, apart from its primary key. -/
structure TaskRunRow where
  planId : String
  deviceId : String
  status : TaskRunStatus
  payload : TaskRun

/-- The row that `SQLiteTaskRunStore.save` writes. -/
def TaskRunRow.write (_ : Option TaskRunRow) (run : TaskRun) : TaskRunRow where
  planId := run.planId
  deviceId := run.deviceId
  status := run.status
  payload := run

/-- `SQLiteTaskRunStore`, which lists `ORDER BY rowid DESC`. -/
def SQLiteTaskRunStore :=
  KeyedStore.ofRows TaskRun.id TaskRunRow.payload TaskRunRow.write List.reverse

/-- `MemoryTaskRunStore`. -/
def MemoryTaskRunStore := KeyedStore.ofRows TaskRun.id id (fun _ run => run) id

/-- What a process leaves in its run store, a memory store or an SQLite database. -/
abbrev WorkflowRunContent :=
  Rows (fun run : WorkflowRun => (id run).id) ⊕ Rows fun row : WorkflowRunRow => row.payload.id

/-- The run store of a `WorkflowRuntime`. -/
def workflowRunStore : KeyedStore String WorkflowRun WorkflowRunContent :=
  MemoryWorkflowRunStore.either SQLiteWorkflowRunStore

/-- What a process leaves in its task store. -/
abbrev TaskRunContent :=
  Rows (fun run : TaskRun => (id run).id) ⊕ Rows fun row : TaskRunRow => row.payload.id

/-- The task store of a `TaskOrchestrator`. -/
def taskRunStore : KeyedStore String TaskRun TaskRunContent :=
  MemoryTaskRunStore.either SQLiteTaskRunStore

theorem workflowRunStore_lawful : workflowRunStore.Lawful WorkflowRun.id := by
  have hmemory : MemoryWorkflowRunStore.Lawful WorkflowRun.id :=
    KeyedStore.ofRows_lawful (fun _ _ => rfl) fun _ => List.Perm.refl _
  have hsqlite : SQLiteWorkflowRunStore.Lawful WorkflowRun.id :=
    KeyedStore.ofRows_lawful (fun _ _ => rfl) fun l => l.perm_insertionSort _
  exact KeyedStore.either_lawful hmemory hsqlite

theorem taskRunStore_lawful : taskRunStore.Lawful TaskRun.id := by
  have hmemory : MemoryTaskRunStore.Lawful TaskRun.id :=
    KeyedStore.ofRows_lawful (fun _ _ => rfl) fun _ => List.Perm.refl _
  have hsqlite : SQLiteTaskRunStore.Lawful TaskRun.id :=
    KeyedStore.ofRows_lawful (fun _ _ => rfl) fun l => l.reverse_perm
  exact KeyedStore.either_lawful hmemory hsqlite

end DeviceShell.Persistence
