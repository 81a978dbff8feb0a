import DeviceShell.Lib.Machine
import DeviceShell.Framework.Orchestrator

/-!
# The task orchestrator as a state machine

A `TaskOrchestrator` and its runtime under every interleaving of their calls. A state holds the
world and the calls of `execute` that are in flight, each with its frame, its own suspended
coroutine and the coroutines that its `asyncio.gather` runs. An input calls a method, resumes a
suspended coroutine whose awaited thing is there, or is an input of the runtime's own machine: the
ticks of `run_until_blocked` come as such inputs, so a coroutine that awaits a child may be resumed
as soon as the stored child is not active.
-/

namespace DeviceShell.Framework

/-- A coroutine that is run by `asyncio.gather`. -/
inductive MemberState (ρ : Type) where
  | waiting (w : Wait) (k : w.Reply → Exec ρ BatchResult)
  | finished (result : Except PyError BatchResult)

/-- The coroutine of one node of a batch. -/
structure Member (ρ : Type) where
  node : WorkflowNode
  state : MemberState ρ

/-- A suspended coroutine. -/
structure Suspended (ρ α : Type) where
  wait : Wait
  resume : wait.Reply → Exec ρ α

/-- A call of `execute` that is in flight. -/
structure Execution (ρ : Type) where
  frame : Frame
  /-- Its own coroutine, until it returns. -/
  main : Option (Suspended ρ TaskRun)
  /-- The coroutines of the batch it awaits, or awaited when one of them raised. -/
  members : List (Member ρ) := []
  /-- The first exception that one of them raised. -/
  raised : Option PyError := none

/-- The state of an orchestrator with its calls of `execute`. -/
structure TaskState (ρ : Type) where
  world : World ρ
  executions : Dict ℕ (Execution ρ) := ∅
  /-- The number of the next call of `execute`. -/
  nextExecution : ℕ := 0

/-- The calls of the methods of a `TaskOrchestrator`, and what its environment does. -/
inductive TaskInput where
  | start (plan : TaskPlan) (deviceId : String) (inputs context : Dict String Value)
      (taskRunId childRunId : Option String)
  | execute (taskId : String) (plan : TaskPlan)
  | pause (taskId : String)
  | resume (taskId : String) (context : Dict String Value) (stepId : String)
      (plan : Option TaskPlan)
  | cancel (taskId : String)
  | delete (taskId : String)
  | applyDecision (taskId : String) (submission : DecisionSubmission)
  /-- What the coroutine of a call of `execute` awaits is there. -/
  | wake (execution : ℕ)
  /-- What a member of its batch awaits is there. -/
  | wakeMember (execution member : ℕ)
  /-- The `run_until_blocked` that the coroutine awaits raises. -/
  | raise (execution : ℕ) (error : PyError)
  /-- The `run_until_blocked` that a member of its batch awaits raises. -/
  | raiseMember (execution member : ℕ) (error : PyError)
  /-- The task of the event loop that runs a call of `execute` is cancelled. -/
  | drop (execution : ℕ)
  /-- An input of the runtime. -/
  | runtime (input : RuntimeInput)
  /-- The process ends, and a new one is started over the same stores; the task store lists some of
  its tasks. -/
  | restart (listed : List String)

namespace Orchestrator

variable {ρ : Type}

/-- Whether a member has not taken its first step. -/
def Member.scheduled (m : Member ρ) : Bool :=
  match m.state with
  | .waiting .scheduled _ => true
  | _ => false

/-- Whether a member is suspended. -/
def Member.live (m : Member ρ) : Bool :=
  match m.state with
  | .waiting _ _ => true
  | .finished _ => false

/-- The results of the members, if all have returned. -/
def results : List (Member ρ) → Option (List BatchResult)
  | [] => some []
  | m :: rest => match m.state, results rest with
    | .finished (.ok result), some others => some (result :: others)
    | _, _ => none

/-- What an awaited thing yields, if it is there. A gather raises what a member raised first, which
it learns when all members have taken their first step. -/
def reply (w : World ρ) (e : Execution ρ) : (wait : Wait) → Option wait.Reply
  | .child id => match w.runtime.runs.get? id with
    | some run => if run.status.active then none else some (.ok run)
    | none => some (.error (.keyError ("workflow run not found: " ++ id)))
  | .sleep => some ()
  | .scheduled => some ()
  | .gather _ _ _ =>
    if e.members.any Member.scheduled then none
    else match e.raised with
      | some error => some (.error error)
      | none => (results e.members).map .ok

/-- The reply of a `run_until_blocked` that raises. -/
def failure (error : PyError) : (wait : Wait) → Option wait.Reply
  | .child _ => some (.error error)
  | _ => none

/-- A call of `execute` is over when its coroutine and all members have ended. -/
def Execution.over (e : Execution ρ) : Bool := e.main.isNone && !e.members.any Member.live

/-- Stores a call of `execute`, or forgets it when it is over. -/
def keep (s : TaskState ρ) (id : ℕ) (w : World ρ) (e : Execution ρ) : TaskState ρ :=
  { s with
    world := w
    executions := if Execution.over e then s.executions.erase id else s.executions.set id e }

section Machine

variable [PyLib] (o : Orchestrator ρ)

/-- The members of a gather. -/
def gathered : Wait → List (Member ρ)
  | .gather task batch outputs => batch.map fun node =>
      ⟨node, .waiting .scheduled fun _ => o.executeParallelNode task node outputs⟩
  | _ => []

/-- Runs the coroutine of a call of `execute` to its next suspension. -/
def runMain (s : TaskState ρ) (id : ℕ) (e : Execution ρ) (m : Exec ρ TaskRun) : TaskState ρ :=
  match m.section_ ⟨s.world, e.frame⟩ with
  | (scope, .done _) => keep s id scope.world { e with frame := scope.frame, main := none }
  | (scope, .await w k) => keep s id scope.world
      { frame := scope.frame, main := some ⟨w, k⟩, members := o.gathered w, raised := none }

omit [PyLib] in
/-- Runs a member of a batch to its next suspension. -/
def runMember (s : TaskState ρ) (id : ℕ) (e : Execution ρ) (index : ℕ) (node : WorkflowNode)
    (m : Exec ρ BatchResult) : TaskState ρ :=
  match m.section_ ⟨s.world, e.frame⟩ with
  | (scope, .done result) => keep s id scope.world
      { e with
        frame := scope.frame
        members := e.members.set index ⟨node, .finished result⟩
        raised := match e.raised, result with
          | none, .error error => some error
          | raised, _ => raised }
  | (scope, .await w k) => keep s id scope.world
      { e with frame := scope.frame, members := e.members.set index ⟨node, .waiting w k⟩ }

/-- Resumes the coroutine of a call of `execute`, if there is a reply. -/
def resumeMain (s : TaskState ρ) (id : ℕ)
    (reply : World ρ → Execution ρ → (wait : Wait) → Option wait.Reply) : TaskState ρ :=
  match s.executions.get? id with
  | some e => match e.main with
    | some m => match reply s.world e m.wait with
      | some r => o.runMain s id e (m.resume r)
      | none => s
    | none => s
  | none => s

omit [PyLib] in
/-- Resumes a member of a batch, if there is a reply. -/
def resumeMember (s : TaskState ρ) (id index : ℕ)
    (reply : World ρ → Execution ρ → (wait : Wait) → Option wait.Reply) : TaskState ρ :=
  match s.executions.get? id with
  | some e => match e.members[index]? with
    | some m => match m.state with
      | .waiting w k => match reply s.world e w with
        | some r => runMember s id e index m.node (k r)
        | none => s
      | .finished _ => s
    | none => s
  | none => s

/-- Runs a method. -/
def perform {α : Type} (s : TaskState ρ) (m : Method ρ α) : TaskState ρ :=
  { s with world := (m.run s.world).2 }

/-- A call of `execute` to its first suspension. -/
def begin (s : TaskState ρ) (taskId : String) (plan : TaskPlan) : TaskState ρ :=
  match (o.prologue s.nextExecution taskId plan).run s.world with
  | (.ok frame, w) =>
    o.runMain { s with world := w, nextExecution := s.nextExecution + 1 } s.nextExecution
      { frame := frame, main := none } (o.execute plan)
  | (.error _, w) => { s with world := w }

omit [PyLib] in
/-- A task as a new orchestrator finds it in the store. -/
def recovered (task : TaskRun) : TaskRun :=
  if task.status = .running ∨ task.status = .waitingChild then
    { task with
      status := .waitingReconcile
      context := task.context.set recoveryKey
        (.dict [("required", .bool true), ("reason", .str "process_restart")]) }
  else task

omit [PyLib] in
/-- `__init__` on one task that the store lists. -/
def recover (tasks : Dict String TaskRun) (taskId : String) : Dict String TaskRun :=
  match tasks.get? taskId with
  | some task => tasks.set taskId (recovered task)
  | none => tasks

/-- One step: an input and the time at which it comes. -/
def step (s : TaskState ρ) (input : ℚ × TaskInput) : TaskState ρ :=
  let s := { s with world := { s.world with clock := input.1 } }
  match input.2 with
  | .start plan deviceId inputs context taskRunId childRunId =>
    perform s (o.start plan deviceId inputs context taskRunId childRunId)
  | .execute taskId plan => o.begin s taskId plan
  | .pause taskId => perform s (o.pause taskId)
  | .resume taskId context stepId plan => perform s (o.resume taskId context stepId plan)
  | .cancel taskId => perform s (o.cancel taskId)
  | .delete taskId => perform s (delete taskId)
  | .applyDecision taskId submission => perform s (o.applyDecision taskId submission)
  | .wake id => o.resumeMain s id reply
  | .wakeMember id index => resumeMember s id index reply
  | .raise id error => o.resumeMain s id fun _ _ => failure error
  | .raiseMember id index error => resumeMember s id index fun _ _ => failure error
  | .drop id => { s with executions := s.executions.erase id }
  | .runtime .restart => s
  | .runtime input => { s with
      world := { s.world with
        runtime := Runtime.step o.coordinator o.runtime s.world.runtime (s.world.clock, input) } }
  | .restart listed => { s with
      world := { s.world with
        runtime := Runtime.step o.coordinator o.runtime s.world.runtime (s.world.clock, .restart)
        tasks := listed.foldl recover s.world.tasks
        resourceLeases := ∅ }
      executions := ∅ }

/-- The state reached from empty stores by a list of inputs. -/
def reached (resources : ρ) (inputs : List (ℚ × TaskInput)) : TaskState ρ :=
  Machine.run o.step { world := { runtime := { resources := resources } } } inputs

end Machine

end Orchestrator

end DeviceShell.Framework
