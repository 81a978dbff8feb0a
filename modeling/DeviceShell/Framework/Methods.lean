import DeviceShell.Framework.Contract

/-!
# What the methods of the orchestrator do

One lemma for each method that says what it does to the world.
The methods that control a task from outside, `pause`, `resume`, `cancel`, `delete` and
`apply_decision`, are alike: each calls the runtime for at most one child, the last recorded one
that has not ended, and then saves the task. `Controlled` says this once for all of them.
-/

namespace DeviceShell.Framework

open Stateful

namespace Orchestrator

section Methods

variable {ρ : Type} [PyLib] (o : Orchestrator ρ) {w : World ρ}

/-! ## The stores -/

omit [PyLib] in
theorem getChild_ensures (id : String) :
    Ensures (getChild id) w fun r w' =>
      w' = w ∧ ∀ run, r = .ok run → w.runtime.runs.get? id = some run := by
  unfold getChild
  refine ensures_get ?_
  cases h : w.runtime.runs.get? id with
  | some run => exact ⟨rfl, by rintro _ ⟨rfl⟩; rfl⟩
  | none => exact ⟨rfl, fun _ h => by cases h⟩

omit [PyLib] in
theorem getTask_ensures (taskId : String) :
    Ensures (getTask taskId) w fun r w' =>
      w' = w ∧ ∀ task, r = .ok task → w.tasks.get? taskId = some task := by
  unfold getTask
  refine ensures_get ?_
  cases h : w.tasks.get? taskId with
  | some run => exact ⟨rfl, by rintro _ ⟨rfl⟩; rfl⟩
  | none => exact ⟨rfl, fun _ h => by cases h⟩

/-- What two worlds have in common when they differ in the tasks, the leases and the state of the
resource coordinator only. -/
structure SameButTasks (w w' : World ρ) : Prop where
  runs : w'.runtime.runs = w.runtime.runs
  calls : w'.runtime.calls = w.runtime.calls
  nextCall : w'.runtime.nextCall = w.runtime.nextCall
  happened : w'.runtime.history = w.runtime.history
  clock : w'.clock = w.clock
  history : w'.history = w.history

omit [PyLib] in
theorem SameButTasks.refl (w : World ρ) : SameButTasks w w := ⟨rfl, rfl, rfl, rfl, rfl, rfl⟩

omit [PyLib] in
theorem saved_same (run : TaskRun) : SameButTasks w (o.saved w run) := by
  unfold saved
  dsimp only
  split
  · split <;> exact ⟨rfl, rfl, rfl, rfl, rfl, rfl⟩
  · exact ⟨rfl, rfl, rfl, rfl, rfl, rfl⟩

omit [PyLib] in
@[simp] theorem saved_tasks (run : TaskRun) : (o.saved w run).tasks = w.tasks.set run.id run := by
  unfold saved
  dsimp only
  split
  · split <;> rfl
  · rfl

omit [PyLib] in
theorem save_ensures (run : TaskRun) :
    Ensures (o.save run) w fun r w' => r = .ok run ∧ w' = o.saved w run := ⟨rfl, rfl⟩

omit [PyLib] in
theorem acquire_ensures (taskId deviceId ownerId : String) :
    Ensures (o.acquire taskId deviceId ownerId) w fun _ w' =>
      SameButTasks w w' ∧ w'.tasks = w.tasks := by
  unfold acquire
  split
  · exact ⟨.refl w, rfl⟩
  · refine ensures_get ?_
    split
    · exact ⟨⟨rfl, rfl, rfl, rfl, rfl, rfl⟩, rfl⟩
    · exact ⟨⟨rfl, rfl, rfl, rfl, rfl, rfl⟩, rfl⟩

/-! ## Calls of the runtime -/

/-- The world after an input of the runtime. -/
def stepped (w : World ρ) (input : RuntimeInput) : World ρ :=
  { w with runtime := Runtime.step o.coordinator o.runtime w.runtime (w.clock, input) }

theorem onChild_ensures (id : String) (input : RuntimeInput)
    (section_ : World ρ → WorkflowRun → SaveM WorkflowRun) :
    Ensures (o.onChild id input section_) w fun r w' =>
      (w' = w ∧ ∀ run, r ≠ .ok run) ∨
        ∃ run, w.runtime.runs.get? id = some run ∧ w' = o.stepped w input ∧
          r = (section_ w run).result := by
  unfold onChild
  refine (getChild_ensures id).bind (fun run w' h => ?_) fun e w' h => ?_
  · obtain ⟨rfl, hrun⟩ := h
    refine ensures_get (ensures_set (.inr ⟨run, hrun run rfl, ?_⟩))
    cases (section_ w' run).result with
    | ok run => exact ⟨rfl, rfl⟩
    | error e => exact ⟨rfl, rfl⟩
  · exact .inl ⟨h.1, fun _ h => by cases h⟩

/-- A child that a task records and that has not ended. -/
def IsActive (w : World ρ) (task : TaskRun) (child : WorkflowRun) : Prop :=
  ∃ id ∈ task.nodeRuns.values, w.runtime.runs.get? id = some child ∧ child.status.terminal = false

omit [PyLib] in
theorem firstUnfinished_ensures (ids : List String) :
    Ensures (firstUnfinished ids) w fun r w' => w' = w ∧
      (∀ child, r = .ok (some child) → ∃ id ∈ ids,
        w.runtime.runs.get? id = some child ∧ child.status.terminal = false) ∧
      (r = .ok none → ∀ id ∈ ids, ∃ child, w.runtime.runs.get? id = some child ∧
        child.status.terminal = true) := by
  induction ids with
  | nil => exact ⟨rfl, fun _ h => (by cases h), fun _ _ h => (by cases h)⟩
  | cons id rest ih =>
    unfold firstUnfinished
    refine (getChild_ensures id).bind (fun child w' h => ?_) fun e w' h => ?_
    · obtain ⟨rfl, hchild⟩ := h
      have hchild := hchild child rfl
      split
      · rename_i hterminal
        refine ih.mono fun r w' h => ⟨h.1, fun c hc => ?_, fun hr id' hid' => ?_⟩
        · obtain ⟨id', hid', hc'⟩ := h.2.1 c hc
          exact ⟨id', List.mem_cons_of_mem _ hid', hc'⟩
        · rcases List.mem_cons.1 hid' with rfl | hid'
          · exact ⟨child, hchild, hterminal⟩
          · exact h.2.2 hr id' hid'
      · rename_i hterminal
        refine ⟨rfl, fun c hc => ?_, fun h => by cases h⟩
        cases hc
        exact ⟨id, List.mem_cons_self .., hchild, by simpa using hterminal⟩
    · exact ⟨h.1, fun _ h => (by cases h), fun h => (by cases h)⟩

omit [PyLib] in
theorem activeChild_ensures (task : TaskRun) :
    Ensures (activeChild task) w fun r w' => w' = w ∧
      (∀ child, r = .ok (some child) → IsActive w task child) ∧
      (r = .ok none → ∀ id ∈ task.nodeRuns.values, ∃ child,
        w.runtime.runs.get? id = some child ∧ child.status.terminal = true) := by
  refine (firstUnfinished_ensures _).mono fun r w' h => ⟨h.1, fun child hc => ?_, fun hr id hid => ?_⟩
  · obtain ⟨id, hid, hc⟩ := h.2.1 child hc
    exact ⟨id, List.mem_reverse.1 hid, hc⟩
  · exact h.2.2 hr id (List.mem_reverse.2 hid)

/-! ## Control of a task -/

/-- The calls of the runtime with which a task is controlled. -/
inductive ControlsChild (id : String) : RuntimeInput → Prop where
  | pause : ControlsChild id (.pause id)
  | resume (context : Dict String Value) : ControlsChild id (.resume id context)
  | cancel : ControlsChild id (.cancel id)
  | applyDecision (submission : DecisionSubmission) :
    ControlsChild id (.applyDecision id submission)

/-- The runtime is called for at most one child of a task that has not ended. -/
inductive ChildCalled (w : World ρ) (task : TaskRun) : World ρ → Prop where
  | none : ChildCalled w task w
  | call (child : WorkflowRun) (active : IsActive w task child) (input : RuntimeInput)
    (controls : ControlsChild child.id input) : ChildCalled w task (o.stepped w input)

/-- What a method that controls a task does. -/
inductive Controlled (taskId : String) (w w' : World ρ) : Prop where
  /-- It raises, or has nothing to do. -/
  | left (same : w' = w)
  /-- It raises after a call of the runtime. -/
  | called (task : TaskRun) (stored : w.tasks.get? taskId = some task)
    (call : ChildCalled o w task w')
  /-- It saves the task with the same children. -/
  | saved (task task' : TaskRun) (w₁ : World ρ) (stored : w.tasks.get? taskId = some task)
    (call : ChildCalled o w task w₁) (result : w' = o.saved w₁ task') (id : task'.id = task.id)
    (nodeRuns : task'.nodeRuns = task.nodeRuns)
  /-- It saves the task without the children of some nodes. -/
  | cleared (task task' : TaskRun) (w₁ : World ρ) (nodes : List String)
    (stored : w.tasks.get? taskId = some task) (call : ChildCalled o w task w₁)
    (result : w' = o.saved { w₁ with history := w₁.history ++ [.cleared task.id nodes] } task')
    (id : task'.id = task.id)
    (nodeRuns : task'.nodeRuns = task.nodeRuns.filterKeys fun key => !nodes.contains key)
  /-- It deletes the task. -/
  | deleted (result : w' = { w with tasks := w.tasks.erase taskId })

variable {o}

theorem onChild_called {task : TaskRun} {child : WorkflowRun} (hactive : IsActive w task child)
    {input : RuntimeInput} (hinput : ControlsChild child.id input)
    (section_ : World ρ → WorkflowRun → SaveM WorkflowRun) :
    Ensures (o.onChild child.id input section_) w fun _ w' => ChildCalled o w task w' := by
  refine (o.onChild_ensures child.id input section_).mono fun r w' h => ?_
  rcases h with ⟨rfl, -⟩ | ⟨run, -, rfl, -⟩
  · exact .none
  · exact .call child hactive input hinput

theorem pause_controlled (taskId : String) :
    Ensures (o.pause taskId) w fun _ w' => Controlled o taskId w w' := by
  unfold pause
  refine (getTask_ensures taskId).bind (fun task w' h => ?_) fun e w' h => .left h.1
  obtain ⟨rfl, htask⟩ := h
  have htask := htask task rfl
  split
  · exact .left rfl
  refine (activeChild_ensures task).bind (fun child w h => ?_) fun e w h => .left h.1
  obtain ⟨rfl, hactive, -⟩ := h
  cases child with
  | none =>
    dsimp only
    exact (o.save_ensures _).mono fun _ _ h => .saved task _ _ htask .none h.2 rfl rfl
  | some child =>
    refine (onChild_called (hactive child rfl) .pause _).bind (fun _ w₁ hcall => ?_)
      fun e w₁ hcall => .called task htask hcall
    exact (o.save_ensures _).mono fun _ _ h => .saved task _ w₁ htask hcall h.2 rfl rfl

theorem cancel_controlled (taskId : String) :
    Ensures (o.cancel taskId) w fun _ w' => Controlled o taskId w w' := by
  unfold cancel
  refine (getTask_ensures taskId).bind (fun task w' h => ?_) fun e w' h => .left h.1
  obtain ⟨rfl, htask⟩ := h
  have htask := htask task rfl
  split
  · exact .left rfl
  refine (activeChild_ensures task).bind (fun child w h => ?_) fun e w h => .left h.1
  obtain ⟨rfl, hactive, -⟩ := h
  cases child with
  | none =>
    dsimp only
    exact (o.save_ensures _).mono fun _ _ h => .saved task _ _ htask .none h.2 rfl rfl
  | some child =>
    refine (onChild_called (hactive child rfl) .cancel _).bind (fun _ w₁ hcall => ?_)
      fun e w₁ hcall => .called task htask hcall
    exact (o.save_ensures _).mono fun _ _ h => .saved task _ w₁ htask hcall h.2 rfl rfl

theorem delete_controlled (taskId : String) :
    Ensures (delete taskId) w fun _ w' => Controlled o taskId w w' := by
  unfold delete
  refine (getTask_ensures taskId).bind (fun task w' h => ?_) fun e w' h => .left h.1
  obtain ⟨rfl, -⟩ := h
  split
  · exact .deleted rfl
  · exact .left rfl

theorem applyDecision_controlled (taskId : String) (submission : DecisionSubmission) :
    Ensures (o.applyDecision taskId submission) w fun _ w' => Controlled o taskId w w' := by
  unfold applyDecision
  refine (getTask_ensures taskId).bind (fun task w' h => ?_) fun e w' h => .left h.1
  obtain ⟨rfl, htask⟩ := h
  have htask := htask task rfl
  refine (activeChild_ensures task).bind (fun child w h => ?_) fun e w h => .left h.1
  obtain ⟨rfl, hactive, -⟩ := h
  cases child with
  | none => exact .left rfl
  | some child =>
    refine (onChild_called (hactive child rfl) (.applyDecision submission) _).bind
      (fun _ w₁ hcall => ?_) fun e w₁ hcall => .called task htask hcall
    exact (o.save_ensures _).mono fun _ _ h => .saved task _ w₁ htask hcall h.2 rfl rfl

theorem resumeFromStep_controlled {taskId : String} {task : TaskRun}
    (htask : w.tasks.get? taskId = some task) (plan : TaskPlan) (stepId : String)
    (context : Dict String Value) (cancelActive : Bool) :
    Ensures (o.resumeFromStep task plan stepId context cancelActive) w
      fun _ w' => Controlled o taskId w w' := by
  unfold resumeFromStep
  dsimp only
  split
  · refine (activeChild_ensures task).bind (fun child w h => ?_) fun e w h => .left h.1
    obtain ⟨rfl, hactive, -⟩ := h
    cases child with
    | none =>
      dsimp only
      refine ensures_modify ((o.save_ensures _).mono fun _ _ h => ?_)
      exact .cleared task _ _ _ htask .none h.2 rfl rfl
    | some child =>
      refine (onChild_called (hactive child rfl) .cancel _).bind (fun _ w₁ hcall => ?_)
        fun e w₁ hcall => .called task htask hcall
      refine ensures_modify ((o.save_ensures _).mono fun _ _ h => ?_)
      exact .cleared task _ w₁ _ htask hcall h.2 rfl rfl
  · refine ensures_modify ((o.save_ensures _).mono fun _ _ h => ?_)
    exact .cleared task _ _ _ htask .none h.2 rfl rfl

omit [PyLib] in
theorem firstRestartable_ensures (task : TaskRun) (nodes : List WorkflowNode) :
    Ensures (firstRestartable task nodes) w fun _ w' => w' = w := by
  induction nodes with
  | nil => exact rfl
  | cons node rest ih =>
    unfold firstRestartable
    split
    · exact ih
    · refine ensures_get ?_
      split
      · exact ih
      · split
        · exact rfl
        · exact ih

theorem resume_controlled (taskId : String) (context : Dict String Value) (stepId : String)
    (plan : Option TaskPlan) :
    Ensures (o.resume taskId context stepId plan) w fun _ w' => Controlled o taskId w w' := by
  unfold resume
  refine (getTask_ensures taskId).bind (fun task w' h => ?_) fun e w' h => .left h.1
  obtain ⟨rfl, htask⟩ := h
  have htask := htask task rfl
  split
  · cases plan with
    | none => exact .left rfl
    | some plan =>
      dsimp only
      split
      · exact resumeFromStep_controlled htask plan stepId context true
      · exact .left rfl
  refine (activeChild_ensures task).bind (fun child w h => ?_) fun e w h => .left h.1
  obtain ⟨rfl, hactive, -⟩ := h
  cases child with
  | some child =>
    refine (onChild_called (hactive child rfl) (.resume context) _).bind (fun _ w₁ hcall => ?_)
      fun e w₁ hcall => .called task htask hcall
    exact (o.save_ensures _).mono fun _ _ h => .saved task _ w₁ htask hcall h.2 rfl rfl
  | none =>
    cases plan with
    | none =>
    dsimp only
    exact (o.save_ensures _).mono fun _ _ h => .saved task _ _ htask .none h.2 rfl rfl
    | some plan =>
      dsimp only
      split
      · unfold failedChildStep
        refine Ensures.bind (Q := fun _ w' => w' = w) ?_ (fun step w' h => ?_) fun e w' h => .left h
        · refine ensures_lift (fun nodes _ => firstRestartable_ensures task nodes) fun _ _ => rfl
        · subst h
          split
          · exact resumeFromStep_controlled htask plan step context false
          · exact (o.save_ensures _).mono fun _ _ h => .saved task _ _ htask .none h.2 rfl rfl
      · exact (o.save_ensures _).mono fun _ _ h => .saved task _ _ htask .none h.2 rfl rfl

end Methods

end Orchestrator

end DeviceShell.Framework
