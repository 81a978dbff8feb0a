import DeviceShell.Framework.ExecRules

/-!
# Soundness of task success

When `execute` stores a task as succeeded, each node of its plan has a recorded child that
succeeded, or was skipped and has none, or has a child that failed and a policy that continues after
failures (`SuccessSound`). The code gives this where a node is counted as a continued failure only
when its child has ended; `SuccessSafe` says so.
-/

namespace DeviceShell.Framework

/-- The statuses in which a child that did not succeed has ended: `FAILED`, `CANCELLED` and
`unknown`. -/
def RunStatus.failedEnd : RunStatus → Bool
  | .failed => true
  | .cancelled => true
  | .unknown => true
  | _ => false

section Statement

variable [PyLib]

/-- The ways in which a node of a task that succeeded was done. -/
inductive NodeCase where
  /-- Its recorded child succeeded. -/
  | succeeded
  /-- It has no child, and its `run_if` was false when it was reached. -/
  | skipped
  /-- Its policy continues after failures, and its recorded child failed. -/
  | continued

/-- What each case says of a node, given what happened before, the child runs, the call of `execute`
and the recorded children. -/
def NodeCase.Holds (history : List TaskEvent) (children : Dict String WorkflowRun) (execution : ℕ)
    (nodeRuns : Dict String String) (node : WorkflowNode) : NodeCase → Prop
  | .succeeded => ∃ id child, nodeRuns.get? node.id = some id ∧ children.get? id = some child ∧
      child.status = .succeeded
  | .skipped => nodeRuns.get? node.id = none ∧ ∃ inputs outputs context,
      .reached execution node.id inputs outputs context ∈ history ∧
        skips node inputs outputs context = .ok true
  | .continued => continuesAfterFailure node = true ∧ ∃ id child,
      nodeRuns.get? node.id = some id ∧ children.get? id = some child ∧
        child.status.failedEnd = true

/-- What a stored task says about the nodes of its plan, if it is stored as succeeded: each is in
exactly one of the three cases. -/
def TaskEvent.SoundAfter (history : List TaskEvent) : TaskEvent → Prop
  | .stored execution plan task children => task.status = .succeeded → ∀ node ∈ plan.nodes,
      ∃! case : NodeCase, case.Holds history children execution task.nodeRuns node
  | _ => True

/-- Every task that `execute` stored as succeeded had succeeded. -/
def SuccessSound (history : List TaskEvent) : Prop :=
  ∀ before event after, history = before ++ event :: after → event.SoundAfter before

end Statement

section Facts

variable [PyLib] {history : List TaskEvent} {children : Dict String WorkflowRun} {execution : ℕ}
  {nodeRuns : Dict String String} {node : WorkflowNode}

/-- A node is in at most one of the cases. -/
theorem NodeCase.unique {c c' : NodeCase} (h : c.Holds history children execution nodeRuns node)
    (h' : c'.Holds history children execution nodeRuns node) : c = c' := by
  cases c <;> cases c' <;> try rfl
  all_goals
    simp only [NodeCase.Holds] at h h'
    grind [RunStatus.failedEnd]

theorem successSound_append {event : TaskEvent} :
    SuccessSound (history ++ [event]) ↔ SuccessSound history ∧ event.SoundAfter history := by
  constructor
  · intro h
    refine ⟨fun before e after heq => ?_, h history event [] rfl⟩
    exact h before e (after ++ [event]) (by rw [heq]; simp)
  · rintro ⟨h, hevent⟩ before e after heq
    rcases List.eq_nil_or_concat after with rfl | ⟨after, last, rfl⟩
    · obtain ⟨rfl, he⟩ := List.append_inj' heq rfl
      cases he
      exact hevent
    · rw [List.concat_eq_append, ← List.cons_append, ← List.append_assoc] at heq
      obtain ⟨rfl, -⟩ := List.append_inj' heq rfl
      exact h before e after rfl

end Facts

namespace Orchestrator

/-! ## What may happen to the world -/

/-- Children that have ended stay so: one that succeeded stays succeeded, and one that failed stays
failed. -/
def KeepsEnded (children children' : Dict String WorkflowRun) : Prop :=
  ∀ id child, children.get? id = some child →
    (child.status = .succeeded → ∃ child', children'.get? id = some child' ∧
      child'.status = .succeeded) ∧
    (child.status.failedEnd = true → ∃ child', children'.get? id = some child' ∧
      child'.status.failedEnd = true)

theorem KeepsEnded.refl (children : Dict String WorkflowRun) : KeepsEnded children children :=
  fun _ child h => ⟨fun hs => ⟨child, h, hs⟩, fun hs => ⟨child, h, hs⟩⟩

theorem KeepsEnded.trans {a b c : Dict String WorkflowRun} (h : KeepsEnded a b)
    (h' : KeepsEnded b c) : KeepsEnded a c := by
  intro id child hchild
  obtain ⟨hs, hf⟩ := h id child hchild
  constructor
  · intro hstatus
    obtain ⟨child', hchild', hstatus'⟩ := hs hstatus
    exact (h' id child' hchild').1 hstatus'
  · intro hstatus
    obtain ⟨child', hchild', hstatus'⟩ := hf hstatus
    exact (h' id child' hchild').2 hstatus'

/-- A run that has not ended may be replaced. -/
theorem KeepsEnded.set {children : Dict String WorkflowRun} {id : String} {child : WorkflowRun}
    (h : ∀ old, children.get? id = some old → old.status ≠ .succeeded ∧
      (old.status.failedEnd = true → child.status.failedEnd = true)) :
    KeepsEnded children (children.set id child) := by
  intro id' old hold
  by_cases hid : id' = id
  · subst hid
    obtain ⟨hs, hf⟩ := h old hold
    exact ⟨fun hstatus => absurd hstatus hs, fun hstatus =>
      ⟨child, Dict.get?_set_self _ _ _, hf hstatus⟩⟩
  · have hget := Dict.get?_set_of_ne children hid child
    exact ⟨fun hs => ⟨old, hget.trans hold, hs⟩, fun hs => ⟨old, hget.trans hold, hs⟩⟩

variable {ρ : Type} [PyLib]

/-- What every step does to the world. -/
structure Proceeds (w w' : World ρ) : Prop where
  ended : KeepsEnded w.runtime.runs w'.runtime.runs
  history : w.history <+: w'.history
  sound : SuccessSound w.history → SuccessSound w'.history
  keyed : w.runtime.Keyed → w'.runtime.Keyed

theorem Proceeds.refl (w : World ρ) : Proceeds w w := ⟨.refl _, List.prefix_rfl, id, id⟩

theorem Proceeds.trans {w w' w'' : World ρ} (h : Proceeds w w') (h' : Proceeds w' w'') :
    Proceeds w w'' :=
  ⟨h.ended.trans h'.ended, h.history.trans h'.history, h'.sound ∘ h.sound, h'.keyed ∘ h.keyed⟩

theorem SameButTasks.proceeds {w w' : World ρ} (h : SameButTasks w w') : Proceeds w w' :=
  ⟨h.runs ▸ .refl _, h.history ▸ List.prefix_rfl, fun hs => h.history ▸ hs,
    fun hk => RuntimeState.Keyed.congr hk h.runs⟩

theorem noted_proceeds (w : World ρ) {event : TaskEvent} (h : event.SoundAfter w.history) :
    Proceeds w (noted w event) :=
  ⟨.refl _, List.prefix_append _ _, fun hs => successSound_append.2 ⟨hs, h⟩, id⟩

variable {o : Orchestrator ρ}

/-- A child that is started under a new id, or in place of one that has not ended. -/
theorem ChildStarted.proceeds {w w' : World ρ} {runId : Option String} {child : WorkflowRun}
    (h : ChildStarted w runId child w')
    (hfree : ∀ id, runId = some id → ∀ old, w.runtime.runs.get? id = some old →
      old.status ≠ .succeeded ∧ old.status.failedEnd = false) : Proceeds w w' := by
  refine ⟨?_, h.history ▸ List.prefix_rfl, fun hs => h.history ▸ hs, fun hk => hk.set h.runs⟩
  rw [h.runs]
  refine KeepsEnded.set fun old hold => ?_
  by_cases hnew : child.id ∈ w.runtime.runs.keys
  · -- Only a given id can be in use.
    rw [h.id] at hnew hold
    unfold RuntimeState.newRunId at hnew hold
    split at hnew
    · rename_i id
      split at hnew
      · exact absurd hnew (RuntimeState.uuid4_not_mem_keys _)
      · rename_i hne
        dsimp only at hold
        rw [if_neg hne] at hold
        obtain ⟨hs, hf⟩ := hfree id rfl old hold
        exact ⟨hs, fun h => by rw [hf] at h; cases h⟩
    · exact absurd hnew (RuntimeState.uuid4_not_mem_keys _)
  · exact absurd (Dict.mem_keys_of_get? hold) hnew

/-- Cancelling a child that has not ended. -/
theorem Cancels.proceeds {w w' : World ρ} (hkeyed : w.runtime.Keyed)
    (h : Cancels (o := o) w w') : Proceeds w w' := by
  obtain ⟨id, child, hchild, hopen, rfl⟩ := h
  have hid := hkeyed id child hchild
  rw [hid]
  refine ⟨fun id' old hold => ?_, List.prefix_rfl, fun hs => hs, fun hk => Runtime.step_keyed hk _⟩
  by_cases hne : id' = id
  · subst hne
    obtain ⟨child', hchild', hstatus⟩ := stepped_cancel (o := o) hchild hkeyed hopen
    rw [hchild] at hold
    cases hold
    refine ⟨fun hs => ?_, fun _ => ⟨child', hchild', by rw [hstatus]; rfl⟩⟩
    rw [hs] at hopen
    cases hopen
  · have hsame := stepped_get?_of_ne (o := o) .cancel hkeyed hne
    exact ⟨fun hs => ⟨old, hsame.trans hold, hs⟩, fun hs => ⟨old, hsame.trans hold, hs⟩⟩

/-! ## The contract -/

/-- A node was skipped by a call of `execute`: its `run_if` was false when it was reached. -/
def WasSkipped (history : List TaskEvent) (execution : ℕ) (node : WorkflowNode) : Prop :=
  ∃ inputs outputs context, .reached execution node.id inputs outputs context ∈ history ∧
    skips node inputs outputs context = .ok true

/-- The recorded child of each continued failure is one with which the node counts as done, or is
still active. -/
def Clean (children : Dict String WorkflowRun) (plan : TaskPlan) (continued : List String)
    (nodeRuns : Dict String String) : Prop :=
  ∀ node ∈ plan.nodes, node.id ∈ continued → ∀ id child, nodeRuns.get? node.id = some id →
    children.get? id = some child → child.status.active = true ∨ child.status = .succeeded ∨
      (continuesAfterFailure node = true ∧ child.status.failedEnd = true)

/-- A member whose policy continues after failures is resumed with a child that has ended. -/
def MemberEnds (node : WorkflowNode) : (w : Wait) → w.Reply → Prop
  | .child _, r => ∀ run, r = .ok run → continuesAfterFailure node = true →
      run.status = .succeeded ∨ run.status.failedEnd = true
  | _, _ => True

/-- What the result of a member says about its node. -/
structure MemberPost (node : WorkflowNode) (r : BatchResult) (s : Scope ρ) : Prop where
  nodeId : r.nodeId = node.id
  skipped : r.status = none → r.childId = none ∧ s.frame.nodeRuns.get? node.id = none ∧
    WasSkipped s.world.history s.frame.id node
  succeeded : r.status = some .succeeded → ∃ id child, r.childId = some id ∧
    s.world.runtime.runs.get? id = some child ∧ child.status = .succeeded
  continued : ∀ status, r.status = some status → status ≠ .succeeded →
    continuesAfterFailure node = true → ∃ id child, r.childId = some id ∧
      s.world.runtime.runs.get? id = some child ∧ child.status.failedEnd = true

/-- A member assigns to the recorded child of its node only. -/
def RecordsFor (node : WorkflowNode) (f f' : Frame) : Prop :=
  f' = { f with nodeRuns := f'.nodeRuns } ∧
    ∀ id, id ≠ node.id → f'.nodeRuns.get? id = f.nodeRuns.get? id

/-- The contract of this property. -/
def successContract : Contract ρ where
  inv s := s.world.runtime.Keyed
  rely _ w w' := Proceeds w w'
  mainOk _ _ s :=
    Clean s.world.runtime.runs s.frame.plan s.frame.continuedFailures s.frame.nodeRuns
  memberOk node w r _ := MemberEnds node w r
  main s s' := Proceeds s.world s'.world
  member node s s' := Proceeds s.world s'.world ∧ RecordsFor node s.frame s'.frame
  post := MemberPost
  orphans := True
  apart _ _ := True

theorem WasSkipped.mono {history history' : List TaskEvent} (h : history <+: history')
    {execution : ℕ} {node : WorkflowNode} (hs : WasSkipped history execution node) :
    WasSkipped history' execution node := by
  obtain ⟨inputs, outputs, context, hmem, hskips⟩ := hs
  exact ⟨inputs, outputs, context, h.subset hmem, hskips⟩

/-- A result keeps what it says while the world proceeds and the record of its node stays. -/
theorem MemberPost.proceeds {node : WorkflowNode} {r : BatchResult} {s s' : Scope ρ}
    (h : MemberPost node r s) (hw : Proceeds s.world s'.world) (hid : s'.frame.id = s.frame.id)
    (hnode : s'.frame.nodeRuns.get? node.id = s.frame.nodeRuns.get? node.id) :
    MemberPost node r s' where
  nodeId := h.nodeId
  skipped hr := by
    obtain ⟨hchild, hnone, hskipped⟩ := h.skipped hr
    exact ⟨hchild, hnode.trans hnone, hid ▸ hskipped.mono hw.history⟩
  succeeded hr := by
    obtain ⟨id, child, hid, hchild, hs⟩ := h.succeeded hr
    obtain ⟨child', hchild', hs'⟩ := (hw.ended id child hchild).1 hs
    exact ⟨id, child', hid, hchild', hs'⟩
  continued status hr hne hcontinues := by
    obtain ⟨id, child, hid, hchild, hs⟩ := h.continued status hr hne hcontinues
    obtain ⟨child', hchild', hs'⟩ := (hw.ended id child hchild).2 hs
    exact ⟨id, child', hid, hchild', hs'⟩

omit [PyLib] in
theorem RecordsFor.refl (node : WorkflowNode) (f : Frame) : RecordsFor node f f :=
  ⟨rfl, fun _ _ => rfl⟩

omit [PyLib] in
theorem RecordsFor.id {node : WorkflowNode} {f f' : Frame} (h : RecordsFor node f f') :
    f'.id = f.id := by rw [h.1]

/-! ## The members of a batch -/

section Members

variable (o) {node : WorkflowNode} {s : Scope ρ}

end Members

end Orchestrator

end DeviceShell.Framework
