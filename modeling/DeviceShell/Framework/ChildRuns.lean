import DeviceShell.Framework.Methods

/-!
# Child runs under the steps of the runtime

What the orchestrator needs to know of its runtime: every run is stored under its own id, a call
that controls a child changes no other run, and a started child is a new one.
-/

namespace DeviceShell.Framework

namespace RuntimeState

variable {ρ : Type} {coordinator : Option (ResourceCoordinator ρ)} {now : ℚ}

theorem Keyed.congr {st st' : RuntimeState ρ} (h : st.Keyed) (hruns : st'.runs = st.runs) :
    st'.Keyed := fun id r hr => h id r (hruns ▸ hr)

theorem Keyed.set {st st' : RuntimeState ρ} (h : st.Keyed) {run : WorkflowRun}
    (hruns : st'.runs = st.runs.set run.id run) : st'.Keyed := by
  intro id r hr
  rw [hruns, Dict.get?_set] at hr
  split at hr
  · cases hr
    exact (‹id = run.id›).symm
  · exact h id r hr

theorem Keyed.perform [PyLib] {st : RuntimeState ρ} (h : st.Keyed) (m : SaveM Outcome) :
    (st.perform coordinator now m).Keyed :=
  (h.commit m.written).congr (runs_perform st m)

end RuntimeState

namespace Runtime

open RuntimeState

variable {ρ : Type} [PyLib] {coordinator : Option (ResourceCoordinator ρ)} {cfg : RuntimeConfig}

omit [PyLib] in
theorem withRun_keyed {st : RuntimeState ρ} (h : st.Keyed) {runId : String}
    {f : WorkflowRun → RuntimeState ρ} (hf : ∀ run, (f run).Keyed) :
    (withRun st runId f).Keyed := by
  unfold withRun
  split
  · exact hf _
  · exact h

/-- A started run is stored under its id, which is the given one or a new one; a start that raises
stores nothing. -/
theorem start_spec (coordinator : Option (ResourceCoordinator ρ)) (now : ℚ)
    (st : RuntimeState ρ) (definition : WorkflowDefinition)
    (deviceId : String) (context : Dict String Value) (runId : Option String) :
    (∃ run, (start coordinator now st definition deviceId context runId).1 = .ok run ∧
      run.id = st.newRunId runId ∧ run.status = .running ∧
      (start coordinator now st definition deviceId context runId).2.runs =
        st.runs.set run.id run ∧
      (start coordinator now st definition deviceId context runId).2.calls = st.calls ∧
      (start coordinator now st definition deviceId context runId).2.nextCall = st.nextCall ∧
      (start coordinator now st definition deviceId context runId).2.history =
        st.history ++ [.created run]) ∨
    ((∀ run, (start coordinator now st definition deviceId context runId).1 ≠ .ok run) ∧
      (start coordinator now st definition deviceId context runId).2.runs = st.runs ∧
      (start coordinator now st definition deviceId context runId).2.calls = st.calls ∧
      (start coordinator now st definition deviceId context runId).2.nextCall = st.nextCall ∧
      (start coordinator now st definition deviceId context runId).2.history = st.history) := by
  unfold start
  split
  · exact .inr ⟨fun _ h => (by cases h), rfl, rfl, rfl, rfl⟩
  · dsimp only
    split
    · exact .inl ⟨_, rfl, rfl, rfl, rfl, rfl, rfl, rfl⟩
    · split
      · exact .inl ⟨_, rfl, rfl, rfl, rfl, rfl, rfl, rfl⟩
      · exact .inr ⟨fun _ h => (by cases h), rfl, rfl, rfl, rfl⟩

theorem interrupt_keyed {st : RuntimeState ρ} (h : st.Keyed) (now : ℚ) (runId reason : String) :
    (interrupt coordinator now st runId reason).Keyed :=
  withRun_keyed h fun _ => Keyed.congr (h.commit _) rfl

/-- Every step stores runs under their own ids. -/
theorem step_keyed {st : RuntimeState ρ} (h : st.Keyed) (input : ℚ × RuntimeInput) :
    (step coordinator cfg st input).Keyed := by
  obtain ⟨now, input⟩ := input
  cases input with
  | start definition deviceId context runId =>
    rcases start_spec coordinator now st definition deviceId context runId with
      ⟨run, -, -, -, hruns, -⟩ | ⟨-, hruns, -⟩
    · exact h.set hruns
    · exact h.congr hruns
  | registerDefinition definition =>
    dsimp only [step]
    split
    · exact h.congr rfl
    · exact h
  | tick runId =>
    refine withRun_keyed h fun run => Keyed.perform ?_ _
    exact h.congr rfl
  | reconcile runId reason =>
    refine withRun_keyed h fun run => Keyed.perform ?_ _
    exact h.congr rfl
  | markInterrupted runId reason => exact interrupt_keyed h now runId reason
  | recoverInflight reason limit =>
    dsimp only [step]
    generalize (st.runs.values.take limit).filter _ = runs
    induction runs generalizing st with
    | nil => exact h
    | cons run runs ih => exact ih (interrupt_keyed h now run.id reason)
  | pause runId => exact withRun_keyed h fun _ => Keyed.congr (h.commit _) rfl
  | resume runId context => exact withRun_keyed h fun _ => h.commit _
  | cancel runId => exact withRun_keyed h fun _ => h.commit _
  | applyDecision runId submission =>
    refine withRun_keyed h fun run => Keyed.commit ?_ _
    exact h.congr rfl
  | emit call event =>
    dsimp only [step]
    split
    · exact h
    · refine withRun_keyed h fun run => ?_
      split
      · exact Keyed.congr (h.commit _) rfl
      · exact h.commit _
  | lateEmit runId actionId event => exact withRun_keyed h fun _ => h.commit _
  | finish call outcome =>
    dsimp only [step]
    split
    · have hended : RuntimeState.Keyed { st with calls := st.calls.erase call } := h
      refine withRun_keyed hended fun run => Keyed.perform ?_ _
      exact h.congr rfl
    · exact h
  | reconciled call outcome =>
    dsimp only [step]
    split
    · exact h
    · split
      · exact h
      · refine Keyed.commit ?_ _
        exact h.congr rfl
  | abort call => exact h.congr rfl
  | restart => exact h.congr rfl

end Runtime

namespace Orchestrator

open Logged Stateful

variable {ρ : Type} [PyLib] {o : Orchestrator ρ} {w : World ρ}

/-- A call that controls a child changes no other run. -/
theorem stepped_get?_of_ne {id : String} {input : RuntimeInput} (h : ControlsChild id input)
    (hkeyed : w.runtime.Keyed) {id' : String} (hne : id' ≠ id) :
    (o.stepped w input).runtime.runs.get? id' = w.runtime.runs.get? id' := by
  have hcommit : ∀ run, w.runtime.runs.get? id = some run → ∀ st : RuntimeState ρ,
      st.runs = w.runtime.runs → ∀ ws, Steps SameRun tracked run ws →
      (st.commit o.coordinator w.clock ws).runs.get? id' = w.runtime.runs.get? id' := by
    intro run hrun st hruns ws hws
    have hid := hkeyed id run hrun
    rw [RuntimeState.get?_commit_of_ne hws (by rw [hid]; exact hne), hruns]
  unfold stepped
  cases h with
  | pause =>
    simp only [Runtime.step, Runtime.withRun]
    split
    · exact hcommit _ ‹_› _ rfl _ (Runtime.pause_sameRun _ _).steps
    · rfl
  | resume context =>
    simp only [Runtime.step, Runtime.withRun]
    split
    · exact hcommit _ ‹_› _ rfl _ (Runtime.resume_sameRun _ _).steps
    · rfl
  | cancel =>
    simp only [Runtime.step, Runtime.withRun]
    split
    · exact hcommit _ ‹_› _ rfl _ (Runtime.cancel_sameRun _).steps
    · rfl
  | applyDecision submission =>
    simp only [Runtime.step, Runtime.withRun]
    split
    · exact hcommit _ ‹_› (w.runtime.note (Runtime.decidedNote _ submission)) rfl _
        (Runtime.applyDecision_sameRun _ _ _ _).steps
    · rfl

/-- What `runtime.start` does to the world: a run is stored, or nothing is. -/
structure ChildStarted (w : World ρ) (runId : Option String) (child : WorkflowRun) (w' : World ρ) :
    Prop where
  id : child.id = w.runtime.newRunId runId
  status : child.status = .running
  runs : w'.runtime.runs = w.runtime.runs.set child.id child
  calls : w'.runtime.calls = w.runtime.calls
  nextCall : w'.runtime.nextCall = w.runtime.nextCall
  happened : w'.runtime.history = w.runtime.history ++ [.created child]
  tasks : w'.tasks = w.tasks
  clock : w'.clock = w.clock
  history : w'.history = w.history

theorem startChild_ensures (definition : WorkflowDefinition) (deviceId : String)
    (context : Dict String Value) (runId : Option String) :
    Ensures (o.startChild definition deviceId context runId) w fun r w' =>
      (∃ child, r = .ok child ∧ ChildStarted w runId child w') ∨
        ((∀ child, r ≠ .ok child) ∧ SameButTasks w w' ∧ w'.tasks = w.tasks) := by
  unfold startChild
  refine ensures_get ?_
  have hspec := Runtime.start_spec o.coordinator w.clock w.runtime definition
    deviceId context runId
  dsimp only
  generalize Runtime.start o.coordinator w.clock w.runtime definition deviceId context runId =
    result at hspec ⊢
  obtain ⟨result, runtime⟩ := result
  refine ensures_set ?_
  rcases hspec with ⟨run, hrun, hid, hstatus, hruns, hcalls, hnext, hhistory⟩ |
    ⟨hnot, hruns, hcalls, hnext, hhistory⟩
  · simp only at hrun
    subst hrun
    exact .inl ⟨run, rfl, hid, hstatus, hruns, hcalls, hnext, hhistory, rfl, rfl, rfl⟩
  · cases result with
    | ok run => exact absurd rfl (hnot run)
    | error e => exact .inr ⟨fun _ h => (by cases h), ⟨hruns, hcalls, hnext, hhistory, rfl, rfl⟩, rfl⟩

/-- The child that `cancel` is called for is stored as cancelled. -/
theorem stepped_cancel {id : String} {child : WorkflowRun}
    (hchild : w.runtime.runs.get? id = some child) (hkeyed : w.runtime.Keyed)
    (hopen : child.status.terminal = false) :
    ∃ child', (o.stepped w (.cancel id)).runtime.runs.get? id = some child' ∧
      child'.status = .cancelled := by
  have hid := hkeyed id child hchild
  have hwritten : (Runtime.cancel child).written = [.run { child with
      status := .cancelled, decisionPoint := none, revision := child.revision + 1 }] := by
    simp only [Runtime.cancel, hopen]
    rfl
  simp only [stepped, Runtime.step, Runtime.withRun, hchild, RuntimeState.performNow, hwritten,
    RuntimeState.commit, List.foldl_cons, List.foldl_nil, RuntimeState.get?_apply_run, hid]
  exact ⟨_, rfl, rfl⟩

/-- A child that has not ended is cancelled. -/
def Cancels (w w' : World ρ) : Prop :=
  ∃ id child, w.runtime.runs.get? id = some child ∧ child.status.terminal = false ∧
    w' = o.stepped w (.cancel child.id)

theorem cancelUnfinished_ensures (childId : String) :
    Ensures (o.cancelUnfinished childId) w fun _ w' => w' = w ∨ Cancels (o := o) w w' := by
  unfold cancelUnfinished
  refine ensures_get ?_
  split
  · exact .inl rfl
  · rename_i child hchild
    split
    · exact .inl rfl
    · rename_i hopen
      refine (o.onChild_ensures child.id _ _).bind (fun run w' h => ?_) fun e w' h => ?_
      · rcases h with ⟨rfl, -⟩ | ⟨_, -, rfl, -⟩
        · exact .inl rfl
        · exact .inr ⟨childId, child, hchild, by simpa using hopen, rfl⟩
      · rcases h with ⟨rfl, -⟩ | ⟨_, -, rfl, -⟩
        · exact .inl rfl
        · exact .inr ⟨childId, child, hchild, by simpa using hopen, rfl⟩

end Orchestrator

end DeviceShell.Framework
