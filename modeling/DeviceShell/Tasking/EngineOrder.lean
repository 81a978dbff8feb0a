import Mathlib.Logic.Relation
import DeviceShell.Lib.Machine
import DeviceShell.Tasking.WorkflowEngine

/-!
# Order and approval in the legacy engine

In a run whose decisions name what was offered, a step is invoked only when its dependencies are
completed, and a step that requires confirmation only when it is approved; a decision changes only
the step that its offered action targets and, when it returns to a step, what depends on that step
(`engine_ordered`). The engine checks the name of a decision alone: one that names another step
takes every one of these properties away (`not_engine_ordered_retryBlocked`).
-/

namespace DeviceShell.Tasking.Engine

open WorkflowEngine

/-! ## Workflows that are accepted -/

/-- A step of a workflow depends on another one. -/
def DependsOn (steps : List WorkflowStep) (a b : String) : Prop :=
  ∃ step ∈ steps, step.id = b ∧ a ∈ step.dependsOn

theorem dependenciesIn_iff (step : WorkflowStep) (ids : List String) :
    dependenciesIn step ids = true ↔ ∀ d ∈ step.dependsOn, d ∈ ids := by
  simp [dependenciesIn]

/-- A round keeps what is resolved without duplicates among the steps. -/
theorem within_resolveRound {steps : List WorkflowStep} (hids : (steps.map (·.id)).Nodup)
    {resolved : List String} (h : NodupWithin (steps.map (·.id)) resolved) :
    NodupWithin (steps.map (·.id)) (resolveRound steps resolved) where
  nodup := by
    refine List.nodup_append.mpr ⟨h.nodup, hids.sublist (List.filter_sublist.map _), ?_⟩
    intro a ha b hb hab
    obtain ⟨step, hstep, rfl⟩ := List.mem_map.mp hb
    have hnot := (Bool.and_eq_true_iff.mp (List.mem_filter.mp hstep).2).1
    simp [← hab, ha] at hnot
  subset := by
    refine List.append_subset.mpr ⟨h.subset, fun id hid => ?_⟩
    obtain ⟨step, hstep, rfl⟩ := List.mem_map.mp hid
    exact List.mem_map_of_mem (List.mem_filter.mp hstep).1

/-- The steps of a list are resolved after their dependencies. -/
structure Resolved (steps : List WorkflowStep) (resolved : List String) : Prop where
  within : NodupWithin (steps.map (·.id)) resolved
  before : ∀ step ∈ steps, step.id ∈ resolved → ∀ d ∈ step.dependsOn,
    resolved.idxOf d < resolved.idxOf step.id

/-- A round resolves steps after their dependencies. -/
theorem Resolved.next {steps : List WorkflowStep} (hids : (steps.map (·.id)).Nodup)
    {resolved : List String} (h : Resolved steps resolved) :
    Resolved steps (resolveRound steps resolved) := by
  refine ⟨within_resolveRound hids h.within, ?_⟩
  · intro step hstep hid d hd
    unfold resolveRound at hid ⊢
    by_cases hold : step.id ∈ resolved
    · have hless := h.before step hstep hold d hd
      have hmem : d ∈ resolved := List.idxOf_lt_length_iff.mp
        (hless.trans (List.idxOf_lt_length_iff.mpr hold))
      rw [List.idxOf_append_of_mem hold, List.idxOf_append_of_mem hmem]
      exact hless
    · -- A new step stands behind all that was resolved before.
      have hnew := (List.mem_append.mp hid).resolve_left hold
      obtain ⟨step', hmem', heq⟩ := List.mem_map.mp hnew
      obtain ⟨hstep', hready⟩ := List.mem_filter.mp hmem'
      have hsame : step' = step := List.inj_on_of_nodup_map hids hstep' hstep heq
      have hdeps := (dependenciesIn_iff step' resolved).mp (Bool.and_eq_true_iff.mp hready).2
      have hmem : d ∈ resolved := hdeps d (hsame ▸ hd)
      have hless := List.idxOf_lt_length_iff.mpr hmem
      rw [List.idxOf_append_of_mem hmem, List.idxOf_append_of_notMem hold]
      omega

/-- What is known of a workflow that is accepted: its ids, and a rank that grows along its
dependencies. -/
structure Ordered (steps : List WorkflowStep) : Prop where
  ids : (steps.map (·.id)).Nodup
  ranked : ∃ rank : String → ℕ, ∀ step ∈ steps, ∀ d ∈ step.dependsOn, rank d < rank step.id

theorem ordered_of_validateWorkflow {workflow : WorkflowDefinition}
    (h : validateWorkflow workflow = .ok ()) : Ordered workflow.steps := by
  unfold validateWorkflow at h
  dsimp only at h
  split at h
  · cases h
  · split at h
    · cases h
    · rename_i hdeps
      have hids : (workflow.steps.map (·.id)).Nodup := not_not.mp (not_or.mp hdeps).1
      split at h
      · cases h
      · rename_i hlength
        have hresolved : Resolved workflow.steps (resolvedSteps workflow.steps) :=
          saturate_induction (fun _ hl => hl.next hids) _
            ⟨⟨List.nodup_nil, List.nil_subset _⟩, fun _ _ hid => absurd hid List.not_mem_nil⟩
        have hperm : (resolvedSteps workflow.steps).Perm (workflow.steps.map (·.id)) :=
          (List.subperm_of_subset hresolved.within.nodup hresolved.within.subset).perm_of_length_le
            (by rw [List.length_map]; exact (not_not.mp hlength).ge)
        refine ⟨hids, _, fun step hstep => hresolved.before step hstep ?_⟩
        exact hperm.mem_iff.mpr (List.mem_map_of_mem hstep)

variable {steps : List WorkflowStep}

/-- Steps with one id are one step. -/
theorem Ordered.unique (h : Ordered steps) {a b : WorkflowStep} (ha : a ∈ steps) (hb : b ∈ steps)
    (hid : a.id = b.id) : a = b :=
  List.inj_on_of_nodup_map h.ids ha hb hid

/-- A step does not depend on itself. -/
theorem Ordered.not_mem_dependsOn (h : Ordered steps) {step : WorkflowStep} (hstep : step ∈ steps) :
    step.id ∉ step.dependsOn := by
  obtain ⟨rank, hrank⟩ := h.ranked
  intro hself
  have hless := hrank step hstep step.id hself
  omega

/-- What a step depends on does not follow from the step. -/
theorem Ordered.not_follows (h : Ordered steps) {step : WorkflowStep} (hstep : step ∈ steps)
    {d : String} (hd : d ∈ step.dependsOn) : ¬ Relation.ReflTransGen (DependsOn steps) step.id d := by
  obtain ⟨rank, hrank⟩ := h.ranked
  have hmono {a b : String} (hab : Relation.ReflTransGen (DependsOn steps) a b) : rank a ≤ rank b := by
    induction hab with
    | refl => exact le_refl _
    | tail _ hlast ih =>
      obtain ⟨last, hlast, rfl, ha⟩ := hlast
      have hless := hrank last hlast _ ha
      omega
  intro hfollows
  have hle := hmono hfollows
  have hless := hrank step hstep d hd
  omega

/-- What `resume_from` resets follows from the step. -/
theorem follows_of_mem_resetSteps {stepId id : String} (h : id ∈ resetSteps steps stepId) :
    Relation.ReflTransGen (DependsOn steps) stepId id := by
  have hpass (part : List WorkflowStep) (hpart : part ⊆ steps) (reset : List String)
      (hreset : ∀ id ∈ reset, Relation.ReflTransGen (DependsOn steps) stepId id) :
      ∀ id ∈ resetPass part reset, Relation.ReflTransGen (DependsOn steps) stepId id := by
    induction part generalizing reset with
    | nil => exact hreset
    | cons step part ih =>
      have hstep := hpart List.mem_cons_self
      refine ih (fun x hx => hpart (List.mem_cons_of_mem _ hx)) _ fun id hid => ?_
      dsimp only at hid
      split_ifs at hid with hadd
      · rcases List.mem_append.mp hid with hid | hid
        · exact hreset id hid
        · rw [List.mem_singleton.mp hid]
          obtain ⟨d, hd, hmem⟩ := List.any_eq_true.mp (Bool.and_eq_true_iff.mp hadd).2
          exact (hreset d (List.contains_iff_mem.mp hmem)).tail ⟨step, hstep, rfl, hd⟩
      · exact hreset id hid
  have hall := saturate_induction (P := fun reset => ∀ id ∈ reset,
      Relation.ReflTransGen (DependsOn steps) stepId id)
    (fun reset => hpass steps (List.Subset.refl _) reset) (steps.length + 1) (l := [stepId])
    (fun id hid => List.mem_singleton.mp hid ▸ .refl)
  exact hall id h

/-- A pass keeps what is reset without duplicates among the steps, and only adds to it. -/
theorem within_resetPass {stepId : String} (part : List WorkflowStep) (hpart : part ⊆ steps)
    (reset : List String) (h : NodupWithin (stepId :: steps.map (·.id)) reset) :
    NodupWithin (stepId :: steps.map (·.id)) (resetPass part reset) ∧
      reset.length ≤ (resetPass part reset).length := by
  induction part generalizing reset with
  | nil => exact ⟨h, Nat.le_refl _⟩
  | cons step part ih =>
    have hrest := ih fun x hx => hpart (List.mem_cons_of_mem _ hx)
    unfold resetPass at hrest ⊢
    rw [List.foldl_cons]
    split_ifs with hadd
    · have hnew : step.id ∉ reset := by
        have hcontains := (Bool.and_eq_true_iff.mp hadd).1
        simpa using hcontains
      have hid : step.id ∈ stepId :: steps.map (·.id) :=
        List.mem_cons_of_mem _ (List.mem_map_of_mem (hpart List.mem_cons_self))
      have hgrown : NodupWithin (stepId :: steps.map (·.id)) (reset ++ [step.id]) :=
        ⟨h.nodup.append (List.nodup_singleton _) (by simpa using hnew),
          List.append_subset.mpr ⟨h.subset, by simpa using hid⟩⟩
      obtain ⟨hwithin, hlength⟩ := hrest _ hgrown
      rw [List.length_append] at hlength
      exact ⟨hwithin, by omega⟩
    · exact hrest reset h

/-! ## States -/

theorem mem_completedIds {states : Dict String WorkflowStepState} {id : String} :
    id ∈ completedIds states ↔ ∃ state, states.get? id = some state ∧ state.isDone = true := by
  unfold completedIds
  rw [List.mem_filter, Dict.mem_keys_iff, Option.any_eq_true]
  constructor
  · rintro ⟨-, state, hstate, hdone⟩
    exact ⟨state, hstate, hdone⟩
  · rintro ⟨state, hstate, hdone⟩
    exact ⟨⟨state, hstate⟩, state, hstate, hdone⟩

/-- Where the states are the same, the same steps are completed. -/
theorem mem_completedIds_congr {states states' : Dict String WorkflowStepState} {id : String}
    (h : states'.get? id = states.get? id) : id ∈ completedIds states' ↔ id ∈ completedIds states := by
  rw [mem_completedIds, mem_completedIds, h]

/-- The step that is next is ready. -/
theorem nextReady_spec {states : Dict String WorkflowStepState}
    (h : nextReady steps states ≠ "") :
    ∃ step ∈ steps, step.id = nextReady steps states ∧
      ∀ d ∈ step.dependsOn, d ∈ completedIds states := by
  unfold nextReady at h ⊢
  dsimp only at h ⊢
  cases hfind : steps.find? fun step =>
      !(completedIds states).contains step.id && dependenciesIn step (completedIds states) with
  | none =>
    rw [hfind] at h
    exact absurd rfl h
  | some step =>
    have hready := List.find?_some hfind
    rw [Bool.and_eq_true, dependenciesIn_iff] at hready
    exact ⟨step, List.mem_of_find?_eq_some hfind, rfl, hready.2⟩

/-- Every step with an id has its dependencies completed. -/
def ReadyAt (steps : List WorkflowStep) (states : Dict String WorkflowStepState) (id : String) :
    Prop :=
  ∀ step ∈ steps, step.id = id → ∀ d ∈ step.dependsOn, d ∈ completedIds states

/-- The step that is next is ready, if there is one. -/
theorem Ordered.readyAt_nextReady (h : Ordered steps) {states : Dict String WorkflowStepState}
    (hne : nextReady steps states ≠ "") : ReadyAt steps states (nextReady steps states) := by
  obtain ⟨next, hnext, hid, hdeps⟩ := nextReady_spec hne
  intro step hstep heq d hd
  rw [h.unique hstep hnext (heq.trans hid.symm)] at hd
  exact hdeps d hd

/-- A step stays ready if the states of no other steps change. -/
theorem Ordered.readyAt_of_same (h : Ordered steps) {states states' : Dict String WorkflowStepState}
    {id : String} (hready : ReadyAt steps states id)
    (hsame : ∀ other, other ≠ id → states'.get? other = states.get? other) :
    ReadyAt steps states' id := by
  intro step hstep hid d hd
  have hne : d ≠ id := fun heq => h.not_mem_dependsOn hstep (hid ▸ heq ▸ hd)
  exact (mem_completedIds_congr (hsame d hne)).mpr (hready step hstep hid d hd)

/-! ## Runs -/

/-- A call of the engine. -/
inductive Call where
  | start (workflow : WorkflowDefinition) (task : Task)
  | execute (uuid : String) (outcomes : List InvokeOutcome)
  | pause
  | resume
  | cancel
  | decide (decision : Decision)

/-- Where the completions and the approvals of a task come from: what it was started with, the
steps whose invocation returned, and what operators accepted and approved of a pending decision. -/
structure History where
  restored : List String := []
  listed : List String := []
  returned : List String := []
  accepted : List String := []
  approved : List String := []

/-- The engine, once it is started, and the history of its task. -/
structure EngineRun where
  engine : Option WorkflowEngine := none
  history : History := {}

variable [PyLib]

/-- What a call comes to: the engine, and what was invoked. -/
def callEngine (engine : Option WorkflowEngine) (c : Call) :
    Option WorkflowEngine × List Invocation :=
  match c, engine with
  | .start workflow task, _ => match start workflow task with
    | .ok e => (some e, [])
    | .error _ => (engine, [])
  | _, none => (none, [])
  | .execute uuid outcomes, some e =>
    let outcome := e.executeStep uuid outcomes
    (some outcome.engine, outcome.invocations)
  | .pause, some e => (some e.pause, [])
  | .resume, some e => (some e.resume, [])
  | .cancel, some e => (some e.cancel, [])
  | .decide decision, some e => (some (e.applyDecision decision).engine, [])

/-- The step that the pending decision is about, where it has failed. -/
def failedStep (e : WorkflowEngine) : Option String :=
  e.pendingContext.bind fun context =>
    ((e.states.get? context.currentStep).bind (·.error)).map fun _ => context.currentStep

/-- The step that an operator accepts with a decision, if it is the one that has failed. -/
def acceptedBy (e : WorkflowEngine) (decision : Decision) : List String :=
  match e.checkDecision decision with
  | .error _ => []
  | .ok name =>
    if name ∈ acceptNames then (failedStep e).toList.filter (· = e.targetOf decision.action) else []

/-- The step that an operator approves with a decision, if it is the one that was offered. -/
def approvedBy (e : WorkflowEngine) (decision : Decision) : List String :=
  match e.checkDecision decision with
  | .error _ => []
  | .ok name =>
    if name = "approve" then
      ((e.offered name).map e.targetOf).toList.filter (· = e.targetOf decision.action)
    else []

/-- The history after a call. -/
def History.after (h : History) (engine : Option WorkflowEngine) (c : Call) : History :=
  match c, engine with
  | .start workflow task, _ =>
    { restored := completedIds (restoredStates workflow task), listed := task.listedSteps }
  | .execute _ _, _ =>
    let returned := (callEngine engine c).2.filter (·.returned)
    { h with returned := h.returned ++ returned.map (·.step.id) }
  | .decide decision, some e =>
    { h with
      accepted := h.accepted ++ acceptedBy e decision
      approved := h.approved ++ approvedBy e decision }
  | _, _ => h

/-- A call in a run. -/
def EngineRun.step (r : EngineRun) (c : Call) : EngineRun where
  engine := (callEngine r.engine c).1
  history := r.history.after r.engine c

/-- A decision that passes the checks of the engine names the step that was offered with its name;
one that accepts names the step that failed, and one that goes back to a step names one whose
dependencies are completed. -/
def NamesOffered (e : WorkflowEngine) (decision : Decision) : Prop :=
  ∀ name action, e.checkDecision decision = .ok name → e.offered name = some action →
    name ≠ "cancel" →
    let target := e.targetOf decision.action
    target = e.targetOf action ∧
      (name ∈ acceptNames → failedStep e = some target) ∧
      (name ∈ retryNames ++ resumeFromNames → ReadyAt e.workflow.steps e.states target)

/-- The condition on a call: the workflow of a start is accepted, and the step at which the task
stands is completed or has its dependencies completed; a decision names what was offered. -/
def Meant (r : EngineRun) : Call → Prop
  | .start workflow task =>
    let states := restoredStates workflow task
    validateWorkflow workflow = .ok () ∧
      (task.standsAt ∉ completedIds states → ReadyAt workflow.steps states task.standsAt)
  | .decide decision => ∀ e, r.engine = some e → NamesOffered e decision
  | _ => True

/-- An invocation in its place: every dependency is completed, be it from the start, because its
invocation returned or because an operator accepted it; and a step that requires confirmation is
approved. -/
structure InPlace (h : History) (invocation : Invocation) : Prop where
  completed : ∀ d ∈ invocation.step.dependsOn, d ∈ completedIds invocation.states
  justified : ∀ d ∈ invocation.step.dependsOn, d ∈ h.restored ∨ d ∈ h.returned ∨ d ∈ h.accepted
  confirmed : invocation.step.action.confirmationRequired = true →
    invocation.step.id ∈ h.listed ∨ invocation.step.id ∈ h.approved

/-- A decision may change a step: the offered action of its name targets it, or it follows from the
step to which the action returns. -/
def MayChange (e : WorkflowEngine) (decision : Decision) (id : String) : Prop :=
  ∃ name action, e.checkDecision decision = .ok name ∧ e.offered name = some action ∧
    (id = e.targetOf action ∨ (name ∈ resumeFromNames ∧
      Relation.TransGen (DependsOn e.workflow.steps) (e.targetOf action) id))

/-- What is known of the engine of a run. -/
structure Sound (e : WorkflowEngine) (h : History) : Prop where
  ordered : Ordered e.workflow.steps
  ready : e.currentStep ≠ "" → ReadyAt e.workflow.steps e.states e.currentStep
  completed : ∀ id ∈ completedIds e.states, id ∈ h.restored ∨ id ∈ h.returned ∨ id ∈ h.accepted
  approved : ∀ id ∈ e.approvedSteps, id ∈ h.listed ∨ id ∈ h.approved

/-! ## Execution -/

/-- An engine differs from another one in the state of one step, beside its records. -/
structure SameBut (id : String) (e e' : WorkflowEngine) : Prop where
  workflow : e'.workflow = e.workflow
  approvedSteps : e'.approvedSteps = e.approvedSteps
  states : ∀ other, other ≠ id → e'.states.get? other = e.states.get? other

omit [PyLib] in
theorem SameBut.refl (id : String) (e : WorkflowEngine) : SameBut id e e := ⟨rfl, rfl, fun _ _ => rfl⟩

omit [PyLib] in
theorem SameBut.trans {id : String} {e e' e'' : WorkflowEngine} (h : SameBut id e e')
    (h' : SameBut id e' e'') : SameBut id e e'' where
  workflow := h'.workflow.trans h.workflow
  approvedSteps := h'.approvedSteps.trans h.approvedSteps
  states other hother := (h'.states other hother).trans (h.states other hother)

omit [PyLib] in
theorem sameBut_beginAttempt (e : WorkflowEngine) (step : WorkflowStep)
    (state : WorkflowStepState) : SameBut step.id e (e.beginAttempt step state) :=
  ⟨rfl, rfl, fun _ hother => Dict.get?_set_of_ne _ hother _⟩

omit [PyLib] in
theorem sameBut_completeStep (e : WorkflowEngine) (step : WorkflowStep) (result : ToolResult) :
    SameBut step.id e (e.completeStep step result) :=
  ⟨rfl, rfl, fun _ hother => Dict.get?_set_of_ne _ hother _⟩

omit [PyLib] in
theorem sameBut_failStep (e : WorkflowEngine) (step : WorkflowStep) (error : ToolError) :
    SameBut step.id e (e.failStep step error) :=
  ⟨rfl, rfl, fun _ hother => Dict.get?_set_of_ne _ hother _⟩

/-- What the attempts of a step come to. -/
structure Attempted (step : WorkflowStep) (e : WorkflowEngine) (o : Outcome) : Prop where
  same : SameBut step.id e o.engine
  invocations : ∀ invocation ∈ o.invocations, invocation.step = step ∧
    invocation.approvedSteps = e.approvedSteps ∧
    ∀ other, other ≠ step.id → invocation.states.get? other = e.states.get? other
  /-- The engine stands at the step, or at the one that is next. -/
  current : o.engine.currentStep = step.id ∨
    o.engine.currentStep = nextReady o.engine.workflow.steps o.engine.states
  /-- The step is completed only by an invocation that returned. -/
  done : step.id ∈ completedIds o.engine.states →
    ∃ invocation ∈ o.invocations, invocation.returned = true

omit [PyLib] in
/-- A step that runs or that has failed is not completed. -/
theorem not_mem_completedIds_set {states : Dict String WorkflowStepState} {id : String}
    {state : WorkflowStepState} (h : state.isDone = false) :
    id ∉ completedIds (states.set id state) := by
  rw [mem_completedIds]
  rintro ⟨state', hstate', hdone⟩
  rw [Dict.get?_set, if_pos rfl] at hstate'
  cases hstate'
  rw [h] at hdone
  cases hdone

/-- The attempts of a step. -/
theorem attemptStep_spec (step : WorkflowStep) (maxAttempts : ℤ) (uuid : String)
    (outcomes : List InvokeOutcome) (e : WorkflowEngine) (state : WorkflowStepState) :
    Attempted step e (attemptStep step maxAttempts uuid outcomes e state) := by
  induction outcomes generalizing e state with
  | nil =>
    have hbegin := sameBut_beginAttempt e step state
    refine ⟨hbegin, fun invocation hinvocation => ?_, .inl rfl, fun hdone => ?_⟩
    · rw [List.mem_singleton.mp hinvocation]
      exact ⟨rfl, rfl, hbegin.states⟩
    · exact absurd hdone (not_mem_completedIds_set rfl)
  | cons outcome rest ih =>
    have hbegin := sameBut_beginAttempt e step state
    cases outcome with
    | cancelled =>
      refine ⟨hbegin, fun invocation hinvocation => ?_, .inl rfl, fun hdone => ?_⟩
      · rw [List.mem_singleton.mp hinvocation]
        exact ⟨rfl, rfl, hbegin.states⟩
      · exact absurd hdone (not_mem_completedIds_set rfl)
    | returned result =>
      refine ⟨hbegin.trans (sameBut_completeStep _ step result), fun invocation hinvocation => ?_,
        .inr rfl, fun _ => ⟨_, List.mem_singleton_self _, rfl⟩⟩
      rw [List.mem_singleton.mp hinvocation]
      exact ⟨rfl, rfl, hbegin.states⟩
    | raised error requiresDecision =>
      have hfail := hbegin.trans (sameBut_failStep (e.beginAttempt step state) step error)
      have hnotDone : step.id ∉ completedIds ((e.beginAttempt step state).failStep step error).states :=
        not_mem_completedIds_set rfl
      have hfirst (invocation : Invocation) (hinvocation : invocation =
          ⟨step, (e.beginAttempt step state).states, (e.beginAttempt step state).approvedSteps, false⟩) :
          invocation.step = step ∧ invocation.approvedSteps = e.approvedSteps ∧
            ∀ other, other ≠ step.id → invocation.states.get? other = e.states.get? other := by
        rw [hinvocation]
        exact ⟨rfl, rfl, hbegin.states⟩
      unfold attemptStep
      dsimp only
      split_ifs with hterminal hagain
      · refine ⟨⟨hfail.workflow, hfail.approvedSteps, hfail.states⟩, fun invocation hinvocation => ?_,
          .inl rfl, fun hdone => absurd hdone hnotDone⟩
        exact hfirst invocation (List.mem_singleton.mp hinvocation)
      · -- The next attempt: what it leaves is what all of them leave.
        have hnext := ih ((e.beginAttempt step state).failStep step error)
          ((((e.beginAttempt step state).failStep step error).states.get? step.id).getD state)
        refine ⟨hfail.trans hnext.same, fun invocation hinvocation => ?_, hnext.current,
          fun hdone => ?_⟩
        · rcases List.mem_cons.mp hinvocation with hinvocation | hinvocation
          · exact hfirst invocation hinvocation
          · obtain ⟨hstep, happroved, hstates⟩ := hnext.invocations invocation hinvocation
            refine ⟨hstep, happroved.trans hfail.approvedSteps, fun other hother => ?_⟩
            exact (hstates other hother).trans (hfail.states other hother)
        · obtain ⟨invocation, hinvocation, hreturned⟩ := hnext.done hdone
          exact ⟨invocation, List.mem_cons_of_mem _ hinvocation, hreturned⟩
      · refine ⟨⟨hfail.workflow, hfail.approvedSteps, hfail.states⟩, fun invocation hinvocation => ?_,
          .inl rfl, fun hdone => absurd hdone hnotDone⟩
        exact hfirst invocation (List.mem_singleton.mp hinvocation)

/-- The engine differs from another one in its records and its status alone, and stands where the
other one does, or nowhere. -/
structure Settled (e e' : WorkflowEngine) : Prop where
  workflow : e'.workflow = e.workflow
  approvedSteps : e'.approvedSteps = e.approvedSteps
  states : e'.states = e.states
  current : e'.currentStep = e.currentStep ∨ e'.currentStep = ""

/-- What `execute_step` comes to: nothing is invoked, or the attempts of the step at which the engine
stands, which is approved if it requires confirmation. -/
theorem executeStep_spec (e : WorkflowEngine) (uuid : String) (outcomes : List InvokeOutcome) :
    (Settled e (e.executeStep uuid outcomes).engine ∧
      (e.executeStep uuid outcomes).invocations = []) ∨
    ∃ step ∈ e.workflow.steps, step.id = e.currentStep ∧ e.currentStep ≠ "" ∧
      (step.action.confirmationRequired = true → step.id ∈ e.approvedSteps) ∧
      Attempted step e (e.executeStep uuid outcomes) := by
  unfold executeStep
  split
  · exact .inl ⟨⟨rfl, rfl, rfl, .inl rfl⟩, rfl⟩
  · split
    · exact .inl ⟨⟨rfl, rfl, rfl, .inr rfl⟩, rfl⟩
    · rename_i hcurrent
      split
      · exact .inl ⟨⟨rfl, rfl, rfl, .inl rfl⟩, rfl⟩
      · rename_i step hfind
        have hid : step.id = e.currentStep := by simpa using List.find?_some hfind
        split
        · exact .inl ⟨⟨rfl, rfl, rfl, .inl hid⟩, rfl⟩
        · split
          · exact .inl ⟨⟨rfl, rfl, rfl, .inl hid⟩, rfl⟩
          · rename_i hconfirmed
            split
            · exact .inl ⟨⟨rfl, rfl, rfl, .inl rfl⟩, rfl⟩
            · refine .inr ⟨step, List.mem_of_find?_eq_some hfind, hid, hcurrent, fun hrequired => ?_,
                attemptStep_spec step _ uuid outcomes e _⟩
              by_contra hnot
              exact hconfirmed ⟨hrequired, hnot⟩

omit [PyLib] in
/-- What is known of an engine is known of one that is settled from it. -/
theorem Sound.settled {e e' : WorkflowEngine} {h : History} (hs : Sound e h) (hsettled : Settled e e') :
    Sound e' h where
  ordered := hsettled.workflow ▸ hs.ordered
  ready hne := by
    rcases hsettled.current with hcurrent | hcurrent
    · rw [hcurrent] at hne ⊢
      rw [hsettled.workflow, hsettled.states]
      exact hs.ready hne
    · exact absurd hcurrent hne
  completed := hsettled.states ▸ hs.completed
  approved := hsettled.approvedSteps ▸ hs.approved

omit [PyLib] in
/-- The invocations of an attempt are in their place. -/
theorem Sound.inPlace {e : WorkflowEngine} {h : History} (hs : Sound e h) {step : WorkflowStep}
    (hstep : step ∈ e.workflow.steps) (hid : step.id = e.currentStep) (hne : e.currentStep ≠ "")
    (hconfirmed : step.action.confirmationRequired = true → step.id ∈ e.approvedSteps)
    {o : Outcome} (ho : Attempted step e o) : ∀ invocation ∈ o.invocations, InPlace h invocation := by
  intro invocation hinvocation
  obtain ⟨rfl, -, hstates⟩ := ho.invocations invocation hinvocation
  have hready := hs.ready hne invocation.step hstep hid
  refine ⟨fun d hd => ?_, fun d hd => hs.completed d (hready d hd),
    fun hrequired => hs.approved _ (hconfirmed hrequired)⟩
  have hother : d ≠ invocation.step.id := fun heq =>
    hs.ordered.not_mem_dependsOn hstep (heq ▸ hd)
  exact (mem_completedIds_congr (hstates d hother)).mpr (hready d hd)

omit [PyLib] in
/-- What is known of an engine is known after the attempts of the step at which it stands. -/
theorem Sound.attempted {e : WorkflowEngine} {h : History} (hs : Sound e h) {step : WorkflowStep}
    (hid : step.id = e.currentStep) (hne : e.currentStep ≠ "") {o : Outcome}
    (ho : Attempted step e o) :
    Sound o.engine { h with returned := h.returned ++
      (o.invocations.filter (·.returned)).map (·.step.id) } where
  ordered := ho.same.workflow ▸ hs.ordered
  ready hcurrent := by
    have hordered : Ordered o.engine.workflow.steps := ho.same.workflow ▸ hs.ordered
    rcases ho.current with heq | heq
    · rw [heq, ho.same.workflow]
      exact hs.ordered.readyAt_of_same (hid ▸ hs.ready hne) ho.same.states
    · rw [heq] at hcurrent ⊢
      exact hordered.readyAt_nextReady hcurrent
  completed id hdone := by
    by_cases hself : id = step.id
    · -- The step itself: one of its invocations returned.
      obtain ⟨invocation, hinvocation, hreturned⟩ := ho.done (hself ▸ hdone)
      have hmem : invocation.step.id ∈ (o.invocations.filter (·.returned)).map (·.step.id) :=
        List.mem_map_of_mem (List.mem_filter.mpr ⟨hinvocation, hreturned⟩)
      rw [(ho.invocations invocation hinvocation).1, ← hself] at hmem
      exact .inr (.inl (List.mem_append_right _ hmem))
    · have hbefore := (mem_completedIds_congr (ho.same.states id hself)).mp hdone
      rcases hs.completed id hbefore with hsource | hsource | hsource
      · exact .inl hsource
      · exact .inr (.inl (List.mem_append_left _ hsource))
      · exact .inr (.inr hsource)
  approved := ho.same.approvedSteps ▸ hs.approved

/-! ## Decisions -/

omit [PyLib] in
theorem resetState_states (e : WorkflowEngine) (stepId other : String) (hother : other ≠ stepId) :
    (e.resetState stepId).states.get? other = e.states.get? other :=
  Dict.get?_set_of_ne _ hother _

omit [PyLib] in
/-- What `retry_step` comes to. -/
theorem retryStep_spec (e : WorkflowEngine) (stepId : String) :
    (e.retryStep stepId).engine = e ∨
      (SameBut stepId e (e.retryStep stepId).engine ∧
        (e.retryStep stepId).engine.currentStep = stepId ∧
        stepId ∉ completedIds (e.retryStep stepId).engine.states) := by
  unfold retryStep
  split
  · exact .inl rfl
  · exact .inr ⟨⟨rfl, rfl, fun other hother => resetState_states e stepId other hother⟩, rfl,
      not_mem_completedIds_set rfl⟩

omit [PyLib] in
/-- What `accept_failed_step` comes to. -/
theorem acceptFailedStep_spec (e : WorkflowEngine) (stepId : String) :
    (e.acceptFailedStep stepId).engine = e ∨
      (SameBut stepId e (e.acceptFailedStep stepId).engine ∧
        (e.acceptFailedStep stepId).engine.currentStep =
          nextReady e.workflow.steps (e.acceptFailedStep stepId).engine.states) := by
  unfold acceptFailedStep
  split
  · exact .inl rfl
  · exact .inr ⟨⟨rfl, rfl, fun _ hother => Dict.get?_set_of_ne _ hother _⟩, rfl⟩

omit [PyLib] in
/-- The states after some steps are reset. -/
theorem foldl_resetState (ids : List String) (e : WorkflowEngine) :
    let e' := ids.foldl (fun e id => { e.resetState id with outputs := e.outputs.erase id }) e
    e'.workflow = e.workflow ∧ e'.approvedSteps = e.approvedSteps ∧
      (∀ other, other ∉ ids → e'.states.get? other = e.states.get? other) ∧
      ∀ other, other ∈ completedIds e'.states → other ∈ completedIds e.states ∧ other ∉ ids := by
  induction ids generalizing e with
  | nil => exact ⟨rfl, rfl, fun _ _ => rfl, fun _ h => ⟨h, List.not_mem_nil⟩⟩
  | cons id ids ih =>
    obtain ⟨hworkflow, happroved, hstates, hdone⟩ :=
      ih { e.resetState id with outputs := e.outputs.erase id }
    refine ⟨hworkflow, happroved, fun other hother => ?_, fun other hother => ?_⟩
    · rw [List.mem_cons, not_or] at hother
      exact (hstates other hother.2).trans (resetState_states e id other hother.1)
    · obtain ⟨hbefore, hnot⟩ := hdone other hother
      have hne : other ≠ id := by
        rintro rfl
        exact not_mem_completedIds_set rfl hbefore
      refine ⟨(mem_completedIds_congr (resetState_states e id other hne)).mp hbefore, ?_⟩
      rw [List.mem_cons, not_or]
      exact ⟨hne, hnot⟩

omit [PyLib] in
/-- What `resume_from` comes to. -/
theorem resumeFrom_spec (e : WorkflowEngine) (stepId : String) :
    (e.resumeFrom stepId).engine = e ∨
      ((e.resumeFrom stepId).engine.workflow = e.workflow ∧
        (e.resumeFrom stepId).engine.approvedSteps = e.approvedSteps ∧
        (e.resumeFrom stepId).engine.currentStep = stepId ∧
        (∀ other, other ∉ resetSteps e.workflow.steps stepId →
          (e.resumeFrom stepId).engine.states.get? other = e.states.get? other) ∧
        ∀ other ∈ completedIds (e.resumeFrom stepId).engine.states, other ∈ completedIds e.states) := by
  unfold resumeFrom
  split
  · exact .inl rfl
  · obtain ⟨hworkflow, happroved, hstates, hdone⟩ :=
      foldl_resetState (resetSteps e.workflow.steps stepId) e
    exact .inr ⟨hworkflow, happroved, rfl, hstates, fun other hother => (hdone other hother).1⟩

/-- A decision that passes the checks has an offered action of its name. -/
theorem offered_of_checkDecision {e : WorkflowEngine} {decision : Decision} {name : String}
    (h : e.checkDecision decision = .ok name) : ∃ action, e.offered name = some action := by
  unfold checkDecision at h
  dsimp only at h
  split_ifs at h with hpending hrevision htask hname hoffered
  obtain rfl := Except.ok.inj h
  exact Option.ne_none_iff_exists'.mp hoffered

omit [PyLib] in
/-- What pausing, resuming or cancelling comes to. -/
theorem settled_operators (e : WorkflowEngine) :
    Settled e e.pause ∧ Settled e e.resume ∧ Settled e e.cancel := by
  unfold WorkflowEngine.pause WorkflowEngine.resume WorkflowEngine.cancel
  refine ⟨?_, ?_, ?_⟩ <;> split <;> exact ⟨rfl, rfl, rfl, .inl rfl⟩

/-- The sources of completions and approvals only grow. -/
structure History.Grows (h h' : History) : Prop where
  restored : h.restored ⊆ h'.restored
  listed : h.listed ⊆ h'.listed
  returned : h.returned ⊆ h'.returned
  accepted : h.accepted ⊆ h'.accepted
  approved : h.approved ⊆ h'.approved

omit [PyLib] in
theorem History.Grows.justified {h h' : History} (hgrows : h.Grows h') {id : String}
    (hid : id ∈ h.restored ∨ id ∈ h.returned ∨ id ∈ h.accepted) :
    id ∈ h'.restored ∨ id ∈ h'.returned ∨ id ∈ h'.accepted :=
  hid.imp (fun hid => hgrows.restored hid)
    (Or.imp (fun hid => hgrows.returned hid) fun hid => hgrows.accepted hid)

omit [PyLib] in
theorem Sound.mono {e : WorkflowEngine} {h h' : History} (hs : Sound e h) (hgrows : h.Grows h') :
    Sound e h' where
  ordered := hs.ordered
  ready := hs.ready
  completed id hid := hgrows.justified (hs.completed id hid)
  approved id hid := (hs.approved id hid).imp (fun hid => hgrows.listed hid)
    fun hid => hgrows.approved hid

omit [PyLib] in
/-- What a decision does to an engine of which enough is known. -/
theorem Sound.takeAction {e : WorkflowEngine} {h : History} (hs : Sound e h) {name target : String}
    (hback : name ∈ retryNames ++ resumeFromNames → ReadyAt e.workflow.steps e.states target)
    (haccept : name ∈ acceptNames → target ∈ h.accepted)
    (happrove : name = "approve" → target ∈ h.approved) :
    Sound (e.takeAction name target).engine h := by
  obtain ⟨hpause, hresume, hcancel⟩ := settled_operators e
  unfold WorkflowEngine.takeAction
  split_ifs with hretry hresumeFrom haccepts hiscancel hispause hisapprove
  · rcases retryStep_spec e target with heq | ⟨hsame, hcurrent, hnot⟩
    · exact heq.symm ▸ hs
    · refine ⟨hsame.workflow ▸ hs.ordered, fun _ => ?_, fun id hid => ?_,
        hsame.approvedSteps ▸ hs.approved⟩
      · rw [hcurrent, hsame.workflow]
        have hready := hback (List.mem_append_left _ hretry)
        exact hs.ordered.readyAt_of_same hready hsame.states
      · have hne : id ≠ target := fun heq => hnot (heq ▸ hid)
        exact hs.completed id ((mem_completedIds_congr (hsame.states id hne)).mp hid)
  · rcases resumeFrom_spec e target with heq | ⟨hworkflow, happroved, hcurrent, hstates, hdone⟩
    · exact heq.symm ▸ hs
    · refine ⟨hworkflow ▸ hs.ordered, fun _ => ?_, fun id hid => hs.completed id (hdone id hid),
        happroved ▸ hs.approved⟩
      rw [hcurrent, hworkflow]
      intro step hstep hid d hd
      have hready := hback (List.mem_append_right _ hresumeFrom) step hstep hid d hd
      -- A dependency does not follow from the step, so it is not reset.
      have hkept : d ∉ resetSteps e.workflow.steps target := fun hmem =>
        hs.ordered.not_follows hstep hd (hid ▸ follows_of_mem_resetSteps hmem)
      exact (mem_completedIds_congr (hstates d hkept)).mpr hready
  · rcases acceptFailedStep_spec e target with heq | ⟨hsame, hcurrent⟩
    · exact heq.symm ▸ hs
    · refine ⟨hsame.workflow ▸ hs.ordered, fun hne => ?_, fun id hid => ?_,
        hsame.approvedSteps ▸ hs.approved⟩
      · rw [hcurrent] at hne ⊢
        rw [hsame.workflow]
        exact hs.ordered.readyAt_nextReady hne
      · by_cases hself : id = target
        · exact .inr (.inr (hself ▸ haccept haccepts))
        · exact hs.completed id ((mem_completedIds_congr (hsame.states id hself)).mp hid)
  · exact hs.settled hcancel
  · exact hs.settled hpause
  · have happrovedSound : Sound { e with approvedSteps := insert target e.approvedSteps } h := by
      refine ⟨hs.ordered, hs.ready, hs.completed, fun id hid => ?_⟩
      rcases List.mem_insert_iff.mp hid with rfl | hid
      · exact .inr (happrove hisapprove)
      · exact hs.approved id hid
    exact happrovedSound.settled (settled_operators _).2.1
  · exact hs.settled hresume

/-- What is known of an engine is known after a decision that names what was offered. -/
theorem Sound.applyDecision {e : WorkflowEngine} {h : History} (hs : Sound e h)
    {decision : Decision} (hmeant : NamesOffered e decision) :
    Sound (e.applyDecision decision).engine
      { h with
        accepted := h.accepted ++ acceptedBy e decision
        approved := h.approved ++ approvedBy e decision } := by
  have hgrows : h.Grows { h with
      accepted := h.accepted ++ acceptedBy e decision
      approved := h.approved ++ approvedBy e decision } :=
    ⟨List.Subset.refl _, List.Subset.refl _, List.Subset.refl _, List.subset_append_left _ _,
      List.subset_append_left _ _⟩
  unfold WorkflowEngine.applyDecision
  cases hcheck : e.checkDecision decision with
  | error error => exact hs.mono hgrows
  | ok name =>
    obtain ⟨action, haction⟩ := offered_of_checkDecision hcheck
    have hnamed (hname : name ≠ "cancel") := hmeant name action hcheck haction hname
    have hsettled : Settled e { e with
        decisions := e.decisions ++ [decision], pendingContext := none, pendingDecisionId := "" } :=
      ⟨rfl, rfl, rfl, .inl rfl⟩
    refine ((hs.mono hgrows).settled hsettled).takeAction (fun hback => ?_) (fun haccept => ?_)
      fun happrove => ?_
    · have hname : name ≠ "cancel" := by
        rintro rfl
        exact absurd hback (by decide)
      exact (hnamed hname).2.2 hback
    · have hname : name ≠ "cancel" := by
        rintro rfl
        exact absurd haccept (by decide)
      have hfailed := (hnamed hname).2.1 haccept
      refine List.mem_append_right _ ?_
      unfold acceptedBy
      rw [hcheck]
      simp [haccept, hfailed]
    · have hname : name ≠ "cancel" := by
        rw [happrove]
        decide
      have htarget := (hnamed hname).1
      refine List.mem_append_right _ ?_
      unfold approvedBy
      rw [hcheck]
      simp [happrove] at haction ⊢
      simp [haction, htarget]

/-- A decision that names what was offered changes only what the offered action may change. -/
theorem mayChange_of_applyDecision {e : WorkflowEngine} {decision : Decision}
    (hmeant : NamesOffered e decision) {id : String}
    (h : (e.applyDecision decision).engine.states.get? id ≠ e.states.get? id) :
    MayChange e decision id := by
  unfold WorkflowEngine.applyDecision at h
  cases hcheck : e.checkDecision decision with
  | error error =>
    rw [hcheck] at h
    exact absurd rfl h
  | ok name =>
    rw [hcheck] at h
    obtain ⟨action, haction⟩ := offered_of_checkDecision hcheck
    dsimp only at h
    obtain ⟨hpause, hresume, hcancel⟩ := settled_operators { e with
        decisions := e.decisions ++ [decision], pendingContext := none, pendingDecisionId := "" }
    have hnamed (hname : name ≠ "cancel") : e.targetOf decision.action = e.targetOf action :=
      (hmeant name action hcheck haction hname).1
    unfold WorkflowEngine.takeAction at h
    split_ifs at h with hretry hresumeFrom haccepts hiscancel hispause hisapprove
    · have htarget := hnamed fun heq => absurd (heq ▸ hretry) (by decide)
      rcases retryStep_spec { e with
        decisions := e.decisions ++ [decision], pendingContext := none, pendingDecisionId := "" }
        (e.targetOf decision.action) with heq | ⟨hsame, -⟩
      · rw [heq] at h
        exact absurd rfl h
      · refine ⟨name, action, hcheck, haction, .inl ?_⟩
        by_contra hne
        exact h (hsame.states id (htarget ▸ hne))
    · have htarget := hnamed fun heq => absurd (heq ▸ hresumeFrom) (by decide)
      rcases resumeFrom_spec { e with
        decisions := e.decisions ++ [decision], pendingContext := none, pendingDecisionId := "" }
        (e.targetOf decision.action) with heq | ⟨-, -, -, hstates, -⟩
      · rw [heq] at h
        exact absurd rfl h
      · have hreset : id ∈ resetSteps e.workflow.steps (e.targetOf decision.action) := by
          by_contra hnot
          exact h (hstates id hnot)
        rw [htarget] at hreset
        rcases Relation.reflTransGen_iff_eq_or_transGen.mp (follows_of_mem_resetSteps hreset) with
          heq | hfollows
        · exact ⟨name, action, hcheck, haction, .inl heq⟩
        · exact ⟨name, action, hcheck, haction, .inr ⟨hresumeFrom, hfollows⟩⟩
    · have htarget := hnamed fun heq => absurd (heq ▸ haccepts) (by decide)
      rcases acceptFailedStep_spec { e with
        decisions := e.decisions ++ [decision], pendingContext := none, pendingDecisionId := "" }
        (e.targetOf decision.action) with heq | ⟨hsame, -⟩
      · rw [heq] at h
        exact absurd rfl h
      · refine ⟨name, action, hcheck, haction, .inl ?_⟩
        by_contra hne
        exact h (hsame.states id (htarget ▸ hne))
    · exact absurd (congrArg (·.get? id) hcancel.states) h
    · exact absurd (congrArg (·.get? id) hpause.states) h
    · exact absurd (congrArg (·.get? id) (settled_operators _).2.1.states) h
    · exact absurd (congrArg (·.get? id) hresume.states) h

/-! ## Every run -/

/-- What is known of a task that is started. -/
theorem sound_start {workflow : WorkflowDefinition} {task : Task} {e : WorkflowEngine}
    (h : start workflow task = .ok e)
    (hready : task.standsAt ∉ completedIds (restoredStates workflow task) →
      ReadyAt workflow.steps (restoredStates workflow task) task.standsAt) :
    Sound e { restored := completedIds (restoredStates workflow task), listed := task.listedSteps } := by
  unfold start at h
  cases hvalid : validateWorkflow workflow with
  | error error =>
    rw [hvalid] at h
    cases h
  | ok value =>
    rw [hvalid] at h
    cases h
    have hordered : Ordered workflow.steps := ordered_of_validateWorkflow hvalid
    refine ⟨hordered, fun hne => ?_, fun id hid => .inl hid, fun id hid => .inl hid⟩
    rw [save_currentStep] at hne ⊢
    unfold startStep at hne ⊢
    dsimp only at hne ⊢
    split_ifs at hne ⊢ with hdone
    · exact hordered.readyAt_nextReady hne
    · rw [not_or] at hdone
      exact hready fun hmem => hdone.2 (List.contains_iff_mem.mpr hmem)

/-- What is known in every state of a run. -/
def RunSound (r : EngineRun) : Prop := ∀ e, r.engine = some e → Sound e r.history

theorem runSound_step (r : EngineRun) (c : Call) (hr : RunSound r) (hmeant : Meant r c) :
    RunSound (r.step c) := by
  intro e' he'
  obtain ⟨engine, history⟩ := r
  cases c with
  | start workflow task =>
    obtain ⟨hvalid, hready⟩ := hmeant
    cases hstart : start workflow task with
    | error error =>
      unfold start at hstart
      rw [hvalid] at hstart
      cases hstart
    | ok e =>
      simp only [EngineRun.step, callEngine, hstart, Option.some.injEq] at he'
      exact he' ▸ sound_start hstart hready
  | execute uuid outcomes =>
    cases engine with
    | none => cases he'
    | some e =>
      cases he'
      have hs := hr e rfl
      rcases executeStep_spec e uuid outcomes with ⟨hsettled, hnone⟩ | ⟨step, hstep, hid, hne, -, ho⟩
      · refine (hs.settled hsettled).mono ?_
        exact ⟨List.Subset.refl _, List.Subset.refl _, List.subset_append_left _ _,
          List.Subset.refl _, List.Subset.refl _⟩
      · exact hs.attempted hid hne ho
  | pause =>
    cases engine with
    | none => cases he'
    | some e =>
      cases he'
      exact (hr e rfl).settled (settled_operators e).1
  | resume =>
    cases engine with
    | none => cases he'
    | some e =>
      cases he'
      exact (hr e rfl).settled (settled_operators e).2.1
  | cancel =>
    cases engine with
    | none => cases he'
    | some e =>
      cases he'
      exact (hr e rfl).settled (settled_operators e).2.2
  | decide decision =>
    cases engine with
    | none => cases he'
    | some e =>
      cases he'
      exact (hr e rfl).applyDecision (hmeant e rfl)

/-- What a call invokes is in its place. -/
theorem inPlace_of_runSound {r : EngineRun} (hr : RunSound r) (c : Call) :
    ∀ invocation ∈ (callEngine r.engine c).2, InPlace r.history invocation := by
  intro invocation hinvocation
  obtain ⟨engine, history⟩ := r
  cases c with
  | execute uuid outcomes =>
    cases engine with
    | none => cases hinvocation
    | some e =>
      change invocation ∈ (e.executeStep uuid outcomes).invocations at hinvocation
      rcases executeStep_spec e uuid outcomes with ⟨-, hnone⟩ | ⟨step, hstep, hid, hne, hconf, ho⟩
      · rw [hnone] at hinvocation
        cases hinvocation
      · exact (hr e rfl).inPlace hstep hid hne hconf ho invocation hinvocation
  | start workflow task =>
    simp only [callEngine] at hinvocation
    split at hinvocation <;> cases hinvocation
  | pause => cases engine <;> cases hinvocation
  | resume => cases engine <;> cases hinvocation
  | cancel => cases engine <;> cases hinvocation
  | decide decision => cases engine <;> cases hinvocation

/-- Two steps, the second of which depends on the first. -/
def inspectThenUpgrade : WorkflowDefinition where
  id := "wf"
  steps := [{ id := "inspect", action := { name := "inspect" } },
    { id := "upgrade", action := { name := "upgrade" }, dependsOn := ["inspect"] }]

/-- A task that was not started before. -/
def freshTask : Task := { id := "task" }

/-- The first step fails, and the operator retries the second one. -/
def retryBlocked : List Call :=
  [.start inspectThenUpgrade freshTask, .execute "u" [.raised { code := "timeout" } false],
    .decide { decisionId := "d", action := { name := "retry", targetStep := "upgrade" } }]

end DeviceShell.Tasking.Engine
