import DeviceShell.Framework.DecisionGate

/-!
# Evidence before advance

When a run leaves a state that has an action, or succeeds in it, something must have been observed
(`Evidence`): the handler of the last attempt succeeded and emitted what the action expects, a
reconcile of the action was classified with the directive to continue, a recovery confirmed success,
or an accepted decision named the next state. The law holds in every sequential history, one in which
no call meets another call of its run in flight (`evidenceBeforeAdvance_of_sequential`), of the states
that are not marked terminal: a run succeeds in a terminal state without starting its action
(`not_evidenceBeforeAdvance_terminal`).

`Stays` says what a section may save while the run stays in its state. The invariant is `Aligned`: a
suspended call is about the state in which its run is stored, and the attempt of a handler is the
run's last one.
-/

namespace DeviceShell.Framework

open Logged (Guarantees Steps)

/-- The run leaves its state, or becomes a success in it. -/
def MovesOn (r r' : WorkflowRun) : Prop :=
  r'.currentState ≠ r.currentState ∨ r'.status = .succeeded ∧ r.status ≠ .succeeded

/-- What justifies that an input moves a run on. -/
inductive Evidence {ρ : Type} (st : RuntimeState ρ) (r r' : WorkflowRun) : RuntimeInput → Prop
  /-- The handler of the last attempt succeeded, and every terminal expectation of the action is
  among the events that were emitted. -/
  | succeeded {call : ℕ} {outcome : HandlerOutcome} {snapshot stored : WorkflowRun}
      {state : StateNode} {action : ActionSpec} {attempt active : ActionAttempt}
      {events emitted : List Event}
      (hcall : st.calls.get? call = some (.handler snapshot state action attempt active events))
      (hrun : snapshot.id = r.id) (hstate : state.id = r.currentState)
      (haction : state.action = some action)
      (hlast : (r.attempts.map (·.id)).getLast? = some attempt.id)
      (hattempt : attempt.actionId = action.id)
      (hstatus : outcome.toResult.status = .succeeded)
      (hemitted : (Runtime.emitResults st.events action.id r events
        outcome.toResult.events).result = .ok (stored, emitted))
      (hexpected : ∀ type ∈ action.expected, ∃ event ∈ emitted, event.type = type) :
      Evidence st r r' (.finish call outcome)
  /-- A reconcile of the action has a classification that the action's mapping continues on. -/
  | continued {call : ℕ} {outcome : ReconcileResult} {snapshot : WorkflowRun} {state : StateNode}
      {action : ActionSpec} {events : List Event}
      (hcall : st.calls.get? call = some (.reconcile snapshot state action events))
      (hrun : snapshot.id = r.id) (hstate : state.id = r.currentState)
      (haction : state.action = some action)
      (hcontinue : action.reconcile.onClassification.get? outcome.classification =
        some "continue") :
      Evidence st r r' (.reconciled call outcome)
  /-- A recovery reconcile of the action confirms its success. -/
  | confirmed {call : ℕ} {outcome : ReconcileResult} {snapshot : WorkflowRun} {state : StateNode}
      {action : ActionSpec} {recovery : Dict String Value} {events : List Event}
      (hcall : st.calls.get? call = some (.recover snapshot state action recovery events))
      (hrun : snapshot.id = r.id) (hstate : state.id = r.currentState)
      (haction : state.action = some action)
      (hsuccess : outcome.classification = ReconcileClassification.success.value) :
      Evidence st r r' (.reconciled call outcome)
  /-- An accepted submission chose an option that names the next state. -/
  | decided {submission : DecisionSubmission} {option : DecisionOption}
      (haccepted : DecisionEngine.validate r submission = .ok option)
      (htarget : option.nextState = r'.currentState) :
      Evidence st r r' (.applyDecision r.id submission)

namespace Runtime

/-- The run is in a state with an action. -/
def InAction (defs : Definitions) (r : WorkflowRun) : Prop :=
  ∃ definition state action, definitionOf defs r = .ok definition ∧
    definition.state r.currentState = .ok state ∧ state.action = some action

/-- The run is in a state with an action that is not marked terminal. -/
def InOpenAction (defs : Definitions) (r : WorkflowRun) : Prop :=
  ∃ definition state action, definitionOf defs r = .ok definition ∧
    definition.state r.currentState = .ok state ∧ state.action = some action ∧
      state.terminal = false

/-- A run of the runtime moves no workflow run on from a state of the given kind without
evidence. -/
def EvidenceBeforeAdvance {ρ : Type} [PyLib] (kind : Definitions → WorkflowRun → Prop)
    (coordinator : Option (ResourceCoordinator ρ)) (cfg : RuntimeConfig) (resources : ρ)
    (inputs : List (ℚ × RuntimeInput)) : Prop :=
  ∀ before input after, inputs = before ++ input :: after → ∀ id r r',
    (reached coordinator cfg resources before).runs.get? id = some r →
    (reached coordinator cfg resources (before ++ [input])).runs.get? id = some r' →
    MovesOn r r' → kind (reached coordinator cfg resources before).definitions r →
      Evidence (reached coordinator cfg resources before) r r' input.2

end Runtime

/-! ## Saves that stay in the state -/

/-- The saves of the run in its state, which is not a new success. -/
def Stays (s : WorkflowRun) : Write → Prop
  | .run r => r.id = s.id ∧ r.currentState = s.currentState ∧
      (r.status = .succeeded → s.status = .succeeded)
  | .event _ => True

theorem Stays.onRun {s : WorkflowRun} {w : Write} (h : Stays s w) : OnRun s.id w := by
  cases w with
  | run r => exact h.1
  | event e => trivial

/-- A save of the run with a status that is not a success. -/
theorem stays_of_ne {s r : WorkflowRun} (hid : r.id = s.id)
    (hplace : r.currentState = s.currentState) (hstatus : r.status ≠ .succeeded) :
    Stays s (.run r) := ⟨hid, hplace, fun h => absurd h hstatus⟩

/-- A run from which sections save like from the stored one: its snapshot. -/
structure WorkflowRun.SameSpot (r s : WorkflowRun) : Prop where
  id : r.id = s.id
  place : r.currentState = s.currentState
  status : r.status = .succeeded → s.status = .succeeded

theorem WorkflowRun.SameSpot.refl (s : WorkflowRun) : s.SameSpot s := ⟨rfl, rfl, fun h => h⟩

theorem WorkflowRun.SameSpot.of_like {r s t : WorkflowRun} (h : WorkflowRun.Like r s)
    (hs : s.SameSpot t) : r.SameSpot t :=
  ⟨h.id.trans hs.id, h.place.trans hs.place, fun hr => hs.status (h.status ▸ hr)⟩

theorem likens_stays {α : Type} {s t : WorkflowRun} {m : SaveM α} {Q : α → WorkflowRun → Prop}
    (ht : t.SameSpot s) (h : Guarantees Likens tracked t m Q) :
    Guarantees (fun _ => Stays s) tracked t m Q := by
  refine h.imp (I := fun u => u.SameSpot s) (fun u w hu hw => ?_) ht
  cases w with
  | run r =>
    have hr : r.SameSpot s := WorkflowRun.SameSpot.of_like hw hu
    exact ⟨⟨hr.id, hr.place, hr.status⟩, hr⟩
  | event e => exact ⟨trivial, hu⟩

/-- What a section that suspends leaves: a call about the state of the stored run, the attempt of a
handler being the run's last one. -/
def Call.InPlace (r : WorkflowRun) : Call → Prop
  | .handler run state action attempt _ _ => run.id = r.id ∧ state.id = r.currentState ∧
      state.action = some action ∧ (r.attempts.map (·.id)).getLast? = some attempt.id ∧
        attempt.actionId = action.id
  | .reconcile run state action _ => run.SameSpot r ∧ state.id = r.currentState ∧
      state.action = some action
  | .recover run state action _ _ => run.SameSpot r ∧ state.id = r.currentState ∧
      state.action = some action

theorem Call.InPlace.run {r : WorkflowRun} {c : Call} (h : c.InPlace r) : c.run.id = r.id := by
  cases c with
  | handler => exact h.1
  | reconcile | recover => exact h.1.id

/-- The outcome of a section after which the stored run is `t`. -/
def EndsInPlace (o : Outcome) (t : WorkflowRun) : Prop :=
  ∀ call, o = .suspended call → call.InPlace t

theorem endsInPlace_returned (run t : WorkflowRun) : EndsInPlace (.returned run) t := by
  intro call h
  cases h

theorem endsInPlace_suspended {call : Call} {t : WorkflowRun} (h : call.InPlace t) :
    EndsInPlace (.suspended call) t := by
  intro call' h'
  cases h'
  exact h

namespace Runtime

/-- A save that stays in the state. -/
theorem save_stays {s t r : WorkflowRun} (hr : Stays s (.run r)) :
    Guarantees (fun _ => Stays s) tracked t (save r) (fun a u => a = r ∧ u = r) :=
  Guarantees.bind (Guarantees.write hr) fun _ _ hu => Guarantees.pure ⟨rfl, hu⟩

theorem createDecision_stays {s t run : WorkflowRun} (hrun : run.SameSpot s) (uuid : String)
    (state : StateNode) (reason : String) (error : Option (Dict String Value)) :
    Guarantees (fun _ => Stays s) tracked t (createDecision uuid run state reason error)
      (fun _ _ => True) := by
  unfold createDecision
  refine Guarantees.ite (fun _ => ?_) fun _ => ?_
  · refine (save_stays (stays_of_ne ?_ ?_ ?_)).mono fun _ _ _ => trivial
    · exact hrun.id
    · exact hrun.place
    · simp
  · refine (save_stays (stays_of_ne ?_ ?_ ?_)).mono fun _ _ _ => trivial
    · exact hrun.id
    · exact hrun.place
    · simp

/-- A section that ends by returning the run of another one. -/
theorem returned_stays {s t : WorkflowRun} {m : SaveM WorkflowRun}
    {Q : WorkflowRun → WorkflowRun → Prop} (h : Guarantees (fun _ => Stays s) tracked t m Q) :
    Guarantees (fun _ => Stays s) tracked t (do return Outcome.returned (← m)) EndsInPlace :=
  h.bind fun r u _ => Guarantees.pure (endsInPlace_returned r u)

/-- Both lookups of a run's definition find the same one. -/
theorem definition_eq {defs : Definitions} {run : WorkflowRun} {d d' : WorkflowDefinition}
    (h : registered defs run = .ok d) (h' : definitionOf defs run = .ok d') : d = d' := by
  unfold registered at h
  unfold definitionOf at h'
  cases hget : defs.get? run.definitionKey with
  | none =>
    rw [hget] at h
    cases h
  | some definition =>
    rw [hget] at h h'
    cases h
    cases h'
    rfl

/-- A guarantee under a condition. -/
theorem stays_weaken {α : Type} {P : Prop} {s t : WorkflowRun} {m : SaveM α}
    {Q : α → WorkflowRun → Prop} (h : Guarantees (fun _ => Stays s) tracked t m Q) :
    Guarantees (fun _ w => P → Stays s w) tracked t m Q :=
  h.imp (I := fun _ => True) (fun _ _ _ hw => ⟨fun _ => hw, trivial⟩) trivial

/-- Where the condition fails there is nothing to guarantee. -/
theorem returned_vacuous {P : Prop} (hP : ¬ P) {s t : WorkflowRun} (m : SaveM WorkflowRun) :
    Guarantees (fun _ w => P → Stays s w) tracked t (do return Outcome.returned (← m))
      EndsInPlace := by
  have hm : Guarantees (fun _ w => P → Stays s w) tracked t m fun _ _ => True :=
    ⟨Logged.steps_forall.2 fun _ _ h => absurd h hP, fun _ _ => trivial⟩
  exact hm.bind fun r u _ => Guarantees.pure (endsInPlace_returned r u)

section Sections

variable [PyLib] (cfg : RuntimeConfig) (now : ℚ) (uuid : String) (defs : Definitions)

theorem recover_stays {run : WorkflowRun} {state : StateNode} (hstate : state.id = run.currentState) :
    Guarantees (fun _ => Stays run) tracked run (recover cfg now uuid run state) EndsInPlace := by
  have hdecision := returned_stays (createDecision_stays (t := run) (.refl run) uuid state
    "recovery.reconcile_unavailable" none)
  unfold recover
  split
  · refine Guarantees.ite (fun _ => Guarantees.pure (endsInPlace_returned _ _)) fun _ => ?_
    split
    · exact hdecision
    · rename_i action haction
      refine Guarantees.ite (fun _ => hdecision) fun _ => ?_
      refine Guarantees.bind Guarantees.lift fun _ t ht => ?_
      obtain ⟨-, rfl⟩ := ht
      exact Guarantees.pure (endsInPlace_suspended ⟨.refl _, hstate, haction⟩)
  · refine returned_stays (save_stays (stays_of_ne ?_ ?_ ?_))
    · rfl
    · rfl
    · simp

/-- A tick of a run that is in a state with an action that is not terminal starts the handler. -/
theorem tick_stays (run : WorkflowRun) :
    Guarantees (fun _ w => InOpenAction defs run → Stays run w) tracked run
      (tick cfg now uuid defs run) EndsInPlace := by
  unfold tick
  refine Guarantees.ite (fun _ => Guarantees.pure (endsInPlace_returned _ _)) fun hactive => ?_
  have hstatus : run.status ≠ .succeeded := by
    intro hs
    rw [hs] at hactive
    exact hactive rfl
  refine Guarantees.bind Guarantees.lift fun definition t ht => ?_
  obtain ⟨hdef, rfl⟩ := ht
  refine Guarantees.bind Guarantees.lift fun state t' ht => ?_
  obtain ⟨hfind, rfl⟩ := ht
  have hstate : state.id = t'.currentState := WorkflowDefinition.state_id hfind
  -- The state that the tick acts on is the one that the run is in.
  have hopen : InOpenAction defs t' → state.terminal = false ∧ ∃ action, state.action = some action := by
    rintro ⟨definition', state', action, hdef', hfind', haction, hterminal⟩
    obtain rfl := definition_eq hdef hdef'
    have heq : state = state' := Except.ok.inj (hfind.symm.trans hfind')
    rw [heq]
    exact ⟨hterminal, action, haction⟩
  refine Guarantees.ite (fun _ => stays_weaken (recover_stays cfg now uuid hstate)) fun _ => ?_
  refine Guarantees.ite (fun hterminal => ?_) fun _ => ?_
  · have hnot : ¬ InOpenAction defs t' := fun hin => by
      rw [(hopen hin).1] at hterminal
      cases hterminal
    exact returned_vacuous hnot _
  split
  · rename_i hnone
    have hnot : ¬ InOpenAction defs t' := fun hin => by
      obtain ⟨action, haction⟩ := (hopen hin).2
      rw [hnone] at haction
      cases haction
    exact Guarantees.ite (fun _ => returned_vacuous hnot _) fun _ => returned_vacuous hnot _
  · rename_i action haction
    refine stays_weaken (Guarantees.bind (save_stays (stays_of_ne ?_ ?_ ?_)) fun r t ht => ?_)
    · rfl
    · rfl
    · exact hstatus
    obtain ⟨hr, rfl⟩ := ht
    refine Guarantees.bind Guarantees.lift fun _ t ht => ?_
    obtain ⟨-, rfl⟩ := ht
    refine Guarantees.pure (endsInPlace_suspended ⟨?_, ?_, haction, ?_, rfl⟩)
    · rw [hr]
    · exact hstate
    · simp [newAttempt]

/-- The guarantee of a reconcile whose classification the mapping does not continue on. -/
theorem applyReconcile_stays {s t run : WorkflowRun} (hrun : run.SameSpot s) (stateId : String)
    (mapping : Dict String String) (outcome : ReconcileResult)
    (hdirective : mapping.get? outcome.classification ≠ some "continue") :
    Guarantees (fun _ => Stays s) tracked t
      (applyReconcile cfg now uuid defs run stateId mapping outcome) (fun _ _ => True) := by
  have hne : (mapping.get? outcome.classification).getD "decision" ≠ "continue" := by
    cases hget : mapping.get? outcome.classification with
    | none => decide
    | some directive =>
      rw [hget] at hdirective
      simpa using hdirective
  unfold applyReconcile
  refine Guarantees.ite (fun _ => ?_) fun _ => ?_
  · refine (save_stays (stays_of_ne ?_ ?_ ?_)).mono fun _ _ _ => trivial
    · exact hrun.id
    · exact hrun.place
    · simp
  refine Guarantees.bind (save_stays (stays_of_ne ?_ ?_ ?_)) fun r u hu => ?_
  · exact hrun.id
  · exact hrun.place
  · simp
  have hr : r.SameSpot s := by
    rw [hu.1]
    exact ⟨hrun.id, hrun.place, by simp⟩
  have hretry : ∀ u, Guarantees (fun _ => Stays s) tracked u
      (save { r with status := .running, revision := r.revision + 1 }) (fun _ _ => True) := by
    intro u
    refine (save_stays (stays_of_ne ?_ ?_ ?_)).mono fun _ _ _ => trivial
    · exact hr.id
    · exact hr.place
    · simp
  refine Guarantees.bind Guarantees.lift fun definition u' _ => ?_
  refine Guarantees.bind Guarantees.lift fun state u'' _ => ?_
  rw [if_neg hne]
  refine Guarantees.ite (fun _ => ?_) fun _ => createDecision_stays hr _ _ _ _
  split
  · exact Guarantees.ite (fun _ => hretry _) fun _ => createDecision_stays hr _ _ _ _
  · exact createDecision_stays hr _ _ _ _

/-- A recovery that does not confirm success. -/
theorem recovered_stays {s t run : WorkflowRun} (hrun : run.SameSpot s) (state : StateNode)
    (recovery : Dict String Value) (outcome : ReconcileResult)
    (hsuccess : outcome.classification ≠ ReconcileClassification.success.value) :
    Guarantees (fun _ => Stays s) tracked t
      (recovered cfg now uuid defs run state recovery outcome) (fun _ _ => True) := by
  unfold recovered
  rw [if_neg hsuccess]
  refine Guarantees.ite (fun _ => ?_) fun _ => ?_
  · refine (save_stays (stays_of_ne ?_ ?_ ?_)).mono fun _ _ _ => trivial
    · exact hrun.id
    · exact hrun.place
    · simp
  refine Guarantees.ite (fun _ => ?_) fun _ => ?_
  · refine (save_stays (stays_of_ne ?_ ?_ ?_)).mono fun _ _ _ => trivial
    · exact hrun.id
    · exact hrun.place
    · simp
  · refine Guarantees.bind (save_stays ⟨?_, ?_, ?_⟩) fun r u hu => ?_
    · exact hrun.id
    · exact hrun.place
    · exact hrun.status
    apply createDecision_stays
    rw [hu.1]
    exact ⟨hrun.id, hrun.place, hrun.status⟩

omit [PyLib] in
theorem reconcile_stays (run : WorkflowRun) (reason : String) :
    Guarantees (fun _ => Stays run) tracked run (reconcile cfg uuid defs run reason)
      EndsInPlace := by
  unfold reconcile
  refine Guarantees.bind Guarantees.lift fun definition t ht => ?_
  obtain ⟨-, rfl⟩ := ht
  refine Guarantees.bind Guarantees.lift fun state t ht => ?_
  obtain ⟨hstate, rfl⟩ := ht
  split
  · exact returned_stays (createDecision_stays (.refl _) _ _ _ _)
  · rename_i action haction
    refine Guarantees.ite (fun _ => returned_stays (createDecision_stays (.refl _) _ _ _ _))
      fun _ => ?_
    refine Guarantees.bind Guarantees.lift fun _ u hu => ?_
    obtain ⟨-, rfl⟩ := hu
    refine Guarantees.pure (endsInPlace_suspended ⟨.refl _, ?_, haction⟩)
    exact WorkflowDefinition.state_id hstate

/-- The handler's result is the success that the action expects, with the events emitted. -/
def Succeeds (events : List Event) (run : WorkflowRun) (action : ActionSpec)
    (emitted : List Event) (result : ActionResult) : Prop :=
  result.status = .succeeded ∧ ∃ stored emitted',
    (emitResults events action.id run emitted result.events).result = .ok (stored, emitted') ∧
      ∀ type ∈ action.expected, ∃ event ∈ emitted', event.type = type

/-- A handler's return that is not the success that the action expects. -/
theorem finishTick_stays (run : WorkflowRun) (events : List Event) {state : StateNode}
    {action : ActionSpec} (hstate : state.id = run.currentState)
    (haction : state.action = some action) (attempt active : ActionAttempt)
    (emitted : List Event) (result : ActionResult) :
    Guarantees (fun _ w => ¬ Succeeds events run action emitted result → Stays run w) tracked run
      (finishTick cfg now uuid defs events run state action attempt active emitted result)
      EndsInPlace := by
  unfold finishTick
  refine Guarantees.bind (stays_weaken (likens_stays (.refl run)
    (emitResults_likens _ _ _ _ _))).with_result fun a t ht => ?_
  obtain ⟨hresult, rfl, hlike₁⟩ := ht
  have hspot₁ : a.1.SameSpot run := .of_like hlike₁ (.refl run)
  refine Guarantees.bind (stays_weaken (likens_stays hspot₁
    (save_likens (withActionFacts_like _ _ _)))) fun _ r ht => ?_
  obtain ⟨rfl, hr⟩ := ht
  have hspot : r.SameSpot run := by
    rw [hr]
    exact .of_like (withActionFacts_like _ _ _) hspot₁
  refine Guarantees.ite (fun hsuccess => ?_) fun _ => stays_weaken ?_
  · have hsucceeds : Succeeds events run action emitted result := by
      refine ⟨hsuccess.1, a.1, a.2, hresult, fun type htype => ?_⟩
      have hobserved := List.all_eq_true.1 hsuccess.2 type htype
      rw [List.contains_iff_mem, List.mem_map] at hobserved
      exact hobserved
    have hvacuous : ∀ {m : SaveM WorkflowRun} {t : WorkflowRun},
        Guarantees (fun _ w => ¬ Succeeds events run action emitted result → Stays run w) tracked t
          m fun _ _ => True := fun {m t} =>
      ⟨Logged.steps_forall.2 fun _ _ h => absurd hsucceeds h, fun _ _ => trivial⟩
    refine Guarantees.bind hvacuous fun u t _ => ?_
    exact returned_vacuous (fun h => h hsucceeds) _
  refine Guarantees.bind (likens_stays hspot (replaceAttempt_likens _ _)) fun _ u hu => ?_
  obtain ⟨rfl, hlike₂⟩ := hu
  have hspot₂ := WorkflowRun.SameSpot.of_like hlike₂ hspot
  refine Guarantees.ite (fun _ => ?_) fun _ => returned_stays (createDecision_stays hspot₂ _ _ _ _)
  refine Guarantees.bind (save_stays (stays_of_ne ?_ ?_ ?_)) fun v t hv => ?_
  · exact hspot₂.id
  · exact hspot₂.place
  · simp
  obtain ⟨hv, rfl⟩ := hv
  refine Guarantees.bind Guarantees.lift fun _ t ht => ?_
  obtain ⟨-, rfl⟩ := ht
  refine Guarantees.pure (endsInPlace_suspended ⟨?_, ?_, haction⟩)
  · rw [hv]
    exact .refl _
  · exact hstate.trans hspot₂.place.symm

/-- The saves of a decision: the run stays, or goes where the chosen option says. -/
def Decides (run : WorkflowRun) (submission : DecisionSubmission) (w : Write) : Prop :=
  Stays run w ∨ ∃ option r, DecisionEngine.validate run submission = .ok option ∧ w = .run r ∧
    r.id = run.id ∧ r.currentState = option.nextState

theorem applyDecision_decides (run : WorkflowRun) (submission : DecisionSubmission) :
    Guarantees (fun _ => Decides run submission) tracked run
      (applyDecision now defs run submission) (fun _ _ => True) := by
  have hstay : ∀ {t r : WorkflowRun}, r.id = run.id → r.currentState = run.currentState →
      r.status ≠ .succeeded →
        Guarantees (fun _ => Decides run submission) tracked t (save r) (fun _ _ => True) := by
    intro t r hid hplace hstatus
    refine Guarantees.bind (Guarantees.write (.inl ?_)) fun _ _ _ => Guarantees.pure trivial
    exact stays_of_ne hid hplace hstatus
  unfold applyDecision
  refine Guarantees.bind Guarantees.lift fun option t ht => ?_
  obtain ⟨hv, -⟩ := ht
  refine Guarantees.ite (fun _ => ?_) fun _ => ?_
  · apply hstay
    · rfl
    · rfl
    · simp
  refine Guarantees.ite (fun _ => ?_) fun _ => ?_
  · apply hstay
    · rfl
    · rfl
    · simp
  refine Guarantees.ite (fun _ => ?_) fun _ => ?_
  · apply hstay
    · rfl
    · rfl
    · simp
  refine Guarantees.ite (fun _ => ?_) fun hnext => ?_
  · apply hstay
    · rfl
    · rfl
    · simp
  refine Guarantees.bind Guarantees.lift fun definition t' _ => ?_
  refine Guarantees.ite (fun _ => ?_) fun _ => ?_
  · -- The option names a state of the definition.
    unfold advance
    refine Guarantees.bind Guarantees.lift fun definition' u _ => ?_
    rw [if_neg hnext]
    refine Guarantees.bind Guarantees.lift fun state u' _ => ?_
    refine Guarantees.bind (Guarantees.write (.inr ⟨option, _, hv, rfl, ?_, ?_⟩)) fun _ _ _ =>
      Guarantees.pure trivial
    · rfl
    · rfl
  · apply hstay
    · rfl
    · rfl
    · simp

end Sections

theorem storesFence_stays {s : WorkflowRun} {ws : List Write} (h : StoresFence s ws) :
    ∀ w ∈ ws, Stays s w := by
  rcases h with rfl | ⟨r, rfl, hid, -, hstatus, hplace, -⟩
  · simp
  · intro w hw
    obtain rfl := List.mem_singleton.1 hw
    exact stays_of_ne hid hplace (by simp [hstatus])

theorem resume_stays (s : WorkflowRun) (context : Dict String Value) :
    ∀ w ∈ (resume s context).written, Stays s w := by
  unfold resume
  split
  · intro w hw
    obtain rfl := List.mem_singleton.1 hw
    apply stays_of_ne
    · rfl
    · rfl
    · dsimp only
      split <;> simp
  · intro w hw
    cases hw

theorem cancel_stays (s : WorkflowRun) : ∀ w ∈ (cancel s).written, Stays s w := by
  unfold cancel
  split
  · intro w hw
    cases hw
  · intro w hw
    obtain rfl := List.mem_singleton.1 hw
    apply stays_of_ne
    · rfl
    · rfl
    · simp

end Runtime

/-! ## The machine -/

/-- The stored run after the writes of a section is the one before it, or was saved by it. -/
theorem foldl_tracked {P : Write → Prop} (s : WorkflowRun) {ws : List Write}
    (hw : ∀ w ∈ ws, P w) : ws.foldl tracked s = s ∨ P (.run (ws.foldl tracked s)) := by
  induction ws generalizing s with
  | nil => exact .inl rfl
  | cons w ws ih =>
    have hrest := ih (tracked s w) fun w' hw' => hw w' (List.mem_cons_of_mem _ hw')
    rcases hrest with hsame | hsaved
    · cases w with
      | run r =>
        refine .inr ?_
        rw [List.foldl_cons, hsame]
        exact hw _ List.mem_cons_self
      | event e => exact .inl hsame
    · exact .inr hsaved

theorem not_movesOn_self (r : WorkflowRun) : ¬ MovesOn r r := by
  rintro (h | ⟨h, h'⟩)
  · exact h rfl
  · exact h' h

theorem Stays.not_movesOn {r r' : WorkflowRun} (h : Stays r (.run r')) : ¬ MovesOn r r' := by
  rintro (h' | ⟨h', h''⟩)
  · exact h' h.2.1
  · exact h'' (h.2.2 h')

/-- A section all of whose saves stay moves the run nowhere. -/
theorem not_movesOn_foldl {s : WorkflowRun} {ws : List Write} (hw : ∀ w ∈ ws, Stays s w) :
    ¬ MovesOn s (ws.foldl tracked s) := by
  rcases foldl_tracked s hw with hsame | hsaved
  · rw [hsame]
    exact not_movesOn_self s
  · exact hsaved.not_movesOn

/-- The saves with the attempts of the stored run, by id. -/
def KeepsAttempts (s : WorkflowRun) : Write → Prop
  | .run r => r.attempts.map (·.id) = s.attempts.map (·.id)
  | .event _ => True

namespace Runtime

theorem save_keepsAttempts {s r : WorkflowRun}
    (h : r.attempts.map (·.id) = s.attempts.map (·.id)) :
    Guarantees KeepsAttempts tracked s (save r) (fun a t => a = t ∧ t = r) := by
  refine Guarantees.bind (Guarantees.write ?_) fun _ _ ht => Guarantees.pure ⟨ht.symm, ht⟩
  exact h

theorem replaceAttempt_keepsAttempts (s : WorkflowRun) (attempt : ActionAttempt) :
    Guarantees KeepsAttempts tracked s (replaceAttempt s attempt) (fun a t => a = t) := by
  unfold replaceAttempt
  refine (save_keepsAttempts ?_).mono fun a t ht => ht.1
  rw [List.map_map]
  refine List.map_congr_left fun a _ => ?_
  by_cases hid : a.id = attempt.id
  · simp [hid]
  · simp [hid]

/-- An emitted event leaves the attempts of the run. -/
theorem appendActionEvent_keepsAttempts (s : WorkflowRun) (events : List Event) (event : Event)
    (actionId : String) :
    Guarantees KeepsAttempts tracked s (appendActionEvent events s event actionId)
      (fun _ _ => True) := by
  have hevent : ∀ event, Guarantees KeepsAttempts tracked s (appendEvent events event)
      fun _ t => t = s := by
    intro event
    unfold appendEvent
    refine Guarantees.ite (fun _ => ?_) fun _ => ?_
    · split
      · exact Guarantees.pure rfl
      · exact Guarantees.raise _
    · refine Guarantees.bind (Guarantees.write ?_) fun _ t ht => Guarantees.pure ht
      trivial
  unfold appendActionEvent
  refine Guarantees.bind (hevent _) fun event t ht => ?_
  subst ht
  refine Guarantees.ite (fun _ => ?_) fun _ => Guarantees.pure trivial
  split
  · refine Guarantees.bind (replaceAttempt_keepsAttempts _ _) fun r u hu => ?_
    subst hu
    refine Guarantees.bind (save_keepsAttempts ?_) fun _ _ _ => Guarantees.pure trivial
    rfl
  · exact Guarantees.pure trivial

/-- The run after the event of a handler is like the one before it, with its attempts. -/
theorem appendActionEvent_tracked (s : WorkflowRun) (events : List Event) (event : Event)
    (actionId : String) {t : WorkflowRun}
    (ht : t = (appendActionEvent events s event actionId).written.foldl tracked s) :
    WorkflowRun.Like t s ∧ t.attempts.map (·.id) = s.attempts.map (·.id) := by
  subst ht
  constructor
  · refine (appendActionEvent_likens s events event actionId).steps.invariant
      (I := fun u => WorkflowRun.Like u s) (fun u w hu hw => ?_) (.refl s)
    cases w with
    | run r => exact WorkflowRun.Like.trans hw hu
    | event e => exact hu
  · refine (appendActionEvent_keepsAttempts s events event actionId).steps.invariant
      (I := fun u => u.attempts.map (·.id) = s.attempts.map (·.id)) (fun u w hu hw => ?_) rfl
    cases w with
    | run r => exact Eq.trans hw hu
    | event e => exact hu

end Runtime

/-- A call stays in place while its handler or provider emits events. -/
theorem Call.InPlace.of_like {c : Call} {r r' : WorkflowRun} (h : c.InPlace r)
    (hlike : WorkflowRun.Like r' r) (hattempts : r'.attempts.map (·.id) = r.attempts.map (·.id)) :
    c.InPlace r' := by
  have hspot : ∀ {run : WorkflowRun}, run.SameSpot r → run.SameSpot r' := fun hrun =>
    ⟨hrun.id.trans hlike.id.symm, hrun.place.trans hlike.place.symm,
      fun hs => hlike.status ▸ hrun.status hs⟩
  cases c with
  | handler run state action attempt active events =>
    obtain ⟨hid, hstate, haction, hlast, hattempt⟩ := h
    exact ⟨hid.trans hlike.id.symm, hstate.trans hlike.place.symm, haction, hattempts ▸ hlast,
      hattempt⟩
  | reconcile run state action events =>
    obtain ⟨hrun, hstate, haction⟩ := h
    exact ⟨hspot hrun, hstate.trans hlike.place.symm, haction⟩
  | recover run state action recovery events =>
    obtain ⟨hrun, hstate, haction⟩ := h
    exact ⟨hspot hrun, hstate.trans hlike.place.symm, haction⟩

theorem Call.InPlace.emitted {c : Call} {r : WorkflowRun} (h : c.InPlace r) (event : Event) :
    (Runtime.emitted c event).InPlace r := by
  cases c with
  | handler | reconcile | recover => exact h

namespace RuntimeState

variable {ρ : Type} {coordinator : Option (ResourceCoordinator ρ)} {now : ℚ}

/-- The invariant of a sequential history: a run has at most one suspended call, which is in
place. -/
structure Aligned (st : RuntimeState ρ) : Prop where
  keyed : st.Keyed
  calls : ∀ n c, st.calls.get? n = some c →
    ∃ r, st.runs.get? c.run.id = some r ∧ c.InPlace r
  single : ∀ n c n' c', st.calls.get? n = some c → st.calls.get? n' = some c' →
    c.run.id = c'.run.id → n = n'

/-- What a step does: the invariant holds after it, and a run that it moves on from an action had
evidence. -/
structure Advances [PyLib] (input : RuntimeInput) (st st' : RuntimeState ρ) : Prop where
  aligned : st'.Aligned
  evidence : ∀ id r r', st.runs.get? id = some r → st'.runs.get? id = some r' → MovesOn r r' →
    Runtime.InOpenAction st.definitions r → Evidence st r r' input

variable {st st' : RuntimeState ρ} {input : RuntimeInput}

/-- The stored run after writes on it. -/
theorem get?_commit_onRun {id : String} {ws : List Write} (hw : ∀ w ∈ ws, OnRun id w)
    {r : WorkflowRun} (hr : st.runs.get? id = some r) :
    (st.commit coordinator now ws).runs.get? id = some (ws.foldl tracked r) := by
  induction ws generalizing st r with
  | nil => exact hr
  | cons w ws ih =>
    refine ih (fun w' hw' => hw w' (List.mem_cons_of_mem _ hw')) ?_
    cases w with
    | run q =>
      have hq : q.id = id := hw _ List.mem_cons_self
      rw [get?_apply_run, if_pos hq.symm]
      rfl
    | event e => exact hr

/-- Calls may end. -/
theorem Aligned.congr (h : st.Aligned) (hruns : st'.runs = st.runs)
    (hcalls : ∀ n c, st'.calls.get? n = some c → st.calls.get? n = some c) : st'.Aligned where
  keyed := by
    rw [Keyed, hruns]
    exact h.keyed
  calls n c hc := by
    rw [hruns]
    exact h.calls n c (hcalls n c hc)
  single n c n' c' hc hc' := h.single n c n' c' (hcalls n c hc) (hcalls n' c' hc')

theorem advances_quiet [PyLib] (h : st.Aligned) (hruns : st'.runs = st.runs)
    (hcalls : ∀ n c, st'.calls.get? n = some c → st.calls.get? n = some c) :
    Advances input st st' where
  aligned := h.congr hruns hcalls
  evidence id r r' hr hr' hmoves := by
    rw [hruns, hr] at hr'
    cases hr'
    exact absurd hmoves (not_movesOn_self r)

/-- A section on a run without a suspended call. -/
theorem advances_commit [PyLib] (st₀ : RuntimeState ρ) (h : st.Aligned)
    (hruns : st₀.runs = st.runs)
    (hcalls : ∀ n c, st₀.calls.get? n = some c → st.calls.get? n = some c) {id : String}
    (hidle : st₀.NoCall id) {ws : List Write} (hw : ∀ w ∈ ws, OnRun id w)
    (hevidence : ∀ r, st.runs.get? id = some r → MovesOn r (ws.foldl tracked r) →
      Runtime.InOpenAction st.definitions r → Evidence st r (ws.foldl tracked r) input) :
    Advances input st (st₀.commit coordinator now ws) where
  aligned := by
    have h₀ : st₀.Aligned := h.congr hruns hcalls
    refine ⟨h₀.keyed.commit ws, ?_, ?_⟩
    · rw [calls_commit]
      intro n c hc
      obtain ⟨r, hr, hplace⟩ := h₀.calls n c hc
      refine ⟨r, ?_, hplace⟩
      rw [get?_commit_of_onRun hw (hidle n c hc)]
      exact hr
    · rw [calls_commit]
      exact h₀.single
  evidence id' r r' hr hr' hmoves hin := by
    by_cases hid : id' = id
    · subst hid
      rw [get?_commit_onRun hw (hruns ▸ hr)] at hr'
      cases hr'
      exact hevidence r hr hmoves hin
    · rw [get?_commit_of_onRun hw hid, hruns, hr] at hr'
      cases hr'
      exact absurd hmoves (not_movesOn_self r)

/-- The section then suspends, with a call in place. -/
theorem Advances.suspend [PyLib] (h : Advances input st st') {call : Call} {r : WorkflowRun}
    (hr : st'.runs.get? call.run.id = some r) (hplace : call.InPlace r)
    (hidle : st'.NoCall call.run.id) :
    Advances input st (st'.suspend coordinator now call) := by
  obtain ⟨hruns, hcalls, -, -⟩ := executionRun_frame coordinator now st' call.run
  unfold RuntimeState.suspend
  split
  · rename_i st₁ he
    rw [he] at hruns hcalls
    refine ⟨h.aligned.congr hruns fun n c hc => hcalls ▸ hc, ?_⟩
    rw [hruns]
    exact h.evidence
  · rename_i st₁ he
    rw [he] at hruns hcalls
    dsimp only at hruns hcalls
    have hget : ∀ n c, (st₁.calls.set st₁.nextCall call).get? n = some c →
        n = st₁.nextCall ∧ c = call ∨ st'.calls.get? n = some c := by
      intro n c hc
      rw [Dict.get?_set] at hc
      by_cases hn : n = st₁.nextCall
      · rw [if_pos hn] at hc
        exact .inl ⟨hn, (Option.some.inj hc).symm⟩
      · rw [if_neg hn, hcalls] at hc
        exact .inr hc
    refine ⟨⟨?_, ?_, ?_⟩, ?_⟩
    · rw [Keyed]
      simp only [hruns]
      exact h.aligned.keyed
    · intro n c hc
      simp only [hruns]
      rcases hget n c hc with ⟨-, rfl⟩ | hc
      · exact ⟨r, hr, hplace⟩
      · exact h.aligned.calls n c hc
    · intro n c n' c' hc hc' hid
      rcases hget n c hc with ⟨rfl, rfl⟩ | hold
      · rcases hget n' c' hc' with ⟨rfl, -⟩ | hold'
        · rfl
        · exact absurd hid.symm (hidle n' c' hold')
      · rcases hget n' c' hc' with ⟨rfl, rfl⟩ | hold'
        · exact absurd hid (hidle n c hold)
        · exact h.aligned.single n c n' c' hold hold' hid
    · simp only [hruns]
      exact h.evidence

/-- A section of a coroutine on a run without a suspended call. -/
theorem advances_perform [PyLib] (st₀ : RuntimeState ρ) (h : st.Aligned)
    (hruns : st₀.runs = st.runs)
    (hcalls : ∀ n c, st₀.calls.get? n = some c → st.calls.get? n = some c) {s : WorkflowRun}
    (hs : st.runs.get? s.id = some s) (hidle : st₀.NoCall s.id) {m : SaveM Outcome}
    (hsame : Guarantees SameRun tracked s m fun o _ => Runtime.EndsOnRun s o)
    {G : WorkflowRun → Write → Prop} (hends : Guarantees G tracked s m EndsInPlace)
    (hevidence : MovesOn s (m.written.foldl tracked s) → Runtime.InOpenAction st.definitions s →
      Evidence st s (m.written.foldl tracked s) input) :
    Advances input st (st₀.perform coordinator now m) := by
  have hw := onRun_of_sameRun hsame.steps
  have hcommit : Advances input st (st₀.commit coordinator now m.written) := by
    refine advances_commit st₀ h hruns hcalls hidle hw fun r hr => ?_
    rw [hs] at hr
    cases hr
    exact hevidence
  unfold RuntimeState.perform
  dsimp only
  split
  · rename_i call heq
    have hid : call.run.id = s.id := hsame.returned _ heq call rfl
    refine hcommit.suspend ?_ (hends.returned _ heq call rfl) ?_
    · rw [hid]
      exact get?_commit_onRun hw (hruns ▸ hs)
    · rw [hid, NoCall, calls_commit]
      exact hidle
  · exact hcommit

/-- Adding to the history changes nothing that the law looks at. -/
theorem Advances.note [PyLib] (h : Advances input st st') (es : List Happening) :
    Advances input st (st'.note es) where
  aligned := h.aligned.congr rfl fun _ _ hc => hc
  evidence := h.evidence

end RuntimeState

namespace Runtime

open RuntimeState

variable {ρ : Type}

/-- The inputs of a sequential history: a run is started under a new id, and no call is made on a
run while another one is in flight for it. -/
def Sequential (st : RuntimeState ρ) : RuntimeInput → Prop
  | .start _ _ _ (some runId) => runId = "" ∨ runId ∉ st.runs.keys
  | .tick runId => st.Idle runId
  | .reconcile runId _ => st.Idle runId
  | .markInterrupted runId _ => st.Idle runId
  | .recoverInflight _ limit => ∀ run ∈ (st.runs.values.take limit).filter (·.status.active),
      st.Idle run.id
  | .pause runId => st.Idle runId
  | .resume runId _ => st.Idle runId
  | .cancel runId => st.Idle runId
  | .applyDecision runId _ => st.Idle runId
  | _ => True

instance (st : RuntimeState ρ) (input : RuntimeInput) : Decidable (Sequential st input) :=
  match input with
  | .start _ _ _ (some runId) => inferInstanceAs (Decidable (runId = "" ∨ runId ∉ st.runs.keys))
  | .tick runId | .reconcile runId _ | .markInterrupted runId _ | .pause runId | .resume runId _
  | .cancel runId | .applyDecision runId _ => inferInstanceAs (Decidable (st.Idle runId))
  | .recoverInflight _ limit =>
    inferInstanceAs (Decidable (∀ run ∈ (st.runs.values.take limit).filter (·.status.active),
      st.Idle run.id))
  | .start _ _ _ none | .registerDefinition _ | .emit .. | .lateEmit .. | .finish ..
  | .reconciled .. | .abort _ | .restart => .isTrue trivial

section Machine

variable [PyLib] {coordinator : Option (ResourceCoordinator ρ)} {cfg : RuntimeConfig}
  {st : RuntimeState ρ} {input : RuntimeInput}

theorem advances_self (h : st.Aligned) : Advances input st st :=
  advances_quiet h rfl fun _ _ hc => hc

/-- A call on the stored run. -/
theorem withRun_advances {st₀ : RuntimeState ρ} {runId : String}
    {f : WorkflowRun → RuntimeState ρ} (h : st.Aligned) (hruns : st₀.runs = st.runs)
    (hnone : Advances input st st₀)
    (hf : ∀ run, st.runs.get? run.id = some run → run.id = runId → Advances input st (f run)) :
    Advances input st (withRun st₀ runId f) := by
  unfold withRun
  rw [hruns]
  split
  · rename_i run hrun
    have hid := h.keyed runId run hrun
    exact hf run (hid ▸ hrun) hid
  · exact hnone

/-- A method that does not await and whose saves stay in the state. -/
theorem advances_stays (h : st.Aligned) {now : ℚ} {s : WorkflowRun}
    (hs : st.runs.get? s.id = some s) (hidle : st.Idle s.id) {ws : List Write}
    (hw : ∀ w ∈ ws, Stays s w) : Advances input st (st.commit coordinator now ws) := by
  refine advances_commit st h rfl (fun _ _ hc => hc) hidle.noCall
    (fun w hmem => (hw w hmem).onRun) fun r hr hmoves _ => ?_
  rw [hs] at hr
  cases hr
  exact absurd hmoves (not_movesOn_foldl hw)

/-- A new run, under an id that no stored run has. -/
theorem advances_created (h : st.Aligned) {runId : String} {run : WorkflowRun}
    {st' : RuntimeState ρ} (hnew : runId ∉ st.runs.keys)
    (hruns : st'.runs = st.runs.set runId run) (hcalls : st'.calls = st.calls)
    (hid : run.id = runId) : Advances input st st' := by
  subst hid
  have hget : ∀ id r, st.runs.get? id = some r → st'.runs.get? id = some r := by
    intro id r hr
    have hne : id ≠ run.id := fun heq => hnew (heq ▸ Dict.mem_keys_of_get? hr)
    rw [hruns, Dict.get?_set_of_ne _ hne]
    exact hr
  refine ⟨⟨?_, ?_, ?_⟩, ?_⟩
  · intro id r hr
    rw [hruns, Dict.get?_set] at hr
    by_cases hid : id = run.id
    · rw [if_pos hid] at hr
      cases hr
      exact hid.symm
    · rw [if_neg hid] at hr
      exact h.keyed id r hr
  · rw [hcalls]
    intro n c hc
    obtain ⟨r, hr, hplace⟩ := h.calls n c hc
    exact ⟨r, hget _ _ hr, hplace⟩
  · rw [hcalls]
    exact h.single
  · intro id r r' hr hr' hmoves
    rw [hget id r hr] at hr'
    cases hr'
    exact absurd hmoves (not_movesOn_self r)

theorem start_advances (h : st.Aligned) (now : ℚ) (definition : WorkflowDefinition)
    (deviceId : String) (context : Dict String Value) (runId : Option String)
    (hid : ∀ id, runId = some id → id = "" ∨ id ∉ st.runs.keys) :
    Advances input st (start coordinator now st definition deviceId context runId).2 := by
  have hnew := newRunId_not_mem_keys hid
  unfold start
  split
  · exact advances_self h
  dsimp only
  split
  · exact advances_created h hnew rfl rfl rfl
  · split
    · exact advances_created h hnew rfl rfl rfl
    · exact advances_quiet h rfl fun _ _ hc => hc

/-- Runs that stay in their states. -/
def StayPut (st st' : RuntimeState ρ) : Prop := ∀ id r, st.runs.get? id = some r →
  ∃ r', st'.runs.get? id = some r' ∧ Stays r (.run r')

theorem advances_of_stayPut {st' : RuntimeState ρ} (h : st'.Aligned) (hstay : StayPut st st') :
    Advances input st st' where
  aligned := h
  evidence id r r' hr hr' hmoves := by
    obtain ⟨q, hq, hstays⟩ := hstay id r hr
    rw [hr'] at hq
    cases hq
    exact absurd hmoves hstays.not_movesOn

omit [PyLib] in
theorem StayPut.trans {st' st'' : RuntimeState ρ} (h : StayPut st st') (h' : StayPut st' st'') :
    StayPut st st'' := by
  intro id r hr
  obtain ⟨r', hr', hid, hplace, hstatus⟩ := h id r hr
  obtain ⟨r'', hr'', hid', hplace', hstatus'⟩ := h' id r' hr'
  exact ⟨r'', hr'', hid'.trans hid, hplace'.trans hplace, fun hs => hstatus (hstatus' hs)⟩

/-- An interruption of a run without a call in flight. -/
theorem interrupt_aligned (h : st.Aligned) (now : ℚ) (runId reason : String)
    (hidle : st.Idle runId) :
    (interrupt coordinator now st runId reason).Aligned ∧
      StayPut st (interrupt coordinator now st runId reason) ∧
      (interrupt coordinator now st runId reason).calls = st.calls := by
  unfold interrupt withRun
  cases hrun : st.runs.get? runId with
  | none => exact ⟨h, fun id r hr => ⟨r, hr, rfl, rfl, fun hs => hs⟩, rfl⟩
  | some run =>
    have hid : run.id = runId := h.keyed runId run hrun
    have hs : st.runs.get? run.id = some run := hid ▸ hrun
    have hw := storesFence_stays (markInterrupted_storesFence now run reason)
    have hon : ∀ w ∈ (markInterrupted now run reason).written, OnRun run.id w :=
      fun w hmem => (hw w hmem).onRun
    have hadv : Advances .restart st
        (st.commit coordinator now (markInterrupted now run reason).written) :=
      advances_stays h hs (hid ▸ hidle) hw
    refine ⟨(hadv.note _).aligned, fun id r hr => ?_, calls_commit st _⟩
    by_cases hne : id = run.id
    · subst hne
      rw [hs] at hr
      cases hr
      refine ⟨_, get?_commit_onRun hon hs, ?_⟩
      rcases foldl_tracked run hw with hsame | hsaved
      · rw [hsame]
        exact ⟨rfl, rfl, fun hs => hs⟩
      · exact hsaved
    · refine ⟨r, ?_, rfl, rfl, fun hs => hs⟩
      exact (get?_commit_of_onRun hon hne).trans hr

/-- The same, for several runs in turn. -/
theorem interrupts_aligned (now : ℚ) (reason : String) (runs : List WorkflowRun)
    (h : st.Aligned) (hidle : ∀ run ∈ runs, st.Idle run.id) :
    (runs.foldl (fun st run => interrupt coordinator now st run.id reason) st).Aligned ∧
      StayPut st (runs.foldl (fun st run => interrupt coordinator now st run.id reason) st) := by
  induction runs generalizing st with
  | nil => exact ⟨h, fun _ r hr => ⟨r, hr, rfl, rfl, fun hs => hs⟩⟩
  | cons run runs ih =>
    have hone : (interrupt coordinator now st run.id reason).Aligned ∧
        StayPut st (interrupt coordinator now st run.id reason) ∧
        (interrupt coordinator now st run.id reason).calls = st.calls :=
      interrupt_aligned h now run.id reason (hidle run List.mem_cons_self)
    obtain ⟨haligned, hstay, hcalls⟩ := hone
    obtain ⟨haligned', hstay'⟩ := ih haligned fun run' hmem => by
      rw [Idle, hcalls]
      exact hidle run' (List.mem_cons_of_mem _ hmem)
    exact ⟨haligned', hstay.trans hstay'⟩

/-- An event of a handler or provider: its call stays in place. -/
theorem append_advances (h : st.Aligned) {now : ℚ} {run : WorkflowRun}
    (hrun : st.runs.get? run.id = some run) (event : Event) (actionId : String) :
    Advances input st
      (st.commit coordinator now (appendActionEvent st.events run event actionId).written) := by
  have hon := onRun_of_sameRun
    (likens_sameRun (appendActionEvent_likens run st.events event actionId)).steps
  obtain ⟨hlike, hattempts⟩ := appendActionEvent_tracked run st.events event actionId rfl
  have hget : ∀ id r, st.runs.get? id = some r →
      ∃ r', (st.commit coordinator now
        (appendActionEvent st.events run event actionId).written).runs.get? id = some r' ∧
          WorkflowRun.Like r' r ∧ r'.attempts.map (·.id) = r.attempts.map (·.id) := by
    intro id r hr
    by_cases hid : id = run.id
    · subst hid
      rw [hrun] at hr
      cases hr
      exact ⟨_, get?_commit_onRun hon hrun, hlike, hattempts⟩
    · refine ⟨r, ?_, .refl r, rfl⟩
      rw [get?_commit_of_onRun hon hid]
      exact hr
  refine ⟨⟨h.keyed.commit _, ?_, ?_⟩, fun id r r' hr hr' hmoves => ?_⟩
  · rw [calls_commit]
    intro n c hc
    obtain ⟨r, hr, hplace⟩ := h.calls n c hc
    obtain ⟨r', hr', hlike', hattempts'⟩ := hget _ _ hr
    exact ⟨r', hr', hplace.of_like hlike' hattempts'⟩
  · rw [calls_commit]
    exact h.single
  · obtain ⟨q, hq, hlike', -⟩ := hget id r hr
    rw [hr'] at hq
    cases hq
    rcases hmoves with hplace | ⟨hs, hs'⟩
    · exact absurd hlike'.place hplace
    · exact absurd (hlike'.status ▸ hs) hs'

/-- The return of a handler. -/
theorem finish_advances (h : st.Aligned) (now : ℚ) (call : ℕ) (outcome : HandlerOutcome) :
    Advances (.finish call outcome) st
      (step coordinator cfg st (now, .finish call outcome)) := by
  dsimp only [step]
  split
  · rename_i snapshot state action attempt active events hc
    have herase : ∀ n c, (st.calls.erase call).get? n = some c → st.calls.get? n = some c :=
      fun n c hn => get?_of_get?_erase call n c hn
    refine withRun_advances h rfl (advances_quiet h rfl herase) fun run hrun hid => ?_
    obtain ⟨r, hr, hsnapshot, hstate, haction, hlast, hattempt⟩ := h.calls call _ hc
    -- The run's only call is the one that ends.
    have hidle : ∀ n c, (st.calls.erase call).get? n = some c → c.run.id ≠ run.id := by
      intro n c hn hsame
      have hnc := h.single n c call _ (herase n c hn) hc (hsame.trans hid)
      rw [Dict.get?_erase, if_pos hnc] at hn
      cases hn
    have heq : r = run := by
      rw [hid] at hrun
      exact Option.some.inj (hr.symm.trans hrun)
    subst heq
    have hstays := finishTick_stays cfg now st.uuid4 st.definitions r st.events hstate haction
      attempt active events outcome.toResult
    refine advances_perform
      { st with calls := st.calls.erase call, issued := st.uuid4 :: st.issued } h rfl herase hrun
      hidle (finishTick_sameRun cfg now st.uuid4 st.definitions r st.events state action attempt
        active events outcome.toResult) hstays fun hmoves _ => ?_
    by_cases hsucceeds : Succeeds st.events r action events outcome.toResult
    · obtain ⟨hstatus, stored, emitted, hemitted, hexpected⟩ := hsucceeds
      exact .succeeded hc hsnapshot hstate haction hlast hattempt hstatus hemitted hexpected
    · have hw := Logged.steps_forall.1 hstays.steps
      exact absurd hmoves (not_movesOn_foldl fun w hmem => hw w hmem hsucceeds)
  · exact advances_self h

/-- The answer of a provider. -/
theorem reconciled_advances (h : st.Aligned) (now : ℚ) (call : ℕ) (outcome : ReconcileResult) :
    Advances (.reconciled call outcome) st
      (step coordinator cfg st (now, .reconciled call outcome)) := by
  dsimp only [step]
  split
  · exact advances_self h
  rename_i c hc
  split
  · exact advances_self h
  rename_i m hm
  have herase : ∀ n c, (st.calls.erase call).get? n = some c → st.calls.get? n = some c :=
    fun n c hn => get?_of_get?_erase call n c hn
  have hidle : ∀ n d, (st.calls.erase call).get? n = some d → d.run.id ≠ c.run.id := by
    intro n d hn hsame
    have hnc := h.single n d call c (herase n d hn) hc hsame
    rw [Dict.get?_erase, if_pos hnc] at hn
    cases hn
  let ended : RuntimeState ρ :=
    { st with calls := st.calls.erase call, issued := st.uuid4 :: st.issued }
  have hon := onRun_of_sameRun
    (resumeReconcile_sameRun cfg now st.uuid4 st.definitions c outcome hm).steps
  refine advances_commit (ended.note [.reconciled c.run.id c.state.id outcome.classification]) h rfl
    herase hidle hon fun r hr hmoves _ => ?_
  obtain ⟨r', hr', hplace⟩ := h.calls call c hc
  have heq : r' = r := Option.some.inj (hr'.symm.trans hr)
  subst heq
  cases c with
  | handler => cases hm
  | reconcile run state action events =>
    obtain ⟨hspot, hstate, haction⟩ := hplace
    cases hm
    by_cases hcontinue : action.reconcile.onClassification.get? outcome.classification =
        some "continue"
    · exact .continued hc hspot.id hstate haction hcontinue
    · have hstays := applyReconcile_stays (t := r') cfg now st.uuid4 st.definitions hspot state.id
        action.reconcile.onClassification outcome hcontinue
      exact absurd hmoves (not_movesOn_foldl (Logged.steps_forall.1 hstays.steps))
  | recover run state action recovery events =>
    obtain ⟨hspot, hstate, haction⟩ := hplace
    cases hm
    by_cases hsuccess : outcome.classification = ReconcileClassification.success.value
    · exact .confirmed hc hspot.id hstate haction hsuccess
    · have hstays := recovered_stays (t := r') cfg now st.uuid4 st.definitions hspot state recovery
        outcome hsuccess
      exact absurd hmoves (not_movesOn_foldl (Logged.steps_forall.1 hstays.steps))

/-- One step of a sequential history. -/
theorem step_advances (h : st.Aligned) (input : ℚ × RuntimeInput) (hok : Sequential st input.2) :
    Advances input.2 st (step coordinator cfg st input) := by
  obtain ⟨now, input⟩ := input
  cases input with
  | start definition deviceId context runId =>
    refine start_advances h now definition deviceId context runId fun id hid => ?_
    subst hid
    exact hok
  | registerDefinition definition =>
    dsimp only [step]
    split
    · exact advances_quiet h rfl fun _ _ hc => hc
    · exact advances_self h
  | tick runId =>
    refine withRun_advances h rfl (advances_self h) fun run hrun hid => ?_
    have hidle : st.Idle run.id := hid ▸ hok
    have hstays := tick_stays cfg now st.uuid4 st.definitions run
    refine advances_perform { st with issued := st.uuid4 :: st.issued } h rfl (fun _ _ hc => hc)
      hrun hidle.noCall (tick_sameRun cfg now st.uuid4 st.definitions run) hstays
      fun hmoves hin => ?_
    have hw := Logged.steps_forall.1 hstays.steps
    exact absurd hmoves (not_movesOn_foldl fun w hmem => hw w hmem hin)
  | reconcile runId reason =>
    refine withRun_advances h rfl (advances_self h) fun run hrun hid => ?_
    have hidle : st.Idle run.id := hid ▸ hok
    have hstays := reconcile_stays cfg st.uuid4 st.definitions run reason
    refine advances_perform { st with issued := st.uuid4 :: st.issued } h rfl (fun _ _ hc => hc)
      hrun hidle.noCall (reconcile_sameRun cfg st.uuid4 st.definitions run reason) hstays
      fun hmoves _ => ?_
    exact absurd hmoves (not_movesOn_foldl (Logged.steps_forall.1 hstays.steps))
  | markInterrupted runId reason =>
    obtain ⟨haligned, hstay, -⟩ := interrupt_aligned h now runId reason hok
    exact advances_of_stayPut haligned hstay
  | recoverInflight reason limit =>
    obtain ⟨haligned, hstay⟩ := interrupts_aligned now reason _ h hok
    exact advances_of_stayPut haligned hstay
  | pause runId =>
    refine withRun_advances h rfl (advances_self h) fun run hrun hid => ?_
    exact (advances_stays h hrun (hid ▸ hok)
      (storesFence_stays (pause_storesFence now run))).note _
  | resume runId context =>
    refine withRun_advances h rfl (advances_self h) fun run hrun hid => ?_
    exact advances_stays h hrun (hid ▸ hok) (resume_stays run context)
  | cancel runId =>
    refine withRun_advances h rfl (advances_self h) fun run hrun hid => ?_
    exact advances_stays h hrun (hid ▸ hok) (cancel_stays run)
  | applyDecision runId submission =>
    refine withRun_advances h rfl (advances_self h) fun run hrun hid => ?_
    have hidle : st.Idle run.id := hid ▸ hok
    have hon := onRun_of_sameRun (applyDecision_sameRun now st.definitions run submission).steps
    refine advances_commit (st.note (decidedNote run submission)) h rfl (fun _ _ hc => hc)
      hidle.noCall hon fun r hr hmoves _ => ?_
    rw [hrun] at hr
    cases hr
    have hdecides := Logged.steps_forall.1
      (applyDecision_decides now st.definitions run submission).steps
    rcases foldl_tracked run hdecides with hsame | hstays | ⟨option, r, hv, hw, -, hplace⟩
    · rw [hsame] at hmoves
      exact absurd hmoves (not_movesOn_self run)
    · exact absurd hmoves hstays.not_movesOn
    · obtain rfl := Write.run.inj hw
      rw [← hid]
      exact .decided hv hplace.symm
  | emit call event =>
    dsimp only [step]
    split
    · exact advances_self h
    rename_i c hc
    refine withRun_advances h rfl (advances_self h) fun run hrun _ => ?_
    have happend : Advances (.emit call event) st (st.commit coordinator now
        (appendActionEvent st.events run event c.action.id).written) :=
      append_advances h hrun event c.action.id
    split
    · rename_i event' _
      refine ⟨⟨happend.aligned.keyed, ?_, ?_⟩, happend.evidence⟩
      · intro n d hd
        rw [Dict.get?_set] at hd
        split at hd
        · cases hd
          rw [emitted_run]
          obtain ⟨r, hr, hplace⟩ := happend.aligned.calls call c (by rw [calls_commit, hc])
          exact ⟨r, hr, hplace.emitted _⟩
        · exact happend.aligned.calls n d hd
      · -- The call keeps its number and its run.
        have hold : ∀ n d, ((st.commit coordinator now (appendActionEvent st.events run event
            c.action.id).written).calls.set call (emitted c event')).get? n = some d →
              ∃ d', st.calls.get? n = some d' ∧ d'.run.id = d.run.id := by
          intro n d hd
          rw [calls_commit, Dict.get?_set] at hd
          split at hd
          · cases hd
            refine ⟨c, ‹n = call› ▸ hc, ?_⟩
            rw [emitted_run]
          · exact ⟨d, hd, rfl⟩
        intro n d n' d' hd hd' hsame
        obtain ⟨e, he, hid⟩ := hold n d hd
        obtain ⟨e', he', hid'⟩ := hold n' d' hd'
        exact h.single n e n' e' he he' (hid.trans (hsame.trans hid'.symm))
    · exact happend
  | lateEmit runId actionId event =>
    refine withRun_advances h rfl (advances_self h) fun run hrun _ => ?_
    exact append_advances h hrun event actionId
  | finish call outcome => exact finish_advances h now call outcome
  | reconciled call outcome => exact reconciled_advances h now call outcome
  | abort call => exact advances_quiet h rfl (get?_of_get?_erase _)
  | restart => exact advances_quiet h rfl fun n c hc => by cases hc

/-- In every sequential history, a run moves on from an action only with evidence. -/
theorem evidenceBeforeAdvance_of_sequential (coordinator : Option (ResourceCoordinator ρ))
    (cfg : RuntimeConfig) (resources : ρ) (inputs : List (ℚ × RuntimeInput))
    (h : Machine.Meets (step coordinator cfg) (fun st i => Sequential st i.2)
      { resources := resources } inputs) :
    EvidenceBeforeAdvance InOpenAction coordinator cfg resources inputs := by
  intro before input after heq id r r' hr hr' hmoves hin
  rw [heq, Machine.meets_append] at h
  obtain ⟨hbefore, hok, -⟩ := h
  have hinit : ({ resources := resources } : RuntimeState ρ).Aligned := by
    refine ⟨?_, ?_, ?_⟩
    · intro id r hr
      cases hr
    · intro n c hc
      cases hc
    · intro n c n' c' hc
      cases hc
  have haligned : (reached coordinator cfg resources before).Aligned :=
    hbefore.invariant (fun st i hst hi => (step_advances hst i hi).aligned) hinit
  have hstep : reached coordinator cfg resources (before ++ [input]) =
      step coordinator cfg (reached coordinator cfg resources before) input := by
    rw [reached, Machine.run_append]
    rfl
  rw [hstep] at hr'
  exact (step_advances haligned input hok).evidence id r r' hr hr' hmoves hin

end Machine

/-- The handler of a run's action succeeds, and the run with it. -/
def succeededRun : List (ℚ × RuntimeInput) :=
  [(0, .start approvedAction "device" ∅ (some "run")), (0, .tick "run"),
    (0, .finish 0 (.result { status := .succeeded }))]

example : ((@reached Unit .atEpoch none oneHandler () succeededRun).runs.get? "run").map (·.status) =
    some .succeeded := by decide +kernel

theorem evidenceBeforeAdvance_succeededRun :
    @EvidenceBeforeAdvance Unit .atEpoch (@InOpenAction) none oneHandler () succeededRun :=
  @evidenceBeforeAdvance_of_sequential Unit .atEpoch none oneHandler () succeededRun
    (by decide +kernel)

/-- A state with an action that is marked terminal. -/
def terminalState : StateNode where
  id := "reload"
  action := some ⟨"reload", "device.reload", [], 0, 1, {}, "normal"⟩
  terminal := true

/-- A workflow of that state alone. -/
def terminalAction : WorkflowDefinition where
  id := "reload"
  version := "1"
  startState := "reload"
  states := [terminalState]

/-- A sequential history in which a run succeeds in a terminal state and its action never starts. -/
theorem not_evidenceBeforeAdvance_terminal :
    let inputs : List (ℚ × RuntimeInput) :=
      [(0, .start terminalAction "device" ∅ (some "run")), (0, .tick "run")]
    @Machine.Meets _ _ (@step Unit .atEpoch none oneHandler) (fun st i => Sequential st i.2)
        { resources := () } inputs ∧
      ¬ @EvidenceBeforeAdvance Unit .atEpoch (@InAction) none oneHandler () inputs := by
  let := PyLib.atEpoch
  refine ⟨by decide +kernel, fun h => ?_⟩
  have hbefore : ((@reached Unit .atEpoch none oneHandler ()
      [(0, .start terminalAction "device" ∅ (some "run"))]).runs.get? "run").map
        (fun r => (r.status, r.definitionKey, r.currentState)) =
          some (.running, "reload:1", "reload") := by
    decide +kernel
  have hafter : ((@reached Unit .atEpoch none oneHandler ()
      [(0, .start terminalAction "device" ∅ (some "run")), (0, .tick "run")]).runs.get? "run").map
        (fun r => r.status) = some .succeeded := by
    decide +kernel
  obtain ⟨r, hr, hrunning⟩ := Option.map_eq_some_iff.1 hbefore
  obtain ⟨r', hr', hsucceeded⟩ := Option.map_eq_some_iff.1 hafter
  simp only [Prod.mk.injEq] at hrunning
  obtain ⟨hstatus, hkey, hplace⟩ := hrunning
  have hmoves : MovesOn r r' := by
    refine .inr ⟨hsucceeded, ?_⟩
    rw [hstatus]
    simp
  have hin : InAction (@reached Unit .atEpoch none oneHandler ()
      [(0, .start terminalAction "device" ∅ (some "run"))]).definitions r := by
    have hvalid : terminalAction.validate = .ok () := by decide +kernel
    refine ⟨terminalAction, terminalState, _, ?_, ?_, rfl⟩
    · simp only [reached, Machine.run, List.foldl_cons, List.foldl_nil, step, start, hvalid,
        definitionOf, hkey]
      rfl
    · rw [hplace]
      rfl
  have hevidence := h [(0, .start terminalAction "device" ∅ (some "run"))] (0, .tick "run") [] rfl
    "run" r r' hr hr' hmoves hin
  cases hevidence

end Runtime

end DeviceShell.Framework
