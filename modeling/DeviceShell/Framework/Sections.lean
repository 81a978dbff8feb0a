import DeviceShell.Framework.RuntimeMachine

/-!
# What sections do to the stored run

A section writes saves of one run, whose last one is the stored run afterwards (`tracked`). This
module has what the invariants of the runtime share: the sections that emit events change neither
the status nor the pending decision nor the fence of the run (`emitResults_likens`), and a step of
the machine that commits a section leaves the other runs, the calls and the registries as they were.
`commit_induction` carries a property of the state through the writes of a section.
-/

namespace DeviceShell.Framework

open Logged (Guarantees Steps)

/-- The stored run after a write of a section on it. -/
def tracked (s : WorkflowRun) : Write → WorkflowRun
  | .run r => r
  | .event _ => s

/-- A run with the identity, place, status, decision and fence of another. -/
structure WorkflowRun.Like (r s : WorkflowRun) : Prop where
  id : r.id = s.id
  status : r.status = s.status
  point : r.decisionPoint = s.decisionPoint
  place : r.currentState = s.currentState
  recovery : r.context.get? recoveryKey = s.context.get? recoveryKey

theorem WorkflowRun.Like.refl (r : WorkflowRun) : WorkflowRun.Like r r := ⟨rfl, rfl, rfl, rfl, rfl⟩

theorem WorkflowRun.Like.trans {r s t : WorkflowRun} (h : WorkflowRun.Like r s)
    (h' : WorkflowRun.Like s t) : WorkflowRun.Like r t :=
  ⟨h.id.trans h'.id, h.status.trans h'.status, h.point.trans h'.point, h.place.trans h'.place,
    h.recovery.trans h'.recovery⟩

/-- The fence is read from the context alone. -/
theorem WorkflowRun.recovery?_congr {r s : WorkflowRun}
    (h : r.context.get? recoveryKey = s.context.get? recoveryKey) : r.recovery? = s.recovery? := by
  rw [WorkflowRun.recovery?, WorkflowRun.recovery?, h]

theorem WorkflowRun.fenced_congr {r s : WorkflowRun}
    (h : r.context.get? recoveryKey = s.context.get? recoveryKey) : r.fenced = s.fenced := by
  rw [WorkflowRun.fenced, WorkflowRun.fenced, WorkflowRun.recovery?_congr h]

/-- The saves of a run like the stored one. -/
def Likens (s : WorkflowRun) : Write → Prop
  | .run r => r.Like s
  | .event _ => True

/-- The saves of the stored run. -/
def SameRun (s : WorkflowRun) : Write → Prop
  | .run r => r.id = s.id
  | .event _ => True

/-- Texts that start with different characters are different. -/
theorem append_ne_of_head {a b : String} {c d : Char} {x y : List Char} (ha : a.toList = c :: x)
    (hb : b.toList = d :: y) (hcd : c ≠ d) (s : String) : a ++ s ≠ b := by
  intro h
  have h' := congrArg String.toList h
  rw [String.toList_append, ha, hb] at h'
  exact hcd (List.cons.inj h').1

/-- The record of a reconcile is not stored under the fence's key. -/
theorem reconcileKey_ne (stateId : String) : "reconcile." ++ stateId ≠ recoveryKey :=
  append_ne_of_head rfl rfl (by decide) stateId

namespace Runtime

/-- A save of a run like the stored one. -/
theorem save_likens {s r : WorkflowRun} (h : WorkflowRun.Like r s) :
    Guarantees Likens tracked s (save r) (fun a t => t = a ∧ a = r) := by
  refine Guarantees.bind (Guarantees.write ?_) fun _ _ ht => Guarantees.pure ⟨ht, rfl⟩
  exact h

theorem appendEvent_likens (s : WorkflowRun) (events : List Event) (event : Event) :
    Guarantees Likens tracked s (appendEvent events event) (fun _ t => t = s) := by
  unfold appendEvent
  refine Guarantees.ite (fun _ => ?_) fun _ => ?_
  · split
    · exact Guarantees.pure rfl
    · exact Guarantees.raise _
  · refine Guarantees.bind (Guarantees.write ?_) fun _ t ht => Guarantees.pure ht
    trivial

theorem replaceAttempt_likens (s : WorkflowRun) (attempt : ActionAttempt) :
    Guarantees Likens tracked s (replaceAttempt s attempt) (fun a t => t = a ∧ a.Like s) := by
  unfold replaceAttempt
  refine (save_likens ?_).mono fun a t ht => ⟨ht.1, ?_⟩
  · exact ⟨rfl, rfl, rfl, rfl, rfl⟩
  · rw [ht.2]
    exact ⟨rfl, rfl, rfl, rfl, rfl⟩

/-- Emitting an event records progress on the run and leaves the rest of it. -/
theorem appendActionEvent_likens (s : WorkflowRun) (events : List Event) (event : Event)
    (actionId : String) :
    Guarantees Likens tracked s (appendActionEvent events s event actionId)
      (fun a t => t = a.1 ∧ a.1.Like s) := by
  unfold appendActionEvent
  refine Guarantees.bind (appendEvent_likens s _ _) fun event t ht => ?_
  subst ht
  refine Guarantees.ite (fun _ => ?_) fun _ => Guarantees.pure ⟨rfl, .refl _⟩
  split
  · refine Guarantees.bind (replaceAttempt_likens _ _) fun _ r ht => ?_
    obtain ⟨rfl, hlike⟩ := ht
    refine Guarantees.bind (save_likens ?_) fun _ r' ht => ?_
    · exact ⟨rfl, rfl, rfl, rfl, rfl⟩
    obtain ⟨rfl, hr'⟩ := ht
    refine Guarantees.pure ⟨rfl, WorkflowRun.Like.trans ?_ hlike⟩
    rw [hr']
    exact ⟨rfl, rfl, rfl, rfl, rfl⟩
  · exact Guarantees.pure ⟨rfl, .refl _⟩

theorem emitResults_likens (s : WorkflowRun) (events : List Event) (actionId : String)
    (emitted : List Event) (results : List ResultEvent) :
    Guarantees Likens tracked s (emitResults events actionId s emitted results)
      (fun a t => t = a.1 ∧ a.1.Like s) := by
  induction results generalizing s emitted with
  | nil => exact Guarantees.pure ⟨rfl, .refl s⟩
  | cons e rest ih =>
    unfold emitResults
    refine Guarantees.bind (appendActionEvent_likens s _ _ _) fun a t ht => ?_
    obtain ⟨rfl, hlike⟩ := ht
    exact (ih _ _).mono fun b t hb => ⟨hb.1, hb.2.trans hlike⟩

theorem withActionFacts_like (run : WorkflowRun) (actionId : String) (facts : Dict String Value) :
    WorkflowRun.Like (withActionFacts run actionId facts) run := by
  have hkey : recoveryKey ≠ "action." ++ actionId ++ ".facts" := by
    rw [String.append_assoc]
    exact (append_ne_of_head rfl rfl (by decide) _).symm
  unfold withActionFacts
  split
  · exact .refl run
  · exact ⟨rfl, rfl, rfl, rfl, Dict.get?_set_of_ne _ hkey _⟩

theorem emitted_run (call : Call) (event : Event) : (emitted call event).run = call.run := by
  cases call <;> rfl

/-! ## Every section saves its own run only -/

/-- A save of the run of a section. -/
theorem save_sameRun {s r : WorkflowRun} (h : r.id = s.id) :
    Guarantees SameRun tracked s (save r) (fun a t => t = a ∧ a = r) := by
  refine Guarantees.bind (Guarantees.write ?_) fun _ _ ht => Guarantees.pure ⟨ht, rfl⟩
  exact h

/-- A section that ends with it. -/
theorem save_sameRun' {s r : WorkflowRun} (h : r.id = s.id) :
    Guarantees SameRun tracked s (save r) (fun _ _ => True) :=
  (save_sameRun h).mono fun _ _ _ => trivial

theorem likens_sameRun {α : Type} {s : WorkflowRun} {m : SaveM α} {Q : α → WorkflowRun → Prop}
    (h : Guarantees Likens tracked s m Q) : Guarantees SameRun tracked s m Q := by
  refine h.imp (I := fun _ => True) (fun t w _ hw => ⟨?_, trivial⟩) trivial
  cases w with
  | run r => exact hw.id
  | event e => trivial

theorem advance_sameRun {s run : WorkflowRun} (h : run.id = s.id) (defs : Definitions)
    (next trigger : String) :
    Guarantees SameRun tracked s (advance defs run next trigger) (fun _ _ => True) := by
  unfold advance
  refine Guarantees.bind Guarantees.lift fun definition t ht => ?_
  obtain ⟨-, rfl⟩ := ht
  refine Guarantees.ite (fun _ => save_sameRun' h) fun _ => ?_
  refine Guarantees.bind Guarantees.lift fun state t ht => ?_
  obtain ⟨-, rfl⟩ := ht
  exact save_sameRun' h

theorem createDecision_sameRun {s run : WorkflowRun} (h : run.id = s.id) (uuid : String)
    (state : StateNode) (reason : String) (error : Option (Dict String Value)) :
    Guarantees SameRun tracked s (createDecision uuid run state reason error)
      (fun _ _ => True) := by
  unfold createDecision
  exact Guarantees.ite (fun _ => save_sameRun' h) fun _ => save_sameRun' h

/-- A section that suspends keeps a snapshot of its run. -/
def EndsOnRun (s : WorkflowRun) (o : Outcome) : Prop :=
  ∀ call, o = .suspended call → call.run.id = s.id

theorem endsOnRun_returned (s run : WorkflowRun) : EndsOnRun s (.returned run) := by
  intro call h
  cases h

/-- A section that ends by returning the run of another one. -/
theorem returned_sameRun {s : WorkflowRun} {m : SaveM WorkflowRun}
    (h : Guarantees SameRun tracked s m (fun _ _ => True)) :
    Guarantees SameRun tracked s (do return Outcome.returned (← m)) (fun o _ => EndsOnRun s o) :=
  h.bind fun r _ _ => Guarantees.pure (endsOnRun_returned s r)

section Sections

variable [PyLib] (cfg : RuntimeConfig) (now : ℚ) (uuid : String) (defs : Definitions)

theorem applyReconcile_sameRun {s run : WorkflowRun} (h : run.id = s.id) (stateId : String)
    (mapping : Dict String String) (outcome : ReconcileResult) :
    Guarantees SameRun tracked s (applyReconcile cfg now uuid defs run stateId mapping outcome)
      (fun _ _ => True) := by
  unfold applyReconcile
  refine Guarantees.ite (fun _ => save_sameRun' h) fun _ => ?_
  refine Guarantees.bind (save_sameRun ?_) fun _ r ht => ?_
  · exact h
  obtain ⟨rfl, hr⟩ := ht
  refine Guarantees.bind Guarantees.lift fun definition t ht => ?_
  obtain ⟨-, rfl⟩ := ht
  refine Guarantees.bind Guarantees.lift fun state t ht => ?_
  obtain ⟨-, rfl⟩ := ht
  refine Guarantees.ite (fun _ => advance_sameRun rfl _ _ _) fun _ => ?_
  refine Guarantees.ite (fun _ => ?_) fun _ => createDecision_sameRun rfl _ _ _ _
  split
  · exact Guarantees.ite (fun _ => save_sameRun' rfl) fun _ => createDecision_sameRun rfl _ _ _ _
  · exact createDecision_sameRun rfl _ _ _ _

theorem recovered_sameRun {s run : WorkflowRun} (h : run.id = s.id) (state : StateNode)
    (recovery : Dict String Value) (outcome : ReconcileResult) :
    Guarantees SameRun tracked s (recovered cfg now uuid defs run state recovery outcome)
      (fun _ _ => True) := by
  unfold recovered
  refine Guarantees.ite (fun _ => ?_) fun _ => ?_
  · refine Guarantees.bind (save_sameRun ?_) fun _ r ht => ?_
    · exact h
    obtain ⟨rfl, -⟩ := ht
    exact advance_sameRun rfl _ _ _
  refine Guarantees.ite (fun _ => save_sameRun' h) fun _ => ?_
  refine Guarantees.ite (fun _ => save_sameRun' h) fun _ => ?_
  refine Guarantees.bind (save_sameRun ?_) fun _ r ht => ?_
  · exact h
  obtain ⟨rfl, -⟩ := ht
  exact createDecision_sameRun rfl _ _ _ _

theorem recover_sameRun (s : WorkflowRun) (state : StateNode) :
    Guarantees SameRun tracked s (recover cfg now uuid s state) (fun o _ => EndsOnRun s o) := by
  unfold recover
  split
  · refine Guarantees.ite (fun _ => Guarantees.pure (endsOnRun_returned _ _)) fun _ => ?_
    split
    · exact returned_sameRun (createDecision_sameRun rfl _ _ _ _)
    · refine Guarantees.ite (fun _ => returned_sameRun (createDecision_sameRun rfl _ _ _ _))
        fun _ => ?_
      refine Guarantees.bind Guarantees.lift fun _ t ht => ?_
      obtain ⟨-, rfl⟩ := ht
      refine Guarantees.pure fun call hcall => ?_
      cases hcall
      rfl
  · exact returned_sameRun (save_sameRun' rfl)

theorem tick_sameRun (s : WorkflowRun) :
    Guarantees SameRun tracked s (tick cfg now uuid defs s) (fun o _ => EndsOnRun s o) := by
  unfold tick
  refine Guarantees.ite (fun _ => Guarantees.pure (endsOnRun_returned _ _)) fun _ => ?_
  refine Guarantees.bind Guarantees.lift fun definition t ht => ?_
  obtain ⟨-, rfl⟩ := ht
  refine Guarantees.bind Guarantees.lift fun state t ht => ?_
  obtain ⟨-, rfl⟩ := ht
  refine Guarantees.ite (fun _ => recover_sameRun cfg now uuid _ state) fun _ => ?_
  refine Guarantees.ite (fun _ => returned_sameRun (save_sameRun' rfl)) fun _ => ?_
  split
  · exact Guarantees.ite (fun _ => returned_sameRun (advance_sameRun rfl _ _ _))
      fun _ => returned_sameRun (createDecision_sameRun rfl _ _ _ _)
  · refine Guarantees.bind (save_sameRun ?_) fun _ r ht => ?_
    · rfl
    obtain ⟨rfl, hr⟩ := ht
    refine Guarantees.bind Guarantees.lift fun _ t ht => ?_
    obtain ⟨-, rfl⟩ := ht
    refine Guarantees.pure fun call hcall => ?_
    cases hcall
    refine (congrArg WorkflowRun.id hr).trans ?_
    rfl

theorem finishTick_sameRun (s : WorkflowRun) (events : List Event) (state : StateNode)
    (action : ActionSpec) (attempt active : ActionAttempt) (emitted : List Event)
    (result : ActionResult) :
    Guarantees SameRun tracked s
      (finishTick cfg now uuid defs events s state action attempt active emitted result)
      (fun o _ => EndsOnRun s o) := by
  have hto : ∀ {t : WorkflowRun}, t.id = s.id → ∀ {m : SaveM Outcome},
      Guarantees SameRun tracked t m (fun o _ => EndsOnRun t o) →
        Guarantees SameRun tracked t m (fun o _ => EndsOnRun s o) := fun ht m hm =>
    hm.mono fun o _ ho call hcall => (ho call hcall).trans ht
  unfold finishTick
  refine Guarantees.bind (likens_sameRun (emitResults_likens _ _ _ _ _)) fun a t ht => ?_
  obtain ⟨rfl, hlike₁⟩ := ht
  refine Guarantees.bind (likens_sameRun (save_likens (withActionFacts_like _ _ _)))
    fun _ r ht => ?_
  obtain ⟨rfl, hr⟩ := ht
  have hlike : r.id = s.id := by
    rw [hr]
    exact ((withActionFacts_like _ _ _).trans hlike₁).id
  refine Guarantees.ite (fun _ => ?_) fun _ => ?_
  · refine Guarantees.bind (likens_sameRun (replaceAttempt_likens _ _)) fun _ u hu => ?_
    obtain ⟨rfl, hlike₂⟩ := hu
    exact hto (hlike₂.id.trans hlike) (returned_sameRun (advance_sameRun rfl _ _ _))
  · refine Guarantees.bind (likens_sameRun (replaceAttempt_likens _ _)) fun _ u hu => ?_
    obtain ⟨rfl, hlike₂⟩ := hu
    refine Guarantees.ite (fun _ => ?_) fun _ => ?_
    · refine Guarantees.bind (save_sameRun ?_) fun _ v hv => ?_
      · rfl
      obtain ⟨rfl, hv⟩ := hv
      refine Guarantees.bind Guarantees.lift fun _ t ht => ?_
      obtain ⟨-, rfl⟩ := ht
      refine Guarantees.pure fun call hcall => ?_
      cases hcall
      exact (congrArg WorkflowRun.id hv).trans (hlike₂.id.trans hlike)
    · exact hto (hlike₂.id.trans hlike) (returned_sameRun (createDecision_sameRun rfl _ _ _ _))

omit [PyLib] in
theorem reconcile_sameRun (s : WorkflowRun) (reason : String) :
    Guarantees SameRun tracked s (reconcile cfg uuid defs s reason)
      (fun o _ => EndsOnRun s o) := by
  unfold reconcile
  refine Guarantees.bind Guarantees.lift fun _ t ht => ?_
  obtain ⟨-, rfl⟩ := ht
  refine Guarantees.bind Guarantees.lift fun state t ht => ?_
  obtain ⟨-, rfl⟩ := ht
  split
  · exact returned_sameRun (createDecision_sameRun rfl _ _ _ _)
  · refine Guarantees.ite (fun _ => returned_sameRun (createDecision_sameRun rfl _ _ _ _))
      fun _ => ?_
    refine Guarantees.bind Guarantees.lift fun _ u hu => ?_
    obtain ⟨-, rfl⟩ := hu
    refine Guarantees.pure fun call hcall => ?_
    cases hcall
    rfl

theorem markInterrupted_sameRun (s : WorkflowRun) (reason : String) :
    Guarantees SameRun tracked s (markInterrupted now s reason) (fun _ _ => True) := by
  unfold markInterrupted
  exact Guarantees.ite (fun _ => Guarantees.pure trivial) fun _ => save_sameRun' rfl

theorem pause_sameRun (s : WorkflowRun) :
    Guarantees SameRun tracked s (pause now s) (fun _ _ => True) := by
  unfold pause
  exact Guarantees.ite (fun _ => Guarantees.pure trivial) fun _ => save_sameRun' rfl

omit [PyLib] in
theorem resume_sameRun (s : WorkflowRun) (context : Dict String Value) :
    Guarantees SameRun tracked s (resume s context) (fun _ _ => True) := by
  unfold resume
  exact Guarantees.ite (fun _ => save_sameRun' rfl) fun _ => Guarantees.pure trivial

omit [PyLib] in
theorem cancel_sameRun (s : WorkflowRun) :
    Guarantees SameRun tracked s (cancel s) (fun _ _ => True) := by
  unfold cancel
  exact Guarantees.ite (fun _ => Guarantees.pure trivial) fun _ => save_sameRun' rfl

theorem applyDecision_sameRun (s : WorkflowRun) (submission : DecisionSubmission) :
    Guarantees SameRun tracked s (applyDecision now defs s submission) (fun _ _ => True) := by
  unfold applyDecision
  refine Guarantees.bind Guarantees.lift fun option t ht => ?_
  obtain ⟨-, rfl⟩ := ht
  refine Guarantees.ite (fun _ => save_sameRun' rfl) fun _ => ?_
  refine Guarantees.ite (fun _ => save_sameRun' rfl) fun _ => ?_
  refine Guarantees.ite (fun _ => save_sameRun' rfl) fun _ => ?_
  refine Guarantees.ite (fun _ => save_sameRun' rfl) fun _ => ?_
  refine Guarantees.bind Guarantees.lift fun definition t' ht => ?_
  obtain ⟨-, rfl⟩ := ht
  refine Guarantees.ite (fun _ => ?_) fun _ => save_sameRun' rfl
  refine advance_sameRun ?_ _ _ _
  rfl

/-- A refused submission writes nothing. -/
theorem applyDecision_of_error {s : WorkflowRun} {submission : DecisionSubmission} {e : PyError}
    (h : DecisionEngine.validate s submission = .error e) :
    applyDecision now defs s submission = Logged.raise e := by
  unfold applyDecision
  rw [h]
  rfl

/-- What a provider's answer makes a call save. -/
theorem resumeReconcile_sameRun (call : Call) (outcome : ReconcileResult) {m : SaveM WorkflowRun}
    (hm : resumeReconcile cfg now uuid defs call outcome = some m) :
    Guarantees SameRun tracked call.run m (fun _ _ => True) := by
  cases call with
  | handler => cases hm
  | reconcile run state action _ =>
    cases hm
    exact applyReconcile_sameRun cfg now uuid defs rfl _ _ _
  | recover run state _ recovery _ =>
    cases hm
    exact recovered_sameRun cfg now uuid defs rfl _ _ _

end Sections

end Runtime

namespace RuntimeState

variable {ρ : Type} {coordinator : Option (ResourceCoordinator ρ)} {now : ℚ}

@[simp] theorem releaseTerminal_runs (st : RuntimeState ρ) (run : WorkflowRun) :
    (releaseTerminal coordinator now st run).runs = st.runs := by
  unfold releaseTerminal
  split <;> [split; skip] <;> rfl

@[simp] theorem releaseTerminal_calls (st : RuntimeState ρ) (run : WorkflowRun) :
    (releaseTerminal coordinator now st run).calls = st.calls := by
  unfold releaseTerminal
  split <;> [split; skip] <;> rfl

@[simp] theorem releaseTerminal_nextCall (st : RuntimeState ρ) (run : WorkflowRun) :
    (releaseTerminal coordinator now st run).nextCall = st.nextCall := by
  unfold releaseTerminal
  split <;> [split; skip] <;> rfl

@[simp] theorem releaseTerminal_history (st : RuntimeState ρ) (run : WorkflowRun) :
    (releaseTerminal coordinator now st run).history = st.history := by
  unfold releaseTerminal
  split <;> [split; skip] <;> rfl

/-- The store after a save. -/
theorem get?_apply_run (st : RuntimeState ρ) (r : WorkflowRun) (id : String) :
    (st.apply coordinator now (.run r)).runs.get? id =
      if id = r.id then some r else st.runs.get? id := by
  simp only [RuntimeState.apply, releaseTerminal_runs]
  rw [Dict.get?_set]

theorem history_apply_run (st : RuntimeState ρ) (r : WorkflowRun) :
    (st.apply coordinator now (.run r)).history = st.history ++ .saved r :: askedBy st r := by
  simp only [RuntimeState.apply, releaseTerminal_history]

theorem mem_askedBy {st : RuntimeState ρ} {r : WorkflowRun} {e : Happening}
    (h : e ∈ askedBy st r) :
    ∃ point, r.decisionPoint = some point ∧ e = .asked r.id point.id := by
  unfold askedBy at h
  split at h
  · split at h
    · cases h
    · exact ⟨_, ‹_›, List.mem_singleton.1 h⟩
  · cases h

@[simp] theorem calls_commit (st : RuntimeState ρ) (ws : List Write) :
    (st.commit coordinator now ws).calls = st.calls := by
  induction ws generalizing st with
  | nil => rfl
  | cons w ws ih =>
    refine (ih _).trans ?_
    cases w <;> simp [RuntimeState.apply]

@[simp] theorem nextCall_commit (st : RuntimeState ρ) (ws : List Write) :
    (st.commit coordinator now ws).nextCall = st.nextCall := by
  induction ws generalizing st with
  | nil => rfl
  | cons w ws ih =>
    refine (ih _).trans ?_
    cases w <;> simp [RuntimeState.apply]

/-- A section on a run leaves the other runs as they are. -/
theorem get?_commit_of_ne {st : RuntimeState ρ} {s : WorkflowRun} {ws : List Write}
    (hw : Steps SameRun tracked s ws) {id : String} (hid : id ≠ s.id) :
    (st.commit coordinator now ws).runs.get? id = st.runs.get? id := by
  induction ws generalizing st s with
  | nil => rfl
  | cons w ws ih =>
    have htracked : (tracked s w).id = s.id := by
      cases w with
      | run r => exact hw.1
      | event e => rfl
    refine (ih hw.2 (htracked ▸ hid)).trans ?_
    cases w with
    | run r =>
      have hr : r.id = s.id := hw.1
      rw [get?_apply_run, if_neg (hr ▸ hid)]
    | event e => rfl

/-- Induction over the writes of a section: what each write preserves holds after the section, and
the last save is the stored run. -/
theorem commit_induction {G : WorkflowRun → Write → Prop}
    {P : RuntimeState ρ → WorkflowRun → Prop}
    (hstep : ∀ st s w, st.runs.get? s.id = some s → P st s → G s w →
      (tracked s w).id = s.id ∧ P (st.apply coordinator now w) (tracked s w))
    {st : RuntimeState ρ} {s : WorkflowRun} (hs : st.runs.get? s.id = some s) (hP : P st s)
    {ws : List Write} (hw : Steps G tracked s ws) :
    (ws.foldl tracked s).id = s.id ∧
      (st.commit coordinator now ws).runs.get? s.id = some (ws.foldl tracked s) ∧
        P (st.commit coordinator now ws) (ws.foldl tracked s) := by
  induction ws generalizing st s with
  | nil => exact ⟨rfl, hs, hP⟩
  | cons w ws ih =>
    obtain ⟨hid, hP'⟩ := hstep st s w hs hP hw.1
    have hs' : (st.apply coordinator now w).runs.get? (tracked s w).id = some (tracked s w) := by
      cases w with
      | run r => rw [get?_apply_run, tracked, if_pos rfl]
      | event e => exact hs
    have := ih hs' hP' hw.2
    rw [hid] at this
    exact this

/-- A fresh id is longer than every id in use. -/
theorem length_le_foldr_max {s : String} {l : List String} (h : s ∈ l) :
    s.length ≤ (l.map String.length).foldr max 0 := by
  induction l with
  | nil => cases h
  | cons t l ih =>
    rcases List.mem_cons.1 h with rfl | h
    · exact le_max_left _ _
    · exact (ih h).trans (le_max_right _ _)

theorem uuid4_not_mem_usedIds (st : RuntimeState ρ) : st.uuid4 ∉ st.usedIds := by
  intro h
  have hle := length_le_foldr_max h
  rw [uuid4, String.length_ofList, List.length_replicate] at hle
  omega

theorem uuid4_not_mem_keys (st : RuntimeState ρ) : st.uuid4 ∉ st.runs.keys := fun h =>
  st.uuid4_not_mem_usedIds (List.mem_append_left _ (List.mem_append_right _ h))

/-- The id of a new run is new where a given one is. -/
theorem newRunId_not_mem_keys {st : RuntimeState ρ} {runId : Option String}
    (h : ∀ id, runId = some id → id = "" ∨ id ∉ st.runs.keys) :
    st.newRunId runId ∉ st.runs.keys := by
  cases runId with
  | none => exact st.uuid4_not_mem_keys
  | some id =>
    unfold newRunId
    dsimp only
    split
    · exact st.uuid4_not_mem_keys
    · exact (h id rfl).resolve_left ‹_›

variable (coordinator now) in
/-- Acquiring the device of a call touches only leases and resources. -/
theorem executionRun_frame [PyLib] (st : RuntimeState ρ) (run : WorkflowRun) :
    (executionRun coordinator now st run).2.runs = st.runs ∧
      (executionRun coordinator now st run).2.calls = st.calls ∧
      (executionRun coordinator now st run).2.nextCall = st.nextCall ∧
      (executionRun coordinator now st run).2.history = st.history := by
  unfold executionRun
  split
  · exact ⟨rfl, rfl, rfl, rfl⟩
  · split
    · exact ⟨rfl, rfl, rfl, rfl⟩
    · dsimp only
      split <;> exact ⟨rfl, rfl, rfl, rfl⟩

/-- Suspending a call changes no run. -/
@[simp] theorem runs_suspend [PyLib] (st : RuntimeState ρ) (call : Call) :
    (st.suspend coordinator now call).runs = st.runs := by
  obtain ⟨hruns, -, -, -⟩ := executionRun_frame coordinator now st call.run
  unfold RuntimeState.suspend
  split
  · rename_i he
    rwa [he] at hruns
  · rename_i he
    rwa [he] at hruns

@[simp] theorem runs_perform [PyLib] (st : RuntimeState ρ) (m : SaveM Outcome) :
    (st.perform coordinator now m).runs = (st.commit coordinator now m.written).runs := by
  unfold RuntimeState.perform
  dsimp only
  split
  · exact runs_suspend _ _
  · rfl

/-- No call of the run is suspended. -/
def NoCall (st : RuntimeState ρ) (runId : String) : Prop :=
  ∀ n c, st.calls.get? n = some c → c.run.id ≠ runId

/-- The same, of every entry of the dictionary of the calls. -/
def Idle (st : RuntimeState ρ) (runId : String) : Prop :=
  ∀ c ∈ st.calls.values, c.run.id ≠ runId

theorem Idle.noCall {st : RuntimeState ρ} {runId : String} (h : st.Idle runId) :
    st.NoCall runId := fun _ c hc => h c (Dict.mem_values_of_get? hc)

instance (st : RuntimeState ρ) (runId : String) : Decidable (st.Idle runId) :=
  inferInstanceAs (Decidable (∀ c ∈ st.calls.values, c.run.id ≠ runId))

end RuntimeState

end DeviceShell.Framework
