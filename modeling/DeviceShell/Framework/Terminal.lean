import DeviceShell.Framework.Sections

/-!
# Terminal statuses

Whether a terminal status of a run stays. A section that resumes after an `await` saves without
looking at the status that is stored by then, while `pause`, `cancel` and `mark_interrupted` leave a
terminal run alone. So a cancellation that lands during an `await` is overwritten
(`not_absorbing_oneAction_cancel`), and terminal statuses are absorbing in every run in which no
call of a run is overtaken (`absorbing_of_unoverlapped`).

`KeepsTerminal` says what a section may save; each section keeps to it when it starts from a run
that is neither terminal nor waiting for a decision (`WorkflowRun.Open`). `Orderly` is the invariant
of the machine: suspended calls hold open snapshots of runs that are stored open, one for a run.
-/

namespace DeviceShell.Framework

open Logged (Guarantees Steps)

/-- A decision point is pending only while the run waits for it or is paused. -/
def WorkflowRun.PointWaits (r : WorkflowRun) : Prop :=
  r.decisionPoint ≠ none → r.status = .waitingDecision ∨ r.status = .paused

/-- The saves that keep a terminal status: of the same run, and not away from a terminal status. -/
def KeepsTerminal (s : WorkflowRun) : Write → Prop
  | .run r => r.id = s.id ∧ (s.status.terminal = true → r.status = s.status) ∧ r.PointWaits
  | .event _ => True

/-- A run that a section may move on from: neither terminal nor with a pending decision. -/
structure WorkflowRun.Open (r : WorkflowRun) : Prop where
  status : r.status.terminal = false
  point : r.decisionPoint = none

theorem WorkflowRun.Like.pointWaits {r s : WorkflowRun} (h : WorkflowRun.Like r s)
    (hs : s.PointWaits) : r.PointWaits := fun hne => by
  rw [h.status]
  exact hs (h.point ▸ hne)

theorem WorkflowRun.Like.open_ {r s : WorkflowRun} (h : WorkflowRun.Like r s) (hs : s.Open) :
    r.Open := ⟨h.status ▸ hs.status, h.point ▸ hs.point⟩

namespace Runtime

theorem save_keepsTerminal {s r : WorkflowRun} (h : KeepsTerminal s (.run r)) :
    Guarantees KeepsTerminal tracked s (save r) (fun a t => t = a ∧ a = r) :=
  (Guarantees.write h).bind fun _ _ ht => Guarantees.pure ⟨ht, rfl⟩

theorem pointWaits_of_none {r : WorkflowRun} (h : r.decisionPoint = none) : r.PointWaits :=
  fun hne => absurd h hne

/-- From a run that is not terminal, any save of the run without a pending decision is allowed. -/
theorem save_of_live {s r : WorkflowRun} (hs : s.status.terminal = false) (hid : r.id = s.id)
    (hr : r.PointWaits) :
    Guarantees KeepsTerminal tracked s (save r) (fun a t => t = a ∧ a = r) := by
  refine save_keepsTerminal ⟨hid, fun h => ?_, hr⟩
  rw [hs] at h
  cases h

/-- A section that ends with such a save. -/
theorem save_last {s r : WorkflowRun} (hs : s.status.terminal = false) (hid : r.id = s.id)
    (hr : r.PointWaits) :
    Guarantees KeepsTerminal tracked s (save r) (fun _ _ => True) :=
  (save_of_live hs hid hr).mono fun _ _ _ => trivial

theorem advance_keepsTerminal {s run : WorkflowRun} (hs : s.status.terminal = false)
    (hid : run.id = s.id) (hp : run.decisionPoint = none) (defs : Definitions)
    (next trigger : String) :
    Guarantees KeepsTerminal tracked s (advance defs run next trigger) (fun _ _ => True) := by
  unfold advance
  refine Guarantees.bind Guarantees.lift fun definition t ht => ?_
  obtain ⟨-, rfl⟩ := ht
  refine Guarantees.ite (fun _ => ?_) fun _ => ?_
  · refine save_last hs ?_ (pointWaits_of_none ?_)
    · exact hid
    · exact hp
  · refine Guarantees.bind Guarantees.lift fun state t ht => ?_
    obtain ⟨-, rfl⟩ := ht
    refine save_last hs ?_ (pointWaits_of_none ?_)
    · exact hid
    · rfl

theorem createDecision_keepsTerminal {s run : WorkflowRun} (hs : s.status.terminal = false)
    (hid : run.id = s.id) (hp : run.decisionPoint = none) (uuid : String) (state : StateNode)
    (reason : String) (error : Option (Dict String Value)) :
    Guarantees KeepsTerminal tracked s (createDecision uuid run state reason error)
      (fun _ _ => True) := by
  unfold createDecision
  refine Guarantees.ite (fun _ => ?_) fun _ => ?_
  · refine save_last hs ?_ (pointWaits_of_none ?_)
    · exact hid
    · exact hp
  · refine save_last hs ?_ fun _ => .inl ?_
    · exact hid
    · rfl

section Sections

variable [PyLib] (cfg : RuntimeConfig) (now : ℚ) (uuid : String) (defs : Definitions)

theorem applyReconcile_keepsTerminal {s run : WorkflowRun} (hs : s.status.terminal = false)
    (hid : run.id = s.id) (hp : run.decisionPoint = none) (stateId : String)
    (mapping : Dict String String) (outcome : ReconcileResult) :
    Guarantees KeepsTerminal tracked s
      (applyReconcile cfg now uuid defs run stateId mapping outcome) (fun _ _ => True) := by
  unfold applyReconcile
  refine Guarantees.ite (fun _ => ?_) fun _ => ?_
  · refine save_last hs ?_ (pointWaits_of_none ?_)
    · exact hid
    · exact hp
  refine Guarantees.bind (save_of_live hs ?_ (pointWaits_of_none ?_)) fun _ r ht => ?_
  · exact hid
  · exact hp
  -- From here on the stored run is the one just saved, which is recovering.
  obtain ⟨rfl, hr⟩ := ht
  have ho : r.Open := ⟨by rw [hr]; rfl, by rw [hr]; exact hp⟩
  clear hr
  refine Guarantees.bind Guarantees.lift fun definition t ht => ?_
  obtain ⟨-, rfl⟩ := ht
  refine Guarantees.bind Guarantees.lift fun state t ht => ?_
  obtain ⟨-, rfl⟩ := ht
  refine Guarantees.ite (fun _ => advance_keepsTerminal ho.status rfl ho.point _ _ _) fun _ => ?_
  refine Guarantees.ite (fun _ => ?_) fun _ =>
    createDecision_keepsTerminal ho.status rfl ho.point _ _ _ _
  split
  · refine Guarantees.ite (fun _ => ?_) fun _ =>
      createDecision_keepsTerminal ho.status rfl ho.point _ _ _ _
    refine save_last ho.status rfl (pointWaits_of_none ?_)
    exact ho.point
  · exact createDecision_keepsTerminal ho.status rfl ho.point _ _ _ _

theorem recovered_keepsTerminal {s run : WorkflowRun} (hs : s.status.terminal = false)
    (hid : run.id = s.id) (ho : run.Open) (state : StateNode) (recovery : Dict String Value)
    (outcome : ReconcileResult) :
    Guarantees KeepsTerminal tracked s
      (recovered cfg now uuid defs run state recovery outcome) (fun _ _ => True) := by
  unfold recovered
  refine Guarantees.ite (fun _ => ?_) fun _ => ?_
  · refine Guarantees.bind (save_of_live hs ?_ (pointWaits_of_none ?_)) fun _ r ht => ?_
    · exact hid
    · exact ho.point
    obtain ⟨rfl, hr⟩ := ht
    have hr' : r.Open := ⟨by rw [hr]; exact ho.status, by rw [hr]; exact ho.point⟩
    exact advance_keepsTerminal hr'.status rfl hr'.point _ _ _
  refine Guarantees.ite (fun _ => ?_) fun _ => ?_
  · refine save_last hs ?_ (pointWaits_of_none ?_)
    · exact hid
    · exact ho.point
  refine Guarantees.ite (fun _ => ?_) fun _ => ?_
  · refine save_last hs ?_ (pointWaits_of_none ?_)
    · exact hid
    · exact ho.point
  · refine Guarantees.bind (save_of_live hs ?_ (pointWaits_of_none ?_)) fun _ r ht => ?_
    · exact hid
    · exact ho.point
    obtain ⟨rfl, hr⟩ := ht
    have hr' : r.Open := ⟨by rw [hr]; exact ho.status, by rw [hr]; exact ho.point⟩
    exact createDecision_keepsTerminal hr'.status rfl hr'.point _ _ _ _

/-- What a section that starts from an open run ends with: the run, or a suspension on a snapshot
that is open, the stored run being open too. -/
def EndsOpen (s : WorkflowRun) (o : Outcome) (t : WorkflowRun) : Prop :=
  ∀ call, o = .suspended call → call.run.id = s.id ∧ call.run.Open ∧ t.Open

omit [PyLib] in
theorem endsOpen_returned (s run t : WorkflowRun) : EndsOpen s (.returned run) t := by
  intro call h
  cases h

theorem recover_keepsTerminal {run : WorkflowRun} (ho : run.Open) (state : StateNode) :
    Guarantees KeepsTerminal tracked run (recover cfg now uuid run state) (EndsOpen run) := by
  have hdecision : Guarantees KeepsTerminal tracked run
      (do
        let r ← createDecision uuid run state "recovery.reconcile_unavailable" none
        return Outcome.returned r) (EndsOpen run) :=
    (createDecision_keepsTerminal ho.status rfl ho.point _ _ _ _).bind fun r t _ =>
      Guarantees.pure (endsOpen_returned run r t)
  unfold recover
  split
  · refine Guarantees.ite (fun _ => Guarantees.pure (endsOpen_returned _ _ _)) fun _ => ?_
    split
    · exact hdecision
    · refine Guarantees.ite (fun _ => hdecision) fun _ => ?_
      refine Guarantees.bind Guarantees.lift fun _ t ht => ?_
      obtain ⟨-, rfl⟩ := ht
      refine Guarantees.pure fun call hcall => ?_
      cases hcall
      exact ⟨rfl, ho, ho⟩
  · refine Guarantees.bind (save_last ho.status ?_ (pointWaits_of_none ?_)) fun r t _ =>
      Guarantees.pure (endsOpen_returned run r t)
    · rfl
    · exact ho.point

theorem tick_keepsTerminal {run : WorkflowRun} (hp : run.PointWaits) :
    Guarantees KeepsTerminal tracked run (tick cfg now uuid defs run) (EndsOpen run) := by
  unfold tick
  refine Guarantees.ite (fun _ => Guarantees.pure (endsOpen_returned _ _ _)) fun hactive => ?_
  -- A tick acts on a running or recovering run, which has no pending decision.
  have hactive' : run.status.active = true := by simpa using hactive
  have ho : run.Open := by
    refine ⟨RunStatus.not_terminal_of_active hactive', ?_⟩
    by_contra hne
    rcases hp hne with h | h <;> rw [h] at hactive' <;> cases hactive'
  refine Guarantees.bind Guarantees.lift fun definition t ht => ?_
  obtain ⟨-, rfl⟩ := ht
  refine Guarantees.bind Guarantees.lift fun state t ht => ?_
  obtain ⟨-, rfl⟩ := ht
  refine Guarantees.ite (fun _ => recover_keepsTerminal cfg now uuid ho state) fun _ => ?_
  refine Guarantees.ite (fun _ => ?_) fun _ => ?_
  · refine Guarantees.bind (save_last ho.status ?_ (pointWaits_of_none ?_)) fun r t _ =>
      Guarantees.pure (endsOpen_returned _ r t)
    · rfl
    · exact ho.point
  split
  · refine Guarantees.ite (fun _ => ?_) fun _ => ?_
    · exact (advance_keepsTerminal ho.status rfl ho.point _ _ _).bind fun r t _ =>
        Guarantees.pure (endsOpen_returned _ r t)
    · exact (createDecision_keepsTerminal ho.status rfl ho.point _ _ _ _).bind fun r t _ =>
        Guarantees.pure (endsOpen_returned _ r t)
  · refine Guarantees.bind (save_of_live ho.status ?_ (pointWaits_of_none ?_)) fun _ r ht => ?_
    · rfl
    · exact ho.point
    obtain ⟨rfl, hr⟩ := ht
    have hr' : r.Open := ⟨by rw [hr]; exact ho.status, by rw [hr]; exact ho.point⟩
    refine Guarantees.bind Guarantees.lift fun _ t ht => ?_
    obtain ⟨-, rfl⟩ := ht
    refine Guarantees.pure fun call hcall => ?_
    cases hcall
    exact ⟨by rw [hr]; rfl, hr', hr'⟩

end Sections

/-- Saves of a run like the stored one keep its status and its pending decision. -/
theorem likens_keepsTerminal {α : Type} {s : WorkflowRun} (hs : s.PointWaits) {m : SaveM α}
    {Q : α → WorkflowRun → Prop} (h : Guarantees Likens tracked s m Q) :
    Guarantees KeepsTerminal tracked s m Q := by
  refine h.imp (I := WorkflowRun.PointWaits) (fun t w ht hw => ?_) hs
  cases w with
  | run r => exact ⟨⟨hw.id, fun _ => hw.status, hw.pointWaits ht⟩, hw.pointWaits ht⟩
  | event e => exact ⟨trivial, ht⟩

section Sections

variable [PyLib] (cfg : RuntimeConfig) (now : ℚ) (uuid : String) (defs : Definitions)

theorem finishTick_keepsTerminal {s : WorkflowRun} (ho : s.Open) (events : List Event)
    (state : StateNode) (action : ActionSpec) (attempt active : ActionAttempt)
    (emitted : List Event) (result : ActionResult) :
    Guarantees KeepsTerminal tracked s
      (finishTick cfg now uuid defs events s state action attempt active emitted result)
      (EndsOpen s) := by
  have hp : s.PointWaits := pointWaits_of_none ho.point
  unfold finishTick
  refine Guarantees.bind (likens_keepsTerminal hp (emitResults_likens _ _ _ _ _)) fun a t ht => ?_
  obtain ⟨rfl, hlike₁⟩ := ht
  refine Guarantees.bind (likens_keepsTerminal (hlike₁.pointWaits hp)
    (save_likens (withActionFacts_like _ _ _))) fun _ r ht => ?_
  obtain ⟨rfl, hr⟩ := ht
  have hlike : WorkflowRun.Like r s := by
    rw [hr]
    exact (withActionFacts_like _ _ _).trans hlike₁
  have hrp : r.PointWaits := hlike.pointWaits hp
  refine Guarantees.ite (fun _ => ?_) fun _ => ?_
  -- The action succeeded: the attempt is closed and the run moves on.
  · refine Guarantees.bind (likens_keepsTerminal hrp (replaceAttempt_likens _ _)) fun _ u hu => ?_
    obtain ⟨rfl, hlike₂⟩ := hu
    have hopen := (hlike₂.trans hlike).open_ ho
    exact (advance_keepsTerminal hopen.status rfl hopen.point _ _ _).bind fun r' t _ =>
      Guarantees.pure (endsOpen_returned _ r' t)
  -- It did not: the run is reconciled where the action has a provider, or decided.
  · refine Guarantees.bind (likens_keepsTerminal hrp (replaceAttempt_likens _ _)) fun _ u hu => ?_
    obtain ⟨rfl, hlike₂⟩ := hu
    have hopen := (hlike₂.trans hlike).open_ ho
    refine Guarantees.ite (fun _ => ?_) fun _ => ?_
    · refine Guarantees.bind (save_of_live hopen.status ?_ (pointWaits_of_none ?_)) fun _ v hv => ?_
      · rfl
      · exact hopen.point
      obtain ⟨rfl, hv⟩ := hv
      have hvo : v.Open := ⟨by rw [hv]; rfl, by rw [hv]; exact hopen.point⟩
      refine Guarantees.bind Guarantees.lift fun _ t ht => ?_
      obtain ⟨-, rfl⟩ := ht
      refine Guarantees.pure fun call hcall => ?_
      cases hcall
      exact ⟨by rw [Call.run, hv]; exact (hlike₂.trans hlike).id, hvo, hvo⟩
    · exact (createDecision_keepsTerminal hopen.status rfl hopen.point _ _ _ _).bind fun r' t _ =>
        Guarantees.pure (endsOpen_returned _ r' t)

omit [PyLib] in
theorem reconcile_keepsTerminal {s : WorkflowRun} (ho : s.Open) (reason : String) :
    Guarantees KeepsTerminal tracked s (reconcile cfg uuid defs s reason) (EndsOpen s) := by
  unfold reconcile
  refine Guarantees.bind Guarantees.lift fun _ t ht => ?_
  obtain ⟨-, rfl⟩ := ht
  refine Guarantees.bind Guarantees.lift fun state t ht => ?_
  obtain ⟨-, rfl⟩ := ht
  have hdecision : Guarantees KeepsTerminal tracked t
      (do
        let r ← createDecision uuid t state reason none
        return Outcome.returned r) (EndsOpen t) :=
    (createDecision_keepsTerminal ho.status rfl ho.point _ _ _ _).bind fun r u _ =>
      Guarantees.pure (endsOpen_returned t r u)
  split
  · exact hdecision
  · refine Guarantees.ite (fun _ => hdecision) fun _ => ?_
    refine Guarantees.bind Guarantees.lift fun _ u hu => ?_
    obtain ⟨-, rfl⟩ := hu
    refine Guarantees.pure fun call hcall => ?_
    cases hcall
    exact ⟨rfl, ho, ho⟩

/-- The saves that a method may make while a call of the run is suspended: they keep terminal
statuses, and an open run open. -/
def KeepsOpen (s : WorkflowRun) (w : Write) : Prop :=
  KeepsTerminal s w ∧ (s.Open → (tracked s w).Open)

omit [PyLib] in
theorem keepsOpen_save {s r : WorkflowRun} (hid : r.id = s.id) (hs : s.status.terminal = false)
    (hp : r.PointWaits) (ho : s.Open → r.Open) :
    Steps KeepsOpen tracked s (save r).written := by
  refine ⟨⟨⟨hid, fun h => ?_, hp⟩, ho⟩, trivial⟩
  rw [hs] at h
  cases h

/-- `pause` and `mark_interrupted` keep the pending decision with the paused run. -/
theorem pause_keepsOpen (s : WorkflowRun) : Steps KeepsOpen tracked s (pause now s).written := by
  unfold pause
  split
  · trivial
  · exact keepsOpen_save rfl (Bool.eq_false_iff.2 ‹_›) (fun _ => .inr rfl) fun ho => ⟨rfl, ho.point⟩

theorem markInterrupted_keepsOpen (s : WorkflowRun) (reason : String) :
    Steps KeepsOpen tracked s (markInterrupted now s reason).written := by
  unfold markInterrupted
  split
  · trivial
  · exact keepsOpen_save rfl (Bool.eq_false_iff.2 (not_or.1 ‹_›).1) (fun _ => .inr rfl)
      fun ho => ⟨rfl, ho.point⟩

omit [PyLib] in
theorem resume_keepsOpen (s : WorkflowRun) (context : Dict String Value) :
    Steps KeepsOpen tracked s (resume s context).written := by
  unfold resume
  split
  · have hs : s.status.terminal = false := by
      rcases ‹s.status = _ ∨ _› with h | h | h <;> rw [h] <;> rfl
    refine keepsOpen_save rfl hs (pointWaits_of_none rfl) fun _ => ⟨?_, rfl⟩
    by_cases h : s.fenced = true <;> simp [h, RunStatus.terminal]
  · trivial

omit [PyLib] in
theorem cancel_keepsTerminal (s : WorkflowRun) :
    Steps KeepsTerminal tracked s (cancel s).written := by
  unfold cancel
  split
  · trivial
  · refine ⟨⟨rfl, fun h => absurd h ‹_›, pointWaits_of_none rfl⟩, trivial⟩

/-- An accepted decision is one that the run waits for, so the run is not terminal. -/
theorem applyDecision_keepsTerminal {s : WorkflowRun} (hp : s.PointWaits)
    (submission : DecisionSubmission) :
    Guarantees KeepsTerminal tracked s (applyDecision now defs s submission)
      (fun _ _ => True) := by
  unfold applyDecision
  refine Guarantees.bind Guarantees.lift fun option t ht => ?_
  obtain ⟨hv, rfl⟩ := ht
  obtain ⟨point, hpoint, -⟩ := DecisionEngine.validate_point hv
  have hs : t.status.terminal = false := by
    have hne : t.decisionPoint ≠ none := by simp [hpoint]
    rcases hp hne with h | h <;> rw [h] <;> rfl
  refine Guarantees.ite (fun _ => save_last hs rfl (pointWaits_of_none rfl)) fun _ => ?_
  refine Guarantees.ite (fun _ => save_last hs rfl (pointWaits_of_none rfl)) fun _ => ?_
  refine Guarantees.ite (fun _ => save_last hs rfl (pointWaits_of_none rfl)) fun _ => ?_
  refine Guarantees.ite (fun _ => save_last hs rfl (pointWaits_of_none rfl)) fun _ => ?_
  refine Guarantees.bind Guarantees.lift fun definition t' ht => ?_
  obtain ⟨-, rfl⟩ := ht
  refine Guarantees.ite (fun _ => ?_) fun _ => save_last hs rfl (pointWaits_of_none rfl)
  refine advance_keepsTerminal hs ?_ ?_ _ _ _
  · rfl
  · rfl

end Sections

end Runtime

/-! ## The history -/

/-- A later happening respects an earlier save of a terminal run: the run is saved with no other
status, and no handler is started for it. -/
def Happening.Respects (later earlier : Happening) : Prop :=
  match earlier, later with
  | .saved r, .saved r' => r.status.terminal = true → r'.id = r.id → r'.status = r.status
  | .saved r, .started runId _ => r.status.terminal = true → runId ≠ r.id
  | _, _ => True

instance : DecidableRel Happening.Respects := fun later earlier => by
  unfold Happening.Respects
  split <;> infer_instance

/-- Terminal statuses are absorbing: everything that happens respects every earlier save. -/
def Absorbing (history : List Happening) : Prop :=
  history.Pairwise fun earlier later => later.Respects earlier

instance (history : List Happening) : Decidable (Absorbing history) :=
  inferInstanceAs (Decidable (history.Pairwise _))

/-- Only a save or the start of a handler can fail to respect an earlier save. -/
theorem respects_of_other {later : Happening} (hs : ∀ r, later ≠ .saved r)
    (hst : ∀ id a, later ≠ .started id a) (earlier : Happening) : later.Respects earlier := by
  unfold Happening.Respects
  split
  · exact absurd rfl (hs _)
  · exact absurd rfl (hst _ _)
  · trivial

/-- A save respects what came before when it keeps the status of every terminal save of its run. -/
theorem saved_respects {r : WorkflowRun} {earlier : Happening}
    (h : ∀ q, earlier = .saved q → q.status.terminal = true → r.id = q.id →
      r.status = q.status) : (Happening.saved r).Respects earlier := by
  cases earlier with
  | saved q => exact h q rfl
  | created | started | reconciled | fenced | asked | decided => trivial

/-- The start of a handler respects what came before when its run was not saved as terminal. -/
theorem started_respects {runId actionId : String} {earlier : Happening}
    (h : ∀ q, earlier = .saved q → q.status.terminal = true → runId ≠ q.id) :
    (Happening.started runId actionId).Respects earlier := by
  cases earlier with
  | saved q => exact h q rfl
  | created | started | reconciled | fenced | asked | decided => trivial

namespace RuntimeState

variable {ρ : Type} {coordinator : Option (ResourceCoordinator ρ)} {now : ℚ}

/-- What holds of the store and the history, apart from the suspended calls. -/
structure TerminalKept (st : RuntimeState ρ) : Prop where
  /-- Every run is stored under its own id. -/
  keyed : ∀ id r, st.runs.get? id = some r → r.id = id
  /-- A stored decision point is one that its run waits for. -/
  point : ∀ id r, st.runs.get? id = some r → r.PointWaits
  /-- A terminal status that was saved is the stored one. -/
  current : ∀ r, .saved r ∈ st.history → r.status.terminal = true →
    ∃ r', st.runs.get? r.id = some r' ∧ r'.status = r.status
  absorbing : Absorbing st.history

theorem TerminalKept.saved_same {st : RuntimeState ρ} (h : st.TerminalKept) {s : WorkflowRun}
    (hs : st.runs.get? s.id = some s) {q : WorkflowRun} (hq : .saved q ∈ st.history)
    (ht : q.status.terminal = true) (hid : q.id = s.id) : s.status = q.status := by
  obtain ⟨r', hr', hst⟩ := h.current q hq ht
  rw [hid, hs] at hr'
  cases hr'
  exact hst

/-- A write that keeps terminal statuses, on the stored run `s`. -/
theorem TerminalKept.apply {st : RuntimeState ρ} (h : st.TerminalKept) {s : WorkflowRun}
    (hs : st.runs.get? s.id = some s) {w : Write} (hw : KeepsTerminal s w) :
    (st.apply coordinator now w).TerminalKept := by
  cases w with
  | event e => exact ⟨h.keyed, h.point, h.current, h.absorbing⟩
  | run r =>
    obtain ⟨hid, hst, hp⟩ := hw
    refine ⟨fun id q hq => ?_, fun id q hq => ?_, fun q hq ht => ?_, ?_⟩
    · rw [get?_apply_run] at hq
      split at hq
      · cases hq
        exact (‹id = r.id›).symm
      · exact h.keyed id q hq
    · rw [get?_apply_run] at hq
      split at hq
      · cases hq
        exact hp
      · exact h.point id q hq
    · rw [history_apply_run, List.mem_append, List.mem_cons] at hq
      rw [get?_apply_run]
      rcases hq with hq | hq | hq
      · by_cases hqr : q.id = r.id
        · have hsame := h.saved_same hs hq ht (hqr.trans hid)
          rw [if_pos hqr]
          exact ⟨r, rfl, (hst (hsame ▸ ht)).trans hsame⟩
        · rw [if_neg hqr]
          exact h.current q hq ht
      · obtain rfl := Happening.saved.inj hq
        exact ⟨q, if_pos rfl, rfl⟩
      · obtain ⟨_, _, hq⟩ := mem_askedBy hq
        cases hq
    · rw [history_apply_run]
      refine List.pairwise_append.2 ⟨h.absorbing, ?_, fun e he e' he' => ?_⟩
      · refine List.pairwise_cons.2 ⟨fun e' he' => ?_, ?_⟩
        · obtain ⟨_, _, rfl⟩ := mem_askedBy he'
          exact respects_of_other (by simp) (by simp) _
        · refine List.pairwise_of_forall_mem_list fun e _ e' he' => ?_
          obtain ⟨_, _, rfl⟩ := mem_askedBy he'
          exact respects_of_other (by simp) (by simp) e
      · rcases List.mem_cons.1 he' with rfl | he'
        · refine saved_respects fun q hq ht hqr => ?_
          subst hq
          have hsame := h.saved_same hs he ht (hqr.symm.trans hid)
          exact (hst (hsame ▸ ht)).trans hsame
        · obtain ⟨_, _, rfl⟩ := mem_askedBy he'
          exact respects_of_other (by simp) (by simp) e

variable (coordinator now) in
/-- The writes of a section that keeps terminal statuses. -/
theorem TerminalKept.commit {st : RuntimeState ρ} (h : st.TerminalKept) {s : WorkflowRun}
    (hs : st.runs.get? s.id = some s) {ws : List Write} (hw : Steps KeepsTerminal tracked s ws) :
    (ws.foldl tracked s).id = s.id ∧
      (st.commit coordinator now ws).runs.get? s.id = some (ws.foldl tracked s) ∧
        (st.commit coordinator now ws).TerminalKept := by
  refine commit_induction (P := fun st _ => st.TerminalKept) (fun st s w hs hP hw => ⟨?_, ?_⟩)
    hs h hw
  · cases w with
    | run r => exact hw.1
    | event e => rfl
  · exact hP.apply hs hw

theorem sameRun_of_keepsTerminal {s : WorkflowRun} {ws : List Write}
    (hw : Steps KeepsTerminal tracked s ws) : Steps SameRun tracked s ws := by
  refine hw.imp (I := fun _ => True) (fun t w _ h => ⟨?_, trivial⟩) trivial
  cases w with
  | run r => exact h.1
  | event e => trivial

/-- The invariant: what holds of the store, and of the suspended calls that no step may yet have
overtaken. -/
structure Orderly (st : RuntimeState ρ) : Prop where
  kept : st.TerminalKept
  numbered : ∀ n c, st.calls.get? n = some c → n < st.nextCall
  /-- A suspended call holds an open snapshot of a run that is stored open. -/
  snapshot : ∀ n c, st.calls.get? n = some c →
    c.run.Open ∧ ∃ r, st.runs.get? c.run.id = some r ∧ r.Open
  /-- At most one call of a run is suspended. -/
  one : ∀ n m c d, st.calls.get? n = some c → st.calls.get? m = some d → c.run.id = d.run.id →
    n = m

/-- The invariant looks at the runs, the calls and the history only. -/
theorem Orderly.congr {st st' : RuntimeState ρ} (h : st.Orderly) (hruns : st'.runs = st.runs)
    (hcalls : st'.calls = st.calls) (hnext : st'.nextCall = st.nextCall)
    (hhistory : st'.history = st.history) : st'.Orderly := by
  refine ⟨⟨?_, ?_, ?_, ?_⟩, ?_, ?_, ?_⟩
  · rw [hruns]
    exact h.kept.keyed
  · rw [hruns]
    exact h.kept.point
  · rw [hruns, hhistory]
    exact h.kept.current
  · rw [hhistory]
    exact h.kept.absorbing
  · rw [hcalls, hnext]
    exact h.numbered
  · rw [hcalls, hruns]
    exact h.snapshot
  · rw [hcalls]
    exact h.one

variable (coordinator now) in
/-- A section on a run whose suspended call, if there is one, stays on an open run. -/
theorem Orderly.commit {st : RuntimeState ρ} (h : st.Orderly) {s : WorkflowRun}
    (hs : st.runs.get? s.id = some s) {ws : List Write} (hw : Steps KeepsTerminal tracked s ws)
    (hopen : st.NoCall s.id ∨ (ws.foldl tracked s).Open) :
    (st.commit coordinator now ws).Orderly := by
  obtain ⟨hid, hlast, hkept⟩ := h.kept.commit coordinator now hs hw
  refine ⟨hkept, ?_, fun n c hc => ?_, ?_⟩
  · rw [calls_commit, nextCall_commit]
    exact h.numbered
  · rw [calls_commit] at hc
    obtain ⟨hrun, r, hr, hro⟩ := h.snapshot n c hc
    refine ⟨hrun, ?_⟩
    by_cases hcs : c.run.id = s.id
    · rw [hcs, hlast]
      rcases hopen with hidle | hopen
      · exact absurd hcs (hidle n c hc)
      · exact ⟨_, rfl, hopen⟩
    · rw [get?_commit_of_ne (sameRun_of_keepsTerminal hw) hcs]
      exact ⟨r, hr, hro⟩
  · rw [calls_commit]
    exact h.one

/-- A happening that is neither a save nor the start of a handler is always in order. -/
theorem Orderly.note {st : RuntimeState ρ} (h : st.Orderly) (es : List Happening)
    (hes : ∀ e ∈ es, (∀ r, e ≠ .saved r) ∧ ∀ id a, e ≠ .started id a) :
    (st.note es).Orderly := by
  refine ⟨⟨h.kept.keyed, h.kept.point, fun r hr => ?_, ?_⟩, h.numbered, h.snapshot, h.one⟩
  · rcases List.mem_append.1 hr with hr | hr
    · exact h.kept.current r hr
    · exact absurd rfl ((hes _ hr).1 r)
  · refine List.pairwise_append.2 ⟨h.kept.absorbing, ?_, fun e _ e' he' => ?_⟩
    · exact List.pairwise_of_forall_mem_list fun e _ e' he' =>
        respects_of_other (hes e' he').1 (hes e' he').2 e
    · exact respects_of_other (hes e' he').1 (hes e' he').2 e

theorem Orderly.issue {st : RuntimeState ρ} (h : st.Orderly) (issued : List String) :
    ({ st with issued := issued } : RuntimeState ρ).Orderly := h.congr rfl rfl rfl rfl

/-- The calls may end, and their local variables other than the snapshot may change. -/
theorem Orderly.recall {st : RuntimeState ρ} (h : st.Orderly) {calls : Dict ℕ Call}
    (hcalls : ∀ n c, calls.get? n = some c → ∃ c', st.calls.get? n = some c' ∧ c'.run = c.run) :
    ({ st with calls := calls } : RuntimeState ρ).Orderly := by
  refine ⟨⟨h.kept.keyed, h.kept.point, h.kept.current, h.kept.absorbing⟩, fun n c hc => ?_,
    fun n c hc => ?_, fun n m c d hc hd heq => ?_⟩
  · obtain ⟨c', hc', -⟩ := hcalls n c hc
    exact h.numbered n c' hc'
  · obtain ⟨c', hc', hrun⟩ := hcalls n c hc
    exact hrun ▸ h.snapshot n c' hc'
  · obtain ⟨c', hc', hrunc⟩ := hcalls n c hc
    obtain ⟨d', hd', hrund⟩ := hcalls m d hd
    exact h.one n m c' d' hc' hd' (by rw [hrunc, hrund, heq])

/-- Ending a call. -/
theorem Orderly.ended {st : RuntimeState ρ} (h : st.Orderly) (call : ℕ) :
    ({ st with calls := st.calls.erase call } : RuntimeState ρ).Orderly := by
  refine h.recall fun n c hc => ?_
  rw [Dict.get?_erase] at hc
  split at hc
  · cases hc
  · exact ⟨c, hc, rfl⟩

/-- The run of a call that has just ended is idle. -/
theorem Orderly.idle_ended {st : RuntimeState ρ} (h : st.Orderly) {call : ℕ} {c : Call}
    (hc : st.calls.get? call = some c) :
    ({ st with calls := st.calls.erase call } : RuntimeState ρ).NoCall c.run.id := by
  intro n d hd heq
  simp only at hd
  rw [Dict.get?_erase] at hd
  split at hd
  · cases hd
  · exact absurd (h.one n call d c hd hc heq) ‹_›

/-- Suspending a call of an idle run that is stored open. -/
theorem Orderly.suspend [PyLib] {st : RuntimeState ρ} (h : st.Orderly) {call : Call}
    (hidle : st.NoCall call.run.id) (hrun : call.run.Open) {r : WorkflowRun}
    (hr : st.runs.get? call.run.id = some r) (hro : r.Open) :
    (st.suspend coordinator now call).Orderly := by
  obtain ⟨hruns, hcalls, hnext, hhistory⟩ :=
    executionRun_frame coordinator now st call.run
  unfold RuntimeState.suspend
  split
  · rename_i he
    rw [he] at hruns hcalls hnext hhistory
    exact h.congr hruns hcalls hnext hhistory
  rename_i st' he
  rw [he] at hruns hcalls hnext hhistory
  have h' := h.congr hruns hcalls hnext hhistory
  rw [← hruns] at hr
  have hidle' : st'.NoCall call.run.id := fun n c hc => hidle n c (hcalls ▸ hc)
  have hget : ∀ n c, (st'.calls.set st'.nextCall call).get? n = some c →
      (n = st'.nextCall ∧ c = call) ∨ (n ≠ st'.nextCall ∧ st'.calls.get? n = some c) := by
    intro n c hc
    rw [Dict.get?_set] at hc
    split at hc
    · exact .inl ⟨‹_›, (Option.some.inj hc).symm⟩
    · exact .inr ⟨‹_›, hc⟩
  have hstarted : ∀ e ∈ startedBy call, ∃ a, e = .started call.run.id a := by
    intro e he
    cases call with
    | handler run state action _ _ _ => exact ⟨action.id, List.mem_singleton.1 he⟩
    | reconcile _ _ _ _ => cases he
    | recover _ _ _ _ _ => cases he
  refine ⟨⟨h'.kept.keyed, h'.kept.point, fun q hq ht => ?_, ?_⟩, fun n c hc => ?_,
    fun n c hc => ?_, fun n m c d hc hd heq => ?_⟩
  · rcases List.mem_append.1 hq with hq | hq
    · exact h'.kept.current q hq ht
    · obtain ⟨a, ha⟩ := hstarted _ hq
      cases ha
  · refine List.pairwise_append.2 ⟨h'.kept.absorbing, ?_, fun e hmem e' he' => ?_⟩
    · refine List.pairwise_of_forall_mem_list fun e he e' _ => ?_
      obtain ⟨a, rfl⟩ := hstarted e he
      trivial
    · -- A handler starts only for a run that is stored open, so no terminal save came before.
      obtain ⟨a, rfl⟩ := hstarted e' he'
      refine started_respects fun q hq ht hid => ?_
      subst hq
      obtain ⟨q', hq', hst⟩ := h'.kept.current q hmem ht
      rw [← hid, hr] at hq'
      cases hq'
      rw [← hst, hro.status] at ht
      cases ht
  · rcases hget n c hc with ⟨rfl, -⟩ | ⟨-, hc⟩
    · exact Nat.lt_succ_self _
    · exact (h'.numbered n c hc).trans (Nat.lt_succ_self _)
  · rcases hget n c hc with ⟨-, rfl⟩ | ⟨-, hc⟩
    · exact ⟨hrun, r, hr, hro⟩
    · exact h'.snapshot n c hc
  · rcases hget n c hc with ⟨rfl, rfl⟩ | ⟨-, hc'⟩ <;>
      rcases hget m d hd with ⟨rfl, rfl⟩ | ⟨-, hd'⟩
    · rfl
    · exact absurd heq.symm (hidle' m d hd')
    · exact absurd heq (hidle' n c hc')
    · exact h'.one n m c d hc' hd' heq

/-- A section of an idle run takes effect. -/
theorem Orderly.perform [PyLib] {st : RuntimeState ρ} (h : st.Orderly) {s : WorkflowRun}
    (hs : st.runs.get? s.id = some s) (hidle : st.NoCall s.id) {m : SaveM Outcome}
    (hm : Guarantees KeepsTerminal tracked s m (Runtime.EndsOpen s)) :
    (st.perform coordinator now m).Orderly := by
  have hcommit := h.commit coordinator now hs hm.steps (.inl hidle)
  obtain ⟨-, hlast, -⟩ := h.kept.commit coordinator now hs hm.steps
  unfold RuntimeState.perform
  dsimp only
  split
  · rename_i call heq
    obtain ⟨hid, hrun, hopen⟩ := hm.returned _ heq call rfl
    refine hcommit.suspend ?_ hrun (hid ▸ hlast) hopen
    intro n c hc
    rw [calls_commit] at hc
    exact hid ▸ hidle n c hc
  · exact hcommit

end RuntimeState

namespace Runtime

open RuntimeState

section Machine

variable {ρ : Type} [PyLib] {coordinator : Option (ResourceCoordinator ρ)} {cfg : RuntimeConfig}

/-- The inputs under which terminal statuses stay: a run is started under a new id; a run is ticked,
reconciled or cancelled only while none of its calls is suspended; and a run is reconciled only
where it is neither terminal nor waiting for a decision. -/
def Unoverlapped (st : RuntimeState ρ) : RuntimeInput → Prop
  | .start _ _ _ (some runId) => runId = "" ∨ runId ∉ st.runs.keys
  | .tick runId => st.Idle runId
  | .reconcile runId _ => st.Idle runId ∧ ∀ r ∈ st.runs.get? runId, r.Open
  | .cancel runId => st.Idle runId
  | _ => True

omit [PyLib] in
instance (r : WorkflowRun) : Decidable r.Open :=
  decidable_of_iff (r.status.terminal = false ∧ r.decisionPoint.isNone = true)
    ⟨fun h => ⟨h.1, Option.isNone_iff_eq_none.1 h.2⟩,
      fun h => ⟨h.status, Option.isNone_iff_eq_none.2 h.point⟩⟩

instance (st : RuntimeState ρ) (input : RuntimeInput) : Decidable (Unoverlapped st input) :=
  match input with
  | .start _ _ _ (some runId) => inferInstanceAs (Decidable (runId = "" ∨ runId ∉ st.runs.keys))
  | .tick runId => inferInstanceAs (Decidable (st.Idle runId))
  | .reconcile runId _ =>
    inferInstanceAs (Decidable (st.Idle runId ∧ ∀ r ∈ st.runs.get? runId, r.Open))
  | .cancel runId => inferInstanceAs (Decidable (st.Idle runId))
  | .start _ _ _ none | .registerDefinition _ | .markInterrupted .. | .recoverInflight ..
  | .pause _ | .resume .. | .applyDecision .. | .emit .. | .lateEmit .. | .finish ..
  | .reconciled .. | .abort _ | .restart => .isTrue trivial

omit [PyLib] in
theorem withRun_orderly {st : RuntimeState ρ} (h : st.Orderly) {runId : String}
    {f : WorkflowRun → RuntimeState ρ}
    (hf : ∀ run, st.runs.get? run.id = some run → run.id = runId → (f run).Orderly) :
    (withRun st runId f).Orderly := by
  unfold withRun
  split
  · rename_i run hrun
    have hid := h.kept.keyed runId run hrun
    exact hf run (hid ▸ hrun) hid
  · exact h

omit [PyLib] in
/-- A method that keeps an open run open may be called at any time. -/
theorem performNow_orderly {st : RuntimeState ρ} (h : st.Orderly) {now : ℚ} {run : WorkflowRun}
    (hrun : st.runs.get? run.id = some run) {m : SaveM WorkflowRun}
    (hm : Steps KeepsOpen tracked run m.written) :
    (performNow coordinator now st m).Orderly := by
  have hkeeps : Steps KeepsTerminal tracked run m.written :=
    hm.imp (I := fun _ => True) (fun t w _ hw => ⟨hw.1, trivial⟩) trivial
  refine h.commit coordinator now hrun hkeeps ?_
  by_cases hidle : st.NoCall run.id
  · exact .inl hidle
  · -- The run has a suspended call, so it is stored open, and stays so.
    simp only [NoCall, not_forall, not_not] at hidle
    obtain ⟨n, c, hc, hid⟩ := hidle
    obtain ⟨-, r, hr, hro⟩ := h.snapshot n c hc
    rw [hid, hrun] at hr
    cases hr
    exact .inr (hm.invariant (I := WorkflowRun.Open) (fun t w ht hw => hw.2 ht) hro)

omit [PyLib] in
/-- A run is stored under a new id. -/
theorem created_orderly {st st' : RuntimeState ρ} (h : st.Orderly) {run : WorkflowRun}
    (hnew : run.id ∉ st.runs.keys) (hpoint : run.decisionPoint = none)
    (hruns : st'.runs = st.runs.set run.id run) (hcalls : st'.calls = st.calls)
    (hnext : st'.nextCall = st.nextCall) (hhistory : st'.history = st.history ++ [.created run]) :
    st'.Orderly := by
  have hnone : st.runs.get? run.id = none := (Dict.get?_eq_none_iff _ _).2 hnew
  have hget : ∀ id, st'.runs.get? id = if id = run.id then some run else st.runs.get? id := by
    intro id
    rw [hruns, Dict.get?_set]
  have hold : ∀ id r, st.runs.get? id = some r → st'.runs.get? id = some r := by
    intro id r hr
    rw [hget, if_neg (fun heq => by rw [heq, hnone] at hr; cases hr), hr]
  refine ⟨⟨fun id r hr => ?_, fun id r hr => ?_, fun r hr ht => ?_, ?_⟩, ?_, fun n c hc => ?_, ?_⟩
  · rw [hget] at hr
    split at hr
    · cases hr
      exact (‹id = run.id›).symm
    · exact h.kept.keyed id r hr
  · rw [hget] at hr
    split at hr
    · cases hr
      exact pointWaits_of_none hpoint
    · exact h.kept.point id r hr
  · rw [hhistory] at hr
    rcases List.mem_append.1 hr with hr | hr
    · obtain ⟨r', hr', hst⟩ := h.kept.current r hr ht
      exact ⟨r', hold _ _ hr', hst⟩
    · cases List.mem_singleton.1 hr
  · rw [hhistory]
    refine List.pairwise_append.2 ⟨h.kept.absorbing, List.pairwise_singleton _ _,
      fun e _ e' he' => ?_⟩
    obtain rfl := List.mem_singleton.1 he'
    exact respects_of_other (by simp) (by simp) e
  · rw [hcalls, hnext]
    exact h.numbered
  · rw [hcalls] at hc
    obtain ⟨hrun, r, hr, hro⟩ := h.snapshot n c hc
    exact ⟨hrun, r, hold _ _ hr, hro⟩
  · rw [hcalls]
    exact h.one

theorem start_orderly {st : RuntimeState ρ} (h : st.Orderly) (now : ℚ)
    (definition : WorkflowDefinition) (deviceId : String) (context : Dict String Value)
    (runId : Option String) (hid : ∀ id, runId = some id → id = "" ∨ id ∉ st.runs.keys) :
    (start coordinator now st definition deviceId context runId).2.Orderly := by
  have hnew := newRunId_not_mem_keys hid
  unfold start
  split
  · exact h
  dsimp only
  split
  · exact created_orderly h hnew (by rfl) rfl rfl rfl rfl
  · split
    · exact created_orderly h hnew (by rfl) rfl rfl rfl rfl
    · exact h.congr rfl rfl rfl rfl

omit [PyLib] in
theorem fenceNote_orderly {st : RuntimeState ρ} (h : st.Orderly) (run : WorkflowRun)
    (m : SaveM WorkflowRun) : (st.note (fenceNote run m)).Orderly := by
  refine h.note _ fun e he => ?_
  unfold fenceNote at he
  split at he
  · cases he
  · obtain rfl := List.mem_singleton.1 he
    exact ⟨by simp, by simp⟩

theorem interrupt_orderly {st : RuntimeState ρ} (h : st.Orderly) (now : ℚ)
    (runId reason : String) : (interrupt coordinator now st runId reason).Orderly := by
  unfold interrupt
  refine withRun_orderly h fun run hrun _ => ?_
  exact fenceNote_orderly (performNow_orderly h hrun (markInterrupted_keepsOpen now run reason)) _ _

variable (coordinator) in
omit [PyLib] in
/-- Events may be emitted at any time. -/
theorem appendActionEvent_orderly {st : RuntimeState ρ} (h : st.Orderly) (now : ℚ)
    {run : WorkflowRun} (hrun : st.runs.get? run.id = some run) (events : List Event)
    (event : Event) (actionId : String) :
    (st.commit coordinator now (appendActionEvent events run event actionId).written).Orderly := by
  refine performNow_orderly (m := ⟨_, .ok run⟩) h hrun ?_
  refine (appendActionEvent_likens run events event actionId).steps.imp
    (I := WorkflowRun.PointWaits) (fun t w ht hw => ?_) (h.kept.point run.id run hrun)
  cases w with
  | run r => exact ⟨⟨⟨hw.id, fun _ => hw.status, hw.pointWaits ht⟩, hw.open_⟩, hw.pointWaits ht⟩
  | event e => exact ⟨⟨trivial, id⟩, ht⟩

/-- What a provider answers reaches a call with an open snapshot. -/
theorem resumeReconcile_keepsTerminal {s : WorkflowRun} (ho : s.Open) (now : ℚ) (uuid : String)
    (defs : Definitions) {call : Call} (hid : call.run.id = s.id) (hrun : call.run.Open)
    (outcome : ReconcileResult) {m : SaveM WorkflowRun}
    (hm : resumeReconcile cfg now uuid defs call outcome = some m) :
    Steps KeepsTerminal tracked s m.written := by
  cases call with
  | handler => cases hm
  | reconcile run state action _ =>
    cases hm
    exact (applyReconcile_keepsTerminal cfg now uuid defs ho.status hid hrun.point _ _ _).steps
  | recover run state _ recovery _ =>
    cases hm
    exact (recovered_keepsTerminal cfg now uuid defs ho.status hid hrun _ _ _).steps

/-- One step under the condition keeps the invariant. -/
theorem step_orderly {st : RuntimeState ρ} (h : st.Orderly) (input : ℚ × RuntimeInput)
    (hok : Unoverlapped st input.2) : (step coordinator cfg st input).Orderly := by
  obtain ⟨now, input⟩ := input
  cases input with
  | start definition deviceId context runId =>
    refine start_orderly h now definition deviceId context runId fun id hid => ?_
    subst hid
    exact hok
  | registerDefinition definition =>
    dsimp only [step]
    split
    · exact h.congr rfl rfl rfl rfl
    · exact h
  | tick runId =>
    refine withRun_orderly h fun run hrun hid => ?_
    have hidle : st.NoCall run.id := hid ▸ hok.noCall
    exact (h.issue (st.uuid4 :: st.issued)).perform hrun hidle
      (tick_keepsTerminal cfg now _ _ (h.kept.point _ _ hrun))
  | reconcile runId reason =>
    refine withRun_orderly h fun run hrun hid => ?_
    have hidle : st.NoCall run.id := hid ▸ hok.1.noCall
    have hopen : run.Open := hok.2 run (hid ▸ hrun)
    exact (h.issue (st.uuid4 :: st.issued)).perform hrun hidle (reconcile_keepsTerminal cfg _ _ hopen reason)
  | markInterrupted runId reason => exact interrupt_orderly h now runId reason
  | recoverInflight reason limit =>
    dsimp only [step]
    generalize (st.runs.values.take limit).filter _ = runs
    clear hok
    induction runs generalizing st with
    | nil => exact h
    | cons run runs ih => exact ih (interrupt_orderly h now run.id reason)
  | pause runId =>
    refine withRun_orderly h fun run hrun _ => ?_
    exact fenceNote_orderly (performNow_orderly h hrun (pause_keepsOpen now run)) _ _
  | resume runId context =>
    exact withRun_orderly h fun run hrun _ => performNow_orderly h hrun (resume_keepsOpen run context)
  | cancel runId =>
    refine withRun_orderly h fun run hrun hid => ?_
    exact h.commit coordinator now hrun (cancel_keepsTerminal run)
      (.inl (hid ▸ hok.noCall))
  | applyDecision runId submission =>
    refine withRun_orderly h fun run hrun _ => ?_
    cases hv : DecisionEngine.validate run submission with
    | error e =>
      simp only [decidedNote, hv, applyDecision_of_error now st.definitions hv]
      exact h.note _ (by simp)
    | ok option =>
      -- The run waits for a decision, so it is not open and has no suspended call.
      obtain ⟨point, hpoint, -⟩ := DecisionEngine.validate_point hv
      have hidle : st.NoCall run.id := fun n c hc hid => by
        obtain ⟨-, r, hr, hro⟩ := h.snapshot n c hc
        rw [hid, hrun] at hr
        cases hr
        rw [hro.point] at hpoint
        cases hpoint
      have hnote : (st.note (decidedNote run submission)).Orderly := by
        refine h.note _ fun e he => ?_
        simp only [decidedNote, hv, List.mem_singleton] at he
        subst he
        exact ⟨by simp, by simp⟩
      exact hnote.commit coordinator now hrun
        (applyDecision_keepsTerminal now st.definitions (h.kept.point _ _ hrun) submission).steps
        (.inl hidle)
  | emit call event =>
    dsimp only [step]
    split
    · exact h
    rename_i c hc
    refine withRun_orderly h fun run hrun _ => ?_
    have hst := appendActionEvent_orderly coordinator h now hrun st.events event c.action.id
    split
    · refine hst.recall fun n d hd => ?_
      rw [Dict.get?_set] at hd
      split at hd
      · cases hd
        exact ⟨c, by rw [calls_commit, ‹n = call›, hc], (emitted_run c _).symm⟩
      · exact ⟨d, hd, rfl⟩
    · exact hst
  | lateEmit runId actionId event =>
    exact withRun_orderly h fun run hrun _ =>
      appendActionEvent_orderly coordinator h now hrun st.events event actionId
  | finish call outcome =>
    dsimp only [step]
    split
    · rename_i snapshot state action attempt active events hc
      refine withRun_orderly (h.ended call) fun run hrun hid => ?_
      obtain ⟨-, r, hr, hro⟩ := h.snapshot call _ hc
      have hidle := h.idle_ended hc
      simp only [Call.run] at hr hidle
      rw [← hid] at hr hidle
      obtain rfl : r = run := Option.some.inj (hr.symm.trans hrun)
      exact ((h.ended call).issue (st.uuid4 :: st.issued)).perform hrun hidle
        (finishTick_keepsTerminal cfg now _ _ hro _ _ _ _ _ _ _)
    · exact h
  | reconciled call outcome =>
    dsimp only [step]
    split
    · exact h
    rename_i c hc
    split
    · exact h
    rename_i m hm
    obtain ⟨hrun, r, hr, hro⟩ := h.snapshot call c hc
    have hid := h.kept.keyed _ _ hr
    have hidle := h.idle_ended hc
    rw [← hid] at hr hidle
    have hnote := ((h.ended call).issue (st.uuid4 :: st.issued)).note
      [.reconciled c.run.id c.state.id outcome.classification] (by simp)
    exact hnote.commit coordinator now hr
      (resumeReconcile_keepsTerminal hro now _ _ hid.symm hrun outcome hm) (.inl hidle)
  | abort call => exact h.ended call
  | restart =>
    have hcalls : ({ st with calls := ∅ } : RuntimeState ρ).Orderly :=
      h.recall fun n c hc => by cases hc
    exact hcalls.congr rfl rfl rfl rfl

/-- In every run whose inputs do not overlap, terminal statuses are absorbing in every state. -/
theorem absorbing_of_unoverlapped (coordinator : Option (ResourceCoordinator ρ))
    (cfg : RuntimeConfig) (resources : ρ) (inputs : List (ℚ × RuntimeInput))
    (h : Machine.Meets (step coordinator cfg) (fun st i => Unoverlapped st i.2)
      { resources := resources } inputs) :
    Absorbing (reached coordinator cfg resources inputs).history := by
  have hinit : ({ resources := resources } : RuntimeState ρ).Orderly := by
    refine ⟨⟨?_, ?_, ?_, List.Pairwise.nil⟩, ?_, ?_, ?_⟩
    · intro _ _ h
      cases h
    · intro _ _ h
      cases h
    · intro _ h
      cases h
    · intro _ _ h
      cases h
    · intro _ _ h
      cases h
    · intro _ _ _ _ h
      cases h
  exact (h.invariant (fun st input hst hok => step_orderly hst input hok) hinit).kept.absorbing

end Machine

/-- A workflow of one state with one action. -/
def oneAction : WorkflowDefinition where
  id := "reload"
  version := "1"
  startState := "reload"
  states := [{ id := "reload", action := some ⟨"reload", "device.reload", [], 0, 1, {}, "normal"⟩ }]

/-- A runtime that has its handler. -/
def oneHandler : RuntimeConfig where
  actions := ["device.reload"]
  reconciliations := []

/-- `start`, `tick`, and the end of its handler, which succeeds after some other inputs. -/
def oneActionWith (before : List RuntimeInput) : List (ℚ × RuntimeInput) :=
  [(0, .start oneAction "device" ∅ (some "run")), (0, .tick "run")] ++ before.map ((0, ·)) ++
    [(0, .finish 0 (.result { status := .succeeded })), (0, .cancel "run")]

theorem absorbing_oneAction :
    Absorbing (@reached Unit .atEpoch none oneHandler () (oneActionWith [])).history :=
  @absorbing_of_unoverlapped Unit .atEpoch none oneHandler () (oneActionWith [])
    (by decide +kernel)

/-- A cancellation that lands while the handler of a tick runs is overwritten when it returns. -/
theorem not_absorbing_oneAction_cancel :
    ¬ Absorbing
      (@reached Unit .atEpoch none oneHandler () (oneActionWith [.cancel "run"])).history := by
  decide +kernel

end Runtime

end DeviceShell.Framework
