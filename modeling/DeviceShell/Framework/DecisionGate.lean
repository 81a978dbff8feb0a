import DeviceShell.Framework.Fence

/-!
# The decision gate

A run that waits for a decision has a pending decision point, and `pause` keeps the point while the
run is paused. The promise is that such a run goes on only by a decision: it keeps its point and its
status until a submission for the point is accepted, or until it is paused or cancelled, and no
point is accepted twice (`DecisionGate`).

`resume` drops the point of a run that waits (`not_decisionGate_resume`), and so do a public
`reconcile`, a call of an earlier tick that returns late, and a `start` under the run's id. The
promise is kept in every run in which none of them meets a pending decision
(`decisionGate_of_gateSafe`). The invariant is `Gating`: a point is pending only in a run that waits
or is paused, no two runs have the same point, and no pending point was accepted before.
-/

namespace DeviceShell.Framework

open Logged (Guarantees Steps)

/-- The run waits for a decision, or was paused while it did. -/
def WorkflowRun.awaitsDecision (r : WorkflowRun) : Bool :=
  r.status == .waitingDecision || r.status == .paused && r.decisionPoint.isSome

/-- What an input may do to a run that awaits a decision: leave its point and status, pause it with
its point, cancel it, or decide it with a submission that the engine accepts. -/
def GateKept (input : RuntimeInput) (r r' : WorkflowRun) : Prop :=
  (r'.decisionPoint = r.decisionPoint ∧
    (r'.status = r.status ∨ input = .pause r.id ∧ r'.status = .paused)) ∨
  input = .cancel r.id ∨
  ∃ submission option, input = .applyDecision r.id submission ∧
    DecisionEngine.validate r submission = .ok option

namespace Runtime

variable {ρ : Type} [PyLib]

/-- The decision point that an input's submission is accepted for: `apply_decision` returns. -/
def acceptedBy (st : RuntimeState ρ) (input : ℚ × RuntimeInput) : List String :=
  match input.2 with
  | .applyDecision runId submission =>
    match st.runs.get? runId with
    | some run =>
      match (applyDecision input.1 st.definitions run submission).result with
      | .ok _ => [submission.decisionPointId]
      | .error _ => []
    | none => []
  | _ => []

variable (coordinator : Option (ResourceCoordinator ρ)) (cfg : RuntimeConfig)

/-- The decision points accepted in a run, in order. -/
def acceptedIn : RuntimeState ρ → List (ℚ × RuntimeInput) → List String
  | _, [] => []
  | st, input :: rest => acceptedBy st input ++ acceptedIn (step coordinator cfg st input) rest

/-- The promise of the decision gate, over a run from empty stores. -/
structure DecisionGate (resources : ρ) (inputs : List (ℚ × RuntimeInput)) : Prop where
  /-- Every input leaves a run that awaits a decision at its gate, or is one that may move it. -/
  kept : ∀ before input after, inputs = before ++ input :: after → ∀ id r,
    (reached coordinator cfg resources before).runs.get? id = some r → r.awaitsDecision = true →
      ∃ r', (reached coordinator cfg resources (before ++ [input])).runs.get? id = some r' ∧
        GateKept input.2 r r'
  /-- No decision point is accepted twice. -/
  once : (acceptedIn coordinator cfg { resources := resources } inputs).Nodup

end Runtime

/-! ## Runs and saves at the gate -/

/-- A run without a pending decision. -/
structure WorkflowRun.Undecided (r : WorkflowRun) : Prop where
  point : r.decisionPoint = none
  status : r.status ≠ .waitingDecision

/-- A run with a pending decision, which waits for it or is paused. -/
structure WorkflowRun.Gated (r : WorkflowRun) : Prop where
  point : r.decisionPoint ≠ none
  status : r.status = .waitingDecision ∨ r.status = .paused

/-- A decision is pending exactly where the run waits or is paused with it. -/
def WorkflowRun.Balanced (r : WorkflowRun) : Prop := r.Undecided ∨ r.Gated

theorem WorkflowRun.Gated.awaits {r : WorkflowRun} (h : r.Gated) : r.awaitsDecision = true := by
  have hsome := Option.isSome_iff_ne_none.2 h.point
  rcases h.status with hs | hs <;> simp [WorkflowRun.awaitsDecision, hs, hsome]

theorem WorkflowRun.Undecided.not_awaits {r : WorkflowRun} (h : r.Undecided) :
    r.awaitsDecision = false := by
  simp [WorkflowRun.awaitsDecision, h.point, h.status]

theorem WorkflowRun.Balanced.gated {r : WorkflowRun} (h : r.Balanced)
    (ha : r.awaitsDecision = true) : r.Gated := by
  rcases h with h | h
  · rw [h.not_awaits] at ha
    cases ha
  · exact h

theorem WorkflowRun.Balanced.undecided {r : WorkflowRun} (h : r.Balanced)
    (ha : r.awaitsDecision = false) : r.Undecided := by
  rcases h with h | h
  · exact h
  · rw [h.awaits] at ha
    cases ha

theorem WorkflowRun.Balanced.of_like {r s : WorkflowRun} (h : s.Balanced)
    (hlike : WorkflowRun.Like r s) : r.Balanced := by
  rcases h with h | h
  · exact .inl ⟨hlike.point.trans h.point, hlike.status ▸ h.status⟩
  · exact .inr ⟨hlike.point ▸ h.point, hlike.status ▸ h.status⟩

/-- A run that keeps its point and its status stays at its gate. -/
theorem gateKept_of_same {input : RuntimeInput} {r r' : WorkflowRun}
    (hpoint : r'.decisionPoint = r.decisionPoint) (hstatus : r'.status = r.status) :
    GateKept input r r' := .inl ⟨hpoint, .inl hstatus⟩

/-- The saves of the run `id` that keep the balance, with a pending point only of the ids `A`. -/
def Admits (id : String) (A : String → Prop) : Write → Prop
  | .run r => r.id = id ∧ r.Balanced ∧ ∀ p, r.decisionPoint = some p → A p.id
  | .event _ => True

theorem Admits.mono {id : String} {A B : String → Prop} (hAB : ∀ x, A x → B x) {w : Write}
    (h : Admits id A w) : Admits id B w := by
  cases w with
  | run r => exact ⟨h.1, h.2.1, fun p hp => hAB _ (h.2.2 p hp)⟩
  | event e => trivial

theorem Admits.onRun {id : String} {A : String → Prop} {w : Write} (h : Admits id A w) :
    OnRun id w := by
  cases w with
  | run r => exact h.1
  | event e => trivial

/-- The id of the pending point of a run. -/
def WorkflowRun.PendingId (s : WorkflowRun) (x : String) : Prop :=
  ∃ p, s.decisionPoint = some p ∧ p.id = x

/-- A save without a pending decision is admitted everywhere. -/
theorem admits_undecided {id : String} {A : String → Prop} {r : WorkflowRun} (hid : r.id = id)
    (h : r.Undecided) : Admits id A (.run r) := by
  refine ⟨hid, .inl h, fun p hp => ?_⟩
  rw [h.point] at hp
  cases hp

/-- Saves of a run like the stored one have its point only. -/
theorem likens_admits {α : Type} {s : WorkflowRun} {m : SaveM α} {Q : α → WorkflowRun → Prop}
    (hs : s.Balanced) (h : Guarantees Likens tracked s m Q) :
    Guarantees (fun _ => Admits s.id s.PendingId) tracked s m Q := by
  refine h.imp (I := fun t => WorkflowRun.Like t s) (fun t w ht hw => ?_) (.refl s)
  cases w with
  | run r =>
    have hr : WorkflowRun.Like r s := WorkflowRun.Like.trans hw ht
    exact ⟨⟨hr.id, hs.of_like hr, fun p hp => ⟨p, hr.point ▸ hp, rfl⟩⟩, hr⟩
  | event e => exact ⟨trivial, ht⟩

/-- A run without a pending decision has no point to keep. -/
theorem WorkflowRun.Undecided.not_pendingId {s : WorkflowRun} (h : s.Undecided) (x : String) :
    ¬ s.PendingId x := by
  rintro ⟨p, hp, -⟩
  rw [h.point] at hp
  cases hp

namespace Runtime

variable {id uuid : String}

/-- A save of a run without a pending decision. -/
theorem save_admits {A : String → Prop} {s r : WorkflowRun} (hid : r.id = id) (hr : r.Undecided) :
    Guarantees (fun _ => Admits id A) tracked s (save r)
      (fun a t => a = r ∧ t = r) := by
  refine Guarantees.bind (Guarantees.write ?_) fun _ t ht => Guarantees.pure ⟨rfl, ht⟩
  exact admits_undecided hid hr

/-- A section that ends with such a save. -/
theorem save_admits' {A : String → Prop} {s r : WorkflowRun} (hid : r.id = id)
    (hr : r.Undecided) :
    Guarantees (fun _ => Admits id A) tracked s (save r) (fun _ t => t.Undecided) := by
  refine (save_admits hid hr).mono fun a t ht => ?_
  rw [ht.2]
  exact hr

theorem advance_admits {A : String → Prop} {s run : WorkflowRun} (hid : run.id = id)
    (hpoint : run.decisionPoint = none) (defs : Definitions) (next trigger : String) :
    Guarantees (fun _ => Admits id A) tracked s (advance defs run next trigger)
      (fun _ t => t.Undecided) := by
  unfold advance
  refine Guarantees.bind Guarantees.lift fun definition t ht => ?_
  refine Guarantees.ite (fun _ => ?_) fun _ => ?_
  · apply save_admits'
    · exact hid
    · exact ⟨hpoint, by simp⟩
  · refine Guarantees.bind Guarantees.lift fun state t ht => ?_
    apply save_admits'
    · exact hid
    · refine ⟨rfl, ?_⟩
      dsimp only
      split <;> simp

/-- A decision is asked with the fresh id, or the run fails. -/
theorem createDecision_admits {s run : WorkflowRun} (hid : run.id = id)
    (hpoint : run.decisionPoint = none) (state : StateNode) (reason : String)
    (error : Option (Dict String Value)) :
    Guarantees (fun _ => Admits id (· = uuid)) tracked s
      (createDecision uuid run state reason error) (fun _ _ => True) := by
  unfold createDecision
  refine Guarantees.ite (fun _ => ?_) fun _ => ?_
  · refine (save_admits' ?_ ?_).mono fun _ _ _ => trivial
    · exact hid
    · exact ⟨hpoint, by simp⟩
  · refine Guarantees.bind (Guarantees.write ?_) fun _ _ _ => Guarantees.pure trivial
    refine ⟨hid, .inr ⟨by simp, .inl rfl⟩, fun p hp => ?_⟩
    cases hp
    rfl

/-- A section that suspends keeps a snapshot without a pending decision. -/
def EndsUndecided (o : Outcome) : Prop := ∀ call, o = .suspended call → call.run.Undecided

theorem endsUndecided_returned (run : WorkflowRun) : EndsUndecided (.returned run) := by
  intro call h
  cases h

theorem endsUndecided_suspended {call : Call} (h : call.run.Undecided) :
    EndsUndecided (.suspended call) := by
  intro call' h'
  cases h'
  exact h

/-- A section that ends by returning the run of another one. -/
theorem returned_admits {s : WorkflowRun} {A : String → Prop} {m : SaveM WorkflowRun}
    {Q : WorkflowRun → WorkflowRun → Prop}
    (h : Guarantees (fun _ => Admits id A) tracked s m Q) :
    Guarantees (fun _ => Admits id A) tracked s (do return Outcome.returned (← m))
      (fun o _ => EndsUndecided o) :=
  h.bind fun r _ _ => Guarantees.pure (endsUndecided_returned r)

section Sections

variable [PyLib] (cfg : RuntimeConfig) (now : ℚ) (defs : Definitions)

theorem applyReconcile_admits {s run : WorkflowRun} (hid : run.id = id) (hrun : run.Undecided)
    (stateId : String) (mapping : Dict String String) (outcome : ReconcileResult) :
    Guarantees (fun _ => Admits id (· = uuid)) tracked s
      (applyReconcile cfg now uuid defs run stateId mapping outcome) (fun _ _ => True) := by
  unfold applyReconcile
  refine Guarantees.ite (fun _ => ?_) fun _ => ?_
  · refine (save_admits' ?_ ?_).mono fun _ _ _ => trivial
    · exact hid
    · exact ⟨hrun.point, by simp⟩
  refine Guarantees.bind (save_admits ?_ ?_) fun r t ht => ?_
  · exact hid
  · exact ⟨hrun.point, by simp⟩
  obtain ⟨hr, -⟩ := ht
  have hrid : r.id = id := by
    rw [hr]
    exact hid
  have hpoint : r.decisionPoint = none := by
    rw [hr]
    exact hrun.point
  clear hr
  refine Guarantees.bind Guarantees.lift fun definition t ht => ?_
  refine Guarantees.bind Guarantees.lift fun state t ht => ?_
  refine Guarantees.ite (fun _ => (advance_admits hrid hpoint _ _ _).mono fun _ _ _ => trivial)
    fun _ => ?_
  refine Guarantees.ite (fun _ => ?_) fun _ => createDecision_admits hrid hpoint _ _ _
  split
  · refine Guarantees.ite (fun _ => ?_) fun _ => createDecision_admits hrid hpoint _ _ _
    refine (save_admits' ?_ ?_).mono fun _ _ _ => trivial
    · exact hrid
    · exact ⟨hpoint, by simp⟩
  · exact createDecision_admits hrid hpoint _ _ _

theorem recovered_admits {s run : WorkflowRun} (hid : run.id = id) (hrun : run.Undecided)
    (state : StateNode) (recovery : Dict String Value) (outcome : ReconcileResult) :
    Guarantees (fun _ => Admits id (· = uuid)) tracked s
      (recovered cfg now uuid defs run state recovery outcome) (fun _ _ => True) := by
  unfold recovered
  refine Guarantees.ite (fun _ => ?_) fun _ => ?_
  · refine Guarantees.bind (save_admits ?_ ?_) fun r t ht => ?_
    · exact hid
    · exact ⟨hrun.point, hrun.status⟩
    refine (advance_admits ?_ ?_ _ _ _).mono fun _ _ _ => trivial
    · rw [ht.1]
      exact hid
    · rw [ht.1]
      exact hrun.point
  refine Guarantees.ite (fun _ => ?_) fun _ => ?_
  · refine (save_admits' ?_ ?_).mono fun _ _ _ => trivial
    · exact hid
    · exact ⟨hrun.point, by simp⟩
  refine Guarantees.ite (fun _ => ?_) fun _ => ?_
  · refine (save_admits' ?_ ?_).mono fun _ _ _ => trivial
    · exact hid
    · exact ⟨hrun.point, by simp⟩
  · refine Guarantees.bind (save_admits ?_ ?_) fun r t ht => ?_
    · exact hid
    · exact ⟨hrun.point, hrun.status⟩
    apply createDecision_admits
    · rw [ht.1]
      exact hid
    · rw [ht.1]
      exact hrun.point

theorem recover_admits {run : WorkflowRun} (hrun : run.Undecided) (state : StateNode) :
    Guarantees (fun _ => Admits run.id (· = uuid)) tracked run (recover cfg now uuid run state)
      (fun o _ => EndsUndecided o) := by
  unfold recover
  split
  · refine Guarantees.ite (fun _ => Guarantees.pure (endsUndecided_returned _)) fun _ => ?_
    split
    · exact returned_admits (createDecision_admits rfl hrun.point _ _ _)
    · refine Guarantees.ite
        (fun _ => returned_admits (createDecision_admits rfl hrun.point _ _ _)) fun _ => ?_
      refine Guarantees.bind Guarantees.lift fun _ t ht => ?_
      exact Guarantees.pure (endsUndecided_suspended hrun)
  · refine returned_admits (save_admits' rfl ?_)
    exact ⟨hrun.point, by simp⟩

theorem tick_admits {run : WorkflowRun} (hrun : run.Undecided) :
    Guarantees (fun _ => Admits run.id (· = uuid)) tracked run (tick cfg now uuid defs run)
      (fun o _ => EndsUndecided o) := by
  unfold tick
  refine Guarantees.ite (fun _ => Guarantees.pure (endsUndecided_returned _)) fun _ => ?_
  refine Guarantees.bind Guarantees.lift fun definition t ht => ?_
  obtain ⟨-, rfl⟩ := ht
  refine Guarantees.bind Guarantees.lift fun state t ht => ?_
  obtain ⟨-, rfl⟩ := ht
  refine Guarantees.ite (fun _ => recover_admits cfg now hrun state) fun _ => ?_
  refine Guarantees.ite (fun _ => returned_admits (save_admits' rfl ?_)) fun _ => ?_
  · exact ⟨hrun.point, by simp⟩
  split
  · exact Guarantees.ite (fun _ => returned_admits (advance_admits rfl hrun.point _ _ _))
      fun _ => returned_admits (createDecision_admits rfl hrun.point _ _ _)
  · refine Guarantees.bind (save_admits ?_ ?_) fun r t hr => ?_
    · rfl
    · exact ⟨hrun.point, hrun.status⟩
    refine Guarantees.bind Guarantees.lift fun _ t ht => ?_
    refine Guarantees.pure (endsUndecided_suspended ?_)
    rw [Call.run, hr.1]
    exact ⟨hrun.point, hrun.status⟩

theorem finishTick_admits {run : WorkflowRun} (hrun : run.Undecided) (events : List Event)
    (state : StateNode) (action : ActionSpec) (attempt active : ActionAttempt)
    (emitted : List Event) (result : ActionResult) :
    Guarantees (fun _ => Admits run.id (· = uuid)) tracked run
      (finishTick cfg now uuid defs events run state action attempt active emitted result)
      (fun o _ => EndsUndecided o) := by
  -- While the results are emitted the run stays like the stored one.
  have hlikens : ∀ {α : Type} {t : WorkflowRun} {m : SaveM α} {Q : α → WorkflowRun → Prop},
      WorkflowRun.Like t run → Guarantees Likens tracked t m Q →
        Guarantees (fun _ => Admits run.id (· = uuid)) tracked t m Q := by
    intro α t m Q ht hm
    have htu : t.Undecided := ⟨ht.point.trans hrun.point, ht.status ▸ hrun.status⟩
    refine (likens_admits (.inl htu) hm).imp (I := fun _ => True) (fun _ w _ hw => ⟨?_, trivial⟩)
      trivial
    exact ht.id ▸ hw.mono fun x hx => absurd hx (htu.not_pendingId x)
  unfold finishTick
  refine Guarantees.bind (hlikens (.refl run) (emitResults_likens _ _ _ _ _)) fun a t ht => ?_
  obtain ⟨rfl, hlike₁⟩ := ht
  refine Guarantees.bind (hlikens hlike₁ (save_likens (withActionFacts_like _ _ _)))
    fun _ r ht => ?_
  obtain ⟨rfl, hr⟩ := ht
  have hlike : WorkflowRun.Like r run := by
    rw [hr]
    exact (withActionFacts_like _ _ _).trans hlike₁
  refine Guarantees.ite (fun _ => ?_) fun _ => ?_
  · refine Guarantees.bind (hlikens hlike (replaceAttempt_likens _ _)) fun _ u hu => ?_
    obtain ⟨rfl, hlike₂⟩ := hu
    have hu := hlike₂.trans hlike
    exact returned_admits (advance_admits hu.id (hu.point.trans hrun.point) _ _ _)
  · refine Guarantees.bind (hlikens hlike (replaceAttempt_likens _ _)) fun _ u hu => ?_
    obtain ⟨rfl, hlike₂⟩ := hu
    have hu := hlike₂.trans hlike
    have hpoint := hu.point.trans hrun.point
    refine Guarantees.ite (fun _ => ?_) fun _ =>
      returned_admits (createDecision_admits hu.id hpoint _ _ _)
    refine Guarantees.bind (save_admits ?_ ?_) fun v t hv => ?_
    · exact hu.id
    · exact ⟨hpoint, by simp⟩
    refine Guarantees.bind Guarantees.lift fun _ t ht => ?_
    refine Guarantees.pure (endsUndecided_suspended ?_)
    rw [Call.run, hv.1]
    exact ⟨hpoint, by simp⟩

omit [PyLib] in
theorem reconcile_admits {run : WorkflowRun} (hrun : run.Undecided) (reason : String) :
    Guarantees (fun _ => Admits run.id (· = uuid)) tracked run (reconcile cfg uuid defs run reason)
      (fun o _ => EndsUndecided o) := by
  unfold reconcile
  refine Guarantees.bind Guarantees.lift fun _ t ht => ?_
  obtain ⟨-, rfl⟩ := ht
  refine Guarantees.bind Guarantees.lift fun state t ht => ?_
  obtain ⟨-, rfl⟩ := ht
  split
  · exact returned_admits (createDecision_admits rfl hrun.point _ _ _)
  · refine Guarantees.ite (fun _ => returned_admits (createDecision_admits rfl hrun.point _ _ _))
      fun _ => ?_
    refine Guarantees.bind Guarantees.lift fun _ u hu => ?_
    exact Guarantees.pure (endsUndecided_suspended hrun)

theorem resumeReconcile_admits {call : Call} (hcall : call.run.Undecided)
    (outcome : ReconcileResult) {m : SaveM WorkflowRun}
    (hm : resumeReconcile cfg now uuid defs call outcome = some m) :
    Guarantees (fun _ => Admits call.run.id (· = uuid)) tracked call.run m (fun _ _ => True) := by
  cases call with
  | handler => cases hm
  | reconcile run state action _ =>
    cases hm
    exact applyReconcile_admits cfg now defs rfl hcall _ _ _
  | recover run state _ recovery _ =>
    cases hm
    exact recovered_admits cfg now defs rfl hcall _ _ _

/-- A decision leaves the run without a pending decision. -/
theorem applyDecision_admits {A : String → Prop} (s : WorkflowRun)
    (submission : DecisionSubmission) :
    Guarantees (fun _ => Admits s.id A) tracked s (applyDecision now defs s submission)
      (fun _ t => t.Undecided) := by
  unfold applyDecision
  refine Guarantees.bind Guarantees.lift fun option t ht => ?_
  refine Guarantees.ite (fun _ => ?_) fun _ => ?_
  · apply save_admits'
    · rfl
    · exact ⟨rfl, by simp⟩
  refine Guarantees.ite (fun _ => ?_) fun _ => ?_
  · apply save_admits'
    · rfl
    · exact ⟨rfl, by simp⟩
  refine Guarantees.ite (fun _ => ?_) fun _ => ?_
  · apply save_admits'
    · rfl
    · exact ⟨rfl, by simp⟩
  refine Guarantees.ite (fun _ => ?_) fun _ => ?_
  · apply save_admits'
    · rfl
    · exact ⟨rfl, by simp⟩
  refine Guarantees.bind Guarantees.lift fun definition t' ht' => ?_
  refine Guarantees.ite (fun _ => ?_) fun _ => ?_
  · apply advance_admits
    · rfl
    · rfl
  · apply save_admits'
    · rfl
    · exact ⟨rfl, by simp⟩

end Sections

end Runtime

/-! ## The machine -/

namespace RuntimeState

variable {ρ : Type} {coordinator : Option (ResourceCoordinator ρ)} {now : ℚ}

/-- The invariant, `accepted` being the points accepted so far. -/
structure Gating (st : RuntimeState ρ) (accepted : List String) : Prop where
  keyed : st.Keyed
  balanced : ∀ id r, st.runs.get? id = some r → r.Balanced
  calls : ∀ n c, st.calls.get? n = some c → c.run.Undecided
  /-- A pending point is one that was asked, is pending in no other run and was not accepted. -/
  asked : ∀ id r x, st.runs.get? id = some r → r.PendingId x → x ∈ askedIn st.history
  distinct : ∀ id r id' r' x, st.runs.get? id = some r → st.runs.get? id' = some r' →
    r.PendingId x → r'.PendingId x → id = id'
  fresh : ∀ id r x, st.runs.get? id = some r → r.PendingId x → x ∉ accepted
  /-- An accepted point is one that was asked, and was accepted once. -/
  decided : ∀ x ∈ accepted, x ∈ askedIn st.history
  once : accepted.Nodup

/-- The ids `A` may be pending in the run `id`: none of them is pending in another one, and none was
accepted. -/
structure Reserved (st : RuntimeState ρ) (accepted : List String) (id : String)
    (A : String → Prop) : Prop where
  others : ∀ id' r x, id' ≠ id → st.runs.get? id' = some r → r.PendingId x → ¬ A x
  decided : ∀ x ∈ accepted, ¬ A x

variable {st : RuntimeState ρ} {accepted : List String}

/-- The point of the stored run stays reserved for it. -/
theorem Gating.reserved (h : st.Gating accepted) {s : WorkflowRun}
    (hs : st.runs.get? s.id = some s) : st.Reserved accepted s.id s.PendingId where
  others id' r x hne hr hx hsx := hne (h.distinct id' r s.id s x hr hs hx hsx)
  decided x hx hsx := h.fresh s.id s x hs hsx hx

/-- A fresh id is reserved for every run. -/
theorem Gating.reserved_uuid (h : st.Gating accepted) {id uuid : String}
    (huuid : uuid ∉ askedIn st.history) : st.Reserved accepted id (· = uuid) where
  others id' r x _ hr hx heq := huuid (heq ▸ h.asked id' r x hr hx)
  decided x hx heq := huuid (heq ▸ h.decided x hx)

theorem reserved_none {id : String} : st.Reserved accepted id fun _ => False where
  others _ _ _ _ _ _ := not_false
  decided _ _ := not_false

/-- The id of a stored run's point is recorded. -/
theorem mem_askedIn_apply {r : WorkflowRun} {x : String} (hx : r.PendingId x) :
    x ∈ askedIn (st.apply coordinator now (.run r)).history := by
  obtain ⟨p, hp, rfl⟩ := hx
  rw [history_apply_run, askedBy, hp]
  dsimp only
  by_cases hold : (st.history.filterMap Happening.pointId?).contains p.id
  · rw [if_pos hold]
    exact askedIn_subset _ (List.contains_iff_mem.1 hold)
  · rw [if_neg hold, askedIn, List.filterMap_append]
    apply List.mem_append_right
    simp [Happening.pointId?]

/-- One admitted save. -/
theorem Gating.apply_run (h : st.Gating accepted) {id : String} {A : String → Prop}
    (hA : st.Reserved accepted id A) {r : WorkflowRun} (hr : Admits id A (.run r)) :
    (st.apply coordinator now (.run r)).Gating accepted ∧
      (st.apply coordinator now (.run r)).Reserved accepted id A := by
  obtain ⟨rfl, hbalanced, hpoint⟩ := hr
  have hget : ∀ id' q, (st.apply coordinator now (.run r)).runs.get? id' = some q →
      id' = r.id ∧ q = r ∨ id' ≠ r.id ∧ st.runs.get? id' = some q := by
    intro id' q hq
    rw [get?_apply_run] at hq
    by_cases hid : id' = r.id
    · rw [if_pos hid] at hq
      exact .inl ⟨hid, (Option.some.inj hq).symm⟩
    · rw [if_neg hid] at hq
      exact .inr ⟨hid, hq⟩
  have hallowed : ∀ x, r.PendingId x → A x := by
    rintro x ⟨p, hp, rfl⟩
    exact hpoint p hp
  have hhistory : ∀ x ∈ askedIn st.history,
      x ∈ askedIn (st.apply coordinator now (.run r)).history := by
    intro x hx
    rw [history_apply_run]
    exact askedIn_subset x hx
  refine ⟨⟨?_, ?_, ?_, ?_, ?_, ?_, ?_, h.once⟩, ?_, hA.decided⟩
  · intro id' q hq
    rcases hget id' q hq with ⟨rfl, rfl⟩ | ⟨-, hq⟩
    · rfl
    · exact h.keyed id' q hq
  · intro id' q hq
    rcases hget id' q hq with ⟨-, rfl⟩ | ⟨-, hq⟩
    · exact hbalanced
    · exact h.balanced id' q hq
  · intro n c hc
    refine h.calls n c ?_
    rw [← hc]
    exact (releaseTerminal_calls _ _).symm ▸ rfl
  · intro id' q x hq hx
    rcases hget id' q hq with ⟨-, rfl⟩ | ⟨-, hq⟩
    · exact mem_askedIn_apply hx
    · exact hhistory x (h.asked id' q x hq hx)
  · intro id₁ q₁ id₂ q₂ x hq₁ hq₂ hx₁ hx₂
    rcases hget id₁ q₁ hq₁ with ⟨rfl, rfl⟩ | ⟨hne₁, hold₁⟩
    · rcases hget id₂ q₂ hq₂ with ⟨rfl, rfl⟩ | ⟨hne₂, hold₂⟩
      · rfl
      · exact absurd (hallowed x hx₁) (hA.others id₂ q₂ x hne₂ hold₂ hx₂)
    · rcases hget id₂ q₂ hq₂ with ⟨rfl, rfl⟩ | ⟨hne₂, hold₂⟩
      · exact absurd (hallowed x hx₂) (hA.others id₁ q₁ x hne₁ hold₁ hx₁)
      · exact h.distinct id₁ q₁ id₂ q₂ x hold₁ hold₂ hx₁ hx₂
  · intro id' q x hq hx hmem
    rcases hget id' q hq with ⟨-, rfl⟩ | ⟨-, hq⟩
    · exact hA.decided x hmem (hallowed x hx)
    · exact h.fresh id' q x hq hx hmem
  · exact fun x hx => hhistory x (h.decided x hx)
  · intro id' q x hne hq hx
    rcases hget id' q hq with ⟨rfl, -⟩ | ⟨-, hq⟩
    · exact absurd rfl hne
    · exact hA.others id' q x hne hq hx

/-- The invariant reads the runs, the calls and the points asked. -/
theorem Gating.congr {st' : RuntimeState ρ} (h : st.Gating accepted) (hruns : st'.runs = st.runs)
    (hcalls : ∀ n c, st'.calls.get? n = some c → c.run.Undecided)
    (hhistory : ∀ x ∈ askedIn st.history, x ∈ askedIn st'.history) : st'.Gating accepted where
  keyed := by
    rw [Keyed, hruns]
    exact h.keyed
  balanced := by
    rw [hruns]
    exact h.balanced
  calls := hcalls
  asked id r x hr hx := hhistory x (h.asked id r x (hruns ▸ hr) hx)
  distinct := by
    rw [hruns]
    exact h.distinct
  fresh := by
    rw [hruns]
    exact h.fresh
  decided x hx := hhistory x (h.decided x hx)
  once := h.once

/-- The writes of a section. -/
theorem Gating.commit (h : st.Gating accepted) {id : String} {A : String → Prop}
    (hA : st.Reserved accepted id A) {ws : List Write} (hw : ∀ w ∈ ws, Admits id A w) :
    (st.commit coordinator now ws).Gating accepted := by
  induction ws generalizing st with
  | nil => exact h
  | cons w ws ih =>
    have hrest : ∀ w' ∈ ws, Admits id A w' := fun w' hw' => hw w' (List.mem_cons_of_mem _ hw')
    cases w with
    | run r =>
      obtain ⟨h', hA'⟩ := h.apply_run hA (hw _ List.mem_cons_self)
      exact ih h' hA' hrest
    | event e => exact ih (h.congr rfl h.calls fun _ hx => hx) ⟨hA.others, hA.decided⟩ hrest

/-- The writes on one run leave the others. -/
theorem get?_commit_of_onRun {id : String} {ws : List Write} (hw : ∀ w ∈ ws, OnRun id w)
    {id' : String} (hne : id' ≠ id) :
    (st.commit coordinator now ws).runs.get? id' = st.runs.get? id' := by
  induction ws generalizing st with
  | nil => rfl
  | cons w ws ih =>
    have hrest : ∀ w' ∈ ws, OnRun id w' := fun w' hw' => hw w' (List.mem_cons_of_mem _ hw')
    refine (ih hrest).trans ?_
    cases w with
    | run r =>
      have hr : r.id = id := hw _ List.mem_cons_self
      rw [get?_apply_run, if_neg (hr ▸ hne)]
    | event e => rfl

/-- What a step does at the gate: the invariant holds after it, and a run that awaits a decision is
left there or moved by its input. -/
structure Passes (input : RuntimeInput) (st st' : RuntimeState ρ) (accepted : List String) :
    Prop where
  gating : st'.Gating accepted
  kept : ∀ id r, st.runs.get? id = some r → r.Gated →
    ∃ r', st'.runs.get? id = some r' ∧ GateKept input r r'

variable {input : RuntimeInput} {st' : RuntimeState ρ}

/-- A step that writes no run. -/
theorem passes_quiet (h : st.Gating accepted) (hruns : st'.runs = st.runs)
    (hcalls : ∀ n c, st'.calls.get? n = some c → c.run.Undecided)
    (hhistory : ∀ x ∈ askedIn st.history, x ∈ askedIn st'.history) :
    Passes input st st' accepted where
  gating := h.congr hruns hcalls hhistory
  kept _ r hr _ := ⟨r, hruns ▸ hr, gateKept_of_same rfl rfl⟩

/-- What follows a step and writes no run. -/
theorem Passes.congr {st'' : RuntimeState ρ} (h : Passes input st st' accepted)
    (hruns : st''.runs = st'.runs)
    (hcalls : ∀ n c, st''.calls.get? n = some c → c.run.Undecided)
    (hhistory : ∀ x ∈ askedIn st'.history, x ∈ askedIn st''.history) :
    Passes input st st'' accepted where
  gating := h.gating.congr hruns hcalls hhistory
  kept := by
    rw [hruns]
    exact h.kept

/-- A section on the run `id`, which is not gated or is moved by the input. -/
theorem passes_commit (st₀ : RuntimeState ρ) (h : st.Gating accepted) (hruns : st₀.runs = st.runs)
    (hcalls : ∀ n c, st₀.calls.get? n = some c → st.calls.get? n = some c)
    (hhistory : ∀ x ∈ askedIn st.history, x ∈ askedIn st₀.history) {id : String}
    {A : String → Prop} (hA : st.Reserved accepted id A) {ws : List Write}
    (hw : ∀ w ∈ ws, Admits id A w)
    (hkept : ∀ s, st.runs.get? id = some s → s.Gated →
      ∃ r', (st₀.commit coordinator now ws).runs.get? id = some r' ∧ GateKept input s r') :
    Passes input st (st₀.commit coordinator now ws) accepted where
  gating := by
    have h₀ : st₀.Gating accepted := h.congr hruns (fun n c hc => h.calls n c (hcalls n c hc)) hhistory
    refine h₀.commit ⟨?_, hA.decided⟩ hw
    rw [hruns]
    exact hA.others
  kept id' r hr hgated := by
    by_cases hid : id' = id
    · subst hid
      exact hkept r hr hgated
    · refine ⟨r, ?_, gateKept_of_same rfl rfl⟩
      rw [get?_commit_of_onRun (fun w hmem => (hw w hmem).onRun) hid, hruns]
      exact hr

/-- A section then suspends on a snapshot without a pending decision. -/
theorem Passes.suspend [PyLib] (h : Passes input st st' accepted) {call : Call}
    (hcall : call.run.Undecided) :
    Passes input st (st'.suspend coordinator now call) accepted := by
  obtain ⟨hruns, hcalls, -, hhistory⟩ := executionRun_frame coordinator now st' call.run
  unfold RuntimeState.suspend
  split
  · rename_i st₁ he
    rw [he] at hruns hcalls hhistory
    refine h.congr hruns (fun n c hc => ?_) fun x hx => ?_
    · exact h.gating.calls n c (hcalls ▸ hc)
    · exact hhistory ▸ hx
  · rename_i st₁ he
    rw [he] at hruns hcalls hhistory
    refine h.congr hruns (fun n c hc => ?_) fun x hx => ?_
    · rw [Dict.get?_set] at hc
      split at hc
      · cases hc
        exact hcall
      · exact h.gating.calls n c (hcalls ▸ hc)
    · have hx' : x ∈ askedIn st₁.history := hhistory ▸ hx
      exact askedIn_subset x hx'

/-- A section of a coroutine on a run without a pending decision. -/
theorem passes_perform [PyLib] (st₀ : RuntimeState ρ) (h : st.Gating accepted)
    (hruns : st₀.runs = st.runs)
    (hcalls : ∀ n c, st₀.calls.get? n = some c → st.calls.get? n = some c)
    (hhistory : st₀.history = st.history) {s : WorkflowRun} (hs : st.runs.get? s.id = some s)
    (hsu : s.Undecided) {m : SaveM Outcome}
    (hm : Guarantees (fun _ => Admits s.id (· = st.uuid4)) tracked s m
      (fun o _ => Runtime.EndsUndecided o)) :
    Passes input st (st₀.perform coordinator now m) accepted := by
  have huuid : st.uuid4 ∉ askedIn st.history := fun hmem =>
    st.uuid4_not_mem_usedIds (List.mem_append_right _ hmem)
  have hcommit : Passes input st (st₀.commit coordinator now m.written) accepted := by
    refine passes_commit st₀ h hruns hcalls (fun x hx => hhistory ▸ hx) (h.reserved_uuid huuid)
      (Logged.steps_forall.1 hm.steps) fun r hr hgated => ?_
    rw [hs] at hr
    cases hr
    exact absurd hsu.point hgated.point
  unfold RuntimeState.perform
  dsimp only
  split
  · rename_i call heq
    exact hcommit.suspend (hm.returned _ heq call rfl)
  · exact hcommit

/-- A point that is pending nowhere any more is accepted. -/
theorem Gating.accept (h : st.Gating accepted) {x : String} (hx : x ∈ askedIn st.history)
    (hnew : x ∉ accepted) (hfree : ∀ id r, st.runs.get? id = some r → ¬ r.PendingId x) :
    st.Gating (accepted ++ [x]) where
  keyed := h.keyed
  balanced := h.balanced
  calls := h.calls
  asked := h.asked
  distinct := h.distinct
  fresh id r y hr hy hmem := by
    rcases List.mem_append.1 hmem with hmem | hmem
    · exact h.fresh id r y hr hy hmem
    · rw [List.mem_singleton] at hmem
      exact hfree id r hr (hmem ▸ hy)
  decided y hmem := by
    rcases List.mem_append.1 hmem with hmem | hmem
    · exact h.decided y hmem
    · rw [List.mem_singleton] at hmem
      exact hmem ▸ hx
  once := by
    rw [List.nodup_append_comm, List.singleton_append, List.nodup_cons]
    exact ⟨hnew, h.once⟩

/-- A new run replaces one that is not gated. -/
theorem passes_created (h : st.Gating accepted) {run : WorkflowRun} (hrun : run.Undecided)
    (hold : ∀ r, st.runs.get? run.id = some r → r.awaitsDecision = false)
    (hruns : st'.runs = st.runs.set run.id run) (hcalls : st'.calls = st.calls)
    (hhistory : st'.history = st.history ++ [.created run]) :
    Passes input st st' accepted where
  gating := by
    have hsaved : (st.apply none 0 (.run run)).Gating accepted :=
      (h.apply_run reserved_none (admits_undecided rfl hrun)).1
    refine hsaved.congr ?_ ?_ fun x hx => ?_
    · rw [hruns, RuntimeState.apply, releaseTerminal_runs]
    · rw [hcalls]
      exact h.calls
    · rw [hhistory]
      refine askedIn_subset x ?_
      simpa [history_apply_run, askedBy, hrun.point, askedIn, Happening.pointId?] using hx
  kept id r hr hgated := by
    have hne : id ≠ run.id := by
      rintro rfl
      have hawaits := hgated.awaits
      rw [hold r hr] at hawaits
      cases hawaits
    refine ⟨r, ?_, gateKept_of_same rfl rfl⟩
    rw [hruns, Dict.get?_set_of_ne _ hne]
    exact hr

end RuntimeState

namespace Runtime

open RuntimeState

variable {ρ : Type}

/-- The inputs under which the gate holds: no run that awaits a decision is started again, resumed
or reconciled from outside, and no call returns to such a run. -/
def GateSafe (st : RuntimeState ρ) : RuntimeInput → Prop
  | .start _ _ _ runId => ∀ r ∈ st.runs.get? (st.newRunId runId), r.awaitsDecision = false
  | .reconcile runId _ => ∀ r ∈ st.runs.get? runId, r.awaitsDecision = false
  | .resume runId _ => ∀ r ∈ st.runs.get? runId, r.awaitsDecision = false
  | .finish call _ => ∀ c ∈ st.calls.get? call, ∀ r ∈ st.runs.get? c.run.id,
      r.awaitsDecision = false
  | .reconciled call _ => ∀ c ∈ st.calls.get? call, ∀ r ∈ st.runs.get? c.run.id,
      r.awaitsDecision = false
  | _ => True

instance (st : RuntimeState ρ) (input : RuntimeInput) : Decidable (GateSafe st input) :=
  match input with
  | .start _ _ _ runId =>
    inferInstanceAs (Decidable (∀ r ∈ st.runs.get? (st.newRunId runId), r.awaitsDecision = false))
  | .reconcile runId _ | .resume runId _ =>
    inferInstanceAs (Decidable (∀ r ∈ st.runs.get? runId, r.awaitsDecision = false))
  | .finish call _ | .reconciled call _ =>
    inferInstanceAs (Decidable (∀ c ∈ st.calls.get? call, ∀ r ∈ st.runs.get? c.run.id,
      r.awaitsDecision = false))
  | .registerDefinition _ | .tick _ | .markInterrupted .. | .recoverInflight .. | .pause _
  | .cancel _ | .applyDecision .. | .emit .. | .lateEmit .. | .abort _ | .restart => .isTrue trivial

/-- A fence keeps the point of the run. -/
theorem storesFence_admits {s : WorkflowRun} (hs : s.Balanced) {ws : List Write}
    (h : StoresFence s ws) : ∀ w ∈ ws, Admits s.id s.PendingId w := by
  rcases h with rfl | ⟨r, rfl, hid, -, hstatus, -, hpoint⟩
  · simp
  · intro w hw
    obtain rfl := List.mem_singleton.1 hw
    refine ⟨hid, ?_, fun p hp => ⟨p, hpoint ▸ hp, rfl⟩⟩
    rcases hs with hs | hs
    · exact .inl ⟨hpoint.trans hs.point, by simp [hstatus]⟩
    · exact .inr ⟨hpoint ▸ hs.point, .inr hstatus⟩

theorem resume_admits (s : WorkflowRun) (context : Dict String Value) :
    ∀ w ∈ (resume s context).written, Admits s.id (fun _ => False) w := by
  unfold resume
  split
  · intro w hw
    obtain rfl := List.mem_singleton.1 hw
    apply admits_undecided
    · rfl
    · refine ⟨rfl, ?_⟩
      dsimp only
      split <;> simp
  · intro w hw
    cases hw

theorem cancel_admits (s : WorkflowRun) :
    ∀ w ∈ (cancel s).written, Admits s.id (fun _ => False) w := by
  unfold cancel
  split
  · intro w hw
    cases hw
  · intro w hw
    obtain rfl := List.mem_singleton.1 hw
    apply admits_undecided
    · rfl
    · exact ⟨rfl, by simp⟩

section Machine

variable [PyLib] {coordinator : Option (ResourceCoordinator ρ)} {cfg : RuntimeConfig}
  {st : RuntimeState ρ} {accepted : List String}

/-- The gated runs of a state keep their points and statuses. -/
def GatesStay (st st' : RuntimeState ρ) : Prop := ∀ id r, st.runs.get? id = some r → r.Gated →
  ∃ r', st'.runs.get? id = some r' ∧ r'.decisionPoint = r.decisionPoint ∧ r'.status = r.status

omit [PyLib] in
theorem GatesStay.trans {st st' st'' : RuntimeState ρ} (h : GatesStay st st')
    (h' : GatesStay st' st'') : GatesStay st st'' := by
  intro id r hr hgated
  obtain ⟨r', hr', hpoint, hstatus⟩ := h id r hr hgated
  obtain ⟨r'', hr'', hpoint', hstatus'⟩ := h' id r' hr'
    ⟨hpoint ▸ hgated.point, hstatus ▸ hgated.status⟩
  exact ⟨r'', hr'', hpoint'.trans hpoint, hstatus'.trans hstatus⟩

omit [PyLib] in
/-- A call on the stored run. -/
theorem withRun_passes {st₀ : RuntimeState ρ} {input : RuntimeInput} {runId : String}
    {f : WorkflowRun → RuntimeState ρ} (h : st.Gating accepted) (hruns : st₀.runs = st.runs)
    (hnone : Passes input st st₀ accepted)
    (hf : ∀ run, st.runs.get? run.id = some run → run.id = runId →
      Passes input st (f run) accepted) :
    Passes input st (withRun st₀ runId f) accepted := by
  unfold withRun
  rw [hruns]
  split
  · rename_i run hrun
    have hid := h.keyed runId run hrun
    exact hf run (hid ▸ hrun) hid
  · exact hnone

omit [PyLib] in
/-- A step that does nothing. -/
theorem passes_self (h : st.Gating accepted) {input : RuntimeInput} :
    Passes input st st accepted := passes_quiet h rfl h.calls fun _ hx => hx

omit [PyLib] in
/-- A method that does not await, on a run that is not gated or that the input may move. -/
theorem passes_now (h : st.Gating accepted) {input : RuntimeInput} {now : ℚ} {s : WorkflowRun}
    (hs : st.runs.get? s.id = some s) {A : String → Prop} (hA : st.Reserved accepted s.id A)
    {ws : List Write} (hw : ∀ w ∈ ws, Admits s.id A w)
    (hkept : s.Gated → ∃ r', (st.commit coordinator now ws).runs.get? s.id = some r' ∧
      GateKept input s r') :
    Passes input st (st.commit coordinator now ws) accepted := by
  refine passes_commit st h rfl (fun _ _ hc => hc) (fun _ hx => hx) hA hw fun r hr hgated => ?_
  rw [hs] at hr
  cases hr
  exact hkept hgated

omit [PyLib] in
/-- A fence leaves a gated run paused with its point. -/
theorem fence_passes (h : st.Gating accepted) {input : RuntimeInput} {now : ℚ} {s : WorkflowRun}
    (hs : st.runs.get? s.id = some s) {m : SaveM WorkflowRun} (hm : StoresFence s m.written)
    (hinput : s.status = .waitingDecision → m.written = [] ∨ input = .pause s.id) :
    Passes input st ((performNow coordinator now st m).note (fenceNote s m)) accepted := by
  have hcommit : Passes input st (st.commit coordinator now m.written) accepted := by
    refine passes_now h hs (h.reserved hs) (storesFence_admits (h.balanced s.id s hs) hm)
      fun hgated => ?_
    rcases hm with hnil | ⟨r, hw, hid, -, hstatus, -, hpoint⟩
    · rw [hnil]
      exact ⟨s, hs, gateKept_of_same rfl rfl⟩
    · have hget : (st.commit coordinator now m.written).runs.get? s.id = some r := by
        rw [hw]
        exact (get?_apply_run st r s.id).trans (if_pos hid.symm)
      refine ⟨r, hget, ?_⟩
      rcases hgated.status with hwait | hpaused
      · have hpause : input = .pause s.id := by
          rcases hinput hwait with hnil | hpause
          · rw [hnil] at hw
            cases hw
          · exact hpause
        exact .inl ⟨hpoint, .inr ⟨hpause, hstatus⟩⟩
      · exact gateKept_of_same hpoint (hstatus.trans hpaused.symm)
  exact hcommit.congr rfl hcommit.gating.calls fun x hx => askedIn_subset x hx

/-- An interruption leaves every gate as it is. -/
theorem interrupt_gating (h : st.Gating accepted) (now : ℚ) (runId reason : String) :
    (interrupt coordinator now st runId reason).Gating accepted ∧
      GatesStay st (interrupt coordinator now st runId reason) := by
  have hpasses : Passes (.markInterrupted runId reason) st
      (interrupt coordinator now st runId reason) accepted := by
    refine withRun_passes h rfl (passes_self h) fun run hrun _ => ?_
    refine fence_passes h hrun (markInterrupted_storesFence now run reason) fun hwait => .inl ?_
    rw [markInterrupted, if_pos (.inr hwait)]
    rfl
  refine ⟨hpasses.gating, fun id r hr hgated => ?_⟩
  obtain ⟨r', hr', hkept⟩ := hpasses.kept id r hr hgated
  rcases hkept with ⟨hpoint, hstatus | ⟨hinput, -⟩⟩ | hinput | ⟨submission, option, hinput, -⟩
  · exact ⟨r', hr', hpoint, hstatus⟩
  · cases hinput
  · cases hinput
  · cases hinput

/-- The same, for several runs in turn. -/
theorem interrupts_gating (now : ℚ) (reason : String) (runs : List WorkflowRun)
    (h : st.Gating accepted) :
    (runs.foldl (fun st run => interrupt coordinator now st run.id reason) st).Gating accepted ∧
      GatesStay st (runs.foldl (fun st run => interrupt coordinator now st run.id reason) st) := by
  induction runs generalizing st with
  | nil => exact ⟨h, fun _ r hr _ => ⟨r, hr, rfl, rfl⟩⟩
  | cons run runs ih =>
    have hone : (interrupt coordinator now st run.id reason).Gating accepted ∧
        GatesStay st (interrupt coordinator now st run.id reason) :=
      interrupt_gating h now run.id reason
    obtain ⟨hgating, hstay⟩ := hone
    obtain ⟨hgating', hstay'⟩ := ih hgating
    exact ⟨hgating', hstay.trans hstay'⟩

omit [PyLib] in
theorem passes_of_gatesStay {st' : RuntimeState ρ} (h : st'.Gating accepted ∧ GatesStay st st')
    {input : RuntimeInput} : Passes input st st' accepted where
  gating := h.1
  kept id r hr hgated := by
    obtain ⟨r', hr', hpoint, hstatus⟩ := h.2 id r hr hgated
    exact ⟨r', hr', gateKept_of_same hpoint hstatus⟩

omit [PyLib] in
/-- The events of a handler leave the stored run at its gate. -/
theorem append_passes (h : st.Gating accepted) {input : RuntimeInput} {now : ℚ} {run : WorkflowRun}
    (hrun : st.runs.get? run.id = some run) (event : Event) (actionId : String) :
    Passes input st
      (st.commit coordinator now (appendActionEvent st.events run event actionId).written)
      accepted := by
  have hlikens := appendActionEvent_likens run st.events event actionId
  have hadmits := likens_admits (h.balanced run.id run hrun) hlikens
  refine passes_now h hrun (h.reserved hrun) (Logged.steps_forall.1 hadmits.steps) fun _ => ?_
  have hstep : ∀ (st : RuntimeState ρ) t w, st.runs.get? t.id = some t →
      WorkflowRun.Like t run → Likens t w →
        (tracked t w).id = t.id ∧ WorkflowRun.Like (tracked t w) run := by
    intro st t w _ ht hw
    cases w with
    | run r => exact ⟨WorkflowRun.Like.id hw, WorkflowRun.Like.trans hw ht⟩
    | event e => exact ⟨rfl, ht⟩
  obtain ⟨-, hget, hlike⟩ := commit_induction hstep hrun (.refl run) hlikens.steps
  exact ⟨_, hget, gateKept_of_same hlike.point hlike.status⟩

omit [PyLib] in
/-- The stored run after a section is the one that it saved last. -/
theorem get?_commit_self {st : RuntimeState ρ} {now : ℚ} {s : WorkflowRun}
    (hs : st.runs.get? s.id = some s) {ws : List Write} (hw : Steps SameRun tracked s ws) :
    (st.commit coordinator now ws).runs.get? s.id = some (ws.foldl tracked s) := by
  have hstep : ∀ (st : RuntimeState ρ) t w, st.runs.get? t.id = some t → True → SameRun t w →
      (tracked t w).id = t.id ∧ True := by
    intro st t w _ _ hw
    cases w with
    | run r => exact ⟨hw, trivial⟩
    | event e => exact ⟨rfl, trivial⟩
  exact (commit_induction hstep hs trivial hw).2.1

/-- A decision: the point of an accepted submission is pending nowhere any more. -/
theorem applyDecision_passes (h : st.Gating accepted) {now : ℚ} {runId : String}
    {submission : DecisionSubmission} :
    Passes (.applyDecision runId submission) st
      (step coordinator cfg st (now, .applyDecision runId submission))
      (accepted ++ acceptedBy st (now, .applyDecision runId submission)) := by
  simp only [step, acceptedBy, withRun, performNow]
  cases hrun : st.runs.get? runId with
  | none => simpa using passes_self h
  | some s =>
    have hid : s.id = runId := h.keyed runId s hrun
    have hs : st.runs.get? s.id = some s := hid ▸ hrun
    dsimp only
    cases hv : DecisionEngine.validate s submission with
    | error e =>
      have hpasses : Passes (.applyDecision runId submission) st
          (st.note (decidedNote s submission)) accepted :=
        passes_quiet h rfl h.calls fun x hx => askedIn_subset x hx
      rw [applyDecision_of_error now st.definitions hv]
      simpa [Logged.raise, RuntimeState.commit] using hpasses
    | ok option =>
      have hadmits : Guarantees (fun _ => Admits s.id fun _ => False) tracked s
          (applyDecision now st.definitions s submission) fun _ t => t.Undecided :=
        applyDecision_admits now st.definitions s submission
      have hws := Logged.steps_forall.1 hadmits.steps
      have hnoted : (st.note (decidedNote s submission)).runs.get? s.id = some s := hs
      have hstored : (commit coordinator now (st.note (decidedNote s submission))
          (applyDecision now st.definitions s submission).written).runs.get? s.id = some _ :=
        get?_commit_self hnoted (applyDecision_sameRun now st.definitions s submission).steps
      have hpasses : Passes (.applyDecision runId submission) st
          (commit coordinator now (st.note (decidedNote s submission))
            (applyDecision now st.definitions s submission).written) accepted := by
        refine passes_commit (st.note (decidedNote s submission)) h rfl (fun _ _ hc => hc)
          (fun x hx => askedIn_subset x hx) reserved_none hws fun r hr _ =>
            ⟨_, hstored, .inr (.inr ⟨submission, option, ?_, ?_⟩)⟩
        · rw [hs] at hr
          cases hr
          rw [hid]
        · rw [hs] at hr
          cases hr
          exact hv
      cases hresult : (applyDecision now st.definitions s submission).result with
      | error e => simpa using hpasses
      | ok run =>
        dsimp only
        refine ⟨?_, hpasses.kept⟩
        obtain ⟨point, hpoint, hpid, -⟩ := DecisionEngine.validate_point hv
        have hpending : s.PendingId submission.decisionPointId := ⟨point, hpoint, hpid⟩
        apply hpasses.gating.accept
        · obtain ⟨new, hnew, -⟩ := history_commit coordinator now
            (st.note (decidedNote s submission))
            (applyDecision now st.definitions s submission).written
          rw [hnew, RuntimeState.note, List.append_assoc]
          exact askedIn_subset _ (h.asked s.id s _ hs hpending)
        · exact h.fresh s.id s _ hs hpending
        · intro id r hr hr'
          by_cases hids : id = s.id
          · -- The run itself was left without a pending decision.
            subst hids
            rw [hstored] at hr
            cases hr
            exact (hadmits.returned run hresult).not_pendingId _ hr'
          · rw [get?_commit_of_onRun (fun w hw => (hws w hw).onRun) hids] at hr
            exact hids (h.distinct id r s.id s _ hr hs hr' hpending)

/-- A start under an id whose run, if there is one, awaits no decision. -/
theorem start_passes (h : st.Gating accepted) {input : RuntimeInput} (now : ℚ)
    (definition : WorkflowDefinition) (deviceId : String) (context : Dict String Value)
    (runId : Option String)
    (hold : ∀ r ∈ st.runs.get? (st.newRunId runId), r.awaitsDecision = false) :
    Passes input st (start coordinator now st definition deviceId context runId).2 accepted := by
  have hrun : ∀ run : WorkflowRun, run.decisionPoint = none → run.status = .running →
      run.Undecided := fun run hpoint hstatus => ⟨hpoint, by simp [hstatus]⟩
  unfold start
  split
  · exact passes_self h
  dsimp only
  split
  · exact passes_created h (hrun _ rfl rfl) hold rfl rfl rfl
  · split
    · exact passes_created h (hrun _ rfl rfl) hold rfl rfl rfl
    · exact passes_quiet h rfl h.calls fun _ hx => hx

/-- One step under the condition, which decides nothing. -/
theorem step_passes_other (h : st.Gating accepted) (now : ℚ) (input : RuntimeInput)
    (hok : GateSafe st input) (hother : ∀ runId submission, input ≠ .applyDecision runId submission) :
    Passes input st (step coordinator cfg st (now, input)) accepted := by
  have herase : ∀ call n c, (st.calls.erase call).get? n = some c → st.calls.get? n = some c :=
    fun call n c hc => get?_of_get?_erase call n c hc
  cases input with
  | start definition deviceId context runId =>
    exact start_passes h now definition deviceId context runId hok
  | registerDefinition definition =>
    dsimp only [step]
    split
    · exact passes_quiet h rfl h.calls fun _ hx => hx
    · exact passes_self h
  | tick runId =>
    refine withRun_passes h rfl (passes_self h) fun run hrun _ => ?_
    rcases h.balanced run.id run hrun with hrun' | hgated
    · exact passes_perform { st with issued := st.uuid4 :: st.issued } h rfl (fun _ _ hc => hc) rfl
        hrun hrun' (tick_admits cfg now st.definitions hrun')
    · -- A tick leaves a run that waits or is paused.
      have hactive : run.status.active = false := by
        rcases hgated.status with hs | hs <;> rw [hs] <;> rfl
      have htick : tick cfg now st.uuid4 st.definitions run = pure (.returned run) := by
        rw [tick, hactive]
        rfl
      rw [htick]
      exact passes_quiet h rfl h.calls fun _ hx => hx
  | reconcile runId reason =>
    refine withRun_passes h rfl (passes_self h) fun run hrun hid => ?_
    have hrun' := (h.balanced run.id run hrun).undecided (hok run (hid ▸ hrun))
    exact passes_perform { st with issued := st.uuid4 :: st.issued } h rfl (fun _ _ hc => hc) rfl
      hrun hrun' (reconcile_admits cfg st.definitions hrun' reason)
  | markInterrupted runId reason => exact passes_of_gatesStay (interrupt_gating h now runId reason)
  | recoverInflight reason limit => exact passes_of_gatesStay (interrupts_gating now reason _ h)
  | pause runId =>
    refine withRun_passes h rfl (passes_self h) fun run hrun hid => ?_
    exact fence_passes h hrun (pause_storesFence now run) fun _ => .inr (hid ▸ rfl)
  | resume runId context =>
    refine withRun_passes h rfl (passes_self h) fun run hrun hid => ?_
    refine passes_now h hrun reserved_none (resume_admits run context) fun hgated => ?_
    have hawaits := hgated.awaits
    rw [hok run (hid ▸ hrun)] at hawaits
    cases hawaits
  | cancel runId =>
    refine withRun_passes h rfl (passes_self h) fun run hrun hid => ?_
    refine passes_now h hrun reserved_none (cancel_admits run) fun _ => ?_
    exact ⟨_, get?_commit_self hrun (cancel_sameRun run).steps, .inr (.inl (hid ▸ rfl))⟩
  | applyDecision runId submission => exact absurd rfl (hother runId submission)
  | emit call event =>
    dsimp only [step]
    split
    · exact passes_self h
    rename_i c hc
    refine withRun_passes h rfl (passes_self h) fun run hrun _ => ?_
    have happend : Passes (.emit call event) st (st.commit coordinator now
        (appendActionEvent st.events run event c.action.id).written) accepted :=
      append_passes h hrun event c.action.id
    split
    · refine happend.congr rfl (fun n d hd => ?_) fun _ hx => hx
      rw [Dict.get?_set] at hd
      split at hd
      · cases hd
        rw [emitted_run]
        exact h.calls call c hc
      · exact happend.gating.calls n d hd
    · exact happend
  | lateEmit runId actionId event =>
    refine withRun_passes h rfl (passes_self h) fun run hrun _ => ?_
    exact append_passes h hrun event actionId
  | finish call outcome =>
    dsimp only [step]
    split
    · rename_i snapshot state action attempt active events hc
      have hcalls := herase call
      refine withRun_passes h rfl (passes_quiet h rfl (fun n c hc => h.calls n c (hcalls n c hc))
        fun _ hx => hx) fun run hrun hid => ?_
      have hrun' := (h.balanced run.id run hrun).undecided (hok _ hc run (hid ▸ hrun))
      exact passes_perform { st with calls := st.calls.erase call, issued := st.uuid4 :: st.issued }
        h rfl hcalls rfl hrun hrun'
        (finishTick_admits cfg now st.definitions hrun' st.events state action attempt active
          events outcome.toResult)
    · exact passes_self h
  | reconciled call outcome =>
    dsimp only [step]
    split
    · exact passes_self h
    rename_i c hc
    split
    · exact passes_self h
    rename_i m hm
    have huuid : st.uuid4 ∉ askedIn st.history := fun hmem =>
      st.uuid4_not_mem_usedIds (List.mem_append_right _ hmem)
    have hadmits := resumeReconcile_admits cfg now st.definitions (h.calls call c hc) outcome hm
    let ended : RuntimeState ρ :=
      { st with calls := st.calls.erase call, issued := st.uuid4 :: st.issued }
    refine passes_commit (ended.note [.reconciled c.run.id c.state.id outcome.classification]) h rfl
      (herase call) (fun x hx => askedIn_subset x hx) (h.reserved_uuid huuid) (Logged.steps_forall.1 hadmits.steps) fun s hs hgated => ?_
    have hawaits := hgated.awaits
    rw [hok c hc s hs] at hawaits
    cases hawaits
  | abort call =>
    exact passes_quiet h rfl (fun n c hc => h.calls n c (herase call n c hc)) fun _ hx => hx
  | restart => exact passes_quiet h rfl (fun n c hc => by cases hc) fun _ hx => hx

/-- One step under the condition. -/
theorem step_passes (h : st.Gating accepted) (input : ℚ × RuntimeInput)
    (hok : GateSafe st input.2) :
    Passes input.2 st (step coordinator cfg st input) (accepted ++ acceptedBy st input) := by
  obtain ⟨now, input⟩ := input
  by_cases hdecision : ∃ runId submission, input = .applyDecision runId submission
  · obtain ⟨runId, submission, rfl⟩ := hdecision
    exact applyDecision_passes h
  · have hother : ∀ runId submission, input ≠ .applyDecision runId submission :=
      fun runId submission heq => hdecision ⟨runId, submission, heq⟩
    have hnil : acceptedBy st (now, input) = [] := by
      cases input with
      | applyDecision runId submission => exact absurd rfl (hother runId submission)
      | _ => rfl
    rw [hnil, List.append_nil]
    exact step_passes_other h now input hok hother

/-- What a run accepts it accepts once, and nothing that was accepted before. -/
theorem nodup_acceptedIn {inputs : List (ℚ × RuntimeInput)}
    (hmeets : Machine.Meets (step coordinator cfg) (fun st i => GateSafe st i.2) st inputs)
    (h : st.Gating accepted) : (accepted ++ acceptedIn coordinator cfg st inputs).Nodup := by
  induction inputs generalizing st accepted with
  | nil =>
    rw [acceptedIn, List.append_nil]
    exact h.once
  | cons input rest ih =>
    have hrest := ih hmeets.2 (step_passes h input hmeets.1).gating
    rw [List.append_assoc] at hrest
    exact hrest

/-- In every run whose inputs are safe for the gate, the gate holds. -/
theorem decisionGate_of_gateSafe (coordinator : Option (ResourceCoordinator ρ))
    (cfg : RuntimeConfig) (resources : ρ) (inputs : List (ℚ × RuntimeInput))
    (h : Machine.Meets (step coordinator cfg) (fun st i => GateSafe st i.2)
      { resources := resources } inputs) :
    DecisionGate coordinator cfg resources inputs := by
  have hinit : ({ resources := resources } : RuntimeState ρ).Gating [] := by
    refine ⟨?_, ?_, ?_, ?_, ?_, ?_, ?_, List.nodup_nil⟩
    · intro id r hr
      cases hr
    · intro id r hr
      cases hr
    · intro n c hc
      cases hc
    · intro id r x hr
      cases hr
    · intro id r id' r' x hr
      cases hr
    · intro id r x hr
      cases hr
    · intro x hx
      cases hx
  refine ⟨fun before input after heq id r hr hawaits => ?_, nodup_acceptedIn h hinit⟩
  rw [heq, Machine.meets_append] at h
  obtain ⟨hbefore, hok, -⟩ := h
  -- The state before the input is reached by a run that meets the condition.
  have hgating : ∃ accepted, (reached coordinator cfg resources before).Gating accepted := by
    have hkeep : ∀ (st : RuntimeState ρ) (i : ℚ × RuntimeInput), (∃ accepted, st.Gating accepted) →
        GateSafe st i.2 → ∃ accepted, (step coordinator cfg st i).Gating accepted := by
      rintro st i ⟨accepted, hst⟩ hi
      exact ⟨_, (step_passes hst i hi).gating⟩
    exact hbefore.invariant hkeep ⟨[], hinit⟩
  obtain ⟨accepted, hgating⟩ := hgating
  have hstep : reached coordinator cfg resources (before ++ [input]) =
      step coordinator cfg (reached coordinator cfg resources before) input := by
    rw [reached, Machine.run_append]
    rfl
  rw [hstep]
  have hgated := (hgating.balanced id r hr).gated hawaits
  exact (step_passes hgating input hok).kept id r hr hgated

end Machine

/-- A workflow whose action fails into a decision to approve it. -/
def approvedAction : WorkflowDefinition where
  id := "reload"
  version := "1"
  startState := "reload"
  states :=
    [{ id := "reload"
       action := some ⟨"reload", "device.reload", [], 0, 1, {}, "normal"⟩
       decisionOptions := [{ id := "again", kind := "retry" }, { id := "stop", kind := "abort" }] }]

/-- The handler of the action fails, and the run waits for a decision. -/
def waitingRun : List (ℚ × RuntimeInput) :=
  [(0, .start approvedAction "device" ∅ (some "run")), (0, .tick "run"),
    (0, .finish 0 (.result { status := .failed }))]

/-- The run is paused while it waits, and its decision is made. -/
def decidedRun : List (ℚ × RuntimeInput) :=
  waitingRun ++ [(0, .pause "run"),
    (0, .applyDecision "run"
      { decisionPointId := "uuuuu", expectedRevision := 4, optionId := "again",
        actorType := "human" })]

/-- The point is accepted, and the run goes on. -/
example : @acceptedIn Unit .atEpoch none oneHandler { resources := () } decidedRun = ["uuuuu"] := by
  decide +kernel

theorem decisionGate_decidedRun : @DecisionGate Unit .atEpoch none oneHandler () decidedRun :=
  @decisionGate_of_gateSafe Unit .atEpoch none oneHandler () decidedRun (by decide +kernel)

/-- `resume` sends a run that waits for a decision back to its action. -/
theorem not_decisionGate_resume :
    ¬ @DecisionGate Unit .atEpoch none oneHandler () (waitingRun ++ [(0, .resume "run" ∅)]) := by
  let := PyLib.atEpoch
  intro h
  have hwaits : ((@reached Unit .atEpoch none oneHandler () waitingRun).runs.get? "run").map
      (fun r => r.status) = some .waitingDecision := by decide +kernel
  have hruns : ((@reached Unit .atEpoch none oneHandler ()
      (waitingRun ++ [(0, .resume "run" ∅)])).runs.get? "run").map (fun r => r.status) =
        some .running := by decide +kernel
  obtain ⟨r, hr, hwaiting⟩ := Option.map_eq_some_iff.1 hwaits
  have hawaits : r.awaitsDecision = true := by simp [WorkflowRun.awaitsDecision, hwaiting]
  obtain ⟨r', hr', hkept⟩ := h.kept waitingRun (0, .resume "run" ∅) [] rfl "run" r hr hawaits
  have hrunning : r'.status = .running := by
    rw [hr'] at hruns
    exact Option.some.inj hruns
  rcases hkept with ⟨-, hsame | ⟨hinput, -⟩⟩ | hinput | ⟨submission, option, hinput, -⟩
  · rw [hrunning, hwaiting] at hsame
    cases hsame
  · cases hinput
  · cases hinput
  · cases hinput

end Runtime

end DeviceShell.Framework
