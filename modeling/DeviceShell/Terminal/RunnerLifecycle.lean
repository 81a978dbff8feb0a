import DeviceShell.Terminal.RunnerProgress

/-!
# The lifecycle of a terminal execution

What holds of an execution in every state that any stimuli lead it to (`Lifecycle`): the call of
`on_finished` is made once each time the execution becomes terminal, the position is one of the
plan's until the execution is completed, and a response rule is sent within its limit after each
arming of its step. The proof carries `Sound`, which relates the counters of the armed step to what
has been sent since, through every method.
-/

namespace DeviceShell.Terminal

open Method

/-! ## What has been sent -/

/-- The step that was armed last; effects are given with the last one first. -/
def lastArmed : List Effect → Option ℕ
  | [] => none
  | .armed step :: _ => some step
  | _ :: rest => lastArmed rest

/-- How often a response rule has been sent since a step was armed last. -/
def sentSinceArmed (rule : ℕ) : List Effect → ℕ
  | [] => 0
  | .armed _ :: _ => 0
  | .responded index _ :: rest => sentSinceArmed rule rest + if index = rule then 1 else 0
  | _ :: rest => sentSinceArmed rule rest

/-- `max_matches` of a response rule of the plan. -/
def responseLimit (plan : TerminalExecutionPlan) (step rule : ℕ) : Option ℤ :=
  match plan.steps[step]? with
  | some (.expect step) => (step.responses[rule]?).map ResponseRule.maxMatches
  | _ => none

/-- Every response that has been sent is of a rule of the step armed last before it, and within the
rule's limit. -/
def WithinLimits (plan : TerminalExecutionPlan) (effects : List Effect) : Prop :=
  ∀ newer rule payload older, effects = newer ++ .responded rule payload :: older →
    ∃ step limit, lastArmed older = some step ∧ responseLimit plan step rule = some limit ∧
      (sentSinceArmed rule older : ℤ) + 1 ≤ limit

/-- Whether an effect is no response and arms no step. -/
def Effect.isPlain : Effect → Bool
  | .responded _ _ | .armed _ => false
  | _ => true

theorem lastArmed_plain {effect : Effect} (h : effect.isPlain = true) (effects : List Effect) :
    lastArmed (effect :: effects) = lastArmed effects := by
  cases effect with
  | responded _ _ => rfl
  | armed _ => exact absurd h Bool.false_ne_true
  | _ => rfl

theorem sentSinceArmed_plain {effect : Effect} (h : effect.isPlain = true) (rule : ℕ)
    (effects : List Effect) : sentSinceArmed rule (effect :: effects) = sentSinceArmed rule effects := by
  cases effect with
  | responded _ _ => exact absurd h Bool.false_ne_true
  | armed _ => exact absurd h Bool.false_ne_true
  | _ => rfl

/-- An effect that is no response keeps the limits. -/
theorem WithinLimits.cons {plan : TerminalExecutionPlan} {effects : List Effect}
    (h : WithinLimits plan effects) {effect : Effect}
    (hnot : ∀ rule payload, effect ≠ .responded rule payload) :
    WithinLimits plan (effect :: effects) := by
  intro newer rule payload older heq
  cases newer with
  | nil => exact absurd (List.cons.inj heq).1 (hnot rule payload)
  | cons first newer => exact h newer rule payload older (List.cons.inj heq).2

/-- A response within its limit keeps the limits. -/
theorem WithinLimits.respond {plan : TerminalExecutionPlan} {effects : List Effect}
    (h : WithinLimits plan effects) {rule step : ℕ} {limit : ℤ} (payload : TerminalInput)
    (hstep : lastArmed effects = some step) (hlimit : responseLimit plan step rule = some limit)
    (hle : (sentSinceArmed rule effects : ℤ) + 1 ≤ limit) :
    WithinLimits plan (.responded rule payload :: effects) := by
  intro newer rule' payload' older heq
  cases newer with
  | nil =>
    cases heq
    exact ⟨step, limit, hstep, hlimit, hle⟩
  | cons first newer => exact h newer rule' payload' older (List.cons.inj heq).2

/-! ## What the methods keep -/

/-- The position is in the plan, the responses have kept their limits, and the counters of the step
that waits cover what has been sent for it. -/
structure Sound (x : Execution) (s : Runner) : Prop where
  placed : s.currentStep ≤ x.plan.steps.length
  limited : WithinLimits x.plan s.effects
  counted : ∀ step, s.activeResult.isSome = true →
    x.plan.steps[s.currentStep]? = some (.expect step) →
    lastArmed s.effects = some s.currentStep ∧
      ∀ rule, sentSinceArmed rule s.effects ≤ (s.responseCounts.get? rule).getD 0

/-- The position is behind the plan's last step only when the execution is completed. -/
def Settled (x : Execution) (s : Runner) : Prop :=
  s.currentStep = x.plan.steps.length → s.status = .completed

/-- What holds of an execution between two steps. -/
structure Kept (x : Execution) (t : Runner) : Prop where
  sound : Sound x t
  settled : Settled x t

/-- The targets by number of the send steps are positions of the plan. -/
def Execution.TargetsValid (x : Execution) : Prop :=
  ∀ (index : ℕ) (step : SendStep) (target : ℕ), x.plan.steps[index]? = some (.send step) → step.nextStep = some target →
    target < x.plan.steps.length

variable {x : Execution} {s t u : Runner}

/-- A step of the plan is before its end. -/
theorem Runner.currentStep_lt {step : TerminalStep} (h : s.currentPlanStep x = some step) :
    s.currentStep < x.plan.steps.length := by
  by_contra hge
  rw [Runner.currentPlanStep, List.getElem?_eq_none (by omega)] at h
  exact absurd h (by simp)

theorem Settled.of_lt (h : s.currentStep < x.plan.steps.length) : Settled x s := by
  intro heq
  omega

/-- Without a step that waits there is nothing to count. -/
theorem Sound.inactive (hplaced : s.currentStep ≤ x.plan.steps.length)
    (hlimited : WithinLimits x.plan s.effects) (hactive : s.activeResult = none) : Sound x s :=
  ⟨hplaced, hlimited, fun _ h => absurd h (by simp [hactive])⟩

/-- The position of an execution that is not completed is in the plan. -/
theorem Settled.lt (hs : Settled x s) (h : Sound x s) (hstatus : s.status ≠ .completed) :
    s.currentStep < x.plan.steps.length := by
  have hne : s.currentStep ≠ x.plan.steps.length := fun heq => hstatus (hs heq)
  have := h.placed
  omega

/-- An effect that is no response and arms no step. -/
theorem Sound.note (h : Sound x s) {effect : Effect} (hplain : effect.isPlain = true) :
    Sound x { s with effects := effect :: s.effects } := by
  constructor
  · exact h.placed
  · refine h.limited.cons fun rule payload heq => ?_
    rw [heq] at hplain
    exact absurd hplain Bool.false_ne_true
  · intro step hactive hstep
    obtain ⟨harmed, hcounts⟩ := h.counted step hactive hstep
    constructor
    · exact (lastArmed_plain hplain s.effects).trans harmed
    · intro rule
      calc sentSinceArmed rule (effect :: s.effects)
          = sentSinceArmed rule s.effects := sentSinceArmed_plain hplain rule s.effects
        _ ≤ (s.responseCounts.get? rule).getD 0 := hcounts rule

theorem Sound.recordEvent (h : Sound x s) (event : ExecutionEvent) :
    Sound x (s.recordEvent x event) := by
  unfold Runner.recordEvent
  exact ⟨h.placed, h.limited, h.counted⟩

/-! ### Steps and executions that end -/

@[simp] theorem Runner.finishActiveStep_activeResult (status : ExecutionStatus)
    (matched errorCode message : String) (s : Runner) :
    (s.finishActiveStep x status matched errorCode message).activeResult = none := by
  unfold Runner.finishActiveStep
  split
  · assumption
  · rfl

@[simp] theorem Runner.finishActiveStep_currentStep (status : ExecutionStatus)
    (matched errorCode message : String) (s : Runner) :
    (s.finishActiveStep x status matched errorCode message).currentStep = s.currentStep := by
  unfold Runner.finishActiveStep
  split <;> rfl

@[simp] theorem Runner.finishActiveStep_effects (status : ExecutionStatus)
    (matched errorCode message : String) (s : Runner) :
    (s.finishActiveStep x status matched errorCode message).effects = s.effects := by
  unfold Runner.finishActiveStep
  split <;> rfl

theorem Sound.finishActiveStep (h : Sound x s) (status : ExecutionStatus)
    (matched errorCode message : String) :
    Sound x (s.finishActiveStep x status matched errorCode message) :=
  .inactive (by simpa using h.placed) (by simpa using h.limited) (by simp)

@[simp] theorem Runner.finish_currentStep (status : ExecutionStatus) (errorCode message : String)
    (s : Runner) : (s.finish x status errorCode message).currentStep = s.currentStep := by
  unfold Runner.finish
  split <;> rfl

theorem Sound.finish (h : Sound x s) (status : ExecutionStatus) (errorCode message : String) :
    Sound x (s.finish x status errorCode message) := by
  unfold Runner.finish
  split
  · exact h
  · have hnote : Sound x { s with effects := .finished :: s.effects } := h.note rfl
    exact ⟨hnote.placed, hnote.limited, hnote.counted⟩

theorem Settled.finish (h : Settled x s) (status : ExecutionStatus) (errorCode message : String)
    (hlt : s.currentStep < x.plan.steps.length ∨ status = .completed) :
    Settled x (s.finish x status errorCode message) := by
  intro heq
  rw [Runner.finish_currentStep] at heq
  have hcompleted : status = .completed := hlt.resolve_left (by omega)
  unfold Runner.finish
  split
  · exact h heq
  · exact hcompleted

/-- A step and its execution end together. -/
theorem end_kept (h : Sound x s) (hlt : s.currentStep < x.plan.steps.length)
    (status stepStatus : ExecutionStatus) (matched stepCode stepMessage errorCode message : String) :
    Kept x ((s.finishActiveStep x stepStatus matched stepCode stepMessage).finish x status errorCode
      message) := by
  constructor
  · exact (h.finishActiveStep stepStatus matched stepCode stepMessage).finish status errorCode message
  · refine Settled.of_lt ?_
    simpa using hlt

/-! ## Going on with the plan -/

/-- What a method keeps that moves neither the status nor the position. -/
structure Stays (x : Execution) (s t : Runner) : Prop where
  sound : Sound x t
  status : t.status = s.status
  position : t.currentStep = s.currentStep

theorem Stays.refl (h : Sound x s) : Stays x s s := ⟨h, rfl, rfl⟩

theorem Stays.trans (h : Stays x s t) (h' : Stays x t u) : Stays x s u :=
  ⟨h'.sound, h'.status.trans h.status, h'.position.trans h.position⟩

theorem Stays.kept (h : Stays x s t) (hlt : s.currentStep < x.plan.steps.length) : Kept x t := by
  constructor
  · exact h.sound
  · refine Settled.of_lt ?_
    rw [h.position]
    exact hlt

/-- An effect that is no response and arms no step. -/
theorem Stays.note (h : Sound x s) {effect : Effect} (hplain : effect.isPlain = true) :
    Stays x s { s with effects := effect :: s.effects } := ⟨h.note hplain, rfl, rfl⟩

theorem branchTarget_lt {source index : ℕ} {target : String}
    (hsource : source < x.plan.steps.length) (h : branchTarget x source target = some index) :
    index < x.plan.steps.length := by
  unfold branchTarget at h
  split at h
  · rw [← Option.some.inj h]
    exact hsource
  · exact (List.findIdx?_eq_some_iff_getElem.mp h).1

/-- What is kept while responses are given: the execution stays at its step. -/
structure Responds (x : Execution) (s t : Runner) : Prop where
  sound : Sound x t
  position : t.currentStep = s.currentStep

theorem Stays.responds (h : Stays x s t) : Responds x s t := ⟨h.sound, h.position⟩

theorem Responds.trans (h : Responds x s t) (h' : Responds x t u) : Responds x s u :=
  ⟨h'.sound, h'.position.trans h.position⟩

theorem fail_responds (h : Sound x s) (matched errorCode stepMessage message : String) :
    Responds x s (s.fail x matched errorCode stepMessage message) := by
  constructor
  · exact (h.finishActiveStep _ _ _ _).finish _ _ _
  · simp [Runner.fail]

/-- What the prompt on the last line changes. -/
theorem forgetAnswered_stays (h : Sound x s) (prompt : Option PromptMatch) :
    Stays x s (s.forgetAnswered prompt) := by
  unfold Runner.forgetAnswered
  split
  · exact .refl h
  · split
    · exact ⟨⟨h.placed, h.limited, h.counted⟩, rfl, rfl⟩
    · exact .refl h

theorem recordEvent_stays (h : Sound x s) (event : ExecutionEvent) :
    Stays x s (s.recordEvent x event) := by
  constructor
  · exact h.recordEvent event
  · simp only [Runner.recordEvent]
  · simp only [Runner.recordEvent]

theorem requireInteraction_stays (h : Sound x s) (prompt : PromptMatch) :
    Stays x s (s.requireInteraction x prompt) := by
  have hattention : ∀ {t : Runner}, Stays x s t → Stays x s { t with attentionEvent := true } :=
    fun ht => ⟨⟨ht.sound.placed, ht.sound.limited, ht.sound.counted⟩, ht.status, ht.position⟩
  have hset : Stays x s { s with interactionPrompt := some prompt, matchedPrompt := prompt.text } :=
    ⟨⟨h.placed, h.limited, h.counted⟩, rfl, rfl⟩
  unfold Runner.requireInteraction
  apply hattention
  split
  · exact hset.trans (recordEvent_stays hset.sound _)
  · exact .refl h

theorem sendInput_stays (h : Sound x s) (payload : TerminalInput) :
    Ensures (sendInput payload) s fun _ t => Stays x s t :=
  ensures_modify (.note h rfl)

section

variable [PyLib]

theorem schedule_stays (h : Sound x s) (seconds : PyFloat) (timer : Timer) :
    Ensures (schedule seconds timer) s fun _ t => Stays x s t := by
  refine (schedule_ensures seconds timer s).mono ?_
  rintro r t (rfl | ⟨delay, -, rfl⟩)
  · exact .refl h
  · exact .note h rfl

theorem inputFor_stays (h : Sound x s)
    (text control secretRef secretPrefix secretSuffix : String) (appendEnter : Bool) :
    Ensures (inputFor x text control secretRef secretPrefix secretSuffix appendEnter) s
      fun _ t => Stays x s t ∧ t.activeResult = s.activeResult ∧ t.effects = s.effects ∧
        t.responseCounts = s.responseCounts := by
  refine (inputFor_ensures x text control secretRef secretPrefix secretSuffix appendEnter s).mono ?_
  rintro r t ⟨⟨secrets, rfl⟩, -⟩
  exact ⟨⟨⟨h.placed, h.limited, h.counted⟩, rfl, rfl⟩, rfl, rfl, rfl⟩

/-- Arming begins the counts of a step anew. -/
theorem armWait_stays (h : Sound x s) (kind : StepKind) (label : String)
    (timeoutSeconds : PyFloat) :
    Ensures (armWait x kind label timeoutSeconds) s fun _ t => Stays x s t := by
  have harmed : Sound x (s.arm x kind label) := by
    constructor
    · exact h.placed
    · exact h.limited.cons (by simp)
    · intro step _ _
      exact ⟨rfl, fun rule => Nat.zero_le _⟩
  unfold armWait
  apply ensures_modify_bind
  apply ensures_get
  exact (schedule_stays harmed _ _).mono fun r t ht => ⟨ht.sound, ht.status, ht.position⟩

/-- A send that goes through moves to the next position, which is in the plan, or behind its last
step if nothing is armed there. -/
theorem sendStep_sound (h : Sound x s) (hlt : s.currentStep < x.plan.steps.length)
    (step : SendStep) {nextIndex : ℕ} (hnext : nextIndex ≤ x.plan.steps.length) :
    Ensures (sendStep x step nextIndex) s fun r t => Sound x t ∧ t.status = s.status ∧
      (r ≠ .ok false → t.currentStep < x.plan.steps.length) := by
  unfold sendStep
  refine (inputFor_stays h step.text step.control step.secretRef step.secretPrefix
    step.secretSuffix step.appendEnter).bind ?_ ?_
  · rintro payload t ⟨ht, -⟩
    have hmoved : Sound x { t.finishActiveStep x .completed "" "" "" with
        currentStep := nextIndex } :=
      .inactive hnext (by simpa using ht.sound.limited) (by simp)
    have hstatus : (t.finishActiveStep x .completed "" "" "").status = s.status := by
      simpa using ht.status
    apply ensures_modify_bind
    split
    · rename_i next hwait
      have hin : nextIndex < x.plan.steps.length := by
        by_contra hge
        rw [List.getElem?_eq_none (by omega)] at hwait
        exact absurd hwait (by simp)
      refine (armWait_stays hmoved .expect next.label next.timeoutSeconds).bind ?_ ?_
      · intro _ u hu
        refine ensures_get (ensures_modify_bind (ensures_get (ensures_pure ?_)))
        exact ⟨hu.sound.note rfl, hu.status.trans hstatus, fun _ => hu.position.trans_lt hin⟩
      · intro e u hu
        exact ⟨hu.sound, hu.status.trans hstatus, fun _ => hu.position.trans_lt hin⟩
    · have hplain : (Effect.sent payload).isPlain = true := rfl
      exact ensures_modify_bind
        (ensures_pure ⟨hmoved.note hplain, hstatus, fun hne => absurd rfl hne⟩)
  · rintro e t ⟨ht, -⟩
    exact ⟨ht.sound, ht.status, fun _ => ht.position.trans_lt hlt⟩

/-- An iteration of the loop at a send step. -/
theorem runSend_sound (htargets : x.TargetsValid) (h : Sound x s) {step : SendStep}
    (hstep : s.currentPlanStep x = some (.send step)) (hrunning : s.status = .running) :
    Ensures (runSend x step) s fun r t => Sound x t ∧ (t.status = .running ∨ Settled x t) ∧
      (r ≠ .ok false → Settled x t) := by
  have hlt := s.currentStep_lt hstep
  have hnext : step.nextStep.getD (s.currentStep + 1) ≤ x.plan.steps.length := by
    cases htarget : step.nextStep with
    | none => exact hlt
    | some target => exact (htargets _ step target hstep htarget).le
  have hbegun : Sound x (s.beginSend x step.label) := by
    refine ⟨h.placed, h.limited, fun other _ hother => ?_⟩
    have hsame : some (TerminalStep.expect other) = some (.send step) := hother.symm.trans hstep
    exact absurd hsame (by simp)
  unfold runSend
  apply ensures_modify_bind
  apply ensures_get
  refine (sendStep_sound hbegun hlt step hnext).tryCatch ?_ ?_
  · rintro armed t ⟨hsound, hstatus, hplace⟩
    exact ⟨hsound, .inl (hstatus.trans hrunning), fun hne => .of_lt (hplace hne)⟩
  · rintro e t ⟨hsound, hstatus, hplace⟩
    have hlt := hplace (by simp)
    cases e with
    | terminalPlan code message details =>
      have hend := end_kept hsound hlt .failed .failed "" code message code message
      exact ensures_modify_bind (ensures_pure ⟨hend.sound, .inr hend.settled, fun _ =>
        hend.settled⟩)
    | python e => exact ensures_throw ⟨hsound, .inl (hstatus.trans hrunning), fun _ => .of_lt hlt⟩

/-- The loop leaves the execution between two steps. -/
theorem advance_kept (htargets : x.TargetsValid) (fuel : ℕ) (h : Sound x s)
    (hready : s.status = .running ∨ Settled x s) :
    Ensures (advance x fuel) s fun _ t => Kept x t := by
  induction fuel generalizing s with
  | zero => exact ensures_exhausted
  | succ fuel ih =>
    unfold advance
    apply ensures_get
    apply Ensures.ite
    · intro hnot
      exact ensures_pure ⟨h, hready.resolve_left hnot⟩
    · intro hrunning
      rw [not_not] at hrunning
      split
      · refine ensures_modify ⟨h.finish _ _ _, fun _ => ?_⟩
        exact Runner.finish_status hrunning _ _ _
      · rename_i step hstep
        refine (runSend_sound htargets h hstep hrunning).bind ?_ ?_
        · rintro armed t ⟨hsound, hready, hsettled⟩
          apply Ensures.ite
          · rintro rfl
            exact ensures_pure ⟨hsound, hsettled (by simp)⟩
          · intro _
            exact ih hsound hready
        · rintro e t ⟨hsound, -, hsettled⟩
          exact ⟨hsound, hsettled (by simp)⟩
      · rename_i step hstep
        exact (armWait_stays h _ _ _).mono fun r t ht => ht.kept (s.currentStep_lt hstep)
      · rename_i step hstep
        exact (armWait_stays h _ _ _).mono fun r t ht => ht.kept (s.currentStep_lt hstep)

/-- The loop from another position, when no step waits. -/
theorem jump_kept (htargets : x.TargetsValid) (fuel : ℕ) (h : Sound x s)
    (hactive : s.activeResult = none) (hrunning : s.status = .running) {index : ℕ}
    (hindex : index ≤ x.plan.steps.length) :
    Ensures (advance x fuel) { s with currentStep := index } fun _ t => Kept x t :=
  advance_kept htargets fuel (.inactive hindex h.limited hactive) (.inl hrunning)

/-- A branch is taken, or nothing happens. -/
theorem takeBranch_kept (htargets : x.TargetsValid) (fuel : ℕ) (h : Sound x s)
    (hactive : s.activeResult = none) (hrunning : s.status = .running)
    (hlt : s.currentStep < x.plan.steps.length) (maxRetries : ℤ) (target reason : String) :
    Ensures (takeBranch x fuel maxRetries target reason) s fun r t =>
      Kept x t ∧ (r = .ok false → t = s) := by
  have hself : Settled x s := .of_lt hlt
  unfold takeBranch
  apply Ensures.ite
  · intro _
    exact ensures_pure ⟨⟨h, hself⟩, fun _ => rfl⟩
  · intro _
    apply ensures_get
    split
    · refine ensures_modify_bind (ensures_pure ⟨⟨h.finish _ _ _, ?_⟩, ?_⟩)
      · exact hself.finish _ _ _ (.inl hlt)
      · intro hfalse
        exact absurd hfalse (by simp)
    · rename_i index hindex
      have hin := (branchTarget_lt hlt hindex).le
      have hcounted : Sound x (s.countBranch index reason) ∧
          (s.countBranch index reason).activeResult = none ∧
          (s.countBranch index reason).status = .running ∧
          (s.countBranch index reason).currentStep = s.currentStep := by
        unfold Runner.countBranch
        split
        · exact ⟨⟨h.placed, h.limited, h.counted⟩, hactive, hrunning, rfl⟩
        · exact ⟨h, hactive, hrunning, rfl⟩
      apply ensures_modify_bind
      apply ensures_get
      obtain ⟨hsound, hinactive, hstatus, hposition⟩ := hcounted
      generalize s.countBranch index reason = counted at *
      have hplace : counted.currentStep < x.plan.steps.length := by omega
      apply Ensures.ite
      · intro _
        refine ensures_modify_bind (ensures_pure ⟨⟨hsound.finish _ _ _, ?_⟩, ?_⟩)
        · exact (Settled.of_lt hplace).finish _ _ _ (.inl hplace)
        · intro hfalse
          exact absurd hfalse (by simp)
      · intro _
        apply ensures_modify_bind
        refine (jump_kept htargets fuel hsound hinactive hstatus hin).bind ?_ ?_
        · intro _ u hu
          exact ensures_pure ⟨hu, fun hfalse => absurd hfalse (by simp)⟩
        · intro e u hu
          exact ⟨hu, fun hfalse => absurd hfalse (by simp)⟩

/-- A branch is taken, or the step behind this one. -/
theorem branchOrNext_kept (htargets : x.TargetsValid) (fuel : ℕ) (h : Sound x s)
    (hactive : s.activeResult = none) (hrunning : s.status = .running)
    (hlt : s.currentStep < x.plan.steps.length) (maxRetries : ℤ) (target reason : String) :
    Ensures (branchOrNext x fuel maxRetries target reason) s fun _ t => Kept x t := by
  refine (takeBranch_kept htargets fuel h hactive hrunning hlt maxRetries target reason).bind ?_ ?_
  · rintro taken t ⟨ht, hsame⟩
    apply Ensures.ite
    · intro _
      exact ensures_pure ht
    · intro hnot
      rw [Bool.not_eq_true] at hnot
      cases hsame (by rw [hnot])
      exact ensures_modify_bind (jump_kept htargets fuel h hactive hrunning hlt)
  · rintro e t ⟨ht, -⟩
    exact ht

/-- A step that expects output completes. -/
theorem completeExpect_kept (htargets : x.TargetsValid) (fuel : ℕ) (h : Sound x s)
    (hrunning : s.status = .running) (hlt : s.currentStep < x.plan.steps.length)
    (step : ExpectStep) (matched : String) :
    Ensures (completeExpect x fuel step matched) s fun _ t => Kept x t := by
  have hnoted : Sound x { s with matchedPrompt := matched } := ⟨h.placed, h.limited, h.counted⟩
  have hsound : Sound x (s.completeStep x matched) :=
    (hnoted.recordEvent _).finishActiveStep _ _ _ _
  have hactive : (s.completeStep x matched).activeResult = none := by simp [Runner.completeStep]
  have hstatus : (s.completeStep x matched).status = .running := by
    simpa [Runner.completeStep, Runner.recordEvent] using hrunning
  have hplace : (s.completeStep x matched).currentStep < x.plan.steps.length := by
    simpa [Runner.completeStep, Runner.recordEvent] using hlt
  unfold completeExpect
  apply ensures_modify_bind
  generalize s.completeStep x matched = t at *
  split
  · rename_i target htarget
    apply ensures_get
    apply Ensures.ite
    · intro _
      refine ensures_modify ⟨hsound.finish _ _ _, ?_⟩
      exact (Settled.of_lt hplace).finish _ _ _ (.inl hplace)
    · intro hnot
      have hin : target ≤ x.plan.steps.length := by
        by_contra hge
        exact hnot (.inr (by omega))
      exact ensures_modify_bind (jump_kept htargets fuel hsound hactive hstatus hin)
  · exact branchOrNext_kept htargets fuel hsound hactive hstatus hplace _ _ _

/-- A step that has failed goes to its branch, or the execution fails. -/
theorem failStep_kept (htargets : x.TargetsValid) (fuel : ℕ) (h : Sound x s)
    (hrunning : s.status = .running) (hlt : s.currentStep < x.plan.steps.length)
    (stepStatus : ExecutionStatus) (matched stepCode stepMessage : String) (maxRetries : ℤ)
    (target reason : String) (status : ExecutionStatus) (code message : Runner → String) :
    Ensures (do
      modify fun s => s.finishActiveStep x stepStatus matched stepCode stepMessage
      let taken ← takeBranch x fuel maxRetries target reason
      if taken then pure () else modify fun s => s.finish x status (code s) (message s) :
        RunnerM Unit) s fun _ t => Kept x t := by
  apply ensures_modify_bind
  have hsound := h.finishActiveStep stepStatus matched stepCode stepMessage
  refine (takeBranch_kept htargets fuel hsound (by simp) (by simpa using hrunning)
    (by simpa using hlt) maxRetries target reason).bind ?_ ?_
  · rintro taken t ⟨ht, hsame⟩
    apply Ensures.ite
    · intro _
      exact ensures_pure ht
    · intro hnot
      rw [Bool.not_eq_true] at hnot
      cases hsame (by rw [hnot])
      exact ensures_modify (end_kept h hlt _ _ _ _ _ _ _)
  · rintro e t ⟨ht, -⟩
    exact ht

theorem onSessionState_kept (htargets : x.TargetsValid) (fuel : ℕ) (h : Sound x s)
    (hs : Settled x s) (state : String) :
    Ensures (onSessionState x fuel state) s fun _ t => Kept x t := by
  unfold onSessionState
  apply ensures_get
  apply Ensures.ite
  · intro _
    exact ensures_pure ⟨h, hs⟩
  · intro hrunning
    rw [not_not] at hrunning
    have hlt := hs.lt h (by simp [hrunning])
    have hdisconnect : ∀ (c : Bool) (normalized : String),
        Ensures (if c = true then modify fun s => s.disconnect x normalized else pure () :
          RunnerM Unit) s fun _ t => Kept x t := by
      intro c normalized
      apply Ensures.ite
      · intro _
        exact ensures_modify (end_kept h hlt _ _ _ _ _ _ _)
      · intro _
        exact ensures_pure ⟨h, hs⟩
    have hbranch : ∀ (matched : String) (maxRetries : ℤ) (target reason : String),
        Ensures (do
          modify fun s => s.finishActiveStep x .completed matched "" ""
          branchOrNext x fuel maxRetries target reason : RunnerM Unit) s fun _ t => Kept x t := by
      intro matched maxRetries target reason
      apply ensures_modify_bind
      exact branchOrNext_kept htargets fuel (h.finishActiveStep _ _ _ _) (by simp)
        (by simpa using hrunning) (by simpa using hlt) _ _ _
    split
    · apply Ensures.ite
      · intro _
        exact hbranch _ _ _ _
      · intro _
        exact hdisconnect _ _
    · apply Ensures.ite
      · intro _
        exact hbranch _ _ _ _
      · intro _
        exact hdisconnect _ _
    · exact hdisconnect _ _

/-! ## Beginning and going on -/

theorem start_kept (htargets : x.TargetsValid) (fuel : ℕ) (h : Sound x s) (hs : Settled x s) :
    Ensures (start x fuel) s fun _ t => Kept x t := by
  unfold start
  apply ensures_get
  apply Ensures.ite
  · intro _
    exact ensures_pure ⟨h, hs⟩
  · intro hpending
    rw [not_not] at hpending
    have hlt : s.currentStep < x.plan.steps.length := hs.lt h (by simp [hpending])
    have hbegun : Sound x (s.begin x) := ⟨h.placed, h.limited, h.counted⟩
    have hstarted := recordEvent_stays hbegun { type := "started" }
    have hrunning : ((s.begin x).recordEvent x { type := "started" }).status = .running :=
      hstarted.status
    have hplace := hstarted.position.trans_lt hlt
    apply ensures_modify_bind
    refine (schedule_stays hstarted.sound _ _).bind ?_ ?_
    · intro _ t ht
      exact advance_kept htargets fuel ht.sound (.inl (ht.status.trans hrunning))
    · intro e t ht
      exact ht.kept hplace

/-- An execution that is resumed runs on from the step at which it was taken over. -/
theorem resume_kept (htargets : x.TargetsValid) (fuel : ℕ) (h : Sound x s) (hs : Settled x s) :
    Ensures (resume x fuel) s fun _ t => Kept x t := by
  unfold resume
  apply ensures_get
  apply Ensures.ite
  · intro _
    exact ensures_throw ⟨h, hs⟩
  · intro htaken
    rw [not_not] at htaken
    have hlt : s.currentStep < x.plan.steps.length := hs.lt h (by simp [htaken])
    have hreset : Sound x (s.reset x) := .inactive h.placed h.limited rfl
    have hresumed := recordEvent_stays hreset { type := "resumed" }
    have hrunning : ((s.reset x).recordEvent x { type := "resumed" }).status = .running :=
      hresumed.status
    have hplace := hresumed.position.trans_lt hlt
    apply ensures_modify_bind
    refine (schedule_stays hresumed.sound _ _).bind ?_ ?_
    · intro _ t ht
      exact advance_kept htargets fuel ht.sound (.inl (ht.status.trans hrunning))
    · intro e t ht
      exact ht.kept hplace

/-! ## Automatic responses -/

variable [PyRe]

/-- The rule that is chosen is the one at its position. -/
theorem matchedRule_mem {scanBuffer : String} {rules : List ResponseRule} {index : ℕ}
    {rule : ResponseRule} {found : String × ℕ}
    (h : matchedRule scanBuffer rules = some (index, rule, found)) : rules[index]? = some rule := by
  unfold matchedRule at h
  have hall : ∀ item ∈ rules.zipIdx, rules[item.2]? = some item.1 := by
    rintro ⟨rule, index⟩ hitem
    exact List.mem_zipIdx_iff_getElem?.mp hitem
  have hbest : ∀ best, (none : Option (ℕ × ResponseRule × String × ℕ)) = some best →
      rules[best.1]? = some best.2.1 := fun _ hnone => absurd hnone (by simp)
  revert h hbest hall
  generalize (none : Option (ℕ × ResponseRule × String × ℕ)) = best
  generalize rules.zipIdx = items
  intro h hall hbest
  -- Along the fold, the best rule so far is the one at its position.
  induction items generalizing best with
  | nil => exact hbest _ h
  | cons item items ih =>
    refine ih _ h (fun other hother => hall other (List.mem_cons_of_mem _ hother)) ?_
    intro next hnext
    have hitem := hall item List.mem_cons_self
    dsimp only at hnext
    split at hnext
    · exact hbest next hnext
    · cases hnext
      exact hitem
    · rename_i found index rule first _ _
      split at hnext
      · cases hnext
        exact hitem
      · cases hnext
        exact hbest _ rfl

/-- The payload of a response is made, or the execution fails over it. -/
theorem responsePayload_responds (h : Sound x s) (rule : ResponseRule) (matched : String) :
    Ensures (responsePayload x rule matched) s fun r t => Responds x s t ∧
      ∀ payload, r = .ok (some payload) → t.activeResult = s.activeResult ∧
        t.effects = s.effects ∧ t.responseCounts = s.responseCounts := by
  unfold responsePayload
  have hinput := inputFor_stays h rule.text rule.control rule.secretRef "" "" rule.appendEnter
  have hbody : Ensures (do
      let payload ← inputFor x rule.text rule.control rule.secretRef "" "" rule.appendEnter
      if asksForPassword matched && !payload.sensitive then do
        modify fun s => s.fail x matched "secret_required" "密码提示只能使用 secret_ref。"
          "密码提示只能使用 secret_ref。"
        return none
      else return some payload : RunnerM (Option TerminalInput)) s fun r t => Responds x s t ∧
        ∀ payload, r = .ok (some payload) → t.activeResult = s.activeResult ∧
          t.effects = s.effects ∧ t.responseCounts = s.responseCounts := by
    refine hinput.bind ?_ ?_
    · rintro payload t ⟨ht, hsame⟩
      apply Ensures.ite
      · intro _
        refine ensures_modify_bind (ensures_pure ⟨?_, fun _ hnone => absurd hnone (by simp)⟩)
        exact ht.responds.trans (fail_responds ht.sound _ _ _ _)
      · intro _
        exact ensures_pure ⟨ht.responds, fun _ _ => hsame⟩
    · rintro e t ⟨ht, -⟩
      exact ⟨ht.responds, fun _ hok => absurd hok (by simp)⟩
  refine hbody.tryCatch (fun _ _ ht => ht) ?_
  rintro e t ⟨ht, -⟩
  cases e with
  | terminalPlan code message details =>
    refine ensures_modify_bind (ensures_pure ⟨?_, fun _ hnone => absurd hnone (by simp)⟩)
    have hfail := fail_responds ht.sound "" code message message
    exact ht.trans hfail
  | python e => exact ensures_throw ⟨ht, fun _ hok => absurd hok (by simp)⟩

/-- A response that its count allows is sent within the limit. -/
theorem respond_responds (h : Sound x s) {step : ExpectStep}
    (hstep : x.plan.steps[s.currentStep]? = some (.expect step)) {index : ℕ} {rule : ResponseRule}
    (hrule : step.responses[index]? = some rule) (payload : TerminalInput) (stop : ℕ)
    (hcount : s.activeResult.isSome = true → (sentSinceArmed index s.effects : ℤ) + 1 ≤
      rule.maxMatches ∧ sentSinceArmed index s.effects + 1 ≤ (s.responseCounts.get? index).getD 0) :
    Ensures (respond x step index rule stop payload) s fun _ t => Responds x s t := by
  have hlimit : responseLimit x.plan s.currentStep index = some rule.maxMatches := by
    simp [responseLimit, hstep, hrule]
  unfold respond
  apply ensures_get
  split
  · exact ensures_throw (Stays.refl h).responds
  · rename_i result hresult
    have hsome : s.activeResult.isSome = true := by simp [hresult]
    obtain ⟨harmed, hcounts⟩ := h.counted step hsome hstep
    obtain ⟨hmax, hcovered⟩ := hcount hsome
    apply ensures_modify_bind
    apply ensures_modify_bind
    have hsent : Stays x s { s.answer x rule payload stop result with
        effects := .responded index payload :: (s.answer x rule payload stop result).effects } := by
      constructor
      · constructor
        · exact h.placed
        · exact h.limited.respond payload harmed hlimit hmax
        · intro other _ hother
          refine ⟨harmed, fun other => ?_⟩
          show sentSinceArmed other (.responded index payload :: s.effects) ≤
            (s.responseCounts.get? other).getD 0
          unfold sentSinceArmed
          by_cases hsame : index = other
          · rw [if_pos hsame, ← hsame]
            exact hcovered
          · rw [if_neg hsame]
            exact hcounts other
      · rfl
      · rfl
    generalize ({ s.answer x rule payload stop result with
        effects := .responded index payload :: (s.answer x rule payload stop result).effects } :
      Runner) = t at hsent
    apply ensures_get
    apply Ensures.ite
    · intro _
      exact ensures_modify (hsent.trans (.note hsent.sound rfl)).responds
    · intro _
      exact ensures_pure hsent.responds

/-- The automatic responses keep their limits. -/
theorem applyResponses_responds (h : Sound x s) {step : ExpectStep}
    (hstep : x.plan.steps[s.currentStep]? = some (.expect step)) :
    Ensures (applyResponses x step) s fun _ t => Responds x s t := by
  unfold applyResponses
  apply ensures_get
  split
  · exact ensures_pure (Stays.refl h).responds
  · rename_i index rule found stop hmatched
    have hrule := matchedRule_mem hmatched
    apply ensures_modify_bind
    -- The count is raised before the response is sent, so it covers the response.
    set counts := s.responseCounts.set index ((s.responseCounts.get? index).getD 0 + 1) with hcounts
    have hget : ∀ other, (counts.get? other).getD 0 =
        (s.responseCounts.get? other).getD 0 + if index = other then 1 else 0 := by
      intro other
      rw [hcounts, Dict.get?_set]
      by_cases hsame : index = other
      · simp [hsame]
      · simp [hsame, Ne.symm hsame]
    have hstays : Stays x s { s with responseCounts := counts } := by
      refine ⟨⟨h.placed, h.limited, fun other hactive hother => ?_⟩, rfl, rfl⟩
      obtain ⟨harmed, hcovered⟩ := h.counted other hactive hother
      refine ⟨harmed, fun other => ?_⟩
      show sentSinceArmed other s.effects ≤ (counts.get? other).getD 0
      rw [hget other]
      have := hcovered other
      omega
    clear_value counts
    apply Ensures.ite
    · intro _
      exact ensures_modify (hstays.responds.trans (fail_responds hstays.sound _ _ _ _))
    · intro hcount
      refine (responsePayload_responds hstays.sound rule found).bind ?_ ?_
      · rintro payload t ⟨ht, hsame⟩
        have hresponds : Responds x s t := hstays.responds.trans ht
        cases payload with
        | none => exact ensures_pure hresponds
        | some payload =>
          obtain ⟨hactive, heffects, hcounts'⟩ := hsame payload rfl
          have hat : x.plan.steps[t.currentStep]? = some (.expect step) := by
            rw [hresponds.position]
            exact hstep
          refine (respond_responds ht.sound hat hrule payload stop ?_).mono ?_
          · intro hsome
            rw [heffects, hcounts']
            rw [hactive] at hsome
            have hcovered := (h.counted step hsome hstep).2 index
            have hnew : (counts.get? index).getD 0 = (s.responseCounts.get? index).getD 0 + 1 := by
              rw [hget index, if_pos rfl]
            constructor
            · show (sentSinceArmed index s.effects : ℤ) + 1 ≤ rule.maxMatches
              omega
            · show sentSinceArmed index s.effects + 1 ≤ (counts.get? index).getD 0
              omega
          · intro r u hu
            exact hresponds.trans hu
      · rintro e t ⟨ht, -⟩
        exact hstays.responds.trans ht

/-! ## Looking at the output -/

theorem evaluateOutcome_kept (htargets : x.TargetsValid) (fuel : ℕ) (h : Sound x s)
    (hrunning : s.status = .running) (hlt : s.currentStep < x.plan.steps.length)
    (step : ExpectStep) (responded : Bool) (expectedSuccess : Option (String × ℕ)) :
    Ensures (evaluateOutcome x fuel step responded expectedSuccess) s fun _ t => Kept x t := by
  have hself : Kept x s := ⟨h, .of_lt hlt⟩
  unfold evaluateOutcome
  apply ensures_get
  split
  · exact completeExpect_kept htargets fuel h hrunning hlt _ _
  · exact failStep_kept htargets fuel h hrunning hlt .failed _ _ _ _ _ _ .failed
      (fun _ => "terminal_failure") fun s => "步骤 " ++ toString s.currentStep ++ " 执行失败。"
  · apply Ensures.ite
    · intro _
      exact ensures_pure hself
    · intro _
      split
      · exact completeExpect_kept htargets fuel h hrunning hlt _ _
      · apply Ensures.ite
        · intro _
          exact (schedule_stays h _ _).mono fun _ _ ht => ht.kept hlt
        · intro _
          exact ensures_pure hself

theorem evaluateExpect_kept (htargets : x.TargetsValid) (fuel : ℕ) (h : Sound x s)
    {step : ExpectStep} (hstep : x.plan.steps[s.currentStep]? = some (.expect step)) :
    Ensures (evaluateExpect x fuel step) s fun _ t => Kept x t := by
  have hlt : s.currentStep < x.plan.steps.length := s.currentStep_lt hstep
  unfold evaluateExpect
  apply ensures_get
  refine (applyResponses_responds h hstep).bind ?_ ?_
  · intro _ t ht
    have hplace := ht.position.trans_lt hlt
    apply ensures_get
    apply Ensures.ite
    · intro _
      exact ensures_pure ⟨ht.sound, .of_lt hplace⟩
    · intro hstatus
      rw [not_not] at hstatus
      apply ensures_modify_bind
      have hforget := forgetAnswered_stays ht.sound (classifyTerminalPrompt t.scanBuffer)
      have hrunning := hforget.status.trans hstatus
      have hplace := hforget.position.trans_lt hplace
      have hsound := hforget.sound
      split
      · exact evaluateOutcome_kept htargets fuel hsound hrunning hplace _ _ _
      · refine (ensures_lift (Q := fun _ u => u = _) rfl).bind ?_ ?_
        · rintro answered u rfl
          apply Ensures.ite
          · intro _
            exact completeExpect_kept htargets fuel hsound hrunning hplace _ _
          · intro _
            apply Ensures.ite
            · intro _
              exact ensures_modify ((requireInteraction_stays hsound _).kept hplace)
            · intro _
              exact evaluateOutcome_kept htargets fuel hsound hrunning hplace _ _ _
        · rintro e u rfl
          exact ⟨hsound, .of_lt hplace⟩
  · intro e t ht
    exact ⟨ht.sound, .of_lt (ht.position.trans_lt hlt)⟩

/-! ## Stimuli -/

theorem onOutput_kept (htargets : x.TargetsValid) (fuel : ℕ) (h : Sound x s) (hs : Settled x s)
    (message : String) : Ensures (onOutput x fuel message) s fun _ t => Kept x t := by
  unfold onOutput
  apply ensures_get
  apply Ensures.ite
  · intro _
    exact ensures_pure ⟨h, hs⟩
  · intro _
    split
    · rename_i step result hstep hresult
      apply ensures_modify_bind
      have hsome : s.activeResult.isSome = true := by simp [hresult]
      have hreceived : Sound x (s.receive x step result message) :=
        ⟨h.placed, h.limited, fun other _ hother => h.counted other hsome hother⟩
      exact evaluateExpect_kept htargets fuel hreceived hstep
    · exact ensures_pure ⟨h, hs⟩

theorem sendManualInput_kept (htargets : x.TargetsValid) (fuel : ℕ) (h : Sound x s)
    (hs : Settled x s) (text control secretRef : String) (appendEnter : Bool) :
    Ensures (sendManualInput x fuel text control secretRef appendEnter) s
      fun _ t => Kept x t := by
  have hself : Kept x s := ⟨h, hs⟩
  have hchecked : ∀ {t : Runner}, Stays x s t → s.status = .running →
      ∀ step control payload, Ensures (sendChecked x fuel step control payload) t
        fun _ u => Kept x u := by
    intro t ht hrunning step control payload
    have hlt : s.currentStep < x.plan.steps.length := hs.lt h (by simp [hrunning])
    have hclear : Stays x s { t with matchedPrompt := "" } :=
      ⟨⟨ht.sound.placed, ht.sound.limited, ht.sound.counted⟩, ht.status, ht.position⟩
    unfold sendChecked
    apply ensures_modify_bind
    have hnoted := hclear.trans (recordEvent_stays hclear.sound
      { type := "manual_input", data := if payload.sensitive then "[redacted]" else payload.text
        control := control })
    refine (sendInput_stays hnoted.sound payload).bind ?_ ?_
    · intro _ u hu
      apply ensures_get
      apply ensures_modify_bind
      have hsent := hnoted.trans hu
      have hanswered : Stays x s u.takeAnswer :=
        ⟨⟨hsent.sound.placed, hsent.sound.limited, hsent.sound.counted⟩, hsent.status,
          hsent.position⟩
      generalize u.takeAnswer = v at hanswered
      have hplace := hanswered.position.trans_lt hlt
      split
      · exact completeExpect_kept htargets fuel hanswered.sound (hanswered.status.trans hrunning)
          hplace _ _
      · have hsound := hanswered.sound
        exact ensures_modify ⟨⟨hsound.placed, hsound.limited, hsound.counted⟩, .of_lt hplace⟩
    · intro e u hu
      exact (hnoted.trans hu).kept hlt
  unfold sendManualInput
  apply ensures_get
  apply Ensures.ite
  · intro _
    exact ensures_throw hself
  · intro hrunning
    rw [not_not] at hrunning
    have hlt : s.currentStep < x.plan.steps.length := hs.lt h (by simp [hrunning])
    split
    · refine Ensures.ite (fun _ => ensures_throw hself) fun _ => ?_
      refine Ensures.ite (fun _ => ensures_throw hself) fun _ => ?_
      refine Ensures.ite (fun _ => ensures_throw hself) fun _ => ?_
      refine (inputFor_stays h _ _ _ _ _ _).bind ?_ ?_
      · rintro payload t ⟨ht, -⟩
        apply Ensures.ite
        · intro _
          exact ensures_throw (ht.kept hlt)
        · intro _
          exact hchecked ht hrunning _ _ _
      · rintro e t ⟨ht, -⟩
        exact ht.kept hlt
    · exact ensures_throw hself

/-- A timer that fires, whether it is stale or not. -/
theorem fires_kept (htargets : x.TargetsValid) (fuel : ℕ) (h : Sound x s) (hs : Settled x s)
    (timer : Timer) : Ensures (handle x fuel (.fires timer)) s fun _ t => Kept x t := by
  have hself : Kept x s := ⟨h, hs⟩
  have hlive : ∀ {p : Prop}, ¬(s.status ≠ .running ∨ p) →
      s.status = .running ∧ s.currentStep < x.plan.steps.length := by
    intro p hnot
    have hrunning : s.status = .running := by
      by_contra hstatus
      exact hnot (.inl hstatus)
    exact ⟨hrunning, hs.lt h (by simp [hrunning])⟩
  cases timer with
  | total token =>
    refine ensures_modify ?_
    split
    · exact hself
    · rename_i hnot
      exact end_kept h (hlive hnot).2 _ _ _ _ _ _ _
  | responseRetry token =>
    refine ensures_get (Ensures.ite (fun _ => ensures_pure hself) fun hnot => ?_)
    split
    · rename_i step hstep
      exact evaluateExpect_kept htargets fuel h hstep
    · exact ensures_pure hself
  | step token =>
    refine ensures_get (Ensures.ite (fun _ => ensures_pure hself) fun hnot => ?_)
    obtain ⟨hrunning, hlt⟩ := hlive hnot
    split
    · exact ensures_throw hself
    · rename_i step hstep
      unfold timeoutBranch
      cases step.branches? with
      | none =>
        apply ensures_modify_bind
        exact ensures_modify (end_kept h hlt _ _ _ _ _ _ _)
      | some branches =>
        exact failStep_kept htargets fuel h hrunning hlt .timedOut _ _ _ _ _ _ .timedOut
          (fun s => s.timeoutCode step) fun s => timeoutMessage s.currentStep step.label
  | idle token =>
    refine ensures_get (Ensures.ite (fun _ => ensures_pure hself) fun hnot => ?_)
    obtain ⟨hrunning, hlt⟩ := hlive hnot
    split
    · apply Ensures.ite
      · intro _
        exact ensures_pure hself
      · intro _
        apply ensures_modify_bind
        have hread : Stays x s { s with readings := s.readings + 1 } :=
          ⟨⟨h.placed, h.limited, h.counted⟩, rfl, rfl⟩
        generalize ({ s with readings := s.readings + 1 } : Runner) = t at hread
        apply Ensures.ite
        · intro _
          exact ensures_pure (hread.kept hlt)
        · intro _
          apply ensures_modify_bind
          have hstatus := hread.status.trans hrunning
          have hplace := hread.position.trans_lt hlt
          exact branchOrNext_kept htargets fuel (hread.sound.finishActiveStep _ _ _ _) (by simp)
            (by simpa using hstatus) (by simpa using hplace) _ _ _
    · exact ensures_pure hself

/-- What one stimulus keeps. -/
theorem handle_kept (htargets : x.TargetsValid) (fuel : ℕ) (h : Sound x s) (hs : Settled x s)
    (stimulus : Stimulus) : Ensures (handle x fuel stimulus) s fun _ t => Kept x t := by
  cases stimulus with
  | start => exact start_kept htargets fuel h hs
  | output message => exact onOutput_kept htargets fuel h hs message
  | sessionState state => exact onSessionState_kept htargets fuel h hs state
  | cancel byUser =>
    refine ensures_modify ?_
    split
    · exact ⟨h, hs⟩
    · rename_i hlive
      have hlt : s.currentStep < x.plan.steps.length := by
        refine hs.lt h fun hcompleted => hlive ?_
        rw [Runner.isTerminal, hcompleted]
        rfl
      exact end_kept h hlt _ _ _ _ _ _ _
  | manualInput text control secretRef appendEnter =>
    exact sendManualInput_kept htargets fuel h hs text control secretRef appendEnter
  | resume => exact resume_kept htargets fuel h hs
  | fires timer => exact fires_kept htargets fuel h hs timer

/-! ## Runs -/

/-- Whether an execution becomes terminal by a stimulus. -/
def becomesTerminal (s : Runner) (stimulus : Stimulus) (t : Runner) : Bool :=
  t.isTerminal && (!s.isTerminal || stimulus.resumes s)

/-- The states of an execution to which stimuli lead, with the number of times that it has become
terminal on the way. A stimulus may return or raise. -/
inductive Reaches (x : Execution) : ℕ → Runner → Prop
  | created : Reaches x 0 {}
  | stimulated {n : ℕ} {s t : Runner} {stimulus : Stimulus} {fuel : ℕ}
      {r : Except ExecutionError Unit} (reached : Reaches x n s)
      (stimulates : (handle x fuel stimulus).run s = some (r, t)) :
      Reaches x (n + if becomesTerminal s stimulus t then 1 else 0) t

/-- One stimulus makes one notice when the execution becomes terminal by it. -/
theorem handle_notices (fuel : ℕ) (stimulus : Stimulus) (s : Runner) :
    Ensures (handle x fuel stimulus) s fun _ t =>
      t.notices = s.notices + if becomesTerminal s stimulus t then 1 else 0 := by
  by_cases hresumes : stimulus.resumes s = true
  · cases stimulus with
    | resume =>
      refine (resume_progress fuel s).mono ?_
      rintro r t (⟨hnot, -, -⟩ | ⟨-, ht⟩)
      · exact absurd (by simpa [Stimulus.resumes] using hresumes) hnot
      · have hlive : ((s.reset x).recordEvent x { type := "resumed" }).isTerminal = false := by
          simp [Runner.isTerminal, Runner.reset, ExecutionStatus.isTerminal]
        rw [ht.notices, becomesTerminal, hresumes, hlive, Bool.or_true, Bool.and_true,
          Runner.recordEvent_notices]
        rfl
    | _ => exact absurd hresumes Bool.false_ne_true
  · rw [Bool.not_eq_true] at hresumes
    refine (handle_progress fuel hresumes).mono ?_
    intro r t ht
    rw [ht.notices, becomesTerminal, hresumes, Bool.or_false, Bool.and_comm]

theorem Reaches.notices {n : ℕ} (h : Reaches x n s) : s.notices = n := by
  induction h with
  | created => rfl
  | stimulated reached stimulates ih =>
    rw [handle_notices _ _ _ _ _ stimulates, ih]

/-- Every state that is reached is one that the methods keep. -/
theorem Reaches.kept (htargets : x.TargetsValid) (hsteps : x.plan.steps ≠ []) {n : ℕ}
    (h : Reaches x n s) : Kept x s := by
  induction h with
  | created =>
    constructor
    · refine .inactive (Nat.zero_le _) ?_ rfl
      intro newer rule payload older heq
      exact absurd heq (by simp)
    · exact Settled.of_lt (List.length_pos_iff.mpr hsteps)
  | stimulated reached stimulates ih =>
    exact handle_kept htargets _ ih.sound ih.settled _ _ _ stimulates

/-- What the lifecycle of an execution promises of every state that it reaches. -/
structure Lifecycle (x : Execution) : Prop where
  /-- A terminal status changes by resuming a takeover only. -/
  frozen : ∀ n s t stimulus fuel r, Reaches x n s → (handle x fuel stimulus).run s = some (r, t) →
    s.isTerminal = true → stimulus.resumes s = false → t.status = s.status
  /-- `on_finished` has been called once for each time the execution became terminal. -/
  notified : ∀ n s, Reaches x n s → s.notices = n
  placed : ∀ n s, Reaches x n s → s.currentStep ≤ x.plan.steps.length
  /-- Behind the last step the execution is completed. -/
  finishing : ∀ n s, Reaches x n s → s.currentStep = x.plan.steps.length → s.status = .completed
  limited : ∀ n s, Reaches x n s → WithinLimits x.plan s.effects

omit [PyRe] in
/-- The send steps of a plan that the parser accepts go to positions of the plan. -/
theorem targetsValid_of_parse {raw total : Value} {plan : TerminalExecutionPlan}
    (h : parseTerminalPlan raw total = .ok plan) :
    ({ x with plan := plan } : Execution).TargetsValid := by
  obtain ⟨-, -, -, -, -, -, -, -, -, hnumeric⟩ := parseTerminalPlan_eq_ok.mp h
  intro index step target hstep htarget
  exact target_lt hnumeric hstep htarget

end

end DeviceShell.Terminal
