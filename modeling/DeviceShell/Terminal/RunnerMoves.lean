import DeviceShell.Terminal.Runner
import Mathlib.Logic.Relation

/-!
# The moves of a runner

Whatever a method of the runner does is a sequence of moves: it sends an input, schedules a
callback of a step, arms a step, finishes, or changes what is neither the status nor the token nor
an effect. `handle_moves` says so of every stimulus. A start and a resume open the execution first:
it runs, and its total timeout is scheduled.

What holds across every move holds across every stimulus, so an invariant of an execution is proved
of a move.
-/

namespace DeviceShell.Terminal

open Method

/-- Whether a callback is the one of the total timeout. -/
def Timer.isTotal : Timer → Bool
  | total _ => true
  | _ => false

/-- The token that a callback was given. -/
def Timer.token : Timer → ℕ
  | total token => token
  | step token => token
  | idle token => token
  | responseRetry token => token

/-- Whether an effect sends an input. -/
def Effect.isInput : Effect → Bool
  | sent _ => true
  | responded _ _ => true
  | _ => false

/-- The state with one more effect. -/
def Runner.note (effect : Effect) (s : Runner) : Runner :=
  { s with effects := effect :: s.effects }

/-- What a method does at a time. -/
inductive Move (x : Execution) : Runner → Runner → Prop where
  | quiet {s t : Runner} (status : t.status = s.status) (token : t.stepToken = s.stepToken)
      (effects : t.effects = s.effects) : Move x s t
  | input {s : Runner} {effect : Effect} (input : effect.isInput = true) : Move x s (s.note effect)
  | schedules {s : Runner} {delay : ℤ} {timer : Timer} (step : timer.isTotal = false)
      (token : timer.token = s.stepToken) : Move x s (s.note (.scheduled delay timer))
  | arms {s : Runner} (kind : StepKind) (label : String) : Move x s (s.arm x kind label)
  | finishes {s : Runner} {status : ExecutionStatus} (terminal : status.isTerminal = true)
      (errorCode message : String) : Move x s (s.finish x status errorCode message)

/-- Some moves. -/
abbrev Moves (x : Execution) : Runner → Runner → Prop := Relation.ReflTransGen (Move x)

instance (x : Execution) : IsPreorder Runner (Moves x) where
  refl _ := .refl
  trans _ _ _ := .trans

variable {x : Execution} {s t : Runner}

/-- What holds across every move holds across some. -/
theorem Moves.lift {P : Runner → Runner → Prop} [IsPreorder Runner P]
    (hmove : ∀ s t, Move x s t → P s t) (h : Moves x s t) : P s t := by
  induction h with
  | refl => exact refl_of P s
  | tail _ hlast ih => exact trans_of P ih (hmove _ _ hlast)

theorem moves_quiet (status : t.status = s.status) (token : t.stepToken = s.stepToken)
    (effects : t.effects = s.effects) : Moves x s t :=
  .single (.quiet status token effects)

@[simp] theorem Runner.recordEvent_status (event : ExecutionEvent) (s : Runner) :
    (s.recordEvent x event).status = s.status := by
  simp only [Runner.recordEvent]

@[simp] theorem Runner.recordEvent_stepToken (event : ExecutionEvent) (s : Runner) :
    (s.recordEvent x event).stepToken = s.stepToken := by
  simp only [Runner.recordEvent]

@[simp] theorem Runner.recordEvent_effects (event : ExecutionEvent) (s : Runner) :
    (s.recordEvent x event).effects = s.effects := by
  simp only [Runner.recordEvent]

theorem moves_recordEvent (event : ExecutionEvent) (s : Runner) :
    Moves x s (s.recordEvent x event) :=
  moves_quiet (by simp) (by simp) (by simp)

/-- What has ended stays as it is; anything else moves to the next token. -/
theorem Runner.finish_cases (x : Execution) (status : ExecutionStatus) (errorCode message : String)
    (s : Runner) : s.finish x status errorCode message = s ∨
      (s.finish x status errorCode message).stepToken = s.stepToken + 1 ∧
        (s.finish x status errorCode message).effects = .finished :: s.effects := by
  unfold Runner.finish
  by_cases hterminal : s.isTerminal = true
  · exact .inl (if_pos hterminal)
  · rw [if_neg hterminal]
    exact .inr ⟨by simp, by simp⟩

theorem moves_finishActiveStep (status : ExecutionStatus) (matched errorCode message : String)
    (s : Runner) : Moves x s (s.finishActiveStep x status matched errorCode message) := by
  unfold Runner.finishActiveStep
  split
  · exact .refl
  · exact moves_quiet rfl rfl rfl

theorem moves_finish {status : ExecutionStatus} (terminal : status.isTerminal = true)
    (errorCode message : String) (s : Runner) :
    Moves x s (s.finish x status errorCode message) :=
  .single (.finishes terminal errorCode message)

/-- A step and its execution end together. -/
theorem moves_end {status : ExecutionStatus} (terminal : status.isTerminal = true)
    (stepStatus : ExecutionStatus) (matched stepCode stepMessage errorCode message : String)
    (s : Runner) :
    Moves x s ((s.finishActiveStep x stepStatus matched stepCode stepMessage).finish x status
      errorCode message) :=
  (moves_finishActiveStep _ _ _ _ s).trans (moves_finish terminal _ _ _)

/-! ## Going on with the plan -/

section

variable [PyLib]

/-- A callback of a step is given the token of the state. -/
theorem schedule_moves (seconds : PyFloat) {timer : Timer} (step : timer.isTotal = false)
    (token : timer.token = s.stepToken) :
    Ensures (schedule seconds timer) s fun _ t => Moves x s t := by
  refine (schedule_ensures seconds timer s).mono ?_
  rintro r t (rfl | ⟨delay, -, rfl⟩)
  · exact .refl
  · exact .single (.schedules step token)

theorem inputFor_within (text control secretRef secretPrefix secretSuffix : String)
    (appendEnter : Bool) :
    Within (Moves x) (inputFor x text control secretRef secretPrefix secretSuffix appendEnter) := by
  intro s
  refine (inputFor_ensures x text control secretRef secretPrefix secretSuffix appendEnter s).mono ?_
  rintro r t ⟨⟨secrets, rfl⟩, -⟩
  exact moves_quiet rfl rfl rfl

omit [PyLib] in
theorem sendInput_within (payload : TerminalInput) : Within (Moves x) (sendInput payload) :=
  within_modify fun _ => .single (.input rfl)

theorem armWait_within (kind : StepKind) (label : String) (timeoutSeconds : PyFloat) :
    Within (Moves x) (armWait x kind label timeoutSeconds) := by
  refine (within_modify fun s => .single (.arms kind label)).bind fun _ => within_get fun s => ?_
  exact schedule_moves timeoutSeconds rfl rfl

theorem runSend_within (step : SendStep) : Within (Moves x) (runSend x step) := by
  have hsend : ∀ nextIndex, Within (Moves x) (sendStep x step nextIndex) := by
    intro nextIndex
    have hmove : ∀ s : Runner, Moves x s
        { s.finishActiveStep x .completed "" "" "" with currentStep := nextIndex } := fun s =>
      (moves_finishActiveStep (x := x) .completed "" "" "" s).trans (moves_quiet rfl rfl rfl)
    refine (inputFor_within _ _ _ _ _ _).bind fun payload => (within_modify hmove).bind fun _ => ?_
    split
    · refine (armWait_within _ _ _).bind fun _ => within_get fun s => ?_
      exact ((sendInput_within payload).bind fun _ => within_get fun s =>
        within_pure (P := Moves x) s) s
    · exact (sendInput_within payload).bind fun _ => within_pure
  have hbegin : ∀ s : Runner, Moves x s (s.beginSend x step.label) := fun s =>
    moves_quiet rfl rfl rfl
  refine (within_modify hbegin).bind fun _ => within_get fun s => ?_
  refine (hsend _).tryCatch (fun e => ?_) s
  cases e with
  | terminalPlan code message details =>
    exact (within_modify (moves_end rfl _ _ _ _ _ _)).bind fun _ => within_pure
  | python e => exact within_throw

theorem advance_within (fuel : ℕ) : Within (Moves x) (advance x fuel) := by
  induction fuel with
  | zero => exact within_exhausted
  | succ fuel ih =>
    refine within_get fun s => ?_
    refine Within.ite within_pure ?_ s
    split
    · exact within_modify (moves_finish rfl _ _)
    · exact (runSend_within _).bind fun armed => Within.ite within_pure ih
    · exact armWait_within _ _ _
    · exact armWait_within _ _ _

theorem takeBranch_within (fuel : ℕ) (maxRetries : ℤ) (target reason : String) :
    Within (Moves x) (takeBranch x fuel maxRetries target reason) := by
  have hcount : ∀ index (s : Runner), Moves x s (s.countBranch index reason) := by
    intro index s
    unfold Runner.countBranch
    split
    · exact moves_quiet rfl rfl rfl
    · exact moves_quiet rfl rfl rfl
  have hjump : ∀ index (s : Runner), Moves x s { s with currentStep := index } := fun _ s =>
    moves_quiet rfl rfl rfl
  unfold takeBranch
  refine Within.ite within_pure (within_get fun s => ?_)
  split
  · exact ((within_modify (moves_finish rfl _ _)).bind fun _ => within_pure) s
  · refine ((within_modify (hcount _)).bind fun _ => within_get fun s => ?_) s
    refine Within.ite ?_ ?_ s
    · exact (within_modify (P := Moves x) fun s => moves_finish rfl _ _ s).bind fun _ =>
        within_pure
    · exact (within_modify (hjump _)).bind fun _ => (advance_within fuel).bind fun _ => within_pure

theorem branchOrNext_within (fuel : ℕ) (maxRetries : ℤ) (target reason : String) :
    Within (Moves x) (branchOrNext x fuel maxRetries target reason) := by
  refine (takeBranch_within fuel maxRetries target reason).bind fun taken => ?_
  refine Within.ite within_pure ?_
  exact within_modify_bind (fun s => moves_quiet rfl rfl rfl) (advance_within fuel)

theorem completeExpect_within (fuel : ℕ) (step : ExpectStep) (matched : String) :
    Within (Moves x) (completeExpect x fuel step matched) := by
  have hcomplete : ∀ s : Runner, Moves x s (s.completeStep x matched) := by
    intro s
    have hmatched : Moves x s { s with matchedPrompt := matched } := moves_quiet rfl rfl rfl
    exact (hmatched.trans (moves_recordEvent _ _)).trans (moves_finishActiveStep _ _ _ _ _)
  refine (within_modify hcomplete).bind fun _ => ?_
  split
  · refine within_get fun s => Within.ite ?_ ?_ s
    · exact within_modify (moves_finish rfl _ _)
    · exact within_modify_bind (fun s => moves_quiet rfl rfl rfl) (advance_within fuel)
  · exact branchOrNext_within fuel _ _ _

theorem onSessionState_within (fuel : ℕ) (state : String) :
    Within (Moves x) (onSessionState x fuel state) := by
  have hdisconnect : ∀ (c : Bool) (normalized : String), Within (Moves x)
      (if c = true then modify fun s => s.disconnect x normalized else pure () : RunnerM Unit) :=
    fun c normalized => Within.ite (within_modify (moves_end rfl _ _ _ _ _ _)) within_pure
  have hbranch : ∀ (matched : String) (maxRetries : ℤ) (target reason : String), Within (Moves x)
      (do
        modify fun s => s.finishActiveStep x .completed matched "" ""
        branchOrNext x fuel maxRetries target reason : RunnerM Unit) :=
    fun _ _ _ _ => (within_modify (moves_finishActiveStep _ _ _ _)).bind fun _ =>
      branchOrNext_within fuel _ _ _
  refine within_get fun s => Within.ite within_pure ?_ s
  split
  · exact Within.ite (hbranch _ _ _ _) (hdisconnect _ _)
  · exact Within.ite (hbranch _ _ _ _) (hdisconnect _ _)
  · exact hdisconnect _ _

omit [PyLib] in
theorem cancel_within (byUser : Bool) : Within (Moves x) (cancel x byUser) := by
  refine within_modify fun s => ?_
  split
  · exact .refl
  · cases byUser with
    | true => exact moves_end rfl _ _ _ _ _ _ s
    | false => exact moves_end rfl _ _ _ _ _ _ s

/-! ## Looking at the output -/

variable [PyRe]

theorem applyResponses_within (step : ExpectStep) : Within (Moves x) (applyResponses x step) := by
  have hfail : ∀ (matched errorCode stepMessage message : String) (s : Runner),
      Moves x s (s.fail x matched errorCode stepMessage message) :=
    fun _ _ _ _ s => moves_end rfl _ _ _ _ _ _ s
  have hpayload : ∀ rule found, Within (Moves x) (responsePayload x rule found) := by
    intro rule found
    refine Within.tryCatch ?_ fun e => ?_
    · refine (inputFor_within _ _ _ _ _ _).bind fun payload => Within.ite ?_ within_pure
      exact (within_modify (hfail _ _ _ _)).bind fun _ => within_pure
    · cases e with
      | terminalPlan code message details =>
        exact (within_modify (hfail _ _ _ _)).bind fun _ => within_pure
      | python e => exact within_throw
  have hrespond : ∀ index rule stop payload,
      Within (Moves x) (respond x step index rule stop payload) := by
    intro index rule stop payload
    refine within_get fun s => ?_
    split
    · exact within_throw s
    · rename_i result _
      have hanswer : ∀ s : Runner, Moves x s (s.answer x rule payload stop result) := fun s =>
        moves_quiet rfl rfl rfl
      refine ((within_modify hanswer).bind fun _ => ?_) s
      have hsend : ∀ s : Runner, Moves x s (s.note (.responded index payload)) := fun s =>
        .single (.input rfl)
      refine (within_modify hsend).bind fun _ => within_get fun s => ?_
      have hschedule : Moves x s
          (s.note (.scheduled responseRetryDelayMs (.responseRetry s.stepToken))) :=
        .single (.schedules rfl rfl)
      exact Ensures.ite (fun _ => ensures_modify hschedule) fun _ => ensures_pure .refl
  refine within_get fun s => ?_
  split
  · exact within_pure s
  · rename_i index _ _ _ _
    have hcount : ∀ (count : ℕ) (s : Runner),
        Moves x s { s with responseCounts := s.responseCounts.set index count } :=
      fun _ _ => moves_quiet rfl rfl rfl
    refine within_modify_bind (hcount _) ?_ s
    refine Within.ite (within_modify fun s => hfail _ _ _ _ s) ?_
    refine (hpayload _ _).bind fun payload => ?_
    split
    · exact within_pure
    · exact hrespond _ _ _ _

theorem evaluateOutcome_within (fuel : ℕ) (step : ExpectStep) (responded : Bool)
    (expectedSuccess : Option (String × ℕ)) :
    Within (Moves x) (evaluateOutcome x fuel step responded expectedSuccess) := by
  refine within_get fun s => ?_
  split
  · exact completeExpect_within fuel _ _ s
  · refine ((within_modify (moves_finishActiveStep _ _ _ _)).bind fun _ => ?_) s
    refine (takeBranch_within fuel _ _ _).bind fun taken => Within.ite within_pure ?_
    exact within_modify fun s => moves_finish rfl _ _ s
  · refine Ensures.ite (fun _ => ensures_pure .refl) fun _ => ?_
    split
    · exact completeExpect_within fuel _ _ s
    · exact Ensures.ite (fun _ => schedule_moves _ rfl rfl) fun _ => ensures_pure .refl

theorem evaluateExpect_within (fuel : ℕ) (step : ExpectStep) :
    Within (Moves x) (evaluateExpect x fuel step) := by
  have hforget : ∀ prompt (s : Runner), Moves x s (s.forgetAnswered prompt) := by
    intro prompt s
    unfold Runner.forgetAnswered
    split
    · exact moves_quiet rfl rfl rfl
    · split
      · exact moves_quiet rfl rfl rfl
      · exact moves_quiet rfl rfl rfl
  have hrequire : ∀ prompt (s : Runner), Moves x s (s.requireInteraction x prompt) := by
    intro prompt s
    unfold Runner.requireInteraction
    split
    · exact moves_quiet (by simp) (by simp) (by simp)
    · exact moves_quiet rfl rfl rfl
  refine within_get fun s => ((applyResponses_within step).bind fun _ => within_get fun s => ?_) s
  refine Within.ite within_pure ?_ s
  refine (within_modify (hforget _)).bind fun _ => ?_
  split
  · exact evaluateOutcome_within fuel _ _ _
  · refine within_lift.bind fun answered => Within.ite (completeExpect_within fuel _ _) ?_
    exact Within.ite (within_modify (hrequire _)) (evaluateOutcome_within fuel _ _ _)

theorem onOutput_within (fuel : ℕ) (message : String) :
    Within (Moves x) (onOutput x fuel message) := by
  refine within_get fun s => Within.ite within_pure ?_ s
  split
  · rename_i step result _ _
    have hreceive : ∀ s : Runner, Moves x s (s.receive x step result message) := fun s =>
      moves_quiet rfl rfl rfl
    exact (within_modify hreceive).bind fun _ => evaluateExpect_within fuel _
  · exact within_pure

theorem sendManualInput_within (fuel : ℕ) (text control secretRef : String) (appendEnter : Bool) :
    Within (Moves x) (sendManualInput x fuel text control secretRef appendEnter) := by
  have hchecked : ∀ step control payload,
      Within (Moves x) (sendChecked x fuel step control payload) := by
    intro step control payload
    refine (within_modify (P := Moves x) fun s => ?_).bind fun _ => ?_
    · exact moves_quiet (by simp) (by simp) (by simp)
    refine (sendInput_within payload).bind fun _ => within_get fun s => ?_
    have htake : ∀ s : Runner, Moves x s s.takeAnswer := fun _ => moves_quiet rfl rfl rfl
    refine within_modify_bind htake ?_ s
    split
    · exact completeExpect_within fuel _ _
    · exact within_modify fun s => moves_quiet rfl rfl rfl
  refine within_get fun s => Within.ite within_throw ?_ s
  split
  · refine Within.ite within_throw (Within.ite within_throw (Within.ite within_throw ?_))
    exact (inputFor_within _ _ _ _ _ _).bind fun payload =>
      Within.ite within_throw (hchecked _ _ _)
  · exact within_throw

theorem fires_within (fuel : ℕ) (timer : Timer) :
    Within (Moves x) (handle x fuel (.fires timer)) := by
  cases timer with
  | total token =>
    refine within_modify fun s => ?_
    split
    · exact moves_quiet rfl rfl rfl
    · exact moves_end rfl _ _ _ _ _ _ s
  | responseRetry token =>
    refine within_get fun s => Within.ite within_pure ?_ s
    split
    · exact evaluateExpect_within fuel _
    · exact within_pure
  | step token =>
    refine within_get fun s => Within.ite within_pure ?_ s
    split
    · exact within_throw
    · rename_i step _
      refine (within_modify fun s => moves_finishActiveStep _ _ _ _ s).bind fun _ => ?_
      have hbranch : Within (Moves x) (timeoutBranch x fuel step) := by
        unfold timeoutBranch
        split
        · exact within_pure
        · exact takeBranch_within fuel _ _ _
      refine hbranch.bind fun taken => Within.ite within_pure ?_
      exact within_modify fun s => moves_finish rfl _ _ s
  | idle token =>
    refine within_get fun s => Within.ite within_pure ?_ s
    split
    · refine Within.ite within_pure ?_
      refine within_modify_bind (fun s => moves_quiet rfl rfl rfl) ?_
      refine Within.ite within_pure ?_
      exact (within_modify (moves_finishActiveStep _ _ _ _)).bind fun _ =>
        branchOrNext_within fuel _ _ _
    · exact within_pure

/-! ## Stimuli -/

/-- What a stimulus that opens the execution does before it goes on with the plan. -/
def Stimulus.opened (x : Execution) (s : Runner) : Stimulus → Option Runner
  | .start => if s.status = .pending then
      some ((s.begin x).recordEvent x { type := "started" }) else none
  | .resume => if s.status = .cancelledByUser then
      some ((s.reset x).recordEvent x { type := "resumed" }) else none
  | _ => none

/-- The state from which the moves of a stimulus go on: an execution that is opened runs and has
scheduled its total timeout, if the timeout can be given in milliseconds. -/
def Opens (x : Execution) (stimulus : Stimulus) (s u : Runner) : Prop :=
  match stimulus.opened x s with
  | none => u = s
  | some opened => u = opened ∨ ∃ delay, milliseconds x.plan.totalTimeoutSeconds = .ok delay ∧
      u = opened.note (.scheduled delay (.total opened.stepToken))

omit [PyRe] in
/-- An execution that has been opened schedules its total timeout and goes on with the plan. -/
theorem open_moves (fuel : ℕ) (s : Runner) :
    Ensures (do
      schedule x.plan.totalTimeoutSeconds (.total s.stepToken)
      advance x fuel : RunnerM Unit) s fun _ t =>
        ∃ u, (u = s ∨ ∃ delay, milliseconds x.plan.totalTimeoutSeconds = .ok delay ∧
          u = s.note (.scheduled delay (.total s.stepToken))) ∧ Moves x u t := by
  refine (schedule_ensures _ _ s).bind ?_ ?_
  · rintro - u hu
    exact (advance_within fuel u).mono fun _ t ht => ⟨u, hu, ht⟩
  · intro e u hu
    exact ⟨u, hu, .refl⟩

/-- Whatever a stimulus does is to open the execution, if it does, and some moves. -/
theorem handle_moves (fuel : ℕ) (stimulus : Stimulus) (s : Runner) :
    Ensures (handle x fuel stimulus) s fun _ t => ∃ u, Opens x stimulus s u ∧ Moves x u t := by
  have hsame : ∀ {t : Runner}, Moves x s t → ∃ u, u = s ∧ Moves x u t := fun h => ⟨s, rfl, h⟩
  cases stimulus with
  | start =>
    refine ensures_get (Ensures.ite (fun hnot => ?_) fun hpending => ?_)
    · simp only [Opens, Stimulus.opened, if_neg hnot]
      exact ensures_pure (hsame .refl)
    · simp only [Opens, Stimulus.opened, if_pos (not_not.1 hpending)]
      exact ensures_modify_bind (open_moves fuel ((s.begin x).recordEvent x { type := "started" }))
  | resume =>
    refine ensures_get (Ensures.ite (fun hnot => ?_) fun htaken => ?_)
    · simp only [Opens, Stimulus.opened, if_neg hnot]
      exact ensures_throw (hsame .refl)
    · simp only [Opens, Stimulus.opened, if_pos (not_not.1 htaken)]
      exact ensures_modify_bind (open_moves fuel ((s.reset x).recordEvent x { type := "resumed" }))
  | output message => exact (onOutput_within fuel message s).mono fun _ _ => hsame
  | sessionState state => exact (onSessionState_within fuel state s).mono fun _ _ => hsame
  | cancel byUser => exact (cancel_within byUser s).mono fun _ _ => hsame
  | manualInput text control secretRef appendEnter =>
    exact (sendManualInput_within fuel text control secretRef appendEnter s).mono fun _ _ => hsame
  | fires timer => exact (fires_within fuel timer s).mono fun _ _ => hsame

end

end DeviceShell.Terminal
