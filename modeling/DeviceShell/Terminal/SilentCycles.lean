import DeviceShell.Terminal.Runner
import Mathlib.Data.Fintype.Pigeonhole

/-!
# Whether a stimulus returns

The loop of `_advance_locked` goes on as long as it is at a send step, and `success` of a send step
may be any step of the plan, itself included. `returns_iff_noSilentCycle` says of every list of steps
that the parser accepts that each stimulus returns from each state exactly when no send steps lead
back to where they began: on such a cycle the loop has no end (`advance_endless`), and elsewhere a
bound by the number of steps is enough for it (`advance_returns_of_acyclic`).
-/

namespace DeviceShell.Terminal

open Method

/-- Whether a position of the plan is a send step whose input can be made. -/
def Execution.Sends (x : Execution) (index : ℕ) : Prop :=
  match x.plan.steps[index]? with
  | some (.send step) => x.hasInput step.control step.secretRef = true
  | _ => False

/-- The position after a step that is sent. -/
def Execution.next (x : Execution) (index : ℕ) : ℕ :=
  match x.plan.steps[index]? with
  | some (.send step) => step.nextStep.getD (index + 1)
  | _ => index + 1

/-- Sends lead from a position back to it. -/
def Execution.SilentCycle (x : Execution) : Prop :=
  ∃ index length, 0 < length ∧ x.next^[length] index = index ∧
    ∀ k < length, x.Sends (x.next^[k] index)

variable {x : Execution}

/-! ## Positions -/

theorem Execution.Sends.lt {index : ℕ} (h : x.Sends index) : index < x.plan.steps.length := by
  unfold Execution.Sends at h
  by_contra hge
  rw [List.getElem?_eq_none (by omega)] at h
  exact h

/-- Where a position is sent, the plan has a send step whose input can be made. -/
theorem Execution.Sends.step {index : ℕ} (h : x.Sends index) :
    ∃ step, x.plan.steps[index]? = some (.send step) ∧
      x.hasInput step.control step.secretRef = true ∧
      x.next index = step.nextStep.getD (index + 1) := by
  unfold Execution.Sends at h
  split at h
  · rename_i step hstep
    exact ⟨step, hstep, h, by simp [Execution.next, hstep]⟩
  · exact h.elim

/-- More sends in a row than the plan has steps come back to where they have been. -/
theorem silentCycle_of_sends {index : ℕ}
    (h : ∀ k ≤ x.plan.steps.length, x.Sends (x.next^[k] index)) : x.SilentCycle := by
  have hlt : ∀ k : Fin (x.plan.steps.length + 1),
      x.next^[(k : ℕ)] index < x.plan.steps.length := fun k => (h k (by omega)).lt
  obtain ⟨i, j, hne, heq⟩ := Fintype.exists_ne_map_eq_of_card_lt
    (fun k : Fin (x.plan.steps.length + 1) =>
      (⟨x.next^[(k : ℕ)] index, hlt k⟩ : Fin x.plan.steps.length)) (by simp)
  have hsame : x.next^[(i : ℕ)] index = x.next^[(j : ℕ)] index := congrArg Fin.val heq
  have hclose : ∀ i j : ℕ, i < j → j ≤ x.plan.steps.length →
      x.next^[i] index = x.next^[j] index → x.SilentCycle := by
    intro i j hij hj hsame
    refine ⟨x.next^[i] index, j - i, by omega, ?_, fun k hk => ?_⟩
    · rw [← Function.iterate_add_apply, show j - i + i = j by omega, hsame]
    · rw [← Function.iterate_add_apply]
      exact h (k + i) (by omega)
  have hval : (i : ℕ) ≠ j := fun h => hne (Fin.ext h)
  by_cases hij : (i : ℕ) < j
  · exact hclose i j hij (by omega) hsame
  · exact hclose j i (by omega) (by omega) hsame.symm

/-- Around a cycle every position is sent, however far it is followed. -/
theorem sends_of_cycle {index length : ℕ} (hpos : 0 < length)
    (hback : x.next^[length] index = index)
    (h : ∀ k < length, x.Sends (x.next^[k] index)) (k : ℕ) : x.Sends (x.next^[k] index) := by
  have hround : ∀ n, x.next^[length * n] index = index := by
    intro n
    rw [Function.iterate_mul]
    exact Function.iterate_fixed hback n
  have hk : k = k % length + length * (k / length) := (Nat.mod_add_div k length).symm
  rw [hk, Function.iterate_add_apply, hround]
  exact h _ (Nat.mod_lt k hpos)

/-- Every position from which sends never end is on the way into a cycle. -/
theorem exists_not_sends (h : ¬x.SilentCycle) (index : ℕ) :
    ∃ k ≤ x.plan.steps.length, ¬x.Sends (x.next^[k] index) := by
  by_contra hall
  have hsends : ∀ k ≤ x.plan.steps.length, x.Sends (x.next^[k] index) := by
    intro k hk
    by_contra hnot
    exact hall ⟨k, hk, hnot⟩
  exact h (silentCycle_of_sends hsends)

section

variable [PyLib]

/-! ## One iteration of the loop -/

/-- Arming a step leaves the status and the position. -/
theorem armWait_ensures (kind : StepKind) (label : String) (timeoutSeconds : PyFloat)
    (s : Runner) : Ensures (armWait x kind label timeoutSeconds) s fun _ s' =>
      s'.status = s.status ∧ s'.currentStep = s.currentStep := by
  unfold armWait
  apply ensures_modify_bind
  apply ensures_get
  refine (schedule_ensures timeoutSeconds _ _).mono ?_
  rintro r s' (rfl | ⟨delay, -, rfl⟩)
  · exact ⟨rfl, rfl⟩
  · exact ⟨rfl, rfl⟩

/-- A send that is not followed by a wait goes on from the next position. -/
theorem sendStep_ensures (step : SendStep) (nextIndex : ℕ) (s : Runner) :
    Ensures (sendStep x step nextIndex) s fun r s' => s'.status = s.status ∧
      (∀ armed, r = .ok armed →
        x.hasInput step.control step.secretRef = true ∧ s'.currentStep = nextIndex) ∧
      (x.hasInput step.control step.secretRef = true →
        (∀ next, x.plan.steps[nextIndex]? ≠ some (.expect next)) → r = .ok false) := by
  unfold sendStep
  refine (inputFor_ensures x step.text step.control step.secretRef step.secretPrefix
    step.secretSuffix step.appendEnter s).bind ?_ ?_
  · rintro payload s' ⟨⟨secrets, rfl⟩, hok⟩
    have hinput : x.hasInput step.control step.secretRef = true := hok.mp rfl
    apply ensures_modify_bind
    split
    · rename_i next hnext
      refine (armWait_ensures (x := x) .expect next.label next.timeoutSeconds _).bind ?_ ?_
      · rintro _ t ⟨hstatus, hstep⟩
        refine ensures_get (ensures_modify_bind (ensures_get (ensures_pure ?_)))
        refine ⟨by simpa using hstatus, fun _ _ => ⟨hinput, hstep⟩, fun _ hnot => ?_⟩
        exact absurd hnext (hnot next)
      · rintro e t ⟨hstatus, -⟩
        refine ⟨by simpa using hstatus, fun _ h => absurd h (by simp), fun _ hnot => ?_⟩
        exact absurd hnext (hnot next)
    · refine ensures_modify_bind (ensures_pure ⟨by simp, fun _ _ => ⟨hinput, rfl⟩, fun _ _ => rfl⟩)
  · rintro e s' ⟨⟨secrets, rfl⟩, hok⟩
    have hinput : ¬x.hasInput step.control step.secretRef = true := fun h =>
      absurd (hok.mpr h) (by simp [Except.isOk, Except.toBool])
    exact ⟨rfl, fun _ h => absurd h (by simp), fun h _ => absurd h hinput⟩

/-- One iteration at a send step: while the execution runs, the position is the next one. -/
theorem runSend_ensures (step : SendStep) (s : Runner) :
    Ensures (runSend x step) s fun r s' =>
      (∀ armed, r = .ok armed → s'.status = .running →
        x.hasInput step.control step.secretRef = true ∧
          s'.currentStep = step.nextStep.getD (s.currentStep + 1)) ∧
      (x.hasInput step.control step.secretRef = true →
        (∀ next, x.plan.steps[step.nextStep.getD (s.currentStep + 1)]? ≠ some (.expect next)) →
        r = .ok false ∧ s'.status = s.status) := by
  unfold runSend
  apply ensures_modify_bind
  apply ensures_get
  refine (sendStep_ensures step _ _).tryCatch ?_ ?_
  · rintro armed s' ⟨hstatus, hnext, hok⟩
    exact ⟨fun a ha _ => hnext a ha, fun hinput hnot => ⟨hok hinput hnot, hstatus⟩⟩
  · rintro e s' ⟨hstatus, -, hok⟩
    have hnot : x.hasInput step.control step.secretRef = true →
        (∀ next, x.plan.steps[step.nextStep.getD (s.currentStep + 1)]? ≠ some (.expect next)) →
        False := fun hinput hnext => absurd (hok hinput hnext) (by simp)
    cases e with
    | terminalPlan code message details =>
      refine ensures_modify_bind (ensures_pure ⟨fun _ _ hrunning => ?_, fun h h' => ?_⟩)
      · exact absurd hrunning (Runner.finish_not_running (by decide) _ _ _)
      · exact (hnot h h').elim
    | python e => exact ensures_throw ⟨fun _ h => absurd h (by simp), fun h h' => (hnot h h').elim⟩

/-! ## The loop -/

/-- While every position on the way is sent, the loop does not end. -/
theorem advance_endless (fuel : ℕ) {s : Runner} (hrunning : s.status = .running)
    (h : ∀ k, x.Sends (x.next^[k] s.currentStep)) :
    Ensures (advance x fuel) s fun _ _ => False := by
  induction fuel generalizing s with
  | zero => exact ensures_exhausted
  | succ fuel ih =>
    have hzero : x.Sends s.currentStep := h 0
    obtain ⟨step, hstep, hinput, hnext⟩ := hzero.step
    have hnot : ∀ next, x.plan.steps[step.nextStep.getD (s.currentStep + 1)]? ≠
        some (.expect next) := by
      intro next hwait
      obtain ⟨other, hother, -⟩ := (h 1).step
      rw [Function.iterate_one, hnext, hwait] at hother
      exact absurd hother (by simp)
    unfold advance
    apply ensures_get
    rw [if_neg (by simp [hrunning]), show s.currentPlanStep x = some (.send step) from hstep]
    refine (runSend_ensures step s).bind ?_ ?_
    · rintro armed t ⟨hposition, hgoes⟩
      obtain ⟨hfalse, hstatus⟩ := hgoes hinput hnot
      cases hfalse
      rw [hrunning] at hstatus
      have hstep' : t.currentStep = x.next s.currentStep := by
        rw [hnext]
        exact (hposition false rfl hstatus).2
      refine ih hstatus fun k => ?_
      rw [hstep', ← Function.iterate_succ_apply]
      exact h (k + 1)
    · rintro e t ⟨-, hgoes⟩
      exact absurd (hgoes hinput hnot).1 (by simp)

theorem inputFor_returns (text control secretRef secretPrefix secretSuffix : String)
    (appendEnter : Bool) (s : Runner) :
    Returns (inputFor x text control secretRef secretPrefix secretSuffix appendEnter) s := by
  unfold inputFor
  refine Returns.ite (fun _ => ?_) fun _ => Returns.ite (fun _ => ?_) fun _ => returns_pure
  · cases controlText.lookup control with
    | none => exact returns_throw
    | some payload => exact returns_pure
  · cases x.resolveSecret secretRef with
    | error e => cases e <;> exact returns_throw
    | ok value =>
      refine Returns.ite (fun _ => returns_throw) fun _ => ?_
      exact returns_modify.bind fun _ _ => returns_pure

theorem schedule_returns (seconds : PyFloat) (timer : Timer) (s : Runner) :
    Returns (schedule seconds timer) s := by
  unfold schedule
  cases milliseconds seconds with
  | error e => exact returns_throw
  | ok delay => exact returns_modify

theorem armWait_returns (kind : StepKind) (label : String) (timeoutSeconds : PyFloat)
    (s : Runner) : Returns (armWait x kind label timeoutSeconds) s :=
  returns_modify.bind fun _ _ => returns_get (schedule_returns _ _ _)

theorem runSend_returns (step : SendStep) (s : Runner) : Returns (runSend x step) s := by
  have hsend : ∀ nextIndex t, Returns (sendStep x step nextIndex) t := by
    intro nextIndex t
    refine (inputFor_returns _ _ _ _ _ _ _).bind fun payload t => ?_
    refine returns_modify.bind fun _ t => ?_
    split
    · refine (armWait_returns _ _ _ _).bind fun _ t => ?_
      exact returns_get (returns_modify.bind fun _ t => returns_get returns_pure)
    · exact returns_modify.bind fun _ _ => returns_pure
  refine returns_modify.bind fun _ t => returns_get ((hsend _ _).tryCatch fun e t => ?_)
  cases e with
  | terminalPlan code message details => exact returns_modify.bind fun _ _ => returns_pure
  | python e => exact returns_throw

/-- The loop ends within a bound that reaches a position that is not sent. -/
theorem advance_returns {fuel : ℕ} (hpos : 0 < fuel) {s : Runner}
    (h : s.status = .running → ∃ k, k + 1 < fuel ∧ ¬x.Sends (x.next^[k] s.currentStep)) :
    Returns (advance x fuel) s := by
  induction fuel generalizing s with
  | zero => omega
  | succ fuel ih =>
    unfold advance
    apply returns_get
    refine Returns.ite (fun _ => returns_pure) fun hrunning => ?_
    rw [not_not] at hrunning
    obtain ⟨k, hk, hnot⟩ := h hrunning
    cases hstep : s.currentPlanStep x with
    | none => exact returns_modify
    | some planned =>
      cases planned with
      | expect step => exact armWait_returns _ _ _ _
      | waitState step => exact armWait_returns _ _ _ _
      | send step =>
        refine (runSend_returns step s).bind_of (runSend_ensures step s) ?_
        rintro armed t ⟨hposition, -⟩
        refine Returns.ite (fun _ => returns_pure) fun _ => ih (by omega) fun hstatus => ?_
        obtain ⟨hinput, hnext⟩ := hposition armed rfl hstatus
        have hat : x.plan.steps[s.currentStep]? = some (.send step) := hstep
        have hsends : x.Sends s.currentStep := by
          simpa [Execution.Sends, hat] using hinput
        -- The position itself is sent, so the one that is not lies behind the next one.
        cases k with
        | zero => exact absurd hsends hnot
        | succ k =>
          refine ⟨k, by omega, ?_⟩
          have hgo : t.currentStep = x.next s.currentStep := by
            rw [hnext]
            simp [Execution.next, hat]
          rw [hgo, ← Function.iterate_succ_apply]
          exact hnot

/-- Without a cycle the loop ends within a bound that depends on the plan's length only. -/
theorem advance_returns_of_acyclic (h : ¬x.SilentCycle) {fuel : ℕ}
    (hfuel : x.plan.steps.length + 2 ≤ fuel) (s : Runner) : Returns (advance x fuel) s := by
  refine advance_returns (by omega) fun _ => ?_
  obtain ⟨k, hk, hnot⟩ := exists_not_sends h s.currentStep
  exact ⟨k, by omega, hnot⟩

/-! ## Stimuli -/

variable {fuel : ℕ} (hadvance : ∀ s, Returns (advance x fuel) s)
include hadvance

theorem takeBranch_returns (maxRetries : ℤ) (target reason : String) (s : Runner) :
    Returns (takeBranch x fuel maxRetries target reason) s := by
  unfold takeBranch
  refine Returns.ite (fun _ => returns_pure) fun _ => returns_get ?_
  cases branchTarget x s.currentStep target with
  | none => exact returns_modify.bind fun _ _ => returns_pure
  | some index =>
    refine returns_modify.bind fun _ t => returns_get (Returns.ite (fun _ => ?_) fun _ => ?_)
    · exact returns_modify.bind fun _ _ => returns_pure
    · exact returns_modify.bind fun _ t => (hadvance t).bind fun _ _ => returns_pure

theorem branchOrNext_returns (maxRetries : ℤ) (target reason : String) (s : Runner) :
    Returns (branchOrNext x fuel maxRetries target reason) s := by
  refine (takeBranch_returns hadvance maxRetries target reason s).bind fun taken t => ?_
  refine Returns.ite (fun _ => returns_pure) fun _ => ?_
  exact returns_modify.bind fun _ t => hadvance t

theorem completeExpect_returns (step : ExpectStep) (matched : String) (s : Runner) :
    Returns (completeExpect x fuel step matched) s := by
  refine returns_modify.bind fun _ t => ?_
  cases step.successTarget with
  | none => exact branchOrNext_returns hadvance _ _ _ _
  | some target =>
    refine returns_get (Returns.ite (fun _ => returns_modify) fun _ => ?_)
    exact returns_modify.bind fun _ t => hadvance t

theorem onSessionState_returns (state : String) (s : Runner) :
    Returns (onSessionState x fuel state) s := by
  have hdisconnect : ∀ (c : Prop) [Decidable c] (normalized : String),
      Returns (if c then modify fun s => s.disconnect x normalized else pure () : RunnerM Unit) s :=
    fun c _ normalized => Returns.ite (fun _ => returns_modify) fun _ => returns_pure
  unfold onSessionState
  refine returns_get (Returns.ite (fun _ => returns_pure) fun _ => ?_)
  split
  · refine Returns.ite (fun _ => ?_) fun _ => hdisconnect _ _
    exact returns_modify.bind fun _ t => branchOrNext_returns hadvance _ _ _ _
  · refine Returns.ite (fun _ => ?_) fun _ => hdisconnect _ _
    exact returns_modify.bind fun _ t => branchOrNext_returns hadvance _ _ _ _
  · exact hdisconnect _ _

variable [PyRe]

omit hadvance in
theorem applyResponses_returns (step : ExpectStep) (s : Runner) :
    Returns (applyResponses x step) s := by
  have hpayload : ∀ rule found t, Returns (responsePayload x rule found) t := by
    intro rule found t
    refine Returns.tryCatch ?_ fun e t => ?_
    · refine (inputFor_returns _ _ _ _ _ _ _).bind fun payload t => ?_
      refine Returns.ite (fun _ => ?_) fun _ => returns_pure
      exact returns_modify.bind fun _ _ => returns_pure
    · cases e with
      | terminalPlan code message details => exact returns_modify.bind fun _ _ => returns_pure
      | python e => exact returns_throw
  have hrespond : ∀ index rule stop payload t,
      Returns (respond x step index rule stop payload) t := by
    intro index rule stop payload t
    refine returns_get ?_
    cases t.activeResult with
    | none => exact returns_throw
    | some result =>
      refine returns_modify.bind fun _ t => returns_modify.bind fun _ t => returns_get ?_
      exact Returns.ite (fun _ => returns_modify) fun _ => returns_pure
  unfold applyResponses
  refine returns_get ?_
  cases matchedRule s.scanBuffer step.responses with
  | none => exact returns_pure
  | some found =>
    obtain ⟨index, rule, matched, stop⟩ := found
    refine returns_modify.bind fun _ t => ?_
    refine Returns.ite (fun _ => returns_modify) fun _ => ?_
    refine (hpayload rule matched t).bind fun payload t => ?_
    cases payload with
    | none => exact returns_pure
    | some payload => exact hrespond _ _ _ _ _

theorem evaluateOutcome_returns (step : ExpectStep) (responded : Bool)
    (expectedSuccess : Option (String × ℕ)) (s : Runner) :
    Returns (evaluateOutcome x fuel step responded expectedSuccess) s := by
  unfold evaluateOutcome
  refine returns_get ?_
  split
  · exact completeExpect_returns hadvance _ _ _
  · refine returns_modify.bind fun _ t => ?_
    refine (takeBranch_returns hadvance _ _ _ _).bind fun taken t => ?_
    exact Returns.ite (fun _ => returns_pure) fun _ => returns_modify
  · refine Returns.ite (fun _ => returns_pure) fun _ => ?_
    split
    · exact completeExpect_returns hadvance _ _ _
    · exact Returns.ite (fun _ => schedule_returns _ _ _) fun _ => returns_pure

theorem evaluateExpect_returns (step : ExpectStep) (s : Runner) :
    Returns (evaluateExpect x fuel step) s := by
  refine returns_get ((applyResponses_returns step s).bind fun _ t => returns_get ?_)
  refine Returns.ite (fun _ => returns_pure) fun _ => returns_modify.bind fun _ t => ?_
  split
  · exact evaluateOutcome_returns hadvance _ _ _ _
  · refine returns_lift.bind fun answered t => ?_
    refine Returns.ite (fun _ => completeExpect_returns hadvance _ _ _) fun _ => ?_
    refine Returns.ite (fun _ => returns_modify) fun _ => ?_
    exact evaluateOutcome_returns hadvance _ _ _ _

theorem sendManualInput_returns (text control secretRef : String) (appendEnter : Bool)
    (s : Runner) : Returns (sendManualInput x fuel text control secretRef appendEnter) s := by
  have hchecked : ∀ step control payload t,
      Returns (sendChecked x fuel step control payload) t := by
    intro step control payload t
    refine returns_modify.bind fun _ t => returns_modify.bind fun _ t => returns_get ?_
    refine returns_modify.bind fun _ t => ?_
    split
    · exact completeExpect_returns hadvance _ _ _
    · exact returns_modify
  unfold sendManualInput
  refine returns_get (Returns.ite (fun _ => returns_throw) fun _ => ?_)
  split
  · refine Returns.ite (fun _ => returns_throw) fun _ => ?_
    refine Returns.ite (fun _ => returns_throw) fun _ => ?_
    refine Returns.ite (fun _ => returns_throw) fun _ => ?_
    refine (inputFor_returns _ _ _ _ _ _ _).bind fun payload t => ?_
    exact Returns.ite (fun _ => returns_throw) fun _ => hchecked _ _ _ _
  · exact returns_throw

theorem fires_returns (timer : Timer) (s : Runner) :
    Returns (handle x fuel (.fires timer)) s := by
  cases timer with
  | total token => exact returns_modify
  | responseRetry token =>
    refine returns_get (Returns.ite (fun _ => returns_pure) fun _ => ?_)
    split
    · exact evaluateExpect_returns hadvance _ _
    · exact returns_pure
  | step token =>
    refine returns_get (Returns.ite (fun _ => returns_pure) fun _ => ?_)
    split
    · exact returns_throw
    · refine returns_modify.bind fun _ t => ?_
      refine Returns.bind ?_ fun taken t => Returns.ite (fun _ => returns_pure) fun _ => returns_modify
      unfold timeoutBranch
      split
      · exact returns_pure
      · exact takeBranch_returns hadvance _ _ _ _
  | idle token =>
    refine returns_get (Returns.ite (fun _ => returns_pure) fun _ => ?_)
    split
    · refine Returns.ite (fun _ => returns_pure) fun _ => returns_modify.bind fun _ t => ?_
      refine Returns.ite (fun _ => returns_pure) fun _ => returns_modify.bind fun _ t => ?_
      exact branchOrNext_returns hadvance _ _ _ _
    · exact returns_pure

/-- Where the loop returns, every stimulus does. -/
theorem handle_returns (stimulus : Stimulus) (s : Runner) :
    Returns (handle x fuel stimulus) s := by
  cases stimulus with
  | start =>
    refine returns_get (Returns.ite (fun _ => returns_pure) fun _ => ?_)
    refine returns_modify.bind fun _ t => (schedule_returns _ _ _).bind fun _ t => hadvance t
  | output message =>
    refine returns_get (Returns.ite (fun _ => returns_pure) fun _ => ?_)
    split
    · exact returns_modify.bind fun _ t => evaluateExpect_returns hadvance _ _
    · exact returns_pure
  | sessionState state => exact onSessionState_returns hadvance state s
  | cancel byUser => exact returns_modify
  | manualInput text control secretRef appendEnter =>
    exact sendManualInput_returns hadvance text control secretRef appendEnter s
  | resume =>
    refine returns_get (Returns.ite (fun _ => returns_throw) fun _ => ?_)
    refine returns_modify.bind fun _ t => (schedule_returns _ _ _).bind fun _ t => hadvance t
  | fires timer => exact fires_returns hadvance timer s

end

/-! ## Which plans always return -/

section

variable [PyLib]

/-- A plan whose total timeout is a number gets to the loop when it starts or goes on. -/
theorem schedule_finite (q : ℚ) (timer : Timer) : ∃ delay, schedule (.finite q) timer =
    modify fun s => { s with effects := .scheduled delay timer :: s.effects } :=
  ⟨_, rfl⟩

/-- `resume` at a position from which every position is sent. -/
theorem resume_endless {x : Execution} {q : ℚ} (hq : x.plan.totalTimeoutSeconds = .finite q)
    (fuel : ℕ) {s : Runner} (hs : s.status = .cancelledByUser)
    (h : ∀ k, x.Sends (x.next^[k] s.currentStep)) :
    Ensures (resume x fuel) s fun _ _ => False := by
  obtain ⟨delay, hdelay⟩ := schedule_finite q (.total (s.stepToken + 1))
  unfold resume
  apply ensures_get
  rw [if_neg (by simp [hs]), hq, hdelay]
  exact ensures_modify_bind (ensures_modify_bind (advance_endless fuel rfl h))

/-- `start` of a plan of which every position is sent. -/
theorem start_endless {x : Execution} {q : ℚ} (hq : x.plan.totalTimeoutSeconds = .finite q)
    (fuel : ℕ) (h : ∀ k, x.Sends (x.next^[k] 0)) :
    Ensures (start x fuel) {} fun _ _ => False := by
  obtain ⟨delay, hdelay⟩ := schedule_finite q (.total 0)
  unfold start
  apply ensures_get
  rw [if_neg (by simp), hq, hdelay]
  exact ensures_modify_bind (ensures_modify_bind (advance_endless fuel rfl h))

/-- The steps that are parsed do not depend on the total timeout. -/
theorem parseTerminalPlan_minute {raw total : Value} {plan : TerminalExecutionPlan}
    (h : parseTerminalPlan raw total = .ok plan) :
    parseTerminalPlan raw (.int 60) = .ok ⟨plan.steps, .finite 60⟩ := by
  have hminute : number (.int 60) "total_timeout_seconds" (.nat 1) (.nat 3600) =
      .ok (.finite 60) := rfl
  obtain ⟨first, rest, normalized, hraw, hlength, -, hsteps⟩ := parseTerminalPlan_eq_ok.mp h
  exact parseTerminalPlan_eq_ok.mpr ⟨first, rest, normalized, hraw, hlength, hminute, hsteps⟩

/-- Of a list of steps that the parser accepts, every stimulus returns from every state, whatever
the total timeout, exactly when no send steps of it lead back to where they began. -/
theorem returns_iff_noSilentCycle [PyRe] (x : Execution) (raw : Value) :
    (∀ total plan, parseTerminalPlan raw total = .ok plan → ∀ s stimulus, ∃ fuel,
      Returns (handle { x with plan := plan } fuel stimulus) s) ↔
    ∀ total plan, parseTerminalPlan raw total = .ok plan →
      ¬({ x with plan := plan } : Execution).SilentCycle := by
  constructor
  · rintro hreturns total plan hplan ⟨index, length, hpos, hback, hcycle⟩
    have hsends : ∀ k, Execution.Sends { x with plan := ⟨plan.steps, .finite 60⟩ }
        ((Execution.next { x with plan := ⟨plan.steps, .finite 60⟩ })^[k] index) :=
      sends_of_cycle hpos hback hcycle
    obtain ⟨fuel, r, s', hrun⟩ := hreturns (.int 60) _ (parseTerminalPlan_minute hplan)
      { status := .cancelledByUser, currentStep := index } .resume
    exact resume_endless rfl fuel rfl hsends r s' hrun
  · intro hacyclic total plan hplan s stimulus
    refine ⟨plan.steps.length + 2, handle_returns (fun t => ?_) stimulus s⟩
    exact advance_returns_of_acyclic (hacyclic total plan hplan) (le_refl _) t

end

/-- What a runner of a plan is made with. -/
def ofPlan (plan : TerminalExecutionPlan) : Execution where
  executionId := "e"
  sessionId := "s"
  deviceId := "d"
  plan := plan
  resolveSecret _ := .error (.keyError "")
  clock _ := 0

/-- A send step that names itself as its `success` is accepted, and its start never returns. -/
theorem not_returns_selfSend : let _ := PyLib.decimal; let _ := PyRe.findsNothing
    ∃ plan, parseTerminalPlan (.list [.dict [("type", .str "send"), ("text", .str "x"),
      ("success", .list [.int 0])]]) (.int 60) = .ok plan ∧
      ∀ fuel, ¬Returns (handle (ofPlan plan) fuel .start) {} := by
  intro pyLib pyRe
  have hplan : @parseTerminalPlan PyLib.decimal (.list [.dict [("type", .str "send"),
      ("text", .str "x"), ("success", .list [.int 0])]]) (.int 60) =
      .ok ⟨[.send { text := "x", label := "x", nextStep := some 0 }], .finite 60⟩ := by
    decide +kernel
  refine ⟨⟨[.send { text := "x", label := "x", nextStep := some 0 }], .finite 60⟩, hplan, ?_⟩
  rintro fuel ⟨r, s', hrun⟩
  refine @start_endless pyLib _ 60 rfl fuel (fun k => ?_) r s' hrun
  have hfixed : Execution.next (ofPlan ⟨[.send { text := "x", label := "x", nextStep := some 0 }],
      .finite 60⟩) 0 = 0 := rfl
  rw [Function.iterate_fixed hfixed k]
  exact rfl

end DeviceShell.Terminal
