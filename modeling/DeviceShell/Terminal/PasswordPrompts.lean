import DeviceShell.Terminal.BranchTargets
import DeviceShell.Terminal.Timers

/-!
# What is sent to a prompt for a password

Three paths answer a prompt: a response rule, the send step that `success` gives the number of, and
the caller's own input. `Answers` says what each sends and which output was there when it did.
A rule looks for a password in the text that it matched, the caller's input in the prompt that was
reported, and the plan's send step nowhere: `safe_of_guarded` says that this is enough where these
agree with the prompt at the end of the output.
-/

namespace DeviceShell.Terminal

open Method

/-- A rule, a step or a caller gives a plain text or a control. -/
def plain (control secretRef : String) : Bool := control ≠ "" || secretRef = ""

variable {x : Execution} {s t u : Runner} {stimulus : Stimulus}

section

variable [PyLib] [PyRe]

/-- Whether the prompt at the end of the output asks for a password. -/
def asksPassword (scanBuffer : String) : Bool :=
  (classifyTerminalPrompt scanBuffer).any fun prompt => asksForPassword prompt.text

/-- The step and the state in which a stimulus looks at the output. -/
def Stimulus.evaluates (x : Execution) (s : Runner) : Stimulus → Option (ExpectStep × Runner)
  | .output message =>
    if message = "" ∨ s.status ≠ .running then none
    else match s.currentPlanStep x, s.activeResult with
      | some (.expect step), some result => some (step, s.receive x step result message)
      | _, _ => none
  | .fires (.responseRetry token) =>
    if s.status ≠ .running ∨ token ≠ s.stepToken then none
    else match s.currentPlanStep x with
      | some (.expect step) => some (step, s)
      | _ => none
  | _ => none

/-- The state in which the send step is entered that `success` gives the number of. -/
def Runner.enterTarget (x : Execution) (prompt : PromptMatch) (target : ℕ) (s : Runner) : Runner :=
  { (s.forgetAnswered (some prompt)).completeStep x prompt.text with currentStep := target }

/-- A payload is sent as an answer to a prompt, with the output that was there. -/
inductive Answers (x : Execution) (s : Runner) : Stimulus → String → TerminalInput → Prop where
  | rule {stimulus : Stimulus} {step : ExpectStep} {u t : Runner} {r : Except ExecutionError Unit}
      {newer : List Effect} {index : ℕ} {payload : TerminalInput}
      (evaluates : stimulus.evaluates x s = some (step, u))
      (responds : (applyResponses x step).run u = some (r, t))
      (sent : t.effects = newer ++ .responded index payload :: u.effects) :
      Answers x s stimulus u.scanBuffer payload
  | plan {stimulus : Stimulus} {step : ExpectStep} {u t : Runner} {prompt : PromptMatch}
      {target : ℕ} {send : SendStep} {r : Except ExecutionError Bool} {newer : List Effect}
      {payload : TerminalInput}
      (evaluates : stimulus.evaluates x s = some (step, u))
      (unmatched : matchedRule u.scanBuffer step.responses = none)
      (prompts : classifyTerminalPrompt u.scanBuffer = some prompt)
      (interaction : prompt.type.isInteraction = true)
      (number : step.successTarget = some target) (forward : u.currentStep < target)
      (sends : x.plan.steps[target]? = some (.send send))
      (runs : (runSend x send).run (u.enterTarget x prompt target) = some (r, t))
      (sent : t.effects = .sent payload :: (newer ++ u.effects)) :
      Answers x s stimulus u.scanBuffer payload
  | manual {text control secretRef : String} {appendEnter : Bool} {t : Runner} {fuel : ℕ}
      {r : Except ExecutionError Unit} {newer : List Effect} {payload : TerminalInput}
      (runs : (sendManualInput x fuel text control secretRef appendEnter).run s = some (r, t))
      (sent : t.effects = newer ++ .sent payload :: s.effects) :
      Answers x s (.manualInput text control secretRef appendEnter) s.scanBuffer payload

/-! ## What a stimulus does with the output -/

/-- A stimulus that looks at the output does nothing else, in an execution that runs. -/
theorem evaluates_run {step : ExpectStep} (h : stimulus.evaluates x s = some (step, u)) (fuel : ℕ) :
    u.status = .running ∧
      (handle x fuel stimulus).run s = (evaluateExpect x fuel step).run u := by
  cases stimulus with
  | output message =>
    simp only [Stimulus.evaluates] at h
    split at h
    · exact absurd h (by simp)
    · rename_i hnot
      split at h
      · rename_i found result hstep hresult
        obtain ⟨rfl, rfl⟩ := Prod.mk.inj (Option.some.inj h)
        have hrunning : s.status = .running := by
          by_contra hother
          exact hnot (.inr hother)
        refine ⟨by simp [Runner.receive, hrunning], ?_⟩
        rw [handle, onOutput, run_get, if_neg hnot]
        simp only [hstep, hresult]
        rw [run_modify]
      · exact absurd h (by simp)
  | fires timer => cases timer with
    | responseRetry token =>
      simp only [Stimulus.evaluates] at h
      split at h
      · exact absurd h (by simp)
      · rename_i hnot
        split at h
        · rename_i found hstep
          obtain ⟨rfl, rfl⟩ := Prod.mk.inj (Option.some.inj h)
          have hrunning : s.status = .running := by
            by_contra hother
            exact hnot (.inl hother)
          refine ⟨hrunning, ?_⟩
          rw [handle, onResponseRetry, run_get, if_neg hnot]
          simp only [hstep]
        · exact absurd h (by simp)
    | total token => exact absurd h (by simp [Stimulus.evaluates])
    | step token => exact absurd h (by simp [Stimulus.evaluates])
    | idle token => exact absurd h (by simp [Stimulus.evaluates])
  | start => exact absurd h (by simp [Stimulus.evaluates])
  | sessionState state => exact absurd h (by simp [Stimulus.evaluates])
  | cancel byUser => exact absurd h (by simp [Stimulus.evaluates])
  | manualInput text control secretRef appendEnter => exact absurd h (by simp [Stimulus.evaluates])
  | resume => exact absurd h (by simp [Stimulus.evaluates])

omit [PyLib] in
/-- The step that looks at the output is the one of the plan. -/
theorem evaluates_step {step : ExpectStep} (h : stimulus.evaluates x s = some (step, u)) :
    s.currentPlanStep x = some (.expect step) := by
  unfold Stimulus.evaluates at h
  split at h
  · split at h
    · exact absurd h (by simp)
    · split at h
      · rename_i hstep _
        obtain ⟨rfl, -⟩ := Prod.mk.inj (Option.some.inj h)
        exact hstep
      · exact absurd h (by simp)
  · split at h
    · exact absurd h (by simp)
    · split at h
      · rename_i hstep
        obtain ⟨rfl, -⟩ := Prod.mk.inj (Option.some.inj h)
        exact hstep
      · exact absurd h (by simp)
  · exact absurd h (by simp)

omit [PyLib] in
/-- Output is looked at by the step that waits, once it has been received. -/
theorem evaluates_output {step : ExpectStep} {result : StepResult} {message : String}
    (hmessage : message ≠ "") (hrunning : s.status = .running)
    (hstep : s.currentPlanStep x = some (.expect step)) (hresult : s.activeResult = some result) :
    Stimulus.evaluates x s (.output message) = some (step, s.receive x step result message) := by
  have hnot : ¬(message = "" ∨ s.status ≠ .running) := by simp [hmessage, hrunning]
  rw [Stimulus.evaluates, if_neg hnot]
  simp only [hstep, hresult]

omit [PyLib] [PyRe] in
/-- Entering the target sends nothing yet. -/
theorem enterTarget_frame (prompt : PromptMatch) (target : ℕ) (u : Runner) :
    (u.enterTarget x prompt target).status = u.status ∧
      (u.enterTarget x prompt target).effects = u.effects := by
  have hforget : (u.forgetAnswered (some prompt)).status = u.status ∧
      (u.forgetAnswered (some prompt)).effects = u.effects := by
    unfold Runner.forgetAnswered
    simp only
    split <;> exact ⟨rfl, rfl⟩
  unfold Runner.enterTarget Runner.completeStep Runner.finishActiveStep
  split <;> simp [hforget]

/-! ## What is sent -/

omit [PyRe] in
/-- A payload is redacted only if it is a secret, and is a secret if it is given as one. -/
theorem inputFor_secret (x : Execution) (text control secretRef secretPrefix secretSuffix : String)
    (appendEnter : Bool) (s : Runner) :
    Ensures (inputFor x text control secretRef secretPrefix secretSuffix appendEnter) s fun r t =>
      (t.effects = s.effects ∧ t.status = s.status) ∧
        (∀ payload, r = .ok payload → (payload.sensitive = true → payload.secretRef ≠ "") ∧
          (plain control secretRef = false → payload.secretRef ≠ "") ∧
            (plain control secretRef = true → payload.sensitive = false)) ∧
          (plain control secretRef = true → ∀ e, r = .error e → ∃ p, e = .python p) := by
  unfold inputFor
  by_cases hcontrol : control = ""
  · by_cases href : secretRef = ""
    · simp only [hcontrol, href, ne_eq, not_true_eq_false, if_false]
      refine ensures_pure ⟨⟨rfl, rfl⟩, ?_, fun _ e h => absurd h (by simp)⟩
      intro payload hpayload
      cases hpayload
      simp [plain]
    · have hsecret : plain control secretRef = false := by simp [plain, hcontrol, href]
      have hraised : ∀ e : ExecutionError, Ensures (throw e : RunnerM TerminalInput) s fun r t =>
          (t.effects = s.effects ∧ t.status = s.status) ∧
            (∀ payload, r = .ok payload → (payload.sensitive = true → payload.secretRef ≠ "") ∧
              (plain control secretRef = false → payload.secretRef ≠ "") ∧
                (plain control secretRef = true → payload.sensitive = false)) ∧
              (plain control secretRef = true → ∀ e, r = .error e → ∃ p, e = .python p) := fun e =>
        ensures_throw ⟨⟨rfl, rfl⟩, fun payload h => absurd h (by simp), fun h =>
          absurd h (by simp [hsecret])⟩
      rw [if_neg (by simp [hcontrol]), if_pos href]
      cases hvalue : x.resolveSecret secretRef with
      | error e => cases e <;> exact hraised _
      | ok value =>
        refine Ensures.ite (fun _ => hraised _) fun _ => ?_
        apply ensures_modify_bind
        refine ensures_pure ⟨⟨?_, ?_⟩, ?_, fun h => absurd h (by simp [hsecret])⟩
        · split <;> rfl
        · split <;> rfl
        · intro payload hpayload
          cases hpayload
          simp [hsecret, href]
  · have hplain : plain control secretRef = true := by simp [plain, hcontrol]
    rw [if_pos hcontrol]
    cases hpayload : controlText.lookup control with
    | none =>
      refine ensures_throw ⟨⟨rfl, rfl⟩, fun payload h => absurd h (by simp), ?_⟩
      intro _ e he
      exact ⟨_, (Except.error.inj he).symm⟩
    | some payload =>
      refine ensures_pure ⟨⟨rfl, rfl⟩, ?_, fun _ e h => absurd h (by simp)⟩
      intro payload hpayload
      cases hpayload
      simp [hplain]

omit [PyLib] [PyRe] in
/-- What fails sends nothing. -/
theorem fail_effects (matched errorCode stepMessage message : String) (v : Runner) :
    (v.fail x matched errorCode stepMessage message).effects = v.effects ∨
      (v.fail x matched errorCode stepMessage message).effects = .finished :: v.effects := by
  have hsame : (v.finishActiveStep x .failed matched errorCode stepMessage).effects =
      v.effects := by
    unfold Runner.finishActiveStep
    split <;> rfl
  rcases Runner.finish_cases x .failed errorCode message
    (v.finishActiveStep x .failed matched errorCode stepMessage) with heq | ⟨-, heffects⟩
  · exact .inl (by rw [Runner.fail, heq, hsame])
  · exact .inr (by rw [Runner.fail, heffects, hsame])

omit [PyLib] [PyRe] in
/-- What fails while it runs has failed with the code. -/
theorem fail_running {v : Runner} (h : v.status = .running)
    (matched errorCode stepMessage message : String) :
    (v.fail x matched errorCode stepMessage message).status = .failed ∧
      (v.fail x matched errorCode stepMessage message).errorCode = errorCode := by
  have hrunning : (v.finishActiveStep x .failed matched errorCode stepMessage).status = .running := by
    rw [Runner.finishActiveStep_status, h]
  refine ⟨Runner.finish_status hrunning _ _ _, ?_⟩
  have hlive : ¬(v.finishActiveStep x .failed matched errorCode stepMessage).isTerminal = true := by
    rw [Runner.isTerminal, hrunning]
    decide
  rw [Runner.fail, Runner.finish, if_neg hlive]
  simp only [Runner.recordEvent]

/-- A payload that a rule gives for a matched text. -/
structure Offers (rule : ResponseRule) (found : String) (payload : TerminalInput) : Prop where
  redacted : payload.sensitive = true → payload.secretRef ≠ ""
  secret : plain rule.control rule.secretRef = false → payload.secretRef ≠ ""
  asked : asksForPassword found = true → payload.sensitive = true

/-- What making the payload of a response comes to: nothing is sent yet, and where there is a
payload nothing has happened. -/
def PayloadMade (rule : ResponseRule) (found : String) (v : Runner)
    (r : Except ExecutionError (Option TerminalInput)) (t : Runner) : Prop :=
  (t.effects = v.effects ∨ t.effects = .finished :: v.effects) ∧
    (∀ e, r = .error e → t.effects = v.effects) ∧
      ∀ payload, r = .ok (some payload) → t.effects = v.effects ∧ Offers rule found payload

/-- Where the matched text asks for a password, the payload of a response is a secret. -/
theorem responsePayload_made (rule : ResponseRule) (found : String) (v : Runner) :
    Ensures (responsePayload x rule found) v (PayloadMade rule found v) := by
  have hends : ∀ (matched code stepMessage message : String) (w : Runner),
      w.effects = v.effects → Ensures (do
        modify fun s => s.fail x matched code stepMessage message
        return none : RunnerM (Option TerminalInput)) w (PayloadMade rule found v) := by
    intro matched code stepMessage message w hw
    refine ensures_modify_bind (ensures_pure ⟨?_, fun e h => absurd h (by simp),
      fun payload h => absurd h (by simp)⟩)
    rw [← hw]
    exact fail_effects _ _ _ _ w
  unfold responsePayload
  refine Ensures.tryCatch (Q := PayloadMade rule found v) ?_ (fun _ _ h => h) ?_
  · refine (inputFor_secret x rule.text rule.control rule.secretRef "" "" rule.appendEnter v).bind
      ?_ ?_
    · rintro payload w ⟨⟨heffects, -⟩, hpayload, -⟩
      obtain ⟨hsensitive, hsecret, -⟩ := hpayload payload rfl
      refine Ensures.ite (fun _ => hends _ _ _ _ w heffects) fun hasks => ?_
      refine ensures_pure ⟨.inl heffects, fun e h => absurd h (by simp), ?_⟩
      intro payload' heq
      obtain rfl := Option.some.inj (Except.ok.inj heq)
      have hasked : asksForPassword found = true → payload.sensitive = true := by
        intro hfound
        simpa [hfound] using hasks
      exact ⟨heffects, hsensitive, hsecret, hasked⟩
    · rintro e w ⟨⟨heffects, -⟩, -, -⟩
      exact ⟨.inl heffects, fun _ _ => heffects, fun payload h => absurd h (by simp)⟩
  · rintro e w ⟨-, heffects, -⟩
    cases e with
    | terminalPlan code message details => exact hends _ _ _ _ w (heffects _ rfl)
    | python e =>
      exact ensures_throw ⟨.inl (heffects _ rfl), fun _ _ => heffects _ rfl,
        fun payload h => absurd h (by simp)⟩

/-- A response is sent once. -/
theorem respond_sends (step : ExpectStep) (index : ℕ) (rule : ResponseRule) (stop : ℕ)
    (payload : TerminalInput) (v : Runner) :
    Ensures (respond x step index rule stop payload) v fun _ t => t.effects = v.effects ∨
      ∃ newer, t.effects = newer ++ .responded index payload :: v.effects := by
  unfold respond
  apply ensures_get
  split
  · exact ensures_throw (.inl rfl)
  · rename_i result _
    apply ensures_modify_bind
    apply ensures_modify_bind
    apply ensures_get
    have hsame : (v.answer x rule payload stop result).effects = v.effects := by
      simp [Runner.answer]
    refine Ensures.ite (fun _ => ensures_modify (.inr ?_)) fun _ => ensures_pure (.inr ?_)
    · exact ⟨[.scheduled responseRetryDelayMs (.responseRetry (v.answer x rule payload stop
        result).stepToken)], by rw [← hsame]; rfl⟩
    · exact ⟨[], by rw [← hsame]; rfl⟩

/-- A rule whose limit is used up. -/
def Runner.usedUp (index : ℕ) (rule : ResponseRule) (s : Runner) : Bool :=
  ((s.responseCounts.get? index).getD 0 + 1 : ℕ) > rule.maxMatches

omit [PyLib] [PyRe] in
/-- What adds nothing, or ends the execution, sends nothing. -/
theorem not_sent {effects old : List Effect} (h : effects = old ∨ effects = .finished :: old)
    {effect : Effect} (hinput : effect.isInput = true) (newer : List Effect) :
    effects ≠ newer ++ effect :: old := by
  intro heq
  have hlength := congrArg List.length heq
  rw [List.length_append, List.length_cons] at hlength
  rcases h with rfl | rfl
  · omega
  · rw [List.length_cons] at hlength
    obtain rfl : newer = [] := List.length_eq_zero_iff.1 (by omega)
    obtain ⟨rfl, -⟩ := List.cons.inj heq
    exact absurd hinput (by decide)

omit [PyLib] [PyRe] in
/-- What has been added first is determined. -/
theorem first_unique {newer newer' old : List Effect} {effect effect' : Effect}
    (h : newer ++ effect :: old = newer' ++ effect' :: old) : effect = effect' := by
  have hlength : (effect :: old).length = (effect' :: old).length := rfl
  exact (List.cons.inj (List.append_inj' h hlength).2).1

/-- A response that is sent is the one of the rule that matches, within its limit. -/
theorem applyResponses_sends (step : ExpectStep) (u : Runner) :
    Ensures (applyResponses x step) u fun _ t =>
      ∀ newer index payload, t.effects = newer ++ .responded index payload :: u.effects →
        ∃ rule found stop, matchedRule u.scanBuffer step.responses =
          some (index, rule, found, stop) ∧ u.usedUp index rule = false ∧
            Offers rule found payload := by
  have hnone : ∀ t : Runner, t.effects = u.effects ∨ t.effects = .finished :: u.effects →
      ∀ newer index payload, t.effects = newer ++ .responded index payload :: u.effects →
        ∃ rule found stop, matchedRule u.scanBuffer step.responses =
          some (index, rule, found, stop) ∧ u.usedUp index rule = false ∧
            Offers rule found payload :=
    fun t ht newer index payload heq => absurd heq (not_sent ht rfl newer)
  unfold applyResponses
  apply ensures_get
  cases hmatched : matchedRule u.scanBuffer step.responses with
  | none => exact ensures_pure fun newer index payload heq => absurd heq (not_sent (.inl rfl) rfl newer)
  | some best =>
    obtain ⟨index, rule, found, stop⟩ := best
    rw [hmatched] at hnone
    simp only
    apply ensures_modify_bind
    refine Ensures.ite (fun _ => ensures_modify (hnone _ (fail_effects _ _ _ _ _))) fun hlimit => ?_
    have hwithin : u.usedUp index rule = false := by simpa [Runner.usedUp] using hlimit
    refine (responsePayload_made rule found _).bind ?_ ?_
    · rintro payload v ⟨hv, -, hpayload⟩
      cases payload with
      | none => exact ensures_pure (hnone v hv)
      | some payload =>
        obtain ⟨heffects, hoffers⟩ := hpayload payload rfl
        refine (respond_sends step index rule stop payload v).mono ?_
        rintro r t (hsame | ⟨newer', hsent⟩)
        · exact hnone t (.inl (hsame.trans heffects))
        · intro newer index' payload' heq
          rw [hsent, heffects] at heq
          obtain ⟨rfl, rfl⟩ := Effect.responded.inj (first_unique heq)
          exact ⟨rule, found, stop, rfl, hwithin, hoffers⟩
    · rintro e v ⟨hv, -, -⟩
      exact hnone v hv

/-- A plain response within its limit is refused where the matched text asks for a password. -/
theorem applyResponses_refuses {step : ExpectStep} {u : Runner} {index stop : ℕ}
    {rule : ResponseRule} {found : String} (hrunning : u.status = .running)
    (hmatched : matchedRule u.scanBuffer step.responses = some (index, rule, found, stop))
    (hwithin : u.usedUp index rule = false)
    (hplain : plain rule.control rule.secretRef = true) (hasks : asksForPassword found = true) :
    Ensures (applyResponses x step) u fun r t =>
      r = .ok () → t.status = .failed ∧ t.errorCode = "secret_required" := by
  unfold applyResponses
  apply ensures_get
  simp only [hmatched]
  apply ensures_modify_bind
  refine Ensures.ite (fun hlimit => ?_) fun _ => ?_
  · exact absurd hwithin (by simpa [Runner.usedUp] using hlimit)
  · have hrefused : ∀ v : Runner, v.status = .running →
        Ensures (responsePayload x rule found) v fun r t => ∀ payload, r = .ok payload →
          payload = none ∧ t.status = .failed ∧ t.errorCode = "secret_required" := by
      intro v hv
      unfold responsePayload
      refine Ensures.tryCatch (Q := fun r t => (∀ payload, r = .ok payload →
          payload = none ∧ t.status = .failed ∧ t.errorCode = "secret_required") ∧
            ∀ e, r = .error e → ∃ p, e = .python p) ?_ (fun _ _ h => h.1) ?_
      · refine (inputFor_secret x rule.text rule.control rule.secretRef "" "" rule.appendEnter
          _).bind ?_ ?_
        · rintro payload w ⟨⟨-, hstatus⟩, hpayload, -⟩
          obtain ⟨-, -, hclear⟩ := hpayload payload rfl
          have hguard : (asksForPassword found && !payload.sensitive) = true := by
            simp [hasks, hclear hplain]
          rw [if_pos hguard]
          refine ensures_modify_bind (ensures_pure ⟨?_, fun e h => absurd h (by simp)⟩)
          intro payload' heq
          have hfailed := fail_running (x := x) (v := w) (hstatus.trans hv) found
            "secret_required" "密码提示只能使用 secret_ref。" "密码提示只能使用 secret_ref。"
          exact ⟨(Except.ok.inj heq).symm, hfailed⟩
        · rintro e w ⟨-, -, hpython⟩
          refine ⟨fun payload h => absurd h (by simp), fun e' he => ?_⟩
          obtain rfl := Except.error.inj he
          exact hpython hplain e rfl
      · rintro e w ⟨-, hpython⟩
        obtain ⟨p, rfl⟩ := hpython e rfl
        exact ensures_throw fun payload h => absurd h (by simp)
    refine (hrefused _ ?_).bind ?_ ?_
    · exact hrunning
    · intro payload w hw
      obtain ⟨rfl, hfailed⟩ := hw payload rfl
      exact ensures_pure fun _ => hfailed
    · intro e w _ h
      exact absurd h (by simp)

/-! ## What the plan and the caller send -/

omit [PyRe] in
/-- Arming a step sends nothing. -/
theorem armWait_silent (kind : StepKind) (label : String) (timeoutSeconds : PyFloat) (v : Runner) :
    Ensures (armWait x kind label timeoutSeconds) v fun _ t =>
      ∀ payload rest, t.effects ≠ .sent payload :: rest := by
  unfold armWait
  apply ensures_modify_bind
  apply ensures_get
  refine (schedule_ensures timeoutSeconds _ _).mono ?_
  rintro r t (rfl | ⟨delay, -, rfl⟩)
  · intro payload rest heq
    exact absurd (List.cons.inj heq).1 (by simp)
  · intro payload rest heq
    exact absurd (List.cons.inj heq).1 (by simp)

omit [PyRe] in
/-- A send step that gives a secret sends a secret. -/
theorem runSend_secret {send : SendStep} (hsecret : plain send.control send.secretRef = false)
    (w : Runner) :
    Ensures (runSend x send) w fun _ t => ∀ newer payload,
      t.effects = .sent payload :: (newer ++ w.effects) → payload.secretRef ≠ "" := by
  have hquiet : ∀ {t : Runner}, t.effects = w.effects → ∀ newer payload,
      t.effects = .sent payload :: (newer ++ w.effects) → payload.secretRef ≠ "" := by
    intro t ht newer payload heq
    have hlength := congrArg List.length heq
    rw [ht, List.length_cons, List.length_append] at hlength
    omega
  unfold runSend
  apply ensures_modify_bind
  apply ensures_get
  refine Ensures.tryCatch (Q := fun r t => ∀ newer payload,
    t.effects = .sent payload :: (newer ++ w.effects) → payload.secretRef ≠ "") ?_ (fun _ _ h => h) ?_
  · unfold sendStep
    refine (inputFor_secret x send.text send.control send.secretRef send.secretPrefix
      send.secretSuffix send.appendEnter _).bind ?_ ?_
    · rintro payload v ⟨⟨heffects, -⟩, hpayload, -⟩
      obtain ⟨-, hgiven, -⟩ := hpayload payload rfl
      have hsent : ∀ (t : Runner) newer payload',
          (t.note (.sent payload)).effects = .sent payload' :: (newer ++ w.effects) →
            payload'.secretRef ≠ "" := by
        intro t newer payload' heq
        obtain ⟨hsame, -⟩ := List.cons.inj heq
        obtain rfl := Effect.sent.inj hsame
        exact hgiven hsecret
      apply ensures_modify_bind
      split
      · refine (armWait_silent .expect _ _ _).bind ?_ ?_
        · intro _ armed _
          apply ensures_get
          refine ensures_modify_bind (ensures_get (ensures_pure ?_))
          exact hsent armed
        · intro e t hsilent newer payload' heq
          exact absurd heq (hsilent payload' _)
      · refine ensures_modify_bind (ensures_pure ?_)
        exact hsent _
    · rintro e v ⟨⟨heffects, -⟩, -, -⟩
      exact hquiet heffects
  · intro e v hv
    cases e with
    | terminalPlan code message details =>
      refine ensures_modify_bind (ensures_pure ?_)
      have hends := fail_effects (x := x) "" code message message v
      intro newer payload heq
      rcases hends with hsame | hfinished
      · exact hv newer payload (hsame.symm.trans heq)
      · have hhead := hfinished.symm.trans heq
        exact absurd (List.cons.inj hhead).1 (by simp)
    | python e => exact ensures_throw hv

omit [PyRe] in
/-- The caller's input is sent first. -/
theorem sendChecked_sends (fuel : ℕ) (step : ExpectStep) (control : String)
    (payload : TerminalInput) (v : Runner) :
    Ensures (sendChecked x fuel step control payload) v fun _ t =>
      ∃ newer, t.effects = newer ++ .sent payload :: v.effects := by
  unfold sendChecked
  apply ensures_modify_bind
  apply ensures_modify_bind
  apply ensures_get
  apply ensures_modify_bind
  split
  · refine (completeExpect_within fuel step _ _).mono ?_
    intro r t hmoves
    obtain ⟨newer, heffects, -⟩ := hmoves.lift fun _ _ => Move.extends
    refine ⟨newer, heffects.trans ?_⟩
    simp [Runner.takeAnswer]
  · refine ensures_modify ⟨[], ?_⟩
    simp [Runner.takeAnswer]

/-- The control of a caller's input, as it is looked up. -/
def normalizedControl (control : String) : String := PyLib.casefold (strip control)

/-- The caller's input is taken: the step waits, no answer has been given, and the input is one text,
one control or one secret. -/
structure Takes (x : Execution) (s : Runner) (text control secretRef : String) : Prop where
  running : s.status = .running
  waits : ∃ step, s.currentPlanStep x = some (.expect step)
  unanswered : s.answeredInteractionPrompt = ""
  single : ([text, normalizedControl control, secretRef].filter (· ≠ "")).length = 1
  known : normalizedControl control ≠ "" → normalizedControl control ∈ controls

/-- What the caller's input comes to: it is refused, or it is taken and sent, and not without a
secret where the prompt that was reported asks for a password. -/
def InputSent (x : Execution) (text control secretRef : String) (s : Runner)
    (r : Except ExecutionError Unit) (t : Runner) : Prop :=
  (t.effects = s.effects ∧ r ≠ .ok ()) ∨
    Takes x s text control secretRef ∧ ∃ newer payload,
      t.effects = newer ++ .sent payload :: s.effects ∧
        (plain (normalizedControl control) secretRef = false → payload.secretRef ≠ "") ∧
          ((s.interactionPrompt.any fun prompt => asksForPassword prompt.text) = true →
            plain (normalizedControl control) secretRef = false)

theorem sendManualInput_sends (fuel : ℕ) (text control secretRef : String) (appendEnter : Bool)
    (s : Runner) :
    Ensures (sendManualInput x fuel text control secretRef appendEnter) s
      (InputSent x text control secretRef s) := by
  have hthrow : ∀ e : ExecutionError,
      Ensures (throw e : RunnerM Unit) s (InputSent x text control secretRef s) :=
    fun e => ensures_throw (.inl ⟨rfl, by simp⟩)
  unfold sendManualInput
  apply ensures_get
  refine Ensures.ite (fun _ => hthrow _) fun hnot => ?_
  rw [not_not] at hnot
  split
  · rename_i step hstep
    refine Ensures.ite (fun _ => hthrow _) fun hanswered => ?_
    refine Ensures.ite (fun _ => hthrow _) fun hsingle => ?_
    refine Ensures.ite (fun _ => hthrow _) fun hknown => ?_
    have htakes : Takes x s text control secretRef := {
      running := hnot
      waits := ⟨step, hstep⟩
      unanswered := not_not.1 hanswered
      single := not_not.1 hsingle
      known := fun hgiven => by
        by_contra hother
        exact hknown ⟨hgiven, hother⟩ }
    refine (inputFor_secret x text _ secretRef "" "" appendEnter s).bind ?_ ?_
    · rintro payload v ⟨⟨heffects, -⟩, hpayload, -⟩
      obtain ⟨-, hsecret, hclear⟩ := hpayload payload rfl
      refine Ensures.ite (fun _ => ?_) fun hguard => ?_
      · exact ensures_throw (.inl ⟨heffects, by simp⟩)
      · refine (sendChecked_sends fuel _ _ payload v).mono ?_
        rintro r t ⟨newer, hsent⟩
        refine .inr ⟨htakes, newer, payload, heffects ▸ hsent, hsecret, fun hasks => ?_⟩
        by_contra hplain
        rw [Bool.not_eq_false] at hplain
        exact hguard (by simp [hasks, hclear hplain])
    · rintro e v ⟨⟨heffects, -⟩, -, -⟩
      exact .inl ⟨heffects, by simp⟩
  · exact hthrow _

/-! ## Where no plain text is sent to a prompt for a password -/

/-- What a stimulus finds agrees with the prompt at the end of the output, if that asks for a
password: a rule that answers it gives a secret, or has matched a text that asks for a password, or
its limit is used up; the send step that `success` gives the number of gives a secret; and the
caller's input is a secret, or the prompt that was reported asks for a password, or the input is not
taken. -/
structure Guarded (x : Execution) (s : Runner) (stimulus : Stimulus) : Prop where
  rule : ∀ step u index rule found stop, stimulus.evaluates x s = some (step, u) →
    asksPassword u.scanBuffer = true →
      matchedRule u.scanBuffer step.responses = some (index, rule, found, stop) →
        plain rule.control rule.secretRef = false ∨ asksForPassword found = true ∨
          u.usedUp index rule = true
  plan : ∀ step u prompt target send, stimulus.evaluates x s = some (step, u) →
    classifyTerminalPrompt u.scanBuffer = some prompt → prompt.type.isInteraction = true →
      asksForPassword prompt.text = true → matchedRule u.scanBuffer step.responses = none →
        step.successTarget = some target → u.currentStep < target →
          x.plan.steps[target]? = some (.send send) → plain send.control send.secretRef = false
  manual : ∀ text control secretRef appendEnter,
    stimulus = .manualInput text control secretRef appendEnter →
      Takes x s text control secretRef → asksPassword s.scanBuffer = true →
        plain (normalizedControl control) secretRef = false ∨
          (s.interactionPrompt.any fun prompt => asksForPassword prompt.text) = true

/-- What is promised of prompts for a password. -/
structure Safe (x : Execution) (s : Runner) (stimulus : Stimulus) : Prop where
  /-- Nothing that is not a secret is sent to them. -/
  secret : ∀ scanBuffer payload, Answers x s stimulus scanBuffer payload →
    asksPassword scanBuffer = true → payload.secretRef ≠ ""
  /-- The execution stops where a rule would send it. -/
  stops : ∀ step u index rule found stop, stimulus.evaluates x s = some (step, u) →
    asksPassword u.scanBuffer = true →
      matchedRule u.scanBuffer step.responses = some (index, rule, found, stop) →
        plain rule.control rule.secretRef = true → u.usedUp index rule = false →
          Ensures (applyResponses x step) u fun r t =>
            r = .ok () → t.status = .failed ∧ t.errorCode = "secret_required"
  /-- The caller's input is refused. -/
  refuses : ∀ fuel text control secretRef appendEnter,
    stimulus = .manualInput text control secretRef appendEnter → asksPassword s.scanBuffer = true →
      plain (normalizedControl control) secretRef = true →
        Ensures (sendManualInput x fuel text control secretRef appendEnter) s fun r t =>
          t.effects = s.effects ∧ r ≠ .ok ()

/-- The caller's plain input is refused at a prompt for a password. -/
theorem Guarded.refused {text control secretRef : String} {appendEnter : Bool}
    (h : Guarded x s (.manualInput text control secretRef appendEnter))
    (hasks : asksPassword s.scanBuffer = true)
    (hplain : plain (normalizedControl control) secretRef = true)
    {r : Except ExecutionError Unit} (hsent : InputSent x text control secretRef s r t) :
    t.effects = s.effects ∧ r ≠ .ok () := by
  rcases hsent with hrefused | ⟨htakes, newer, payload, -, -, hreported⟩
  · exact hrefused
  · rcases h.manual text control secretRef appendEnter rfl htakes hasks with hsecret | hprompt
    · exact absurd hplain (by simp [hsecret])
    · exact absurd hplain (by simp [hreported hprompt])

/-- Nothing but a secret is sent to a prompt for a password where what the stimulus finds agrees with
the prompt. -/
theorem Guarded.safe (h : Guarded x s stimulus) : Safe x s stimulus := by
  constructor
  · intro scanBuffer payload hanswers hasks
    cases hanswers with
    | rule evaluates responds sent =>
      obtain ⟨rule, found, stop, hmatched, hwithin, hoffers⟩ :=
        applyResponses_sends _ _ _ _ responds _ _ _ sent
      rcases h.rule _ _ _ rule found stop evaluates hasks hmatched with hsecret | hfound | hused
      · exact hoffers.secret hsecret
      · exact hoffers.redacted (hoffers.asked hfound)
      · exact absurd hused (by simp [hwithin])
    | @plan _ step u t prompt target send r newer payload evaluates unmatched prompts interaction
        number forward sends runs sent =>
      have hprompt : asksForPassword prompt.text = true := by simpa [asksPassword, prompts] using hasks
      have hsecret := h.plan step u prompt target send evaluates prompts interaction hprompt unmatched
        number forward sends
      have hsame := (enterTarget_frame (x := x) prompt target u).2
      exact runSend_secret hsecret _ r t runs newer payload (hsame ▸ sent)
    | @manual text control secretRef appendEnter t fuel r newer payload runs sent =>
      have hinput := sendManualInput_sends fuel text control secretRef appendEnter s r t runs
      have hsecret : plain (normalizedControl control) secretRef = false := by
        by_contra hplain
        rw [Bool.not_eq_false] at hplain
        obtain ⟨hsame, -⟩ := h.refused hasks hplain hinput
        exact absurd sent (not_sent (.inl hsame) rfl newer)
      rcases hinput with ⟨hsame, -⟩ | ⟨-, newer', payload', hsent, hgiven, -⟩
      · exact absurd sent (not_sent (.inl hsame) rfl newer)
      · obtain rfl := Effect.sent.inj (first_unique (hsent.symm.trans sent))
        exact hgiven hsecret
  · intro step u index rule found stop hevaluates hasks hmatched hplain hwithin
    have hrunning := (evaluates_run hevaluates 0).1
    rcases h.rule step u index rule found stop hevaluates hasks hmatched with
      hsecret | hfound | hused
    · exact absurd hplain (by simp [hsecret])
    · exact applyResponses_refuses hrunning hmatched hwithin hplain hfound
    · exact absurd hwithin (by simp [hused])
  · rintro fuel text control secretRef appendEnter rfl hasks hplain
    exact (sendManualInput_sends fuel text control secretRef appendEnter s).mono
      fun r t hsent => h.refused hasks hplain hsent

/-- A run, with the states in which the stimuli came, the last first. -/
inductive Traced (x : Execution) : List (Runner × Stimulus) → Runner → Prop
  | created : Traced x [] {}
  | stimulated {trace : List (Runner × Stimulus)} {s t : Runner} {stimulus : Stimulus} {fuel : ℕ}
      {r : Except ExecutionError Unit} (traced : Traced x trace s)
      (stimulates : (handle x fuel stimulus).run s = some (r, t)) :
      Traced x ((s, stimulus) :: trace) t

theorem Traced.after {trace : List (Runner × Stimulus)} (h : Traced x trace s) (stimulus : Stimulus)
    (hreturns : ((handle x 3 stimulus).run s).isSome = true) :
    Traced x ((s, stimulus) :: trace) (after x stimulus s) := by
  obtain ⟨⟨r, t⟩, hrun⟩ := Option.isSome_iff_exists.1 hreturns
  have hafter : DeviceShell.Terminal.after x stimulus s = t := by
    simp [DeviceShell.Terminal.after, hrun]
  rw [hafter]
  exact h.stimulated hrun

end

/-- The engine on a text that ends in `password:`, if it holds the word at all: the patterns for
credentials match from the word on. -/
@[reducible] def seesPassword : PyRe where
  search pattern text :=
    if occursIn "password" pattern then (find text "password" 0).map fun index =>
      if pattern = "(?i)password|passphrase" then ("password", index + 8)
      else (slice text index none, text.length)
    else none
  fullmatch _ _ := false
  delete _ text := text
  findAll _ _ := []
  escape text := text

end DeviceShell.Terminal
