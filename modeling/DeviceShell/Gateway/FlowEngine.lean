import DeviceShell.Gateway.FlowPlan
import DeviceShell.Lib.Stateful

/-!
# Running a flow

`FlowEngine.run` of `application/ai/gateway/flow_engine.py`. What a command or a condition answers is
left to an environment with a state of its own, and may be an exception. The run keeps a log of what
was asked and answered and of the pauses in between. `Explained` says which logs and results a plan
has: every step in turn is skipped without being asked for, because a step it depends on has not
succeeded, or it is performed (`Performed`): its condition is polled until it holds, at most so many
times, and then its command is sent until an answer is not `failed`, at most so many times again.
-/

namespace DeviceShell.Gateway

/-- `FlowStepResult.status`. -/
inductive FlowStatus where
  | success
  | failed
  | skipped
deriving DecidableEq, Repr

/-- `FlowStepResult`. -/
structure FlowStepResult where
  id : String
  status : FlowStatus
  output : String := ""
  errorCode : String := ""
  message : String := ""
  attemptCount : ℕ := 1
deriving DecidableEq

/-- The status and the output that a callback returns. -/
structure FlowReply where
  status : String
  output : String
deriving DecidableEq

/-- The callbacks of a run. -/
structure FlowEnv (ω : Type) where
  executeStep : String → String → ℤ → ω → Except PyError FlowReply × ω
  waitForCondition : WaitCondition → String → String → ω → Except PyError FlowReply × ω
  /-- `sleep`, for a number of milliseconds. -/
  sleep : ℤ → ω → ω

/-- What happens in a run. -/
inductive FlowEvent where
  | polled (step : FlowStep) (reply : FlowReply)
  | executed (step : FlowStep) (reply : FlowReply)
  | slept (intervalMs : ℤ)
deriving DecidableEq

/-- The environment, and what has happened. -/
structure FlowRun (ω : Type) where
  world : ω
  log : List FlowEvent := []

/-! ## The engine -/

namespace FlowEngine

variable {ω : Type}

/-- A callback is called. -/
def ask (callback : ω → Except PyError FlowReply × ω) (event : FlowReply → FlowEvent) :
    Stateful (FlowRun ω) FlowReply := do
  let s ← get
  match callback s.world with
  | (.error e, world) => do
    set { s with world := world }
    throw e
  | (.ok reply, world) => do
    set { s with world := world, log := s.log ++ [event reply] }
    return reply

variable (env : FlowEnv ω) (sessionId deviceId : String)

/-- `if interval_ms > 0: sleep(interval_ms / 1000.0)`. -/
def pause (intervalMs : ℤ) : Stateful (FlowRun ω) Unit :=
  if 0 < intervalMs then
    modify fun s => { s with
      world := env.sleep intervalMs s.world
      log := s.log ++ [.slept intervalMs] }
  else pure ()

/-- The loop over the polls; `last` is the last reply. -/
def poll (step : FlowStep) (condition : WaitCondition) :
    ℕ → FlowReply → Stateful (FlowRun ω) FlowReply
  | 0, last => return last
  | n + 1, _ => do
    let reply ← ask (env.waitForCondition condition sessionId deviceId) (.polled step)
    if reply.status = "success" then return reply
    else
      pause env condition.intervalMs
      poll step condition n reply

/-- What a step is that does not succeed. -/
def failedResult (step : FlowStep) (reply : FlowReply) (attempts : ℕ) : FlowStepResult where
  id := step.id
  status := .failed
  output := reply.output
  errorCode := "execution_failed"
  message := "步骤 " ++ step.id ++ " 执行失败。"
  attemptCount := attempts

/-- The loop over the attempts, with the number of retries that are left and of attempts before. -/
def attempt (step : FlowStep) (intervalMs : ℤ) : ℕ → ℕ → Stateful (FlowRun ω) FlowStepResult
  | 0, attempts => do
    let reply ← ask (env.executeStep step.command sessionId step.timeoutSeconds) (.executed step)
    if reply.status = "success" then
      return { id := step.id, status := .success, output := reply.output
               attemptCount := attempts + 1 }
    else return failedResult step reply (attempts + 1)
  | left + 1, attempts => do
    let reply ← ask (env.executeStep step.command sessionId step.timeoutSeconds) (.executed step)
    if reply.status = "success" then
      return { id := step.id, status := .success, output := reply.output
               attemptCount := attempts + 1 }
    else if reply.status ≠ "failed" then return failedResult step reply (attempts + 1)
    else
      pause env intervalMs
      attempt step intervalMs left (attempts + 1)

/-- `int((step.retry or {}).get("max", 0))`. -/
def retriesOf (step : FlowStep) : ℕ := (step.retry.elim 0 RetryRule.max).toNat

/-- `int((step.retry or {}).get("interval_ms", 1000))`. -/
def intervalOf (step : FlowStep) : ℤ := step.retry.elim 1000 RetryRule.intervalMs

/-- The result of a step whose condition does not come to hold. -/
def timedOut (step : FlowStep) (reply : FlowReply) : FlowStepResult where
  id := step.id
  status := .failed
  output := reply.output
  errorCode := "condition_timeout"
  message := "等待条件超时。"

/-- `_run_step`. -/
def runStep (step : FlowStep) : Stateful (FlowRun ω) FlowStepResult :=
  match step.waitCondition with
  | none => attempt env sessionId step (intervalOf step) (retriesOf step) 0
  | some condition => do
    let reply ← poll env sessionId deviceId step condition condition.maxAttempts.toNat
      ⟨"not_ready", ""⟩
    if reply.status ≠ "success" then return timedOut step reply
    else attempt env sessionId step (intervalOf step) (retriesOf step) 0

/-- The result of a step that is skipped. -/
def skippedResult (step : FlowStep) (message : String) : FlowStepResult where
  id := step.id
  status := .skipped
  message := message

/-- The loop of `run`. -/
def runSteps : List FlowStep → List String → List String →
    Stateful (FlowRun ω) (List FlowStepResult)
  | [], _, _ => return []
  | step :: rest, completed, failed =>
    if step.dependsOn.any (· ∈ failed) then do
      let results ← runSteps rest completed failed
      return skippedResult step "依赖步骤失败。" :: results
    else if step.dependsOn.any (· ∉ completed) then do
      let results ← runSteps rest completed failed
      return skippedResult step "依赖步骤未完成。" :: results
    else do
      let result ← runStep env sessionId deviceId step
      let results ←
        if result.status = .success then runSteps rest (completed ++ [step.id]) failed
        else runSteps rest completed (failed ++ [step.id])
      return result :: results

/-- `run`. -/
def run (plan : FlowPlan) : Stateful (FlowRun ω) (List FlowStepResult) :=
  runSteps env sessionId deviceId plan.steps [] []

end FlowEngine

/-! ## What a run looks like -/

open FlowEngine

/-- What a pause leaves. -/
def pauseLog (intervalMs : ℤ) : List FlowEvent := if 0 < intervalMs then [.slept intervalMs] else []

/-- Polls in vain, each with a pause after it. -/
def missLog (step : FlowStep) (intervalMs : ℤ) (misses : List FlowReply) : List FlowEvent :=
  misses.flatMap fun reply => .polled step reply :: pauseLog intervalMs

/-- Attempts that are followed by another one, each with a pause after it. -/
def retryLog (step : FlowStep) (retried : List FlowReply) : List FlowEvent :=
  retried.flatMap fun reply => .executed step reply :: pauseLog (intervalOf step)

/-- The condition of a step came to hold, and this is the log of its polls. -/
inductive Awaited (step : FlowStep) : List FlowEvent → Prop
  | none (hnone : step.waitCondition = .none) : Awaited step []
  | some (condition : WaitCondition) (hcondition : step.waitCondition = .some condition)
      (misses : List FlowReply) (hlength : misses.length < condition.maxAttempts.toNat)
      (hmisses : ∀ reply ∈ misses, reply.status ≠ "success") (hit : FlowReply)
      (hhit : hit.status = "success") :
      Awaited step (missLog step condition.intervalMs misses ++ [.polled step hit])

/-- What the last reply to a command makes of its step. -/
def resultOf (step : FlowStep) (last : FlowReply) (attempts : ℕ) : FlowStepResult :=
  if last.status = "success" then
    { id := step.id, status := .success, output := last.output, attemptCount := attempts }
  else failedResult step last attempts

/-- A step is performed: its condition does not come to hold within the polls allowed, or it holds
and the command is sent until it is not answered with `failed`, or was so as often as allowed. -/
inductive Performed (step : FlowStep) : FlowStepResult → List FlowEvent → Prop
  | timedOut (condition : WaitCondition) (hcondition : step.waitCondition = some condition)
      (misses : List FlowReply) (hlength : misses.length = condition.maxAttempts.toNat)
      (hmisses : ∀ reply ∈ misses, reply.status ≠ "success") :
      Performed step (FlowEngine.timedOut step (misses.getLast?.getD ⟨"not_ready", ""⟩))
        (missLog step condition.intervalMs misses)
  | tried (polls : List FlowEvent) (hpolls : Awaited step polls) (retried : List FlowReply)
      (hlength : retried.length ≤ retriesOf step)
      (hretried : ∀ reply ∈ retried, reply.status = "failed") (last : FlowReply)
      (hlast : last.status = "failed" → retried.length = retriesOf step) :
      Performed step (resultOf step last (retried.length + 1))
        (polls ++ retryLog step retried ++ [.executed step last])

/-- A step is broken off by an exception of a callback. -/
inductive BrokenOff (step : FlowStep) : List FlowEvent → Prop
  | polling (condition : WaitCondition) (hcondition : step.waitCondition = some condition)
      (misses : List FlowReply) (hlength : misses.length < condition.maxAttempts.toNat)
      (hmisses : ∀ reply ∈ misses, reply.status ≠ "success") :
      BrokenOff step (missLog step condition.intervalMs misses)
  | trying (polls : List FlowEvent) (hpolls : Awaited step polls) (retried : List FlowReply)
      (hlength : retried.length ≤ retriesOf step)
      (hretried : ∀ reply ∈ retried, reply.status = "failed") :
      BrokenOff step (polls ++ retryLog step retried)

/-- All steps that a step depends on have succeeded. -/
def Ready (done : List FlowStepResult) (step : FlowStep) : Prop :=
  ∀ dep ∈ step.dependsOn, ∃ result ∈ done, result.id = dep ∧ result.status = .success

/-- What the steps of a plan come to, after the results `done`: the results or an exception, and the
log. -/
inductive Explained : List FlowStepResult → List FlowStep →
    Except PyError (List FlowStepResult) → List FlowEvent → Prop
  | nil (done : List FlowStepResult) : Explained done [] (.ok []) []
  | skipped {done : List FlowStepResult} {step : FlowStep} {rest : List FlowStep}
      {results : Except PyError (List FlowStepResult)} {log : List FlowEvent} (message : String)
      (hready : ¬ Ready done step)
      (hrest : Explained (done ++ [skippedResult step message]) rest results log) :
      Explained done (step :: rest) (results.map (skippedResult step message :: ·)) log
  | performed {done : List FlowStepResult} {step : FlowStep} {rest : List FlowStep}
      {result : FlowStepResult} {results : Except PyError (List FlowStepResult)}
      {before after : List FlowEvent} (hready : Ready done step)
      (hstep : Performed step result before)
      (hrest : Explained (done ++ [result]) rest results after) :
      Explained done (step :: rest) (results.map (result :: ·)) (before ++ after)
  | brokenOff {done : List FlowStepResult} {step : FlowStep} {rest : List FlowStep}
      {log : List FlowEvent} (e : PyError) (hready : Ready done step)
      (hstep : BrokenOff step log) : Explained done (step :: rest) (.error e) log

/-! ## Every run looks like this -/

namespace FlowEngine

variable {ω : Type} (env : FlowEnv ω) (sessionId deviceId : String)

/-- A callback answers, or it raises and leaves the log as it is. -/
theorem ask_ensures (callback : ω → Except PyError FlowReply × ω) (event : FlowReply → FlowEvent)
    (s : FlowRun ω) : (ask callback event).Ensures s fun r s' =>
      (∃ reply, r = .ok reply ∧ s'.log = s.log ++ [event reply]) ∨
        ∃ e, r = .error e ∧ s'.log = s.log := by
  unfold ask
  refine Stateful.ensures_get ?_
  rcases callback s.world with ⟨e | reply, world⟩
  · exact Stateful.ensures_set (Stateful.ensures_throw (.inr ⟨e, rfl, rfl⟩))
  · exact Stateful.ensures_set (Stateful.ensures_pure (.inl ⟨reply, rfl, rfl⟩))

theorem pause_ensures (intervalMs : ℤ) (s : FlowRun ω) :
    (pause env intervalMs).Ensures s fun r s' =>
      r = .ok () ∧ s'.log = s.log ++ pauseLog intervalMs := by
  unfold pause pauseLog
  by_cases h : 0 < intervalMs
  · rw [if_pos h, if_pos h]
    exact ⟨rfl, rfl⟩
  · rw [if_neg h, if_neg h]
    exact ⟨rfl, (List.append_nil _).symm⟩

/-- The polls of a condition. -/
theorem poll_ensures (step : FlowStep) (condition : WaitCondition) (n : ℕ) (last : FlowReply)
    (s : FlowRun ω) : (poll env sessionId deviceId step condition n last).Ensures s fun r s' =>
      (∃ misses, misses.length = n ∧ (∀ reply ∈ misses, reply.status ≠ "success") ∧
        r = .ok (misses.getLast?.getD last) ∧
        s'.log = s.log ++ missLog step condition.intervalMs misses) ∨
      (∃ misses hit, misses.length < n ∧ (∀ reply ∈ misses, reply.status ≠ "success") ∧
        hit.status = "success" ∧ r = .ok hit ∧
        s'.log = s.log ++ (missLog step condition.intervalMs misses ++ [.polled step hit])) ∨
      ∃ misses e, misses.length < n ∧ (∀ reply ∈ misses, reply.status ≠ "success") ∧
        r = .error e ∧ s'.log = s.log ++ missLog step condition.intervalMs misses := by
  induction n generalizing last s with
  | zero => exact .inl ⟨[], rfl, by simp, rfl, (List.append_nil _).symm⟩
  | succ n ih =>
    refine Stateful.Ensures.bind (ask_ensures _ _ s) (fun reply s₁ h₁ => ?_) fun e s₁ h₁ => ?_
    · obtain ⟨_, heq, hlog⟩ | ⟨_, heq, -⟩ := h₁
      · obtain rfl := Except.ok.inj heq
        by_cases hs : reply.status = "success"
        · rw [if_pos hs]
          exact .inr (.inl ⟨[], reply, n.succ_pos, by simp, hs, rfl, hlog⟩)
        · rw [if_neg hs]
          refine Stateful.Ensures.bind (pause_ensures env condition.intervalMs s₁)
            (fun _ s₂ h₂ => ?_) fun e s₂ h₂ => by cases h₂.1
          have hbefore : ∀ misses : List FlowReply, s₂.log ++
              missLog step condition.intervalMs misses =
              s.log ++ missLog step condition.intervalMs (reply :: misses) := by
            intro misses
            rw [h₂.2, hlog]
            simp [missLog]
          have hmiss : ∀ misses : List FlowReply, (∀ r ∈ misses, r.status ≠ "success") →
              ∀ r ∈ reply :: misses, r.status ≠ "success" :=
            fun misses h => List.forall_mem_cons.2 ⟨hs, h⟩
          refine (ih reply s₂).mono fun r s' hr => ?_
          obtain ⟨misses, hlen, hall, rfl, hlog'⟩ | ⟨misses, hit, hlen, hall, hhit, rfl, hlog'⟩ |
            ⟨misses, e, hlen, hall, rfl, hlog'⟩ := hr
          · refine .inl ⟨reply :: misses, congrArg Nat.succ hlen, hmiss misses hall, ?_, ?_⟩
            · rw [List.getLast?_cons]
              rfl
            · rw [hlog', hbefore]
          · refine .inr (.inl ⟨reply :: misses, hit, Nat.succ_lt_succ hlen, hmiss misses hall, hhit,
              rfl, ?_⟩)
            rw [hlog', ← List.append_assoc, hbefore, List.append_assoc]
          · refine .inr (.inr ⟨reply :: misses, e, Nat.succ_lt_succ hlen, hmiss misses hall, rfl, ?_⟩)
            rw [hlog', hbefore]
      · cases heq
    · obtain ⟨_, heq, -⟩ | ⟨_, heq, hlog⟩ := h₁
      · cases heq
      · obtain rfl := Except.error.inj heq
        exact .inr (.inr ⟨[], e, n.succ_pos, by simp, rfl, by simp [hlog, missLog]⟩)

/-- The attempts at a command, from a log to a log: retries, and then the last reply or an
exception. -/
def Tried (step : FlowStep) (left attempts : ℕ) (before : List FlowEvent)
    (r : Except PyError FlowStepResult) (after : List FlowEvent) : Prop :=
  ∃ retried : List FlowReply, retried.length ≤ left ∧ (∀ reply ∈ retried, reply.status = "failed") ∧
    ((∃ last, (last.status = "failed" → retried.length = left) ∧
        r = .ok (resultOf step last (attempts + retried.length + 1)) ∧
        after = before ++ (retryLog step retried ++ [.executed step last])) ∨
      ∃ e, r = .error e ∧ after = before ++ retryLog step retried)

theorem Tried.last {step : FlowStep} {left attempts : ℕ} {before : List FlowEvent}
    {reply : FlowReply} (h : reply.status = "failed" → left = 0) :
    Tried step left attempts before (.ok (resultOf step reply (attempts + 1)))
      (before ++ [.executed step reply]) :=
  ⟨[], left.zero_le, by simp, .inl ⟨reply, fun hf => (h hf).symm, rfl, rfl⟩⟩

theorem Tried.raised {step : FlowStep} {left attempts : ℕ} {before : List FlowEvent} (e : PyError) :
    Tried step left attempts before (.error e) before :=
  ⟨[], left.zero_le, by simp, .inr ⟨e, rfl, by simp [retryLog]⟩⟩

theorem Tried.retry {step : FlowStep} {left attempts : ℕ} {before after : List FlowEvent}
    {reply : FlowReply} {r : Except PyError FlowStepResult} (hreply : reply.status = "failed")
    (h : Tried step left (attempts + 1)
      (before ++ .executed step reply :: pauseLog (intervalOf step)) r after) :
    Tried step (left + 1) attempts before r after := by
  obtain ⟨retried, hlen, hall, h⟩ := h
  have hcount : attempts + 1 + retried.length + 1 = attempts + (reply :: retried).length + 1 := by
    rw [List.length_cons]
    omega
  have hlog : (before ++ .executed step reply :: pauseLog (intervalOf step)) ++
      retryLog step retried = before ++ retryLog step (reply :: retried) := by
    simp [retryLog]
  refine ⟨reply :: retried, Nat.succ_le_succ hlen, List.forall_mem_cons.2 ⟨hreply, hall⟩, ?_⟩
  obtain ⟨last, hlast, rfl, rfl⟩ | ⟨e, rfl, rfl⟩ := h
  · refine .inl ⟨last, fun hf => congrArg Nat.succ (hlast hf), by rw [hcount], ?_⟩
    rw [← List.append_assoc, hlog, List.append_assoc]
  · exact .inr ⟨e, rfl, hlog⟩

theorem attempt_ensures (step : FlowStep) (left attempts : ℕ) (s : FlowRun ω) :
    (attempt env sessionId step (intervalOf step) left attempts).Ensures s fun r s' =>
      Tried step left attempts s.log r s'.log := by
  induction left generalizing attempts s with
  | zero =>
    refine Stateful.Ensures.bind (ask_ensures _ _ s) (fun reply s₁ h₁ => ?_) fun e s₁ h₁ => ?_
    · obtain ⟨_, heq, hlog⟩ | ⟨_, heq, -⟩ := h₁
      · obtain rfl := Except.ok.inj heq
        have hend : Tried step 0 attempts s.log (.ok (resultOf step reply (attempts + 1))) s₁.log :=
          hlog ▸ .last fun _ => rfl
        by_cases hs : reply.status = "success"
        · rw [if_pos hs]
          rwa [resultOf, if_pos hs] at hend
        · rw [if_neg hs]
          rwa [resultOf, if_neg hs] at hend
      · cases heq
    · obtain ⟨_, heq, -⟩ | ⟨_, heq, hlog⟩ := h₁
      · cases heq
      · exact hlog ▸ .raised e
  | succ left ih =>
    refine Stateful.Ensures.bind (ask_ensures _ _ s) (fun reply s₁ h₁ => ?_) fun e s₁ h₁ => ?_
    · obtain ⟨_, heq, hlog⟩ | ⟨_, heq, -⟩ := h₁
      · obtain rfl := Except.ok.inj heq
        have hend : reply.status ≠ "failed" → Tried step (left + 1) attempts s.log
            (.ok (resultOf step reply (attempts + 1))) s₁.log :=
          fun hf => hlog ▸ .last fun h => absurd h hf
        by_cases hs : reply.status = "success"
        · rw [resultOf, if_pos hs] at hend
          rw [if_pos hs]
          exact hend fun hf => absurd (hs.symm.trans hf) (by decide)
        rw [resultOf, if_neg hs] at hend
        rw [if_neg hs]
        by_cases hf : reply.status = "failed"
        · rw [if_neg (not_not.2 hf)]
          refine Stateful.Ensures.bind (pause_ensures env (intervalOf step) s₁)
            (fun _ s₂ h₂ => ?_) fun e s₂ h₂ => by cases h₂.1
          refine (ih (attempts + 1) s₂).mono fun r s' hr => .retry hf ?_
          rwa [h₂.2, hlog, List.append_assoc] at hr
        · rw [if_pos hf]
          exact hend hf
      · cases heq
    · obtain ⟨_, heq, -⟩ | ⟨_, heq, hlog⟩ := h₁
      · cases heq
      · exact hlog ▸ .raised e

/-- A step is performed, or broken off by an exception. -/
theorem runStep_ensures (step : FlowStep) (s : FlowRun ω) :
    (runStep env sessionId deviceId step).Ensures s fun r s' => ∃ log, s'.log = s.log ++ log ∧
      ((∃ result, r = .ok result ∧ Performed step result log) ∨
        ∃ e, r = .error e ∧ BrokenOff step log) := by
  -- The command is tried once the condition holds.
  have htry : ∀ (polls : List FlowEvent), Awaited step polls → ∀ s₁ : FlowRun ω,
      s₁.log = s.log ++ polls →
      (attempt env sessionId step (intervalOf step) (retriesOf step) 0).Ensures s₁ fun r s' =>
        ∃ log, s'.log = s.log ++ log ∧ ((∃ result, r = .ok result ∧ Performed step result log) ∨
          ∃ e, r = .error e ∧ BrokenOff step log) := by
    intro polls hpolls s₁ hlog
    refine (attempt_ensures env sessionId step (retriesOf step) 0 s₁).mono fun r s' hr => ?_
    obtain ⟨retried, hlen, hall, ⟨last, hlast, rfl, hlog'⟩ | ⟨e, rfl, hlog'⟩⟩ := hr
    · refine ⟨polls ++ retryLog step retried ++ [.executed step last], ?_, .inl ⟨_, rfl, ?_⟩⟩
      · rw [hlog', hlog]
        simp
      · rw [Nat.zero_add]
        exact .tried polls hpolls retried hlen hall last hlast
    · refine ⟨polls ++ retryLog step retried, ?_, .inr ⟨e, rfl, .trying polls hpolls retried hlen hall⟩⟩
      rw [hlog', hlog, List.append_assoc]
  unfold runStep
  cases hcondition : step.waitCondition with
  | none => exact htry [] (.none hcondition) s (List.append_nil _).symm
  | some condition =>
    refine Stateful.Ensures.bind (poll_ensures env sessionId deviceId step condition _ _ s)
      (fun reply s₁ h₁ => ?_) fun e s₁ h₁ => ?_
    · obtain ⟨misses, hlen, hall, heq, hlog⟩ | ⟨misses, hit, hlen, hall, hhit, heq, hlog⟩ |
        ⟨_, _, -, -, heq, -⟩ := h₁
      · have hfail : reply.status ≠ "success" := by
          obtain rfl := Except.ok.inj heq
          cases hmisses : misses.getLast? with
          | none => decide
          | some last => exact hall last (List.mem_of_getLast? hmisses)
        rw [if_pos hfail]
        obtain rfl := Except.ok.inj heq
        exact ⟨_, hlog, .inl ⟨_, rfl, .timedOut condition hcondition misses hlen hall⟩⟩
      · obtain rfl := Except.ok.inj heq
        rw [if_neg (not_not.2 hhit)]
        exact htry _ (.some condition hcondition misses hlen hall reply hhit) s₁ hlog
      · cases heq
    · obtain ⟨_, -, -, heq, -⟩ | ⟨_, _, -, -, -, heq, -⟩ | ⟨misses, e', hlen, hall, heq, hlog⟩ := h₁
      · cases heq
      · cases heq
      · exact ⟨_, hlog, .inr ⟨e, rfl, .polling condition hcondition misses hlen hall⟩⟩

/-- `completed` and `failed` are the ids of the results with these statuses. -/
structure Tracks (done : List FlowStepResult) (completed failed : List String) : Prop where
  nodup : (done.map FlowStepResult.id).Nodup
  completed : ∀ id, id ∈ completed ↔ ∃ result ∈ done, result.id = id ∧ result.status = .success
  failed : ∀ id, id ∈ failed ↔ ∃ result ∈ done, result.id = id ∧ result.status = .failed

variable {done : List FlowStepResult} {completed failed : List String}

theorem Tracks.ready_iff (h : Tracks done completed failed) (step : FlowStep) :
    Ready done step ↔ ∀ dep ∈ step.dependsOn, dep ∈ completed := by
  unfold Ready
  simp only [h.completed]

/-- A step that depends on a failed one is not ready. -/
theorem Tracks.not_ready (h : Tracks done completed failed) {step : FlowStep} {dep : String}
    (hdep : dep ∈ step.dependsOn) (hfailed : dep ∈ failed) : ¬ Ready done step := by
  intro hready
  obtain ⟨result, hmem, hid, hs⟩ := hready dep hdep
  obtain ⟨result', hmem', hid', hs'⟩ := (h.failed dep).1 hfailed
  have hsame : result = result' :=
    List.inj_on_of_nodup_map h.nodup hmem hmem' (hid.trans hid'.symm)
  rw [hsame, hs'] at hs
  cases hs

theorem Tracks.skip (h : Tracks done completed failed) {step : FlowStep}
    (hnew : step.id ∉ done.map FlowStepResult.id) (message : String) :
    Tracks (done ++ [skippedResult step message]) completed failed where
  nodup := by
    rw [List.map_append, List.map_singleton, List.nodup_append_comm]
    exact List.nodup_cons.2 ⟨hnew, h.nodup⟩
  completed id := by simp [h.completed, skippedResult]
  failed id := by simp [h.failed, skippedResult]

theorem Tracks.perform (h : Tracks done completed failed) {result : FlowStepResult}
    (hnew : result.id ∉ done.map FlowStepResult.id) (hs : result.status ≠ .skipped) :
    if result.status = .success then
      Tracks (done ++ [result]) (completed ++ [result.id]) failed
    else Tracks (done ++ [result]) completed (failed ++ [result.id]) := by
  have hnodup : ((done ++ [result]).map FlowStepResult.id).Nodup := by
    rw [List.map_append, List.map_singleton, List.nodup_append_comm]
    exact List.nodup_cons.2 ⟨hnew, h.nodup⟩
  cases hstatus : result.status with
  | success =>
    rw [if_pos rfl]
    exact
      { nodup := hnodup
        completed := fun id => by simp [h.completed, hstatus, or_and_right, exists_or, eq_comm]
        failed := fun id => by simp [h.failed, hstatus] }
  | failed =>
    rw [if_neg (by decide)]
    exact
      { nodup := hnodup
        completed := fun id => by simp [h.completed, hstatus]
        failed := fun id => by simp [h.failed, hstatus, or_and_right, exists_or, eq_comm] }
  | skipped => exact absurd hstatus hs

end FlowEngine

theorem Performed.id_eq {step : FlowStep} {result : FlowStepResult} {log : List FlowEvent}
    (h : Performed step result log) : result.id = step.id ∧ result.status ≠ .skipped := by
  cases h with
  | timedOut => exact ⟨rfl, by simp [FlowEngine.timedOut]⟩
  | tried _ _ retried _ _ last _ =>
    unfold resultOf
    split <;> exact ⟨rfl, by simp [failedResult]⟩

namespace FlowEngine

variable {ω : Type} (env : FlowEnv ω) (sessionId deviceId : String)

/-- What is left of a result and the results after it. -/
theorem results_ensures {m : Stateful (FlowRun ω) (List FlowStepResult)} {s : FlowRun ω}
    {result : FlowStepResult} {Q : Except PyError (List FlowStepResult) → FlowRun ω → Prop}
    (h : m.Ensures s fun r s' => Q (r.map (result :: ·)) s') :
    (m >>= fun results => pure (result :: results)).Ensures s Q :=
  h.bind (fun _ _ hr => hr) fun _ _ hr => hr

theorem runSteps_ensures (steps : List FlowStep) (done : List FlowStepResult)
    (completed failed : List String) (htracks : Tracks done completed failed)
    (hnodup : (done.map FlowStepResult.id ++ steps.map FlowStep.id).Nodup) (s : FlowRun ω) :
    (runSteps env sessionId deviceId steps completed failed).Ensures s fun r s' =>
      ∃ log, s'.log = s.log ++ log ∧ Explained done steps r log := by
  induction steps generalizing done completed failed s with
  | nil => exact ⟨[], (List.append_nil _).symm, .nil done⟩
  | cons step rest ih =>
    have hnew : step.id ∉ done.map FlowStepResult.id := by
      intro hmem
      exact (List.nodup_append.1 hnodup).2.2 _ hmem _ List.mem_cons_self rfl
    have hrest : ∀ result : FlowStepResult, result.id = step.id →
        ((done ++ [result]).map FlowStepResult.id ++ rest.map FlowStep.id).Nodup := by
      intro result hid
      simpa [hid] using hnodup
    have hskip : ∀ message : String, ¬ Ready done step →
        (runSteps env sessionId deviceId rest completed failed >>= fun results =>
          pure (skippedResult step message :: results)).Ensures s fun r s' =>
        ∃ log, s'.log = s.log ++ log ∧ Explained done (step :: rest) r log := by
      intro message hready
      refine results_ensures ((ih _ _ _ (htracks.skip hnew message) (hrest _ rfl) s).mono ?_)
      rintro r s' ⟨log, hlog, hexp⟩
      exact ⟨log, hlog, .skipped message hready hexp⟩
    unfold runSteps
    by_cases hfailed : step.dependsOn.any (· ∈ failed) = true
    · rw [if_pos hfailed]
      obtain ⟨dep, hdep, hmem⟩ := List.any_eq_true.1 hfailed
      exact hskip _ (htracks.not_ready hdep (by simpa using hmem))
    rw [if_neg hfailed]
    by_cases hmissing : step.dependsOn.any (· ∉ completed) = true
    · rw [if_pos hmissing]
      obtain ⟨dep, hdep, hmem⟩ := List.any_eq_true.1 hmissing
      refine hskip _ fun hready => ?_
      exact (by simpa using hmem : dep ∉ completed) ((htracks.ready_iff step).1 hready dep hdep)
    rw [if_neg hmissing]
    have hready : Ready done step := (htracks.ready_iff step).2 fun dep hdep => by
      by_contra hout
      exact hmissing (List.any_eq_true.2 ⟨dep, hdep, by simpa using hout⟩)
    refine Stateful.Ensures.bind (runStep_ensures env sessionId deviceId step s)
      (fun result s₁ h₁ => ?_) fun e s₁ h₁ => ?_
    · obtain ⟨before, hlog, ⟨_, heq, hperf⟩ | ⟨_, heq, -⟩⟩ := h₁
      · obtain rfl := Except.ok.inj heq
        obtain ⟨hid, hs⟩ := hperf.id_eq
        have hnext := htracks.perform (hid ▸ hnew) hs
        have hexplained : ∀ (r : Except PyError (List FlowStepResult)) (s' : FlowRun ω),
            (∃ log, s'.log = s₁.log ++ log ∧ Explained (done ++ [result]) rest r log) →
            ∃ log, s'.log = s.log ++ log ∧
              Explained done (step :: rest) (r.map (result :: ·)) log := by
          rintro r s' ⟨after, hlog', hexp⟩
          exact ⟨before ++ after, by rw [hlog', hlog, List.append_assoc],
            .performed hready hperf hexp⟩
        dsimp only
        by_cases hsucc : result.status = .success
        · rw [if_pos hsucc] at hnext ⊢
          exact results_ensures ((ih _ _ _ (hid ▸ hnext) (hrest result hid) s₁).mono hexplained)
        · rw [if_neg hsucc] at hnext ⊢
          exact results_ensures ((ih _ _ _ (hid ▸ hnext) (hrest result hid) s₁).mono hexplained)
      · cases heq
    · obtain ⟨log, hlog, ⟨_, heq, -⟩ | ⟨_, heq, hbroken⟩⟩ := h₁
      · cases heq
      · exact ⟨log, hlog, .brokenOff e hready hbroken⟩

/-- The run of a plan whose steps have distinct ids. -/
theorem run_ensures (plan : FlowPlan) (hnodup : (plan.steps.map FlowStep.id).Nodup) (world : ω) :
    (run env sessionId deviceId plan).Ensures { world := world } fun r s' =>
      Explained [] plan.steps r s'.log := by
  have htracks : Tracks [] [] [] := ⟨List.nodup_nil, by simp, by simp⟩
  have hnodup' : (([] : List FlowStepResult).map FlowStepResult.id ++
      plan.steps.map FlowStep.id).Nodup := hnodup
  refine (runSteps_ensures env sessionId deviceId plan.steps [] [] [] htracks hnodup' _).mono ?_
  rintro r s' ⟨log, hlog, hexp⟩
  rw [hlog]
  exact hexp

/-- Every run of a plan that was read, whatever the callbacks answer or raise, comes to what
`Explained` says. -/
theorem run_explained [PyLib] (data : Value) (plan : FlowPlan) (hplan : parseFlow data = .ok plan)
    (world : ω) :
    (run env sessionId deviceId plan).Ensures { world := world } fun r s' =>
      Explained [] plan.steps r s'.log := by
  have hread : plan.WellFormed := parseFlow_ok hplan
  exact run_ensures env sessionId deviceId plan hread.nodup world

end FlowEngine

/-- A flow of two commands of which the first is tried twice. -/
def retriedFlow : Value :=
  .dict [("steps", .list [
    .dict [("id", .str "save"), ("command", .str "save"),
      ("retry", .dict [("on_status", .str "failed"), ("max", .int 1)])],
    .dict [("id", .str "reboot"), ("command", .str "reboot"),
      ("depends_on", .list [.str "save"])]])]

/-- An environment in which the first command fails. -/
def failsOnce : FlowEnv ℕ where
  executeStep _ _ _ n := (.ok ⟨if n = 0 then "failed" else "success", ""⟩, n + 1)
  waitForCondition _ _ _ n := (.ok ⟨"success", ""⟩, n)
  sleep _ n := n

/-- The plan that is read from the flow. -/
def retriedPlan : FlowPlan where
  steps :=
    [ { id := "save", command := "save", retry := some ⟨1, 1000⟩ },
      { id := "reboot", command := "reboot", dependsOn := ["save"] } ]

theorem FlowEngine.run_explained_retried :
    let _ := PyLib.atEpoch
    parseFlow retriedFlow = .ok retriedPlan ∧
      ((FlowEngine.run failsOnce "s1" "r1" retriedPlan).run ⟨0, []⟩).2.log.length = 4 ∧
      (FlowEngine.run failsOnce "s1" "r1" retriedPlan).Ensures { world := 0 } fun r s' =>
        Explained [] retriedPlan.steps r s'.log := by
  let _ := PyLib.atEpoch
  have hplan : parseFlow retriedFlow = .ok retriedPlan := by decide +kernel
  exact ⟨hplan, by decide +kernel, FlowEngine.run_explained failsOnce "s1" "r1" retriedFlow
    retriedPlan hplan 0⟩

end DeviceShell.Gateway
