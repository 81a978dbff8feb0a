import DeviceShell.Gateway.FlowEngine

/-!
# What a flow never does

From `Explained` alone, and so for every run whatever the callbacks answer or raise: nothing is asked
for a step before a command of each step it depends on was answered with a success, a condition is
polled and a command is sent at most so many times, and with the limits that `parse_flow` checks no
flow asks for more than 1320 things.
-/

namespace DeviceShell.Gateway

open FlowEngine

/-- The step for which something is asked. -/
def FlowEvent.step? : FlowEvent → Option FlowStep
  | .polled step _ => some step
  | .executed step _ => some step
  | .slept _ => none

/-- How often something is asked for a step at most. -/
def askLimit (step : FlowStep) : ℕ :=
  (step.waitCondition.elim 0 WaitCondition.maxAttempts).toNat + (retriesOf step + 1)

/-- A command of the step was answered with a success. -/
def Succeeded (id : String) (log : List FlowEvent) : Prop :=
  ∃ step reply, .executed step reply ∈ log ∧ step.id = id ∧ reply.status = "success"

theorem Succeeded.mono {id : String} {log log' : List FlowEvent} (h : Succeeded id log)
    (hsub : log ⊆ log') : Succeeded id log' := by
  obtain ⟨step, reply, hmem, hid, hs⟩ := h
  exact ⟨step, reply, hsub hmem, hid, hs⟩

/-! ## The log of one step -/

/-- The steps for which a log asks. -/
def asked (log : List FlowEvent) : List FlowStep := log.filterMap FlowEvent.step?

@[simp] theorem asked_append (log log' : List FlowEvent) :
    asked (log ++ log') = asked log ++ asked log' := List.filterMap_append

@[simp] theorem asked_pauseLog (intervalMs : ℤ) : asked (pauseLog intervalMs) = [] := by
  unfold pauseLog
  split <;> rfl

theorem asked_missLog (step : FlowStep) (intervalMs : ℤ) (misses : List FlowReply) :
    asked (missLog step intervalMs misses) = List.replicate misses.length step := by
  induction misses with
  | nil => rfl
  | cons reply misses ih =>
    have hcons : missLog step intervalMs (reply :: misses) =
        [.polled step reply] ++ pauseLog intervalMs ++ missLog step intervalMs misses := by
      simp [missLog]
    rw [hcons, asked_append, asked_append, asked_pauseLog, ih]
    rfl

theorem asked_retryLog (step : FlowStep) (retried : List FlowReply) :
    asked (retryLog step retried) = List.replicate retried.length step := by
  induction retried with
  | nil => rfl
  | cons reply retried ih =>
    have hcons : retryLog step (reply :: retried) =
        [.executed step reply] ++ pauseLog (intervalOf step) ++ retryLog step retried := by
      simp [retryLog]
    rw [hcons, asked_append, asked_append, asked_pauseLog, ih]
    rfl

/-- The log asks only for the step, and not too often. -/
def AsksFor (step : FlowStep) (limit : ℕ) (log : List FlowEvent) : Prop :=
  ∃ n ≤ limit, asked log = List.replicate n step

theorem AsksFor.append {step : FlowStep} {m n : ℕ} {log log' : List FlowEvent}
    (h : AsksFor step m log) (h' : AsksFor step n log') : AsksFor step (m + n) (log ++ log') := by
  obtain ⟨i, hi, heq⟩ := h
  obtain ⟨j, hj, heq'⟩ := h'
  exact ⟨i + j, add_le_add hi hj, by rw [asked_append, heq, heq', List.replicate_append_replicate]⟩

theorem AsksFor.mono {step : FlowStep} {m n : ℕ} {log : List FlowEvent} (h : AsksFor step m log)
    (hle : m ≤ n) : AsksFor step n log := by
  obtain ⟨i, hi, heq⟩ := h
  exact ⟨i, hi.trans hle, heq⟩

theorem Awaited.asksFor {step : FlowStep} {log : List FlowEvent} (h : Awaited step log) :
    AsksFor step (step.waitCondition.elim 0 WaitCondition.maxAttempts).toNat log := by
  cases h with
  | none hnone => exact ⟨0, Nat.zero_le _, rfl⟩
  | some condition hcondition misses hlength hmisses hit hhit =>
    rw [hcondition]
    refine ⟨misses.length + 1, hlength, ?_⟩
    rw [asked_append, asked_missLog, List.replicate_succ']
    rfl

theorem asksFor_retryLog {step : FlowStep} {retried : List FlowReply}
    (h : retried.length ≤ retriesOf step) :
    AsksFor step (retriesOf step) (retryLog step retried) :=
  ⟨retried.length, h, asked_retryLog step retried⟩

theorem Performed.asksFor {step : FlowStep} {result : FlowStepResult} {log : List FlowEvent}
    (h : Performed step result log) : AsksFor step (askLimit step) log := by
  cases h with
  | timedOut condition hcondition misses hlength hmisses =>
    refine AsksFor.mono ⟨misses.length, le_rfl, asked_missLog _ _ _⟩ ?_
    rw [askLimit, hcondition, hlength]
    exact Nat.le_add_right _ _
  | tried polls hpolls retried hlength hretried last hlast =>
    have hone : AsksFor step 1 [.executed step last] := ⟨1, le_rfl, rfl⟩
    refine ((hpolls.asksFor.append (asksFor_retryLog hlength)).append hone).mono ?_
    rw [askLimit]
    omega

theorem BrokenOff.asksFor {step : FlowStep} {log : List FlowEvent} (h : BrokenOff step log) :
    AsksFor step (askLimit step) log := by
  cases h with
  | polling condition hcondition misses hlength hmisses =>
    refine AsksFor.mono ⟨misses.length, le_rfl, asked_missLog _ _ _⟩ ?_
    rw [askLimit, hcondition]
    exact hlength.le.trans (Nat.le_add_right _ _)
  | trying polls hpolls retried hlength hretried =>
    refine (hpolls.asksFor.append (asksFor_retryLog hlength)).mono ?_
    rw [askLimit]
    omega

/-- A step with a successful result was answered with a success. -/
theorem Performed.succeeded {step : FlowStep} {result : FlowStepResult} {log : List FlowEvent}
    (h : Performed step result log) (hs : result.status = .success) : Succeeded step.id log := by
  cases h with
  | timedOut => cases hs
  | tried polls hpolls retried hlength hretried last hlast =>
    by_cases hlastStatus : last.status = "success"
    · exact ⟨step, last, by simp, rfl, hlastStatus⟩
    · rw [resultOf, if_neg hlastStatus] at hs
      cases hs

/-! ## The log of a plan -/

/-- What is asked for stands in the log of one step. -/
theorem AsksFor.eq_of_mem {step : FlowStep} {limit : ℕ} {log : List FlowEvent}
    (h : AsksFor step limit log) {e : FlowEvent} (he : e ∈ log) {step' : FlowStep}
    (hstep : e.step? = some step') : step' = step := by
  obtain ⟨n, -, heq⟩ := h
  have hmem : step' ∈ asked log := List.mem_filterMap.2 ⟨e, he, hstep⟩
  rw [heq] at hmem
  exact List.eq_of_mem_replicate hmem

/-- Nothing is asked for a step before the steps it depends on were answered with a success; `earlier`
is the log before. -/
theorem Explained.gated {done : List FlowStepResult} {steps : List FlowStep}
    {r : Except PyError (List FlowStepResult)} {log : List FlowEvent}
    (h : Explained done steps r log) {earlier : List FlowEvent}
    (hdone : ∀ result ∈ done, result.status = .success → Succeeded result.id earlier) :
    ∀ before e after, log = before ++ e :: after → ∀ step, e.step? = some step →
      ∀ dep ∈ step.dependsOn, Succeeded dep (earlier ++ before) := by
  -- The log of one step is all for this step, which is ready.
  have hown : ∀ {done : List FlowStepResult} {earlier : List FlowEvent} {step : FlowStep} {limit}
      {log}, (∀ result ∈ done, result.status = .success → Succeeded result.id earlier) →
      Ready done step → AsksFor step limit log → ∀ (before : List FlowEvent), ∀ e ∈ log,
      ∀ step', e.step? = some step' → ∀ dep ∈ step'.dependsOn,
      Succeeded dep (earlier ++ before) := by
    intro done earlier step limit log hdone hready hasks before e he step' hstep' dep hdep
    obtain rfl := hasks.eq_of_mem he hstep'
    obtain ⟨result, hmem, rfl, hs⟩ := hready dep hdep
    exact (hdone result hmem hs).mono (List.subset_append_left _ _)
  induction h generalizing earlier with
  | nil done =>
    intro before e after heq
    exact absurd heq.symm (by simp)
  | @skipped done step rest results log message hready hrest ih =>
    refine ih fun result hmem hs => ?_
    rcases List.mem_append.1 hmem with hmem | hmem
    · exact hdone result hmem hs
    · rw [List.mem_singleton.1 hmem] at hs
      cases hs
  | @performed done step rest result results first second hready hstep hrest ih =>
    have hdone' : ∀ result' ∈ done ++ [result], result'.status = .success →
        Succeeded result'.id (earlier ++ first) := by
      intro result' hmem hs
      rcases List.mem_append.1 hmem with hmem | hmem
      · exact (hdone result' hmem hs).mono (List.subset_append_left _ _)
      · obtain rfl := List.mem_singleton.1 hmem
        rw [hstep.id_eq.1]
        exact (hstep.succeeded hs).mono (List.subset_append_right _ _)
    intro before e after heq step' hstep' dep hdep
    rcases List.append_eq_append_iff.1 heq with ⟨middle, hbefore, hsecond⟩ | ⟨middle, hfirst, hlast⟩
    · have hlater := ih hdone' middle e after hsecond step' hstep' dep hdep
      rw [hbefore]
      rwa [List.append_assoc] at hlater
    · cases middle with
      | nil =>
        have hlater := ih hdone' [] e after hlast.symm step' hstep' dep hdep
        rw [List.append_nil] at hfirst
        rwa [List.append_nil, hfirst] at hlater
      | cons e' middle =>
        obtain ⟨rfl, -⟩ := List.cons.inj hlast
        exact hown hdone hready hstep.asksFor before e (by simp [hfirst]) step' hstep' dep hdep
  | @brokenOff done step rest log e hready hstep =>
    intro before e after heq step' hstep' dep hdep
    exact hown hdone hready hstep.asksFor before e (by simp [heq]) step' hstep' dep hdep

/-- How much is asked for in all. -/
theorem Explained.length_asked {done : List FlowStepResult} {steps : List FlowStep}
    {r : Except PyError (List FlowStepResult)} {log : List FlowEvent}
    (h : Explained done steps r log) : (asked log).length ≤ (steps.map askLimit).sum := by
  induction h with
  | nil done => exact le_rfl
  | skipped message hready hrest ih => exact ih.trans (Nat.le_add_left _ _)
  | performed hready hstep hrest ih =>
    obtain ⟨n, hn, heq⟩ := hstep.asksFor
    rw [asked_append, List.length_append, heq, List.length_replicate, List.map_cons, List.sum_cons]
    exact add_le_add hn ih
  | brokenOff e hready hstep =>
    obtain ⟨n, hn, heq⟩ := hstep.asksFor
    rw [heq, List.length_replicate, List.map_cons, List.sum_cons]
    exact hn.trans (Nat.le_add_right _ _)

/-- How often is asked for one of the steps. -/
theorem Explained.count_asked {done : List FlowStepResult} {steps : List FlowStep}
    {r : Except PyError (List FlowStepResult)} {log : List FlowEvent}
    (h : Explained done steps r log) (hnodup : steps.Nodup) (step : FlowStep) :
    (asked log).count step ≤ askLimit step ∧ (step ∉ steps → (asked log).count step = 0) := by
  -- The log of a single step counts for this step only.
  have hown : ∀ {step' : FlowStep} {log' : List FlowEvent}, AsksFor step' (askLimit step') log' →
      (asked log').count step ≤ askLimit step ∧ (step ≠ step' → (asked log').count step = 0) := by
    rintro step' log' ⟨n, hn, heq⟩
    rw [heq, List.count_replicate]
    by_cases hsame : step' = step
    · subst hsame
      simp [hn]
    · simp [hsame]
  induction h with
  | nil done => exact ⟨Nat.zero_le _, fun _ => rfl⟩
  | @skipped done step' rest results log message hready hrest ih =>
    obtain ⟨hle, hzero⟩ := ih (List.nodup_cons.1 hnodup).2
    exact ⟨hle, fun hout => hzero fun hmem => hout (List.mem_cons_of_mem _ hmem)⟩
  | @performed done step' rest result results before after hready hstep hrest ih =>
    obtain ⟨hnew, hrestNodup⟩ := List.nodup_cons.1 hnodup
    obtain ⟨hle, hzero⟩ := ih hrestNodup
    obtain ⟨hfirst, hother⟩ := hown hstep.asksFor
    rw [asked_append, List.count_append]
    constructor
    · by_cases hsame : step = step'
      · have hnone := hzero (hsame ▸ hnew)
        omega
      · have hnone := hother hsame
        omega
    · intro hout
      have hne : step ≠ step' := fun heq => hout (heq ▸ List.mem_cons_self)
      have hnone := hother hne
      have hnoneRest := hzero fun hmem => hout (List.mem_cons_of_mem _ hmem)
      omega
  | @brokenOff done step' rest log e hready hstep =>
    obtain ⟨hle, hother⟩ := hown hstep.asksFor
    exact ⟨hle, fun hout => hother fun heq => hout (heq ▸ List.mem_cons_self)⟩

/-- With the limits of `parse_flow`. -/
theorem askLimit_le {step : FlowStep} (h : step.WellFormed) : askLimit step ≤ 66 := by
  have hpolls : (step.waitCondition.elim 0 WaitCondition.maxAttempts).toNat ≤ 60 := by
    cases hcondition : step.waitCondition with
    | none => exact Nat.zero_le _
    | some condition =>
      have hmax : condition.maxAttempts ≤ 60 := (h.waitCondition condition hcondition).maxAttempts.2
      rw [Option.elim_some]
      omega
  have hretries : retriesOf step ≤ 5 := by
    unfold retriesOf
    cases hretry : step.retry with
    | none => exact Nat.zero_le _
    | some rule =>
      have hmax : rule.max ≤ 5 := (h.retry rule hretry).max.2
      rw [Option.elim_some]
      omega
  rw [askLimit]
  omega

/-- In every run of a plan that was read, nothing is asked for a step before the steps it depends on
were answered with a success, each step is asked for at most as often as its condition and its retries
allow, and at most 1320 things are asked for in all. -/
theorem run_limited [PyLib] {ω : Type} (env : FlowEnv ω) (sessionId deviceId : String) (data : Value)
    (plan : FlowPlan) (hplan : parseFlow data = .ok plan) (world : ω) :
    (FlowEngine.run env sessionId deviceId plan).Ensures { world := world } fun _ s' =>
      (∀ before e after, s'.log = before ++ e :: after → ∀ step, e.step? = some step →
        ∀ dep ∈ step.dependsOn, Succeeded dep before) ∧
      (∀ step, (asked s'.log).count step ≤ askLimit step) ∧ (asked s'.log).length ≤ 1320 := by
  have hread : plan.WellFormed := parseFlow_ok hplan
  refine (run_ensures env sessionId deviceId plan hread.nodup world).mono fun r s' hexp => ?_
  have hnone : ∀ result ∈ ([] : List FlowStepResult), result.status = .success →
      Succeeded result.id ([] : List FlowEvent) := fun _ hmem => absurd hmem List.not_mem_nil
  have hgated := hexp.gated hnone
  have hcount := fun step => (hexp.count_asked (List.Nodup.of_map _ hread.nodup) step).1
  have hsum : (plan.steps.map askLimit).sum ≤ (plan.steps.map askLimit).length * 66 := by
    refine List.sum_le_card_nsmul _ 66 fun n hn => ?_
    obtain ⟨step, hstep, rfl⟩ := List.mem_map.1 hn
    exact askLimit_le (hread.steps step hstep)
  have hlength : plan.steps.length ≤ 20 := hread.length
  refine ⟨by simpa using hgated, hcount, hexp.length_asked.trans ?_⟩
  rw [List.length_map] at hsum
  omega

/-- The flow of two commands. -/
theorem run_limited_retried :
    let _ := PyLib.atEpoch
    parseFlow retriedFlow = .ok retriedPlan ∧
      (FlowEngine.run failsOnce "s1" "r1" retriedPlan).Ensures { world := 0 } fun _ s' =>
        (∀ before e after, s'.log = before ++ e :: after → ∀ step, e.step? = some step →
          ∀ dep ∈ step.dependsOn, Succeeded dep before) ∧
        (∀ step, (asked s'.log).count step ≤ askLimit step) ∧ (asked s'.log).length ≤ 1320 := by
  let _ := PyLib.atEpoch
  have hplan : parseFlow retriedFlow = .ok retriedPlan := by decide +kernel
  exact ⟨hplan, run_limited failsOnce "s1" "r1" retriedFlow retriedPlan hplan 0⟩

end DeviceShell.Gateway
