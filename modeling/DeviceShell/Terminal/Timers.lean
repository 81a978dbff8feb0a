import DeviceShell.Terminal.RunnerLifecycle
import DeviceShell.Terminal.SilentCycles

/-!
# Timers and what they were armed for

A callback carries the token that the state had when it was scheduled, and the token grows whenever
a step is armed and whenever the execution ends or is resumed. The callbacks of a step compare it
for equality, so an old one finds another token (`Dated`). The total timeout only asks that its token
is not a later one, which no token is: the total timeout of a segment that the user has taken over
ends the execution that has been resumed. `belongs_of_timely` says that this, and a step that is gone
on from without another one being armed, is all that can go wrong.
-/

namespace DeviceShell.Terminal

open Method

/-! ## Executions in time -/

/-- An execution with the time of everything it has done. -/
structure Observed where
  runner : Runner
  /-- The time, in milliseconds. -/
  now : ℤ
  /-- When the execution was opened the last time: started or resumed. -/
  opened : ℤ
  /-- What the runner has done outside itself, with the times, the last first. -/
  log : List (ℤ × Effect)
  noted : runner.effects = log.map Prod.snd

/-- An execution that has been created. -/
def Observed.created (now : ℤ) : Observed where
  runner := {}
  now := now
  opened := now
  log := []
  noted := rfl

variable {x : Execution} {s t u : Runner} {stimulus : Stimulus} {o o' : Observed}

section

variable [PyLib] [PyRe]

/-- A stimulus reaches an execution. A callback runs when its delay has passed, or at any time
later. -/
structure Occurs (x : Execution) (stimulus : Stimulus) (o o' : Observed) : Prop where
  handled : ∃ fuel r, (handle x fuel stimulus).run o.runner = some (r, o'.runner)
  later : o.now ≤ o'.now
  opened : o'.opened = if (stimulus.opened x o.runner).isSome then o'.now else o.opened
  logged : ∃ new, o'.log = new ++ o.log ∧ ∀ e ∈ new, e.1 = o'.now
  due : ∀ timer, stimulus = .fires timer →
    ∃ time delay, (time, .scheduled delay timer) ∈ o.log ∧ time + delay ≤ o'.now

/-- What an execution can come to. -/
inductive Observable (x : Execution) : Observed → Prop where
  | created (now : ℤ) : Observable x (.created now)
  | occurs {o o' : Observed} (stimulus : Stimulus) (observed : Observable x o)
      (occurs : Occurs x stimulus o o') : Observable x o'

end

/-! ## What is promised of a timer -/

/-- Whether a callback was scheduled for an earlier segment, or for an earlier step or attempt:
`newer` is what the runner has done since, and `older` what it had done before. -/
def Stale (s : Runner) (timer : Timer) (newer older : List Effect) : Prop :=
  .finished ∈ newer ∨ timer.isTotal = false ∧
    ((∃ step, .armed step ∈ newer) ∨ lastArmed older ≠ some s.currentStep)

/-- Timers belong to what they were scheduled for. -/
structure Belongs [PyLib] (x : Execution) (stimulus : Stimulus) (o o' : Observed) : Prop where
  /-- A stale callback changes nothing. -/
  rejected : ∀ timer, stimulus = .fires timer → ∀ newer delay older,
    o.runner.effects = newer ++ .scheduled delay timer :: older →
      Stale o.runner timer newer older → o'.runner = o.runner
  /-- The total timeout ends an execution when it has passed since the execution was opened. -/
  passed : ∀ token, stimulus = .fires (.total token) → o'.runner ≠ o.runner →
    ∃ delay, milliseconds x.plan.totalTimeoutSeconds = .ok delay ∧ o.opened + delay ≤ o'.now

/-- Whether a stimulus finds what it was scheduled for, if it finds the execution running: the
execution has not ended since its total timeout was scheduled, and a callback with the token of the
state finds the step that was armed last. -/
def Timely (s : Runner) : Stimulus → Prop
  | .fires (.total token) => s.status = .running → ∀ newer delay older,
      s.effects = newer ++ .scheduled delay (.total token) :: older → .finished ∉ newer
  | .fires timer => s.status = .running → timer.token = s.stepToken →
      lastArmed s.effects = some s.currentStep
  | _ => True

/-! ## Tokens -/

/-- No callback has a later token than the state, and those that were scheduled before the last step
was armed or before the execution ended have an earlier one. -/
def Dated (s : Runner) : Prop :=
  ∀ newer delay timer older, s.effects = newer ++ .scheduled delay timer :: older →
    timer.token ≤ s.stepToken ∧
      (.finished ∈ newer ∨ (∃ step, .armed step ∈ newer) → timer.token < s.stepToken)

/-- A state with no earlier token and an effect more, which is a callback with the token of the
state, or none. -/
theorem Dated.note {effect : Effect} (h : Dated s) (token : s.stepToken ≤ t.stepToken)
    (effects : t.effects = effect :: s.effects)
    (scheduled : ∀ delay timer, effect = .scheduled delay timer → timer.token ≤ t.stepToken)
    (later : effect = .finished ∨ (∃ step, effect = .armed step) → s.stepToken < t.stepToken) :
    Dated t := by
  intro newer delay timer older hsplit
  rw [effects] at hsplit
  rcases List.cons_eq_append_iff.1 hsplit with ⟨rfl, hfirst⟩ | ⟨rest, rfl, hrest⟩
  · obtain ⟨heffect, -⟩ := List.cons.inj hfirst
    exact ⟨scheduled delay timer heffect.symm, by simp⟩
  · obtain ⟨hle, hlt⟩ := h rest delay timer older hrest
    refine ⟨by omega, fun hnewer => ?_⟩
    -- Either the new effect itself moves the token on, or an older one has done so.
    by_cases hnew : effect = .finished ∨ ∃ step, effect = .armed step
    · have hmoved := later hnew
      omega
    · have hold : .finished ∈ rest ∨ ∃ step, .armed step ∈ rest := by
        rcases hnewer with hmem | ⟨step, hmem⟩
        · rcases List.mem_cons.1 hmem with heq | hmem
          · exact absurd (.inl heq.symm) hnew
          · exact .inl hmem
        · rcases List.mem_cons.1 hmem with heq | hmem
          · exact absurd (.inr ⟨step, heq.symm⟩) hnew
          · exact .inr ⟨step, hmem⟩
      have hmoved := hlt hold
      omega

theorem Dated.congr (h : Dated s) (token : s.stepToken ≤ t.stepToken)
    (effects : t.effects = s.effects) : Dated t := by
  intro newer delay timer older hsplit
  rw [effects] at hsplit
  obtain ⟨hle, hlt⟩ := h newer delay timer older hsplit
  exact ⟨by omega, fun hnewer => Nat.lt_of_lt_of_le (hlt hnewer) token⟩

theorem Move.dated (hmove : Move x s t) (h : Dated s) : Dated t := by
  cases hmove with
  | quiet status token effects => exact h.congr token.ge effects
  | @input effect hinput =>
    refine h.note le_rfl rfl ?_ ?_
    · rintro delay timer rfl
      exact absurd hinput (by simp [Effect.isInput])
    · rintro (rfl | ⟨step, rfl⟩)
      · exact absurd hinput (by decide)
      · exact absurd hinput (by simp [Effect.isInput])
  | @schedules delay timer step token =>
    refine h.note le_rfl rfl ?_ (by simp)
    intro delay' timer' heq
    obtain ⟨-, rfl⟩ := Effect.scheduled.inj heq
    exact token.le
  | arms kind label => exact h.note (Nat.le_succ _) rfl (by simp) fun _ => Nat.lt_succ_self _
  | finishes terminal errorCode message =>
    rcases Runner.finish_cases x _ errorCode message s with hsame | ⟨htoken, heffects⟩
    · rw [hsame]
      exact h
    · exact h.note (by omega) heffects (by simp) fun _ => by omega

/-- An execution that is opened was not running, and runs. -/
theorem opened_spec {opened : Runner} (h : stimulus.opened x s = some opened) :
    s.status ≠ .running ∧ opened.status = .running ∧ opened.effects = s.effects ∧
      s.stepToken ≤ opened.stepToken := by
  cases stimulus with
  | start =>
    obtain ⟨hpending, heq⟩ := Option.ite_none_right_eq_some.1 h
    cases heq
    exact ⟨by simp [hpending], by simp [Runner.begin], by simp [Runner.begin],
      by simp [Runner.begin]⟩
  | resume =>
    obtain ⟨htaken, heq⟩ := Option.ite_none_right_eq_some.1 h
    cases heq
    exact ⟨by simp [htaken], by simp [Runner.reset], by simp [Runner.reset],
      by simp [Runner.reset]⟩
  | output message => exact absurd h (by simp [Stimulus.opened])
  | sessionState state => exact absurd h (by simp [Stimulus.opened])
  | cancel byUser => exact absurd h (by simp [Stimulus.opened])
  | manualInput text control secretRef appendEnter => exact absurd h (by simp [Stimulus.opened])
  | fires timer => exact absurd h (by simp [Stimulus.opened])

theorem Opens.dated [PyLib] (hopens : Opens x stimulus s u) (h : Dated s) : Dated u := by
  unfold Opens at hopens
  cases hopened : stimulus.opened x s with
  | none =>
    rw [hopened] at hopens
    obtain rfl : u = s := hopens
    exact h
  | some opened =>
    obtain ⟨-, -, heffects, htoken⟩ := opened_spec hopened
    have hdated : Dated opened := h.congr htoken heffects
    rw [hopened] at hopens
    rcases hopens with rfl | ⟨delay, -, rfl⟩
    · exact hdated
    · refine hdated.note le_rfl rfl ?_ (by simp)
      intro delay' timer' heq
      obtain ⟨-, rfl⟩ := Effect.scheduled.inj heq
      exact le_rfl

/-! ## What has been done since the execution was opened -/

/-- What some moves add to the effects: no callback of the total timeout, and the status stays
unless the execution ends. -/
def Extends (s t : Runner) : Prop :=
  ∃ new, t.effects = new ++ s.effects ∧ (∀ delay token, .scheduled delay (.total token) ∉ new) ∧
    (.finished ∉ new → t.status = s.status)

instance : IsPreorder Runner Extends where
  refl s := ⟨[], rfl, by simp, fun _ => rfl⟩
  trans s t u := by
    rintro ⟨new, heffects, htotal, hstatus⟩ ⟨newer, heffects', htotal', hstatus'⟩
    refine ⟨newer ++ new, by simp [heffects, heffects'], ?_, ?_⟩
    · intro delay token hmem
      rcases List.mem_append.1 hmem with hmem | hmem
      · exact htotal' delay token hmem
      · exact htotal delay token hmem
    · intro hfinished
      rw [List.mem_append, not_or] at hfinished
      exact (hstatus' hfinished.1).trans (hstatus hfinished.2)

theorem Move.extends (hmove : Move x s t) : Extends s t := by
  cases hmove with
  | quiet status token effects => exact ⟨[], effects, by simp, fun _ => status⟩
  | @input effect hinput =>
    refine ⟨[effect], rfl, ?_, fun _ => rfl⟩
    intro delay token hmem
    obtain rfl := List.mem_singleton.1 hmem
    exact absurd hinput (by simp [Effect.isInput])
  | @schedules delay timer step token =>
    refine ⟨[.scheduled delay timer], rfl, ?_, fun _ => rfl⟩
    intro delay' token' hmem
    obtain ⟨-, rfl⟩ := Effect.scheduled.inj (List.mem_singleton.1 hmem)
    exact absurd step (by simp [Timer.isTotal])
  | arms kind label => exact ⟨[.armed s.currentStep], rfl, by simp, fun _ => rfl⟩
  | finishes terminal errorCode message =>
    rcases Runner.finish_cases x _ errorCode message s with hsame | ⟨-, heffects⟩
    · rw [hsame]
      exact ⟨[], rfl, by simp, fun _ => rfl⟩
    · exact ⟨[.finished], heffects, by simp, fun h => absurd (List.mem_singleton_self _) h⟩

/-- An element of two lists one after the other is in the first or in the second. -/
theorem split_append {α : Type} {new old newer older : List α} {e : α}
    (h : new ++ old = newer ++ e :: older) :
    (∃ between, new = newer ++ e :: between) ∨ ∃ rest, newer = new ++ rest ∧
      old = rest ++ e :: older := by
  rcases List.append_eq_append_iff.1 h with ⟨rest, hnewer, hold⟩ | ⟨between, hnew, hrest⟩
  · exact .inr ⟨rest, hnewer, hold⟩
  · rcases List.cons_eq_append_iff.1 hrest with ⟨rfl, hold⟩ | ⟨between, rfl, -⟩
    · exact .inr ⟨[], by simpa using hnew.symm, hold⟩
    · exact .inl ⟨between, hnew⟩

/-- What holds of the timers of an execution at any time. -/
structure Timed [PyLib] (x : Execution) (o : Observed) : Prop where
  dated : Dated o.runner
  /-- A total timeout that was scheduled since the execution ended was scheduled when it was opened,
  and the execution runs. -/
  opened : ∀ newer time delay token older,
    o.log = newer ++ (time, .scheduled delay (.total token)) :: older →
      (∀ e ∈ newer, e.2 ≠ .finished) → o.runner.status = .running ∧ time = o.opened ∧
        milliseconds x.plan.totalTimeoutSeconds = .ok delay

section

variable [PyLib] [PyRe]

omit [PyRe] in
theorem timed_created (now : ℤ) : Timed x (.created now) where
  dated newer delay timer older h := absurd h (by simp [Observed.created])
  opened newer time delay token older h := absurd h (by simp [Observed.created])

/-- What is scheduled since the execution ended is no older than its opening. -/
theorem Occurs.opened_log (hstep : Occurs x stimulus o o') (h : Timed x o)
    (hopens : Opens x stimulus o.runner u) (hextends : Extends u o'.runner) :
    ∀ newer time delay token older,
      o'.log = newer ++ (time, .scheduled delay (.total token)) :: older →
        (∀ e ∈ newer, e.2 ≠ .finished) → o'.runner.status = .running ∧ time = o'.opened ∧
          milliseconds x.plan.totalTimeoutSeconds = .ok delay := by
  intro newer time delay token older hsplit hlive
  obtain ⟨new, hlog, htimes⟩ := hstep.logged
  obtain ⟨added, heffects, htotal, hstatus⟩ := hextends
  have hnew : new.map Prod.snd ++ o.runner.effects = added ++ u.effects := by
    calc new.map Prod.snd ++ o.runner.effects = o'.log.map Prod.snd := by
          rw [o.noted, hlog, List.map_append]
      _ = added ++ u.effects := by rw [← o'.noted, heffects]
  have hunfinished : .finished ∉ newer.map Prod.snd := by
    intro hmem
    obtain ⟨e, he, hfinished⟩ := List.mem_map.1 hmem
    exact hlive e he hfinished
  unfold Opens at hopens
  cases hopened : stimulus.opened x o.runner with
  | none =>
    rw [hopened] at hopens
    obtain rfl : u = o.runner := hopens
    obtain rfl : new.map Prod.snd = added := List.append_cancel_right hnew
    have hsame : o'.opened = o.opened := by rw [hstep.opened, hopened]; rfl
    rw [hlog] at hsplit
    rcases split_append hsplit with ⟨between, rfl⟩ | ⟨rest, rfl, hold⟩
    · exact absurd (by simp) (htotal delay token)
    · rw [List.map_append] at hunfinished
      have hfinished : .finished ∉ new.map Prod.snd := fun hmem =>
        hunfinished (List.mem_append_left _ hmem)
      obtain ⟨hrunning, htime, hdelay⟩ := h.opened rest time delay token older hold
        fun e he => hlive e (List.mem_append_right _ he)
      exact ⟨(hstatus hfinished).trans hrunning, htime.trans hsame.symm, hdelay⟩
  | some opened =>
    rw [hopened] at hopens
    obtain ⟨hnot, hrunning, hbefore, -⟩ := opened_spec hopened
    -- The opening itself schedules the total timeout, or cannot.
    obtain ⟨first, hfirst, hopening, htotals⟩ : ∃ first, u.effects = first ++ o.runner.effects ∧
        u.status = .running ∧ ∀ delay token, .scheduled delay (.total token) ∈ first →
          milliseconds x.plan.totalTimeoutSeconds = .ok delay := by
      rcases hopens with rfl | ⟨delay, hdelay, rfl⟩
      · exact ⟨[], hbefore, hrunning, by simp⟩
      · refine ⟨[.scheduled delay (.total opened.stepToken)], ?_, hrunning, ?_⟩
        · rw [← hbefore]
          rfl
        · intro delay' token' hmem
          obtain ⟨rfl, -⟩ := Effect.scheduled.inj (List.mem_singleton.1 hmem)
          exact hdelay
    have hsame : o'.opened = o'.now := by rw [hstep.opened, hopened]; rfl
    rw [hlog] at hsplit
    rcases split_append hsplit with ⟨between, hbetween⟩ | ⟨rest, rfl, hold⟩
    · have htime : time = o'.now :=
        htimes (time, .scheduled delay (.total token)) (by simp [hbetween])
      have hparts : added ++ first =
          newer.map Prod.snd ++ .scheduled delay (.total token) :: between.map Prod.snd := by
        have hparted : added ++ first ++ o.runner.effects =
            newer.map Prod.snd ++ .scheduled delay (.total token) :: between.map Prod.snd ++
              o.runner.effects := by
          calc added ++ first ++ o.runner.effects = new.map Prod.snd ++ o.runner.effects := by
                rw [hnew, hfirst, List.append_assoc]
            _ = _ := by rw [hbetween, List.map_append, List.map_cons]
        exact List.append_cancel_right hparted
      rcases split_append hparts with ⟨rest, hadded⟩ | ⟨rest, hnewer, hrest⟩
      · exact absurd (by simp [hadded]) (htotal delay token)
      · have hfinished : .finished ∉ added := fun hmem =>
          hunfinished (hnewer ▸ List.mem_append_left _ hmem)
        exact ⟨(hstatus hfinished).trans hopening, htime.trans hsame.symm,
          htotals delay token (by simp [hrest])⟩
    · obtain ⟨hran, -, -⟩ := h.opened rest time delay token older hold
        fun e he => hlive e (List.mem_append_right _ he)
      exact absurd hran hnot

omit [PyLib] [PyRe] in
theorem Moves.dated (hmoves : Moves x s t) (h : Dated s) : Dated t := by
  induction hmoves with
  | refl => exact h
  | tail _ hmove ih => exact hmove.dated ih

theorem Occurs.timed (hstep : Occurs x stimulus o o') (h : Timed x o) : Timed x o' := by
  obtain ⟨fuel, r, hrun⟩ := hstep.handled
  obtain ⟨u, hopens, hmoves⟩ := handle_moves fuel stimulus o.runner r o'.runner hrun
  constructor
  · exact hmoves.dated (hopens.dated h.dated)
  · exact hstep.opened_log h hopens (hmoves.lift fun _ _ => Move.extends)

/-- Whatever a stimulus does can be observed, at any later time. -/
theorem exists_occurs {fuel : ℕ} {r : Except ExecutionError Unit} {now : ℤ}
    (hrun : (handle x fuel stimulus).run o.runner = some (r, t)) (hlater : o.now ≤ now)
    (hdue : ∀ timer, stimulus = .fires timer →
      ∃ time delay, (time, .scheduled delay timer) ∈ o.log ∧ time + delay ≤ now) :
    ∃ o', o'.runner = t ∧ o'.now = now ∧ Occurs x stimulus o o' := by
  obtain ⟨u, hopens, hmoves⟩ := handle_moves fuel stimulus o.runner r t hrun
  obtain ⟨first, hfirst⟩ : ∃ first, u.effects = first ++ o.runner.effects := by
    unfold Opens at hopens
    cases hopened : stimulus.opened x o.runner with
    | none =>
      rw [hopened] at hopens
      obtain rfl : u = o.runner := hopens
      exact ⟨[], rfl⟩
    | some opened =>
      obtain ⟨-, -, hbefore, -⟩ := opened_spec hopened
      rw [hopened] at hopens
      rcases hopens with rfl | ⟨delay, -, rfl⟩
      · exact ⟨[], hbefore⟩
      · exact ⟨[.scheduled delay (.total opened.stepToken)], by rw [← hbefore]; rfl⟩
  obtain ⟨added, hadded, -⟩ := hmoves.lift fun _ _ => Move.extends
  have hnoted : t.effects = ((added ++ first).map (fun e => (now, e)) ++ o.log).map Prod.snd := by
    calc t.effects = added ++ first ++ o.log.map Prod.snd := by
          rw [hadded, hfirst, o.noted, List.append_assoc]
      _ = _ := by simp
  refine ⟨⟨t, now, if (stimulus.opened x o.runner).isSome then now else o.opened, _, hnoted⟩, rfl,
    rfl, ⟨fuel, r, hrun⟩, hlater, rfl, ⟨_, rfl, ?_⟩, hdue⟩
  intro e he
  obtain ⟨effect, -, rfl⟩ := List.mem_map.1 he
  rfl

theorem Observable.timed (h : Observable x o) : Timed x o := by
  induction h with
  | created now => exact timed_created now
  | occurs stimulus _ hstep ih => exact hstep.timed ih

/-! ## Stale callbacks -/

/-- A callback of a step with another token changes nothing. -/
theorem fires_rejected {timer : Timer} (hstep : timer.isTotal = false)
    (h : s.status ≠ .running ∨ timer.token ≠ s.stepToken) (fuel : ℕ) :
    Ensures (handle x fuel (.fires timer)) s fun _ t => t = s := by
  cases timer with
  | total token => exact absurd hstep (by simp [Timer.isTotal])
  | step token => exact ensures_get (Ensures.ite (fun _ => ensures_pure rfl) fun hnot => absurd h hnot)
  | idle token => exact ensures_get (Ensures.ite (fun _ => ensures_pure rfl) fun hnot => absurd h hnot)
  | responseRetry token =>
    exact ensures_get (Ensures.ite (fun _ => ensures_pure rfl) fun hnot => absurd h hnot)

/-- The total timeout changes nothing where the execution does not run. -/
theorem fires_total_rejected (token : ℕ) (h : s.status ≠ .running) (fuel : ℕ) :
    Ensures (handle x fuel (.fires (.total token))) s fun _ t => t = s :=
  ensures_modify (if_pos (.inl h))

omit [PyLib] [PyRe] in
/-- Where nothing has been armed since, the step that was armed last is the one from before. -/
theorem lastArmed_append {newer older : List Effect} {delay : ℤ} {timer : Timer}
    (h : ∀ step, .armed step ∉ newer) :
    lastArmed (newer ++ .scheduled delay timer :: older) = lastArmed older := by
  induction newer with
  | nil => rfl
  | cons effect rest ih =>
    have hrest := ih fun step hmem => h step (List.mem_cons_of_mem effect hmem)
    cases effect with
    | armed step => exact absurd (List.mem_cons_self) (h step)
    | sent payload => exact hrest
    | responded rule payload => exact hrest
    | scheduled delay timer => exact hrest
    | finished => exact hrest

omit [PyLib] [PyRe] in
/-- A callback of a step that finds what it was scheduled for. -/
theorem Timely.located {timer : Timer} (h : Timely s (.fires timer)) (hstep : timer.isTotal = false)
    (hrunning : s.status = .running) (htoken : timer.token = s.stepToken) :
    lastArmed s.effects = some s.currentStep := by
  cases timer with
  | total token => exact absurd hstep (by simp [Timer.isTotal])
  | step token => exact h hrunning htoken
  | idle token => exact h hrunning htoken
  | responseRetry token => exact h hrunning htoken

/-- In every run, whenever a stimulus finds what it was scheduled for, timers belong to their
arming: a stale callback changes nothing, and the total timeout ends an execution only when it has
passed since the execution was opened. -/
theorem belongs_of_timely (h : Observable x o) (hstep : Occurs x stimulus o o')
    (htimely : Timely o.runner stimulus) : Belongs x stimulus o o' := by
  have htimed := h.timed
  obtain ⟨fuel, r, hrun⟩ := hstep.handled
  constructor
  · rintro timer rfl newer delay older hsplit hstale
    by_cases htotal : timer.isTotal = true
    · cases timer with
      | total token =>
        have hfinished : .finished ∈ newer := by
          rcases hstale with hfinished | ⟨hstep, -⟩
          · exact hfinished
          · exact absurd htotal (by simp [hstep])
        have hnot : o.runner.status ≠ .running := fun hrunning =>
          htimely hrunning newer delay older hsplit hfinished
        exact fires_total_rejected token hnot fuel r o'.runner hrun
      | step token => exact absurd htotal (by simp [Timer.isTotal])
      | idle token => exact absurd htotal (by simp [Timer.isTotal])
      | responseRetry token => exact absurd htotal (by simp [Timer.isTotal])
    · rw [Bool.not_eq_true] at htotal
      have hother : o.runner.status ≠ .running ∨ timer.token ≠ o.runner.stepToken := by
        by_contra hsame
        rw [not_or, not_not, not_not] at hsame
        obtain ⟨hrunning, htoken⟩ := hsame
        have hearlier := (htimed.dated newer delay timer older hsplit).2
        have hlast := htimely.located htotal hrunning htoken
        rcases hstale with hfinished | ⟨-, harmed | hmoved⟩
        · have hlt := hearlier (.inl hfinished)
          omega
        · have hlt := hearlier (.inr harmed)
          omega
        · by_cases harmed : ∃ step, .armed step ∈ newer
          · have hlt := hearlier (.inr harmed)
            omega
          · rw [hsplit, lastArmed_append (not_exists.1 harmed)] at hlast
            exact hmoved hlast
      exact fires_rejected htotal hother fuel r o'.runner hrun
  · rintro token rfl hchanged
    have hrunning : o.runner.status = .running := by
      by_contra hnot
      exact hchanged (fires_total_rejected token hnot fuel r o'.runner hrun)
    obtain ⟨time, delay, hmem, hdue⟩ := hstep.due (.total token) rfl
    obtain ⟨newer, older, hlog⟩ := List.append_of_mem hmem
    have heffects : o.runner.effects =
        newer.map Prod.snd ++ .scheduled delay (.total token) :: older.map Prod.snd := by
      rw [o.noted, hlog, List.map_append, List.map_cons]
    have hlive := htimely hrunning _ _ _ heffects
    obtain ⟨-, htime, hdelay⟩ := htimed.opened newer time delay token older hlog fun e he hfinished =>
      hlive (List.mem_map.2 ⟨e, he, hfinished⟩)
    exact ⟨delay, hdelay, by omega⟩

/-- The state after a stimulus, with three iterations of the loop of `_advance_locked`. -/
def after (x : Execution) (stimulus : Stimulus) (s : Runner) : Runner :=
  match (handle x 3 stimulus).run s with
  | some (_, t) => t
  | none => s

theorem exists_occurs_after (x : Execution) (stimulus : Stimulus) {now : ℤ} (hrunner : o.runner = s)
    (h : ((handle x 3 stimulus).run s).isSome = true) (hlater : o.now ≤ now)
    (hdue : ∀ timer, stimulus = .fires timer →
      ∃ time delay, (time, .scheduled delay timer) ∈ o.log ∧ time + delay ≤ now) :
    ∃ o', o'.runner = after x stimulus s ∧ o'.now = now ∧ Occurs x stimulus o o' := by
  obtain ⟨⟨r, t⟩, hrun⟩ := Option.isSome_iff_exists.1 h
  have hafter : after x stimulus s = t := by simp [after, hrun]
  rw [hafter]
  exact exists_occurs (hrunner ▸ hrun) hlater hdue

/-- What is done by the first stimulus is done at its time. -/
theorem Occurs.mem_log {created now : ℤ} {effect : Effect}
    (h : Occurs x stimulus (.created created) o') (hnow : o'.now = now)
    (heffect : effect ∈ o'.runner.effects) : (now, effect) ∈ o'.log := by
  obtain ⟨new, hlog, htimes⟩ := h.logged
  rw [Observed.created, List.append_nil] at hlog
  rw [o'.noted] at heffect
  obtain ⟨e, hmem, rfl⟩ := List.mem_map.1 heffect
  have htime : e.1 = now := (htimes e (hlog ▸ hmem)).trans hnow
  rw [← htime]
  exact hmem

end

/-- The total timeout of an execution that waits passes. -/
theorem belongs_of_timely_waiting : let _ := PyLib.decimal; let _ := PyRe.findsNothing
    ∃ o o', Occurs (ofPlan ⟨[.expect {}], .finite 60⟩) (.fires (.total 0)) o o' ∧
      Belongs (ofPlan ⟨[.expect {}], .finite 60⟩) (.fires (.total 0)) o o' := by
  intro pyLib pyRe
  let x := ofPlan ⟨[.expect {}], .finite 60⟩
  let started := after x .start {}
  obtain ⟨o₁, hrunner₁, hnow₁, hstart⟩ : ∃ o', o'.runner = started ∧ o'.now = 0 ∧
      Occurs x .start (.created 0) o' :=
    exists_occurs_after x .start (o := .created 0) rfl (by decide +kernel) (le_refl (0 : ℤ))
      fun timer h => absurd h (by simp)
  have hscheduled : (0, .scheduled 60000 (.total 0)) ∈ o₁.log :=
    hstart.mem_log hnow₁ (by rw [hrunner₁]; decide +kernel)
  obtain ⟨o₂, hrunner₂, hnow₂, hfire⟩ : ∃ o', o'.runner = after x (.fires (.total 0)) started ∧
      o'.now = 60000 ∧ Occurs x (.fires (.total 0)) o₁ o' := by
    refine exists_occurs_after x (.fires (.total 0)) hrunner₁ (by decide +kernel) (by omega) ?_
    rintro timer heq
    cases heq
    exact ⟨0, 60000, hscheduled, by omega⟩
  have hunfinished : .finished ∉ o₁.runner.effects := by
    rw [hrunner₁]
    decide +kernel
  refine ⟨o₁, o₂, hfire, belongs_of_timely ((Observable.created 0).occurs .start hstart) hfire ?_⟩
  intro _ newer delay older hsplit hmem
  exact hunfinished (hsplit ▸ List.mem_append_left _ hmem)

/-- An execution that waits is started, taken over half a minute later and resumed after another
twenty seconds. The minute that was its total timeout when it started ends it ten seconds later. -/
theorem not_belongs_takenOver : let _ := PyLib.decimal; let _ := PyRe.findsNothing
    ∃ plan, parseTerminalPlan (.list [.dict [("type", .str "expect")]]) (.int 60) = .ok plan ∧
      ¬∀ stimulus o o', Observable (ofPlan plan) o → Occurs (ofPlan plan) stimulus o o' →
        Belongs (ofPlan plan) stimulus o o' := by
  intro pyLib pyRe
  have hplan : @parseTerminalPlan PyLib.decimal (.list [.dict [("type", .str "expect")]])
      (.int 60) = .ok ⟨[.expect {}], .finite 60⟩ := by
    decide +kernel
  refine ⟨_, hplan, fun hbelongs => ?_⟩
  let x := ofPlan ⟨[.expect {}], .finite 60⟩
  let started := after x .start {}
  let taken := after x (.cancel true) started
  let resumed := after x .resume taken
  obtain ⟨o₁, hrunner₁, hnow₁, hstart⟩ : ∃ o', o'.runner = started ∧ o'.now = 0 ∧
      Occurs x .start (.created 0) o' :=
    exists_occurs_after x .start (o := .created 0) rfl (by decide +kernel) (le_refl (0 : ℤ))
      fun timer h => absurd h (by simp)
  obtain ⟨o₂, hrunner₂, hnow₂, htake⟩ : ∃ o', o'.runner = taken ∧ o'.now = 30000 ∧
      Occurs x (.cancel true) o₁ o' :=
    exists_occurs_after x (.cancel true) hrunner₁ (by decide +kernel) (by omega) fun timer h => absurd h (by simp)
  obtain ⟨o₃, hrunner₃, hnow₃, hresume⟩ : ∃ o', o'.runner = resumed ∧ o'.now = 50000 ∧
      Occurs x .resume o₂ o' :=
    exists_occurs_after x .resume hrunner₂ (by decide +kernel) (by omega) fun timer h => absurd h (by simp)
  have hscheduled : (0, .scheduled 60000 (.total 0)) ∈ o₁.log :=
    hstart.mem_log hnow₁ (by rw [hrunner₁]; decide +kernel)
  have hdue : (0, .scheduled 60000 (.total 0)) ∈ o₃.log := by
    obtain ⟨new₂, hlog₂, -⟩ := htake.logged
    obtain ⟨new₃, hlog₃, -⟩ := hresume.logged
    rw [hlog₃, hlog₂]
    exact List.mem_append_right _ (List.mem_append_right _ hscheduled)
  obtain ⟨o₄, hrunner₄, hnow₄, hfire⟩ : ∃ o', o'.runner = after x (.fires (.total 0)) resumed ∧
      o'.now = 60000 ∧ Occurs x (.fires (.total 0)) o₃ o' := by
    refine exists_occurs_after x (.fires (.total 0)) hrunner₃ (by decide +kernel) (by omega) ?_
    rintro timer heq
    cases heq
    exact ⟨0, 60000, hdue, by omega⟩
  have hobservable := ((Observable.created 0).occurs .start hstart).occurs (.cancel true) htake
  have hpromise := hbelongs _ o₃ o₄ (hobservable.occurs .resume hresume) hfire
  have hended : o₄.runner ≠ o₃.runner := by
    intro hsame
    have hstatus := congrArg Runner.status hsame
    rw [hrunner₄, hrunner₃] at hstatus
    exact absurd hstatus (by decide +kernel)
  obtain ⟨delay, hdelay, hpassed⟩ := hpromise.passed 0 rfl hended
  have hminute : milliseconds (.finite 60) = .ok 60000 := by decide +kernel
  have hopened : o₃.opened = 50000 := by
    rw [hresume.opened, hrunner₂, hnow₃]
    exact if_pos (by decide +kernel)
  have hsame : Except.ok 60000 = Except.ok delay := hminute.symm.trans hdelay
  cases hsame
  omega

end DeviceShell.Terminal
