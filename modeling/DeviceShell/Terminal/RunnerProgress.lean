import DeviceShell.Terminal.RunnerMoves

/-!
# What a stimulus does to the status

`Progress` relates the states before and after a method: a terminal status stays, `on_finished` is
called once when the execution becomes terminal, and an execution that has begun is not pending
again. Every method of the runner moves within it, whatever the plan and the state
(`handle_progress`), except for a resume of an execution that the user has taken over, which moves
within it from the state in which it runs again (`resume_progress`).
-/

namespace DeviceShell.Terminal

open Method

/-- How often `on_finished` has been called. -/
def Runner.notices (s : Runner) : ℕ := s.effects.count .finished

/-- What a method does to the status. -/
structure Progress (s t : Runner) : Prop where
  /-- A terminal status stays. -/
  frozen : s.isTerminal = true → t.status = s.status
  /-- `on_finished` is called when the execution becomes terminal. -/
  notices : t.notices = s.notices + if !s.isTerminal && t.isTerminal then 1 else 0
  begun : s.status ≠ .pending → t.status ≠ .pending

variable {x : Execution} {s t u : Runner}

/-- A state with the status and the notices of another one. -/
theorem Progress.same (hstatus : t.status = s.status) (hnotices : t.notices = s.notices) :
    Progress s t := by
  constructor
  · intro _
    exact hstatus
  · rw [hnotices, Runner.isTerminal, Runner.isTerminal, hstatus]
    cases s.status.isTerminal <;> simp
  · intro hbegun
    rw [hstatus]
    exact hbegun

theorem Progress.trans (h : Progress s t) (h' : Progress t u) : Progress s u := by
  have hfrozen : s.isTerminal = true → t.isTerminal = true := fun hs => by
    rw [Runner.isTerminal, h.frozen hs]
    exact hs
  constructor
  · intro hs
    rw [h'.frozen (hfrozen hs), h.frozen hs]
  · rw [h'.notices, h.notices]
    by_cases hs : s.isTerminal = true
    · have ht := hfrozen hs
      simp [hs, ht]
    · by_cases ht : t.isTerminal = true
      · have hu : u.isTerminal = true := by
          rw [Runner.isTerminal, h'.frozen ht]
          exact ht
        simp [hs, ht, hu]
      · simp [hs, ht]
  · intro hs
    exact h'.begun (h.begun hs)

instance : IsPreorder Runner Progress where
  refl _ := .same rfl rfl
  trans _ _ _ := .trans

@[simp] theorem Runner.recordEvent_notices (event : ExecutionEvent) (s : Runner) :
    (s.recordEvent x event).notices = s.notices := by
  simp only [Runner.notices, Runner.recordEvent]

@[simp] theorem Runner.finishActiveStep_notices (status : ExecutionStatus)
    (matched errorCode message : String) (s : Runner) :
    (s.finishActiveStep x status matched errorCode message).notices = s.notices := by
  unfold Runner.finishActiveStep
  split <;> rfl

/-- An effect that is no call of `on_finished`. -/
theorem notices_cons {effect : Effect} (h : effect ≠ .finished) (s : Runner) :
    ({ s with effects := effect :: s.effects } : Runner).notices = s.notices :=
  List.count_cons_of_ne h

theorem progress_note {effect : Effect} (h : effect ≠ .finished) (s : Runner) :
    Progress s { s with effects := effect :: s.effects } := .same rfl (notices_cons h s)

theorem progress_recordEvent (event : ExecutionEvent) (s : Runner) :
    Progress s (s.recordEvent x event) := .same (by simp) (by simp)

theorem progress_finish {status : ExecutionStatus} (hterminal : status.isTerminal = true)
    (errorCode message : String) (s : Runner) :
    Progress s (s.finish x status errorCode message) := by
  unfold Runner.finish
  by_cases hs : s.isTerminal = true
  · rw [if_pos hs]
    exact .same rfl rfl
  · rw [if_neg hs]
    constructor
    · intro h
      exact absurd h hs
    · have hcount : (Effect.finished :: s.effects).count .finished =
          s.effects.count .finished + 1 := List.count_cons_self
      simpa [Runner.notices, Runner.isTerminal, Runner.recordEvent, hterminal] using
        hs
    · intro _ hpending
      have : status = .pending := hpending
      rw [this] at hterminal
      exact absurd hterminal (by decide)

/-- Every move is progress. -/
theorem Move.progress (h : Move x s t) : Progress s t := by
  cases h with
  | quiet status token effects => exact .same status (by rw [Runner.notices, effects, Runner.notices])
  | @input effect hinput => exact progress_note (by rintro rfl; exact absurd hinput (by decide)) s
  | schedules step token => exact progress_note (by simp) s
  | arms kind label => exact .same rfl (List.count_cons_of_ne (by simp))
  | finishes terminal errorCode message => exact progress_finish terminal errorCode message s

theorem Moves.progress (h : Moves x s t) : Progress s t :=
  h.lift fun _ _ => Move.progress

/-! ## Stimuli -/

section

variable [PyLib]

/-- An execution that has been opened progresses as it goes on. -/
theorem open_progress (fuel : ℕ) (s : Runner) :
    Ensures (do
      schedule x.plan.totalTimeoutSeconds (.total s.stepToken)
      advance x fuel : RunnerM Unit) s fun _ t => Progress s t := by
  refine (open_moves fuel s).mono ?_
  rintro r t ⟨u, (rfl | ⟨delay, -, rfl⟩), hmoves⟩
  · exact hmoves.progress
  · exact (progress_note (by simp) s).trans hmoves.progress

/-- An execution that is pending begins to run. -/
theorem start_runs (fuel : ℕ) {s : Runner} (h : s.status = .pending) :
    Ensures (start x fuel) s fun _ t =>
      Progress ((s.begin x).recordEvent x { type := "started" }) t := by
  refine ensures_get (Ensures.ite (fun hnot => absurd h hnot) fun _ => ensures_modify_bind ?_)
  exact open_progress fuel ((s.begin x).recordEvent x { type := "started" })

/-- An execution that begins. -/
theorem start_progress (fuel : ℕ) (s : Runner) :
    Ensures (start x fuel) s fun _ t => Progress s t := by
  by_cases hpending : s.status = .pending
  · have hbegin : Progress s (s.begin x) := by
      constructor
      · intro hterminal
        rw [Runner.isTerminal, hpending] at hterminal
        exact absurd hterminal (by decide)
      · have hlive : (s.begin x).isTerminal = false := rfl
        rw [hlive, Bool.and_false]
        rfl
      · intro hbegun
        exact absurd hpending hbegun
    have hstarted := hbegin.trans (progress_recordEvent (x := x) { type := "started" } (s.begin x))
    exact (start_runs fuel hpending).mono fun _ t ht => hstarted.trans ht
  · exact ensures_get (Ensures.ite (fun _ => ensures_pure (.same rfl rfl)) fun hnot =>
      absurd (not_not.1 hnot) hpending)

/-- An execution that is resumed runs on; nothing else is. -/
theorem resume_progress (fuel : ℕ) (s : Runner) :
    Ensures (resume x fuel) s fun r t =>
      (s.status ≠ .cancelledByUser ∧ t = s ∧ r ≠ .ok ()) ∨
        s.status = .cancelledByUser ∧
          Progress ((s.reset x).recordEvent x { type := "resumed" }) t := by
  unfold resume
  apply ensures_get
  apply Ensures.ite
  · intro hnot
    exact ensures_throw (.inl ⟨hnot, rfl, by simp⟩)
  · intro htaken
    apply ensures_modify_bind
    refine (open_progress fuel ((s.reset x).recordEvent x { type := "resumed" })).mono ?_
    intro r t ht
    exact .inr ⟨not_not.1 htaken, ht⟩

/-- Whether a stimulus resumes an execution that the user has taken over. -/
def Stimulus.resumes (s : Runner) : Stimulus → Bool
  | .resume => s.status = .cancelledByUser
  | _ => false

variable [PyRe]

/-- Every stimulus moves within `Progress`, except for one that resumes the execution. -/
theorem handle_progress (fuel : ℕ) {stimulus : Stimulus} {s : Runner}
    (h : stimulus.resumes s = false) :
    Ensures (handle x fuel stimulus) s fun _ t => Progress s t := by
  have hmoves : stimulus.opened x s = none →
      Ensures (handle x fuel stimulus) s fun _ t => Progress s t := by
    intro hnone
    refine (handle_moves fuel stimulus s).mono ?_
    rintro r t ⟨u, hopens, hmoves⟩
    rw [Opens, hnone] at hopens
    obtain rfl : u = s := hopens
    exact hmoves.progress
  cases stimulus with
  | start => exact start_progress fuel s
  | resume =>
    have hnot : s.status ≠ .cancelledByUser := by simpa [Stimulus.resumes] using h
    exact hmoves (if_neg hnot)
  | output message => exact hmoves rfl
  | sessionState state => exact hmoves rfl
  | cancel byUser => exact hmoves rfl
  | manualInput text control secretRef appendEnter => exact hmoves rfl
  | fires timer => exact hmoves rfl

end

end DeviceShell.Terminal
