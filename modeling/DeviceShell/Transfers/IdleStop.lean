import DeviceShell.Transfers.ServiceLifecycle

/-!
# The idle stop and the transfers

The file service is stopped by `controller.stop`, which a thread runs while the coroutine that
handed it over holds the lifecycle lock, so that no `_ensure_service` returns before the stop is
over. The idle stop breaks this when it is cancelled: it gives the lock back, and its thread goes
on. As long as no coroutine is cancelled between handing over a stop and its taking effect, no stop
takes effect under a transfer (`not_stopped_under`). `stop_service` looks at the transfers before it
queues up for the lock; the order of the queue keeps it before every transfer that comes later
(`Invariant.ahead`).
-/

namespace DeviceShell.Transfers

/-- The coroutine has the lifecycle lock. -/
def Coroutine.Holds (c : Coroutine) : Prop := c.point = .inside ∨ c.point = .handed

/-- The coroutine is the `_ensure_service` of a transfer. -/
def Coroutine.ForTransfer (c : Coroutine) : Prop := ∃ x, c.role = .ensureService (some x)

/-- The coroutine is a `stop_service` that is to stop the service. -/
def Coroutine.StopPending (c : Coroutine) : Prop :=
  c.role = .stopService ∧ (c.point = .waiting ∨ c.point = .inside)

namespace FileService

variable {Config : Type} {s : FileService Config} {t x : ℕ}

/-- What holds of the service while no coroutine is cancelled whose stop is under way. -/
structure Invariant (s : FileService Config) : Prop where
  lock : s.lock.Guards (fun t => (s.coroutines t).Holds)
    (fun t => (s.coroutines t).point = .waiting)
  fresh : ∀ t, s.next ≤ t → s.coroutines t = {}
  idle : ∀ t, s.idleStopTask = some t → t < s.next
  /-- A stop that has not taken effect holds the lock. -/
  stops : ∀ t, (s.coroutines t).job.Stops → (s.coroutines t).point = .handed
  roles : ∀ t, (s.coroutines t).job.Stops →
    (s.coroutines t).role = .idleStop ∨ (s.coroutines t).role = .stopService
  spared : ∀ t, (s.coroutines t).cancelled = true → ¬(s.coroutines t).job.Stops
  /-- While a stop is under way no transfer has a configuration. -/
  quiet : ∀ t, (s.coroutines t).job.Stops → ∀ x, (s.stages x).served = false
  /-- No transfer is before a `stop_service` in the queue of the lock. -/
  order : s.lock.waiters.Pairwise fun t u =>
    (s.coroutines t).ForTransfer → (s.coroutines u).role ≠ .stopService
  /-- A `stop_service` that waits for the lock is ahead of every transfer. -/
  ahead : ∀ u, (s.coroutines u).StopPending → (∀ x, (s.stages x).served = false) ∧
    ∀ t, (s.coroutines t).ForTransfer → ¬(s.coroutines t).Holds
  tasks : ∀ x, s.stages x ≠ .absent → x ∈ s.tasks
  ensuring : ∀ t x, (s.coroutines t).role = .ensureService (some x) →
    (s.coroutines t).Holds ∨ (s.coroutines t).point = .waiting →
    ∃ served, s.stages x = .ensuring t served
  safe : s.stoppedUnder = []

@[simp] theorem coroutines_put (s : FileService Config) (t : ℕ) (c : Coroutine) (u : ℕ) :
    (s.put t c).coroutines u = if u = t then c else s.coroutines u := by
  simp [put, Function.update_apply]

@[simp] theorem coroutines_move (s : FileService Config) (t : ℕ) (point : Point) (u : ℕ) :
    (s.move t point).coroutines u =
      if u = t then { s.coroutines t with point := point } else s.coroutines u := by
  simp [move]

@[simp] theorem coroutines_work (s : FileService Config) (t : ℕ) (job : Job) (u : ℕ) :
    (s.work t job).coroutines u =
      if u = t then { s.coroutines t with job := job } else s.coroutines u := by
  simp [work]

/-! ## Parts of a step -/

/-- A coroutine that is anywhere has been created. -/
theorem Invariant.lt_next (h : s.Invariant) (hpoint : (s.coroutines t).point ≠ .absent) :
    t < s.next := by
  by_contra hle
  exact hpoint (by rw [h.fresh t (by omega)])

/-- Without transfers, none has a configuration. -/
theorem Invariant.not_served (h : s.Invariant) (htasks : s.tasks = []) (x : ℕ) :
    (s.stages x).served = false := by
  have habsent : s.stages x = .absent := by
    by_contra hne
    have hmem := h.tasks x hne
    rw [htasks] at hmem
    cases hmem
  rw [habsent]
  rfl

/-- Whoever has the lock, no other coroutine has a stop under way. -/
theorem Invariant.not_stops (h : s.Invariant) (hholds : (s.coroutines t).Holds)
    (ht : ¬(s.coroutines t).job.Stops) (u : ℕ) : ¬(s.coroutines u).job.Stops := by
  intro hu
  have hsame : u = t := h.lock.exclusive u t (.inr (h.stops u hu)) hholds
  exact ht (hsame ▸ hu)

/-- Without transfers, none of them waits for `_ensure_service`. -/
theorem Invariant.not_forTransfer (h : s.Invariant) (htasks : s.tasks = [])
    (hlive : (s.coroutines t).Holds ∨ (s.coroutines t).point = .waiting) :
    ¬(s.coroutines t).ForTransfer := by
  rintro ⟨x, hx⟩
  obtain ⟨served, hstage⟩ := h.ensuring t x hx hlive
  have hmem := h.tasks x (by simp [hstage])
  rw [htasks] at hmem
  cases hmem

/-- A coroutine and the lock have changed. -/
theorem Invariant.update (h : s.Invariant) {l : AsyncLock} {c : Coroutine} (hcreated : t < s.next)
    (hrole : c.role = (s.coroutines t).role)
    (hlock : l.Guards (fun u => ((s.put t c).coroutines u).Holds)
      (fun u => ((s.put t c).coroutines u).point = .waiting))
    (horder : l.waiters.Pairwise fun u v =>
      (s.coroutines u).ForTransfer → (s.coroutines v).role ≠ .stopService)
    (hstops : c.job.Stops → c.point = .handed ∧ c.cancelled = false ∧
      (c.role = .idleStop ∨ c.role = .stopService) ∧ ∀ x, (s.stages x).served = false)
    (hpending : c.StopPending → (s.coroutines t).StopPending ∨ s.tasks = [])
    (hholds : c.ForTransfer → c.Holds → (s.coroutines t).Holds ∨
      ∀ u, ¬(s.coroutines u).StopPending)
    (hensuring : ∀ x, c.role = .ensureService (some x) → c.Holds ∨ c.point = .waiting →
      ∃ served, s.stages x = .ensuring t served) :
    ({ s.put t c with lock := l } : FileService Config).Invariant := by
  have hroles (u : ℕ) : ((s.put t c).coroutines u).role = (s.coroutines u).role := by
    by_cases hu : u = t
    · simp [hu, hrole]
    · simp [hu]
  have htransfer (u : ℕ) : ((s.put t c).coroutines u).ForTransfer ↔
      (s.coroutines u).ForTransfer := by
    unfold Coroutine.ForTransfer
    rw [hroles]
  constructor
  · exact hlock
  · intro u hu
    have hne : u ≠ t := fun heq => absurd (heq ▸ hu : s.next ≤ t) (by omega)
    simpa [hne] using h.fresh u hu
  · exact h.idle
  · intro u hu
    by_cases hne : u = t
    · simpa [hne] using (hstops (by simpa [hne] using hu)).1
    · simpa [hne] using h.stops u (by simpa [hne] using hu)
  · intro u hu
    by_cases hne : u = t
    · simpa [hne] using (hstops (by simpa [hne] using hu)).2.2.1
    · simpa [hne] using h.roles u (by simpa [hne] using hu)
  · intro u hcancelled hu
    by_cases hne : u = t
    · have hfalse := (hstops (by simpa [hne] using hu)).2.1
      rw [show c.cancelled = true by simpa [hne] using hcancelled] at hfalse
      cases hfalse
    · exact h.spared u (by simpa [hne] using hcancelled) (by simpa [hne] using hu)
  · intro u hu
    by_cases hne : u = t
    · exact (hstops (by simpa [hne] using hu)).2.2.2
    · exact h.quiet u (by simpa [hne] using hu)
  · exact horder.imp fun {u v} huv hu => by
      rw [show (_ : Role) = _ from hroles v]
      exact huv ((htransfer u).1 hu)
  · intro u hu
    have hold : (s.coroutines u).StopPending ∨ s.tasks = [] := by
      by_cases hne : u = t
      · exact hne ▸ hpending (by simpa [hne] using hu)
      · exact .inl (by simpa [hne] using hu)
    refine ⟨?_, fun v hv hheld => ?_⟩
    · rcases hold with hold | hold
      · exact (h.ahead u hold).1
      · exact h.not_served hold
    · have hv' := (htransfer v).1 hv
      by_cases hne : v = t
      · have hc : c.Holds := by simpa [hne] using hheld
        obtain ⟨x, hx⟩ : c.ForTransfer := by simpa [hne] using hv
        rcases hold with hold | hold
        · rcases hholds ⟨x, hx⟩ hc with hbefore | hnone
          · exact (h.ahead u hold).2 v hv' (hne ▸ hbefore)
          · exact hnone u hold
        · obtain ⟨served, hstage⟩ := hensuring x hx (.inl hc)
          have hmem := h.tasks x (by simp [hstage])
          rw [hold] at hmem
          cases hmem
      · have hheld' : (s.coroutines v).Holds := by simpa [hne] using hheld
        rcases hold with hold | hold
        · exact (h.ahead u hold).2 v hv' hheld'
        · exact h.not_forTransfer hold (.inl hheld') hv'
  · exact h.tasks
  · intro u x hu hlive
    by_cases hne : u = t
    · subst hne
      exact hensuring x (by simpa using hu) (by simpa using hlive)
    · exact h.ensuring u x (by simpa [hne] using hu) (by simpa [hne] using hlive)
  · exact h.safe

/-- Handing work over leaves the lock as it is. -/
theorem handed_eq (s : FileService Config) (t : ℕ) (job : Job) :
    (s.work t job).move t .handed =
      { s.put t { s.coroutines t with job := job, point := .handed } with lock := s.lock } := by
  simp [work, move, put]

/-- The work of a coroutine that has the lock is handed to a thread. -/
theorem Invariant.hand (h : s.Invariant) (hinside : (s.coroutines t).point = .inside) (job : Job)
    (hstops : job.Stops → (s.coroutines t).cancelled = false ∧
      ((s.coroutines t).role = .idleStop ∨ (s.coroutines t).role = .stopService) ∧
      ∀ x, (s.stages x).served = false) :
    ((s.work t job).move t .handed).Invariant := by
  have hheld : (s.coroutines t).Holds := .inl hinside
  rw [handed_eq]
  refine h.update (h.lt_next (by simp [hinside])) rfl ?_ h.order (fun hj => ⟨rfl, hstops hj⟩) ?_
    (fun _ _ => .inl hheld) fun x hx _ => h.ensuring t x hx (.inl hheld)
  · refine h.lock.congr (fun u => ?_) fun u => ?_
    · by_cases hu : u = t <;> simp [hu, Coroutine.Holds, hinside]
    · by_cases hu : u = t <;> simp [hu, hinside]
  · rintro ⟨-, hpoint⟩
    simp at hpoint

/-- A coroutine that has no stop under way gives the lock back. -/
theorem Invariant.leave (h : s.Invariant) (hheld : (s.coroutines t).Holds)
    (hjob : ¬(s.coroutines t).job.Stops) : (s.release.move t .done).Invariant := by
  have hcreated : t < s.next := h.lt_next (by rcases hheld with hp | hp <;> simp [hp])
  refine h.update (l := s.lock.release) (c := { s.coroutines t with point := .done }) hcreated rfl
    ?_ h.order (fun hj => absurd hj hjob) ?_ ?_ ?_
  · refine (h.lock.release hheld).congr (fun u => ?_) fun u => ?_
    · by_cases hu : u = t <;> simp [hu, Coroutine.Holds]
    · have hnot : (s.coroutines t).point ≠ .waiting := by
        rcases hheld with hp | hp <;> simp [hp]
      by_cases hu : u = t <;> simp [hu, hnot]
  · rintro ⟨-, hpoint⟩
    simp at hpoint
  · rintro - (hp | hp) <;> cases hp
  · rintro x - ((hp | hp) | hp) <;> cases hp

/-- A thread goes on. -/
theorem Invariant.work (h : s.Invariant) (hjob : (s.coroutines t).job ≠ .absent) {job : Job}
    (hstops : job.Stops → (s.coroutines t).job.Stops) : (s.work t job).Invariant := by
  have hcreated : t < s.next := by
    by_contra hle
    exact hjob (by rw [h.fresh t (by omega)])
  refine h.update (l := s.lock) (c := { s.coroutines t with job := job }) hcreated rfl ?_ h.order
    ?_ .inl (fun _ hc => .inl hc) fun x hx hlive => h.ensuring t x hx hlive
  · refine h.lock.congr (fun u => ?_) fun u => ?_
    · by_cases hu : u = t <;> simp [hu, Coroutine.Holds]
    · by_cases hu : u = t <;> simp [hu]
  · intro hj
    have hold := hstops hj
    have hnot : (s.coroutines t).cancelled = false := by
      by_contra hcancelled
      exact h.spared t (by simpa using hcancelled) hold
    exact ⟨h.stops t hold, hnot, h.roles t hold, h.quiet t hold⟩

/-- A coroutine is created. -/
theorem Invariant.create (h : s.Invariant) (role : Role) {point : Point}
    (hpoint : point = .absent ∨ point = .sleeping) : (s.create role point).Invariant := by
  have hnew : s.coroutines s.next = {} := h.fresh s.next (Nat.le_refl _)
  have hcreate (u : ℕ) : (s.create role point).coroutines u =
      if u = s.next then { role := role, point := point } else s.coroutines u := by
    simp [FileService.create]
  have hother {u : ℕ} (hu : (s.coroutines u).point ≠ .absent) :
      (s.create role point).coroutines u = s.coroutines u := by
    have hne : u ≠ s.next := fun heq => hu (by rw [heq, hnew])
    rw [hcreate, if_neg hne]
  have hholds (u : ℕ) : ((s.create role point).coroutines u).Holds ↔ (s.coroutines u).Holds := by
    rw [hcreate]
    by_cases hu : u = s.next
    · rcases hpoint with rfl | rfl <;> simp [hu, hnew, Coroutine.Holds]
    · rw [if_neg hu]
  have hwaits (u : ℕ) : ((s.create role point).coroutines u).point = .waiting ↔
      (s.coroutines u).point = .waiting := by
    rw [hcreate]
    by_cases hu : u = s.next
    · rcases hpoint with rfl | rfl <;> simp [hu, hnew]
    · rw [if_neg hu]
  have hlive {u : ℕ} (hu : ((s.create role point).coroutines u).Holds ∨
      ((s.create role point).coroutines u).point = .waiting) :
      (s.create role point).coroutines u = s.coroutines u := by
    rw [hholds, hwaits] at hu
    exact hother (by rcases hu with (hp | hp) | hp <;> simp [hp])
  have hstops {u : ℕ} (hu : ((s.create role point).coroutines u).job.Stops) :
      (s.create role point).coroutines u = s.coroutines u := by
    by_cases hne : u = s.next
    · rw [hcreate, if_pos hne] at hu
      rcases hu with hu | hu <;> cases hu
    · rw [hcreate, if_neg hne]
  constructor
  · exact h.lock.congr hholds hwaits
  · intro u hu
    have hle : s.next + 1 ≤ u := hu
    rw [hcreate, if_neg (by omega)]
    exact h.fresh u (by omega)
  · intro u hu
    have hlt := h.idle u hu
    show u < s.next + 1
    omega
  · intro u hu
    have hsame := hstops hu
    rw [hsame] at hu ⊢
    exact h.stops u hu
  · intro u hu
    have hsame := hstops hu
    rw [hsame] at hu ⊢
    exact h.roles u hu
  · intro u hcancelled hu
    have hsame := hstops hu
    rw [hsame] at hu hcancelled
    exact h.spared u hcancelled hu
  · intro u hu
    have hsame := hstops hu
    rw [hsame] at hu
    exact h.quiet u hu
  · refine h.order.imp_of_mem fun {u v} hu hv huv => ?_
    have hpu := (h.lock.waiters u).1 hu
    have hpv := (h.lock.waiters v).1 hv
    rw [hother (by simp [hpu]), hother (by simp [hpv])]
    exact huv
  · rintro u ⟨hrole, hpending⟩
    have hsame : (s.create role point).coroutines u = s.coroutines u := by
      refine hlive ?_
      rcases hpending with hp | hp
      · exact .inr hp
      · exact .inl (.inl hp)
    rw [hsame] at hrole hpending
    refine ⟨(h.ahead u ⟨hrole, hpending⟩).1, fun v hv hheld => ?_⟩
    have hsame' := hlive (.inl hheld)
    rw [hsame'] at hv hheld
    exact (h.ahead u ⟨hrole, hpending⟩).2 v hv hheld
  · exact h.tasks
  · intro u x hu hpending
    have hsame := hlive hpending
    rw [hsame] at hu hpending
    exact h.ensuring u x hu hpending
  · exact h.safe

/-- Another idle stop is referred to. -/
theorem Invariant.setIdle (h : s.Invariant) {idle : Option ℕ}
    (hidle : ∀ t, idle = some t → t < s.next) :
    ({ s with idleStopTask := idle } : FileService Config).Invariant where
  __ := h
  idle := hidle

/-- `_cancel_idle_stop` while no stop of it is under way. -/
theorem Invariant.cancelIdleStop (h : s.Invariant) (hspared : ¬s.IdleStopUnderWay) :
    s.cancelIdleStop.Invariant := by
  unfold FileService.cancelIdleStop
  cases hidle : s.idleStopTask with
  | none => exact h
  | some t =>
    have hnot : ¬(s.coroutines t).job.Stops := fun hjob => hspared ⟨t, hidle, hjob⟩
    have hclear : ({ s with idleStopTask := none } : FileService Config).Invariant :=
      h.setIdle (by simp)
    dsimp only
    split_ifs
    · exact hclear
    · refine hclear.update (l := s.lock) (c := { s.coroutines t with cancelled := true })
        (h.idle t hidle) rfl ?_ h.order (fun hjob => absurd hjob hnot) .inl (fun _ hc => .inl hc)
        fun x hx hlive => h.ensuring t x hx hlive
      refine h.lock.congr (fun u => ?_) fun u => ?_
      · by_cases hu : u = t <;> simp [hu, Coroutine.Holds]
      · by_cases hu : u = t <;> simp [hu]

theorem Invariant.scheduleIdleStop (h : s.Invariant) : s.scheduleIdleStop.Invariant := by
  unfold FileService.scheduleIdleStop
  split_ifs
  · exact h
  · exact h
  · refine (h.create .idleStop (.inr rfl)).setIdle fun t ht => ?_
    cases ht
    exact Nat.lt_succ_self s.next

/-! ## Transfers -/

/-- A transfer has changed. -/
theorem Invariant.setStage (h : s.Invariant) {stage : Stage}
    (hserved : stage.served = true → (s.stages x).served = true ∨
      (∀ u, ¬(s.coroutines u).job.Stops) ∧ ∀ u, ¬(s.coroutines u).StopPending)
    (htask : stage ≠ .absent → x ∈ s.tasks)
    (hensuring : ∀ u, (s.coroutines u).role = .ensureService (some x) →
      (s.coroutines u).Holds ∨ (s.coroutines u).point = .waiting →
      ∃ served, stage = .ensuring u served) : (s.setStage x stage).Invariant := by
  have hstages (y : ℕ) : (s.setStage x stage).stages y = if y = x then stage else s.stages y := by
    simp [FileService.setStage, Function.update_apply]
  -- Where no transfer had a configuration, and a stop is under way or to come, none has one now.
  have hquiet (hall : ∀ y, (s.stages y).served = false)
      (hsome : (∃ u, (s.coroutines u).job.Stops) ∨ ∃ u, (s.coroutines u).StopPending) (y : ℕ) :
      ((s.setStage x stage).stages y).served = false := by
    rw [hstages]
    split_ifs with hy
    · by_contra hne
      rcases hserved (by simpa using hne) with hbefore | ⟨hjobs, hpending⟩
      · rw [hall x] at hbefore
        cases hbefore
      · rcases hsome with ⟨u, hu⟩ | ⟨u, hu⟩
        · exact hjobs u hu
        · exact hpending u hu
    · exact hall y
  constructor
  · exact h.lock
  · exact h.fresh
  · exact h.idle
  · exact h.stops
  · exact h.roles
  · exact h.spared
  · intro u hu
    exact hquiet (h.quiet u hu) (.inl ⟨u, hu⟩)
  · exact h.order
  · intro u hu
    exact ⟨hquiet (h.ahead u hu).1 (.inr ⟨u, hu⟩), (h.ahead u hu).2⟩
  · intro y hy
    rw [hstages] at hy
    split_ifs at hy with heq
    · exact heq ▸ htask hy
    · exact h.tasks y hy
  · intro u y hu hlive
    rw [hstages]
    split_ifs with hy
    · exact hensuring u (hy ▸ hu) hlive
    · exact h.ensuring u y hu hlive
  · exact h.safe

/-- `_ensure_service` of a transfer returns or raises. -/
theorem Invariant.returned (h : s.Invariant) {transfer : Option ℕ} {config : Option Config}
    (hdone : ¬((s.coroutines t).Holds ∨ (s.coroutines t).point = .waiting))
    (hstage : ∀ x, transfer = some x → ∃ served, s.stages x = .ensuring t served)
    (hquiet : config.isSome = true → transfer.isSome = true →
      (∀ u, ¬(s.coroutines u).job.Stops) ∧ ∀ u, ¬(s.coroutines u).StopPending) :
    (s.returned transfer config).Invariant := by
  unfold FileService.returned
  cases transfer with
  | none => exact h
  | some x =>
    obtain ⟨served, hstage⟩ := hstage x rfl
    refine h.setStage ?_ (fun _ => h.tasks x (by simp [hstage])) ?_
    · intro hserved
      have hor : (s.stages x).served = true ∨ config.isSome = true := by
        simpa [Stage.served] using hserved
      exact hor.imp_right fun hconfig => hquiet hconfig rfl
    · intro u hu hlive
      obtain ⟨served', hstage'⟩ := h.ensuring u x hu hlive
      rw [hstage] at hstage'
      cases hstage'
      exact absurd hlive hdone

/-- A coroutine gives the lock back and returns. -/
theorem Invariant.leave_finish (h : s.Invariant) (hheld : (s.coroutines t).Holds)
    (hjob : ¬(s.coroutines t).job.Stops) :
    ((s.release.move t .done).finish t).Invariant := by
  have hleft := h.leave hheld hjob
  have hself : (s.release.move t .done).coroutines t =
      { s.coroutines t with point := .done } := by simp [release]
  have hother {u : ℕ} (hu : u ≠ t) : (s.release.move t .done).coroutines u = s.coroutines u := by
    simp [hu, release]
  unfold finish
  cases hrole : ((s.release.move t .done).coroutines t).role with
  | idleStop => exact hleft
  | stopService => exact hleft
  | startService => exact hleft.scheduleIdleStop
  | ensureService transfer =>
    rw [hself] at hrole
    refine hleft.returned (t := t) (by simp [Coroutine.Holds]) ?_ ?_
    · intro x hx
      exact h.ensuring t x (hx ▸ hrole) (.inl hheld)
    · -- It had the lock: no stop is under way, and none is ahead of it.
      intro _ htransfer
      obtain ⟨x, rfl⟩ := Option.isSome_iff_exists.1 htransfer
      refine ⟨fun u hu => ?_, fun u hu => ?_⟩
      · by_cases hne : u = t
        · rw [hne, hself] at hu
          exact hjob hu
        · rw [hother hne] at hu
          exact h.not_stops hheld hjob u hu
      · by_cases hne : u = t
        · rw [hne, hself] at hu
          rcases hu.2 with hp | hp <;> cases hp
        · rw [hother hne] at hu
          exact (h.ahead u hu).2 t ⟨x, hrole⟩ hheld

/-! ## The lock -/

/-- A coroutine that has got the lock. -/
theorem Invariant.enter (h : s.Invariant) (hinside : (s.coroutines t).point = .inside)
    (hcancelled : (s.coroutines t).cancelled = false) (hjob : ¬(s.coroutines t).job.Stops) :
    (s.enter t).Invariant := by
  have hheld : (s.coroutines t).Holds := .inl hinside
  unfold FileService.enter
  cases hrole : (s.coroutines t).role with
  | idleStop =>
    dsimp only
    split_ifs with hbusy
    · exact h.leave hheld hjob
    · have htasks : s.tasks = [] := by
        by_contra hne
        exact hbusy (.inl hne)
      exact h.hand hinside .stopping fun _ => ⟨hcancelled, .inl hrole, h.not_served htasks⟩
  | stopService =>
    dsimp only
    split_ifs
    · exact h.hand hinside .stopping fun _ =>
        ⟨hcancelled, .inr hrole, (h.ahead t ⟨hrole, .inr hinside⟩).1⟩
    · exact h.leave hheld hjob
  | startService =>
    dsimp only
    split_ifs
    · exact h.leave_finish hheld hjob
    · exact h.hand hinside .starting fun hstops => by rcases hstops with hj | hj <;> cases hj
  | ensureService transfer =>
    dsimp only
    split_ifs
    · exact h.leave_finish hheld hjob
    · exact h.hand hinside .starting fun hstops => by rcases hstops with hj | hj <;> cases hj

/-- While the lock is free, no coroutine has it. -/
theorem Invariant.not_holds (h : s.Invariant) (hfree : s.lock.locked = false) (u : ℕ) :
    ¬(s.coroutines u).Holds := by
  intro hu
  have hlocked := h.lock.locked.mpr ⟨u, hu⟩
  rw [hfree] at hlocked
  cases hlocked

/-- The first of the queue gets the lock. -/
theorem Invariant.resumed (h : s.Invariant) (hwaits : (s.coroutines t).point = .waiting)
    (hresumes : s.lock.Resumes t) :
    (({ s with lock := s.lock.resume } : FileService Config).move t .inside).Invariant := by
  have hfree : s.lock.locked = false := (h.lock.woken.mp hresumes.1).1
  have hnone := h.not_holds hfree
  obtain ⟨rest, hrest⟩ : ∃ rest, s.lock.waiters = t :: rest :=
    List.head?_eq_some_iff.mp hresumes.2
  refine h.update (c := { s.coroutines t with point := .inside })
    (h.lt_next (by simp [hwaits])) rfl ?_ (h.order.sublist (List.tail_sublist _)) ?_
    (fun hc => .inl ⟨hc.1, .inl hwaits⟩) ?_ fun x hx _ => h.ensuring t x hx (.inr hwaits)
  · refine (h.lock.resume hresumes).congr (fun u => ?_) fun u => ?_
    · by_cases hu : u = t <;> simp [hu, Coroutine.Holds]
    · by_cases hu : u = t <;> simp [hu]
  · intro hjob
    have hhanded := h.stops t hjob
    rw [hwaits] at hhanded
    cases hhanded
  · rintro htransfer -
    refine .inr fun u hu => ?_
    rcases hu.2 with hp | hp
    · -- Behind a transfer there is no `stop_service` in the queue.
      have hmem := (h.lock.waiters u).mpr hp
      have horder := h.order
      rw [hrest] at hmem horder
      rcases List.mem_cons.mp hmem with rfl | hmem
      · obtain ⟨x, hx⟩ := htransfer
        have hrole : (s.coroutines u).role = .ensureService (some x) := hx
        rw [hu.1] at hrole
        cases hrole
      · exact (List.pairwise_cons.mp horder).1 u hmem htransfer hu.1
    · exact hnone u (.inl hp)

/-- A coroutine has gone for the lock. -/
theorem Invariant.enterLock (h : s.Invariant) (hcreated : t < s.next)
    (hpoint : (s.coroutines t).point = .absent ∨ (s.coroutines t).point = .sleeping)
    (hcancelled : (s.coroutines t).cancelled = false)
    (hensuring : ∀ x, (s.coroutines t).role = .ensureService (some x) →
      ∃ served, s.stages x = .ensuring t served)
    (hstop : (s.coroutines t).role = .stopService → s.tasks = []) : (s.enterLock t).Invariant := by
  have hjob : ¬(s.coroutines t).job.Stops := by
    intro hjob
    have hhanded := h.stops t hjob
    rcases hpoint with hp | hp <;> rw [hp] at hhanded <;> cases hhanded
  have hwaits : (s.coroutines t).point ≠ .waiting := by
    rcases hpoint with hp | hp <;> simp [hp]
  have henter : s.enterLock t = if (s.lock.acquire t).2 = true then
      (({ s with lock := (s.lock.acquire t).1 } : FileService Config).move t .inside).enter t
    else ({ s with lock := (s.lock.acquire t).1 } : FileService Config).move t .waiting := rfl
  cases htaken : (s.lock.acquire t).2 with
  | true =>
    have hfree : s.lock.locked = false ∧ s.lock.waiters = [] := by
      by_contra hne
      simp [AsyncLock.acquire, if_neg hne] at htaken
    have hsame : (s.lock.acquire t).1.waiters = [] := by
      simp [AsyncLock.acquire, hfree]
    have hinside : (({ s with lock := (s.lock.acquire t).1 } : FileService Config).move t
        .inside).Invariant := by
      refine h.update (c := { s.coroutines t with point := .inside }) hcreated rfl ?_ ?_
        (fun hj => absurd hj hjob) (fun hc => .inr (hstop hc.1)) ?_ fun x hx _ => hensuring x hx
      · refine (h.lock.acquire_taken htaken).congr (fun u => ?_) fun u => ?_
        · by_cases hu : u = t <;> simp [hu, Coroutine.Holds]
        · by_cases hu : u = t
          · simp [hu, hwaits]
          · simp [hu]
      · rw [hsame]
        exact List.Pairwise.nil
      · intro _ _
        refine .inr fun u hu => ?_
        rcases hu.2 with hp | hp
        · have hmem := (h.lock.waiters u).mpr hp
          rw [hfree.2] at hmem
          cases hmem
        · exact h.not_holds hfree.1 u (.inl hp)
    rw [henter, if_pos htaken]
    exact hinside.enter (t := t) (by simp) (by simpa using hcancelled) (by simpa using hjob)
  | false =>
    have hbusy : ¬(s.lock.locked = false ∧ s.lock.waiters = []) := by
      intro hfree
      simp [AsyncLock.acquire, hfree] at htaken
    have hqueue : (s.lock.acquire t).1.waiters = s.lock.waiters ++ [t] := by
      simp [AsyncLock.acquire, if_neg hbusy]
    rw [henter, if_neg (by simp [htaken])]
    refine h.update (c := { s.coroutines t with point := .waiting }) hcreated rfl ?_ ?_
      (fun hj => absurd hj hjob) (fun hc => .inr (hstop hc.1)) ?_ fun x hx _ => hensuring x hx
    · refine (h.lock.acquire_queued hwaits htaken).congr (fun u => ?_) fun u => ?_
      · have hnot : ¬(s.coroutines t).Holds := by
          rintro (hp' | hp') <;> rcases hpoint with hp | hp <;> simp [hp] at hp'
        by_cases hu : u = t
        · simpa [hu, Coroutine.Holds] using hnot
        · simp [hu]
      · by_cases hu : u = t <;> simp [hu]
    · rw [hqueue, List.pairwise_append]
      refine ⟨h.order, by simp, fun u hu v hv htransfer hrole => ?_⟩
      -- It goes behind the others, and a `stop_service` only while there are no transfers.
      rw [List.mem_singleton.mp hv] at hrole
      exact h.not_forTransfer (hstop hrole) (.inr ((h.lock.waiters u).mp hu)) htransfer
    · rintro - (hp | hp) <;> cases hp

/-! ## Steps -/

/-- `_cancel_idle_stop` leaves the transfers and the numbers as they are. -/
theorem cancelIdleStop_frame (s : FileService Config) : s.cancelIdleStop.stages = s.stages ∧
    s.cancelIdleStop.tasks = s.tasks ∧ s.cancelIdleStop.next = s.next := by
  unfold FileService.cancelIdleStop
  cases s.idleStopTask with
  | none => exact ⟨rfl, rfl, rfl⟩
  | some t =>
    dsimp only
    split_ifs <;> exact ⟨rfl, rfl, rfl⟩

/-- A coroutine that has just been created. -/
theorem created_eq (s : FileService Config) (role : Role) :
    (s.create role .absent).coroutines s.next = { role := role } := by
  simp [FileService.create]

/-- A coroutine that no transfer awaits is called. -/
theorem Invariant.calls (h : s.Invariant) {role : Role}
    (hrole : ∀ x, role ≠ .ensureService (some x))
    (hstop : role = .stopService → s.tasks = []) :
    ((s.create role .absent).enterLock s.next).Invariant := by
  have hself := created_eq s role
  refine (h.create role (.inl rfl)).enterLock (Nat.lt_succ_self s.next) (by simp [hself])
    (by simp [hself]) ?_ fun hr => hstop (by simpa [hself] using hr)
  intro x hx
  rw [hself] at hx
  exact absurd hx (hrole x)

/-- A transfer calls `_ensure_service`. -/
theorem Invariant.callsFor (h : s.Invariant) {served : Bool}
    (hstage : s.stages x = .running served) :
    (((s.create (.ensureService (some x)) .absent).setStage x (.ensuring s.next served)).enterLock
      s.next).Invariant := by
  have hself := created_eq s (.ensureService (some x))
  have hcreated := h.create (.ensureService (some x)) (.inl rfl)
  have hmarked : ((s.create (.ensureService (some x)) .absent).setStage x
      (.ensuring s.next served)).Invariant := by
    refine hcreated.setStage ?_ (fun _ => h.tasks x (by simp [hstage])) fun u hu hlive => ?_
    · intro hserved
      have hbefore : (s.stages x).served = true := by
        rw [hstage]
        exact hserved
      exact .inl hbefore
    · obtain ⟨served', hstage'⟩ := hcreated.ensuring u x hu hlive
      have hrunning : (s.create (.ensureService (some x)) .absent).stages x = .running served :=
        hstage
      rw [hrunning] at hstage'
      cases hstage'
  refine hmarked.enterLock (Nat.lt_succ_self s.next) (.inl ?_) ?_ ?_ ?_
  · exact congrArg Coroutine.point hself
  · exact congrArg Coroutine.cancelled hself
  · intro y hy
    have hx : Role.ensureService (some x) = .ensureService (some y) :=
      (congrArg Coroutine.role hself).symm.trans hy
    cases hx
    exact ⟨served, by simp [FileService.setStage]⟩
  · intro hrole
    have hx : Role.ensureService (some x) = .stopService :=
      (congrArg Coroutine.role hself).symm.trans hrole
    cases hx

theorem Invariant.call (h : s.Invariant) (role : Role) (hspares : s.Spares (.call role)) :
    (s.call role).Invariant := by
  obtain ⟨hstages, htasks, hnext⟩ := cancelIdleStop_frame s
  have hclear (hcancels : s.CancelsIdleStop (.call role)) : s.cancelIdleStop.Invariant :=
    h.cancelIdleStop fun hunder => hspares.1 ⟨hcancels, hunder⟩
  unfold FileService.call
  rw [← hnext]
  cases role with
  | idleStop => exact h
  | startService => exact (hclear trivial).calls (by simp) (by simp)
  | stopService =>
    dsimp only
    split_ifs with hnone
    · exact (hclear hnone).calls (by simp) fun _ => by rw [htasks, hnone]
    · exact h
  | ensureService transfer =>
    cases transfer with
    | none => exact (hclear trivial).calls (by simp) (by simp)
    | some x =>
      cases hstage : s.stages x with
      | running served =>
        have hcancels : s.CancelsIdleStop (.call (.ensureService (some x))) := by
          simp [CancelsIdleStop, hstage, Stage.served]
        have hbefore : s.cancelIdleStop.stages x = .running served := by rw [hstages, hstage]
        simpa only [hstage] using (hclear hcancels).callsFor hbefore
      | absent => simpa only [hstage] using h
      | ensuring t served => simpa only [hstage] using h
      | ended => simpa only [hstage] using h

/-- The thread of a coroutine has ended. -/
theorem Invariant.wake (h : s.Invariant) (hhanded : (s.coroutines t).point = .handed)
    (hjob : ¬(s.coroutines t).job.Stops) (succeeded : Bool) : (s.wake t succeeded).Invariant := by
  have hheld : (s.coroutines t).Holds := .inr hhanded
  have hleft := h.leave hheld hjob
  unfold FileService.wake
  cases hrole : (s.coroutines t).role with
  | idleStop => exact hleft.setIdle (by simp)
  | stopService => exact hleft
  | startService =>
    dsimp only
    split_ifs
    · exact h.leave_finish hheld hjob
    · exact hleft
  | ensureService transfer =>
    dsimp only
    split_ifs
    · exact h.leave_finish hheld hjob
    · exact hleft.returned (t := t) (by simp [Coroutine.Holds])
        (fun x hx => h.ensuring t x (hx ▸ hrole) (.inl hheld)) (by simp)

/-- A coroutine that does not have the lock ends. -/
theorem Invariant.drop (h : s.Invariant) (hcreated : t < s.next)
    (hheld : ¬(s.coroutines t).Holds) (hjob : ¬(s.coroutines t).job.Stops) :
    (({ s with lock := s.lock.cancel t } : FileService Config).move t .done).Invariant := by
  refine h.update (c := { s.coroutines t with point := .done }) hcreated rfl ?_
    (h.order.sublist List.erase_sublist) (fun hj => absurd hj hjob) ?_ ?_ ?_
  · refine (h.lock.cancel (t := t)).congr (fun u => ?_) fun u => ?_
    · by_cases hu : u = t
      · simpa [hu, Coroutine.Holds] using hheld
      · simp [hu]
    · by_cases hu : u = t <;> simp [hu]
  · rintro ⟨-, hp | hp⟩ <;> cases hp
  · rintro - (hp | hp) <;> cases hp
  · rintro x - ((hp | hp) | hp) <;> cases hp

/-- A coroutine without a stop under way is cancelled. -/
theorem Invariant.raiseCancelled (h : s.Invariant) (hjob : ¬(s.coroutines t).job.Stops) :
    (s.raiseCancelled t).Invariant := by
  unfold FileService.raiseCancelled
  cases hpoint : (s.coroutines t).point with
  | absent => cases (s.coroutines t).role <;> exact h
  | inside => cases (s.coroutines t).role <;> exact h
  | done => cases (s.coroutines t).role <;> exact h
  | sleeping =>
    have hleft : (s.move t .done).Invariant := by
      refine h.update (l := s.lock) (c := { s.coroutines t with point := .done })
        (h.lt_next (by simp [hpoint])) rfl ?_ h.order (fun hj => absurd hj hjob) ?_ ?_ ?_
      · refine h.lock.congr (fun u => ?_) fun u => ?_
        · by_cases hu : u = t <;> simp [hu, Coroutine.Holds, hpoint]
        · by_cases hu : u = t <;> simp [hu, hpoint]
      · rintro ⟨-, hp | hp⟩ <;> cases hp
      · rintro - (hp | hp) <;> cases hp
      · rintro x - ((hp | hp) | hp) <;> cases hp
    cases (s.coroutines t).role <;> exact hleft
  | waiting =>
    have hleft := h.drop (h.lt_next (by simp [hpoint])) (by simp [Coroutine.Holds, hpoint]) hjob
    cases hrole : (s.coroutines t).role with
    | ensureService transfer =>
      exact hleft.returned (t := t) (by simp [Coroutine.Holds])
        (fun x hx => h.ensuring t x (hx ▸ hrole) (.inr hpoint)) (by simp)
    | _ => exact hleft
  | handed =>
    have hheld : (s.coroutines t).Holds := .inr hpoint
    have hleft := h.leave hheld hjob
    cases hrole : (s.coroutines t).role with
    | ensureService transfer =>
      exact hleft.returned (t := t) (by simp [Coroutine.Holds])
        (fun x hx => h.ensuring t x (hx ▸ hrole) (.inl hheld)) (by simp)
    | _ => exact hleft

/-- The controller is not what the invariant is about. -/
theorem Invariant.setController (h : s.Invariant) (thread : Option ℕ) (alive : ℕ → Bool)
    (config : Option Config) (controllerLocked : Bool) :
    ({ s with
      thread := thread, alive := alive, config := config,
      controllerLocked := controllerLocked } : FileService Config).Invariant where
  __ := h

/-- A stop takes effect under no transfer. -/
theorem Invariant.hit (h : s.Invariant) (hjob : (s.coroutines t).job.Stops) :
    s.hit.Invariant where
  __ := h
  safe := by
    have hnone : (s.tasks.filter fun x => (s.stages x).served) = [] := by
      rw [List.filter_eq_nil_iff]
      intro x _
      simp [h.quiet t hjob x]
    show s.stoppedUnder ++ s.tasks.filter (fun x => (s.stages x).served) = []
    rw [h.safe, hnone]
    rfl

/-- Every step that cancels no coroutine with a stop under way keeps the invariant. -/
theorem Invariant.step (h : s.Invariant) (a : Action Config) (hspares : s.Spares a) :
    (s.step a).Invariant := by
  cases a with
  | enqueue => exact h.cancelIdleStop fun hunder => hspares.1 ⟨trivial, hunder⟩
  | call role => exact h.call role hspares
  | scheduleIdleStop => exact h.scheduleIdleStop
  | begin x =>
    simp only [FileService.step]
    split_ifs with hstage
    · have hmore : ({ s with tasks := x :: s.tasks } : FileService Config).Invariant :=
        { h with
          ahead := fun u hu => h.ahead u hu
          tasks := fun y hy => List.mem_cons_of_mem x (h.tasks y hy) }
      refine hmore.setStage (by simp [Stage.served]) (fun _ => List.mem_cons_self) ?_
      intro u hu hlive
      obtain ⟨served, hensuring⟩ := h.ensuring u x hu hlive
      rw [hstage] at hensuring
      cases hensuring
    · exact h
  | timer t =>
    simp only [FileService.step]
    split_ifs with hsleeping
    · obtain ⟨hrole, hpoint, hcancelled⟩ := hsleeping
      exact h.enterLock (h.lt_next (by simp [hpoint])) (.inr hpoint) hcancelled
        (by simp [hrole]) (by simp [hrole])
    · exact h
  | resume t =>
    simp only [FileService.step]
    split_ifs with hwaits
    · obtain ⟨hpoint, hresumes, hcancelled⟩ := hwaits
      have hjob : ¬(s.coroutines t).job.Stops := by
        intro hjob
        have hhanded := h.stops t hjob
        rw [hpoint] at hhanded
        cases hhanded
      exact (h.resumed hpoint hresumes).enter (t := t) (by simp) (by simpa using hcancelled)
        (by simpa using hjob)
    · exact h
  | wake t =>
    simp only [FileService.step]
    split
    next succeeded hpoint _ hended =>
      refine h.wake hpoint (fun hjob => ?_) succeeded
      rcases hjob with hj | hj <;> rw [hj] at hended <;> cases hended
    next => exact h
  | cancelled t =>
    simp only [FileService.step]
    split_ifs with hcancelled
    · exact h.raiseCancelled (h.spared t hcancelled)
    · exact h
  | abort t =>
    simp only [FileService.step]
    split_ifs with hidle
    · exact h
    · refine h.raiseCancelled fun hjob => ?_
      rcases h.roles t hjob with hrole | hrole
      · exact hidle hrole
      · exact hspares.2 ⟨hrole, hjob⟩
  | launch t server =>
    simp only [FileService.step]
    split_ifs with hstarting
    · have hwork : (s.work t .launched).Invariant := h.work (by simp [hstarting.1])
        fun hstops => by rcases hstops with hj | hj <;> cases hj
      exact hwork.setController _ _ _ _
    · exact h
  | started t config =>
    simp only [FileService.step]
    split_ifs with hlaunched
    · have hwork : (s.work t (.started true)).Invariant := h.work (by simp [hlaunched])
        fun hstops => by rcases hstops with hj | hj <;> cases hj
      exact hwork.setController _ _ _ _
    · exact h
  | failed t =>
    have hwork (hjob : (s.coroutines t).job ≠ .absent) : (s.work t (.started false)).Invariant :=
      h.work hjob fun hstops => by rcases hstops with hj | hj <;> cases hj
    simp only [FileService.step]
    split_ifs with hstarting hlaunched
    · exact hwork (by simp [hstarting.1])
    · exact (hwork (by simp [hlaunched])).setController _ _ _ _
    · exact h
  | close t =>
    simp only [FileService.step]
    split_ifs with hstopping
    · have hstops : (s.coroutines t).job.Stops := .inl hstopping.1
      have hwork : (s.hit.work t .closing).Invariant := (h.hit hstops).work
        (by simp [FileService.hit, hstopping.1]) fun _ => hstops
      exact hwork.setController _ _ _ _
    · exact h
  | clear t =>
    simp only [FileService.step]
    split_ifs with hclosing
    · have hstops : (s.coroutines t).job.Stops := .inr hclosing
      have hwork : (s.hit.work t .joining).Invariant := (h.hit hstops).work
        (by simp [FileService.hit, hclosing]) fun _ => hstops
      exact hwork.setController _ _ _ _
    · exact h
  | joined t =>
    simp only [FileService.step]
    split_ifs with hjoining
    · have hwork : (s.work t .stopped).Invariant := h.work (by simp [hjoining])
        fun hstops => by rcases hstops with hj | hj <;> cases hj
      exact hwork.setController _ _ _ _
    · exact h
  | dies server => exact h.setController _ _ _ _
  | ends x =>
    simp only [FileService.step]
    cases hstage : s.stages x with
    | running served =>
      refine h.setStage (by simp [Stage.served]) (fun _ => h.tasks x (by simp [hstage])) ?_
      intro u hu hlive
      obtain ⟨served', hensuring⟩ := h.ensuring u x hu hlive
      rw [hstage] at hensuring
      cases hensuring
    | _ => exact h
  | pops x =>
    simp only [FileService.step]
    split_ifs with hstage
    · have hgone : (s.setStage x .absent).Invariant := by
        refine h.setStage (by simp [Stage.served]) (fun hne => absurd rfl hne) ?_
        intro u hu hlive
        obtain ⟨served, hensuring⟩ := h.ensuring u x hu hlive
        rw [hstage] at hensuring
        cases hensuring
      refine { hgone with ahead := fun u hu => hgone.ahead u hu, tasks := fun y hy => ?_ }
      have hne : y ≠ x := by
        rintro rfl
        exact hy (by simp [FileService.setStage])
      exact List.mem_filter.mpr ⟨hgone.tasks y hy, by simpa using hne⟩
    · exact h

/-! ## Runs -/

/-- A service that has not been used. -/
theorem invariant_initial : ({} : FileService Config).Invariant where
  lock := AsyncLock.guards_new (by simp [Coroutine.Holds]) (by simp)
  fresh _ _ := rfl
  idle t ht := by cases ht
  stops t ht := by rcases ht with ht | ht <;> cases ht
  roles t ht := by rcases ht with ht | ht <;> cases ht
  spared t ht := by cases ht
  quiet _ _ _ := rfl
  order := List.Pairwise.nil
  ahead u hu := by rcases hu.2 with hp | hp <;> cases hp
  tasks x hx := absurd rfl hx
  ensuring t x hrole := by cases hrole
  safe := rfl

end FileService

end DeviceShell.Transfers
