import DeviceShell.Activity.DeviceForEach

/-!
# The scheduling of a device loop

What holds of the workers of `device.for_each` between any two of their sections, whatever the order
in which the event loop resumes them and however the bodies end.

`Invariant` is in four parts: who holds and who waits for the lock of a device (`Locked`), which
index is with which worker and which have a row (`Indexed`), what a failure stops (`Halted`) and
which leases are out (`Leased`). The workers only move in seven ways; each keeps the four parts, and a
section is a sequence of them.
-/

namespace DeviceShell.Activity.DeviceForEach

open Framework

namespace Phase

/-- The device that a worker has taken and not finished. -/
def index? : Phase → Option ℕ
  | waiting index => some index
  | holding index => some index
  | inBody index _ => some index
  | _ => none

/-- The device whose lock a worker holds. -/
def held? : Phase → Option ℕ
  | holding index => some index
  | inBody index _ => some index
  | _ => none

/-- How much a worker at a point, with the device it has taken, can still cost the event loop. -/
def weight : Phase → ℕ
  | created => 1
  | waiting _ => 2
  | holding _ => 1
  | inBody _ _ => 1
  | _ => 0

/-- A point at which a worker is suspended, or has ended. -/
def Settled : Phase → Prop
  | running => False
  | holding _ => False
  | _ => True

/-- The device for whose lock a worker waits. -/
def awaited? : Phase → Option ℕ
  | waiting index => some index
  | _ => none

theorem index?_of_held? {phase : Phase} {i : ℕ} (h : phase.held? = some i) :
    phase.index? = some i := by
  cases phase <;> simp_all [Phase.held?, Phase.index?]

theorem index?_of_awaited? {phase : Phase} {i : ℕ} (h : phase.awaited? = some i) :
    phase.index? = some i := by
  cases phase <;> simp_all [Phase.awaited?, Phase.index?]

end Phase

namespace Workers

/-- The devices for which `run_device` was called, in this order. -/
def started (s : Workers) : List ℕ :=
  s.history.filterMap fun
    | .started index => some index
    | _ => none

@[simp] theorem phase_goto (s : Workers) (n m : ℕ) (phase : Phase) :
    (s.goto n phase).phase m = if m = n then phase else s.phase m := by
  simp [goto, Function.update_apply]

theorem lock_setLock (s : Workers) (key key' : String) (lock : AsyncLock) :
    (s.setLock key lock).lock key' = if key' = key then lock else s.lock key' := by
  unfold Workers.lock setLock
  rw [Dict.get?_set]
  split <;> rfl

@[simp] theorem phase_setLock (s : Workers) (key : String) (lock : AsyncLock) :
    (s.setLock key lock).phase = s.phase := rfl

@[simp] theorem phase_log (s : Workers) (event : Event) : (s.log event).phase = s.phase := rfl

/-- If nobody has raised after a worker went on, nobody had before. -/
theorem none_raised {s : Workers} {n : ℕ} {phase : Phase} (hgone : s.phase n ≠ .ended true)
    (h : ∀ m, (s.goto n phase).phase m ≠ .ended true) (m : ℕ) : s.phase m ≠ .ended true := by
  by_cases hm : m = n
  · rw [hm]
    exact hgone
  · have hm' := h m
    rwa [phase_goto, if_neg hm] at hm'

/-- A worker runs the body for a device. -/
def InBody (s : Workers) (n index : ℕ) : Prop := ∃ lease, s.phase n = .inBody index lease

end Workers

namespace Plan

variable (p : Plan)

/-- A worker stands at a device with the lock of a key, in one of two ways: `Phase.held?` or
`Phase.awaited?`. -/
def StandsAt (view : Phase → Option ℕ) (s : Workers) (key : String) (n : ℕ) : Prop :=
  ∃ index, view (s.phase n) = some index ∧ p.lockKey index = key

/-- Every lock is with the worker that stands at one of its devices. -/
def Locked (s : Workers) : Prop :=
  ∀ key, (s.lock key).Guards (p.StandsAt Phase.held? s key) (p.StandsAt Phase.awaited? s key)

/-- Where the devices are. -/
structure Indexed (s : Workers) : Prop where
  next : s.nextIndex ≤ p.devices.length
  taken : ∀ n index, (s.phase n).index? = some index → index < s.nextIndex
  distinct : ∀ m n index, (s.phase m).index? = some index → (s.phase n).index? = some index → m = n
  /-- A device is started once its worker runs the body, and not before. -/
  inBody : ∀ n index, (s.phase n).index? = some index → (index ∈ s.started ↔ s.InBody n index)
  started : ∀ index ∈ s.started, index < s.nextIndex
  once : s.started.Nodup
  rows : ∀ index ∈ s.rows.keys, index ∈ s.started
  nodup : s.rows.keys.Nodup
  /-- Unless a worker has given up, every device that was taken has a row or is with a worker. -/
  accounted : s.stopped = false → (∀ n, s.phase n ≠ .ended true) → ∀ index < s.nextIndex,
    index ∈ s.rows.keys ∨ ∃ n, (s.phase n).index? = some index
  exhausted : s.stopped = false → ∀ n, s.phase n = .ended false → s.nextIndex = p.devices.length

/-- What a failure stops. -/
structure Halted (s : Workers) : Prop where
  stopped : s.stopped = true → p.failureStrategy = "stop"
  failed : p.failureStrategy = "stop" → ∀ index, Event.recorded index true ∈ s.history →
    s.stopped = true
  before : p.failureStrategy = "stop" → ∀ before index after,
    s.history = before ++ .started index :: after → ∀ i, Event.recorded i true ∉ before

/-- Which leases are out. -/
def Leased (s : Workers) : Prop :=
  ∀ index lease, Event.acquired index lease ∈ s.history →
    Event.released index lease ∈ s.history ∨ ∃ n, s.phase n = .inBody index (some lease)

/-- What holds between two sections. -/
structure Invariant (s : Workers) : Prop where
  locked : p.Locked s
  indexed : p.Indexed s
  halted : p.Halted s
  leased : Leased s

variable {p} {s : Workers} {n index : ℕ}

/-! ## Locks -/

/-- Where a worker stands after it, or another one, went to another point. -/
theorem standsAt_goto {view : Phase → Option ℕ} {key : String} {phase : Phase} {m : ℕ} :
    p.StandsAt view (s.goto n phase) key m ↔
      (m = n ∧ ∃ i, view phase = some i ∧ p.lockKey i = key) ∨
        (m ≠ n ∧ p.StandsAt view s key m) := by
  unfold StandsAt
  rw [Workers.phase_goto]
  by_cases hm : m = n
  · simp [hm]
  · simp [hm]

/-- The worker at a device, or at none, goes to another point of the same device, or to none. -/
theorem Locked.update (h : p.Locked s) {lock : AsyncLock} {phase : Phase}
    (hold : ∀ i, (s.phase n).index? = some i → i = index)
    (hnew : ∀ i, phase.index? = some i → i = index)
    (hguards : lock.Guards
      (fun m => (m = n ∧ phase.held? = some index) ∨
        (m ≠ n ∧ p.StandsAt Phase.held? s (p.lockKey index) m))
      (fun m => (m = n ∧ phase.awaited? = some index) ∨
        (m ≠ n ∧ p.StandsAt Phase.awaited? s (p.lockKey index) m))) :
    p.Locked ((s.setLock (p.lockKey index) lock).goto n phase) := by
  have hown {view : Phase → Option ℕ} (hview : ∀ {ph i}, view ph = some i → ph.index? = some i) :
      (∃ i, view phase = some i ∧ p.lockKey i = p.lockKey index) ↔ view phase = some index := by
    constructor
    · rintro ⟨i, hi, -⟩
      rw [← hnew i (hview hi), hi]
    · exact fun hi => ⟨index, hi, rfl⟩
  -- The worker has nothing to do with another lock, before or after.
  have hother {view : Phase → Option ℕ} (hview : ∀ {ph i}, view ph = some i → ph.index? = some i)
      {key : String} (hkey : key ≠ p.lockKey index) (m : ℕ) :
      p.StandsAt view ((s.setLock (p.lockKey index) lock).goto n phase) key m ↔
        p.StandsAt view s key m := by
    rw [standsAt_goto]
    constructor
    · rintro (⟨-, i, hi, rfl⟩ | ⟨-, hm⟩)
      · exact absurd (by rw [hnew i (hview hi)]) hkey
      · exact hm
    · rintro ⟨i, hi, rfl⟩
      by_cases hm : m = n
      · rw [hm] at hi
        exact absurd (by rw [hold i (hview hi)]) hkey
      · exact .inr ⟨hm, i, hi, rfl⟩
  intro key
  show ((s.setLock (p.lockKey index) lock).lock key).Guards _ _
  rw [Workers.lock_setLock]
  by_cases hkey : key = p.lockKey index
  · rw [if_pos hkey, hkey]
    refine hguards.congr (fun m => ?_) fun m => ?_
    · rw [standsAt_goto, hown Phase.index?_of_held?]
      rfl
    · rw [standsAt_goto, hown Phase.index?_of_awaited?]
      rfl
  · rw [if_neg hkey]
    exact (h key).congr (hother Phase.index?_of_held? hkey) (hother Phase.index?_of_awaited? hkey)

/-- A worker that neither takes nor gives back a lock. -/
theorem Locked.goto (h : p.Locked s) {phase : Phase} (hheld : phase.held? = (s.phase n).held?)
    (hawaited : phase.awaited? = (s.phase n).awaited?) : p.Locked (s.goto n phase) := by
  have hsame {view : Phase → Option ℕ} (hview : view phase = view (s.phase n)) (key : String)
      (m : ℕ) : p.StandsAt view (s.goto n phase) key m ↔ p.StandsAt view s key m := by
    unfold StandsAt
    rw [Workers.phase_goto]
    by_cases hm : m = n
    · simp only [hm, if_true, hview]
    · simp only [hm, if_false]
  exact fun key => (h key).congr (hsame hheld key) (hsame hawaited key)

/-! ## Devices -/

/-- A worker goes to another point: it keeps its device, or gives it up where that is accounted
for. -/
theorem Indexed.goto (h : p.Indexed s) (phase : Phase) (hgone : s.phase n ≠ .ended true)
    (hindex : ∀ i, phase.index? = some i → (s.phase n).index? = some i)
    (hbody : ∀ i, phase.index? = some i → ((∃ lease, phase = .inBody i lease) ↔ s.InBody n i))
    (haccounted : ∀ i, (s.phase n).index? = some i → phase.index? = some i ∨ i ∈ s.rows.keys ∨
      phase = .ended true ∨ s.stopped = true)
    (hexhausted : phase = .ended false → s.stopped = false → s.nextIndex = p.devices.length) :
    p.Indexed (s.goto n phase) where
  next := h.next
  taken m i hi := by
    rw [Workers.phase_goto] at hi
    by_cases hm : m = n
    · rw [if_pos hm] at hi
      exact h.taken n i (hindex i hi)
    · rw [if_neg hm] at hi
      exact h.taken m i hi
  distinct m k i hm hk := by
    have hback : ∀ j, ((s.goto n phase).phase j).index? = some i →
        (s.phase j).index? = some i := by
      intro j hj
      rw [Workers.phase_goto] at hj
      by_cases hjn : j = n
      · rw [if_pos hjn] at hj
        rw [hjn]
        exact hindex i hj
      · rw [if_neg hjn] at hj
        exact hj
    exact h.distinct m k i (hback m hm) (hback k hk)
  inBody m i hi := by
    show i ∈ s.started ↔ _
    unfold Workers.InBody
    rw [Workers.phase_goto] at hi ⊢
    by_cases hm : m = n
    · rw [if_pos hm] at hi
      simp only [if_pos hm]
      rw [h.inBody n i (hindex i hi), ← hbody i hi]
    · rw [if_neg hm] at hi
      simp only [if_neg hm]
      exact h.inBody m i hi
  started := h.started
  once := h.once
  rows := h.rows
  nodup := h.nodup
  accounted hstopped hraised i hi := by
    have hnone := Workers.none_raised hgone hraised
    rcases h.accounted hstopped hnone i hi with hrow | ⟨m, hm⟩
    · exact .inl hrow
    by_cases hmn : m = n
    · rw [hmn] at hm
      have hlast := hraised n
      rw [Workers.phase_goto, if_pos rfl] at hlast
      have hstopped' : s.stopped = false := hstopped
      rcases haccounted i hm with hkept | hrow | hended | hhalted
      · exact .inr ⟨n, by rw [Workers.phase_goto, if_pos rfl]; exact hkept⟩
      · exact .inl hrow
      · exact absurd hended hlast
      · rw [hstopped'] at hhalted
        cases hhalted
    · exact .inr ⟨m, by rw [Workers.phase_goto, if_neg hmn]; exact hm⟩
  exhausted hstopped m hm := by
    rw [Workers.phase_goto] at hm
    by_cases hmn : m = n
    · rw [if_pos hmn] at hm
      exact hexhausted hm hstopped
    · rw [if_neg hmn] at hm
      exact h.exhausted hstopped m hm

/-- What does not concern the devices. -/
theorem Indexed.congr {s' : Workers} (h : p.Indexed s) (hnext : s'.nextIndex = s.nextIndex)
    (hstopped : s'.stopped = s.stopped) (hrows : s'.rows = s.rows) (hphase : s'.phase = s.phase)
    (hstarted : s'.started = s.started) : p.Indexed s' := by
  have hbody : ∀ n i, s'.InBody n i ↔ s.InBody n i := by
    intro n i
    unfold Workers.InBody
    rw [hphase]
  obtain ⟨hle, htaken, hdistinct, hin, hlt, honce, hrow, hnodup, haccounted, hexhausted⟩ := h
  constructor <;> simp only [hnext, hstopped, hrows, hphase, hstarted, hbody] <;> assumption

/-- A worker that is at no device takes the next one. -/
theorem Indexed.take (h : p.Indexed s) {phase : Phase} (hrunning : s.phase n = .running)
    (hleft : s.nextIndex < p.devices.length) (hstopped : s.stopped = false)
    (hindex : phase.index? = some s.nextIndex) (hbody : ∀ i lease, phase ≠ .inBody i lease) :
    p.Indexed ({ s with nextIndex := s.nextIndex + 1 }.goto n phase) where
  next := hleft
  taken m i hi := by
    rw [Workers.phase_goto] at hi
    show i < s.nextIndex + 1
    by_cases hm : m = n
    · rw [if_pos hm, hindex, Option.some_inj] at hi
      omega
    · rw [if_neg hm] at hi
      have := h.taken m i hi
      omega
  distinct m k i hm hk := by
    rw [Workers.phase_goto] at hm hk
    by_cases hmn : m = n
    · rw [if_pos hmn, hindex, Option.some_inj] at hm
      by_cases hkn : k = n
      · rw [hmn, hkn]
      · rw [if_neg hkn] at hk
        have := h.taken k i hk
        omega
    · rw [if_neg hmn] at hm
      have := h.taken m i hm
      by_cases hkn : k = n
      · rw [if_pos hkn, hindex, Option.some_inj] at hk
        omega
      · rw [if_neg hkn] at hk
        exact h.distinct m k i hm hk
  inBody m i hi := by
    show i ∈ s.started ↔ _
    unfold Workers.InBody
    rw [Workers.phase_goto] at hi ⊢
    by_cases hm : m = n
    · rw [if_pos hm, hindex, Option.some_inj] at hi
      simp only [if_pos hm]
      -- A device that was not taken was not started.
      constructor
      · intro hstarted
        have := h.started i hstarted
        omega
      · rintro ⟨lease, hlease⟩
        exact absurd hlease (hbody i lease)
    · rw [if_neg hm] at hi
      simp only [if_neg hm]
      exact h.inBody m i hi
  started i hi := by
    have := h.started i hi
    show i < s.nextIndex + 1
    omega
  once := h.once
  rows := h.rows
  nodup := h.nodup
  accounted _ hraised i hi := by
    have hnone : ∀ m, s.phase m ≠ .ended true :=
      Workers.none_raised (by rw [hrunning]; simp) hraised
    by_cases hnew : i = s.nextIndex
    · exact .inr ⟨n, by rw [Workers.phase_goto, if_pos rfl, hindex, hnew]⟩
    have hlt : i < s.nextIndex := by
      have : i < s.nextIndex + 1 := hi
      omega
    rcases h.accounted hstopped hnone i hlt with hrow | ⟨m, hm⟩
    · exact .inl hrow
    · have hmn : m ≠ n := by
        rintro rfl
        rw [hrunning] at hm
        cases hm
      exact .inr ⟨m, by rw [Workers.phase_goto, if_neg hmn]; exact hm⟩
  exhausted _ m hm := by
    rw [Workers.phase_goto] at hm
    by_cases hmn : m = n
    · rw [if_pos hmn] at hm
      rw [hm] at hindex
      cases hindex
    · rw [if_neg hmn] at hm
      have := h.exhausted hstopped m hm
      omega

/-- A worker runs the body for its device. -/
theorem Indexed.start (h : p.Indexed s) (hholding : s.phase n = .holding index) :
    p.Indexed ((s.log (.started index)).goto n (.inBody index none)) := by
  have hat : (s.phase n).index? = some index := by rw [hholding]; rfl
  have hnew : index ∉ s.started := by
    intro hstarted
    obtain ⟨lease, hlease⟩ := (h.inBody n index hat).mp hstarted
    rw [hholding] at hlease
    cases hlease
  have hlog : ((s.log (.started index)).goto n (.inBody index none)).started =
      s.started ++ [index] := by
    simp [Workers.started, Workers.log, Workers.goto]
  have hback : ∀ m i, (((s.log (.started index)).goto n (.inBody index none)).phase m).index? =
      some i → (s.phase m).index? = some i := by
    intro m i hi
    rw [Workers.phase_goto] at hi
    by_cases hm : m = n
    · rw [if_pos hm] at hi
      rw [hm, hat]
      exact hi
    · rw [if_neg hm] at hi
      exact hi
  constructor
  · exact h.next
  · exact fun m i hi => h.taken m i (hback m i hi)
  · exact fun m k i hm hk => h.distinct m k i (hback m i hm) (hback k i hk)
  · intro m i hi
    rw [hlog, List.mem_append, List.mem_singleton]
    unfold Workers.InBody
    rw [Workers.phase_goto]
    by_cases hm : m = n
    · have hat' := hback m i hi
      rw [hm, hat, Option.some_inj] at hat'
      simp [hm, hat']
    · rw [if_neg hm]
      -- The device is with no other worker.
      have hne : i ≠ index := by
        rintro rfl
        exact hm (h.distinct m n i (hback m i hi) hat)
      rw [or_iff_left hne]
      exact h.inBody m i (hback m i hi)
  · intro i hi
    rw [hlog, List.mem_append, List.mem_singleton] at hi
    rcases hi with hi | rfl
    · exact h.started i hi
    · exact h.taken n i hat
  · rw [hlog, List.nodup_append]
    refine ⟨h.once, by simp, fun i hi j hj heq => ?_⟩
    rw [List.mem_singleton] at hj
    exact hnew (by rw [← hj, ← heq]; exact hi)
  · intro i hi
    rw [hlog]
    exact List.mem_append_left _ (h.rows i hi)
  · exact h.nodup
  · intro hstopped hraised i hi
    have hnone : ∀ m, s.phase m ≠ .ended true :=
      Workers.none_raised (s := s.log (.started index)) (by rw [Workers.phase_log, hholding]; simp)
        hraised
    rcases h.accounted hstopped hnone i hi with hrow | ⟨m, hm⟩
    · exact .inl hrow
    · refine .inr ⟨m, ?_⟩
      rw [Workers.phase_goto]
      by_cases hmn : m = n
      · rw [hmn, hat] at hm
        rw [if_pos hmn]
        exact hm
      · rw [if_neg hmn]
        exact hm
  · intro hstopped m hm
    rw [Workers.phase_goto] at hm
    by_cases hmn : m = n
    · rw [if_pos hmn] at hm
      cases hm
    · rw [if_neg hmn] at hm
      exact h.exhausted hstopped m hm

/-- A device whose worker runs its body gets a row, and a failure may stop the loop. -/
theorem Indexed.record (h : p.Indexed s) (hin : s.InBody n index) (row : Row) (halts : Bool) :
    p.Indexed ({ s with rows := s.rows.set index row, stopped := s.stopped || halts }.goto n
      .running) := by
  obtain ⟨lease, hphase⟩ := hin
  have hat : (s.phase n).index? = some index := by rw [hphase]; rfl
  have hkeys : ∀ i, i ∈ (s.rows.set index row).keys ↔ i = index ∨ i ∈ s.rows.keys :=
    fun i => Dict.mem_keys_set s.rows index i row
  have hset : p.Indexed { s with rows := s.rows.set index row, stopped := s.stopped || halts } := by
    constructor
    · exact h.next
    · exact h.taken
    · exact h.distinct
    · exact h.inBody
    · exact h.started
    · exact h.once
    · intro i hi
      rcases (hkeys i).mp hi with rfl | hi
      · exact (h.inBody n i hat).mpr ⟨lease, hphase⟩
      · exact h.rows i hi
    · exact Dict.nodup_keys_set h.nodup index row
    · intro hstopped hraised i hi
      have hgoing : s.stopped = false := (Bool.or_eq_false_iff.mp hstopped).1
      rcases h.accounted hgoing hraised i hi with hrow | hwith
      · exact .inl ((hkeys i).mpr (.inr hrow))
      · exact .inr hwith
    · exact fun hstopped => h.exhausted (Bool.or_eq_false_iff.mp hstopped).1
  refine hset.goto _ ?_ ?_ ?_ ?_ ?_
  · show s.phase n ≠ _
    rw [hphase]
    simp
  · exact fun i hi => by cases hi
  · exact fun i hi => by cases hi
  · intro i hi
    change (s.phase n).index? = some i at hi
    rw [hat, Option.some_inj] at hi
    exact .inr (.inl ((hkeys i).mpr (.inl hi.symm)))
  · exact fun hended => by cases hended

/-! ## Failures -/

/-- Something happens: no device is started once the loop has stopped, and a failure stops it. -/
theorem Halted.log (h : p.Halted s) {s' : Workers} {event : Event} (halts : Bool)
    (hhistory : s'.history = s.history ++ [event]) (hstopped : s'.stopped = (s.stopped || halts))
    (hstrategy : halts = true → p.failureStrategy = "stop")
    (hfailed : ∀ i, event = .recorded i true → p.failureStrategy = "stop" → halts = true)
    (hstarted : ∀ i, event = .started i → s.stopped = false) : p.Halted s' := by
  constructor
  · intro hstop
    rw [hstopped, Bool.or_eq_true] at hstop
    exact hstop.elim h.stopped hstrategy
  · intro hstop i hi
    rw [hhistory, List.mem_append, List.mem_singleton] at hi
    rw [hstopped, Bool.or_eq_true]
    rcases hi with hi | hi
    · exact .inl (h.failed hstop i hi)
    · exact .inr (hfailed i hi.symm hstop)
  · intro hstop before i after heq j hj
    rw [hhistory] at heq
    rcases List.eq_nil_or_concat after with rfl | ⟨after', last, rfl⟩
    · -- The device is started now, and the loop has not stopped.
      obtain ⟨rfl, hevent⟩ := List.append_inj' heq rfl
      have hgoing := hstarted i (List.singleton_inj.mp hevent)
      rw [h.failed hstop j hj] at hgoing
      cases hgoing
    · have hsplit : s.history = before ++ .started i :: after' := by
        rw [List.concat_eq_append, ← List.cons_append, ← List.append_assoc] at heq
        exact (List.append_inj' heq rfl).1
      exact h.before hstop before i after' hsplit j hj

/-- What does not concern the failures. -/
theorem Halted.congr (h : p.Halted s) {s' : Workers} (hhistory : s'.history = s.history)
    (hstopped : s'.stopped = s.stopped) : p.Halted s' := by
  constructor
  · rw [hstopped]
    exact h.stopped
  · rw [hhistory, hstopped]
    exact h.failed
  · rw [hhistory]
    exact h.before

/-! ## Leases -/

/-- A worker leaves the body only after its lease was released. -/
theorem Leased.goto (h : Leased s) {phase : Phase}
    (hreleased : ∀ i lease, s.phase n = .inBody i (some lease) →
      Event.released i lease ∈ s.history ∨ phase = .inBody i (some lease)) :
    Leased (s.goto n phase) := by
  intro i lease hacquired
  rcases h i lease hacquired with hdone | ⟨m, hm⟩
  · exact .inl hdone
  by_cases hmn : m = n
  · rw [hmn] at hm
    rcases hreleased i lease hm with hdone | hkept
    · exact .inl hdone
    · exact .inr ⟨n, by rw [Workers.phase_goto, if_pos rfl]; exact hkept⟩
  · exact .inr ⟨m, by rw [Workers.phase_goto, if_neg hmn]; exact hm⟩

/-- Anything else may happen. -/
theorem Leased.log (h : Leased s) {s' : Workers} {event : Event}
    (hhistory : s'.history = s.history ++ [event]) (hphase : s'.phase = s.phase)
    (hevent : ∀ i lease, event ≠ .acquired i lease) : Leased s' := by
  intro i lease hacquired
  rw [hhistory, List.mem_append, List.mem_singleton] at hacquired
  rw [hhistory, hphase]
  rcases hacquired with hacquired | hnew
  · rcases h i lease hacquired with hdone | hout
    · exact .inl (List.mem_append_left _ hdone)
    · exact .inr hout
  · exact absurd hnew.symm (hevent i lease)

/-- What does not concern the leases. -/
theorem Leased.congr (h : Leased s) {s' : Workers} (hhistory : s'.history = s.history)
    (hphase : s'.phase = s.phase) : Leased s' := by
  intro i lease hacquired
  rw [hhistory] at hacquired ⊢
  rw [hphase]
  exact h i lease hacquired

/-! ## The ways in which a worker moves -/

theorem not_standsAt {view : Phase → Option ℕ} {key : String} (h : view (s.phase n) = none) :
    ¬ p.StandsAt view s key n := by
  rintro ⟨i, hi, -⟩
  rw [h] at hi
  cases hi

/-- A worker's first section begins. -/
theorem Invariant.begin (h : p.Invariant s) (hcreated : s.phase n = .created) :
    p.Invariant (s.goto n .running) where
  locked := h.locked.goto (by rw [hcreated]; rfl) (by rw [hcreated]; rfl)
  indexed := by
    have hnone : (s.phase n).index? = none := by rw [hcreated]; rfl
    refine h.indexed.goto _ (by rw [hcreated]; simp) (fun i hi => by cases hi)
      (fun i hi => by cases hi) (fun i hi => ?_) fun hended => by cases hended
    rw [hnone] at hi
    cases hi
  halted := h.halted.congr rfl rfl
  leased := h.leased.goto fun i lease hi => by rw [hcreated] at hi; cases hi

/-- A worker's loop is over. -/
theorem Invariant.quit (h : p.Invariant s) (hrunning : s.phase n = .running)
    (hdone : s.stopped = false → s.nextIndex = p.devices.length) :
    p.Invariant (s.goto n (.ended false)) where
  locked := h.locked.goto (by rw [hrunning]; rfl) (by rw [hrunning]; rfl)
  indexed := by
    have hnone : (s.phase n).index? = none := by rw [hrunning]; rfl
    refine h.indexed.goto _ (by rw [hrunning]; simp) (fun i hi => by cases hi)
      (fun i hi => by cases hi) (fun i hi => ?_) fun _ => hdone
    rw [hnone] at hi
    cases hi
  halted := h.halted.congr rfl rfl
  leased := h.leased.goto fun i lease hi => by rw [hrunning] at hi; cases hi

variable (index) in
/-- A worker that asks for a lock holds it or waits for it. -/
theorem guards_acquire (h : p.Locked s) (hrunning : s.phase n = .running) :
    ∃ phase : Phase, phase = (if ((s.lock (p.lockKey index)).acquire n).2 then .holding index
        else .waiting index) ∧
      ((s.lock (p.lockKey index)).acquire n).1.Guards
        (fun m => (m = n ∧ phase.held? = some index) ∨
          (m ≠ n ∧ p.StandsAt Phase.held? s (p.lockKey index) m))
        (fun m => (m = n ∧ phase.awaited? = some index) ∨
          (m ≠ n ∧ p.StandsAt Phase.awaited? s (p.lockKey index) m)) := by
  have hheld : ¬ p.StandsAt Phase.held? s (p.lockKey index) n :=
    not_standsAt (by rw [hrunning]; rfl)
  have hawaited : ¬ p.StandsAt Phase.awaited? s (p.lockKey index) n :=
    not_standsAt (by rw [hrunning]; rfl)
  have hguards := h (p.lockKey index)
  refine ⟨_, rfl, ?_⟩
  cases htaken : ((s.lock (p.lockKey index)).acquire n).2 with
  | true =>
    refine (hguards.acquire_taken htaken).congr (fun m => ?_) fun m => ?_
    · by_cases hm : m = n
      · simp [hm, Phase.held?]
      · simp [hm]
    · by_cases hm : m = n
      · simp [hm, Phase.awaited?, hawaited]
      · simp [hm]
  | false =>
    refine (hguards.acquire_queued hawaited htaken).congr (fun m => ?_) fun m => ?_
    · by_cases hm : m = n
      · simp [hm, Phase.held?, hheld]
      · simp [hm]
    · by_cases hm : m = n
      · simp [hm, Phase.awaited?]
      · simp [hm]

/-- A worker takes the next device, and has its lock or waits for it. -/
theorem Invariant.take (h : p.Invariant s) (hrunning : s.phase n = .running)
    (hstopped : s.stopped = false) (hleft : s.nextIndex < p.devices.length) :
    p.Invariant (p.take n s) ∧ ((p.take n s).phase n = .holding s.nextIndex ∨
      (p.take n s).phase n = .waiting s.nextIndex) := by
  obtain ⟨phase, hphase, hguards⟩ := guards_acquire s.nextIndex h.locked hrunning
  have hcases : phase = .holding s.nextIndex ∨ phase = .waiting s.nextIndex := by
    rw [hphase]
    split
    · exact .inl rfl
    · exact .inr rfl
  have hindex : phase.index? = some s.nextIndex := by
    rcases hcases with rfl | rfl
    · rfl
    · rfl
  have hbody : ∀ i lease, phase ≠ .inBody i lease := by
    rintro i lease rfl
    rcases hcases with heq | heq
    · cases heq
    · cases heq
  have htake : p.take n s = ({ s with nextIndex := s.nextIndex + 1 }.setLock
      (p.lockKey s.nextIndex) ((s.lock (p.lockKey s.nextIndex)).acquire n).1).goto n phase := by
    rw [hphase]
    rfl
  rw [htake]
  refine ⟨⟨?_, ?_, ?_, ?_⟩, by rw [Workers.phase_goto, if_pos rfl]; exact hcases⟩
  · refine Locked.update (s := { s with nextIndex := s.nextIndex + 1 }) h.locked
      (fun i hi => ?_) (fun i hi => ?_) hguards
    · change (s.phase n).index? = some i at hi
      rw [hrunning] at hi
      cases hi
    · rw [hindex, Option.some_inj] at hi
      exact hi.symm
  · exact (h.indexed.take hrunning hleft hstopped hindex hbody).congr rfl rfl rfl rfl rfl
  · exact h.halted.congr rfl rfl
  · refine Leased.goto (h.leased.congr rfl rfl) fun i lease hi => ?_
    change s.phase n = _ at hi
    rw [hrunning] at hi
    cases hi

/-- A worker that gives back its lock. -/
theorem Locked.release (h : p.Locked s) {phase : Phase} (hheld : (s.phase n).held? = some index)
    (hnone : phase.index? = none) :
    p.Locked ((s.setLock (p.lockKey index) (s.lock (p.lockKey index)).release).goto n phase) := by
  have hat := Phase.index?_of_held? hheld
  have hphase : phase.held? = none ∧ phase.awaited? = none := by
    cases phase <;> simp_all [Phase.index?, Phase.held?, Phase.awaited?]
  have hawaited : ¬ p.StandsAt Phase.awaited? s (p.lockKey index) n := by
    refine not_standsAt ?_
    generalize s.phase n = old at hheld
    cases old <;> simp_all [Phase.held?, Phase.awaited?]
  refine h.update (fun i hi => ?_) (fun i hi => ?_)
    (((h (p.lockKey index)).release ⟨index, hheld, rfl⟩).congr (fun m => ?_) fun m => ?_)
  · rw [hat, Option.some_inj] at hi
    exact hi.symm
  · rw [hnone] at hi
    cases hi
  · rw [hphase.1]
    simp [and_comm]
  · rw [hphase.2]
    by_cases hm : m = n
    · simp [hm, hawaited]
    · simp [hm]

/-- The device's row is recorded, once its lease was released. -/
theorem Invariant.record (h : p.Invariant s) {lease : Option String}
    (hbody : s.phase n = .inBody index lease)
    (hreleased : ∀ l, lease = some l → Event.released index l ∈ s.history) (row : Row) :
    p.Invariant (p.record n index row s) ∧ (p.record n index row s).phase n = .running := by
  refine ⟨⟨?_, ?_, ?_, ?_⟩, by unfold Plan.record; rw [Workers.phase_goto, if_pos rfl]⟩
  · exact h.locked.release (by rw [hbody]; rfl) rfl
  · have hrow := h.indexed.record ⟨lease, hbody⟩ row (row.2 && p.failureStrategy == "stop")
    refine hrow.congr rfl rfl rfl rfl ?_
    simp [Plan.record, Workers.started, Workers.goto, Workers.log, Workers.setLock]
  · refine h.halted.log (row.2 && p.failureStrategy == "stop")
      rfl rfl ?_ ?_ ?_
    · intro hhalts
      rw [Bool.and_eq_true, beq_iff_eq] at hhalts
      exact hhalts.2
    · intro i heq hstop
      have hfailed : row.2 = true := by
        injection heq
      rw [hfailed, hstop]
      rfl
    · intro i heq
      cases heq
  · have hlogged : Leased ({ s with history := s.history ++ [Event.recorded index row.2] }) :=
      h.leased.log rfl rfl fun i l heq => by cases heq
    refine Leased.congr (s := { s with history := s.history ++ [Event.recorded index row.2] }.goto n
      .running) (hlogged.goto fun i l hi => ?_) rfl rfl
    change s.phase n = _ at hi
    rw [hbody] at hi
    injection hi with hindex hlease
    rw [← hindex]
    exact .inl (List.mem_append_left _ (hreleased l hlease))

/-- A worker leaves the lock of its device for good: the loop has stopped, or it raises. -/
theorem Invariant.leave (h : p.Invariant s) (raised : Bool)
    (hheld : (s.phase n).held? = some index) (hwhy : raised = true ∨ s.stopped = true)
    (hreleased : ∀ i l, s.phase n = .inBody i (some l) → Event.released i l ∈ s.history) :
    p.Invariant (p.leave n index raised s) where
  locked := h.locked.release hheld rfl
  indexed := by
    have hgone : s.phase n ≠ .ended true := by
      intro hended
      rw [hended] at hheld
      cases hheld
    refine (h.indexed.goto (.ended raised) hgone (fun i hi => by cases hi)
      (fun i hi => by cases hi) (fun i hi => ?_) fun hended hstopped => ?_).congr rfl rfl rfl rfl rfl
    · rcases hwhy with rfl | hstopped
      · exact .inr (.inr (.inl rfl))
      · exact .inr (.inr (.inr hstopped))
    · injection hended with hraised
      rcases hwhy with htrue | htrue
      · rw [hraised] at htrue
        cases htrue
      · rw [hstopped] at htrue
        cases htrue
  halted := h.halted.congr rfl rfl
  leased := (h.leased.goto fun i l hi => .inl (hreleased i l hi)).congr rfl rfl

/-- A worker that stands in the queue of its device's lock gets it. -/
theorem Invariant.resume (h : p.Invariant s) (hwaiting : s.phase n = .waiting index)
    (hresumes : (s.lock (p.lockKey index)).Resumes n) :
    p.Invariant ((s.setLock (p.lockKey index) (s.lock (p.lockKey index)).resume).goto n
      (.holding index)) where
  locked := by
    refine h.locked.update (fun i hi => ?_) (fun i hi => (Option.some.inj hi).symm)
      (((h.locked (p.lockKey index)).resume hresumes).congr (fun m => ?_) fun m => ?_)
    · rw [hwaiting] at hi
      exact (Option.some.inj hi).symm
    · by_cases hm : m = n
      · simp [hm, Phase.held?]
      · simp [hm]
    · simp [Phase.awaited?, and_comm]
  indexed := by
    have hat : (s.phase n).index? = some index := by rw [hwaiting]; rfl
    refine (h.indexed.goto (.holding index) (by rw [hwaiting]; simp)
      (fun i hi => hat.trans hi) (fun i _ => ?_) (fun i hi => .inl (hat.symm.trans hi)) fun hended => by
        cases hended).congr rfl rfl rfl rfl rfl
    unfold Workers.InBody
    rw [hwaiting]
    simp
  halted := h.halted.congr rfl rfl
  leased := (h.leased.goto fun i l hi => by rw [hwaiting] at hi; cases hi).congr rfl rfl

/-- A worker is cancelled in the queue of a lock. -/
theorem Invariant.cancel (h : p.Invariant s) (hwaiting : s.phase n = .waiting index) :
    p.Invariant ((s.setLock (p.lockKey index) ((s.lock (p.lockKey index)).cancel n)).goto n
      (.ended true)) where
  locked := by
    have hheld : ¬ p.StandsAt Phase.held? s (p.lockKey index) n :=
      not_standsAt (by rw [hwaiting]; rfl)
    refine h.locked.update (fun i hi => ?_) (fun i hi => by cases hi)
      ((h.locked (p.lockKey index)).cancel.congr (fun m => ?_) fun m => ?_)
    · rw [hwaiting] at hi
      exact (Option.some.inj hi).symm
    · by_cases hm : m = n
      · simp [hm, Phase.held?, hheld]
      · simp [hm]
    · simp [Phase.awaited?, and_comm]
  indexed := (h.indexed.goto (.ended true) (by rw [hwaiting]; simp)
    (fun i hi => by cases hi) (fun i hi => by cases hi) (fun i _ => .inr (.inr (.inl rfl)))
    fun hended => by cases hended).congr rfl rfl rfl rfl rfl
  halted := h.halted.congr rfl rfl
  leased := (h.leased.goto fun i l hi => by rw [hwaiting] at hi; cases hi).congr rfl rfl

/-- A worker is cancelled before its first section. -/
theorem Invariant.drop (h : p.Invariant s) (hcreated : s.phase n = .created) :
    p.Invariant (s.goto n (.ended true)) where
  locked := h.locked.goto (by rw [hcreated]; rfl) (by rw [hcreated]; rfl)
  indexed := h.indexed.goto _ (by rw [hcreated]; simp) (fun i hi => by cases hi)
    (fun i hi => by cases hi) (fun i _ => .inr (.inr (.inl rfl))) fun hended => by cases hended
  halted := h.halted.congr rfl rfl
  leased := h.leased.goto fun i l hi => by rw [hcreated] at hi; cases hi

/-- A worker with the lock of its device calls `run_device`. -/
theorem Invariant.start (h : p.Invariant s) (hholding : s.phase n = .holding index)
    (hstopped : s.stopped = false) :
    p.Invariant ((s.log (.started index)).goto n (.inBody index none)) where
  locked := Locked.goto (s := s.log (.started index)) h.locked
    (by rw [Workers.phase_log, hholding]; rfl) (by rw [Workers.phase_log, hholding]; rfl)
  indexed := h.indexed.start hholding
  halted := by
    refine h.halted.log false rfl (by simp [Workers.log, Workers.goto]) (by simp) ?_ fun _ _ =>
      hstopped
    intro i heq
    cases heq
  leased := by
    have hlogged : Leased (s.log (.started index)) := h.leased.log rfl rfl fun i l heq => by cases heq
    exact hlogged.goto fun i l hi => by rw [Workers.phase_log, hholding] at hi; cases hi

/-- `run_device` acquires a lease. -/
theorem Invariant.acquired (h : p.Invariant s) (hbody : s.phase n = .inBody index none)
    (lease : String) :
    p.Invariant ((s.log (.acquired index lease)).goto n (.inBody index (some lease))) where
  locked := Locked.goto (s := s.log (.acquired index lease)) h.locked
    (by rw [Workers.phase_log, hbody]; rfl) (by rw [Workers.phase_log, hbody]; rfl)
  indexed := by
    have hat : (s.phase n).index? = some index := by rw [hbody]; rfl
    have hlogged : p.Indexed (s.log (.acquired index lease)) :=
      h.indexed.congr rfl rfl rfl rfl (by simp [Workers.started, Workers.log])
    refine hlogged.goto _ (by rw [Workers.phase_log, hbody]; simp) (fun i hi => hat.trans hi)
      (fun i hi => ?_) (fun i hi => .inl (hat.symm.trans hi)) fun hended => by cases hended
    unfold Workers.InBody
    rw [Workers.phase_log, hbody]
    simp
  halted := by
    refine h.halted.log false rfl (by simp [Workers.log, Workers.goto]) (by simp) ?_ ?_
    · intro i heq
      cases heq
    · intro i heq
      cases heq
  leased := by
    intro i l hacquired
    have hmem : Event.acquired i l ∈ s.history ++ [.acquired index lease] := hacquired
    rw [List.mem_append, List.mem_singleton] at hmem
    rcases hmem with hmem | hnew
    · rcases h.leased i l hmem with hdone | ⟨m, hm⟩
      · exact .inl (List.mem_append_left _ hdone)
      · have hmn : m ≠ n := by
          rintro rfl
          rw [hbody] at hm
          cases hm
        exact .inr ⟨m, by rw [Workers.phase_goto, if_neg hmn]; exact hm⟩
    · injection hnew with hi hl
      exact .inr ⟨n, by rw [Workers.phase_goto, if_pos rfl, hi, hl]⟩

/-- `run_device` releases a lease. -/
theorem Invariant.released (h : p.Invariant s) (lease : String) :
    p.Invariant (s.log (.released index lease)) where
  locked := h.locked
  indexed := h.indexed.congr rfl rfl rfl rfl (by simp [Workers.started, Workers.log])
  halted := by
    refine h.halted.log false rfl (by simp [Workers.log]) (by simp) ?_ ?_
    · intro i heq
      cases heq
    · intro i heq
      cases heq
  leased := h.leased.log rfl rfl fun i l heq => by cases heq

/-! ## Sections -/

/-- A part of a section of a worker: no other worker moves, and the worker uses up its devices. -/
structure Moves (p : Plan) (n : ℕ) (s s' : Workers) : Prop where
  others : ∀ m, m ≠ n → s'.phase m = s.phase m
  cost : 2 * (p.devices.length - s'.nextIndex) + (s'.phase n).weight ≤
    2 * (p.devices.length - s.nextIndex) + (s.phase n).weight

theorem Moves.trans {s' s'' : Workers} (h : Moves p n s s') (h' : Moves p n s' s'') :
    Moves p n s s'' where
  others m hm := (h'.others m hm).trans (h.others m hm)
  cost := h'.cost.trans h.cost

/-- Only the worker goes to another point, which costs no more. -/
theorem moves_goto {s' : Workers} {phase : Phase} (hnext : s'.nextIndex = s.nextIndex)
    (hphase : s'.phase = Function.update s.phase n phase)
    (hweight : phase.weight ≤ (s.phase n).weight) : Moves p n s s' where
  others m hm := by rw [hphase, Function.update_of_ne hm]
  cost := by
    rw [hnext, hphase, Function.update_self]
    omega

/-- Where a worker stands after `run_device` was called, or not. -/
def Entered (index : ℕ) (phase : Phase) : Prop :=
  phase = .running ∨ phase = .ended false ∨ ∃ lease, phase = .inBody index lease

theorem Entered.resumable {phase : Phase} (h : Entered index phase) :
    phase ≠ .created ∧ (∀ i, phase ≠ .holding i) ∧ phase ≠ .ended true := by
  rcases h with rfl | rfl | ⟨lease, rfl⟩
  · simp
  · simp
  · simp

/-- A worker with the lock of its device. -/
theorem Invariant.enter [PyLib] (acquire : Option (ℕ → Except String String)) (h : p.Invariant s)
    (hholding : s.phase n = .holding index) :
    p.Invariant (p.enter acquire n index s) ∧ Moves p n s (p.enter acquire n index s) ∧
      (p.enter acquire n index s).nextIndex = s.nextIndex ∧
      Entered index ((p.enter acquire n index s).phase n) := by
  have hweight : (s.phase n).weight = 1 := by rw [hholding]; rfl
  unfold Plan.enter
  by_cases hstopped : s.stopped = true
  · rw [if_pos hstopped]
    have hheld : (s.phase n).held? = some index := by rw [hholding]; rfl
    have hleave := h.leave false hheld (.inr hstopped)
      fun i l hi => by rw [hholding] at hi; cases hi
    exact ⟨hleave, moves_goto rfl rfl (Nat.zero_le _), rfl,
      .inr (.inl (by unfold Plan.leave; rw [Workers.phase_goto, if_pos rfl]))⟩
  · rw [if_neg hstopped]
    have hstart := h.start hholding (by simpa using hstopped)
    have hbody : ((s.log (.started index)).goto n (.inBody index none)).phase n =
        .inBody index none := by rw [Workers.phase_goto, if_pos rfl]
    have hmoves : Moves p n s ((s.log (.started index)).goto n (.inBody index none)) :=
      moves_goto rfl rfl (by rw [hweight]; rfl)
    dsimp only
    cases p.begin_ acquire index with
    | error row =>
      obtain ⟨hrecord, hrunning⟩ := hstart.record hbody (fun l heq => by cases heq) row
      exact ⟨hrecord, hmoves.trans (moves_goto rfl rfl (Nat.zero_le _)), rfl, .inl hrunning⟩
    | ok lease =>
      cases lease with
      | none => exact ⟨hstart, hmoves, rfl, .inr (.inr ⟨none, hbody⟩)⟩
      | some lease =>
        refine ⟨hstart.acquired hbody lease, hmoves.trans (moves_goto rfl rfl ?_), rfl,
          .inr (.inr ⟨some lease, by rw [Workers.phase_goto, if_pos rfl]⟩)⟩
        rw [hbody]
        rfl

/-- A worker's loop goes on until it suspends or ends. -/
theorem invariant_proceedFrom [PyLib] (acquire : Option (ℕ → Except String String)) (n left : ℕ)
    (s : Workers) (h : p.Invariant s) (hrunning : s.phase n = .running)
    (hleft : s.nextIndex + left = p.devices.length) :
    p.Invariant (p.proceedFrom acquire n left s) ∧ Moves p n s (p.proceedFrom acquire n left s) ∧
      ((p.proceedFrom acquire n left s).phase n).Settled ∧
      (p.proceedFrom acquire n left s).phase n ≠ .ended true := by
  have hquit (s : Workers) : Moves p n s (s.goto n (.ended false)) ∧
      ((s.goto n (.ended false)).phase n).Settled ∧
      (s.goto n (.ended false)).phase n ≠ .ended true := by
    refine ⟨moves_goto rfl rfl (Nat.zero_le _), ?_⟩
    rw [Workers.phase_goto, if_pos rfl]
    exact ⟨trivial, by simp⟩
  induction left generalizing s with
  | zero => exact ⟨h.quit hrunning fun _ => by omega, hquit s⟩
  | succ left ih =>
    rw [proceedFrom]
    by_cases hstopped : s.stopped = true
    · rw [if_pos hstopped]
      have hdone := h.quit hrunning fun hgoing => by rw [hstopped] at hgoing; cases hgoing
      exact ⟨hdone, hquit s⟩
    rw [if_neg hstopped]
    obtain ⟨htake, hphase⟩ := h.take hrunning (by simpa using hstopped) (by omega)
    have hnext : (p.take n s).nextIndex = s.nextIndex + 1 := rfl
    have hmoves : Moves p n s (p.take n s) := by
      refine ⟨fun m hm => ?_, ?_⟩
      · unfold Plan.take
        rw [Workers.phase_goto, if_neg hm]
        rfl
      · have hweight : ((p.take n s).phase n).weight ≤ 2 := by
          rcases hphase with hphase | hphase
          · rw [hphase]
            exact Nat.le_succ 1
          · rw [hphase]
            exact le_rfl
        omega
    dsimp only
    rcases hphase with hholding | hwaiting
    · rw [hholding]
      dsimp only
      obtain ⟨henter, hmoved, hsame, hentered⟩ := htake.enter acquire hholding
      have hmoved := hmoves.trans hmoved
      rcases hentered with hrun | hended | ⟨lease, hbody⟩
      · rw [hrun]
        dsimp only
        obtain ⟨hinv, hmoves', hrest⟩ := ih _ henter hrun (by rw [hsame, hnext]; omega)
        exact ⟨hinv, hmoved.trans hmoves', hrest⟩
      · rw [hended]
        dsimp only
        exact ⟨henter, hmoved, by rw [hended]; trivial, by rw [hended]; simp⟩
      · rw [hbody]
        dsimp only
        exact ⟨henter, hmoved, by rw [hbody]; trivial, by rw [hbody]; simp⟩
    · rw [hwaiting]
      dsimp only
      exact ⟨htake, hmoves, by rw [hwaiting]; trivial, by rw [hwaiting]; simp⟩

/-- What follows in a section after a worker ran the body, or did not. -/
theorem invariant_proceed [PyLib] (acquire : Option (ℕ → Except String String)) (h : p.Invariant s)
    (hphase : s.phase n ≠ .created) (hholding : ∀ i, s.phase n ≠ .holding i) :
    p.Invariant (p.proceed acquire n s) ∧ Moves p n s (p.proceed acquire n s) ∧
      ((p.proceed acquire n s).phase n).Settled ∧
      ((p.proceed acquire n s).phase n = .ended true → s.phase n = .ended true) := by
  unfold proceed
  have hstay : Moves p n s s := ⟨fun _ _ => rfl, le_rfl⟩
  cases hrunning : s.phase n with
  | running =>
    dsimp only
    have hnext := h.indexed.next
    obtain ⟨hinv, hmoves, hsettled, hraised⟩ := invariant_proceedFrom acquire n
      (p.devices.length - s.nextIndex) s h hrunning (by omega)
    exact ⟨hinv, hmoves, hsettled, fun hended => absurd hended hraised⟩
  | created => exact absurd hrunning hphase
  | holding i => exact absurd hrunning (hholding i)
  | waiting i =>
    dsimp only
    rw [hrunning]
    exact ⟨h, hstay, trivial, fun hended => hended⟩
  | inBody i lease =>
    dsimp only
    rw [hrunning]
    exact ⟨h, hstay, trivial, fun hended => hended⟩
  | ended raised =>
    dsimp only
    rw [hrunning]
    exact ⟨h, hstay, trivial, fun hended => hended⟩

/-! ## Runs -/

/-- What holds between two sections: the workers are suspended, and only workers that were created
have moved. -/
structure Standing (p : Plan) (s : Workers) : Prop where
  invariant : p.Invariant s
  settled : ∀ n, (s.phase n).Settled
  ranged : ∀ n, s.phase n ≠ .created → n < p.workerCount

/-- A worker was resumed or cancelled. -/
structure Progresses (p : Plan) (n : ℕ) (s s' : Workers) : Prop where
  invariant : p.Invariant s'
  others : ∀ m, m ≠ n → s'.phase m = s.phase m
  cost : 2 * (p.devices.length - s'.nextIndex) + (s'.phase n).weight <
    2 * (p.devices.length - s.nextIndex) + (s.phase n).weight
  settled : (s'.phase n).Settled

/-- The body of a worker ends, with its lease if it has one. -/
theorem Invariant.finish [PyLib] (h : p.Invariant s) {lease : Option String}
    (hbody : s.phase n = .inBody index lease) (end_ : BodyEnd) :
    p.Invariant (p.finish n index lease end_ s) ∧
      (∀ m, m ≠ n → (p.finish n index lease end_ s).phase m = s.phase m) ∧
      (p.finish n index lease end_ s).nextIndex = s.nextIndex ∧
      (p.finish n index lease end_ s).phase n =
        match end_ with
        | .cancelled => .ended true
        | _ => .running := by
  -- The lease is released first.
  obtain ⟨released, hinv, hphase, hnext, hdone, hrelease⟩ : ∃ released, p.Invariant released ∧
      released.phase = s.phase ∧ released.nextIndex = s.nextIndex ∧
      (∀ l, lease = some l → Event.released index l ∈ released.history) ∧
      releaseLease index lease s = released := by
    cases lease with
    | none => exact ⟨s, h, rfl, rfl, (fun l heq => by cases heq), rfl⟩
    | some l =>
      refine ⟨_, h.released l, rfl, rfl, fun l' heq => ?_, rfl⟩
      obtain rfl := Option.some.inj heq
      exact List.mem_append_right _ List.mem_cons_self
  have hbody' : released.phase n = .inBody index lease := by rw [hphase, hbody]
  have hothers (phase : Phase) (m : ℕ) (hm : m ≠ n) :
      Function.update released.phase n phase m = s.phase m := by
    rw [Function.update_of_ne hm, hphase]
  unfold Plan.finish
  rw [hrelease]
  cases end_ with
  | returned result =>
    obtain ⟨hrecord, hrunning⟩ := hinv.record hbody' hdone (returnedRow (p.lockKey index) result)
    exact ⟨hrecord, hothers _, hnext, hrunning⟩
  | raised message =>
    obtain ⟨hrecord, hrunning⟩ := hinv.record hbody' hdone (failedRow (p.lockKey index) message)
    exact ⟨hrecord, hothers _, hnext, hrunning⟩
  | cancelled =>
    have hheld : (released.phase n).held? = some index := by rw [hbody']; rfl
    refine ⟨hinv.leave true hheld (.inl rfl) fun i l hi => ?_, hothers _, hnext, ?_⟩
    · rw [hbody'] at hi
      injection hi with hindex hlease
      rw [← hindex]
      exact hdone l hlease
    · exact Function.update_self ..

/-- What the event loop can do with a worker. -/
theorem progresses_step [PyLib] (acquire : Option (ℕ → Except String String)) (h : Standing p s)
    {i : Input} (henabled : p.Enabled s i) :
    Progresses p i.worker s (p.step acquire s i) ∧
      (¬ i.Cancels → (p.step acquire s i).phase i.worker ≠ .ended true) := by
  cases i with
  | run n =>
    obtain ⟨hn, hcreated⟩ := henabled
    have hstep : p.step acquire s (.run n) = p.proceed acquire n (s.goto n .running) := by
      simp only [step, hcreated, if_pos hn]
    have hrunning : (s.goto n .running).phase n = .running := by
      rw [Workers.phase_goto, if_pos rfl]
    obtain ⟨hinv, hmoves, hsettled, hraised⟩ := invariant_proceed acquire
      (h.invariant.begin hcreated) (by rw [hrunning]; simp) (by rw [hrunning]; simp)
    rw [hstep]
    refine ⟨⟨hinv, fun m hm => ?_, ?_, hsettled⟩, fun _ hended => ?_⟩
    · rw [hmoves.others m hm, Workers.phase_goto]
      exact if_neg hm
    · have hcost := hmoves.cost
      rw [hrunning] at hcost
      show 2 * _ + ((p.proceed acquire n (s.goto n .running)).phase n).weight < _ + (s.phase n).weight
      rw [hcreated]
      exact hcost.trans_lt (Nat.lt_succ_self _)
    · have := hraised hended
      rw [hrunning] at this
      cases this
  | wake n =>
    obtain ⟨index, hwaiting, hresumes⟩ := henabled
    have hstep : p.step acquire s (.wake n) = p.proceed acquire n (p.enter acquire n index
        ((s.setLock (p.lockKey index) (s.lock (p.lockKey index)).resume).goto n
          (.holding index))) := by
      simp only [step, hwaiting, if_pos hresumes]
    have hholding : ((s.setLock (p.lockKey index) (s.lock (p.lockKey index)).resume).goto n
        (.holding index)).phase n = .holding index := by rw [Workers.phase_goto, if_pos rfl]
    obtain ⟨henter, hmoves, -, hentered⟩ :=
      (h.invariant.resume hwaiting hresumes).enter acquire hholding
    have hnot := hentered.resumable
    obtain ⟨hinv, hmoves', hsettled, hraised⟩ := invariant_proceed acquire henter hnot.1 hnot.2.1
    have hmoved := hmoves.trans hmoves'
    rw [hstep]
    refine ⟨⟨hinv, fun m hm => ?_, ?_, hsettled⟩, fun _ hended => hnot.2.2 (hraised hended)⟩
    · rw [hmoved.others m hm, Workers.phase_goto]
      exact if_neg hm
    · have hcost := hmoved.cost
      rw [hholding] at hcost
      show 2 * _ + ((p.proceed acquire n _).phase n).weight < _ + (s.phase n).weight
      rw [hwaiting]
      exact hcost.trans_lt (Nat.lt_succ_self _)
  | finish n end_ =>
    obtain ⟨index, lease, hbody⟩ := henabled
    have hstep : p.step acquire s (.finish n end_) =
        p.proceed acquire n (p.finish n index lease end_ s) := by
      simp only [step, hbody]
    obtain ⟨hfinish, hothers, hnext, hphase⟩ := h.invariant.finish hbody end_
    have hnot : (p.finish n index lease end_ s).phase n ≠ .created ∧
        (∀ i, (p.finish n index lease end_ s).phase n ≠ .holding i) ∧
        ((p.finish n index lease end_ s).phase n).weight = 0 := by
      rw [hphase]
      cases end_ with
      | returned result => exact ⟨by simp, by simp, rfl⟩
      | raised message => exact ⟨by simp, by simp, rfl⟩
      | cancelled => exact ⟨by simp, by simp, rfl⟩
    obtain ⟨hinv, hmoves, hsettled, hraised⟩ := invariant_proceed acquire hfinish hnot.1 hnot.2.1
    rw [hstep]
    refine ⟨⟨hinv, fun m hm => (hmoves.others m hm).trans (hothers m hm), ?_, hsettled⟩,
      fun hcancels hended => ?_⟩
    · have hcost := hmoves.cost
      rw [hnot.2.2, hnext] at hcost
      show 2 * _ + ((p.proceed acquire n _).phase n).weight < _ + (s.phase n).weight
      rw [hbody]
      exact hcost.trans_lt (Nat.lt_succ_self _)
    · have hended' := hraised hended
      rw [hphase] at hended'
      cases end_ with
      | returned result => cases hended'
      | raised message => cases hended'
      | cancelled => exact hcancels trivial
  | cancel n =>
    refine ⟨?_, fun hcancels => absurd trivial hcancels⟩
    rcases henabled with ⟨hn, hcreated⟩ | ⟨index, hwaiting⟩
    · have hstep : p.step acquire s (.cancel n) = s.goto n (.ended true) := by
        simp only [step, hcreated, if_pos hn]
      rw [hstep]
      refine ⟨h.invariant.drop hcreated, fun m hm => ?_, ?_, ?_⟩
      · rw [Workers.phase_goto]
        exact if_neg hm
      · show 2 * _ + ((s.goto n (.ended true)).phase n).weight < _ + (s.phase n).weight
        rw [Workers.phase_goto, if_pos rfl, hcreated]
        exact Nat.lt_succ_self _
      · show ((s.goto n (.ended true)).phase n).Settled
        rw [Workers.phase_goto, if_pos rfl]
        trivial
    · have hstep : p.step acquire s (.cancel n) = (s.setLock (p.lockKey index)
          ((s.lock (p.lockKey index)).cancel n)).goto n (.ended true) := by
        simp only [step, hwaiting]
      rw [hstep]
      refine ⟨h.invariant.cancel hwaiting, fun m hm => ?_, ?_, ?_⟩
      · rw [Workers.phase_goto]
        exact if_neg hm
      · show 2 * _ + ((Workers.goto _ n (.ended true)).phase n).weight < _ + (s.phase n).weight
        rw [Workers.phase_goto, if_pos rfl, hwaiting]
        exact Nat.lt_add_of_pos_right (by decide : 0 < 2)
      · show ((Workers.goto _ n (.ended true)).phase n).Settled
        rw [Workers.phase_goto, if_pos rfl]
        trivial

/-- What the event loop cannot do with a worker does nothing. -/
theorem step_of_not_enabled [PyLib] (acquire : Option (ℕ → Except String String)) {i : Input}
    (h : ¬ p.Enabled s i) : p.step acquire s i = s := by
  cases i with
  | run n =>
    cases hphase : s.phase n with
    | created =>
      have hn : ¬ n < p.workerCount := fun hn => h ⟨hn, hphase⟩
      simp only [step, hphase, if_neg hn]
    | _ => simp only [step, hphase]
  | wake n =>
    cases hphase : s.phase n with
    | waiting index =>
      have hresumes : ¬ (s.lock (p.lockKey index)).Resumes n := fun hr => h ⟨index, hphase, hr⟩
      simp only [step, hphase, if_neg hresumes]
    | _ => simp only [step, hphase]
  | finish n end_ =>
    cases hphase : s.phase n with
    | inBody index lease => exact absurd ⟨index, lease, hphase⟩ h
    | _ => simp only [step, hphase]
  | cancel n =>
    cases hphase : s.phase n with
    | created =>
      have hn : ¬ n < p.workerCount := fun hn => h (.inl ⟨hn, hphase⟩)
      simp only [step, hphase, if_neg hn]
    | waiting index => exact absurd (.inr ⟨index, hphase⟩) h
    | _ => simp only [step, hphase]

/-- Only workers that were created are resumed or cancelled. -/
theorem Standing.worker_lt (h : Standing p s) {i : Input} (henabled : p.Enabled s i) :
    i.worker < p.workerCount := by
  cases i with
  | run n => exact henabled.1
  | wake n =>
    obtain ⟨index, hphase, -⟩ := henabled
    exact h.ranged n (by rw [hphase]; simp)
  | finish n end_ =>
    obtain ⟨index, lease, hphase⟩ := henabled
    exact h.ranged n (by rw [hphase]; simp)
  | cancel n =>
    rcases henabled with hcreated | ⟨index, hphase⟩
    · exact hcreated.1
    · exact h.ranged n (by rw [hphase]; simp)

/-- A step leaves the workers suspended. -/
theorem standing_step [PyLib] (acquire : Option (ℕ → Except String String)) (h : Standing p s)
    (i : Input) : Standing p (p.step acquire s i) := by
  by_cases henabled : p.Enabled s i
  · obtain ⟨hprogress, -⟩ := progresses_step acquire h henabled
    refine ⟨hprogress.invariant, fun m => ?_, fun m hm => ?_⟩
    · by_cases hmi : m = i.worker
      · rw [hmi]
        exact hprogress.settled
      · rw [hprogress.others m hmi]
        exact h.settled m
    · by_cases hmi : m = i.worker
      · rw [hmi]
        exact h.worker_lt henabled
      · rw [hprogress.others m hmi] at hm
        exact h.ranged m hm
  · rw [step_of_not_enabled acquire henabled]
    exact h

/-- The workers before the first section. -/
theorem standing_initial (p : Plan) : Standing p {} where
  invariant :=
    { locked := fun key => AsyncLock.guards_new (fun t ht => by obtain ⟨i, hi, -⟩ := ht; cases hi)
        fun t ht => by obtain ⟨i, hi, -⟩ := ht; cases hi
      indexed :=
        { next := Nat.zero_le _
          taken := fun n i hi => by cases hi
          distinct := fun m n i hi => by cases hi
          inBody := fun n i hi => by cases hi
          started := fun i hi => by cases hi
          once := List.nodup_nil
          rows := fun i hi => by cases hi
          nodup := List.nodup_nil
          accounted := fun _ _ i hi => absurd hi (Nat.not_lt_zero i)
          exhausted := fun _ n hn => by cases hn }
      halted :=
        { stopped := fun h => by cases h
          failed := fun _ i hi => by cases hi
          before := fun _ before i after heq => by simp at heq }
      leased := fun i l hi => by cases hi }
  settled _ := trivial
  ranged _ hn := absurd rfl hn

/-- Between any two sections of any run the workers are suspended. -/
theorem standing_run [PyLib] (p : Plan) (acquire : Option (ℕ → Except String String))
    (inputs : List Input) : Standing p (p.run acquire inputs) := by
  have hmeets : Machine.Meets (p.step acquire) (fun _ _ => True) {} inputs :=
    Machine.meets_of_forall (fun _ _ => trivial) _ inputs
  exact hmeets.invariant (I := Standing p) (fun _ i h _ => standing_step acquire h i)
    (standing_initial p)

/-- If nobody is cancelled, nobody raises. -/
theorem none_raised_run [PyLib] (p : Plan) (acquire : Option (ℕ → Except String String))
    (inputs : List Input) (h : ∀ i ∈ inputs, ¬ i.Cancels) (n : ℕ) :
    (p.run acquire inputs).phase n ≠ .ended true := by
  have hmeets : Machine.Meets (p.step acquire) (fun _ i => ¬ i.Cancels) {} inputs :=
    Machine.meets_iff.mpr fun before i after heq => h i (by rw [heq]; simp)
  refine (hmeets.invariant (I := fun s => Standing p s ∧ ∀ n, s.phase n ≠ .ended true)
    (fun s i hs hi => ⟨standing_step acquire hs.1 i, fun n => ?_⟩)
    ⟨standing_initial p, fun _ => by simp⟩).2 n
  by_cases henabled : p.Enabled s i
  · obtain ⟨hprogress, hraised⟩ := progresses_step acquire hs.1 henabled
    by_cases hn : n = i.worker
    · rw [hn]
      exact hraised hi
    · rw [hprogress.others n hn]
      exact hs.2 n
  · rw [step_of_not_enabled acquire henabled]
    exact hs.2 n

/-! ## What the workers promise -/

/-- Every device is run at most once, and two with one id never at a time; `continue` runs all of
them, and `stop` none after a failure; and every lease of a body that is over was released. -/
structure Scheduled (p : Plan) (s : Workers) : Prop where
  once : s.started.Nodup
  apart : ∀ m n i j deviceId, m ≠ n → s.InBody m i → s.InBody n j →
    deviceIdValue (p.device i) = .ok deviceId → deviceIdValue (p.device j) ≠ .ok deviceId
  all : p.failureStrategy = "continue" → ∀ result, p.outcome s = .returned result →
    s.started.Perm (List.range p.devices.length) ∧ ∃ succeeded failed : ℕ,
      result.outputs.get? "succeeded" = some (.int succeeded) ∧
      result.outputs.get? "failed" = some (.int failed) ∧
      succeeded + failed = p.devices.length
  stops : p.failureStrategy = "stop" → ∀ before index after,
    s.history = before ++ .started index :: after → ∀ i, Event.recorded i true ∉ before
  released : ∀ index lease, Event.acquired index lease ∈ s.history → (∀ n, ¬ s.InBody n index) →
    Event.released index lease ∈ s.history

/-- Two bodies for one device id would hold one lock. -/
theorem Standing.apart (h : Standing p s) {m n i j : ℕ} {deviceId : String} (hmn : m ≠ n)
    (hm : s.InBody m i) (hn : s.InBody n j) (hi : deviceIdValue (p.device i) = .ok deviceId) :
    deviceIdValue (p.device j) ≠ .ok deviceId := by
  intro hj
  obtain ⟨lease, hm⟩ := hm
  obtain ⟨lease', hn⟩ := hn
  have hkey {k : ℕ} (hk : deviceIdValue (p.device k) = .ok deviceId) : p.lockKey k = deviceId := by
    unfold lockKey
    rw [hk]
  refine hmn ((h.invariant.locked deviceId).exclusive m n ⟨i, ?_, hkey hi⟩ ⟨j, ?_, hkey hj⟩)
  · rw [hm]
    rfl
  · rw [hn]
    rfl

/-- How the workers stand when `execute` returns. -/
theorem ended_of_returned {result : ActivityResult} (h : p.outcome s = .returned result) :
    (∀ n < p.workerCount, s.phase n = .ended false) ∧ result = p.resultOf s := by
  unfold outcome at h
  split at h
  · rename_i hended
    split at h
    · cases h
    · rename_i hraised
      refine ⟨fun n hn => ?_, by injection h with h; exact h.symm⟩
      have hone := List.all_eq_true.mp hended n (List.mem_range.mpr hn)
      simp only [List.any_eq_true, not_exists, not_and] at hraised
      have hnot := hraised n (List.mem_range.mpr hn)
      cases hphase : s.phase n with
      | ended raised =>
        rw [hphase] at hnot
        simpa [hasRaised] using hnot
      | _ => rw [hphase] at hone; cases hone
  · cases h

/-- When nothing stops the loop, it has a row for each device in the end. -/
theorem Standing.all (h : Standing p s) (hcontinue : p.failureStrategy = "continue")
    {result : ActivityResult} (hreturned : p.outcome s = .returned result) :
    s.started.Perm (List.range p.devices.length) ∧
      s.rows.entries.length = p.devices.length := by
  obtain ⟨hended, -⟩ := ended_of_returned hreturned
  have hgoing : s.stopped = false := by
    by_contra hstopped
    have hstop := h.invariant.halted.stopped (by simpa using hstopped)
    rw [hcontinue] at hstop
    exact absurd hstop (by decide)
  have hphase : ∀ n, s.phase n = .created ∨ s.phase n = .ended false := by
    intro n
    by_cases hn : n < p.workerCount
    · exact .inr (hended n hn)
    · by_contra hnot
      exact hn (h.ranged n fun hcreated => hnot (.inl hcreated))
  have hindexed := h.invariant.indexed
  -- There is at least one worker, and it found no further device.
  have hzero : 0 < p.workerCount := by
    have hdevices := List.length_pos_iff.mpr p.nonempty
    have hbounds := p.bounds.1
    unfold workerCount
    omega
  have hnext := hindexed.exhausted hgoing 0 (hended 0 hzero)
  have hrow : ∀ i, i < p.devices.length → i ∈ s.rows.keys := by
    intro i hi
    have hnone : ∀ n, s.phase n ≠ .ended true := by
      intro n
      rcases hphase n with hn | hn
      · simp [hn]
      · simp [hn]
    rcases hindexed.accounted hgoing hnone i (by omega) with hrow | ⟨n, hn⟩
    · exact hrow
    · rcases hphase n with hn' | hn'
      · rw [hn'] at hn
        cases hn
      · rw [hn'] at hn
        cases hn
  have hstarted : ∀ i ∈ s.started, i < p.devices.length := by
    intro i hi
    rw [← hnext]
    exact hindexed.started i hi
  constructor
  · rw [List.perm_ext_iff_of_nodup hindexed.once List.nodup_range]
    intro i
    rw [List.mem_range]
    exact ⟨hstarted i, fun hi => hindexed.rows i (hrow i hi)⟩
  · have hperm : s.rows.keys.Perm (List.range p.devices.length) := by
      rw [List.perm_ext_iff_of_nodup hindexed.nodup List.nodup_range]
      intro i
      rw [List.mem_range]
      exact ⟨fun hi => hstarted i (hindexed.rows i hi), hrow i⟩
    have hlength := hperm.length_eq
    rw [List.length_range] at hlength
    rw [← hlength]
    exact (List.length_map ..).symm

/-- Between any two sections of any run. -/
theorem Standing.scheduled (h : Standing p s) : Scheduled p s where
  once := h.invariant.indexed.once
  apart _ _ _ _ _ hmn hm hn hi := h.apart hmn hm hn hi
  all hcontinue result hreturned := by
    obtain ⟨hperm, hrows⟩ := h.all hcontinue hreturned
    obtain ⟨-, rfl⟩ := ended_of_returned hreturned
    have hlength : (results s).length = p.devices.length := by
      unfold results
      rw [List.length_map, List.length_mergeSort, hrows]
    have hfailed : failedCount s ≤ p.devices.length := by
      unfold failedCount
      refine (List.length_filter_le _ _).trans ?_
      rw [← hrows]
      exact (List.length_map ..).le
    refine ⟨hperm, p.devices.length - failedCount s, failedCount s, ?_, rfl, by omega⟩
    have hcount : ((p.devices.length - failedCount s : ℕ) : ℤ) =
        (results s).length - failedCount s := by omega
    rw [hcount]
    rfl
  stops := h.invariant.halted.before
  released index lease hacquired hover := by
    rcases h.invariant.leased index lease hacquired with hdone | ⟨n, hn⟩
    · exact hdone
    · exact absurd ⟨some lease, hn⟩ (hover n)

/-! ## The workers come to an end -/

/-- As long as a worker has not ended, one can go on. -/
theorem Standing.enabled (h : Standing p s) (hpending : p.outcome s = .pending) :
    ∃ i, p.Enabled s i ∧ ¬ i.Cancels := by
  obtain ⟨n, hn, hgoing⟩ : ∃ n, n < p.workerCount ∧ hasEnded (s.phase n) = false := by
    by_contra hnone
    have hall : (List.range p.workerCount).all (fun n => hasEnded (s.phase n)) = true := by
      rw [List.all_eq_true]
      intro n hn
      by_contra hgoing
      exact hnone ⟨n, List.mem_range.mp hn, by simpa using hgoing⟩
    unfold outcome at hpending
    rw [if_pos hall] at hpending
    split at hpending
    · cases hpending
    · cases hpending
  have hfinish {m i : ℕ} {lease : Option String} (hbody : s.phase m = .inBody i lease) :
      ∃ i, p.Enabled s i ∧ ¬ i.Cancels :=
    ⟨.finish m (.raised ""), ⟨i, lease, hbody⟩, fun hcancels => hcancels⟩
  have hsettled := h.settled n
  cases hphase : s.phase n with
  | created => exact ⟨.run n, ⟨hn, hphase⟩, fun hcancels => hcancels⟩
  | running => rw [hphase] at hsettled; exact hsettled.elim
  | holding i => rw [hphase] at hsettled; exact hsettled.elim
  | inBody i lease => exact hfinish hphase
  | ended raised => rw [hphase] at hgoing; cases hgoing
  | waiting index =>
    -- Whoever holds the lock can finish; if nobody does, the first of the queue is resumed.
    have hguards := h.invariant.locked (p.lockKey index)
    rcases hguards.runnable ⟨index, by rw [hphase]; rfl, rfl⟩ with ⟨m, i, hheld, -⟩ |
      ⟨m, hresumes, i, hawaited, hkey⟩
    · have hsettled := h.settled m
      cases hphase : s.phase m with
      | inBody i lease => exact hfinish hphase
      | holding i => rw [hphase] at hsettled; exact hsettled.elim
      | _ => rw [hphase] at hheld; cases hheld
    · cases hphase : s.phase m with
      | waiting j =>
        rw [hphase] at hawaited
        obtain rfl := Option.some.inj hawaited
        exact ⟨.wake m, ⟨j, hphase, by rw [hkey]; exact hresumes⟩, fun hcancels => hcancels⟩
      | _ => rw [hphase] at hawaited; cases hawaited

/-- How much the workers can still cost the event loop. -/
def cost (p : Plan) (s : Workers) : ℕ :=
  2 * (p.devices.length - s.nextIndex) +
    ∑ n ∈ Finset.range p.workerCount, (s.phase n).weight

/-- Whatever the event loop does costs something. -/
theorem cost_step_lt [PyLib] (acquire : Option (ℕ → Except String String)) (h : Standing p s)
    {i : Input} (henabled : p.Enabled s i) : p.cost (p.step acquire s i) < p.cost s := by
  obtain ⟨hprogress, -⟩ := progresses_step acquire h henabled
  have hmem : i.worker ∈ Finset.range p.workerCount :=
    Finset.mem_range.mpr (h.worker_lt henabled)
  have hsame : ∑ n ∈ (Finset.range p.workerCount).erase i.worker,
        ((p.step acquire s i).phase n).weight =
      ∑ n ∈ (Finset.range p.workerCount).erase i.worker, (s.phase n).weight := by
    refine Finset.sum_congr rfl fun n hn => ?_
    rw [hprogress.others n (Finset.ne_of_mem_erase hn)]
  have hcost := hprogress.cost
  unfold cost
  rw [← Finset.add_sum_erase _ _ hmem, ← Finset.add_sum_erase _ _ hmem, hsame]
  omega

/-- The event loop can only do so much. -/
theorem length_le_cost [PyLib] (acquire : Option (ℕ → Except String String)) (inputs : List Input)
    (h : Standing p s) (hmeets : Machine.Meets (p.step acquire) p.Enabled s inputs) :
    inputs.length ≤ p.cost s := by
  induction inputs generalizing s with
  | nil => exact Nat.zero_le _
  | cons i rest ih =>
    have hrest := ih (standing_step acquire h i) hmeets.2
    have hlt := cost_step_lt acquire h hmeets.1
    rw [List.length_cons]
    omega

/-- The workers of a device loop, in any order of their sections and however the bodies end: they
keep their promise in every state, one of them can go on as long as one has not ended, they come to
an end, and unless something is cancelled `execute` then returns. -/
theorem scheduled_run [PyLib] (p : Plan) (acquire : Option (ℕ → Except String String))
    (inputs : List Input) :
    Scheduled p (p.run acquire inputs) ∧
      (p.outcome (p.run acquire inputs) = .pending →
        ∃ i, p.Enabled (p.run acquire inputs) i ∧ ¬ i.Cancels) ∧
      (Machine.Meets (p.step acquire) p.Enabled {} inputs →
        inputs.length ≤ 2 * p.devices.length + p.workerCount) ∧
      ((∀ i ∈ inputs, ¬ i.Cancels) → p.outcome (p.run acquire inputs) ≠ .raised) := by
  have hstanding := standing_run p acquire inputs
  refine ⟨hstanding.scheduled, hstanding.enabled, fun hmeets => ?_, fun hcancels hraised => ?_⟩
  · calc inputs.length ≤ p.cost {} := length_le_cost acquire inputs (standing_initial p) hmeets
      _ = 2 * p.devices.length + p.workerCount := by
        simp [cost, Phase.weight]
  · unfold outcome at hraised
    split at hraised
    · split at hraised
      · rename_i hany
        obtain ⟨n, -, hn⟩ := List.any_eq_true.mp hany
        have hnot := none_raised_run p acquire inputs hcancels n
        cases hphase : (p.run acquire inputs).phase n with
        | ended raised =>
          rw [hphase] at hn hnot
          exact hnot (by rw [show raised = true from hn])
        | _ => rw [hphase] at hn; cases hn
      · cases hraised
    · cases hraised

/-- Two workers and one device, listed twice: the second worker waits for the first. -/
def twice : Plan where
  devices := [.str "r1", .dict [("id", .str " r1 ")]]
  nonempty := by simp
  concurrency := 2
  bounds := by decide
  failureStrategy := "stop"
  strategies := .inl rfl
  actionId := "device.reboot"
  actionSteps := .none

example : (@run twice .atEpoch none [.run 0, .run 1, .wake 1, .finish 0 (.raised "lost"),
    .wake 1]).history = [.started 0, .recorded 0 true] := by
  decide +kernel

end Plan

end DeviceShell.Activity.DeviceForEach
