import Mathlib.Data.List.Basic

/-!
# A lock between tasks

The lock of Python's `asyncio`: a task that finds it taken, or finds others in the queue, queues up
and suspends; giving the lock back wakes the first of the queue, which takes the lock only when it
is resumed. Between the two the lock is free and still nobody else gets it.

`AsyncLock.Guards` relates a lock to the tasks that hold it and to those that wait for it. Each
operation keeps the relation, so that a program only has to say who holds and who waits at each of
its points: no two tasks hold the lock at a time (`Guards.exclusive`), and as long as a task waits,
one can go on (`Guards.runnable`).
-/

namespace DeviceShell

/-- `asyncio.Lock`: the tasks in its queue, of which the first may have been woken. -/
structure AsyncLock where
  locked : Bool := false
  waiters : List ℕ := []
  woken : Bool := false

namespace AsyncLock

/-- `acquire` up to its first suspension: the task has the lock, or stands in the queue. -/
def acquire (l : AsyncLock) (t : ℕ) : AsyncLock × Bool :=
  if l.locked = false ∧ l.waiters = [] then ({ l with locked := true }, true)
  else ({ l with waiters := l.waiters ++ [t] }, false)

/-- `release`. -/
def release (l : AsyncLock) : AsyncLock :=
  { l with locked := false, woken := !l.waiters.isEmpty }

/-- A task may be resumed in `acquire`. -/
def Resumes (l : AsyncLock) (t : ℕ) : Prop := l.woken = true ∧ l.waiters.head? = some t

instance (l : AsyncLock) (t : ℕ) : Decidable (l.Resumes t) :=
  inferInstanceAs (Decidable (_ ∧ _))

/-- The first task of the queue is resumed in `acquire`. -/
def resume (l : AsyncLock) : AsyncLock := { locked := true, waiters := l.waiters.tail }

/-- A task of the queue is cancelled in `acquire`; if the lock is free the next one is woken. -/
def cancel (l : AsyncLock) (t : ℕ) : AsyncLock :=
  let rest := l.waiters.erase t
  { l with waiters := rest, woken := !l.locked && !rest.isEmpty }

/-- Who holds a lock, and who waits for it. -/
structure Guards (l : AsyncLock) (holds waits : ℕ → Prop) : Prop where
  locked : l.locked = true ↔ ∃ t, holds t
  exclusive : ∀ t u, holds t → holds u → t = u
  waiters : ∀ t, t ∈ l.waiters ↔ waits t
  nodup : l.waiters.Nodup
  woken : l.woken = true ↔ l.locked = false ∧ l.waiters ≠ []

/-- A lock that nobody has used. -/
theorem guards_new {holds waits : ℕ → Prop} (hholds : ∀ t, ¬ holds t) (hwaits : ∀ t, ¬ waits t) :
    Guards {} holds waits where
  locked := by simp [hholds]
  exclusive t _ ht := absurd ht (hholds t)
  waiters t := by simp [hwaits]
  nodup := List.nodup_nil
  woken := by simp

variable {l : AsyncLock} {holds waits holds' waits' : ℕ → Prop} {t : ℕ}

/-- The relation only looks at which tasks hold and wait. -/
theorem Guards.congr (h : l.Guards holds waits) (hholds : ∀ t, holds' t ↔ holds t)
    (hwaits : ∀ t, waits' t ↔ waits t) : l.Guards holds' waits' := by
  have hH : holds' = holds := funext fun t => propext (hholds t)
  have hW : waits' = waits := funext fun t => propext (hwaits t)
  rw [hH, hW]
  exact h

/-- The task that got the lock holds it, and nobody held it before. -/
theorem Guards.acquire_taken (h : l.Guards holds waits) (htaken : (l.acquire t).2 = true) :
    (l.acquire t).1.Guards (fun u => u = t ∨ holds u) waits := by
  unfold acquire at htaken ⊢
  by_cases hfree : l.locked = false ∧ l.waiters = []
  · rw [if_pos hfree]
    have hnone : ∀ u, ¬ holds u := by
      intro u hu
      have hlocked := h.locked.mpr ⟨u, hu⟩
      rw [hfree.1] at hlocked
      cases hlocked
    constructor
    · simp
    · rintro u v (rfl | hu) (rfl | hv)
      · rfl
      · exact absurd hv (hnone v)
      · exact absurd hu (hnone u)
      · exact h.exclusive u v hu hv
    · exact h.waiters
    · exact h.nodup
    · -- The queue is empty, so nobody of it has been woken.
      have hwoken := h.woken
      simp only [hfree.2, ne_eq, not_true_eq_false, and_false, iff_false] at hwoken ⊢
      exact hwoken
  · rw [if_neg hfree] at htaken
    cases htaken

/-- A task that did not get the lock waits for it. -/
theorem Guards.acquire_queued (h : l.Guards holds waits) (ht : ¬ waits t)
    (hqueued : (l.acquire t).2 = false) :
    (l.acquire t).1.Guards holds (fun u => u = t ∨ waits u) := by
  unfold acquire at hqueued ⊢
  by_cases hfree : l.locked = false ∧ l.waiters = []
  · rw [if_pos hfree] at hqueued
    cases hqueued
  · rw [if_neg hfree]
    constructor
    · exact h.locked
    · exact h.exclusive
    · intro u
      simp only [List.mem_append, List.mem_singleton, h.waiters u]
      tauto
    · have hnew : t ∉ l.waiters := fun hmem => ht ((h.waiters t).mp hmem)
      rw [List.nodup_append]
      refine ⟨h.nodup, by simp, fun u hu v hv heq => ?_⟩
      rw [List.mem_singleton] at hv
      exact hnew (by rw [← hv, ← heq]; exact hu)
    · have hwoken := h.woken
      simp only [hwoken]
      constructor
      · exact fun hw => ⟨hw.1, by simp⟩
      · exact fun hw => ⟨hw.1, fun hnil => hfree ⟨hw.1, hnil⟩⟩

/-- The task that held the lock has given it back. -/
theorem Guards.release (h : l.Guards holds waits) (ht : holds t) :
    l.release.Guards (fun u => holds u ∧ u ≠ t) waits := by
  have hnone : ∀ u, ¬ (holds u ∧ u ≠ t) := fun u hu => hu.2 (h.exclusive u t hu.1 ht)
  constructor
  · simp only [AsyncLock.release, Bool.false_eq_true, false_iff, not_exists]
    exact hnone
  · exact fun u v hu _ => absurd hu (hnone u)
  · exact h.waiters
  · exact h.nodup
  · simp [AsyncLock.release]

/-- The task that is resumed holds the lock. -/
theorem Guards.resume (h : l.Guards holds waits) (ht : l.Resumes t) :
    l.resume.Guards (fun u => u = t ∨ holds u) (fun u => waits u ∧ u ≠ t) := by
  obtain ⟨hwoken, hhead⟩ := ht
  obtain ⟨rest, hrest⟩ : ∃ rest, l.waiters = t :: rest := List.head?_eq_some_iff.mp hhead
  have hfree := (h.woken.mp hwoken).1
  have hnone : ∀ u, ¬ holds u := by
    intro u hu
    have hlocked := h.locked.mpr ⟨u, hu⟩
    rw [hfree] at hlocked
    cases hlocked
  have hnodup := h.nodup
  rw [hrest, List.nodup_cons] at hnodup
  unfold AsyncLock.resume
  rw [hrest, List.tail_cons]
  constructor
  · simp
  · rintro u v (rfl | hu) (rfl | hv)
    · rfl
    · exact absurd hv (hnone v)
    · exact absurd hu (hnone u)
    · exact h.exclusive u v hu hv
  · intro u
    rw [← h.waiters u, hrest]
    constructor
    · intro hu
      exact ⟨List.mem_cons_of_mem _ hu, fun heq => hnodup.1 (heq ▸ hu)⟩
    · rintro ⟨hu, hne⟩
      exact (List.mem_cons.mp hu).resolve_left hne
  · exact hnodup.2
  · simp

/-- The task that is cancelled no longer waits. -/
theorem Guards.cancel (h : l.Guards holds waits) :
    (l.cancel t).Guards holds (fun u => waits u ∧ u ≠ t) where
  locked := h.locked
  exclusive := h.exclusive
  waiters u := by
    show u ∈ l.waiters.erase t ↔ _
    rw [h.nodup.mem_erase_iff, h.waiters u]
    exact and_comm
  nodup := h.nodup.erase t
  woken := by simp [AsyncLock.cancel]

/-- As long as a task waits, the one that holds the lock or the first of the queue can go on. -/
theorem Guards.runnable (h : l.Guards holds waits) (ht : waits t) :
    (∃ u, holds u) ∨ ∃ u, l.Resumes u ∧ waits u := by
  by_cases hlocked : l.locked = true
  · exact .inl (h.locked.mp hlocked)
  · right
    have hmem := (h.waiters t).mpr ht
    cases hqueue : l.waiters with
    | nil => simp [hqueue] at hmem
    | cons u rest =>
      have hwoken := h.woken.mpr ⟨by simpa using hlocked, by simp [hqueue]⟩
      exact ⟨u, ⟨hwoken, by rw [hqueue]; rfl⟩, (h.waiters u).mp (by simp [hqueue])⟩

end AsyncLock

end DeviceShell
