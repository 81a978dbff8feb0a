import DeviceShell.Transfers.TransferQueue
import Mathlib.Data.List.Dedup

/-!
# What the queues show

In every reachable state the records tell what is in the queues: exactly the operations of a queue are
queued, each shows its position and whether the queue is paused, no other operation shows a position,
and whatever has not ended can be cancelled (`Listed`). A queue that is not paused has a worker as long
as something is in it (`Awake`), so that no operation is forgotten, also when a task ends with an
exception. The steps that change a queue change it in one way: its records are shown anew
(`Listed.requeue`).
-/

namespace DeviceShell.Transfers

/-- What a record shows, in view of the queue of its session and of what is registered to cancel it. -/
def OperationRecord.Consistent (r : OperationRecord) (id : String) (queue : List String)
    (paused : Bool) (canceller : Option Canceller) : Prop :=
  match r.status with
  | .queued => id ∈ queue ∧ r.queuePosition = some (queue.idxOf id + 1) ∧
      r.stage = TransferService.queueStage paused ∧ r.cancellable = true ∧
      canceller = some (.queued r.sessionId)
  | .running => r.queuePosition = none ∧ r.cancellable = true ∧
      canceller = some (.active r.sessionId)
  | _ => r.queuePosition = none

namespace TransferService

variable {s s' : TransferService} {id x : String}

/-- The records show what is in the queues. -/
structure Listed (s : TransferService) : Prop where
  records : ∀ id r, s.records id = some r →
    r.Consistent id (s.queues r.sessionId) (s.paused r.sessionId) (s.cancellers id)
  queued : ∀ x, ∀ id ∈ s.queues x,
    ∃ r, s.records id = some r ∧ r.sessionId = x ∧ r.status = .queued
  nodup : ∀ x, (s.queues x).Nodup

/-- A queue that is not empty and not paused has a worker. -/
def Awake (s : TransferService) : Prop :=
  ∀ x, s.queues x ≠ [] → s.paused x = false → s.workers x ≠ none

/-! ## What steps leave as it was -/

/-- Only records and what is registered to cancel them may differ. -/
structure Frame (s s' : TransferService) : Prop where
  queues : s'.queues = s.queues
  paused : s'.paused = s.paused
  workers : s'.workers = s.workers
  tasks : s'.tasks = s.tasks
  unavailable : s'.unavailable = s.unavailable
  log : s'.log = s.log

theorem Frame.refl (s : TransferService) : Frame s s := ⟨rfl, rfl, rfl, rfl, rfl, rfl⟩

theorem Frame.trans {s₁ s₂ s₃ : TransferService} (h : Frame s₁ s₂) (h' : Frame s₂ s₃) :
    Frame s₁ s₃ :=
  ⟨h'.queues.trans h.queues, h'.paused.trans h.paused, h'.workers.trans h.workers,
    h'.tasks.trans h.tasks, h'.unavailable.trans h.unavailable, h'.log.trans h.log⟩

theorem frame_update (s : TransferService) (id : String) (u : Update) : Frame s (s.update id u) := by
  unfold TransferService.update
  split <;> exact ⟨rfl, rfl, rfl, rfl, rfl, rfl⟩

theorem frame_registerCanceller (s : TransferService) (id : String) (canceller : Canceller) :
    Frame s (s.registerCanceller id canceller) := by
  unfold registerCanceller
  split
  · exact Frame.refl s
  · split
    · exact Frame.refl s
    · exact ⟨rfl, rfl, rfl, rfl, rfl, rfl⟩

theorem frame_markCancelled (s : TransferService) (id : String) : Frame s (s.markCancelled id) := by
  unfold TransferService.markCancelled
  split
  · exact Frame.refl s
  · split
    · exact Frame.refl s
    · exact frame_update s id _

theorem frame_markFailed (s : TransferService) (id code message : String) :
    Frame s (s.markFailed id code message) := by
  unfold TransferService.markFailed
  split
  · exact Frame.refl s
  · split
    · exact Frame.refl s
    · split
      · exact frame_markCancelled s id
      · exact frame_update s id _

theorem frame_updateQueued (u : ℕ → Update) (n : ℕ) (ids : List String) (s : TransferService) :
    Frame s (updateQueued u n ids s) := by
  induction ids generalizing n s with
  | nil => exact Frame.refl s
  | cons id rest ih =>
    refine Frame.trans ?_ (ih (n + 1) _)
    split
    · exact Frame.refl s
    · split
      · exact frame_update s id _
      · exact Frame.refl s

theorem frame_refreshQueuePositions (s : TransferService) (x : String) :
    Frame s (s.refreshQueuePositions x) := frame_updateQueued _ _ _ _

/-- The frame of `launch`. -/
structure LaunchFrame (s s' : TransferService) (id x : String) : Prop where
  queues : s'.queues = s.queues
  paused : s'.paused = s.paused
  workers : s'.workers = Function.update s.workers x (some (.waiting id))
  tasks : s'.tasks = { operationId := id, sessionId := x } :: s.tasks
  log : s'.log = .launched x id :: s.log

theorem frame_launch (s : TransferService) (id x : String) : LaunchFrame s (s.launch id x) id x := by
  let running : Update :=
    { status := some .running
      stage := some "prechecking"
      message := some "正在准备传输。"
      clearQueuePosition := true }
  have hupdate := frame_update s id running
  have hregister := frame_registerCanceller
    { s.update id running with
      tasks := { operationId := id, sessionId := x } :: (s.update id running).tasks } id (.active x)
  refine ⟨hregister.queues.trans hupdate.queues, hregister.paused.trans hupdate.paused, ?_, ?_, ?_⟩
  · exact congrArg (Function.update · x (some (.waiting id)))
      (hregister.workers.trans hupdate.workers)
  · exact hregister.tasks.trans (congrArg _ hupdate.tasks)
  · exact congrArg _ (hregister.log.trans hupdate.log)

/-! ## Updates -/

theorem update_of_some {r : OperationRecord} (h : s.records id = some r) (u : Update) :
    s.update id u = { s with
      records := Function.update s.records id (some (r.update u))
      cancellers := if (r.update u).status.terminal then Function.update s.cancellers id none
        else s.cancellers } := by
  simp only [update, h]

theorem update_of_none (h : s.records id = none) (u : Update) : s.update id u = s := by
  simp only [update, h]

/-- A queued operation that is shown anew. -/
theorem update_of_queued {r : OperationRecord} (h : s.records id = some r) (hr : r.status = .queued)
    {u : Update} (hu : u.status = none) :
    s.update id u = { s with records := Function.update s.records id (some (r.update u)) } := by
  have hstatus : (r.update u).status = .queued := by simp [OperationRecord.update, hu, hr]
  rw [update_of_some h, hstatus]
  rfl

/-- What a loop over a queue does. -/
theorem updateQueued_eq {u : ℕ → Update} (hu : ∀ n, (u n).status = none) {n : ℕ} {ids : List String}
    (hnodup : ids.Nodup) (hqueued : ∀ id ∈ ids, ∃ r, s.records id = some r ∧ r.status = .queued) :
    updateQueued u n ids s = { s with
      records := fun id =>
        if id ∈ ids then (s.records id).map fun r => r.update (u (n + ids.idxOf id))
        else s.records id } := by
  induction ids generalizing n s with
  | nil => simp [updateQueued]
  | cons head rest ih =>
    obtain ⟨hhead, hrest⟩ := List.nodup_cons.1 hnodup
    obtain ⟨r, hr, hstatus⟩ := hqueued head List.mem_cons_self
    rw [updateQueued, hr]
    dsimp only
    rw [if_pos hstatus, update_of_queued hr hstatus (hu n), ih hrest]
    · congr 1
      funext id
      by_cases hid : id = head
      · subst hid
        simp [hhead, hr]
      · by_cases hmem : id ∈ rest
        · have hidx : (head :: rest).idxOf id = rest.idxOf id + 1 := by
            rw [List.idxOf_cons_ne _ (Ne.symm hid)]
          simp [hid, hmem, hidx, Nat.add_assoc, Nat.add_comm 1]
        · simp [hid, hmem]
    · intro id hid
      have hne : id ≠ head := fun heq => hhead (heq ▸ hid)
      simpa [hne] using hqueued id (List.mem_cons_of_mem _ hid)

/-- A record with another position, as `_refresh_queue_positions` shows it. -/
def placed (r : OperationRecord) (position : ℕ) (paused : Bool) : OperationRecord :=
  { r with queuePosition := some position, stage := queueStage paused }

theorem update_eq_placed {r : OperationRecord} (hr : r.status = .queued) (n : ℕ) (paused : Bool) :
    r.update { queuePosition := some (n + 1), stage := some (queueStage paused) } =
      placed r (n + 1) paused := by
  simp [OperationRecord.update, placed, hr, OperationStatus.terminal]

/-- What `_refresh_queue_positions` does. -/
theorem refreshQueuePositions_eq (hnodup : (s.queues x).Nodup)
    (hqueued : ∀ id ∈ s.queues x, ∃ r, s.records id = some r ∧ r.status = .queued) :
    s.refreshQueuePositions x = { s with
      records := fun id =>
        if id ∈ s.queues x then
          (s.records id).map fun r => placed r ((s.queues x).idxOf id + 1) (s.paused x)
        else s.records id } := by
  rw [refreshQueuePositions, updateQueued_eq (fun _ => rfl) hnodup hqueued]
  congr 1
  funext id
  by_cases hid : id ∈ s.queues x
  · obtain ⟨r, hr, hstatus⟩ := hqueued id hid
    rw [if_pos hid, if_pos hid, hr, Option.map_some, Option.map_some, Nat.add_comm 1,
      update_eq_placed hstatus]
  · rw [if_neg hid, if_neg hid]

/-! ## Steps that keep what is shown -/

/-- The queue does not matter to what is not queued. -/
theorem consistent_of_ne {r : OperationRecord} (hr : r.status ≠ .queued) {queue queue' : List String}
    {paused paused' : Bool} {canceller : Option Canceller}
    (h : r.Consistent id queue paused canceller) : r.Consistent id queue' paused' canceller := by
  unfold OperationRecord.Consistent at h ⊢
  cases hstatus : r.status with
  | queued => exact absurd hstatus hr
  | _ => simpa only [hstatus] using h

/-- A position is shown by what is queued only. -/
theorem queuePosition_of_ne {r : OperationRecord} (hr : r.status ≠ .queued) {queue : List String}
    {paused : Bool} {canceller : Option Canceller} (h : r.Consistent id queue paused canceller) :
    r.queuePosition = none := by
  unfold OperationRecord.Consistent at h
  cases hstatus : r.status with
  | queued => exact absurd hstatus hr
  | running =>
    rw [hstatus] at h
    exact h.1
  | _ => simpa only [hstatus] using h

theorem Listed.mem_queue (h : Listed s) {r : OperationRecord} (hr : s.records id = some r)
    (hstatus : r.status = .queued) : id ∈ s.queues r.sessionId := by
  have hshown := h.records id r hr
  rw [OperationRecord.Consistent, hstatus] at hshown
  exact hshown.1

theorem Listed.congr (h : Listed s) (hrecords : s'.records = s.records)
    (hcancellers : s'.cancellers = s.cancellers) (hqueues : s'.queues = s.queues)
    (hpaused : s'.paused = s.paused) : Listed s' := by
  refine ⟨?_, ?_, ?_⟩
  · intro id r hr
    rw [hqueues, hpaused, hcancellers]
    exact h.records id r (hrecords ▸ hr)
  · rw [hqueues, hrecords]
    exact h.queued
  · rw [hqueues]
    exact h.nodup

/-- The queue of a session is shown anew. -/
theorem Listed.requeue (h : Listed s) {q : List String} (hnodup : q.Nodup)
    (hqueues : s'.queues = Function.update s.queues x q)
    (hpaused : ∀ y, y ≠ x → s'.paused y = s.paused y)
    (hin : ∀ id ∈ q, ∃ r, s'.records id = some r ∧ r.sessionId = x ∧ r.status = .queued ∧
      r.Consistent id q (s'.paused x) (s'.cancellers id))
    (hout : ∀ id r, id ∉ q → s'.records id = some r →
      (r.status ≠ .queued ∧ r.Consistent id [] true (s'.cancellers id)) ∨
        (s.records id = some r ∧ s'.cancellers id = s.cancellers id ∧ r.sessionId ≠ x))
    (hother : ∀ y, y ≠ x → ∀ id ∈ s.queues y, s'.records id = s.records id) : Listed s' := by
  refine ⟨?_, ?_, ?_⟩
  · intro id r hr
    by_cases hid : id ∈ q
    · obtain ⟨r', hr', hsession, -, hshown⟩ := hin id hid
      obtain rfl := Option.some.inj (hr.symm.trans hr')
      rw [hsession, hqueues, Function.update_self]
      exact hshown
    · rcases hout id r hid hr with ⟨hstatus, hshown⟩ | ⟨hr', hcanceller, hsession⟩
      · exact consistent_of_ne hstatus hshown
      · rw [hqueues, Function.update_of_ne hsession, hpaused _ hsession, hcanceller]
        exact h.records id r hr'
  · intro y id hid
    rw [hqueues] at hid
    by_cases hy : y = x
    · subst hy
      rw [Function.update_self] at hid
      obtain ⟨r, hr, hsession, hstatus, -⟩ := hin id hid
      exact ⟨r, hr, hsession, hstatus⟩
    · rw [Function.update_of_ne hy] at hid
      rw [hother y hy id hid]
      exact h.queued y id hid
  · intro y
    rw [hqueues]
    by_cases hy : y = x
    · subst hy
      rwa [Function.update_self]
    · rw [Function.update_of_ne hy]
      exact h.nodup y

/-- The records of a queue are changed, and the session is paused or not. -/
theorem Listed.reshow (h : Listed s) {paused : Bool} {f : ℕ → OperationRecord → OperationRecord}
    (hf : ∀ n r, r.status = .queued → r.queuePosition = some (n + 1) → r.cancellable = true →
      (f n r).sessionId = r.sessionId ∧ (f n r).status = .queued ∧
        (f n r).queuePosition = some (n + 1) ∧ (f n r).stage = queueStage paused ∧
        (f n r).cancellable = true)
    (hrecords : s'.records = fun id => if id ∈ s.queues x then
      (s.records id).map (f ((s.queues x).idxOf id)) else s.records id)
    (hcancellers : s'.cancellers = s.cancellers) (hqueues : s'.queues = s.queues)
    (hpaused : s'.paused = Function.update s.paused x paused) : Listed s' := by
  refine h.requeue (h.nodup x) (hqueues.trans (Function.update_eq_self x s.queues).symm) ?_ ?_ ?_ ?_
  · intro y hy
    rw [hpaused, Function.update_of_ne hy]
  · intro id hid
    obtain ⟨r, hr, hsession, hstatus⟩ := h.queued x id hid
    have hshown := h.records id r hr
    rw [OperationRecord.Consistent, hstatus] at hshown
    obtain ⟨-, hposition, -, hcancellable, hcanceller⟩ := hshown
    rw [hsession] at hposition
    obtain ⟨hsession', hstatus', hposition', hstage', hcancellable'⟩ :=
      hf _ r hstatus hposition hcancellable
    refine ⟨f ((s.queues x).idxOf id) r, ?_, hsession'.trans hsession, hstatus', ?_⟩
    · rw [hrecords]
      simp [hid, hr]
    · rw [OperationRecord.Consistent, hstatus', hpaused, Function.update_self, hcancellers,
        hsession']
      exact ⟨hid, hposition', hstage', hcancellable', hcanceller⟩
  · intro id r hid hr
    have hr' : s.records id = some r := by simpa [hrecords, hid] using hr
    by_cases hsession : r.sessionId = x
    · have hstatus : r.status ≠ .queued := fun hstatus => hid (hsession ▸ h.mem_queue hr' hstatus)
      rw [hcancellers]
      exact .inl ⟨hstatus, consistent_of_ne hstatus (h.records id r hr')⟩
    · exact .inr ⟨hr', congrFun hcancellers id, hsession⟩
  · intro y hy id hid
    have hnot : id ∉ s.queues x := by
      intro hx
      obtain ⟨r, hr, hsession, -⟩ := h.queued x id hx
      obtain ⟨r', hr', hsession', -⟩ := h.queued y id hid
      obtain rfl := Option.some.inj (hr.symm.trans hr')
      exact hy (hsession'.symm.trans hsession)
    simp [hrecords, hnot]

/-- An operation leaves the queue of its session. -/
theorem Listed.leave (h : Listed s) (hmem : id ∈ s.queues x) {closed : OperationRecord}
    (hstatus : closed.status ≠ .queued) (hshown : closed.Consistent id [] true (s'.cancellers id))
    (hrecords : s'.records = fun j =>
      if j = id then some closed
      else if j ∈ (s.queues x).erase id then
        (s.records j).map fun r => placed r (((s.queues x).erase id).idxOf j + 1) (s.paused x)
      else s.records j)
    (hcancellers : ∀ j, j ≠ id → s'.cancellers j = s.cancellers j)
    (hqueues : s'.queues = Function.update s.queues x ((s.queues x).erase id))
    (hpaused : s'.paused = s.paused) : Listed s' := by
  have hmemErase : ∀ {j}, j ∈ (s.queues x).erase id ↔ j ≠ id ∧ j ∈ s.queues x := fun {j} =>
    (h.nodup x).mem_erase_iff
  refine h.requeue ((h.nodup x).erase id) hqueues (fun y _ => congrFun hpaused y) ?_ ?_ ?_
  · intro j hj
    obtain ⟨hne, hjx⟩ := hmemErase.1 hj
    obtain ⟨r, hr, hsession, hqueued⟩ := h.queued x j hjx
    have hold := h.records j r hr
    rw [OperationRecord.Consistent, hqueued] at hold
    obtain ⟨-, -, -, hcancellable, hcanceller⟩ := hold
    refine ⟨placed r (((s.queues x).erase id).idxOf j + 1) (s.paused x), ?_, hsession, hqueued, ?_⟩
    · simp [hrecords, hne, hj, hr]
    · rw [OperationRecord.Consistent, placed, hqueued, hpaused, hcancellers j hne]
      exact ⟨hj, rfl, rfl, hcancellable, hcanceller⟩
  · intro j r hj hr
    by_cases heq : j = id
    · subst heq
      obtain rfl : closed = r := by simpa [hrecords] using hr
      exact .inl ⟨hstatus, hshown⟩
    · have hr' : s.records j = some r := by simpa [hrecords, heq, hj] using hr
      by_cases hsession : r.sessionId = x
      · have hnot : r.status ≠ .queued := fun hqueued =>
          hj (hmemErase.2 ⟨heq, hsession ▸ h.mem_queue hr' hqueued⟩)
        rw [hcancellers j heq]
        exact .inl ⟨hnot, consistent_of_ne hnot (h.records j r hr')⟩
      · exact .inr ⟨hr', hcancellers j heq, hsession⟩
  · intro y hy j hj
    have hnot : j ∉ s.queues x := by
      intro hx
      obtain ⟨r, hr, hsession, -⟩ := h.queued x j hx
      obtain ⟨r', hr', hsession', -⟩ := h.queued y j hj
      obtain rfl := Option.some.inj (hr.symm.trans hr')
      exact hy (hsession'.symm.trans hsession)
    have hne : j ≠ id := fun heq => hnot (heq ▸ hmem)
    simp [hrecords, hne, hmemErase, hnot]

/-- An operation that is not queued is shown otherwise. -/
theorem Listed.change (h : Listed s) {r changed : OperationRecord} (hr : s.records id = some r)
    (hqueued : r.status ≠ .queued) (hstatus : changed.status ≠ .queued)
    (hshown : changed.Consistent id [] true (s'.cancellers id))
    (hrecords : s'.records = Function.update s.records id (some changed))
    (hcancellers : ∀ j, j ≠ id → s'.cancellers j = s.cancellers j)
    (hqueues : s'.queues = s.queues) (hpaused : s'.paused = s.paused) : Listed s' := by
  refine ⟨?_, ?_, ?_⟩
  · intro j r' hr'
    by_cases heq : j = id
    · subst heq
      rw [hrecords, Function.update_self] at hr'
      obtain rfl := Option.some.inj hr'
      exact consistent_of_ne hstatus hshown
    · rw [hrecords, Function.update_of_ne heq] at hr'
      rw [hqueues, hpaused, hcancellers j heq]
      exact h.records j r' hr'
  · intro y j hj
    rw [hqueues] at hj
    obtain ⟨r', hr', hsession, hstatus'⟩ := h.queued y j hj
    have hne : j ≠ id := by
      rintro rfl
      obtain rfl := Option.some.inj (hr.symm.trans hr')
      exact hqueued hstatus'
    rw [hrecords, Function.update_of_ne hne]
    exact ⟨r', hr', hsession, hstatus'⟩
  · rw [hqueues]
    exact h.nodup

/-- `update` of an operation that is not queued, to a status that is final or to none. -/
theorem Listed.update (h : Listed s) {u : Update} (hposition : u.queuePosition = none)
    (hu : ∀ status, u.status = some status → status.terminal = true)
    (hnot : ∀ r, s.records id = some r → r.status ≠ .queued) : Listed (s.update id u) := by
  cases hr : s.records id with
  | none =>
    rw [update_of_none hr]
    exact h
  | some r =>
    have hshown := h.records id r hr
    have hnone : (r.update u).queuePosition = none := by
      have hold : r.queuePosition = none := queuePosition_of_ne (hnot r hr) hshown
      simp [OperationRecord.update, hposition, hold]
    rw [update_of_some hr]
    refine h.change hr (hnot r hr) (?_ : (r.update u).status ≠ .queued) ?_ rfl ?_ rfl rfl
    · cases hstatus : u.status with
      | none => simpa [OperationRecord.update, hstatus] using hnot r hr
      | some status =>
        intro hqueued
        have hsame : status = .queued := by simpa [OperationRecord.update, hstatus] using hqueued
        exact absurd (hsame ▸ hu status hstatus) (by decide)
    · by_cases hterminal : (r.update u).status.terminal = true
      · unfold OperationRecord.Consistent
        cases hstatus : (r.update u).status with
        | queued => exact absurd (hstatus ▸ hterminal) (by decide)
        | running => exact absurd (hstatus ▸ hterminal) (by decide)
        | _ => exact hnone
      · -- It runs, as before.
        have hkept : u.status = none := by
          cases hstatus : u.status with
          | none => rfl
          | some status =>
            refine absurd ?_ hterminal
            simpa [OperationRecord.update, hstatus] using hu status hstatus
        have hstatus : (r.update u).status = r.status := by simp [OperationRecord.update, hkept]
        have hrunning : r.status = .running := by
          have hopen : r.status.terminal = false := by simpa [hstatus] using hterminal
          cases hcase : r.status with
          | running => rfl
          | queued => exact absurd hcase (hnot r hr)
          | _ => exact absurd (hcase ▸ hopen) (by decide)
        rw [OperationRecord.Consistent, hrunning] at hshown
        rw [OperationRecord.Consistent, hstatus, hrunning, if_neg (by decide)]
        refine ⟨hnone, ?_, hshown.2.2⟩
        simp [OperationRecord.update, hkept, hrunning, hshown.2.1, OperationStatus.terminal]
    · intro j hj
      split
      · exact Function.update_of_ne hj _ _
      · rfl

theorem Listed.markCancelled (h : Listed s)
    (hnot : ∀ r, s.records id = some r → r.status ≠ .queued) : Listed (s.markCancelled id) := by
  unfold TransferService.markCancelled
  split
  · exact h
  · split
    · exact h
    · refine h.update rfl (fun status hstatus => ?_) hnot
      obtain rfl := Option.some.inj hstatus
      rfl

theorem Listed.markFailed (h : Listed s) {code message : String}
    (hnot : ∀ r, s.records id = some r → r.status ≠ .queued) :
    Listed (s.markFailed id code message) := by
  unfold TransferService.markFailed
  split
  · exact h
  · split
    · exact h
    · split
      · exact h.markCancelled hnot
      · refine h.update rfl (fun status hstatus => ?_) hnot
        obtain rfl := Option.some.inj hstatus
        rfl

/-! ## Workers -/

/-- All queues but one have their worker. -/
def AwakeBut (s : TransferService) (x : String) : Prop :=
  ∀ y, y ≠ x → s.queues y ≠ [] → s.paused y = false → s.workers y ≠ none

theorem Awake.but (h : Awake s) (x : String) : AwakeBut s x := fun y _ => h y

theorem AwakeBut.congr (h : AwakeBut s x) (hqueues : ∀ y, y ≠ x → s'.queues y = s.queues y)
    (hpaused : ∀ y, y ≠ x → s'.paused y = s.paused y)
    (hworkers : ∀ y, y ≠ x → s'.workers y = s.workers y) : AwakeBut s' x := by
  intro y hy
  rw [hqueues y hy, hpaused y hy, hworkers y hy]
  exact h y hy

theorem Listed.ensureWorker (h : Listed s) : Listed (s.ensureWorker x) := by
  unfold TransferService.ensureWorker
  split
  · exact h
  · exact h.congr rfl rfl rfl rfl

theorem AwakeBut.ensureWorker (h : AwakeBut s x) : Awake (s.ensureWorker x) := by
  intro y
  by_cases hy : y = x
  · subst hy
    unfold TransferService.ensureWorker
    split
    · next hnone =>
      intro _ hpaused
      rcases hnone with hp | hworker
      · rw [hp] at hpaused
        cases hpaused
      · exact hworker
    · intro _ _
      simp [setWorker]
  · unfold TransferService.ensureWorker
    split
    · exact h y hy
    · simpa [setWorker, hy] using h y hy

theorem Listed.finishWorker (h : Listed s) : Listed (s.finishWorker x) := by
  unfold TransferService.finishWorker
  have hset : Listed (s.setWorker x none) := h.congr rfl rfl rfl rfl
  dsimp only
  split
  · exact hset
  · exact hset.ensureWorker

theorem AwakeBut.finishWorker (h : AwakeBut s x) : Awake (s.finishWorker x) := by
  have hset : AwakeBut (s.setWorker x none) x :=
    h.congr (fun _ _ => rfl) (fun _ _ => rfl) fun y hy => Function.update_of_ne hy _ _
  unfold TransferService.finishWorker
  dsimp only
  split
  · next hempty =>
    intro y
    by_cases hy : y = x
    · subst hy
      exact fun hne => absurd hempty hne
    · exact hset y hy
  · exact hset.ensureWorker

/-! ## The loop of the worker -/

/-- The state in which the first operation of a queue has been taken from it. -/
theorem popped_eq (h : Listed s) {rest : List String} (hqueue : s.queues x = id :: rest) :
    (s.setQueue x rest).refreshQueuePositions x = { s with
      queues := Function.update s.queues x rest
      records := fun j =>
        if j ∈ rest then (s.records j).map fun r => placed r (rest.idxOf j + 1) (s.paused x)
        else s.records j } := by
  have hnodup : (id :: rest).Nodup := hqueue ▸ h.nodup x
  have hset : (s.setQueue x rest).queues x = rest := Function.update_self _ _ _
  rw [refreshQueuePositions_eq]
  · rw [hset]
    rfl
  · rw [hset]
    exact (List.nodup_cons.1 hnodup).2
  · rw [hset]
    intro j hj
    obtain ⟨r, hr, -, hstatus⟩ := h.queued x j (hqueue ▸ List.mem_cons_of_mem _ hj)
    exact ⟨r, hr, hstatus⟩

/-- What the first operation of a queue shows. -/
theorem Listed.head (h : Listed s) {rest : List String} (hqueue : s.queues x = id :: rest) :
    ∃ r, s.records id = some r ∧ r.sessionId = x ∧ r.status = .queued ∧ r.cancellable = true ∧
      id ∉ rest := by
  have hnodup : (id :: rest).Nodup := hqueue ▸ h.nodup x
  obtain ⟨r, hr, hsession, hstatus⟩ := h.queued x id (hqueue ▸ List.mem_cons_self)
  have hshown := h.records id r hr
  rw [OperationRecord.Consistent, hstatus] at hshown
  exact ⟨r, hr, hsession, hstatus, hshown.2.2.2.1, (List.nodup_cons.1 hnodup).1⟩

/-- An operation is made a task. -/
theorem Listed.launch (h : Listed s) {rest : List String} (hqueue : s.queues x = id :: rest) :
    Listed (((s.setQueue x rest).refreshQueuePositions x).launch id x) := by
  obtain ⟨r, hr, hsession, hstatus, hcancellable, hnot⟩ := h.head hqueue
  have hmem : id ∈ s.queues x := hqueue ▸ List.mem_cons_self
  have herase : (s.queues x).erase id = rest := by rw [hqueue, List.erase_cons_head]
  let started : OperationRecord := r.update {
    status := some .running
    stage := some "prechecking"
    message := some "正在准备传输。"
    clearQueuePosition := true }
  rw [popped_eq h hqueue]
  unfold TransferService.launch
  rw [update_of_some (r := r) (by simp [hnot, hr])]
  have hrunning : started.status = .running := rfl
  have hstarted : started.status ≠ .queued := by rw [hrunning]; decide
  refine h.leave hmem hstarted ?_ ?_ ?_ ?_ ?_
  all_goals simp only [registerCanceller, Function.update_self, setWorker, record]
  · rw [OperationRecord.Consistent, hrunning]
    refine ⟨rfl, ?_, ?_⟩
    · simp [started, OperationRecord.update, hcancellable, OperationStatus.terminal]
    · simp [OperationRecord.update, OperationStatus.terminal, started, hsession]
  · rw [herase]
    funext j
    by_cases hj : j = id
    · subst hj
      simp [OperationRecord.update, OperationStatus.terminal, started]
    · simp [OperationRecord.update, OperationStatus.terminal, hj]
  · intro j hj
    simp [OperationRecord.update, OperationStatus.terminal, hj]
  · rw [herase]
    simp [OperationRecord.update, OperationStatus.terminal]
  · simp [OperationRecord.update, OperationStatus.terminal]

/-- An operation whose session is lost leaves the queue. -/
theorem Listed.drop (h : Listed s) {rest : List String} (hqueue : s.queues x = id :: rest)
    (message : String) (e : QueueEvent) :
    Listed ((((s.setQueue x rest).refreshQueuePositions x).markFailed id "session_unavailable"
      message).record e) := by
  obtain ⟨r, hr, hsession, hstatus, hcancellable, hnot⟩ := h.head hqueue
  have hmem : id ∈ s.queues x := hqueue ▸ List.mem_cons_self
  have herase : (s.queues x).erase id = rest := by rw [hqueue, List.erase_cons_head]
  let failed : OperationRecord := r.update {
    status := some .failed
    stage := some r.stage
    message := some message
    clearQueuePosition := true
    errorCode := some "session_unavailable" }
  have hfailed : failed.status = .failed := rfl
  have hopen : r.status.terminal = false := by rw [hstatus]; rfl
  rw [popped_eq h hqueue]
  unfold TransferService.markFailed
  simp only [hnot, if_false, hr, hopen, Bool.false_eq_true]
  rw [if_neg (by decide), update_of_some (r := r) (by simp [hnot, hr])]
  have hclosed : failed.status ≠ .queued := by rw [hfailed]; decide
  refine h.leave hmem hclosed ?_ ?_ ?_ ?_ rfl
  · rw [OperationRecord.Consistent, hfailed]
    rfl
  · rw [herase]
    funext j
    by_cases hj : j = id
    · subst hj
      simp [TransferService.record, failed]
    · simp [TransferService.record, hj]
  · intro j hj
    simp [TransferService.record, OperationRecord.update, OperationStatus.terminal, hj]
  · rw [herase]
    rfl

theorem drain_shown {ids : List String} (h : Listed s) (hqueue : s.queues x = ids)
    (hawake : AwakeBut s x) : Listed (drain x ids s) ∧ Awake (drain x ids s) := by
  induction ids generalizing s with
  | nil => exact ⟨h.finishWorker, hawake.finishWorker⟩
  | cons id rest ih =>
    obtain ⟨r, hr, -, hstatus, -, hnot⟩ := h.head hqueue
    have hframe : Frame (s.setQueue x rest) ((s.setQueue x rest).refreshQueuePositions x) :=
      frame_refreshQueuePositions _ _
    have hpopped : ((s.setQueue x rest).refreshQueuePositions x).records id = some r := by
      rw [popped_eq h hqueue]
      simp [hnot, hr]
    have hawake' : AwakeBut ((s.setQueue x rest).refreshQueuePositions x) x :=
      hawake.congr
        (fun y hy => by rw [hframe.queues]; exact Function.update_of_ne hy _ _)
        (fun y _ => by rw [hframe.paused]; rfl) (fun y _ => by rw [hframe.workers]; rfl)
    rw [drain]
    simp only [hpopped, hstatus, ne_eq, not_true_eq_false, if_false]
    split
    · next message _ =>
      have hfailed := frame_markFailed ((s.setQueue x rest).refreshQueuePositions x) id
        "session_unavailable" message
      refine ih (h.drop hqueue message _) ?_ ?_
      · change (markFailed _ _ _ _).queues x = rest
        rw [hfailed.queues, hframe.queues]
        exact Function.update_self _ _ _
      · exact hawake'.congr (fun y _ => congrFun hfailed.queues y)
          (fun y _ => congrFun hfailed.paused y) (fun y _ => congrFun hfailed.workers y)
    · refine ⟨h.launch hqueue, fun y => ?_⟩
      have hlaunch := frame_launch ((s.setQueue x rest).refreshQueuePositions x) id x
      by_cases hy : y = x
      · subst hy
        intro _ _
        rw [hlaunch.workers, Function.update_self]
        exact Option.some_ne_none _
      · rw [hlaunch.queues, hlaunch.paused, hlaunch.workers, Function.update_of_ne hy]
        exact hawake' y hy

theorem resumeLoop_shown (h : Listed s) (hawake : AwakeBut s x) :
    Listed (s.resumeLoop x) ∧ Awake (s.resumeLoop x) := by
  unfold resumeLoop
  split
  · exact ⟨h.finishWorker, hawake.finishWorker⟩
  · exact drain_shown h rfl hawake

theorem runWorker_shown (h : Listed s) (hawake : Awake s) :
    Listed (s.runWorker x) ∧ Awake (s.runWorker x) := by
  unfold runWorker
  split
  · exact ⟨h, hawake⟩
  · exact resumeLoop_shown h (hawake.but x)
  · split
    · exact ⟨h, hawake⟩
    · split
      · dsimp only
        have hset : ∀ tasks, Listed (setWorker { s with tasks := tasks } x (some .ready)) :=
          fun _ => h.congr rfl rfl rfl rfl
        have hawake' : ∀ tasks, AwakeBut (setWorker { s with tasks := tasks } x (some .ready)) x :=
          fun _ => (hawake.but x).congr (fun _ _ => rfl) (fun _ _ => rfl)
            fun y hy => Function.update_of_ne hy _ _
        split
        · exact ⟨(hset _).finishWorker, (hawake' _).finishWorker⟩
        · exact resumeLoop_shown (hset _) (hawake' _)
      · exact ⟨h, hawake⟩

/-! ## New operations -/

theorem start_shown (h : Listed s) (hawake : Awake s) (hnew : s.records id = none) :
    Listed (s.start id x) ∧ Awake (s.start id x) := by
  have hnot : ∀ y, id ∉ s.queues y := by
    intro y hid
    obtain ⟨r, hr, -⟩ := h.queued y id hid
    rw [hnew] at hr
    cases hr
  unfold TransferService.start
  split
  · exact ⟨h, hawake⟩
  · let created : OperationRecord :=
      { sessionId := x, status := .queued, stage := "queued", message := "文件传输已加入队列。" }
    -- The state before the positions are refreshed.
    let listed : TransferService := { s with
      records := Function.update s.records id (some created)
      cancellers := Function.update s.cancellers id (some (.queued x))
      queues := Function.update s.queues x (s.queues x ++ [id])
      log := .enqueued x id :: s.log }
    have hlisted : (registerCanceller (record (setQueue { s with
          records := Function.update s.records id (some created) } x (s.queues x ++ [id]))
        (.enqueued x id)) id (.queued x)) = listed := by
      simp [registerCanceller, record, setQueue, created, OperationStatus.terminal, listed]
    have hnodup : (s.queues x ++ [id]).Nodup :=
      List.nodup_append.2 ⟨h.nodup x, List.pairwise_singleton _ _, fun a ha b hb => by
        rw [List.mem_singleton.1 hb]
        exact fun heq => hnot x (heq ▸ ha)⟩
    have hqueue : listed.queues x = s.queues x ++ [id] := Function.update_self _ _ _
    have hrecord : ∀ {j}, j ≠ id → listed.records j = s.records j := fun hj =>
      Function.update_of_ne hj _ _
    have hqueued : ∀ j ∈ listed.queues x, ∃ r, listed.records j = some r ∧ r.sessionId = x ∧
        r.status = .queued ∧ r.cancellable = true ∧ listed.cancellers j = some (.queued x) := by
      rw [hqueue]
      intro j hj
      rcases List.mem_append.1 hj with hj | hj
      · obtain ⟨r, hr, hsession, hstatus⟩ := h.queued x j hj
        have hshown := h.records j r hr
        rw [OperationRecord.Consistent, hstatus, hsession] at hshown
        have hne : j ≠ id := fun heq => hnot x (heq ▸ hj)
        exact ⟨r, (hrecord hne).trans hr, hsession, hstatus, hshown.2.2.2.1,
          (Function.update_of_ne hne _ _).trans hshown.2.2.2.2⟩
      · obtain rfl := List.mem_singleton.1 hj
        exact ⟨created, Function.update_self _ _ _, rfl, rfl, rfl, Function.update_self _ _ _⟩
    have hrefreshed := refreshQueuePositions_eq (s := listed) (x := x) (hqueue ▸ hnodup)
      fun j hj => (hqueued j hj).imp fun r hr => ⟨hr.1, hr.2.2.1⟩
    have hframe := frame_refreshQueuePositions listed x
    have hshown : Listed (listed.refreshQueuePositions x) := by
      refine h.requeue hnodup hframe.queues (fun y _ => congrFun hframe.paused y) ?_ ?_ ?_
      · intro j hj
        obtain ⟨r, hr, hsession, hstatus, hcancellable, hcanceller⟩ := hqueued j (hqueue ▸ hj)
        rw [hrefreshed]
        refine ⟨placed r ((s.queues x ++ [id]).idxOf j + 1) (s.paused x), ?_, hsession, hstatus, ?_⟩
        · simp only [hqueue, if_pos hj, hr, Option.map_some]
          rfl
        · rw [OperationRecord.Consistent, placed, hstatus]
          exact ⟨hj, rfl, rfl, hcancellable, hcanceller.trans (by rw [← hsession])⟩
      · intro j r hj hr
        have hne : j ≠ id := fun heq => hj (by simp [heq])
        have hr' : s.records j = some r := by
          rw [hrefreshed] at hr
          simpa only [hqueue, if_neg hj, hrecord hne] using hr
        have hcanceller : (listed.refreshQueuePositions x).cancellers j = s.cancellers j := by
          rw [hrefreshed]
          exact Function.update_of_ne hne _ _
        by_cases hsession : r.sessionId = x
        · have hstatus : r.status ≠ .queued := fun hstatus =>
            hj (List.mem_append_left _ (hsession ▸ h.mem_queue hr' hstatus))
          rw [hcanceller]
          exact .inl ⟨hstatus, consistent_of_ne hstatus (h.records j r hr')⟩
        · exact .inr ⟨hr', hcanceller, hsession⟩
      · intro y hy j hj
        have hne : j ≠ id := fun heq => hnot y (heq ▸ hj)
        have hx : j ∉ s.queues x := by
          intro hx
          obtain ⟨r, hr, hsession, -⟩ := h.queued x j hx
          obtain ⟨r', hr', hsession', -⟩ := h.queued y j hj
          obtain rfl := Option.some.inj (hr.symm.trans hr')
          exact hy (hsession'.symm.trans hsession)
        rw [hrefreshed]
        simp only [hqueue]
        rw [if_neg (by simp [hx, hne]), hrecord hne]
    have hawake' : AwakeBut (listed.refreshQueuePositions x) x :=
      (hawake.but x).congr
        (fun y hy => (congrFun hframe.queues y).trans (Function.update_of_ne hy _ _))
        (fun y _ => congrFun hframe.paused y) fun y _ => congrFun hframe.workers y
    have henqueue : enqueue { s with records := Function.update s.records id (some created) } id x =
        (listed.refreshQueuePositions x).ensureWorker x := by
      unfold enqueue
      exact congrArg (fun t => (refreshQueuePositions t x).ensureWorker x) hlisted
    rw [henqueue]
    exact ⟨hshown.ensureWorker, hawake'.ensureWorker⟩

/-! ## Pausing and resuming -/

/-- What a loop over the queue of a session shows. -/
theorem Listed.updateQueued (h : Listed s) {u : ℕ → Update} {paused : Bool}
    (hstatus : ∀ n, (u n).status = none)
    (hposition : ∀ n, (u n).clearQueuePosition = false ∧
      ((u n).queuePosition = none ∨ (u n).queuePosition = some n))
    (hstage : ∀ n, (u n).stage = some (queueStage paused)) :
    Listed (updateQueued u 1 (s.queues x)
      { s with paused := Function.update s.paused x paused }) := by
  rw [updateQueued_eq (s := { s with paused := Function.update s.paused x paused }) hstatus
    (h.nodup x) fun id hid => (h.queued x id hid).imp fun r hr => ⟨hr.1, hr.2.2⟩]
  refine h.reshow (f := fun n r => r.update (u (1 + n))) ?_ rfl rfl rfl rfl
  intro n r hqueued hold hcancellable
  have hnext : (u (1 + n)).queuePosition = none ∨ (u (1 + n)).queuePosition = some (n + 1) :=
    Nat.add_comm 1 n ▸ (hposition (1 + n)).2
  refine ⟨rfl, ?_, ?_, ?_, ?_⟩
  · simp [OperationRecord.update, hstatus, hqueued]
  · rcases hnext with hnone | hsome
    · simp [OperationRecord.update, (hposition _).1, hnone, hold]
    · simp [OperationRecord.update, (hposition _).1, hsome]
  · simp [OperationRecord.update, hstage]
  · simp [OperationRecord.update, hstatus, hqueued, hcancellable, OperationStatus.terminal]

theorem Listed.refresh (h : Listed s) : Listed (s.refreshQueuePositions x) := by
  have hsame : { s with paused := Function.update s.paused x (s.paused x) } = s := by
    rw [Function.update_eq_self]
  have hshown : Listed (TransferService.updateQueued (fun position =>
      { queuePosition := some position, stage := some (queueStage (s.paused x)) })
      1 (s.queues x) { s with paused := Function.update s.paused x (s.paused x) }) :=
    h.updateQueued (fun _ => rfl) (fun _ => ⟨rfl, .inr rfl⟩) (fun _ => rfl)
  rwa [hsame] at hshown

theorem pauseQueueForTakeover_shown (h : Listed s) (hawake : Awake s) :
    Listed (s.pauseQueueForTakeover x) ∧ Awake (s.pauseQueueForTakeover x) := by
  have hframe := frame_updateQueued (fun _ =>
      { stage := some "paused", message := some "手工输入已接管终端，队列暂停。" })
    1 (s.queues x) { s with paused := Function.update s.paused x true }
  refine ⟨h.updateQueued (fun _ => rfl) (fun _ => ⟨rfl, .inl rfl⟩) (fun _ => rfl), fun y => ?_⟩
  unfold pauseQueueForTakeover
  rw [hframe.queues, hframe.paused, hframe.workers]
  dsimp only
  by_cases hy : y = x
  · subst hy
    simp
  · rw [Function.update_of_ne hy]
    exact hawake y

theorem resumeQueue_shown (h : Listed s) (hawake : Awake s) :
    Listed (s.resumeQueue x) ∧ Awake (s.resumeQueue x) := by
  unfold TransferService.resumeQueue
  split
  · exact ⟨h, hawake⟩
  · let resumed := TransferService.updateQueued (fun _ =>
        { stage := some "queued", message := some "文件传输等待执行。" }) 1 (s.queues x)
      { s with paused := Function.update s.paused x false }
    have hshown : Listed resumed :=
      h.updateQueued (fun _ => rfl) (fun _ => ⟨rfl, .inl rfl⟩) (fun _ => rfl)
    have hframe : Frame { s with paused := Function.update s.paused x false } resumed :=
      frame_updateQueued _ _ _ _
    have hrefresh := frame_refreshQueuePositions resumed x
    have hbut : AwakeBut (resumed.refreshQueuePositions x) x :=
      (hawake.but x).congr
        (fun y _ => (congrFun hrefresh.queues y).trans (congrFun hframe.queues y))
        (fun y hy => (congrFun hrefresh.paused y).trans
          ((congrFun hframe.paused y).trans (Function.update_of_ne hy _ _)))
        fun y _ => (congrFun hrefresh.workers y).trans (congrFun hframe.workers y)
    exact ⟨hshown.refresh.ensureWorker, hbut.ensureWorker⟩

/-! ## Cancelling -/

/-- A queued operation is cancelled. -/
theorem cancelQueued_shown (h : Listed s) (hawake : Awake s) (hmem : id ∈ s.queues x) :
    Listed (s.cancelQueued id x) ∧ Awake (s.cancelQueued id x) ∧
      (s.cancelQueued id x).queues = Function.update s.queues x ((s.queues x).erase id) ∧
      ∀ r, (s.cancelQueued id x).records id = some r → r.status ≠ .queued := by
  obtain ⟨r, hr, -, hstatus⟩ := h.queued x id hmem
  let cancelled : Update :=
    { status := some .cancelled
      stage := some "cancelled"
      message := some "文件传输已取消。"
      clearQueuePosition := true
      errorCode := some "transfer_cancelled" }
  -- The state before the positions are refreshed.
  let left : TransferService := { s with
    queues := Function.update s.queues x ((s.queues x).erase id)
    records := Function.update s.records id (some (r.update cancelled))
    cancellers := Function.update s.cancellers id none
    log := .dropped x id :: s.log }
  have hleft : s.cancelQueued id x = left.refreshQueuePositions x := by
    have hopen : r.status.terminal = false := by rw [hstatus]; rfl
    simp only [cancelQueued, hmem, if_true, TransferService.markCancelled, record, setQueue, hr,
      hopen, Bool.false_eq_true, if_false]
    rw [update_of_some (s := { s with
      queues := Function.update s.queues x ((s.queues x).erase id)
      log := .dropped x id :: s.log }) (r := r) hr]
    rfl
  have hqueue : left.queues x = (s.queues x).erase id := Function.update_self _ _ _
  have hne : ∀ j ∈ left.queues x, j ≠ id := by
    rw [hqueue]
    exact fun j hj => ((h.nodup x).mem_erase_iff.1 hj).1
  have hrefreshed := refreshQueuePositions_eq (s := left) (x := x)
    (hqueue ▸ (h.nodup x).erase id) (by
      intro j hj
      have hne := hne j hj
      rw [hqueue] at hj
      obtain ⟨r', hr', -, hstatus'⟩ := h.queued x j (List.mem_of_mem_erase hj)
      exact ⟨r', (Function.update_of_ne hne _ _).trans hr', hstatus'⟩)
  have hframe := frame_refreshQueuePositions left x
  have hid : id ∉ left.queues x := fun hmem => hne id hmem rfl
  have hrecord : (left.refreshQueuePositions x).records id = some (r.update cancelled) := by
    rw [hrefreshed]
    simp only [if_neg hid]
    exact Function.update_self _ _ _
  have hclosed : (r.update cancelled).status = .cancelled := rfl
  rw [hleft]
  refine ⟨?_, ?_, hframe.queues, ?_⟩
  · have hended : (r.update cancelled).status ≠ .queued := by rw [hclosed]; decide
    refine h.leave hmem hended ?_ ?_ ?_ hframe.queues hframe.paused
    · rw [OperationRecord.Consistent, hclosed]
      rfl
    · rw [hrefreshed]
      funext j
      by_cases hj : j = id
      · subst hj
        simp only [if_neg hid]
        exact Function.update_self _ _ _
      · simp only [if_neg hj, left, Function.update_of_ne hj, Function.update_self]
    · intro j hj
      rw [hrefreshed]
      exact Function.update_of_ne hj _ _
  · intro y
    rw [hframe.queues, hframe.paused, hframe.workers]
    by_cases hy : y = x
    · subst hy
      rw [hqueue]
      intro hnonempty
      refine hawake y fun hempty => hnonempty ?_
      rw [hempty]
      rfl
    · intro hnonempty
      have hsame : left.queues y = s.queues y := Function.update_of_ne hy _ _
      exact hawake y (hsame ▸ hnonempty)
  · intro r' hr'
    obtain rfl := Option.some.inj (hrecord.symm.trans hr')
    rw [hclosed]
    decide

theorem cancelTask_shown (h : Listed s) (hawake : Awake s) :
    Listed (s.cancelTask id) ∧ Awake (s.cancelTask id) := ⟨h.congr rfl rfl rfl rfl, hawake⟩

theorem Awake.of_frame (h : Awake s) (hframe : Frame s s') : Awake s' := by
  intro y
  rw [hframe.queues, hframe.paused, hframe.workers]
  exact h y

/-- An operation that is not queued is cancelled. -/
theorem cancelActive_shown (h : Listed s) (hawake : Awake s) (pause : Bool)
    (hnot : ∀ y, id ∉ s.queues y) :
    Listed (s.cancelActive id x pause) ∧ Awake (s.cancelActive id x pause) ∧
      (s.cancelActive id x pause).queues = s.queues := by
  have hpaused : ∀ {t : TransferService}, Listed t → Awake t → t.queues = s.queues →
      Listed ((t.cancelTask id).markCancelled id) ∧ Awake ((t.cancelTask id).markCancelled id) ∧
        ((t.cancelTask id).markCancelled id).queues = s.queues := by
    intro t ht hawake hqueues
    obtain ⟨hlisted, hawake'⟩ : Listed (t.cancelTask id) ∧ Awake (t.cancelTask id) :=
      cancelTask_shown ht hawake
    have hframe := frame_markCancelled (t.cancelTask id) id
    refine ⟨hlisted.markCancelled fun r hr hstatus => ?_, hawake'.of_frame hframe,
      hframe.queues.trans hqueues⟩
    exact hnot _ (hqueues ▸ ht.mem_queue hr hstatus)
  unfold cancelActive
  cases pause with
  | false => exact hpaused h hawake rfl
  | true =>
    obtain ⟨hlisted, hawake'⟩ := pauseQueueForTakeover_shown (x := x) h hawake
    exact hpaused hlisted hawake' (frame_updateQueued _ _ _ _).queues

/-- What has not ended is queued or runs, and it can be cancelled. -/
theorem Listed.open_cases (h : Listed s) {r : OperationRecord} (hr : s.records id = some r)
    (hopen : r.status.terminal = false) : r.cancellable = true ∧
      ((r.status = .queued ∧ id ∈ s.queues r.sessionId ∧
          s.cancellers id = some (.queued r.sessionId)) ∨
        (r.status = .running ∧ s.cancellers id = some (.active r.sessionId))) := by
  have hshown := h.records id r hr
  cases hstatus : r.status with
  | queued =>
    rw [OperationRecord.Consistent, hstatus] at hshown
    exact ⟨hshown.2.2.2.1, .inl ⟨rfl, hshown.1, hshown.2.2.2.2⟩⟩
  | running =>
    rw [OperationRecord.Consistent, hstatus] at hshown
    exact ⟨hshown.2.1, .inr ⟨rfl, hshown.2.2⟩⟩
  | _ => exact absurd (hstatus ▸ hopen) (by decide)

/-- What is not queued is in no queue. -/
theorem Listed.not_mem (h : Listed s) {r : OperationRecord} (hr : s.records id = some r)
    (hstatus : r.status ≠ .queued) (y : String) : id ∉ s.queues y := by
  intro hmem
  obtain ⟨r', hr', -, hqueued⟩ := h.queued y id hmem
  obtain rfl := Option.some.inj (hr.symm.trans hr')
  exact hstatus hqueued

theorem endCancelled_shown (h : Listed s) (hawake : Awake s)
    (hnot : ∀ r, s.records id = some r → r.status ≠ .queued) :
    Listed (s.endCancelled id) ∧ Awake (s.endCancelled id) ∧ (s.endCancelled id).queues = s.queues := by
  unfold endCancelled
  split
  · exact ⟨h, hawake, rfl⟩
  · split
    · exact ⟨h, hawake, rfl⟩
    · refine ⟨h.update rfl (fun status hstatus => ?_) hnot, hawake.of_frame (frame_update s id _),
        (frame_update s id _).queues⟩
      obtain rfl := Option.some.inj hstatus
      rfl

/-- An operation is cancelled: if it is queued, it leaves its queue. -/
theorem cancel_shown (h : Listed s) (hawake : Awake s) {r : OperationRecord}
    (hr : s.records id = some r) (hopen : r.status.terminal = false) :
    Listed (s.cancel id) ∧ Awake (s.cancel id) ∧
      ∀ y, (s.cancel id).queues y = (s.queues y).erase id := by
  obtain ⟨hcancellable, hcases⟩ := h.open_cases hr hopen
  unfold TransferService.cancel
  simp only [hr, hopen, Bool.false_eq_true, if_false, hcancellable]
  rcases hcases with ⟨hstatus, hmem, hcanceller⟩ | ⟨hstatus, hcanceller⟩
  · simp only [hcanceller, Bool.true_eq_false, if_false, callCanceller]
    obtain ⟨hlisted, hawake', hqueues, hnot⟩ := cancelQueued_shown h hawake hmem
    obtain ⟨hlisted', hawake'', hqueues'⟩ := endCancelled_shown hlisted hawake' hnot
    refine ⟨hlisted', hawake'', fun y => ?_⟩
    rw [hqueues', hqueues]
    by_cases hy : y = r.sessionId
    · subst hy
      exact Function.update_self _ _ _
    · rw [Function.update_of_ne hy, List.erase_of_not_mem]
      intro hmem'
      obtain ⟨r', hr', hsession, -⟩ := h.queued y id hmem'
      obtain rfl := Option.some.inj (hr.symm.trans hr')
      exact hy hsession.symm
  · simp only [hcanceller, Bool.true_eq_false, if_false, callCanceller]
    have hnot : ∀ y, id ∉ s.queues y := h.not_mem hr (by rw [hstatus]; decide)
    obtain ⟨hlisted, hawake', hqueues⟩ :=
      cancelActive_shown (x := r.sessionId) h hawake false hnot
    have hnot' : ∀ r', (s.cancelActive id r.sessionId false).records id = some r' →
        r'.status ≠ .queued := fun r' hr' hqueued =>
      hnot _ (hqueues ▸ hlisted.mem_queue hr' hqueued)
    obtain ⟨hlisted', hawake'', hqueues'⟩ := endCancelled_shown hlisted hawake' hnot'
    refine ⟨hlisted', hawake'', fun y => ?_⟩
    rw [hqueues', hqueues, List.erase_of_not_mem (hnot y)]

theorem cancel_of_ended (h : ∀ r, s.records id = some r → r.status.terminal = true) :
    s.cancel id = s := by
  unfold TransferService.cancel
  split
  · rfl
  · next r hr =>
    rw [if_pos (h r hr)]

/-- The operations of a session are cancelled one by one. -/
theorem cancelEach_shown {order : List String} (h : Listed s) (hawake : Awake s) :
    Listed (cancelEach x order s).1 ∧ Awake (cancelEach x order s).1 ∧
      ((cancelEach x order s).2 = true →
        ∀ j ∈ (cancelEach x order s).1.queues x, j ∈ s.queues x ∧ j ∉ order) := by
  induction order generalizing s with
  | nil => exact ⟨h, hawake, fun _ j hj => ⟨hj, List.not_mem_nil⟩⟩
  | cons id rest ih =>
    rw [cancelEach]
    split
    · exact ⟨h, hawake, fun hfalse => absurd hfalse Bool.false_ne_true⟩
    · next r hr =>
      split
      · next hskip =>
        obtain ⟨hlisted, hawake', hqueue⟩ := ih h hawake
        refine ⟨hlisted, hawake', fun hfinished j hj => ?_⟩
        obtain ⟨hmem, hnot⟩ := hqueue hfinished j hj
        refine ⟨hmem, List.not_mem_cons_of_ne_of_not_mem ?_ hnot⟩
        rintro rfl
        obtain ⟨r', hr', hsession, hstatus⟩ := h.queued x j hmem
        obtain rfl := Option.some.inj (hr.symm.trans hr')
        rcases hskip with hother | hterminal
        · exact hother hsession
        · rw [hstatus] at hterminal
          cases hterminal
      · next hgo =>
        have hopen : r.status.terminal = false := by
          cases hterminal : r.status.terminal with
          | false => rfl
          | true => exact absurd (.inr hterminal) hgo
        obtain ⟨hcancelled, hawakeC, hqueues⟩ := cancel_shown h hawake hr hopen
        obtain ⟨hlisted, hawake', hqueue⟩ := ih hcancelled hawakeC
        refine ⟨hlisted, hawake', fun hfinished j hj => ?_⟩
        obtain ⟨hmem, hnot⟩ := hqueue hfinished j hj
        rw [hqueues, (h.nodup x).mem_erase_iff] at hmem
        exact ⟨hmem.2, List.not_mem_cons_of_ne_of_not_mem hmem.1 hnot⟩

/-- A session is left with an empty queue that is not paused, unless an exception comes between. -/
theorem cancelSession_shown {order : List String} (h : Listed s) (hawake : Awake s)
    (horder : ∀ id ∈ s.queues x, id ∈ order) :
    Listed (s.cancelSession x order) ∧ Awake (s.cancelSession x order) := by
  obtain ⟨hlisted, hawake', hqueue⟩ : Listed (cancelEach x order s).1 ∧
      Awake (cancelEach x order s).1 ∧ ((cancelEach x order s).2 = true →
        ∀ j ∈ (cancelEach x order s).1.queues x, j ∈ s.queues x ∧ j ∉ order) :=
    cancelEach_shown h hawake
  unfold cancelSession
  dsimp only
  split
  · next hfinished =>
    have hempty : (cancelEach x order s).1.queues x = [] := by
      refine List.eq_nil_iff_forall_not_mem.2 fun j hj => ?_
      obtain ⟨hmem, hnot⟩ := hqueue hfinished j hj
      exact hnot (horder j hmem)
    refine ⟨?_, fun y hne => ?_⟩
    · refine ⟨fun id r hr => ?_, hlisted.queued, hlisted.nodup⟩
      have hshown := hlisted.records id r hr
      by_cases hsession : r.sessionId = x
      · have hstatus : r.status ≠ .queued := fun hstatus => by
          have hmem := hlisted.mem_queue hr hstatus
          rw [hsession, hempty] at hmem
          exact List.not_mem_nil hmem
        exact consistent_of_ne hstatus hshown
      · dsimp only
        rwa [Function.update_of_ne hsession]
    · by_cases hy : y = x
      · subst hy
        exact absurd hempty hne
      · dsimp only
        rw [Function.update_of_ne hy]
        exact hawake' y hne
  · exact ⟨hlisted, hawake'⟩

/-! ## History and tasks -/

theorem clearHistory_shown (h : Listed s) (hawake : Awake s) :
    Listed s.clearHistory ∧ Awake s.clearHistory := by
  have hkept : ∀ {id r}, s.clearHistory.records id = some r →
      s.records id = some r ∧ r.status.terminal = false := by
    intro id r hr
    obtain ⟨hr, hopen⟩ := Option.filter_eq_some_iff.1 hr
    exact ⟨hr, by simpa using hopen⟩
  refine ⟨⟨fun id r hr => ?_, fun y id hid => ?_, h.nodup⟩, hawake⟩
  · obtain ⟨hr', hopen⟩ := hkept hr
    have hcanceller : s.clearHistory.cancellers id = s.cancellers id := by
      simp [clearHistory, hr', hopen]
    rw [hcanceller]
    exact h.records id r hr'
  · obtain ⟨r, hr, hsession, hstatus⟩ := h.queued y id hid
    refine ⟨r, ?_, hsession, hstatus⟩
    simp [clearHistory, hr, hstatus, OperationStatus.terminal, Option.filter]

theorem setPhase_shown (h : Listed s) (hawake : Awake s) (phase : Phase) :
    Listed (s.setPhase id phase) ∧ Awake (s.setPhase id phase) := ⟨h.congr rfl rfl rfl rfl, hawake⟩

/-- The end of the task of an operation that is not queued. -/
theorem finishTask_shown (h : Listed s) (hawake : Awake s) (outcome : Outcome)
    (hnot : ∀ r, s.records id = some r → r.status ≠ .queued) :
    Listed (s.finishTask id outcome) ∧ Awake (s.finishTask id outcome) := by
  unfold finishTask
  split
  · exact setPhase_shown h hawake _
  · exact setPhase_shown h hawake _
  · refine setPhase_shown (h.update rfl (fun status hstatus => ?_) hnot)
      (hawake.of_frame (frame_update s id _)) _
    obtain rfl := Option.some.inj hstatus
    rfl
  · split
    · exact setPhase_shown h hawake _
    · exact setPhase_shown (h.markFailed hnot) (hawake.of_frame (frame_markFailed s id _ _)) _
  · exact setPhase_shown (h.markCancelled hnot) (hawake.of_frame (frame_markCancelled s id)) _

/-- A step keeps what is shown, where the operations of the tasks are in no queue. -/
theorem step_shown (h : Listed s) (hawake : Awake s) {a : Action} (hpossible : Possible s a)
    (hout : ∀ t ∈ s.tasks, ∀ y, t.operationId ∉ s.queues y) :
    Listed (step s a) ∧ Awake (step s a) := by
  have htask : ∀ {id phases t}, s.taskIn id phases = some t → ∀ y, id ∉ s.queues y := by
    intro id phases t ht
    have hid := List.find?_some ht
    simp only [Bool.decide_and, Bool.and_eq_true, decide_eq_true_eq] at hid
    exact hid.1 ▸ hout t (List.mem_of_find?_eq_some ht)
  have hstatus : ∀ {id}, (∀ y, id ∉ s.queues y) → ∀ r, s.records id = some r → r.status ≠ .queued :=
    fun hnot r hr hqueued => hnot _ (h.mem_queue hr hqueued)
  cases a with
  | start id x => exact start_shown h hawake hpossible.1
  | cancel id =>
    by_cases hended : ∀ r, s.records id = some r → r.status.terminal = true
    · rw [step, cancel_of_ended hended]
      exact ⟨h, hawake⟩
    · obtain ⟨r, hr⟩ := not_forall.1 hended
      obtain ⟨hr, hopen⟩ := Classical.not_imp.1 hr
      obtain ⟨hlisted, hawake', -⟩ := cancel_shown h hawake hr (Bool.eq_false_iff.2 hopen)
      exact ⟨hlisted, hawake'⟩
  | cancelSession x order =>
    refine cancelSession_shown h hawake fun id hid => ?_
    exact hpossible.mem_iff.2 (List.mem_dedup.2 (List.mem_append_right _ hid))
  | resumeQueue x => exact resumeQueue_shown h hawake
  | clearHistory => exact clearHistory_shown h hawake
  | runWorker x => exact runWorker_shown h hawake
  | beginTask id =>
    rw [step]
    split
    · exact ⟨h, hawake⟩
    · exact setPhase_shown h hawake _
  | report id stage message =>
    rw [step]
    split
    · exact ⟨h, hawake⟩
    · next ht =>
      refine ⟨h.update rfl (fun status hs => ?_) (hstatus (htask ht)),
        hawake.of_frame (frame_update s id _)⟩
      cases hs
  | endTask id outcome =>
    rw [step]
    split
    · exact ⟨h, hawake⟩
    · next ht => exact finishTask_shown h hawake outcome (hstatus (htask ht))
  | takeover id =>
    rw [step]
    split
    · exact ⟨h, hawake⟩
    · next ht =>
      obtain ⟨hlisted, hawake', -⟩ := cancelActive_shown h hawake true (htask ht)
      exact ⟨hlisted, hawake'⟩
  | session x error => exact ⟨h.congr rfl rfl rfl rfl, hawake⟩

end TransferService

end DeviceShell.Transfers
