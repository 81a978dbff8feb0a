import DeviceShell.Transfers.QueueDisplay

/-!
# The order of the transfers

In every run the transfers of a session come one after the other, in the order in which they were
asked for: a session has at most one task (`Serial`), what is launched is a subsequence of what was
enqueued, and whatever was enqueued was launched once, was dropped for good, or still waits
(`Ordered`). So nothing is lost, nothing is transferred twice, and what is cancelled while it waits
never begins.
-/

namespace DeviceShell.Transfers

/-- The operation that is enqueued for a session. -/
def QueueEvent.enqueued? (x : String) : QueueEvent → Option String
  | .enqueued y id => if y = x then some id else none
  | _ => none

/-- The operation of a session that is launched. -/
def QueueEvent.launched? (x : String) : QueueEvent → Option String
  | .launched y id => if y = x then some id else none
  | _ => none

/-- The operation of a session that is dropped. -/
def QueueEvent.dropped? (x : String) : QueueEvent → Option String
  | .dropped y id => if y = x then some id else none
  | _ => none

/-- What some events of a log are about, the first one first. -/
def chronicle (f : QueueEvent → Option String) (log : List QueueEvent) : List String :=
  log.reverse.filterMap f

@[simp] theorem chronicle_cons (f : QueueEvent → Option String) (e : QueueEvent)
    (log : List QueueEvent) : chronicle f (e :: log) = chronicle f log ++ (f e).toList := by
  unfold chronicle
  rw [List.reverse_cons, List.filterMap_append]
  cases hfe : f e <;> simp [hfe]

theorem mem_chronicle {f : QueueEvent → Option String} {log : List QueueEvent} {id : String} :
    id ∈ chronicle f log ↔ ∃ e ∈ log, f e = some id := by
  simp [chronicle]

theorem mem_enqueued {x id : String} {log : List QueueEvent} :
    id ∈ chronicle (QueueEvent.enqueued? x) log ↔ .enqueued x id ∈ log := by
  rw [mem_chronicle]
  constructor
  · rintro ⟨e, he, hid⟩
    cases e with
    | enqueued y id' =>
      obtain ⟨rfl, rfl⟩ : y = x ∧ id' = id := by simpa [QueueEvent.enqueued?] using hid
      exact he
    | launched y id' => cases hid
    | dropped y id' => cases hid
  · exact fun he => ⟨_, he, if_pos rfl⟩

namespace TransferService

variable {s s' : TransferService} {id x : String}

/-- A session has at most one task, which its worker awaits. -/
structure Serial (s : TransferService) : Prop where
  waiting : ∀ t ∈ s.tasks, s.workers t.sessionId = some (.waiting t.operationId)
  distinct : (s.tasks.map TransferTask.operationId).Nodup
  out : ∀ t ∈ s.tasks, ∀ y, t.operationId ∉ s.queues y
  known : ∀ t ∈ s.tasks, ∃ y, .enqueued y t.operationId ∈ s.log

/-- What has become of the operations that were enqueued. -/
structure Ordered (s : TransferService) : Prop where
  conserved : ∀ x, (chronicle (QueueEvent.enqueued? x) s.log).Perm
    (chronicle (QueueEvent.launched? x) s.log ++ chronicle (QueueEvent.dropped? x) s.log ++
      s.queues x)
  inOrder : ∀ x, (chronicle (QueueEvent.launched? x) s.log ++ s.queues x).Sublist
    (chronicle (QueueEvent.enqueued? x) s.log)
  once : ∀ x, (chronicle (QueueEvent.enqueued? x) s.log).Nodup

theorem Serial.eq_of_sessionId (h : Serial s) {t u : TransferTask} (ht : t ∈ s.tasks)
    (hu : u ∈ s.tasks) (heq : t.sessionId = u.sessionId) : t = u := by
  have hwait := (h.waiting t ht).symm.trans (heq ▸ h.waiting u hu)
  have hid : t.operationId = u.operationId := by simpa using hwait
  exact List.inj_on_of_nodup_map h.distinct ht hu hid

/-! ## Queues -/

theorem Ordered.mem_log (h : Ordered s) (hid : id ∈ s.queues x) : .enqueued x id ∈ s.log :=
  mem_enqueued.1 ((h.conserved x).mem_iff.2 (List.mem_append_right _ hid))

/-- The queues and the events of other sessions do not matter. -/
theorem Ordered.session (h : Ordered s) {e : QueueEvent} {q : List String}
    (hlog : s'.log = e :: s.log) (hqueues : s'.queues = Function.update s.queues x q)
    (he : ∀ y, y ≠ x → e.enqueued? y = none ∧ e.launched? y = none ∧ e.dropped? y = none)
    (hconserved : (chronicle (QueueEvent.enqueued? x) s'.log).Perm
      (chronicle (QueueEvent.launched? x) s'.log ++ chronicle (QueueEvent.dropped? x) s'.log ++ q))
    (hinOrder : (chronicle (QueueEvent.launched? x) s'.log ++ q).Sublist
      (chronicle (QueueEvent.enqueued? x) s'.log))
    (honce : (chronicle (QueueEvent.enqueued? x) s'.log).Nodup) : Ordered s' := by
  have hsame : ∀ y, y ≠ x →
      chronicle (QueueEvent.enqueued? y) s'.log = chronicle (QueueEvent.enqueued? y) s.log ∧
      chronicle (QueueEvent.launched? y) s'.log = chronicle (QueueEvent.launched? y) s.log ∧
      chronicle (QueueEvent.dropped? y) s'.log = chronicle (QueueEvent.dropped? y) s.log ∧
      s'.queues y = s.queues y := by
    intro y hy
    obtain ⟨henqueued, hlaunched, hdropped⟩ := he y hy
    rw [hlog, hqueues]
    simp [henqueued, hlaunched, hdropped, hy]
  refine ⟨fun y => ?_, fun y => ?_, fun y => ?_⟩
  all_goals
    by_cases hy : y = x
  · rw [hy, hqueues, Function.update_self]
    exact hconserved
  · obtain ⟨henqueued, hlaunched, hdropped, hqueue⟩ := hsame y hy
    rw [henqueued, hlaunched, hdropped, hqueue]
    exact h.conserved y
  · rw [hy, hqueues, Function.update_self]
    exact hinOrder
  · obtain ⟨henqueued, hlaunched, -, hqueue⟩ := hsame y hy
    rw [henqueued, hlaunched, hqueue]
    exact h.inOrder y
  · rw [hy]
    exact honce
  · rw [(hsame y hy).1]
    exact h.once y

/-- An operation is enqueued. -/
theorem Ordered.enqueued (h : Ordered s) (hnew : ∀ y, .enqueued y id ∉ s.log)
    (hlog : s'.log = .enqueued x id :: s.log)
    (hqueues : s'.queues = Function.update s.queues x (s.queues x ++ [id])) : Ordered s' := by
  refine h.session hlog hqueues ?_ ?_ ?_ ?_
  · intro y hy
    simp [QueueEvent.enqueued?, QueueEvent.launched?, QueueEvent.dropped?, Ne.symm hy]
  all_goals simp only [hlog, chronicle_cons, QueueEvent.enqueued?, QueueEvent.launched?,
    QueueEvent.dropped?, if_true, Option.toList_some, Option.toList_none, List.append_nil]
  · rw [← List.append_assoc]
    exact (h.conserved x).append_right [id]
  · rw [← List.append_assoc]
    exact (h.inOrder x).append (List.Sublist.refl [id])
  · refine List.nodup_append.2 ⟨h.once x, List.pairwise_singleton _ _, fun a ha b hb => ?_⟩
    rw [List.mem_singleton.1 hb]
    rintro rfl
    exact hnew x (mem_enqueued.1 ha)

/-- An operation leaves its queue for good. -/
theorem Ordered.dropped (h : Ordered s) (hid : id ∈ s.queues x)
    (hlog : s'.log = .dropped x id :: s.log)
    (hqueues : s'.queues = Function.update s.queues x ((s.queues x).erase id)) : Ordered s' := by
  refine h.session hlog hqueues ?_ ?_ ?_ ?_
  · intro y hy
    simp [QueueEvent.enqueued?, QueueEvent.launched?, QueueEvent.dropped?, Ne.symm hy]
  all_goals simp only [hlog, chronicle_cons, QueueEvent.enqueued?, QueueEvent.launched?,
    QueueEvent.dropped?, if_true, Option.toList_some, Option.toList_none, List.append_nil]
  · have hperm : (s.queues x).Perm ([id] ++ (s.queues x).erase id) := List.perm_cons_erase hid
    refine (h.conserved x).trans ?_
    simpa only [List.append_assoc] using (hperm.append_left _).append_left _
  · exact ((List.Sublist.refl _).append List.erase_sublist).trans (h.inOrder x)
  · exact h.once x

/-- The first operation of a queue is launched. -/
theorem Ordered.launched (h : Ordered s) {rest : List String} (hqueue : s.queues x = id :: rest)
    (hlog : s'.log = .launched x id :: s.log)
    (hqueues : s'.queues = Function.update s.queues x rest) : Ordered s' := by
  refine h.session hlog hqueues ?_ ?_ ?_ ?_
  · intro y hy
    simp [QueueEvent.enqueued?, QueueEvent.launched?, QueueEvent.dropped?, Ne.symm hy]
  all_goals simp only [hlog, chronicle_cons, QueueEvent.enqueued?, QueueEvent.launched?,
    QueueEvent.dropped?, if_true, Option.toList_some, Option.toList_none, List.append_nil]
  · refine (h.conserved x).trans ?_
    rw [hqueue]
    simp only [List.append_assoc]
    refine List.Perm.append_left _ ?_
    exact List.perm_middle
  · have hsub := h.inOrder x
    rw [hqueue] at hsub
    simpa only [List.append_assoc, List.singleton_append] using hsub
  · exact h.once x

theorem Ordered.congr (h : Ordered s) (hlog : s'.log = s.log) (hqueues : s'.queues = s.queues) :
    Ordered s' := by
  refine ⟨?_, ?_, ?_⟩ <;> rw [hlog]
  · rw [hqueues]
    exact h.conserved
  · rw [hqueues]
    exact h.inOrder
  · exact h.once

/-! ## Tasks -/

/-- The session has no task. -/
def Idle (s : TransferService) (x : String) : Prop := ∀ t ∈ s.tasks, t.sessionId ≠ x

/-- A step with the same tasks, by their ids, in which the queues do not grow. -/
theorem Serial.congr (h : Serial s) {f : TransferTask → TransferTask}
    (hf : ∀ t, (f t).operationId = t.operationId ∧ (f t).sessionId = t.sessionId)
    (htasks : s'.tasks = s.tasks.map f)
    (hworkers : ∀ t ∈ s.tasks, s'.workers t.sessionId = s.workers t.sessionId)
    (hqueues : ∀ y, s'.queues y ⊆ s.queues y) (hlog : s.log ⊆ s'.log) : Serial s' := by
  have hids : s'.tasks.map TransferTask.operationId = s.tasks.map TransferTask.operationId := by
    rw [htasks, List.map_map]
    exact List.map_congr_left fun t _ => (hf t).1
  have htask : ∀ {P : TransferTask → Prop}, (∀ t ∈ s.tasks, P (f t)) → ∀ t ∈ s'.tasks, P t := by
    intro P hP t ht
    rw [htasks] at ht
    obtain ⟨u, hu, rfl⟩ := List.mem_map.1 ht
    exact hP u hu
  refine ⟨htask fun t ht => ?_, hids ▸ h.distinct, htask fun t ht y => ?_, htask fun t ht => ?_⟩
  · rw [(hf t).1, (hf t).2, hworkers t ht]
    exact h.waiting t ht
  · rw [(hf t).1]
    exact fun hmem => h.out t ht y (hqueues y hmem)
  · rw [(hf t).1]
    exact (h.known t ht).imp fun y hy => hlog hy

theorem Serial.frame (h : Serial s) (hframe : Frame s s') : Serial s' :=
  h.congr (f := fun t => t) (fun _ => ⟨rfl, rfl⟩) (by rw [hframe.tasks, List.map_id'])
    (fun t _ => congrFun hframe.workers _) (fun y => by rw [hframe.queues]; exact List.Subset.refl _)
    (by rw [hframe.log]; exact List.Subset.refl _)

theorem Serial.ensureWorker (h : Serial s) : Serial (s.ensureWorker x) := by
  unfold TransferService.ensureWorker
  split
  · exact h
  · next hnone =>
    refine h.congr (f := fun t => t) (fun _ => ⟨rfl, rfl⟩) (List.map_id' _).symm (fun t ht => ?_)
      (fun _ => List.Subset.refl _) (List.Subset.refl _)
    have hne : t.sessionId ≠ x := by
      rintro rfl
      refine hnone (.inr ?_)
      rw [h.waiting t ht]
      exact Option.some_ne_none _
    exact Function.update_of_ne hne _ _

theorem Serial.setWorker (h : Serial s) (hidle : Idle s x) (worker : Option Worker) :
    Serial (s.setWorker x worker) :=
  h.congr (f := fun t => t) (fun _ => ⟨rfl, rfl⟩) (List.map_id' _).symm
    (fun t ht => Function.update_of_ne (hidle t ht) _ _) (fun _ => List.Subset.refl _)
    (List.Subset.refl _)

theorem Serial.finishWorker (h : Serial s) (hidle : Idle s x) : Serial (s.finishWorker x) := by
  unfold TransferService.finishWorker
  dsimp only
  split
  · exact h.setWorker hidle none
  · exact (h.setWorker hidle none).ensureWorker

theorem ensureWorker_log (s : TransferService) (x : String) :
    (s.ensureWorker x).log = s.log ∧ (s.ensureWorker x).queues = s.queues := by
  unfold TransferService.ensureWorker
  split <;> exact ⟨rfl, rfl⟩

theorem Ordered.finishWorker (h : Ordered s) : Ordered (s.finishWorker x) := by
  have hframe := ensureWorker_log (s.setWorker x none) x
  unfold TransferService.finishWorker
  dsimp only
  split
  · exact h.congr rfl rfl
  · exact h.congr hframe.1 hframe.2

/-- The loop of a worker, of a session without a task. -/
theorem drain_ordered {ids : List String} (h : Listed s) (hserial : Serial s) (hordered : Ordered s)
    (hqueue : s.queues x = ids) (hidle : Idle s x) :
    Serial (drain x ids s) ∧ Ordered (drain x ids s) := by
  induction ids generalizing s with
  | nil => exact ⟨hserial.finishWorker hidle, hordered.finishWorker⟩
  | cons id rest ih =>
    obtain ⟨r, hr, -, hstatus, -, hnot⟩ := h.head hqueue
    have hmem : id ∈ s.queues x := hqueue ▸ List.mem_cons_self
    have herase : (s.queues x).erase id = rest := by rw [hqueue, List.erase_cons_head]
    have hsub : rest ⊆ s.queues x := hqueue ▸ List.subset_cons_self id rest
    have hshrunk : ∀ y, Function.update s.queues x rest y ⊆ s.queues y := by
      intro y
      by_cases hy : y = x
      · subst hy
        rwa [Function.update_self]
      · rw [Function.update_of_ne hy]
        exact List.Subset.refl _
    have hframe : Frame (s.setQueue x rest) ((s.setQueue x rest).refreshQueuePositions x) :=
      frame_refreshQueuePositions _ _
    have hpopped : ((s.setQueue x rest).refreshQueuePositions x).records id = some r := by
      rw [popped_eq h hqueue]
      simp [hnot, hr]
    rw [drain]
    simp only [hpopped, hstatus, ne_eq, not_true_eq_false, if_false]
    generalize hs : (s.setQueue x rest).refreshQueuePositions x = popped at hframe ⊢
    split
    · next message _ =>
      have hfailed := hframe.trans (frame_markFailed popped id "session_unavailable" message)
      have hlog : (record (popped.markFailed id "session_unavailable" message)
          (.dropped x id)).log = .dropped x id :: s.log := congrArg _ hfailed.log
      refine ih (hs ▸ h.drop hqueue message _) ?_ ?_ ?_ ?_
      · refine hserial.congr (f := fun t => t) (fun _ => ⟨rfl, rfl⟩)
          (hfailed.tasks.trans (List.map_id' _).symm) (fun t _ => congrFun hfailed.workers _)
          (fun y => ?_) (hlog ▸ List.subset_cons_self _ _)
        exact (congrFun hfailed.queues y) ▸ hshrunk y
      · exact hordered.dropped hmem hlog (herase.symm ▸ hfailed.queues)
      · exact (congrFun hfailed.queues x).trans (Function.update_self _ _ _)
      · intro t ht
        exact hidle t (hfailed.tasks ▸ ht)
    · have hlaunch := frame_launch popped id x
      have htasks : (popped.launch id x).tasks =
          { operationId := id, sessionId := x } :: s.tasks := by rw [hlaunch.tasks, hframe.tasks]; rfl
      have hqueues : (popped.launch id x).queues = Function.update s.queues x rest :=
        hlaunch.queues.trans hframe.queues
      have hworkers : (popped.launch id x).workers =
          Function.update s.workers x (some (.waiting id)) := by
        rw [hlaunch.workers, hframe.workers]
        rfl
      have hlog : (popped.launch id x).log = .launched x id :: s.log := by
        rw [hlaunch.log, hframe.log]
        rfl
      refine ⟨⟨?_, ?_, ?_, ?_⟩, hordered.launched hqueue hlog hqueues⟩
      · intro t ht
        rw [htasks] at ht
        rw [hworkers]
        rcases List.mem_cons.1 ht with rfl | ht
        · exact Function.update_self _ _ _
        · rw [Function.update_of_ne (hidle t ht)]
          exact hserial.waiting t ht
      · rw [htasks]
        refine List.nodup_cons.2 ⟨fun hin => ?_, hserial.distinct⟩
        obtain ⟨t, ht, heq⟩ := List.mem_map.1 hin
        exact hserial.out t ht x (heq ▸ hmem)
      · intro t ht y
        rw [htasks] at ht
        rw [hqueues]
        rcases List.mem_cons.1 ht with rfl | ht
        · by_cases hy : y = x
          · subst hy
            rwa [Function.update_self]
          · rw [Function.update_of_ne hy]
            intro hin
            obtain ⟨r', hr', hsession', -⟩ := h.queued y id hin
            obtain ⟨r'', hr'', hsession'', -⟩ := h.queued x id hmem
            obtain rfl := Option.some.inj (hr'.symm.trans hr'')
            exact hy (hsession'.symm.trans hsession'')
        · exact fun hin => hserial.out t ht y (hshrunk y hin)
      · intro t ht
        rw [htasks] at ht
        rw [hlog]
        rcases List.mem_cons.1 ht with rfl | ht
        · exact ⟨x, List.mem_cons_of_mem _ (hordered.mem_log hmem)⟩
        · exact (hserial.known t ht).imp fun y hy => List.mem_cons_of_mem _ hy

theorem resumeLoop_ordered (h : Listed s) (hserial : Serial s) (hordered : Ordered s)
    (hidle : Idle s x) : Serial (s.resumeLoop x) ∧ Ordered (s.resumeLoop x) := by
  unfold resumeLoop
  split
  · exact ⟨hserial.finishWorker hidle, hordered.finishWorker⟩
  · exact drain_ordered h hserial hordered rfl hidle

theorem runWorker_ordered (h : Listed s) (hserial : Serial s) (hordered : Ordered s) :
    Serial (s.runWorker x) ∧ Ordered (s.runWorker x) := by
  unfold runWorker
  split
  · exact ⟨hserial, hordered⟩
  · next hready =>
    refine resumeLoop_ordered h hserial hordered fun t ht heq => ?_
    have hwaiting := hserial.waiting t ht
    rw [heq, hready] at hwaiting
    cases hwaiting
  · next id hwaiting =>
    split
    · exact ⟨hserial, hordered⟩
    · split
      · dsimp only
        -- The task that is over is forgotten.
        let forgotten : TransferService :=
          { s with tasks := s.tasks.filter fun t => t.operationId ≠ id }
        have hidle : Idle forgotten x := by
          intro t ht heq
          obtain ⟨hmem, hne⟩ := List.mem_filter.1 ht
          have hwait := hserial.waiting t hmem
          rw [heq, hwaiting] at hwait
          simp only [Option.some.injEq, Worker.waiting.injEq] at hwait
          exact of_decide_eq_true hne hwait.symm
        have hforgotten : Serial forgotten :=
          { waiting := fun t ht => hserial.waiting t (List.mem_of_mem_filter ht)
            distinct := hserial.distinct.sublist (List.filter_sublist.map _)
            out := fun t ht => hserial.out t (List.mem_of_mem_filter ht)
            known := fun t ht => hserial.known t (List.mem_of_mem_filter ht) }
        have hready := hforgotten.setWorker hidle (some .ready)
        have hordered' : Ordered (forgotten.setWorker x (some .ready)) := hordered.congr rfl rfl
        split
        · exact ⟨hready.finishWorker hidle, hordered'.finishWorker⟩
        · exact resumeLoop_ordered (h.congr rfl rfl rfl rfl) hready hordered' hidle
      · exact ⟨hserial, hordered⟩

/-! ## The other steps -/

theorem start_ordered (hserial : Serial s) (hordered : Ordered s)
    (hnew : ∀ y, .enqueued y id ∉ s.log) : Serial (s.start id x) ∧ Ordered (s.start id x) := by
  unfold TransferService.start
  split
  · exact ⟨hserial, hordered⟩
  · let created : OperationRecord :=
      { sessionId := x, status := .queued, stage := "queued", message := "文件传输已加入队列。" }
    let pushed : TransferService := { s with
      records := Function.update s.records id (some created)
      queues := Function.update s.queues x (s.queues x ++ [id])
      log := .enqueued x id :: s.log }
    have hpushed : Serial pushed := by
      refine ⟨hserial.waiting, hserial.distinct, fun t ht y => ?_, fun t ht => ?_⟩
      · obtain ⟨z, hz⟩ := hserial.known t ht
        have hne : t.operationId ≠ id := fun heq => hnew z (heq ▸ hz)
        by_cases hy : y = x
        · subst hy
          have hout := hserial.out t ht y
          simp [pushed, hout, hne]
        · have hsame : pushed.queues y = s.queues y := Function.update_of_ne hy _ _
          exact hsame ▸ hserial.out t ht y
      · exact (hserial.known t ht).imp fun y hy => List.mem_cons_of_mem _ hy
    have hordered' : Ordered pushed := hordered.enqueued hnew rfl rfl
    have hframe := (frame_registerCanceller pushed id (.queued x)).trans
      (frame_refreshQueuePositions _ x)
    have hensured := ensureWorker_log
      ((pushed.registerCanceller id (.queued x)).refreshQueuePositions x) x
    exact ⟨(hpushed.frame hframe).ensureWorker,
      hordered'.congr (hensured.1.trans hframe.log) (hensured.2.trans hframe.queues)⟩

theorem cancelQueued_ordered (hserial : Serial s) (hordered : Ordered s) (hmem : id ∈ s.queues x) :
    Serial (s.cancelQueued id x) ∧ Ordered (s.cancelQueued id x) := by
  let left : TransferService := { s with
    queues := Function.update s.queues x ((s.queues x).erase id)
    log := .dropped x id :: s.log }
  have hleft : s.cancelQueued id x = (left.markCancelled id).refreshQueuePositions x := by
    simp only [cancelQueued, hmem, if_true]
    rfl
  have hframe := (frame_markCancelled left id).trans (frame_refreshQueuePositions _ x)
  rw [hleft]
  constructor
  · have hshrunk : Serial left := ?_
    · exact hshrunk.frame hframe
    refine hserial.congr (f := fun t => t) (fun _ => ⟨rfl, rfl⟩) (List.map_id' _).symm
      (fun _ _ => rfl) (fun y => ?_) (List.subset_cons_self _ _)
    by_cases hy : y = x
    · subst hy
      have hsame : left.queues y = (s.queues y).erase id := Function.update_self _ _ _
      rw [hsame]
      exact List.erase_subset
    · have hsame : left.queues y = s.queues y := Function.update_of_ne hy _ _
      rw [hsame]
      exact List.Subset.refl _
  · have hdropped : Ordered left := hordered.dropped hmem rfl rfl
    exact hdropped.congr hframe.log hframe.queues

/-- A step that changes the state of tasks only. -/
theorem mapTasks_ordered (hserial : Serial s) (hordered : Ordered s)
    {f : TransferTask → TransferTask}
    (hf : ∀ t, (f t).operationId = t.operationId ∧ (f t).sessionId = t.sessionId) :
    Serial { s with tasks := s.tasks.map f } ∧ Ordered { s with tasks := s.tasks.map f } :=
  ⟨hserial.congr hf rfl (fun _ _ => rfl) (fun _ => List.Subset.refl _) (List.Subset.refl _),
    hordered.congr rfl rfl⟩

theorem setPhase_ordered (hserial : Serial s) (hordered : Ordered s) (phase : Phase) :
    Serial (s.setPhase id phase) ∧ Ordered (s.setPhase id phase) := by
  refine mapTasks_ordered hserial hordered fun t => ?_
  split <;> exact ⟨rfl, rfl⟩

theorem frame_ordered (hserial : Serial s) (hordered : Ordered s) (hframe : Frame s s') :
    Serial s' ∧ Ordered s' :=
  ⟨hserial.frame hframe, hordered.congr hframe.log hframe.queues⟩

theorem paused_ordered (hserial : Serial s) (hordered : Ordered s) (paused : String → Bool) :
    Serial { s with paused := paused } ∧ Ordered { s with paused := paused } :=
  ⟨hserial.congr (f := fun t => t) (fun _ => ⟨rfl, rfl⟩) (List.map_id' _).symm (fun _ _ => rfl)
    (fun _ => List.Subset.refl _) (List.Subset.refl _), hordered.congr rfl rfl⟩

theorem cancelActive_ordered (hserial : Serial s) (hordered : Ordered s) (pause : Bool) :
    Serial (s.cancelActive id x pause) ∧ Ordered (s.cancelActive id x pause) := by
  have hcancel : ∀ {t : TransferService}, Serial t → Ordered t →
      Serial ((t.cancelTask id).markCancelled id) ∧ Ordered ((t.cancelTask id).markCancelled id) := by
    intro t ht ht'
    have hmapped := mapTasks_ordered ht ht' (f := fun t =>
      if t.operationId = id ∧ t.phase.over = false then { t with cancelRequested := true } else t)
      fun t => by split <;> exact ⟨rfl, rfl⟩
    exact frame_ordered hmapped.1 hmapped.2 (frame_markCancelled _ id)
  unfold cancelActive
  cases pause with
  | false => exact hcancel hserial hordered
  | true =>
    obtain ⟨hserial', hordered'⟩ := paused_ordered hserial hordered (Function.update s.paused x true)
    obtain ⟨hserial'', hordered''⟩ :=
      frame_ordered hserial' hordered' (frame_updateQueued _ 1 (s.queues x) _)
    exact hcancel hserial'' hordered''

theorem frame_endCancelled (s : TransferService) (id : String) : Frame s (s.endCancelled id) := by
  unfold endCancelled
  split
  · exact Frame.refl s
  · split
    · exact Frame.refl s
    · exact frame_update s id _

theorem cancel_ordered (h : Listed s) (hserial : Serial s) (hordered : Ordered s) :
    Serial (s.cancel id) ∧ Ordered (s.cancel id) := by
  unfold TransferService.cancel
  split
  · exact ⟨hserial, hordered⟩
  · next r hr =>
    split
    · exact ⟨hserial, hordered⟩
    · next hended =>
      obtain ⟨-, hcases⟩ := h.open_cases hr (Bool.eq_false_iff.2 hended)
      split
      · exact ⟨hserial, hordered⟩
      · next canceller hcanceller =>
        split
        · exact ⟨hserial, hordered⟩
        · rcases hcases with ⟨-, hmem, hqueued⟩ | ⟨-, hactive⟩
          · obtain rfl := Option.some.inj (hcanceller.symm.trans hqueued)
            obtain ⟨hserial', hordered'⟩ := cancelQueued_ordered hserial hordered hmem
            exact frame_ordered hserial' hordered' (frame_endCancelled _ id)
          · obtain rfl := Option.some.inj (hcanceller.symm.trans hactive)
            obtain ⟨hserial', hordered'⟩ : Serial (s.cancelActive id r.sessionId false) ∧
                Ordered (s.cancelActive id r.sessionId false) :=
              cancelActive_ordered hserial hordered false
            exact frame_ordered hserial' hordered' (frame_endCancelled _ id)

theorem cancelEach_ordered {order : List String} (h : Listed s) (hawake : Awake s)
    (hserial : Serial s) (hordered : Ordered s) :
    Serial (cancelEach x order s).1 ∧ Ordered (cancelEach x order s).1 := by
  induction order generalizing s with
  | nil => exact ⟨hserial, hordered⟩
  | cons id rest ih =>
    rw [cancelEach]
    split
    · exact ⟨hserial, hordered⟩
    · next r hr =>
      split
      · exact ih h hawake hserial hordered
      · next hgo =>
        have hopen : r.status.terminal = false := by
          cases hterminal : r.status.terminal with
          | false => rfl
          | true => exact absurd (.inr hterminal) hgo
        obtain ⟨hlisted, hawake', -⟩ := cancel_shown h hawake hr hopen
        obtain ⟨hserial', hordered'⟩ : Serial (s.cancel id) ∧ Ordered (s.cancel id) :=
          cancel_ordered h hserial hordered
        exact ih hlisted hawake' hserial' hordered'

theorem resumeQueue_ordered (hserial : Serial s) (hordered : Ordered s) :
    Serial (s.resumeQueue x) ∧ Ordered (s.resumeQueue x) := by
  unfold TransferService.resumeQueue
  split
  · exact ⟨hserial, hordered⟩
  · obtain ⟨hserial', hordered'⟩ := paused_ordered hserial hordered (Function.update s.paused x false)
    obtain ⟨hserial'', hordered''⟩ := frame_ordered hserial' hordered'
      ((frame_updateQueued (fun _ =>
        { stage := some "queued", message := some "文件传输等待执行。" }) 1 (s.queues x) _).trans
        (frame_refreshQueuePositions _ x))
    exact ⟨hserial''.ensureWorker,
      hordered''.congr (ensureWorker_log _ x).1 (ensureWorker_log _ x).2⟩

theorem finishTask_ordered (hserial : Serial s) (hordered : Ordered s) (outcome : Outcome) :
    Serial (s.finishTask id outcome) ∧ Ordered (s.finishTask id outcome) := by
  have hframe : ∀ {t : TransferService} {phase : Phase}, Frame s t →
      Serial (t.setPhase id phase) ∧ Ordered (t.setPhase id phase) := by
    intro t phase ht
    obtain ⟨hserial', hordered'⟩ := frame_ordered hserial hordered ht
    exact setPhase_ordered hserial' hordered' phase
  unfold finishTask
  split
  · exact hframe (Frame.refl s)
  · exact hframe (Frame.refl s)
  · exact hframe (frame_update s id _)
  · split
    · exact hframe (Frame.refl s)
    · exact hframe (frame_markFailed s id _ _)
  · exact hframe (frame_markCancelled s id)

theorem step_ordered (h : Listed s) (hawake : Awake s) (hserial : Serial s) (hordered : Ordered s)
    {a : Action} (hpossible : Possible s a) : Serial (step s a) ∧ Ordered (step s a) := by
  cases a with
  | start id x => exact start_ordered hserial hordered fun y he => hpossible.2 _ he rfl
  | cancel id => exact cancel_ordered h hserial hordered
  | cancelSession x order =>
    obtain ⟨hserial', hordered'⟩ :
        Serial (cancelEach x order s).1 ∧ Ordered (cancelEach x order s).1 :=
      cancelEach_ordered h hawake hserial hordered
    rw [step, cancelSession]
    dsimp only
    split
    · exact paused_ordered hserial' hordered' _
    · exact ⟨hserial', hordered'⟩
  | resumeQueue x => exact resumeQueue_ordered hserial hordered
  | clearHistory =>
    exact frame_ordered hserial hordered ⟨rfl, rfl, rfl, rfl, rfl, rfl⟩
  | runWorker x => exact runWorker_ordered h hserial hordered
  | beginTask id =>
    rw [step]
    split
    · exact ⟨hserial, hordered⟩
    · exact setPhase_ordered hserial hordered _
  | report id stage message =>
    rw [step]
    split
    · exact ⟨hserial, hordered⟩
    · exact frame_ordered hserial hordered (frame_update s id _)
  | endTask id outcome =>
    rw [step]
    split
    · exact ⟨hserial, hordered⟩
    · exact finishTask_ordered hserial hordered outcome
  | takeover id =>
    rw [step]
    split
    · exact ⟨hserial, hordered⟩
    · exact cancelActive_ordered hserial hordered true
  | session x error =>
    exact ⟨hserial.congr (f := fun t => t) (fun _ => ⟨rfl, rfl⟩) (List.map_id' _).symm
      (fun _ _ => rfl) (fun _ => List.Subset.refl _) (List.Subset.refl _), hordered.congr rfl rfl⟩

/-! ## Runs -/

/-- What holds of the service in every run. -/
structure Invariant (s : TransferService) : Prop where
  listed : Listed s
  awake : Awake s
  serial : Serial s
  ordered : Ordered s

theorem invariant_start : Invariant {} where
  listed := ⟨fun _ _ hr => (by cases hr), fun _ _ hid => absurd hid List.not_mem_nil,
    fun _ => List.nodup_nil⟩
  awake := fun _ hne => absurd rfl hne
  serial := ⟨fun _ ht => absurd ht List.not_mem_nil, List.nodup_nil,
    fun _ ht => absurd ht List.not_mem_nil, fun _ ht => absurd ht List.not_mem_nil⟩
  ordered := ⟨fun _ => List.Perm.refl _, fun _ => List.Sublist.refl _, fun _ => List.nodup_nil⟩

theorem Invariant.step (h : Invariant s) {a : Action} (hpossible : Possible s a) :
    Invariant (step s a) := by
  obtain ⟨hlisted, hawake⟩ := step_shown h.listed h.awake hpossible h.serial.out
  obtain ⟨hserial, hordered⟩ := step_ordered h.listed h.awake h.serial h.ordered hpossible
  exact ⟨hlisted, hawake, hserial, hordered⟩

theorem invariant_run {actions : List Action}
    (h : Machine.Meets TransferService.step Possible {} actions) :
    Invariant (Machine.run TransferService.step {} actions) :=
  h.invariant (fun _ _ hs hpossible => hs.step hpossible) invariant_start

/-- In every run a session has at most one task, its operations are launched in the order in which
they were enqueued, and each is launched once, dropped for good, or waits. -/
theorem ordered_run {a : List Action}
    (h : Machine.Meets TransferService.step Possible {} a) (x : String) :
    let s := Machine.run TransferService.step {} a
    (∀ t ∈ s.tasks, ∀ u ∈ s.tasks, t.sessionId = x → u.sessionId = x → t = u) ∧
      (chronicle (QueueEvent.launched? x) s.log).Sublist
        (chronicle (QueueEvent.enqueued? x) s.log) ∧
      (chronicle (QueueEvent.enqueued? x) s.log).Perm
        (chronicle (QueueEvent.launched? x) s.log ++ chronicle (QueueEvent.dropped? x) s.log ++
          s.queues x) ∧
      (chronicle (QueueEvent.enqueued? x) s.log).Nodup := by
  intro s
  have hinv : Invariant s := invariant_run h
  refine ⟨fun t ht u hu htx hux => ?_, ?_, hinv.ordered.conserved x, hinv.ordered.once x⟩
  · exact hinv.serial.eq_of_sessionId ht hu (htx.trans hux.symm)
  · exact (List.sublist_append_left _ _).trans (hinv.ordered.inOrder x)

/-- Two transfers of a session; the second one is cancelled while it waits, the first one when the
terminal is taken over, and a third one begins once the queue is resumed. -/
def takenOver : List Action :=
  [.start "a" "ssh", .start "b" "ssh", .runWorker "ssh", .beginTask "a", .cancel "b",
    .start "c" "ssh", .takeover "a", .endTask "a" .cancelled, .runWorker "ssh", .resumeQueue "ssh",
    .runWorker "ssh"]

theorem ordered_run_takenOver :
    let s := Machine.run TransferService.step {} takenOver
    chronicle (QueueEvent.launched? "ssh") s.log = ["a", "c"] ∧
      chronicle (QueueEvent.dropped? "ssh") s.log = ["b"] ∧
      (chronicle (QueueEvent.enqueued? "ssh") s.log).Perm
        (chronicle (QueueEvent.launched? "ssh") s.log ++
          chronicle (QueueEvent.dropped? "ssh") s.log ++ s.queues "ssh") :=
  ⟨by decide +kernel, by decide +kernel,
    (ordered_run (a := takenOver) (by decide +kernel) "ssh").2.2.1⟩

/-- In every run the records show what is in the queues, and no queue is forgotten. -/
theorem shown_run {a : List Action}
    (h : Machine.Meets TransferService.step Possible {} a) :
    let s := Machine.run TransferService.step {} a
    (∀ id r, s.records id = some r →
      r.Consistent id (s.queues r.sessionId) (s.paused r.sessionId) (s.cancellers id)) ∧
      (∀ x, ∀ id ∈ s.queues x, ∃ r, s.records id = some r ∧ r.sessionId = x ∧ r.status = .queued) ∧
      ∀ x, s.queues x ≠ [] → s.paused x = false → s.workers x ≠ none := by
  intro s
  have hinv : Invariant s := invariant_run h
  exact ⟨hinv.listed.records, hinv.listed.queued, hinv.awake⟩

theorem shown_run_waiting :
    let s := Machine.run TransferService.step {} (takenOver.take 6)
    s.queues "ssh" = ["c"] ∧ s.workers "ssh" ≠ none ∧
      ∃ r, s.records "c" = some r ∧ r.status = .queued := by
  intro s
  have hqueue : s.queues "ssh" = ["c"] := by decide +kernel
  obtain ⟨-, hqueued, hworkers⟩ := shown_run (a := takenOver.take 6) (by decide +kernel)
  refine ⟨hqueue, hworkers "ssh" (by decide +kernel) (by decide +kernel), ?_⟩
  obtain ⟨r, hr, -, hstatus⟩ := hqueued "ssh" "c" (hqueue ▸ List.mem_cons_self)
  exact ⟨r, hr, hstatus⟩

end TransferService

end DeviceShell.Transfers
