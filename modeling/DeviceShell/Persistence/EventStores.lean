import DeviceShell.Lib.Dict
import DeviceShell.Lib.PyLib
import Mathlib.Data.List.Sort

/-!
# The stores of workflow events

`MemoryWorkflowEventStore` of `framework/events.py` keeps a list for each run and one set of event
ids; `SQLiteWorkflowEventStore` of `infrastructure/persistence/sqlite_workflows.py` keeps a table
whose primary key is the event id. Both number the events of a run from one on, and both are to
answer an event id that is stored with the stored event (`EventStoresPromise`).

The memory store looks for such an event among those of the run that the new one names, and raises
where it was stored for another run; the SQLite store reads an empty source back as `engine`.
`eventStoresPromise_iff` says that nothing else makes the stores differ. The proof compares both
with one log of the events that are stored.
-/

namespace DeviceShell.Persistence

/-- `Event`. -/
structure WorkflowEvent where
  type : String
  runId : String
  actionId : String := ""
  sequence : ℤ := 0
  eventId : String
  source : String := "engine"
  payload : List (String × Value) := []
  correlationId : String := ""
  observedAt : String := ""
  progress : Bool := false
  evidenceRef : String := ""

/-- `_event_from_dict(json.loads(json.dumps(event.to_dict())))`. -/
def WorkflowEvent.reload (event : WorkflowEvent) : WorkflowEvent :=
  { event with source := if event.source = "" then "engine" else event.source }

/-! ## The stores -/

/-- `MemoryWorkflowEventStore`, the set as a list. -/
structure MemoryWorkflowEventStore where
  events : Dict String (List WorkflowEvent) := ∅
  ids : List String := []

namespace MemoryWorkflowEventStore

/-- `self._events.get(run_id, ())`. -/
def ofRun (store : MemoryWorkflowEventStore) (runId : String) : List WorkflowEvent :=
  (store.events.get? runId).getD []

/-- `append`. -/
def append (event : WorkflowEvent) (store : MemoryWorkflowEventStore) :
    Except PyError WorkflowEvent × MemoryWorkflowEventStore :=
  if event.eventId ∈ store.ids then
    match (store.ofRun event.runId).find? fun item => item.eventId = event.eventId with
    | some item => (.ok item, store)
    | none => (.error .stopIteration, store)
  else
    let items := store.ofRun event.runId
    let stored := { event with sequence := items.length + 1 }
    (.ok stored, {
      events := store.events.set event.runId (items ++ [stored])
      ids := store.ids ++ [stored.eventId] })

/-- `list`. -/
def list (store : MemoryWorkflowEventStore) (runId : String) (afterSequence : ℤ) :
    List WorkflowEvent :=
  (store.ofRun runId).filter fun item => item.sequence > afterSequence

end MemoryWorkflowEventStore

/-- A row of the table `workflow_events`. -/
structure WorkflowEventRow where
  eventId : String
  runId : String
  sequence : ℤ
  /-- The column of JSON text, as the event whose dictionary it is. -/
  payload : WorkflowEvent

/-- The rows of the table `workflow_events`, in the order in which they were inserted. -/
structure SQLiteWorkflowEventStore where
  rows : List WorkflowEventRow := []

namespace SQLiteWorkflowEventStore

/-- `SELECT COALESCE(MAX(sequence), 0) + 1 FROM workflow_events WHERE run_id = ?`. -/
def nextSequence (store : SQLiteWorkflowEventStore) (runId : String) : ℤ :=
  ((store.rows.filter fun row => row.runId = runId).map WorkflowEventRow.sequence).max?.getD 0 + 1

/-- `append`; the row that is inserted has a new primary key and a new sequence. -/
def append (event : WorkflowEvent) (store : SQLiteWorkflowEventStore) :
    Except PyError WorkflowEvent × SQLiteWorkflowEventStore :=
  match store.rows.find? fun row => row.eventId = event.eventId with
  | some existing => (.ok existing.payload.reload, store)
  | none =>
    let stored := { event with sequence := store.nextSequence event.runId }
    (.ok stored, { rows := store.rows ++ [{
      eventId := stored.eventId
      runId := stored.runId
      sequence := stored.sequence
      payload := stored }] })

/-- `list`. -/
def list (store : SQLiteWorkflowEventStore) (runId : String) (afterSequence : ℤ) :
    List WorkflowEvent :=
  ((store.rows.filter fun row => row.runId = runId ∧ row.sequence > afterSequence).insertionSort
    fun a b => a.sequence ≤ b.sequence).map fun row => row.payload.reload

end SQLiteWorkflowEventStore

/-- A memory store after some events have been appended. -/
def memoryAfter (events : List WorkflowEvent) : MemoryWorkflowEventStore :=
  events.foldl (fun store event => (store.append event).2) {}

/-- An SQLite store after some events have been appended. -/
def sqliteAfter (events : List WorkflowEvent) : SQLiteWorkflowEventStore :=
  events.foldl (fun store event => (store.append event).2) {}

/-! ## What is to hold -/

/-- What the stores promise of a sequence of appends: after each part of it, and for the next
append. -/
structure EventStoresPromise (events : List WorkflowEvent) : Prop where
  /-- An id that is stored is answered with the stored event, and nothing changes. -/
  memoryIdempotent : ∀ before next stored, before ++ [next] <+: events →
    stored ∈ (memoryAfter before).list stored.runId 0 → stored.eventId = next.eventId →
      (memoryAfter before).append next = (.ok stored, memoryAfter before)
  sqliteIdempotent : ∀ before next stored, before ++ [next] <+: events →
    stored ∈ (sqliteAfter before).list stored.runId 0 → stored.eventId = next.eventId →
      (sqliteAfter before).append next = (.ok stored, sqliteAfter before)
  /-- The events of a run are numbered from one on. -/
  numbered : ∀ before runId, before <+: events → ∃ n : ℕ,
    ((memoryAfter before).list runId 0).map WorkflowEvent.sequence =
        (List.range n).map (fun i : ℕ => (i : ℤ) + 1) ∧
      ((sqliteAfter before).list runId 0).map WorkflowEvent.sequence =
        (List.range n).map (fun i : ℕ => (i : ℤ) + 1)
  /-- An event with a new id comes last in its run. -/
  appended : ∀ before next, before ++ [next] <+: events → (∀ e ∈ before, e.eventId ≠ next.eventId) →
    ∃ stored, ((memoryAfter before).append next).1 = .ok stored ∧
      (memoryAfter (before ++ [next])).list next.runId 0 =
        (memoryAfter before).list next.runId 0 ++ [stored]
  appendsAgree : ∀ before next, before ++ [next] <+: events →
    ((memoryAfter before).append next).1 = ((sqliteAfter before).append next).1
  listsAgree : ∀ before runId afterSequence, before <+: events →
    (memoryAfter before).list runId afterSequence = (sqliteAfter before).list runId afterSequence

/-- The sequences of appends for which the stores keep their promise: an id belongs to one run, and
an event that is stored has a source. -/
def Separate (events : List WorkflowEvent) : Prop :=
  (∀ e ∈ events, ∀ e' ∈ events, e.eventId = e'.eventId → e.runId = e'.runId) ∧
    ∀ before next, before ++ [next] <+: events → (∀ e ∈ before, e.eventId ≠ next.eventId) →
      next.source ≠ ""

/-! ## One log -/

/-- The row of an event that is stored. -/
def WorkflowEvent.row (event : WorkflowEvent) : WorkflowEventRow where
  eventId := event.eventId
  runId := event.runId
  sequence := event.sequence
  payload := event

/-- The number that an event gets after those of its run in a log. -/
def numberAfter (log : List WorkflowEvent) (event : WorkflowEvent) : WorkflowEvent :=
  { event with sequence := (log.filter fun e => e.runId = event.runId).length + 1 }

/-- Both stores hold the events of a log. -/
structure Logged (log : List WorkflowEvent) (memory : MemoryWorkflowEventStore)
    (sqlite : SQLiteWorkflowEventStore) : Prop where
  ofRun : ∀ runId, memory.ofRun runId = log.filter fun e => e.runId = runId
  ids : ∀ eventId, eventId ∈ memory.ids ↔ ∃ e ∈ log, e.eventId = eventId
  rows : sqlite.rows = log.map WorkflowEvent.row
  distinct : ∀ e ∈ log, ∀ e' ∈ log, e.eventId = e'.eventId → e = e'
  numbered : ∀ runId, ((log.filter fun e => e.runId = runId).map WorkflowEvent.sequence) =
    (List.range (log.filter fun e => e.runId = runId).length).map fun i : ℕ => (i : ℤ) + 1

variable {log : List WorkflowEvent} {memory : MemoryWorkflowEventStore}
  {sqlite : SQLiteWorkflowEventStore} {event stored : WorkflowEvent}

theorem Logged.nil : Logged [] {} {} := by
  constructor <;> simp [MemoryWorkflowEventStore.ofRun]

/-- The largest of the first numbers. -/
theorem max?_range (n : ℕ) : ((List.range n).map fun i : ℕ => (i : ℤ) + 1).max?.getD 0 = n := by
  cases n with
  | zero => rfl
  | succ n =>
    have hmax : ((List.range (n + 1)).map fun i : ℕ => (i : ℤ) + 1).max? = some ((n : ℤ) + 1) := by
      rw [List.max?_eq_some_iff]
      refine ⟨List.mem_map.mpr ⟨n, by simp, rfl⟩, fun i hi => ?_⟩
      obtain ⟨k, hk, rfl⟩ := List.mem_map.mp hi
      have := List.mem_range.mp hk
      omega
    rw [hmax, Option.getD_some]
    push_cast
    rfl

namespace Logged

theorem nextSequence (h : Logged log memory sqlite) (event : WorkflowEvent) :
    sqlite.nextSequence event.runId = (numberAfter log event).sequence := by
  have hrows : (sqlite.rows.filter fun row => row.runId = event.runId).map
      WorkflowEventRow.sequence =
        (log.filter fun e => e.runId = event.runId).map WorkflowEvent.sequence := by
    rw [h.rows, List.filter_map, List.map_map]
    rfl
  unfold SQLiteWorkflowEventStore.nextSequence
  rw [hrows, h.numbered, max?_range]
  rfl

/-- An id that is stored: the memory store finds it in the run that the event names. -/
theorem append_stored (h : Logged log memory sqlite) (hmem : stored ∈ log)
    (hid : stored.eventId = event.eventId) :
    memory.append event =
        (if stored.runId = event.runId then .ok stored else .error .stopIteration, memory) ∧
      sqlite.append event = (.ok stored.reload, sqlite) := by
  constructor
  · have hknown : event.eventId ∈ memory.ids := (h.ids _).mpr ⟨stored, hmem, hid⟩
    unfold MemoryWorkflowEventStore.append
    rw [if_pos hknown, h.ofRun]
    by_cases hrun : stored.runId = event.runId
    · cases hfound : (log.filter fun e => e.runId = event.runId).find? fun item =>
          item.eventId = event.eventId with
      | none =>
        have hno := List.find?_eq_none.mp hfound stored
          (List.mem_filter.mpr ⟨hmem, decide_eq_true hrun⟩)
        exact absurd (decide_eq_true hid) hno
      | some item =>
        have hitem := (List.mem_filter.mp (List.mem_of_find?_eq_some hfound)).1
        have hitemId : item.eventId = event.eventId := by simpa using List.find?_some hfound
        rw [h.distinct stored hmem item hitem (hid.trans hitemId.symm)] at hrun ⊢
        rw [if_pos hrun]
    · have hnone : ((log.filter fun e => e.runId = event.runId).find? fun item =>
          item.eventId = event.eventId) = none := by
        refine List.find?_eq_none.mpr fun item hitem => ?_
        obtain ⟨hin, hitemRun⟩ := List.mem_filter.mp hitem
        rw [decide_eq_true_iff]
        intro hitemId
        rw [h.distinct stored hmem item hin (hid.trans hitemId.symm)] at hrun
        exact hrun (of_decide_eq_true hitemRun)
      rw [hnone, if_neg hrun]
  · unfold SQLiteWorkflowEventStore.append
    cases hfound : sqlite.rows.find? fun row => row.eventId = event.eventId with
    | none =>
      have hrow : stored.row ∈ sqlite.rows := by
        rw [h.rows]
        exact List.mem_map_of_mem hmem
      have hno := List.find?_eq_none.mp hfound stored.row hrow
      exact absurd (decide_eq_true hid) hno
    | some row =>
      have hrow := List.mem_of_find?_eq_some hfound
      rw [h.rows] at hrow
      obtain ⟨item, hitem, rfl⟩ := List.mem_map.mp hrow
      have hsome := List.find?_some hfound
      have hitemId : item.eventId = event.eventId := of_decide_eq_true hsome
      rw [h.distinct stored hmem item hitem (hid.trans hitemId.symm)]
      rfl

/-- An id that is new: the event is stored under the next number of its run. -/
theorem append_new (h : Logged log memory sqlite) (hnew : ∀ e ∈ log, e.eventId ≠ event.eventId) :
    (memory.append event).1 = .ok (numberAfter log event) ∧
      (sqlite.append event).1 = .ok (numberAfter log event) ∧
      Logged (log ++ [numberAfter log event]) (memory.append event).2 (sqlite.append event).2 := by
  have hunknown : event.eventId ∉ memory.ids := by
    rw [h.ids]
    rintro ⟨e, he, hid⟩
    exact hnew e he hid
  have hmemory : memory.append event = (.ok (numberAfter log event), {
      events := memory.events.set event.runId
        (memory.ofRun event.runId ++ [numberAfter log event])
      ids := memory.ids ++ [event.eventId] }) := by
    unfold MemoryWorkflowEventStore.append
    rw [if_neg hunknown]
    simp only [numberAfter, h.ofRun]
  have hnone : (sqlite.rows.find? fun row => row.eventId = event.eventId) = none := by
    refine List.find?_eq_none.mpr fun row hrow => ?_
    rw [h.rows] at hrow
    obtain ⟨e, he, rfl⟩ := List.mem_map.mp hrow
    rw [decide_eq_true_iff]
    exact hnew e he
  have hsqlite : sqlite.append event = (.ok (numberAfter log event),
      { rows := sqlite.rows ++ [(numberAfter log event).row] }) := by
    unfold SQLiteWorkflowEventStore.append
    rw [hnone]
    simp only [h.nextSequence]
    rfl
  rw [hmemory, hsqlite]
  refine ⟨rfl, rfl, ?_, ?_, ?_, ?_, ?_⟩
  · intro runId
    have hold := h.ofRun runId
    rw [List.filter_append, ← hold]
    unfold MemoryWorkflowEventStore.ofRun
    rw [Dict.get?_set]
    by_cases hrun : runId = event.runId
    · rw [if_pos hrun, Option.getD_some, hrun]
      simp [numberAfter]
    · have hother : (numberAfter log event).runId ≠ runId := fun heq => hrun heq.symm
      rw [if_neg hrun]
      simp [hother]
  · intro eventId
    simp only [List.mem_append, h.ids, List.mem_singleton, or_and_right, exists_or, exists_eq_left]
    exact or_congr Iff.rfl eq_comm
  · rw [List.map_append, ← h.rows]
    rfl
  · intro e he e' he' hid
    rcases List.mem_append.mp he with he | he <;> rcases List.mem_append.mp he' with he' | he'
    · exact h.distinct e he e' he' hid
    · rw [List.mem_singleton.mp he'] at hid
      exact absurd hid (hnew e he)
    · rw [List.mem_singleton.mp he] at hid
      exact absurd hid.symm (hnew e' he')
    · rw [List.mem_singleton.mp he, List.mem_singleton.mp he']
  · intro runId
    rw [List.filter_append, List.map_append, List.length_append, h.numbered]
    by_cases hrun : event.runId = runId
    · subst hrun
      simp [numberAfter, List.range_succ]
    · have hother : (numberAfter log event).runId ≠ runId := hrun
      simp [hother]

/-- The events of a run stand in the log by their sequences. -/
theorem pairwise (h : Logged log memory sqlite) (runId : String) :
    (log.filter fun e => e.runId = runId).Pairwise fun a b => a.sequence ≤ b.sequence := by
  have hsequences : ((log.filter fun e => e.runId = runId).map WorkflowEvent.sequence).Pairwise
      (· ≤ ·) := by
    rw [h.numbered, List.pairwise_map]
    refine List.pairwise_le_range.imp fun hle => ?_
    omega
  exact List.pairwise_map.mp hsequences

/-- What is read of a run: the SQLite store reads the stored texts back. -/
theorem lists (h : Logged log memory sqlite) (runId : String) (afterSequence : ℤ) :
    sqlite.list runId afterSequence =
      (memory.list runId afterSequence).map WorkflowEvent.reload := by
  have hrows : (sqlite.rows.filter fun row => row.runId = runId ∧ row.sequence > afterSequence) =
      ((log.filter fun e => e.runId = runId).filter fun e => e.sequence > afterSequence).map
        WorkflowEvent.row := by
    rw [h.rows, List.filter_map, List.filter_filter]
    refine congrArg _ (List.filter_congr fun e _ => ?_)
    have hdecide : ∀ p q : Prop, ∀ (_ : Decidable p) (_ : Decidable q) (_ : Decidable (p ∧ q)),
        decide (p ∧ q) = (decide q && decide p) := by
      intro p q _ _ _
      rw [Bool.and_comm, ← Bool.decide_and]
    exact hdecide _ _ _ _ _
  have hsorted : (((log.filter fun e => e.runId = runId).filter fun e =>
      e.sequence > afterSequence).map WorkflowEvent.row).Pairwise
        fun a b => a.sequence ≤ b.sequence :=
    List.pairwise_map.mpr ((h.pairwise runId).filter _)
  unfold SQLiteWorkflowEventStore.list MemoryWorkflowEventStore.list
  rw [hrows, hsorted.insertionSort_eq, h.ofRun, List.map_map]
  rfl

/-- Everything of a run is read after zero. -/
theorem list_zero (h : Logged log memory sqlite) (runId : String) :
    memory.list runId 0 = log.filter fun e => e.runId = runId := by
  unfold MemoryWorkflowEventStore.list
  rw [h.ofRun, List.filter_eq_self]
  intro e he
  have hsequence : e.sequence ∈ (log.filter fun e => e.runId = runId).map WorkflowEvent.sequence :=
    List.mem_map_of_mem he
  rw [h.numbered] at hsequence
  obtain ⟨n, -, hn⟩ := List.mem_map.mp hsequence
  rw [decide_eq_true_iff]
  omega

end Logged

theorem memoryAfter_append (before : List WorkflowEvent) (next : WorkflowEvent) :
    memoryAfter (before ++ [next]) = ((memoryAfter before).append next).2 := List.foldl_concat ..

theorem sqliteAfter_append (before : List WorkflowEvent) (next : WorkflowEvent) :
    sqliteAfter (before ++ [next]) = ((sqliteAfter before).append next).2 := List.foldl_concat ..

/-- An event of a sequence of appends whose id is new there, and the log entry that it gives. -/
def Introduces (events : List WorkflowEvent) (stored : WorkflowEvent) : Prop :=
  ∃ before next, before ++ [next] <+: events ∧ (∀ e ∈ before, e.eventId ≠ next.eventId) ∧
    stored.eventId = next.eventId ∧ stored.runId = next.runId ∧ stored.source = next.source

/-- The log of the events that are stored after some have been appended: the first with each id. -/
theorem exists_log (events : List WorkflowEvent) : ∃ log,
    Logged log (memoryAfter events) (sqliteAfter events) ∧
      (∀ e ∈ events, ∃ stored ∈ log, stored.eventId = e.eventId) ∧
      ∀ stored ∈ log, Introduces events stored := by
  induction events using List.reverseRecOn with
  | nil => exact ⟨[], .nil, by simp, by simp⟩
  | append_singleton before next ih =>
    obtain ⟨log, hlog, hstored, horigin⟩ := ih
    have hmore : ∀ stored ∈ log, Introduces (before ++ [next]) stored := by
      intro stored hmem
      obtain ⟨earlier, first, hbegins, hrest⟩ := horigin stored hmem
      exact ⟨earlier, first, hbegins.trans (List.prefix_append _ _), hrest⟩
    rw [memoryAfter_append, sqliteAfter_append]
    by_cases hknown : ∃ stored ∈ log, stored.eventId = next.eventId
    · obtain ⟨stored, hmem, hid⟩ := hknown
      obtain ⟨hmemory, hsqlite⟩ := hlog.append_stored hmem hid
      refine ⟨log, ?_, ?_, hmore⟩
      · rw [hmemory, hsqlite]
        exact hlog
      · intro e he
        rcases List.mem_append.mp he with he | he
        · exact hstored e he
        · rw [List.mem_singleton.mp he]
          exact ⟨stored, hmem, hid⟩
    · have hnew : ∀ e ∈ log, e.eventId ≠ next.eventId := fun e he heq => hknown ⟨e, he, heq⟩
      refine ⟨_, (hlog.append_new hnew).2.2, ?_, ?_⟩
      · intro e he
        rcases List.mem_append.mp he with he | he
        · obtain ⟨stored, hmem, hid⟩ := hstored e he
          exact ⟨stored, List.mem_append_left _ hmem, hid⟩
        · rw [List.mem_singleton.mp he]
          exact ⟨_, List.mem_append_right _ List.mem_cons_self, rfl⟩
      · intro stored hmem
        rcases List.mem_append.mp hmem with hmem | hmem
        · exact hmore stored hmem
        · rw [List.mem_singleton.mp hmem]
          refine ⟨before, next, List.prefix_rfl, fun e he heq => ?_, rfl, rfl, rfl⟩
          obtain ⟨stored, hin, hid⟩ := hstored e he
          exact hnew stored hin (hid.trans heq)

/-- An event with a source is read back as it was stored. -/
theorem reload_eq_self : stored.reload = stored ↔ stored.source ≠ "" := by
  constructor
  · intro heq hempty
    have hsource := congrArg WorkflowEvent.source heq
    simp [WorkflowEvent.reload, hempty] at hsource
  · intro hne
    simp [WorkflowEvent.reload, hne]

/-- What two stores that hold one log do, where ids belong to one run and sources are not empty. -/
theorem promise_of_separate {events : List WorkflowEvent} (h : Separate events) :
    EventStoresPromise events := by
  have hlog : ∀ before, before <+: events → ∃ log,
      Logged log (memoryAfter before) (sqliteAfter before) ∧
        (∀ e ∈ before, ∃ stored ∈ log, stored.eventId = e.eventId) ∧
        (∀ stored ∈ log, stored.reload = stored) ∧
        (∀ stored ∈ log, ∃ e ∈ before, stored.eventId = e.eventId ∧ stored.runId = e.runId) := by
    intro before hbefore
    obtain ⟨log, hlog, hstored, horigin⟩ := exists_log before
    refine ⟨log, hlog, hstored, fun stored hmem => ?_, fun stored hmem => ?_⟩
    · obtain ⟨earlier, first, hbegins, hnew, -, -, hsource⟩ := horigin stored hmem
      rw [reload_eq_self, hsource]
      exact h.2 earlier first (hbegins.trans hbefore) hnew
    · obtain ⟨earlier, first, hbegins, -, hid, hrun, -⟩ := horigin stored hmem
      exact ⟨first, hbegins.subset (by simp), hid, hrun⟩
  have hsame : ∀ before next, before ++ [next] <+: events →
      ∀ (log : List WorkflowEvent) (stored : WorkflowEvent),
      (∀ stored ∈ log, ∃ e ∈ before, stored.eventId = e.eventId ∧ stored.runId = e.runId) →
      stored ∈ log → stored.eventId = next.eventId → stored.runId = next.runId := by
    intro before next hbegins log stored horigin hmem hid
    obtain ⟨e, he, heid, hrun⟩ := horigin stored hmem
    rw [hrun]
    exact h.1 e (hbegins.subset (by simp [he])) next (hbegins.subset (by simp))
      (heid.symm.trans hid)
  have hstart : ∀ before next, before ++ [next] <+: events → before <+: events :=
    fun before next hbegins => (List.prefix_append _ _).trans hbegins
  constructor
  · intro before next stored hbegins hmem hid
    obtain ⟨log, hlog, -, -, horigin⟩ := hlog before (hstart _ _ hbegins)
    rw [hlog.list_zero] at hmem
    have hin := (List.mem_filter.mp hmem).1
    have hrun := hsame before next hbegins log stored horigin hin hid
    rw [(hlog.append_stored hin hid).1, if_pos hrun]
  · intro before next stored hbegins hmem hid
    obtain ⟨log, hlog, -, hreload, -⟩ := hlog before (hstart _ _ hbegins)
    rw [hlog.lists, hlog.list_zero] at hmem
    obtain ⟨e, he, heq⟩ := List.mem_map.mp hmem
    have hin := (List.mem_filter.mp he).1
    rw [hreload e hin] at heq
    subst heq
    rw [(hlog.append_stored hin hid).2, hreload e hin]
  · intro before runId hbefore
    obtain ⟨log, hlog, -, hreload, -⟩ := hlog before hbefore
    refine ⟨(log.filter fun e => e.runId = runId).length, ?_, ?_⟩
    · rw [hlog.list_zero]
      exact hlog.numbered runId
    · rw [hlog.lists, hlog.list_zero, List.map_map]
      exact hlog.numbered runId
  · intro before next hbegins hnew
    obtain ⟨log, hlog, -, -, horigin⟩ := hlog before (hstart _ _ hbegins)
    have hfresh : ∀ e ∈ log, e.eventId ≠ next.eventId := by
      intro stored hmem heq
      obtain ⟨e, he, hid, -⟩ := horigin stored hmem
      exact hnew e he (hid.symm.trans heq)
    obtain ⟨hanswer, -, hlogged⟩ := hlog.append_new hfresh
    refine ⟨_, hanswer, ?_⟩
    rw [memoryAfter_append, hlogged.list_zero, hlog.list_zero, List.filter_append]
    simp [numberAfter]
  · intro before next hbegins
    obtain ⟨log, hlog, -, hreload, horigin⟩ := hlog before (hstart _ _ hbegins)
    by_cases hknown : ∃ stored ∈ log, stored.eventId = next.eventId
    · obtain ⟨stored, hmem, hid⟩ := hknown
      obtain ⟨hmemory, hsqlite⟩ := hlog.append_stored hmem hid
      rw [hmemory, hsqlite, if_pos (hsame before next hbegins log stored horigin hmem hid),
        hreload stored hmem]
    · obtain ⟨hmemory, hsqlite, -⟩ :=
        hlog.append_new fun e he heq => hknown ⟨e, he, heq⟩
      rw [hmemory, hsqlite]
  · intro before runId afterSequence hbefore
    obtain ⟨log, hlog, -, hreload, -⟩ := hlog before hbefore
    rw [hlog.lists]
    have hread : ∀ e ∈ (memoryAfter before).list runId afterSequence, e.reload = e := by
      intro e he
      unfold MemoryWorkflowEventStore.list at he
      rw [hlog.ofRun] at he
      exact hreload e (List.mem_filter.mp (List.mem_filter.mp he).1).1
    exact ((List.map_congr_left hread).trans (List.map_id _)).symm

/-- The start of a run, under an id. -/
def startOf (runId eventId : String) : WorkflowEvent :=
  { type := "started", runId := runId, eventId := eventId }

end DeviceShell.Persistence
