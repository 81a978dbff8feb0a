import DeviceShell.Ai.Results

/-!
# Reading does not change what is stored

Histories of the calls whose results the AI service keeps. A call looks at the cache when it begins
and stores its result when it finishes; others may come in between. `Faithful` says that what is
stored reads as it did at first, and that a repeated call gets the response that was given first. It
holds as long as no call without the raw output finds an output among the results of a payload, and
no call finishes whose response is cached by then (`faithful_of_harmless`).
-/

namespace DeviceShell.Ai

open ResultStore

/-- The service and the calls that are under way: source, kind and idempotency key. -/
structure Service where
  store : ResultStore := {}
  pending : List (String × String × String) := []
  /-- The responses that callers hold. -/
  responses : List ℕ := []

/-- What happens at the service. -/
inductive Event where
  | begin (source kind key : String)
  | finish (source key : String) (result : Finished)
  | finishParallel (hex : String) (outcomes : List ParallelOutcome)
  | getResult (id : String) (includeRaw : Bool)

/-- `uuid4` gives ids that are not in use. -/
def ResultStore.Fresh (s : ResultStore) (hexes : List String) : Prop :=
  hexes.Nodup ∧ ∀ hex ∈ hexes, s.results.get? (resultId hex) = none

instance (s : ResultStore) (hexes : List String) : Decidable (s.Fresh hexes) :=
  inferInstanceAs (Decidable (_ ∧ ∀ hex ∈ hexes, s.results.get? (resultId hex) = none))

/-- A response that is given to the caller. -/
def Service.give (s : Service) (given : ResultStore × ℕ) : Service × Option ℕ :=
  ({ s with store := given.1, responses := given.2 :: s.responses }, some given.2)

/-- What the service does, and the response that it gives. -/
def Service.step (s : Service) : Event → Service × Option ℕ
  | .begin source kind key =>
    match s.store.cached source kind key with
    | some given => s.give given
    | none => ({ s with pending := (source, kind, key) :: s.pending }, none)
  | .finish source key result =>
    if (source, result.kind, key) ∈ s.pending ∧ s.store.Fresh result.hexes then
      let (store, n) := s.store.store result
      { s with pending := s.pending.erase (source, result.kind, key) }.give
        (store.cache source result.kind key n, n)
    else (s, none)
  | .finishParallel hex outcomes =>
    if (∀ n ∈ outcomes.filterMap ParallelOutcome.response?, n ∈ s.responses) ∧
        s.store.Fresh [hex] then
      s.give (s.store.storeParallel hex outcomes)
    else (s, none)
  | .getResult id includeRaw =>
    match s.store.getResult id includeRaw with
    | some given => s.give given
    | none => (s, none)

/-- The call that an event answers, if it answers one with an idempotency key. -/
def Event.call? : Event → Option (String × String × String)
  | .begin source kind key => some (source, kind, key)
  | .finish source key result => some (source, result.kind, key)
  | _ => none

/-- The service with what was stored under every key when it was, and the response that was given
first to every call. -/
structure History where
  service : Service := {}
  stored : String → Option Value := fun _ => none
  given : String × String × String → Option Value := fun _ => none

/-- An event of a history. -/
def History.step (h : History) (e : Event) : History :=
  let (service, response) := h.service.step e
  { service := service
    stored := fun k => match h.stored k with
      | some v => some v
      | none => (service.store.results.get? k).bind service.store.heap.reading
    given := fun call => match h.given call with
      | some v => some v
      | none => if e.call? = some call then response.bind service.store.heap.reading else none }

theorem History.step_service (h : History) (e : Event) :
    (h.step e).service = (h.service.step e).1 := rfl

theorem History.step_stored (h : History) (e : Event) (k : String) :
    (h.step e).stored k = match h.stored k with
      | some v => some v
      | none => ((h.service.step e).1.store.results.get? k).bind
          (h.service.step e).1.store.heap.reading := rfl

theorem History.step_given (h : History) (e : Event) (call : String × String × String) :
    (h.step e).given call = match h.given call with
      | some v => some v
      | none => if e.call? = some call then
          (h.service.step e).2.bind (h.service.step e).1.store.heap.reading
        else none := rfl

/-- What is stored reads as it did when it was stored, and a repeated call with an idempotency key
gets the response that was given first. -/
structure Faithful (h : History) : Prop where
  raw : ∀ id v, h.stored id = some v → ∃ store n,
    h.service.store.getResult id true = some (store, n) ∧ store.heap.reading n = some v
  repeated : ∀ source kind key v, key ≠ "" → h.given (source, kind, key) = some v → ∃ store n,
    h.service.store.cached source kind key = some (store, n) ∧ store.heap.reading n = some v

/-- Whether an item of a payload's results holds an output. -/
def ResultStore.holdsOutput (s : ResultStore) (id : String) : Bool :=
  match (s.results.get? id).bind s.heap.dict? with
  | some payload => (s.items payload).any fun
    | .ref n => (s.heap.dict? n).any fun d => (d.get? "output").isSome
    | .plain _ => false
  | none => false

/-- An event that changes nothing that is stored: a call without the raw output finds no output among
the results, and a call that finishes is not answered from the cache by then. -/
def Harmless (h : History) : Event → Prop
  | .getResult id false => h.service.store.holdsOutput id = false
  | .finish source key result => key ≠ "" →
      h.service.store.results.get? (idemKey source result.kind key) = none
  | _ => True

instance decidableHarmless : ∀ (h : History) (e : Event), Decidable (Harmless h e)
  | h, .getResult id false => inferInstanceAs (Decidable (h.service.store.holdsOutput id = false))
  | h, .finish source key result => inferInstanceAs (Decidable (key ≠ "" →
      h.service.store.results.get? (idemKey source result.kind key) = none))
  | _, .getResult _ true | _, .begin .. | _, .finishParallel .. => inferInstanceAs (Decidable True)

/-! ## Growing stores -/

/-- There is a payload at a place. -/
def ResultStore.Payload (s : ResultStore) (n : ℕ) : Prop :=
  ∃ d, s.heap.dict? n = some d ∧ d.entries ≠ []

/-- The objects hold older ones, and what is stored are payloads. -/
structure ResultStore.Good (s : ResultStore) : Prop where
  older : s.heap.Scoped
  payload : ∀ k n, s.results.get? k = some n → s.Payload n

/-- A store to which something was added. -/
structure ResultStore.Grows (s s' : ResultStore) : Prop where
  heap : s.heap <+: s'.heap
  results : ∀ k n, s.results.get? k = some n → s'.results.get? k = some n
  good : s'.Good

namespace ResultStore

variable {s s' s'' : ResultStore}

theorem Payload.lt {n : ℕ} (h : s.Payload n) : n < s.heap.length := by
  obtain ⟨d, hd, -⟩ := h
  exact (List.getElem?_eq_some_iff.mp (ObjectHeap.dict?_eq_some.mp hd)).1

theorem Payload.of_grown {n : ℕ} (h : s.Payload n) (hgrow : s.heap <+: s'.heap) :
    s'.Payload n := by
  obtain ⟨d, hd, hne⟩ := h
  refine ⟨d, ObjectHeap.dict?_eq_some.mpr ?_, hne⟩
  exact ObjectHeap.getElem?_of_grown hgrow (ObjectHeap.dict?_eq_some.mp hd)

theorem Good.grows (h : s.Good) : s.Grows s := ⟨List.prefix_refl _, fun _ _ => id, h⟩

theorem Grows.trans (h : s.Grows s') (h' : s'.Grows s'') : s.Grows s'' :=
  ⟨h.heap.trans h'.heap, fun k n hn => h'.results k n (h.results k n hn), h'.good⟩

theorem alloc_grows (h : s.Good) {o : Object} (ho : ∀ m ∈ o.refs, m < s.heap.length) :
    s.Grows (s.alloc o).1 where
  heap := List.prefix_append _ _
  results := fun _ _ => id
  good := {
    older := ObjectHeap.scoped_alloc h.older ho
    payload := fun k n hn => (h.payload k n hn).of_grown (List.prefix_append _ _) }

/-- A payload is put under a key that was free. -/
theorem set_grows (h : s.Good) {k : String} (hfree : s.results.get? k = none) {n : ℕ}
    (hn : s.Payload n) : s.Grows { s with results := s.results.set k n } where
  heap := List.prefix_refl _
  results := by
    intro k' n' hn'
    rw [Dict.get?_set_of_ne _ (by rintro rfl; rw [hfree] at hn'; cases hn')]
    exact hn'
  good := {
    older := h.older
    payload := by
      intro k' n' hn'
      rw [Dict.get?_set] at hn'
      split_ifs at hn' with hk
      · cases hn'
        exact hn
      · exact h.payload k' n' hn' }

theorem payload_alloc (s : ResultStore) {d : Dict String Slot} (hne : d.entries ≠ []) :
    (s.alloc (.dict d)).1.Payload (s.alloc (.dict d)).2 :=
  ⟨d, ObjectHeap.dict?_eq_some.mpr (ObjectHeap.getElem?_alloc _ _), hne⟩

theorem lt_alloc (s : ResultStore) (o : Object) : s.heap.length < (s.alloc o).1.heap.length := by
  show List.length _ < List.length (_ ++ [_])
  rw [List.length_append, List.length_singleton]
  exact Nat.lt_succ_self _

/-- The fields that every payload has. -/
def payloadHead (hex kind : String) : Dict String Slot :=
  ⟨[("ok", .plain (.bool true)), ("result_id", text (resultId hex)), ("kind", text kind)]⟩

/-- A store to which results with some ids were added, and under no other key. -/
structure Adds (s s' : ResultStore) (hexes : List String) : Prop where
  grows : s.Grows s'
  others : ∀ k, k ∉ hexes.map resultId → s'.results.get? k = s.results.get? k

theorem Adds.trans {hexes hexes' : List String} (h : s.Adds s' hexes) (h' : s'.Adds s'' hexes') :
    s.Adds s'' (hexes ++ hexes') where
  grows := h.grows.trans h'.grows
  others := by
    intro k hk
    rw [List.map_append, List.mem_append, not_or] at hk
    rw [h'.others k hk.2, h.others k hk.1]

theorem resultId_injective {a b : String} (h : resultId a = resultId b) : a = b :=
  (String.append_right_inj "ai-").mp h

theorem idemKey_ne_resultId (source kind key hex : String) :
    idemKey source kind key ≠ resultId hex := by
  intro h
  have hlist := congrArg String.toList h
  simp [idemKey, resultId] at hlist

/-- Freshness is kept by what adds other ids. -/
theorem Fresh.after (hexes hexes' : List String) (hfresh : s.Fresh (hexes ++ hexes'))
    (hadds : s.Adds s' hexes) : s'.Fresh hexes' := by
  obtain ⟨hnodup, hfree⟩ := hfresh
  obtain ⟨-, hrest, hdisjoint⟩ := List.nodup_append.mp hnodup
  refine ⟨hrest, fun hex hhex => ?_⟩
  rw [hadds.others]
  · exact hfree hex (List.mem_append_right _ hhex)
  · intro hmem
    obtain ⟨hex', hhex', hsame⟩ := List.mem_map.mp hmem
    exact hdisjoint hex' hhex' hex hhex (resultId_injective hsame)

theorem alloc_adds (h : s.Good) {o : Object} (ho : ∀ m ∈ o.refs, m < s.heap.length) :
    s.Adds (s.alloc o).1 [] := ⟨alloc_grows h ho, fun _ _ => rfl⟩

/-- A result is stored under a fresh id, and a copy of the payload is returned. -/
theorem storeResult_adds (h : s.Good) {hex : String}
    (hfree : s.results.get? (resultId hex) = none) (kind : String) {data : Dict String Slot}
    (hdata : ∀ m ∈ (Object.dict data).refs, m < s.heap.length) :
    s.Adds (s.storeResult hex kind data).1 [hex] ∧
      (s.storeResult hex kind data).1.Payload (s.storeResult hex kind data).2 := by
  have hrefs : ∀ m ∈ (Object.dict ((payloadHead hex kind).merge data)).refs, m < s.heap.length := by
    intro m hm
    refine (ObjectHeap.refs_merge hm).elim (fun hhead => ?_) (hdata m)
    cases hhead
  have hne : ((payloadHead hex kind).merge data).entries ≠ [] :=
    ObjectHeap.merge_ne_nil (List.cons_ne_nil _ _) data
  have hfirst := alloc_grows h hrefs
  have hset := set_grows hfirst.good hfree (payload_alloc s hne)
  have hcopy := alloc_grows hset.good (o := .dict ((payloadHead hex kind).merge data))
    fun m hm => (hrefs m hm).trans_le (hfirst.heap.length_le)
  refine ⟨⟨(hfirst.trans hset).trans hcopy, fun k hk => ?_⟩, ?_⟩
  · exact Dict.get?_set_of_ne _ (by simpa using hk) _
  · exact payload_alloc _ hne

/-- The results of a batch's commands. -/
theorem storeRows_adds (sessionId deviceId : String) {rows : List CommandRow} (h : s.Good)
    (hfresh : s.Fresh (rows.map CommandRow.hex)) (index : ℕ) :
    s.Adds (storeRows sessionId deviceId s index rows).1 (rows.map CommandRow.hex) ∧
      ∀ n ∈ (storeRows sessionId deviceId s index rows).2,
        n < (storeRows sessionId deviceId s index rows).1.heap.length := by
  induction rows generalizing s index with
  | nil => exact ⟨⟨h.grows, fun _ _ => rfl⟩, fun n hn => absurd hn List.not_mem_nil⟩
  | cons row rows ih =>
    have hdata : ∀ m ∈ (Object.dict (rowData sessionId deviceId index row)).refs,
        m < s.heap.length := fun m hm => by cases hm
    obtain ⟨hstored, hplace⟩ := storeResult_adds h (hfresh.2 row.hex List.mem_cons_self) "command"
      hdata
    obtain ⟨hrest, hplaces⟩ := ih hstored.grows.good
      (Fresh.after [row.hex] _ hfresh hstored) (index + 1)
    refine ⟨hstored.trans hrest, fun n hn => ?_⟩
    rcases List.mem_cons.mp hn with rfl | hn
    · exact hplace.lt.trans_le hrest.grows.heap.length_le
    · exact hplaces n hn

/-- The items of a parallel execution. -/
theorem allocItems_adds {items : List (Dict String Slot)} (h : s.Good)
    (hitems : ∀ item ∈ items, ∀ m ∈ (Object.dict item).refs, m < s.heap.length) :
    s.Adds (s.allocItems items).1 [] ∧
      ∀ n ∈ (s.allocItems items).2, n < (s.allocItems items).1.heap.length := by
  induction items generalizing s with
  | nil => exact ⟨⟨h.grows, fun _ _ => rfl⟩, fun n hn => absurd hn List.not_mem_nil⟩
  | cons item items ih =>
    have hfirst := alloc_adds h (hitems item List.mem_cons_self)
    obtain ⟨hrest, hplaces⟩ := ih hfirst.grows.good fun item' hitem m hm =>
      (hitems item' (List.mem_cons_of_mem _ hitem) m hm).trans_le hfirst.grows.heap.length_le
    refine ⟨hfirst.trans hrest, fun n hn => ?_⟩
    rcases List.mem_cons.mp hn with rfl | hn
    · exact (lt_alloc s (.dict item)).trans_le hrest.grows.heap.length_le
    · exact hplaces n hn

/-- A list of objects and a payload that holds the list. -/
theorem storeList_adds (h : s.Good) {ns : List ℕ} (hns : ∀ n ∈ ns, n < s.heap.length) {hex : String}
    (hfree : s.results.get? (resultId hex) = none) (kind : String) (data : ℕ → Dict String Slot)
    (hdata : ∀ n, ∀ m ∈ (Object.dict (data n)).refs, m = n) :
    let listed := s.alloc (.list (ns.map Slot.ref))
    s.Adds (listed.1.storeResult hex kind (data listed.2)).1 [hex] ∧
      (listed.1.storeResult hex kind (data listed.2)).1.Payload
        (listed.1.storeResult hex kind (data listed.2)).2 := by
  have hlist := alloc_adds h (o := .list (ns.map Slot.ref)) fun m hm => by
    obtain ⟨slot, hslot, href⟩ := List.mem_filterMap.mp hm
    obtain ⟨n, hn, rfl⟩ := List.mem_map.mp hslot
    obtain rfl : n = m := Option.some.inj href
    exact hns n hn
  have hbelow : ∀ m ∈ (Object.dict (data s.heap.length)).refs,
      m < (s.alloc (.list (ns.map Slot.ref))).1.heap.length := by
    intro m hm
    rw [hdata _ m hm]
    exact lt_alloc s _
  obtain ⟨hstored, hplace⟩ := storeResult_adds hlist.grows.good hfree kind hbelow
  exact ⟨hlist.trans hstored, hplace⟩

/-- What a finished execution adds. -/
theorem store_adds (h : s.Good) {result : Finished} (hfresh : s.Fresh result.hexes) :
    s.Adds (s.store result).1 result.hexes ∧ (s.store result).1.Payload (s.store result).2 := by
  cases result with
  | command hex sessionId deviceId command output =>
    exact storeResult_adds h (hfresh.2 hex List.mem_cons_self) "command" fun m hm => by cases hm
  | skill row =>
    exact storeResult_adds h (hfresh.2 row.hex List.mem_cons_self) "skill" fun m hm => by cases hm
  | batch row =>
    have hrows : s.Fresh (row.rows.map CommandRow.hex) :=
      ⟨(List.nodup_append.mp hfresh.1).1, fun hex hhex => hfresh.2 hex (List.mem_append_left _ hhex)⟩
    obtain ⟨hadds, hplaces⟩ := storeRows_adds row.sessionId row.deviceId h hrows 0
    have hown := (Fresh.after _ [row.hex] hfresh hadds).2 row.hex List.mem_cons_self
    obtain ⟨hlist, hplace⟩ := storeList_adds hadds.grows.good hplaces hown "batch" (batchData row)
      fun n m hm => by simpa [Object.refs, batchData, text, Slot.ref?] using hm
    exact ⟨hadds.trans hlist, hplace⟩

/-- What the item of a request holds is in the heap, when the response is. -/
theorem refs_parallelItem (h : s.Good) {index m : ℕ} {outcome : ParallelOutcome}
    (houtcome : ∀ n, outcome.response? = some n → n < s.heap.length)
    (hm : m ∈ (Object.dict (parallelItem s.heap index outcome)).refs) : m < s.heap.length := by
  cases outcome with
  | failed error => cases hm
  | response n =>
    have hn := houtcome n rfl
    obtain ⟨e, he, href⟩ := List.mem_filterMap.mp hm
    simp only [parallelItem, List.mem_cons, List.not_mem_nil, or_false] at he
    rcases he with rfl | rfl | rfl
    · cases href
    · -- The status is a slot of the response.
      cases hd : s.heap.dict? n with
      | none =>
        rw [hd] at href
        cases href
      | some d =>
        rw [hd] at href
        cases hstatus : d.get? "status" with
        | none =>
          simp only [Option.bind_some, hstatus, Option.getD_none] at href
          cases href
        | some slot =>
          simp only [Option.bind_some, hstatus, Option.getD_some] at href
          have hmem : m ∈ (Object.dict d).refs :=
            List.mem_filterMap.mpr ⟨("status", slot), Dict.mem_of_get? hstatus, href⟩
          exact (h.older n _ (ObjectHeap.dict?_eq_some.mp hd) m hmem).trans hn
    · cases href
      exact hn

/-- What a parallel execution adds, when the responses are in the heap. -/
theorem storeParallel_adds (h : s.Good) {hex : String} (hfresh : s.Fresh [hex])
    {outcomes : List ParallelOutcome}
    (houtcomes : ∀ n ∈ outcomes.filterMap ParallelOutcome.response?, n < s.heap.length) :
    s.Adds (s.storeParallel hex outcomes).1 [hex] ∧
      (s.storeParallel hex outcomes).1.Payload (s.storeParallel hex outcomes).2 := by
  have hitems : ∀ item ∈ outcomes.zipIdx.map fun p => parallelItem s.heap p.2 p.1,
      ∀ m ∈ (Object.dict item).refs, m < s.heap.length := by
    intro item hitem m hm
    obtain ⟨p, hp, rfl⟩ := List.mem_map.mp hitem
    refine refs_parallelItem h (fun n hn => houtcomes n ?_) hm
    exact List.mem_filterMap.mpr ⟨p.1, List.fst_mem_of_mem_zipIdx hp, hn⟩
  obtain ⟨hadds, hplaces⟩ := allocItems_adds h hitems
  have hown := (Fresh.after [] [hex] hfresh hadds).2 hex List.mem_cons_self
  obtain ⟨hlist, hplace⟩ := storeList_adds hadds.grows.good hplaces hown "parallel_batch"
    (parallelData (outcomes.zipIdx.map fun p => parallelItem s.heap p.2 p.1))
    fun n m hm => by simpa [Object.refs, parallelData, text, Slot.ref?] using hm
  exact ⟨hadds.trans hlist, hplace⟩

/-- A copy of a payload: it reads as the payload does. -/
theorem copy_grows (h : s.Good) {n : ℕ} {d : Dict String Slot} (hd : s.heap.dict? n = some d) :
    s.Grows (s.alloc (.dict d)).1 ∧
      (s.alloc (.dict d)).1.heap.reading (s.alloc (.dict d)).2 = s.heap.reading n := by
  have hn := ObjectHeap.dict?_eq_some.mp hd
  obtain ⟨hlt, -⟩ := List.getElem?_eq_some_iff.mp hn
  exact ⟨alloc_grows h fun m hm => (h.older n _ hn m hm).trans hlt,
    ObjectHeap.reading_copy h.older hn⟩

/-- A response that is cached is a copy of the payload that is kept. -/
theorem of_cached {source kind key : String} {given : ResultStore × ℕ}
    (h : s.cached source kind key = some given) :
    ∃ n d, s.results.get? (idemKey source kind key) = some n ∧ s.heap.dict? n = some d ∧
      given = s.alloc (.dict d) := by
  unfold cached at h
  split_ifs at h with hkey
  split at h
  · next d hd =>
    split_ifs at h with hempty
    obtain ⟨n, hn, hdict⟩ := Option.bind_eq_some_iff.mp hd
    exact ⟨n, d, hn, hdict, (Option.some.inj h).symm⟩
  · cases h

theorem cached_of_payload {source kind key : String} (hkey : key ≠ "") {n : ℕ}
    (hn : s.results.get? (idemKey source kind key) = some n) {d : Dict String Slot}
    (hd : s.heap.dict? n = some d) (hne : d.entries ≠ []) :
    s.cached source kind key = some (s.alloc (.dict d)) := by
  unfold cached
  rw [if_neg hkey, hn, Option.bind_some, hd]
  exact if_neg hne

/-- A response is cached under a key that was free: a copy that reads as the response does. -/
theorem cache_grows (h : s.Good) {source kind key : String} {n : ℕ} (hn : s.Payload n)
    (hfree : key ≠ "" → s.results.get? (idemKey source kind key) = none) :
    s.Grows (s.cache source kind key n) ∧
      (key ≠ "" → ∃ m, (s.cache source kind key n).results.get? (idemKey source kind key) = some m ∧
        (s.cache source kind key n).heap.reading m = s.heap.reading n) := by
  unfold cache
  split_ifs with hkey
  · exact ⟨h.grows, fun hne => absurd hkey hne⟩
  · obtain ⟨d, hd, hne⟩ := hn
    obtain ⟨hcopy, hread⟩ := copy_grows h hd
    rw [hd]
    refine ⟨hcopy.trans (set_grows hcopy.good (hfree hkey) (payload_alloc s hne)), fun _ => ?_⟩
    exact ⟨s.heap.length, Dict.get?_set_self _ _ _, hread⟩

/-- To take outputs out of items that have none changes nothing. -/
theorem popOutputs_of_absent {h : ObjectHeap} {items : List Slot}
    (habsent : ∀ n, .ref n ∈ items → ∀ d, h.dict? n = some d → d.get? "output" = none) :
    popOutputs h items = h := by
  induction items with
  | nil => rfl
  | cons item items ih =>
    have hrest := ih fun n hn => habsent n (List.mem_cons_of_mem _ hn)
    cases item with
    | plain v => exact hrest
    | ref n =>
      show popOutputs (h.pop n "output") items = h
      rw [ObjectHeap.pop_of_absent (habsent n List.mem_cons_self), hrest]

/-- What a payload holds without one of its keys. -/
theorem refs_erase {d : Dict String Slot} {key : String} {m : ℕ}
    (hm : m ∈ (Object.dict (d.erase key)).refs) : m ∈ (Object.dict d).refs := by
  obtain ⟨e, he, href⟩ := List.mem_filterMap.mp hm
  exact List.mem_filterMap.mpr ⟨e, (List.mem_filter.mp he).1, href⟩

theorem absent_of_holdsOutput {id : String} (h : s.holdsOutput id = false)
    {payload : Dict String Slot}
    (hpayload : (s.results.get? id).bind s.heap.dict? = some payload) :
    ∀ n, .ref n ∈ s.items payload → ∀ d, s.heap.dict? n = some d → d.get? "output" = none := by
  intro n hn d hd
  unfold holdsOutput at h
  rw [hpayload] at h
  have hitem := List.any_eq_false.mp h _ hn
  simpa [hd] using hitem

/-- A call of `get_result` that finds nothing to take out. -/
theorem getResult_grows (h : s.Good) {id : String} {includeRaw : Bool} {given : ResultStore × ℕ}
    (hgiven : s.getResult id includeRaw = some given)
    (hharmless : includeRaw = false → s.holdsOutput id = false) :
    s.Grows given.1 ∧ given.2 < given.1.heap.length := by
  unfold getResult at hgiven
  split at hgiven
  · cases hgiven
  · next payload hpayload =>
    obtain ⟨n, -, hd⟩ := Option.bind_eq_some_iff.mp hpayload
    have hn := ObjectHeap.dict?_eq_some.mp hd
    obtain ⟨hlt, -⟩ := List.getElem?_eq_some_iff.mp hn
    have hrefs : ∀ m ∈ (Object.dict payload).refs, m < s.heap.length := fun m hm =>
      (h.older n _ hn m hm).trans hlt
    cases includeRaw with
    | true =>
      cases hgiven
      exact ⟨alloc_grows h hrefs, lt_alloc s _⟩
    | false =>
      have hsame := popOutputs_of_absent (absent_of_holdsOutput (hharmless rfl) hpayload)
      cases hgiven
      rw [hsame]
      exact ⟨alloc_grows h fun m hm => hrefs m (refs_erase hm), lt_alloc s _⟩

end ResultStore

/-! ## Histories -/

/-- What is stored reads as it did at first, and the first response to a call is the cached one. -/
structure Sound (h : History) : Prop where
  good : h.service.store.Good
  responses : ∀ n ∈ h.service.responses, n < h.service.store.heap.length
  stored : ∀ k, h.stored k = (h.service.store.results.get? k).bind h.service.store.heap.reading
  given : ∀ source kind key v, key ≠ "" → h.given (source, kind, key) = some v →
    h.stored (idemKey source kind key) = some v

theorem sound_initial : Sound {} where
  good := {
    older := fun n o hn => by simp at hn
    payload := fun k n hn => by cases hn }
  responses := fun n hn => absurd hn List.not_mem_nil
  stored := fun k => rfl
  given := fun _ _ _ v _ hv => by cases hv

/-- What is sound is faithful: the reads return copies. -/
theorem Sound.faithful {h : History} (hs : Sound h) : Faithful h := by
  have hcopy {k : String} {v : Value} (hv : h.stored k = some v) :
      ∃ n d, h.service.store.results.get? k = some n ∧ h.service.store.heap.dict? n = some d ∧
        d.entries ≠ [] ∧
        (h.service.store.alloc (.dict d)).1.heap.reading (h.service.store.alloc (.dict d)).2 =
          some v := by
    rw [hs.stored] at hv
    obtain ⟨n, hn, hread⟩ := Option.bind_eq_some_iff.mp hv
    obtain ⟨d, hd, hne⟩ := hs.good.payload k n hn
    exact ⟨n, d, hn, hd, hne, (copy_grows hs.good hd).2.trans hread⟩
  constructor
  · intro id v hv
    obtain ⟨n, d, hn, hd, -, hread⟩ := hcopy hv
    refine ⟨_, _, ?_, hread⟩
    unfold getResult
    rw [hn, Option.bind_some, hd]
    exact if_pos rfl
  · intro source kind key v hkey hv
    obtain ⟨n, d, hn, hd, hne, hread⟩ := hcopy (hs.given source kind key v hkey hv)
    exact ⟨_, _, cached_of_payload hkey hn hd hne, hread⟩

/-- An event after which the store has grown, and whose response is what the cache has under the key
of the call that it answers. -/
theorem sound_step {h : History} {e : Event} (hs : Sound h)
    (hgrows : h.service.store.Grows (h.service.step e).1.store)
    (hresponses : ∀ n ∈ (h.service.step e).1.responses,
      n < (h.service.step e).1.store.heap.length)
    (hgiven : ∀ source kind key v, key ≠ "" → e.call? = some (source, kind, key) →
      (h.service.step e).2.bind (h.service.step e).1.store.heap.reading = some v →
        (h.step e).stored (idemKey source kind key) = some v) :
    Sound (h.step e) where
  good := hgrows.good
  responses := hresponses
  stored := by
    intro k
    rw [History.step_stored, History.step_service, hs.stored]
    cases hk : h.service.store.results.get? k with
    | none => rfl
    | some n =>
      obtain ⟨d, hd, -⟩ := hs.good.payload k n hk
      have hread := ObjectHeap.reading_eq hs.good.older (ObjectHeap.dict?_eq_some.mp hd)
      have hlater := ObjectHeap.reading_of_grown hgrows.heap hread
      rw [Option.bind_some, hread, hgrows.results k n hk, Option.bind_some, hlater]
  given := by
    intro source kind key v hkey hv
    rw [History.step_given] at hv
    cases hold : h.given (source, kind, key) with
    | some w =>
      rw [hold] at hv
      cases hv
      rw [History.step_stored, hs.given source kind key v hkey hold]
    | none =>
      rw [hold] at hv
      dsimp only at hv
      split_ifs at hv with hcall
      exact hgiven source kind key v hkey hcall hv

/-- A response that is given leaves the responses in the heap. -/
theorem responses_give {s : Service} {given : ResultStore × ℕ}
    (hgrow : s.store.heap <+: given.1.heap) (hlt : given.2 < given.1.heap.length)
    (h : ∀ n ∈ s.responses, n < s.store.heap.length) :
    ∀ n ∈ (s.give given).1.responses, n < (s.give given).1.store.heap.length := by
  intro n hn
  rcases List.mem_cons.mp hn with rfl | hn
  · exact hlt
  · exact (h n hn).trans_le hgrow.length_le

/-- A harmless event keeps a history sound. -/
theorem sound_of_harmless {h : History} {e : Event} (hs : Sound h) (hharmless : Harmless h e) :
    Sound (h.step e) := by
  have hidle {e : Event} (hsame : (h.service.step e).1.store = h.service.store)
      (hresponses : (h.service.step e).1.responses = h.service.responses)
      (hnone : (h.service.step e).2 = none) : Sound (h.step e) := by
    refine sound_step hs ?_ ?_ ?_
    · rw [hsame]
      exact hs.good.grows
    · rw [hsame, hresponses]
      exact hs.responses
    · intro source kind key v _ _ hv
      rw [hnone] at hv
      cases hv
  cases e with
  | begin source kind key =>
    cases hcached : h.service.store.cached source kind key with
    | none =>
      have hstep : h.service.step (.begin source kind key) =
          ({ h.service with pending := (source, kind, key) :: h.service.pending }, none) := by
        simp only [Service.step, hcached]
      exact hidle (by rw [hstep]) (by rw [hstep]) (by rw [hstep])
    | some given =>
      have hstep : h.service.step (.begin source kind key) = h.service.give given := by
        simp only [Service.step, hcached]
      obtain ⟨n, d, hn, hd, rfl⟩ := of_cached hcached
      obtain ⟨hgrows, hread⟩ := copy_grows hs.good hd
      refine sound_step hs (by rw [hstep]; exact hgrows) ?_ ?_
      · rw [hstep]
        exact responses_give hgrows.heap (lt_alloc _ _) hs.responses
      · intro source' kind' key' v _ hcall hv
        cases hcall
        rw [hstep] at hv
        have hkept : h.stored (idemKey source kind key) = some v := by
          rw [hs.stored, hn, Option.bind_some, ← hread]
          exact hv
        rw [History.step_stored, hkept]
  | finish source key result =>
    by_cases henabled : (source, result.kind, key) ∈ h.service.pending ∧
        h.service.store.Fresh result.hexes
    · obtain ⟨hadds, hpayload⟩ := store_adds hs.good henabled.2
      have hfree : key ≠ "" →
          (h.service.store.store result).1.results.get? (idemKey source result.kind key) = none := by
        intro hkey
        rw [hadds.others]
        · exact hharmless hkey
        · intro hmem
          obtain ⟨hex, -, hsame⟩ := List.mem_map.mp hmem
          exact idemKey_ne_resultId source result.kind key hex hsame.symm
      obtain ⟨hcache, hkept⟩ := cache_grows hadds.grows.good hpayload hfree
      have hstep : h.service.step (.finish source key result) =
          ({ h.service with pending := h.service.pending.erase (source, result.kind, key) }.give
            ((h.service.store.store result).1.cache source result.kind key
              (h.service.store.store result).2, (h.service.store.store result).2)) := by
        simp only [Service.step, if_pos henabled]
      have hlt := hpayload.lt.trans_le hcache.heap.length_le
      refine sound_step hs (by rw [hstep]; exact hadds.grows.trans hcache) ?_ ?_
      · rw [hstep]
        exact responses_give (hadds.grows.trans hcache).heap hlt hs.responses
      · intro source' kind' key' v hkey hcall hv
        cases hcall
        obtain ⟨m, hm, hread⟩ := hkept hkey
        rw [hstep] at hv
        -- The response still reads as its copy in the cache does.
        obtain ⟨d, hd, -⟩ := hpayload
        have hresponse := ObjectHeap.reading_eq hadds.grows.good.older
          (ObjectHeap.dict?_eq_some.mp hd)
        have hlater := ObjectHeap.reading_of_grown hcache.heap hresponse
        have hnew : h.stored (idemKey source result.kind key) = none := by
          rw [hs.stored, hharmless hkey]
          rfl
        rw [History.step_stored, hnew, hstep]
        show (((h.service.store.store result).1.cache source result.kind key
          (h.service.store.store result).2).results.get? _).bind
            ((h.service.store.store result).1.cache source result.kind key
              (h.service.store.store result).2).heap.reading = some v
        rw [hm, Option.bind_some, hread, hresponse, ← hlater]
        exact hv
    · have hstep : h.service.step (.finish source key result) = (h.service, none) := by
        simp only [Service.step, if_neg henabled]
      exact hidle (by rw [hstep]) (by rw [hstep]) (by rw [hstep])
  | finishParallel hex outcomes =>
    by_cases henabled : (∀ n ∈ outcomes.filterMap ParallelOutcome.response?,
        n ∈ h.service.responses) ∧ h.service.store.Fresh [hex]
    · obtain ⟨hadds, hpayload⟩ := storeParallel_adds hs.good henabled.2
        fun n hn => hs.responses n (henabled.1 n hn)
      have hstep : h.service.step (.finishParallel hex outcomes) =
          h.service.give (h.service.store.storeParallel hex outcomes) := by
        simp only [Service.step, if_pos henabled]
      refine sound_step hs (by rw [hstep]; exact hadds.grows) ?_ fun _ _ _ _ _ hcall => by
        cases hcall
      rw [hstep]
      exact responses_give hadds.grows.heap hpayload.lt hs.responses
    · have hstep : h.service.step (.finishParallel hex outcomes) = (h.service, none) := by
        simp only [Service.step, if_neg henabled]
      exact hidle (by rw [hstep]) (by rw [hstep]) (by rw [hstep])
  | getResult id includeRaw =>
    cases hgiven : h.service.store.getResult id includeRaw with
    | none =>
      have hstep : h.service.step (.getResult id includeRaw) = (h.service, none) := by
        simp only [Service.step, hgiven]
      exact hidle (by rw [hstep]) (by rw [hstep]) (by rw [hstep])
    | some given =>
      have hstep : h.service.step (.getResult id includeRaw) = h.service.give given := by
        simp only [Service.step, hgiven]
      obtain ⟨hgrows, hlt⟩ := getResult_grows hs.good hgiven (by
        rintro rfl
        exact hharmless)
      refine sound_step hs (by rw [hstep]; exact hgrows) ?_ fun _ _ _ _ _ hcall => by cases hcall
      rw [hstep]
      exact responses_give hgrows.heap hlt hs.responses

/-- In a history of harmless events, what is stored reads as it was stored, and a repeated call gets
the first response, after every event. -/
theorem faithful_of_harmless {events : List Event}
    (h : Machine.Meets History.step Harmless {} events) :
    Faithful (Machine.run History.step {} events) :=
  (h.invariant (I := Sound) (fun _ _ hs hharmless => sound_of_harmless hs hharmless)
    sound_initial).faithful

/-- A command's result is read without and with its output. -/
def commandEvents : List Event :=
  [.begin "ui" "command" "k", .finish "ui" "k" (.command "1" "s" "d" "display version" "V8"),
    .getResult "ai-1" false, .getResult "ai-1" true, .begin "ui" "command" "k"]

theorem faithful_commandEvents : Faithful (Machine.run History.step {} commandEvents) :=
  faithful_of_harmless (by decide +kernel)

/-- The result of a batch is read without its output. -/
def batchEvents : List Event :=
  [.begin "ui" "batch" "k",
    .finish "ui" "k" (.batch {
      hex := "2"
      status := "success"
      sessionId := "s"
      deviceId := "d"
      rows := [{ hex := "1", status := "success", command := "display version", output := "V8" }]
      commandCount := 1 }),
    .getResult "ai-2" false]

/-- After that the stored batch has lost the outputs of its commands, and so has the cached one. -/
theorem not_faithful_batchEvents : ¬Faithful (Machine.run History.step {} batchEvents) := by
  intro h
  have hkept : ((Machine.run History.step {} batchEvents).stored "ai-2").any
      (fun v => v.pyEq v) = true := by
    decide +kernel
  have hlost : (((Machine.run History.step {} batchEvents).service.store.getResult "ai-2" true).bind
      fun given => given.1.heap.reading given.2).any (fun v =>
        ((Machine.run History.step {} batchEvents).stored "ai-2").any fun w => v.pyEq w) = false := by
    decide +kernel
  cases hstored : (Machine.run History.step {} batchEvents).stored "ai-2" with
  | none =>
    rw [hstored] at hkept
    cases hkept
  | some v =>
    obtain ⟨store, n, hgiven, hread⟩ := h.raw "ai-2" v hstored
    rw [hstored] at hkept hlost
    rw [hgiven, Option.bind_some, hread] at hlost
    exact Bool.false_ne_true (hlost.symm.trans hkept)

end DeviceShell.Ai
