import DeviceShell.Lib.Fallible
import DeviceShell.Lib.Machine
import DeviceShell.Lib.Operators
import DeviceShell.Lib.RecentlyUsed
import DeviceShell.Lib.Regex
import DeviceShell.Lib.Stateful
import DeviceShell.Lib.Text

/-!
# The store of results

`application/ai/gateway/result_store.py`. A result is kept under a new id, with a summary of its
output, in a dictionary and in a list of the ids in the order of their use. The two are one list of
the most recently used results (`Represents`): as long as ids are new, no method raises over them, and
each does on that list what `RecentlyUsed` says.
-/

namespace DeviceShell.Gateway

/-! ## Results -/

/-- The dictionary `summary`. -/
structure ResultSummary where
  status : String
  exitCode : ℤ
  commandCount : ℤ
  errorCount : ℕ
  importantLines : List String
  durationMs : ℤ
deriving DecidableEq

/-- `StoredResult`. -/
structure StoredResult where
  resultId : String
  kind : String
  status : String
  output : String
  summary : ResultSummary
  metadata : Dict String Value
  /-- `created_monotonic`. -/
  created : ℚ

section

variable [PyText]

open Regex

/-- `_ERROR_PATTERNS`. -/
def errorPatterns : List Regex :=
  let wordEdge := boundary fun c => PyText.isAlnum c || c == '_'
  [ all [wordEdge, ignoringCase "error", wordEdge],
    all [wordEdge, ignoringCase "failed", wordEdge],
    all [exact "%%", plus true (chars fun c => c.isAlphanum), exact "/",
      chars fun c => c ∈ "456789".toList, exact "/"] ]

/-- `summarize_output`. -/
def summarizeOutput (output : String) (maxImportantLines : ℕ := 5) (tailLines : ℕ := 20) :
    ℕ × List String :=
  let lines := splitlines output
  let hits := (lines.filter fun line => errorPatterns.any fun p => (search p line).isSome).map strip
  if hits ≠ [] then (hits.length, hits.take maxImportantLines)
  else
    let tail := if tailLines = 0 then lines else lines.drop (lines.length - tailLines)
    (0, tail.map strip)

end

/-! ## The store -/

/-- `ResultStore`. -/
structure ResultStore where
  maxEntries : ℕ
  ttlSeconds : ℤ
  /-- `_entries`. -/
  entries : Dict String StoredResult := ∅
  /-- `_order`. -/
  order : List String := []

/-- `list.remove`. -/
def listRemove (x : String) (xs : List String) : Except PyError (List String) :=
  if x ∈ xs then .ok (xs.erase x) else .error (.valueError "list.remove(x): x not in list")

namespace ResultStore

/-- `__init__`. -/
def init (maxEntries ttlSeconds : ℤ) : ResultStore where
  maxEntries := (max 1 (min 5000 maxEntries)).toNat
  ttlSeconds := max 3600 (min 604800 ttlSeconds)

/-- The entry is older than the store keeps it. -/
def expired (s : ResultStore) (now : ℚ) (e : StoredResult) : Bool :=
  decide (s.ttlSeconds < now - e.created)

/-- `_entries[rid]`. -/
def entry (s : ResultStore) (rid : String) : Except PyError (String × StoredResult) :=
  match s.entries.get? rid with
  | some e => .ok (rid, e)
  | none => .error (.keyError rid)

/-- An expired entry goes. -/
def dropEntry (rid : String) : Stateful ResultStore Unit := do
  modify fun s => { s with entries := s.entries.erase rid }
  let order ← listRemove rid (← get).order
  modify fun s => { s with order := order }

/-- `_prune_expired_locked`. -/
def pruneExpired (now : ℚ) : Stateful ResultStore Unit := do
  let s ← get
  let entries ← liftM (s.order.mapM s.entry)
  ((entries.filter fun e => s.expired now e.2).map Prod.fst).forM dropEntry

/-- The loop that takes the oldest entries out: the ids, the least recently used one first, and the
entries. -/
def evict (maxEntries : ℕ) :
    List String → Dict String StoredResult → List String × Dict String StoredResult
  | [], entries => ([], entries)
  | oldest :: order, entries =>
    if maxEntries < (oldest :: order).length then evict maxEntries order (entries.erase oldest)
    else (oldest :: order, entries)

/-- What `store` makes of an output and its metadata. -/
def newResult [PyLib] [PyText] (created : ℚ) (fresh kind output : String)
    (metadata : Dict String Value) : Except PyError StoredResult := do
  let status := Value.strOr (metadata.get? "status") "success"
  let exitCode ← (((metadata.get? "exit_code").filter Value.truthy).getD (.int 0)).toInt
  let commandCount ← ((metadata.get? "command_count").getD (.int 1)).toInt
  let durationMs ← ((metadata.get? "duration_ms").getD (.int 0)).toInt
  let (errorCount, importantLines) := summarizeOutput output
  return {
    resultId := fresh
    kind := kind
    status := status
    output := output
    summary :=
      { status := status
        exitCode := exitCode
        commandCount := commandCount
        errorCount := errorCount
        importantLines := importantLines
        durationMs := durationMs }
    metadata := metadata
    created := created }

theorem newResult_ok [PyLib] [PyText] {created : ℚ} {fresh kind output : String}
    {metadata : Dict String Value} {e : StoredResult}
    (h : newResult created fresh kind output metadata = .ok e) :
    e.resultId = fresh ∧ e.kind = kind ∧ e.output = output ∧ e.metadata = metadata ∧
      e.created = created := by
  obtain ⟨exitCode, -, h⟩ := Except.bind_eq_ok.1 h
  obtain ⟨commandCount, -, h⟩ := Except.bind_eq_ok.1 h
  obtain ⟨durationMs, -, h⟩ := Except.bind_eq_ok.1 h
  obtain rfl := Except.ok.inj h
  exact ⟨rfl, rfl, rfl, rfl, rfl⟩

/-- `store`; `fresh` is the new id, and the clock is read as `now` and as `created`. -/
def store [PyLib] [PyText] (now created : ℚ) (fresh kind output : String)
    (metadata : Dict String Value) : Stateful ResultStore String := do
  pruneExpired now
  let e ← newResult created fresh kind output metadata
  modify fun s =>
    let (order, entries) := evict s.maxEntries (s.order ++ [fresh]) (s.entries.set fresh e)
    { s with order := order, entries := entries }
  return fresh

/-- `get`. -/
def fetch (now : ℚ) (resultId : String) : Stateful ResultStore (Option StoredResult) := do
  let s ← get
  match s.entries.get? resultId with
  | none => return none
  | some e =>
    if s.expired now e then
      modify fun s =>
        { s with entries := s.entries.erase resultId, order := s.order.filter (· ≠ resultId) }
      return none
    else
      if s.order ≠ [] then
        let order ← listRemove resultId s.order
        modify fun s => { s with order := order ++ [resultId] }
      return some e

/-- The count of `snapshot`. -/
def snapshot (now : ℚ) : Stateful ResultStore ℕ := do
  pruneExpired now
  return (← get).entries.entries.length

end ResultStore

/-! ## One list for the two -/

open RecentlyUsed

/-- What the store is for: the results of a list, the least recently used one first. -/
structure Shelf where
  maxEntries : ℕ
  ttlSeconds : ℤ
  results : List StoredResult

namespace Shelf

variable (shelf : Shelf) (now : ℚ)

/-- The result is not older than the store keeps it. -/
def current (e : StoredResult) : Bool := decide (now - e.created ≤ shelf.ttlSeconds)

/-- The results that are not too old. -/
def prune : Shelf := { shelf with results := shelf.results.filter (shelf.current now) }

/-- A new result. -/
def store (e : StoredResult) : Shelf :=
  { shelf with results := put shelf.maxEntries e (shelf.prune now).results }

/-- Reading a result uses it, or removes it when it is too old. -/
def fetch (id : String) : Option StoredResult × Shelf :=
  match itemOf StoredResult.resultId id shelf.results with
  | none => (none, shelf)
  | some e =>
    if shelf.current now e then
      (some e, { shelf with results := use StoredResult.resultId id shelf.results })
    else (none, { shelf with results := remove StoredResult.resultId id shelf.results })

end Shelf

/-- The store holds the results of the shelf in its dictionary and their ids in its list. -/
structure Represents (s : ResultStore) (shelf : Shelf) : Prop where
  maxEntries : s.maxEntries = shelf.maxEntries
  ttlSeconds : s.ttlSeconds = shelf.ttlSeconds
  nodup : (shelf.results.map StoredResult.resultId).Nodup
  order : s.order = shelf.results.map StoredResult.resultId
  entries : ∀ id, s.entries.get? id = itemOf StoredResult.resultId id shelf.results

namespace Represents

variable {s : ResultStore} {shelf : Shelf}

theorem init (maxEntries ttlSeconds : ℤ) : Represents (.init maxEntries ttlSeconds)
    ⟨(max 1 (min 5000 maxEntries)).toNat, max 3600 (min 604800 ttlSeconds), []⟩ :=
  ⟨rfl, rfl, List.nodup_nil, rfl, fun _ => rfl⟩

theorem expired_eq (h : Represents s shelf) (now : ℚ) (e : StoredResult) :
    s.expired now e = !shelf.current now e := by
  rw [ResultStore.expired, Shelf.current, h.ttlSeconds, ← decide_not]
  exact decide_eq_decide.2 not_le.symm

/-- A result is taken out. -/
theorem remove (h : Represents s shelf) (id : String) :
    Represents { s with entries := s.entries.erase id, order := s.order.erase id }
      { shelf with results := RecentlyUsed.remove StoredResult.resultId id shelf.results } where
  maxEntries := h.maxEntries
  ttlSeconds := h.ttlSeconds
  nodup := nodup_remove h.nodup
  order := by rw [map_remove h.nodup, h.order]
  entries id' := by rw [Dict.get?_erase, itemOf_remove, h.entries]

/-- A result becomes the most recently used one. -/
theorem use (h : Represents s shelf) {id : String} {e : StoredResult}
    (hitem : itemOf StoredResult.resultId id shelf.results = some e) :
    Represents { s with order := s.order.erase id ++ [id] }
      { shelf with results := RecentlyUsed.use StoredResult.resultId id shelf.results } := by
  obtain ⟨he, rfl⟩ := (itemOf_eq_some h.nodup).1 hitem
  have huse : RecentlyUsed.use StoredResult.resultId e.resultId shelf.results =
      RecentlyUsed.remove StoredResult.resultId e.resultId shelf.results ++ [e] := by
    rw [RecentlyUsed.use, hitem, Option.elim_some]
  have hnew : e.resultId ∉ (RecentlyUsed.remove StoredResult.resultId e.resultId
      shelf.results).map StoredResult.resultId := by
    simp [RecentlyUsed.remove]
  exact
    { maxEntries := h.maxEntries
      ttlSeconds := h.ttlSeconds
      nodup := nodup_use h.nodup
      order := by
        rw [huse, List.map_append, map_remove h.nodup, h.order]
        rfl
      entries := fun id => by
        -- The same result under the same key: the dictionary stays as it is.
        rw [huse, itemOf_append_singleton id hnew, itemOf_remove, h.entries]
        by_cases hid : id = e.resultId
        · rw [if_pos hid, hid, hitem]
        · rw [if_neg hid, if_neg hid] }

theorem listRemove_order (h : Represents s shelf) {id : String}
    (hid : id ∈ shelf.results.map StoredResult.resultId) :
    listRemove id s.order = .ok (s.order.erase id) := by
  rw [listRemove, if_pos (h.order ▸ hid)]

/-- The loop over expired ids takes out their results. -/
theorem forM_dropEntry (h : Represents s shelf) {ids : List String} (hnodup : ids.Nodup)
    (hids : ids ⊆ shelf.results.map StoredResult.resultId) :
    (ids.forM ResultStore.dropEntry).Ensures s fun r s' => r = .ok () ∧
      Represents s' { shelf with results := shelf.results.filter fun e => e.resultId ∉ ids } := by
  induction ids generalizing s shelf with
  | nil => exact ⟨rfl, show Represents s _ by simpa using h⟩
  | cons id ids ih =>
    rw [List.nodup_cons] at hnodup
    have hid := hids List.mem_cons_self
    have hrest : ids ⊆ (RecentlyUsed.remove StoredResult.resultId id shelf.results).map
        StoredResult.resultId := by
      intro id' hid'
      rw [map_remove h.nodup, h.nodup.mem_erase_iff]
      exact ⟨fun heq => hnodup.1 (heq ▸ hid'), hids (List.mem_cons_of_mem _ hid')⟩
    refine Stateful.Ensures.bind
      (Q := fun r s' => r = .ok () ∧
        s' = { s with entries := s.entries.erase id, order := s.order.erase id }) ?_ ?_ ?_
    · refine Stateful.ensures_modify (Stateful.ensures_get (Stateful.ensures_lift ?_ ?_))
      · intro order horder
        obtain rfl := Except.ok.inj ((h.listRemove_order hid).symm.trans horder)
        exact ⟨rfl, rfl⟩
      · intro e he
        cases (h.listRemove_order hid).symm.trans he
    · rintro _ s' ⟨-, rfl⟩
      refine (ih (h.remove id) hnodup.2 hrest).mono fun r s' hr => ⟨hr.1, ?_⟩
      have hfilter : (RecentlyUsed.remove StoredResult.resultId id shelf.results).filter
          (fun e => e.resultId ∉ ids) = shelf.results.filter fun e => e.resultId ∉ id :: ids := by
        rw [RecentlyUsed.remove, List.filter_filter]
        refine List.filter_congr fun e _ => ?_
        simp [Bool.and_comm]
      exact hfilter ▸ hr.2
    · rintro e s' ⟨he, -⟩
      cases he

theorem pruneExpired (h : Represents s shelf) (now : ℚ) :
    (ResultStore.pruneExpired now).Ensures s fun r s' => r = .ok () ∧
      Represents s' (shelf.prune now) := by
  have hread : s.order.mapM s.entry = .ok (shelf.results.map fun e => (e.resultId, e)) := by
    rw [h.order, Except.mapM_eq_ok, List.forall₂_map_left_iff, List.forall₂_map_right_iff,
      List.forall₂_same]
    intro e he
    rw [ResultStore.entry, h.entries, (itemOf_eq_some h.nodup).2 ⟨he, rfl⟩]
  refine Stateful.ensures_get (Stateful.ensures_lift (fun entries hentries => ?_) fun e he => ?_)
  · obtain rfl := Except.ok.inj (hread.symm.trans hentries)
    have hids : ((shelf.results.map fun e => (e.resultId, e)).filter fun e =>
        s.expired now e.2).map Prod.fst =
        (shelf.results.filter fun e => !shelf.current now e).map StoredResult.resultId := by
      rw [List.filter_map, List.map_map]
      congr 1
      exact List.filter_congr fun e _ => h.expired_eq now e
    rw [hids]
    have hsub : ((shelf.results.filter fun e => !shelf.current now e).map
        StoredResult.resultId).Sublist (shelf.results.map StoredResult.resultId) :=
      List.filter_sublist.map StoredResult.resultId
    refine (h.forM_dropEntry (hsub.nodup h.nodup) hsub.subset).mono fun r s' hr => ⟨hr.1, ?_⟩
    have hfilter : (shelf.results.filter fun e => e.resultId ∉
        (shelf.results.filter fun e => !shelf.current now e).map StoredResult.resultId) =
        shelf.results.filter (shelf.current now) := by
      refine List.filter_congr fun e he => ?_
      have hmem : e.resultId ∈ (shelf.results.filter fun e => !shelf.current now e).map
          StoredResult.resultId ↔ shelf.current now e = false := by
        rw [List.mem_map]
        constructor
        · rintro ⟨e', he', heq⟩
          rw [List.mem_filter] at he'
          obtain rfl := List.inj_on_of_nodup_map h.nodup he'.1 he heq
          simpa using he'.2
        · intro hold
          exact ⟨e, List.mem_filter.2 ⟨he, by simp [hold]⟩, rfl⟩
      cases hcur : shelf.current now e <;> simp [hmem, hcur]
    rw [hfilter] at hr
    exact hr.2
  · cases hread.symm.trans he

/-- The loop keeps the last ids and their entries. -/
theorem evict_eq (maxEntries : ℕ) {results : List StoredResult}
    (hnodup : (results.map StoredResult.resultId).Nodup) {entries : Dict String StoredResult}
    (hentries : ∀ id, entries.get? id = itemOf StoredResult.resultId id results) :
    let kept := ResultStore.evict maxEntries (results.map StoredResult.resultId) entries
    kept.1 = (keep maxEntries results).map StoredResult.resultId ∧
      ∀ id, kept.2.get? id = itemOf StoredResult.resultId id (keep maxEntries results) := by
  induction results generalizing entries with
  | nil => simp [ResultStore.evict, keep, hentries]
  | cons oldest rest ih =>
    rw [List.map_cons, List.nodup_cons] at hnodup
    simp only [List.map_cons, ResultStore.evict]
    by_cases hlen : maxEntries < (oldest :: rest).length
    · have hkeep : keep maxEntries (oldest :: rest) = keep maxEntries rest := by
        have hsub : (oldest :: rest).length - maxEntries = rest.length - maxEntries + 1 := by
          rw [List.length_cons] at hlen ⊢
          omega
        rw [keep, hsub, List.drop_succ_cons, keep]
      have hrest : ∀ id, (entries.erase oldest.resultId).get? id =
          itemOf StoredResult.resultId id rest := by
        intro id
        rw [Dict.get?_erase, hentries]
        by_cases hid : id = oldest.resultId
        · rw [if_pos hid, eq_comm, itemOf_eq_none, hid]
          exact hnodup.1
        · simp [itemOf, hid, Ne.symm hid]
      rw [if_pos (by simpa using hlen), hkeep]
      exact ih hnodup.2 hrest
    · have hkeep : keep maxEntries (oldest :: rest) = oldest :: rest := by
        rw [keep, Nat.sub_eq_zero_of_le (not_lt.1 hlen), List.drop_zero]
      rw [if_neg (by simpa using hlen), hkeep]
      exact ⟨rfl, hentries⟩

variable [PyLib] [PyText]

/-- `store` puts the new result on the shelf, or raises over its metadata. -/
theorem store (h : Represents s shelf) (now created : ℚ) {fresh : String}
    (hfresh : fresh ∉ s.order) (kind output : String) (metadata : Dict String Value) :
    (ResultStore.store now created fresh kind output metadata).Ensures s fun r s' =>
      (∃ e, ResultStore.newResult created fresh kind output metadata = .ok e ∧ r = .ok fresh ∧
        Represents s' (shelf.store now e)) ∨
      ∃ e, ResultStore.newResult created fresh kind output metadata = .error e ∧ r = .error e ∧
        Represents s' (shelf.prune now) := by
  refine (h.pruneExpired now).bind (fun _ s₁ h₁ => ?_) (fun e s₁ h₁ => by cases h₁.1)
  refine Stateful.ensures_lift (fun e he => ?_) fun e he => .inr ⟨e, he, rfl, h₁.2⟩
  refine Stateful.ensures_modify (Stateful.ensures_pure (.inl ⟨e, he, rfl, ?_⟩))
  have hid : e.resultId = fresh := (ResultStore.newResult_ok he).1
  have hsub : ((shelf.prune now).results.map StoredResult.resultId).Sublist
      (shelf.results.map StoredResult.resultId) := List.filter_sublist.map _
  have hnew : e.resultId ∉ (shelf.prune now).results.map StoredResult.resultId := by
    intro hmem
    exact hfresh (h.order ▸ hid ▸ hsub.subset hmem)
  have hprune := h₁.2
  have horder : s₁.order ++ [fresh] =
      ((shelf.prune now).results ++ [e]).map StoredResult.resultId := by
    rw [hprune.order, List.map_append, ← hid]
    rfl
  have hentries : ∀ id, (s₁.entries.set fresh e).get? id =
      itemOf StoredResult.resultId id ((shelf.prune now).results ++ [e]) := by
    intro id
    rw [Dict.get?_set, itemOf_append_singleton id hnew, hid, hprune.entries]
  have hevict := evict_eq s₁.maxEntries (nodup_append_singleton hprune.nodup hnew) hentries
  rw [← horder] at hevict
  have hmax : s₁.maxEntries = shelf.maxEntries := hprune.maxEntries
  rw [hmax] at hevict
  exact
    { maxEntries := hmax
      ttlSeconds := hprune.ttlSeconds
      nodup := nodup_put hprune.nodup hnew
      order := by
        rw [hmax]
        exact hevict.1
      entries := by
        rw [hmax]
        exact hevict.2 }

omit [PyLib] [PyText] in
/-- `get` answers with what the shelf holds. -/
theorem fetch (h : Represents s shelf) (now : ℚ) (id : String) :
    (ResultStore.fetch now id).Ensures s fun r s' =>
      r = .ok (shelf.fetch now id).1 ∧ Represents s' (shelf.fetch now id).2 := by
  refine Stateful.ensures_get ?_
  unfold Shelf.fetch
  rw [h.entries]
  cases hitem : itemOf StoredResult.resultId id shelf.results with
  | none => exact ⟨rfl, h⟩
  | some e =>
    obtain ⟨he, rfl⟩ := (itemOf_eq_some h.nodup).1 hitem
    have hmem : e.resultId ∈ shelf.results.map StoredResult.resultId := List.mem_map_of_mem he
    dsimp only
    rw [h.expired_eq]
    cases hcur : shelf.current now e with
    | false =>
      have horder : (s.order.filter fun id => id ≠ e.resultId) = s.order.erase e.resultId := by
        rw [h.order, h.nodup.erase_eq_filter]
        exact List.filter_congr fun id _ => by simp [bne, beq_eq_decide]
      have hremoved := h.remove e.resultId
      rw [← horder] at hremoved
      exact Stateful.ensures_modify ⟨rfl, hremoved⟩
    | true =>
      have hne : s.order ≠ [] := by
        rw [h.order]
        exact List.ne_nil_of_mem hmem
      rw [Bool.not_true, if_neg Bool.false_ne_true, if_pos hne, if_pos rfl]
      refine Stateful.ensures_lift (fun order horder => ?_) fun e' he' => ?_
      · obtain rfl := Except.ok.inj ((h.listRemove_order hmem).symm.trans horder)
        exact Stateful.ensures_modify ⟨rfl, h.use hitem⟩
      · cases (h.listRemove_order hmem).symm.trans he'


omit [PyLib] [PyText] in
theorem snapshot (h : Represents s shelf) (now : ℚ) :
    (ResultStore.snapshot now).Ensures s fun r s' =>
      (∃ n, r = .ok n) ∧ Represents s' (shelf.prune now) := by
  refine (h.pruneExpired now).bind (fun _ s₁ h₁ => ?_) (fun e s₁ h₁ => by cases h₁.1)
  exact Stateful.ensures_get ⟨⟨_, rfl⟩, h₁.2⟩

end Represents

end DeviceShell.Gateway
