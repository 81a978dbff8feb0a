import DeviceShell.Gateway.ResultStore

/-!
# What a run of the store keeps

Over every run of calls with new ids the store is one list of the most recently used results. So a
result that is read is one that was stored and is not too old (`fetch_sound`), and a stored one is
there as long as it is not too old and fewer other results than the store has places for were stored
or read since (`fetch_retained`).
-/

namespace DeviceShell.Gateway

open RecentlyUsed

/-! ## Runs -/

/-- A call of the store. -/
inductive StoreCall where
  | store (now created : ℚ) (fresh kind output : String) (metadata : Dict String Value)
  | fetch (now : ℚ) (resultId : String)
  | snapshot (now : ℚ)

/-- The reading of the clock that the results are compared with. -/
def StoreCall.now : StoreCall → ℚ
  | .store now _ _ _ _ _ => now
  | .fetch now _ => now
  | .snapshot now => now

/-- The result that a call stores or reads. -/
def StoreCall.resultId? : StoreCall → Option String
  | .store _ _ fresh _ _ _ => some fresh
  | .fetch _ resultId => some resultId
  | .snapshot _ => none

/-- A new id is not in use. -/
def ResultStore.FreshCall (s : ResultStore) : StoreCall → Prop
  | .store _ _ fresh _ _ _ => fresh ∉ s.entries.keys
  | _ => True

instance ResultStore.decidableFreshCall (s : ResultStore) : ∀ call, Decidable (s.FreshCall call)
  | .store _ _ fresh _ _ _ => inferInstanceAs (Decidable (fresh ∉ s.entries.keys))
  | .fetch _ _ => inferInstanceAs (Decidable True)
  | .snapshot _ => inferInstanceAs (Decidable True)

theorem Represents.not_mem_order {s : ResultStore} {shelf : Shelf} (h : Represents s shelf)
    {id : String} (hid : id ∉ s.entries.keys) : id ∉ s.order := by
  rw [← Dict.get?_eq_none_iff, h.entries, itemOf_eq_none] at hid
  rw [h.order]
  exact hid

section

variable [PyLib] [PyText]

/-- One call. -/
def ResultStore.step (s : ResultStore) : StoreCall → ResultStore
  | .store now created fresh kind output metadata =>
    ((store now created fresh kind output metadata).run s).2
  | .fetch now resultId => ((fetch now resultId).run s).2
  | .snapshot now => ((snapshot now).run s).2

/-- The call stored the result. -/
def StoreCall.Made (e : StoredResult) : StoreCall → Prop
  | .store _ created fresh kind output metadata =>
    ResultStore.newResult created fresh kind output metadata = .ok e
  | _ => False

/-- One call on the shelf. -/
def Shelf.step (shelf : Shelf) : StoreCall → Shelf
  | .store now created fresh kind output metadata =>
    match ResultStore.newResult created fresh kind output metadata with
    | .ok e => shelf.store now e
    | .error _ => shelf.prune now
  | .fetch now resultId => (shelf.fetch now resultId).2
  | .snapshot now => shelf.prune now

/-- How much is kept and for how long does not change. -/
theorem Shelf.step_bounds (shelf : Shelf) (call : StoreCall) :
    (shelf.step call).maxEntries = shelf.maxEntries ∧
      (shelf.step call).ttlSeconds = shelf.ttlSeconds := by
  cases call with
  | store now created fresh kind output metadata =>
    rw [Shelf.step]
    split <;> exact ⟨rfl, rfl⟩
  | fetch now resultId =>
    rw [Shelf.step, Shelf.fetch]
    split
    · exact ⟨rfl, rfl⟩
    · split <;> exact ⟨rfl, rfl⟩
  | snapshot now => exact ⟨rfl, rfl⟩

/-- The store does what the shelf does. -/
theorem Represents.step {s : ResultStore} {shelf : Shelf} (h : Represents s shelf)
    (call : StoreCall) (hfresh : s.FreshCall call) : Represents (s.step call) (shelf.step call) := by
  cases call with
  | store now created fresh kind output metadata =>
    have hstore := h.store now created (h.not_mem_order hfresh) kind output metadata
    rw [Shelf.step]
    rcases hstore with ⟨e, he, -, hrep⟩ | ⟨e, he, -, hrep⟩ <;> rw [he] <;> exact hrep
  | fetch now resultId => exact (h.fetch now resultId).2
  | snapshot now => exact (h.snapshot now).2

/-! ## What is read was stored -/

/-- Every result on the shelf was stored by one of the calls, and there are not too many. -/
structure Shelf.Stored (shelf : Shelf) (calls : List StoreCall) (n : ℕ) (t : ℤ) : Prop where
  maxEntries : shelf.maxEntries = n
  ttlSeconds : shelf.ttlSeconds = t
  made : ∀ e ∈ shelf.results, ∃ call ∈ calls, call.Made e
  length : shelf.results.length ≤ n

theorem Shelf.Stored.mono {calls calls' : List StoreCall} {n : ℕ} {t : ℤ} {shelf shelf' : Shelf}
    (h : shelf.Stored calls n t) (hcalls : calls ⊆ calls') (hn : shelf'.maxEntries = shelf.maxEntries)
    (ht : shelf'.ttlSeconds = shelf.ttlSeconds) (hsub : shelf'.results ⊆ shelf.results)
    (hlen : shelf'.results.length ≤ shelf.results.length) : shelf'.Stored calls' n t where
  maxEntries := hn.trans h.maxEntries
  ttlSeconds := ht.trans h.ttlSeconds
  made e he := (h.made e (hsub he)).imp fun _ hcall => ⟨hcalls hcall.1, hcall.2⟩
  length := hlen.trans h.length

/-- A step keeps what is on the shelf to what was stored. -/
theorem Shelf.Stored.step {calls : List StoreCall} {n : ℕ} {t : ℤ} {shelf : Shelf}
    (h : shelf.Stored calls n t) (hnodup : (shelf.results.map StoredResult.resultId).Nodup)
    (call : StoreCall) : (shelf.step call).Stored (calls ++ [call]) n t := by
  have hcalls : calls ⊆ calls ++ [call] := List.subset_append_left _ _
  have hprune : ∀ now, (shelf.prune now).Stored (calls ++ [call]) n t := fun now =>
    h.mono hcalls rfl rfl List.filter_sublist.subset (List.length_filter_le _ _)
  cases call with
  | store now created fresh kind output metadata =>
    rw [Shelf.step]
    cases hnew : ResultStore.newResult created fresh kind output metadata with
    | error e => exact hprune now
    | ok e =>
      refine ⟨h.maxEntries, h.ttlSeconds, fun e' he' => ?_, ?_⟩
      · rcases mem_of_mem_put he' with hold | rfl
        · exact (hprune now).made e' hold
        · exact ⟨_, List.mem_append_right _ List.mem_cons_self, hnew⟩
      · rw [← h.maxEntries]
        exact length_put_le _ _ _
  | fetch now resultId =>
    rw [Shelf.step, Shelf.fetch]
    cases hitem : itemOf StoredResult.resultId resultId shelf.results with
    | none => exact h.mono hcalls rfl rfl (List.Subset.refl _) le_rfl
    | some e =>
      dsimp only
      split
      · exact h.mono hcalls rfl rfl (fun e' he' => (mem_use hnodup).1 he') (length_use_le hnodup)
      · exact h.mono hcalls rfl rfl List.filter_sublist.subset (List.length_filter_le _ _)
  | snapshot now => exact hprune now

/-- The store after a run of calls. -/
def ResultStore.after (maxEntries ttlSeconds : ℤ) (calls : List StoreCall) : ResultStore :=
  Machine.run ResultStore.step (.init maxEntries ttlSeconds) calls

/-- A run of calls with new ids, from a new store on. -/
def ResultStore.FreshRun (maxEntries ttlSeconds : ℤ) (calls : List StoreCall) : Prop :=
  Machine.Meets ResultStore.step ResultStore.FreshCall (.init maxEntries ttlSeconds) calls

/-- After every run the store is a shelf of what was stored. -/
theorem exists_shelf {maxEntries ttlSeconds : ℤ} {calls : List StoreCall}
    (h : ResultStore.FreshRun maxEntries ttlSeconds calls) :
    ∃ shelf, Represents (.after maxEntries ttlSeconds calls) shelf ∧
      shelf.Stored calls (max 1 (min 5000 maxEntries)).toNat (max 3600 (min 604800 ttlSeconds)) := by
  induction calls using List.reverseRecOn with
  | nil =>
    refine ⟨_, Represents.init maxEntries ttlSeconds, rfl, rfl, fun e he => ?_, Nat.zero_le _⟩
    exact absurd he List.not_mem_nil
  | append_singleton calls call ih =>
    obtain ⟨hbefore, hcall, -⟩ := Machine.meets_append.1 h
    obtain ⟨shelf, hrep, hstored⟩ := ih hbefore
    have hlast : ResultStore.after maxEntries ttlSeconds (calls ++ [call]) =
        (ResultStore.after maxEntries ttlSeconds calls).step call :=
      Machine.run_append ResultStore.step _ calls [call]
    rw [hlast]
    exact ⟨shelf.step call, hrep.step call hcall, hstored.step hrep.nodup call⟩

/-- After every run of calls with new ids: reading an id never raises, and what it finds was stored
under the id by a call of the run and is not older than the store keeps results; a new result is
stored unless its metadata are no numbers; and there are at most `maxEntries` results. -/
theorem fetch_sound (maxEntries ttlSeconds : ℤ) (calls : List StoreCall)
    (hfresh : ResultStore.FreshRun maxEntries ttlSeconds calls) :
    let s := ResultStore.after maxEntries ttlSeconds calls
    (∀ now id, ∃ found, ((ResultStore.fetch now id).run s).1 = .ok found ∧
      ∀ e, found = some e → e.resultId = id ∧
        now - e.created ≤ max 3600 (min 604800 ttlSeconds) ∧ ∃ call ∈ calls, call.Made e) ∧
    (∀ now created fresh kind output metadata, fresh ∉ s.entries.keys →
      ((ResultStore.store now created fresh kind output metadata).run s).1 =
        (ResultStore.newResult created fresh kind output metadata).map fun _ => fresh) ∧
    s.entries.keys.toFinset = s.order.toFinset ∧ s.order.Nodup ∧
      s.order.length ≤ (max 1 (min 5000 maxEntries)).toNat := by
  intro s
  obtain ⟨shelf, hrep, hstored⟩ := exists_shelf hfresh
  refine ⟨fun now id => ?_, fun now created fresh kind output metadata hnew => ?_, ?_, ?_, ?_⟩
  · refine ⟨(shelf.fetch now id).1, (hrep.fetch now id).1, fun e he => ?_⟩
    unfold Shelf.fetch at he
    cases hitem : itemOf StoredResult.resultId id shelf.results with
    | none =>
      rw [hitem] at he
      cases he
    | some e' =>
      rw [hitem] at he
      dsimp only at he
      split at he
      · next hcur =>
        obtain rfl := Option.some.inj he
        obtain ⟨hmem, hid⟩ := (itemOf_eq_some hrep.nodup).1 hitem
        have hage := of_decide_eq_true hcur
        rw [hstored.ttlSeconds] at hage
        exact ⟨hid, by exact_mod_cast hage, hstored.made e' hmem⟩
      · cases he
  · have hstore := hrep.store now created (hrep.not_mem_order hnew) kind output metadata
    rcases hstore with ⟨e, he, hr, -⟩ | ⟨e, he, hr, -⟩
    · rw [he, hr]
      rfl
    · rw [he, hr]
      rfl
  · ext id
    rw [List.mem_toFinset, List.mem_toFinset, hrep.order, Dict.mem_keys_iff, hrep.entries]
    rw [← not_iff_not, ← itemOf_eq_none]
    cases itemOf StoredResult.resultId id shelf.results <;> simp
  · rw [hrep.order]
    exact hrep.nodup
  · rw [hrep.order, List.length_map]
    exact hstored.length

end

/-- Two results are stored in a store of one place. -/
def crowdedCalls : List StoreCall :=
  [.store 0 0 "R1" "command" "up" ∅, .store 1 1 "R2" "command" "Error: down" ∅]

/-- What the store of one place says about the results. -/
theorem fetch_sound_crowded :
    let _ := PyLib.atEpoch
    let _ := PyText.ascii
    ∃ found, ((ResultStore.fetch 2 "R2").run (.after 1 3600 crowdedCalls)).1 = .ok found ∧
      ∀ e, found = some e → e.resultId = "R2" ∧ 2 - e.created ≤ max 3600 (min 604800 3600) ∧
        ∃ call ∈ crowdedCalls, call.Made e := by
  let _ := PyLib.atEpoch
  let _ := PyText.ascii
  have hfresh : Machine.Meets ResultStore.step ResultStore.FreshCall (.init 1 3600) crowdedCalls := by
    decide +kernel
  exact_mod_cast (fetch_sound 1 3600 crowdedCalls hfresh).1 2 "R2"

section

variable [PyLib] [PyText]

/-! ## How long a result is kept -/

/-- A call keeps a result that is not too old, when it is for this result or for one of fewer others
than there are places. -/
theorem Represents.holds_step {s : ResultStore} {shelf : Shelf} (h : Represents s shelf)
    {e : StoredResult} {others : Finset String}
    (hholds : Holds StoredResult.resultId e others shelf.results)
    (hcard : others.card < shelf.maxEntries) {call : StoreCall} (hfresh : s.FreshCall call)
    (hage : call.now - e.created ≤ shelf.ttlSeconds)
    (hid : ∀ id, call.resultId? = some id → id ∈ others ∨ id = e.resultId) :
    Holds StoredResult.resultId e others (shelf.step call).results := by
  have hcur : shelf.current call.now e = true := decide_eq_true hage
  have hprune : Holds StoredResult.resultId e others (shelf.prune call.now).results :=
    hholds.filter hcur
  have hnodup : ((shelf.prune call.now).results.map StoredResult.resultId).Nodup :=
    (List.filter_sublist.map _).nodup h.nodup
  cases call with
  | store now created fresh kind output metadata =>
    rw [Shelf.step]
    cases hnew : ResultStore.newResult created fresh kind output metadata with
    | error err => exact hprune
    | ok e' =>
      have hid' : e'.resultId = fresh := (ResultStore.newResult_ok hnew).1
      have hout : e'.resultId ∉ shelf.results.map StoredResult.resultId := by
        rw [hid', ← h.order]
        exact h.not_mem_order hfresh
      -- The new id is not the one of `e`, which is on the shelf.
      have hne : fresh ≠ e.resultId := by
        rintro rfl
        exact hout (hid' ▸ List.mem_map_of_mem hholds.mem)
      have hother : e'.resultId ∈ others := by
        rw [hid']
        exact (hid fresh rfl).resolve_right hne
      have hout' : e'.resultId ∉ (shelf.prune now).results.map StoredResult.resultId :=
        fun hmem => hout ((List.filter_sublist.map _).subset hmem)
      exact hprune.put hnodup hcard hother hout'
  | fetch now resultId =>
    rw [Shelf.step, Shelf.fetch]
    cases hitem : itemOf StoredResult.resultId resultId shelf.results with
    | none => exact hholds
    | some e' =>
      dsimp only
      obtain ⟨hmem, hkey⟩ := (itemOf_eq_some h.nodup).1 hitem
      split
      · exact hholds.use h.nodup (hid resultId rfl)
      · next hold =>
        -- The result that is too old is another one.
        have hne : e.resultId ≠ resultId := by
          intro heq
          have hsame : e' = e :=
            List.inj_on_of_nodup_map h.nodup hmem hholds.mem (hkey.trans heq.symm)
          exact hold (hsame ▸ hcur)
        exact hholds.filter (by simpa using hne)
  | snapshot now => exact hprune

/-- A stored result is found as long as it is not too old and fewer other results than the store has
places for are stored or read after it. -/
theorem fetch_retained (maxEntries ttlSeconds : ℤ) (before after : List StoreCall)
    (now created : ℚ) (id kind output : String) (metadata : Dict String Value) (e : StoredResult)
    (hfresh : ResultStore.FreshRun maxEntries ttlSeconds
      (before ++ .store now created id kind output metadata :: after))
    (he : ResultStore.newResult created id kind output metadata = .ok e)
    (hage : ∀ call ∈ after, call.now - created ≤ max 3600 (min 604800 ttlSeconds))
    (hothers : ((after.filterMap StoreCall.resultId?).toFinset.erase id).card <
      (max 1 (min 5000 maxEntries)).toNat)
    (later : ℚ) (hlater : later - created ≤ max 3600 (min 604800 ttlSeconds)) :
    ((ResultStore.fetch later id).run (ResultStore.after maxEntries ttlSeconds
      (before ++ .store now created id kind output metadata :: after))).1 = .ok (some e) := by
  obtain ⟨hid, -, -, -, hcreated⟩ := ResultStore.newResult_ok he
  generalize hothersEq : (after.filterMap StoreCall.resultId?).toFinset.erase id = others at hothers
  generalize hn : (max 1 (min 5000 maxEntries)).toNat = n at hothers
  have hpos : 1 ≤ n := by omega
  -- What the calls after the store keep.
  let Kept (s : ResultStore) : Prop := ∃ shelf, Represents s shelf ∧ shelf.maxEntries = n ∧
    shelf.ttlSeconds = max 3600 (min 604800 ttlSeconds) ∧
    Holds StoredResult.resultId e others shelf.results
  obtain ⟨hbefore, hstore, hafter⟩ := Machine.meets_append.1 hfresh
  obtain ⟨shelf, hrep, hstored⟩ := exists_shelf hbefore
  have hkept : Kept ((ResultStore.after maxEntries ttlSeconds before).step
      (.store now created id kind output metadata)) := by
    refine ⟨_, hrep.step _ hstore, ?_⟩
    have hstep : shelf.step (.store now created id kind output metadata) = shelf.store now e := by
      rw [Shelf.step, he]
    rw [hstep]
    have hmax : shelf.maxEntries = n := hstored.maxEntries.trans hn
    exact ⟨hmax, hstored.ttlSeconds, holds_put others e _ (hmax ▸ hpos)⟩
  let Bounded (s : ResultStore) (call : StoreCall) : Prop :=
    s.FreshCall call ∧ call.now - created ≤ max 3600 (min 604800 ttlSeconds) ∧
      ∀ id', call.resultId? = some id' → id' ∈ others ∨ id' = id
  have hbounded : ∀ s, ∀ call ∈ after, ResultStore.FreshCall s call → Bounded s call := by
    intro s call hcall hfr
    refine ⟨hfr, hage call hcall, fun id' hid' => ?_⟩
    rw [← hothersEq, Finset.mem_erase, List.mem_toFinset, List.mem_filterMap]
    by_cases heq : id' = id
    · exact .inr heq
    · exact .inl ⟨heq, call, hcall, hid'⟩
  have hmeets := hafter.imp hbounded
  have hlast := hmeets.invariant (I := Kept) (fun s call hs hcall => by
    obtain ⟨shelf, hrep, hmax, httl, hholds⟩ := hs
    obtain ⟨hfr, hcallAge, hcallId⟩ := hcall
    have hstep := hrep.holds_step hholds (hmax ▸ hothers) hfr
      (by rw [hcreated, httl]; exact_mod_cast hcallAge) (by rw [hid]; exact hcallId)
    have hbounds := shelf.step_bounds call
    exact ⟨_, hrep.step call hfr, hbounds.1.trans hmax, hbounds.2.trans httl, hstep⟩) hkept
  have hrun : ResultStore.after maxEntries ttlSeconds
      (before ++ .store now created id kind output metadata :: after) =
      Machine.run ResultStore.step ((ResultStore.after maxEntries ttlSeconds before).step
        (.store now created id kind output metadata)) after :=
    Machine.run_append ResultStore.step _ before _
  obtain ⟨shelf', hrep', -, httl', hholds'⟩ := hlast
  have hitem : itemOf StoredResult.resultId id shelf'.results = some e :=
    (itemOf_eq_some hrep'.nodup).2 ⟨hholds'.mem, hid⟩
  have hcur : shelf'.current later e = true := by
    rw [Shelf.current, hcreated, httl']
    exact decide_eq_true (by exact_mod_cast hlater)
  have hfetch : (shelf'.fetch later id).1 = some e := by
    rw [Shelf.fetch, hitem]
    dsimp only
    rw [if_pos hcur]
  rw [hrun]
  exact (hrep'.fetch later id).1.trans (congrArg Except.ok hfetch)

end

/-- In a store of two places a result survives that another one is read. -/
theorem fetch_retained_read :
    let _ := PyLib.atEpoch
    let _ := PyText.ascii
    ∃ e, e.summary.importantLines = ["Error: down"] ∧
      ((ResultStore.fetch 4 "R2").run
        (.after 2 3600 (crowdedCalls ++ [.fetch 2 "R1", .snapshot 3]))).1 = .ok (some e) := by
  let _ := PyLib.atEpoch
  let _ := PyText.ascii
  have hfresh : Machine.Meets ResultStore.step ResultStore.FreshCall (.init 2 3600)
      (crowdedCalls ++ [.fetch 2 "R1", .snapshot 3]) := by
    decide +kernel
  refine ⟨_, ?_, fetch_retained 2 3600 (crowdedCalls.take 1) [.fetch 2 "R1", .snapshot 3] 1 1 "R2"
    "command" "Error: down" ∅ _ hfresh rfl ?_ (by decide) 4 (by norm_num)⟩
  · decide +kernel
  · intro call hcall
    simp only [List.mem_cons, List.not_mem_nil, or_false] at hcall
    rcases hcall with rfl | rfl <;> norm_num [StoreCall.now]

end DeviceShell.Gateway
