import DeviceShell.Studio.DefinitionStores

/-!
# Related states of the two stores

`Mirrors` relates the states of the two stores of workflow definitions: the table holds the drafts
in the order of the dictionary, and each row of a version holds a version of the dictionary, deleted
and referenced alike. The dictionary may hold deleted versions that the table has dropped. Each call
that changes both stores keeps the relation (`Mirrors.create`, `Mirrors.save`,
`Mirrors.deleteDraft`, `Mirrors.deleteVersion`, `Mirrors.deletePreservingReferences`,
`Mirrors.addVersion`, `Mirrors.markReferenced`).
-/

namespace DeviceShell.Studio

/-! ## Dictionaries as lists of entries -/

section Entries

variable {α : Type}

/-- A new key is put at the end. -/
theorem insert_of_not_mem {k : String} {v : α} {l : List (String × α)}
    (h : k ∉ l.map Prod.fst) : Dict.insert k v l = l ++ [(k, v)] := by
  induction l with
  | nil => rfl
  | cons e rest ih =>
    simp only [List.map_cons, List.mem_cons, not_or] at h
    have hne : ¬ e.1 = k := fun heq => h.1 heq.symm
    simp [Dict.insert, hne, ih h.2]

/-- The value of a present key is written over in its place. -/
theorem insert_of_nodup {k : String} {v : α} {l : List (String × α)} (h : (l.map Prod.fst).Nodup)
    (hmem : k ∈ l.map Prod.fst) :
    Dict.insert k v l = l.map fun e => if e.1 = k then (k, v) else e := by
  induction l with
  | nil => cases hmem
  | cons e rest ih =>
    simp only [List.map_cons, List.nodup_cons] at h
    by_cases hk : e.1 = k
    · have hrest : rest.map (fun e => if e.1 = k then (k, v) else e) = rest := by
        refine (List.map_congr_left fun e' he' => ?_).trans (List.map_id rest)
        have hne : e'.1 ≠ k := fun heq => h.1 (hk ▸ heq ▸ List.mem_map_of_mem he')
        exact if_neg hne
      simp [Dict.insert, hk, hrest]
    · have hin : k ∈ rest.map Prod.fst := by
        rcases List.mem_cons.1 hmem with heq | hin
        · exact absurd heq.symm hk
        · exact hin
      simp [Dict.insert, hk, ih h.2 hin]

end Entries

/-! ## Highest numbers -/

theorem le_foldl_max (l : List ℤ) (a : ℤ) : a ≤ l.foldl max a := by
  induction l generalizing a with
  | nil => exact le_rfl
  | cons b l ih => exact (le_max_left a b).trans (ih (max a b))

theorem le_foldl_max_of_mem {l : List ℤ} {n : ℤ} (h : n ∈ l) (a : ℤ) : n ≤ l.foldl max a := by
  induction l generalizing a with
  | nil => cases h
  | cons b l ih =>
    rcases List.mem_cons.1 h with rfl | h
    · exact (le_max_right a n).trans (le_foldl_max l _)
    · exact ih h _

theorem foldl_max_mem (l : List ℤ) (a : ℤ) : l.foldl max a ∈ a :: l := by
  induction l generalizing a with
  | nil => exact List.mem_singleton_self a
  | cons b l ih =>
    rcases List.mem_cons.1 (ih (max a b)) with heq | hmem
    · rcases max_choice a b with h | h
      · rw [List.foldl_cons, heq, h]
        exact List.mem_cons_self
      · rw [List.foldl_cons, heq, h]
        exact List.mem_cons_of_mem _ List.mem_cons_self
    · exact List.mem_cons_of_mem _ (List.mem_cons_of_mem _ hmem)

theorem le_maxOr {l : List ℤ} {n : ℤ} (h : n ∈ l) : n ≤ maxOr l := by
  cases l with
  | nil => cases h
  | cons a l =>
    rcases List.mem_cons.1 h with rfl | h
    · exact le_foldl_max l n
    · exact le_foldl_max_of_mem h a

theorem maxOr_mem {l : List ℤ} (h : l ≠ []) : maxOr l ∈ l := by
  cases l with
  | nil => exact absurd rfl h
  | cons a l => exact foldl_max_mem l a

/-- Two lists that bound each other have the same highest number. -/
theorem maxOr_eq {l l' : List ℤ} (h : ∀ n ∈ l, ∃ k ∈ l', n ≤ k) (h' : ∀ n ∈ l', ∃ k ∈ l, n ≤ k) :
    maxOr l = maxOr l' := by
  by_cases hl : l = []
  · have hl' : l' = [] := by
      refine List.eq_nil_iff_forall_not_mem.2 fun n hn => ?_
      obtain ⟨k, hk, -⟩ := h' n hn
      rw [hl] at hk
      cases hk
    rw [hl, hl']
  · have hl' : l' ≠ [] := by
      rintro rfl
      obtain ⟨k, hk, -⟩ := h _ (maxOr_mem hl)
      cases hk
    obtain ⟨k, hk, hle⟩ := h _ (maxOr_mem hl)
    obtain ⟨j, hj, hge⟩ := h' _ (maxOr_mem hl')
    have := le_maxOr hk
    have := le_maxOr hj
    omega

/-! ## Related states -/

/-- A version, its publication time aside. -/
def WorkflowVersion.untimed (v : WorkflowVersion) : WorkflowVersion :=
  { v with publishedAt := .none }

namespace MemoryStore

variable (m : MemoryStore) (workflowId : String)

/-- A version of a workflow, deleted or not. -/
def versionOf (n : ℤ) : Option WorkflowVersion := (m.versionsOf workflowId).get? n

/-- A version is there and not deleted. -/
def Visible (n : ℤ) : Prop :=
  (m.versionOf workflowId n).isSome = true ∧ n ∉ m.deletedOf workflowId

instance (n : ℤ) : Decidable (m.Visible workflowId n) := inferInstanceAs (Decidable (_ ∧ _))

end MemoryStore

/-- The entry of the drafts that a row is. -/
def draftEntry (r : DefinitionRow) : Option (String × Dict String Value) :=
  if r.kind = .draft then some (r.workflowId, r.payload) else none

/-- A row holds a version of the store in memory. -/
structure RowHolds [PyLib] (m : MemoryStore) (r : DefinitionRow) (n : ℤ) (v : WorkflowVersion) :
    Prop where
  number : r.version = some n
  fits : sqlInt n = .ok n
  stored : m.versionOf r.workflowId n = some v
  deleted : r.kind = .deleted ↔ n ∈ m.deletedOf r.workflowId
  referenced : r.referenced = true ↔ (r.workflowId, n) ∈ m.references
  payload : ∃ v', WorkflowVersion.fromDict r.payload = .ok v' ∧ v'.untimed = v.untimed

/-- The table and the dictionaries hold the same drafts and the same versions. -/
structure Mirrors [PyLib] (m : MemoryStore) (s : SQLiteStore) : Prop where
  drafts : s.rows.filterMap draftEntry = m.drafts.entries.map fun e => (e.1, e.2.toDict)
  draftIds : m.drafts.keys.Nodup
  rows : ∀ r ∈ s.rows, r.kind ≠ .draft → ∃ n v, RowHolds m r n v
  once : ((s.rows.filter fun r => r.kind ≠ .draft).map fun r => (r.workflowId, r.version)).Nodup
  visible : ∀ w n, m.Visible w n → ∃ r ∈ s.rows, r.IsPublished w ∧ r.version = some n
  reference : ∀ w n, (w, n) ∈ m.references → ∃ r ∈ s.rows, r.IsVersion w ∧ r.version = some n
  kept : ∀ r ∈ s.rows, r.kind ≠ .draft → m.drafts.contains r.workflowId = false →
    r.kind = .deleted ∧ r.referenced = true
  hidden : ∀ w, ∀ n ∈ m.deletedOf w, (m.versionOf w n).isSome = true
  numbered : ∀ w n v, m.versionOf w n = some v → v.workflowId = w ∧ v.version = .int n
  workflowIds : m.versions.keys.Nodup
  numbers : ∀ w, (m.versionsOf w).keys.Nodup

section Mirrored

variable [PyLib] {m : MemoryStore} {s : SQLiteStore}

omit [PyLib] in
/-- The first row of a draft is what the entries of the drafts read. -/
theorem find?_isDraft (rows : List DefinitionRow) (w : String) :
    (rows.find? fun r => r.IsDraft w).map (·.payload) =
      Dict.lookup w (rows.filterMap draftEntry) := by
  induction rows with
  | nil => rfl
  | cons r rest ih =>
    by_cases hk : r.kind = .draft
    · by_cases hw : r.workflowId = w
      · simp [DefinitionRow.IsDraft, draftEntry, hk, hw, Dict.lookup]
      · simpa [DefinitionRow.IsDraft, draftEntry, hk, hw, Dict.lookup] using ih
    · simpa [DefinitionRow.IsDraft, draftEntry, hk] using ih

theorem Mirrors.find_draft (h : Mirrors m s) (w : String) :
    (s.rows.find? fun r => r.IsDraft w).map (·.payload) =
      (m.drafts.get? w).map WorkflowDraft.toDict := by
  rw [find?_isDraft, h.drafts]
  exact Dict.get?_mapValues m.drafts WorkflowDraft.toDict w

theorem Mirrors.hasDraft_iff (h : Mirrors m s) (w : String) :
    s.HasDraft w ↔ m.drafts.contains w = true := by
  have hfind := h.find_draft w
  have hsome : s.HasDraft w ↔ (s.rows.find? fun r => r.IsDraft w).isSome = true := by
    simp [SQLiteStore.HasDraft]
  rw [hsome, Dict.contains]
  cases hs : s.rows.find? (fun r => r.IsDraft w) with
  | none =>
    rw [hs] at hfind
    cases hm : m.drafts.get? w with
    | none => simp
    | some d => rw [hm] at hfind; cases hfind
  | some r =>
    rw [hs] at hfind
    cases hm : m.drafts.get? w with
    | none => rw [hm] at hfind; cases hfind
    | some d => simp

/-- The table reads a draft back as its dictionary holds it. -/
theorem Mirrors.getDraft_eq (h : Mirrors m s) (w : String) :
    s.getDraft w = (m.getDraft w).map WorkflowDraft.stripped := by
  have hfind := h.find_draft w
  unfold SQLiteStore.getDraft MemoryStore.getDraft
  cases hs : s.rows.find? (fun r => r.IsDraft w) with
  | none =>
    rw [hs] at hfind
    cases hm : m.drafts.get? w with
    | none => rfl
    | some d => rw [hm] at hfind; cases hfind
  | some r =>
    rw [hs] at hfind
    cases hm : m.drafts.get? w with
    | none => rw [hm] at hfind; cases hfind
    | some d =>
      rw [hm] at hfind
      have hpayload : r.payload = d.toDict := Option.some.inj hfind
      show WorkflowDraft.fromDict r.payload = .ok d.stripped
      rw [hpayload]
      exact d.fromDict_toDict

omit [PyLib] in
theorem DefinitionRow.IsVersion.not_draft {r : DefinitionRow} {w : String} (h : r.IsVersion w) :
    r.kind ≠ .draft := by
  rcases h.2 with hk | hk <;> simp [hk]

omit [PyLib] in
theorem DefinitionRow.IsPublished.not_draft {r : DefinitionRow} {w : String}
    (h : r.IsPublished w) : r.kind ≠ .draft := by
  simp [h.2]

omit [PyLib] in
theorem DefinitionRow.isVersion_of_not_draft {r : DefinitionRow} (h : r.kind ≠ .draft) :
    r.IsVersion r.workflowId := by
  refine ⟨rfl, ?_⟩
  cases hk : r.kind with
  | draft => exact absurd hk h
  | published => exact .inl rfl
  | deleted => exact .inr rfl

/-- A published row holds a visible version. -/
theorem RowHolds.visible {r : DefinitionRow} {n : ℤ} {v : WorkflowVersion}
    (h : RowHolds m r n v) (hk : r.kind = .published) : m.Visible r.workflowId n := by
  refine ⟨by rw [h.stored]; rfl, fun hdeleted => ?_⟩
  rw [h.deleted.2 hdeleted] at hk
  cases hk

theorem Mirrors.visible_iff (h : Mirrors m s) (w : String) (n : ℤ) :
    m.Visible w n ↔ ∃ r ∈ s.rows, r.IsPublished w ∧ r.version = some n := by
  constructor
  · exact h.visible w n
  · rintro ⟨r, hr, hpublished, hversion⟩
    obtain ⟨k, v, hholds⟩ := h.rows r hr hpublished.not_draft
    obtain rfl : k = n := Option.some.inj (hholds.number.symm.trans hversion)
    rw [← hpublished.1]
    exact hholds.visible hpublished.2

theorem Mirrors.sqlInt_of_visible (h : Mirrors m s) {w : String} {n : ℤ} (hv : m.Visible w n) :
    sqlInt n = .ok n := by
  obtain ⟨r, hr, hpublished, hversion⟩ := h.visible w n hv
  obtain ⟨k, v, hholds⟩ := h.rows r hr hpublished.not_draft
  obtain rfl : k = n := Option.some.inj (hholds.number.symm.trans hversion)
  exact hholds.fits

/-- The row of a published version holds it; there is none exactly when it is not visible. -/
theorem Mirrors.publishedRow_spec (h : Mirrors m s) (w : String) (n : ℤ) :
    (m.Visible w n ∧ ∃ r v, s.publishedRow w n = some r ∧ r.workflowId = w ∧ RowHolds m r n v) ∨
      (¬ m.Visible w n ∧ s.publishedRow w n = none) := by
  unfold SQLiteStore.publishedRow
  cases hf : s.rows.find? (fun r => r.IsPublished w ∧ r.version = some n) with
  | none =>
    right
    refine ⟨fun hv => ?_, rfl⟩
    obtain ⟨r, hr, hpublished, hversion⟩ := h.visible w n hv
    have hnot := List.find?_eq_none.1 hf r hr
    simp [hpublished, hversion] at hnot
  | some r =>
    left
    have hp := List.find?_some hf
    have hr := List.mem_of_find?_eq_some hf
    simp only [decide_eq_true_eq] at hp
    obtain ⟨k, v, hholds⟩ := h.rows r hr hp.1.not_draft
    obtain rfl : k = n := Option.some.inj (hholds.number.symm.trans hp.2)
    refine ⟨?_, r, v, rfl, hp.1.1, hholds⟩
    rw [← hp.1.1]
    exact hholds.visible hp.1.2

/-- A row holds its version of every state that says the same of its workflow. -/
theorem RowHolds.of_eq {m' : MemoryStore} {r : DefinitionRow} {n : ℤ} {v : WorkflowVersion}
    (h : RowHolds m r n v) (hversions : m'.versionsOf r.workflowId = m.versionsOf r.workflowId)
    (hdeleted : m'.deletedOf r.workflowId = m.deletedOf r.workflowId)
    (hreferences : m'.references = m.references) : RowHolds m' r n v := by
  obtain ⟨hnumber, hfits, hstored, hkind, hreferenced, hpayload⟩ := h
  unfold MemoryStore.versionOf at hstored
  rw [← hversions] at hstored
  rw [← hdeleted] at hkind
  rw [← hreferences] at hreferenced
  exact ⟨hnumber, hfits, hstored, hkind, hreferenced, hpayload⟩

/-! ## Calls that change drafts -/

/-- Other drafts over the same rows of versions. -/
theorem Mirrors.redraft (h : Mirrors m s) {drafts : Dict String WorkflowDraft}
    {rows : List DefinitionRow}
    (hdrafts : rows.filterMap draftEntry = drafts.entries.map fun e => (e.1, e.2.toDict))
    (hids : drafts.keys.Nodup)
    (hrows : rows.filter (fun r => r.kind ≠ .draft) = s.rows.filter fun r => r.kind ≠ .draft)
    (hkept : ∀ w, drafts.contains w = false → m.drafts.contains w = false) :
    Mirrors { m with drafts := drafts } ⟨rows⟩ := by
  have hmem (r : DefinitionRow) (hk : r.kind ≠ .draft) : r ∈ rows ↔ r ∈ s.rows := by
    have hiff : r ∈ rows.filter (fun r => r.kind ≠ .draft) ↔
        r ∈ s.rows.filter fun r => r.kind ≠ .draft := by rw [hrows]
    simpa [hk] using hiff
  constructor
  · exact hdrafts
  · exact hids
  · intro r hr hk
    obtain ⟨n, v, hholds⟩ := h.rows r ((hmem r hk).1 hr) hk
    exact ⟨n, v, ⟨hholds.number, hholds.fits, hholds.stored, hholds.deleted, hholds.referenced,
      hholds.payload⟩⟩
  · show ((rows.filter _).map _).Nodup
    rw [hrows]
    exact h.once
  · intro w n hv
    obtain ⟨r, hr, hpublished, hversion⟩ := h.visible w n hv
    exact ⟨r, (hmem r hpublished.not_draft).2 hr, hpublished, hversion⟩
  · intro w n href
    obtain ⟨r, hr, hisVersion, hversion⟩ := h.reference w n href
    exact ⟨r, (hmem r hisVersion.not_draft).2 hr, hisVersion, hversion⟩
  · intro r hr hk hnone
    exact h.kept r ((hmem r hk).1 hr) hk (hkept _ hnone)
  · exact h.hidden
  · exact h.numbered
  · exact h.workflowIds
  · exact h.numbers

omit [PyLib] in
theorem contains_set (drafts : Dict String WorkflowDraft) (k w : String) (d : WorkflowDraft)
    (h : (drafts.set k d).contains w = false) : drafts.contains w = false := by
  rw [Dict.contains, Dict.get?_set] at h
  by_cases hw : w = k
  · simp [hw] at h
  · simpa [hw, Dict.contains] using h

theorem Mirrors.create (h : Mirrors m s) (draft : WorkflowDraft)
    (hnew : m.drafts.contains draft.id = false) :
    Mirrors { m with drafts := m.drafts.set draft.id draft }
      ⟨s.rows ++ [⟨draft.id, none, .draft, false, draft.toDict⟩]⟩ := by
  have hkey : draft.id ∉ m.drafts.keys := by
    rw [← Dict.contains_iff_mem_keys, hnew]
    exact Bool.false_ne_true
  refine h.redraft ?_ (Dict.nodup_keys_set h.draftIds _ _) ?_ (contains_set _ _ · draft)
  · show _ = (Dict.insert draft.id draft m.drafts.entries).map _
    rw [insert_of_not_mem hkey, List.filterMap_append, h.drafts, List.map_append]
    rfl
  · rw [List.filter_append]
    simp

theorem Mirrors.save (h : Mirrors m s) (draft : WorkflowDraft)
    (hold : m.drafts.contains draft.id = true) :
    Mirrors { m with drafts := m.drafts.set draft.id draft }
      (s.update (fun r => r.IsDraft draft.id) fun r => { r with payload := draft.toDict }) := by
  have hkey : draft.id ∈ m.drafts.keys := (Dict.contains_iff_mem_keys _ _).1 hold
  refine h.redraft ?_ (Dict.nodup_keys_set h.draftIds _ _) ?_ (contains_set _ _ · draft)
  · have hentry (r : DefinitionRow) :
        draftEntry (if r.IsDraft draft.id then { r with payload := draft.toDict } else r) =
          (draftEntry r).map fun e => if e.1 = draft.id then (draft.id, draft.toDict) else e := by
      by_cases hk : r.kind = .draft
      · by_cases hw : r.workflowId = draft.id <;> simp [DefinitionRow.IsDraft, draftEntry, hk, hw]
      · simp [DefinitionRow.IsDraft, draftEntry, hk]
    show _ = (Dict.insert draft.id draft m.drafts.entries).map _
    rw [insert_of_nodup h.draftIds hkey]
    calc (s.rows.map fun r => if r.IsDraft draft.id then { r with payload := draft.toDict }
            else r).filterMap draftEntry
        = s.rows.filterMap fun r => (draftEntry r).map fun e =>
            if e.1 = draft.id then (draft.id, draft.toDict) else e := by
          rw [List.filterMap_map]
          exact List.filterMap_congr fun r _ => hentry r
      _ = (s.rows.filterMap draftEntry).map fun e =>
            if e.1 = draft.id then (draft.id, draft.toDict) else e := by rw [List.map_filterMap]
      _ = (m.drafts.entries.map fun e => if e.1 = draft.id then (draft.id, draft) else e).map
            fun e => (e.1, e.2.toDict) := by
          rw [h.drafts, List.map_map, List.map_map]
          refine List.map_congr_left fun e _ => ?_
          by_cases hw : e.1 = draft.id <;> simp [hw]
  · show (s.rows.map _).filter _ = _
    rw [List.filter_map]
    have hsame : ∀ r ∈ s.rows.filter (fun r => r.kind ≠ .draft),
        (if r.IsDraft draft.id then { r with payload := draft.toDict } else r) = r := by
      intro r hr
      have hk : r.kind ≠ .draft := by simpa using (List.mem_filter.1 hr).2
      exact if_neg fun hd => hk hd.2
    have htest : ((fun r : DefinitionRow => decide (r.kind ≠ .draft)) ∘ fun r : DefinitionRow =>
        if r.IsDraft draft.id then { r with payload := draft.toDict } else r) =
        fun r => decide (r.kind ≠ .draft) := by
      funext r
      by_cases hd : r.IsDraft draft.id <;> simp [hd]
    rw [htest]
    exact (List.map_congr_left hsame).trans (List.map_id _)

/-! ## Calls that change versions -/

/-- What an update of the flags of versions leaves as it is. -/
structure Reflags (f : DefinitionRow → DefinitionRow) : Prop where
  workflowId : ∀ r, (f r).workflowId = r.workflowId
  version : ∀ r, (f r).version = r.version
  payload : ∀ r, (f r).payload = r.payload
  draft : ∀ r, (f r).kind = .draft ↔ r.kind = .draft
  deleted : ∀ r, r.kind = .deleted → (f r).kind = .deleted
  referenced : ∀ r, r.referenced = true → (f r).referenced = true

/-- Other flags over the same versions. -/
theorem Mirrors.reflag (h : Mirrors m s) {f : DefinitionRow → DefinitionRow} (hf : Reflags f)
    {deleted : Dict String (Finset ℤ)} {references : Finset (String × ℤ)}
    (hdeleted : ∀ r ∈ s.rows, r.kind ≠ .draft → ∀ n v, RowHolds m r n v →
      ((f r).kind = .deleted ↔ n ∈ (deleted.get? r.workflowId).getD ∅))
    (hreferenced : ∀ r ∈ s.rows, r.kind ≠ .draft → ∀ n v, RowHolds m r n v →
      ((f r).referenced = true ↔ (r.workflowId, n) ∈ references))
    (hgrows : ∀ w, m.deletedOf w ⊆ (deleted.get? w).getD ∅)
    (hhidden : ∀ w, ∀ n ∈ (deleted.get? w).getD ∅, (m.versionOf w n).isSome = true)
    (hreference : ∀ w n, (w, n) ∈ references →
      ∃ r ∈ s.rows, r.IsVersion w ∧ r.version = some n) :
    Mirrors { m with deletedVersions := deleted, references := references } ⟨s.rows.map f⟩ := by
  have hholds' (r : DefinitionRow) (hr : r ∈ s.rows) (hk : r.kind ≠ .draft) {n : ℤ}
      {v : WorkflowVersion} (hholds : RowHolds m r n v) :
      RowHolds { m with deletedVersions := deleted, references := references } (f r) n v := by
    constructor
    · rw [hf.version]
      exact hholds.number
    · exact hholds.fits
    · rw [hf.workflowId]
      exact hholds.stored
    · rw [hf.workflowId]
      exact hdeleted r hr hk n v hholds
    · rw [hf.workflowId]
      exact hreferenced r hr hk n v hholds
    · rw [hf.payload]
      exact hholds.payload
  have hisVersion {r : DefinitionRow} {w : String} (hv : r.IsVersion w) : (f r).IsVersion w := by
    have hk : (f r).kind ≠ .draft := fun hd => hv.not_draft ((hf.draft r).1 hd)
    have hr := DefinitionRow.isVersion_of_not_draft hk
    rw [hf.workflowId, hv.1] at hr
    exact hr
  constructor
  · show (s.rows.map f).filterMap draftEntry = _
    rw [List.filterMap_map, ← h.drafts]
    refine List.filterMap_congr fun r _ => ?_
    show draftEntry (f r) = draftEntry r
    unfold draftEntry
    rw [hf.workflowId, hf.payload]
    exact if_congr (hf.draft r) rfl rfl
  · exact h.draftIds
  · intro r' hr' hk
    obtain ⟨r, hr, rfl⟩ := List.mem_map.1 hr'
    have hkind : r.kind ≠ .draft := fun hd => hk ((hf.draft r).2 hd)
    obtain ⟨n, v, hholds⟩ := h.rows r hr hkind
    exact ⟨n, v, hholds' r hr hkind hholds⟩
  · show ((List.filter _ (s.rows.map f)).map _).Nodup
    have htest : ((fun r : DefinitionRow => decide (r.kind ≠ .draft)) ∘ f) =
        fun r => decide (r.kind ≠ .draft) := by
      funext r
      simp [hf.draft r]
    have hpair : ((fun r : DefinitionRow => (r.workflowId, r.version)) ∘ f) =
        fun r => (r.workflowId, r.version) := by
      funext r
      simp [hf.workflowId r, hf.version r]
    rw [List.filter_map, htest, List.map_map, hpair]
    exact h.once
  · intro w n hv
    obtain ⟨r, hr, hpublished, hversion⟩ := h.visible w n ⟨hv.1, fun hd => hv.2 (hgrows w hd)⟩
    obtain ⟨k, v, hholds⟩ := h.rows r hr hpublished.not_draft
    obtain rfl : k = n := Option.some.inj (hholds.number.symm.trans hversion)
    have hnew := hholds' r hr hpublished.not_draft hholds
    refine ⟨f r, List.mem_map_of_mem hr, ⟨by rw [hf.workflowId, hpublished.1], ?_⟩, hnew.number⟩
    cases hk : (f r).kind with
    | draft => exact absurd ((hf.draft r).1 hk) hpublished.not_draft
    | published => rfl
    | deleted =>
      have hin := hnew.deleted.1 hk
      rw [hf.workflowId, hpublished.1] at hin
      exact absurd hin hv.2
  · intro w n href
    obtain ⟨r, hr, hv, hversion⟩ := hreference w n href
    exact ⟨f r, List.mem_map_of_mem hr, hisVersion hv, by rw [hf.version, hversion]⟩
  · intro r' hr' hk hnone
    obtain ⟨r, hr, rfl⟩ := List.mem_map.1 hr'
    rw [hf.workflowId] at hnone
    have hkept := h.kept r hr (fun hd => hk ((hf.draft r).2 hd)) hnone
    exact ⟨hf.deleted r hkept.1, hf.referenced r hkept.2⟩
  · exact hhidden
  · exact h.numbered
  · exact h.workflowIds
  · exact h.numbers

omit [PyLib] in
theorem reflags_delete (w : String) (n : ℤ) :
    Reflags fun r => if r.IsPublished w ∧ r.version = some n then { r with kind := .deleted }
      else r := by
  constructor <;> intro r <;> split_ifs with hp <;> simp_all [DefinitionRow.IsPublished]

omit [PyLib] in
theorem reflags_mark (w : String) (n : ℤ) :
    Reflags fun r => if r.IsPublished w ∧ r.version = some n then { r with referenced := true }
      else r := by
  constructor <;> intro r <;> split_ifs with hp <;> simp_all

theorem Mirrors.deleteVersion (h : Mirrors m s) {w : String} {n : ℤ} (hv : m.Visible w n) :
    Mirrors { m with deletedVersions := m.deletedVersions.set w (insert n (m.deletedOf w)) }
      (s.update (fun r => r.IsPublished w ∧ r.version = some n)
        fun r => { r with kind := .deleted }) := by
  have hafter (w' : String) :
      ((m.deletedVersions.set w (insert n (m.deletedOf w))).get? w').getD ∅ =
        if w' = w then insert n (m.deletedOf w) else m.deletedOf w' := by
    rw [Dict.get?_set]
    split <;> rfl
  refine h.reflag (reflags_delete w n) ?_ ?_ ?_ ?_ h.reference
  · intro r _ hk k v hholds
    have hnumber : r.version = some n ↔ k = n := by simp [hholds.number]
    have hkind := hholds.deleted
    rw [hafter]
    by_cases hw : r.workflowId = w
    · rw [if_pos hw, Finset.mem_insert]
      by_cases hkn : k = n
      · have hboth : r.kind = .published ∨ r.kind = .deleted :=
          (DefinitionRow.isVersion_of_not_draft hk).2
        rcases hboth with hp | hd
        · simp [DefinitionRow.IsPublished, hw, hp, hnumber, hkn]
        · simp [DefinitionRow.IsPublished, hd, hkn]
      · simpa [DefinitionRow.IsPublished, hw, hnumber, hkn] using hkind
    · simpa [DefinitionRow.IsPublished, hw] using hkind
  · intro r _ _ k v hholds
    rw [← hholds.referenced]
    split_ifs <;> rfl
  · intro w'
    rw [hafter]
    split_ifs with hw
    · rw [hw]
      exact Finset.subset_insert _ _
    · exact Finset.Subset.refl _
  · intro w' k hk
    rw [hafter] at hk
    split_ifs at hk with hw
    · rcases Finset.mem_insert.1 hk with rfl | hk
      · rw [hw]
        exact hv.1
      · rw [hw]
        exact h.hidden w k hk
    · exact h.hidden w' k hk

theorem Mirrors.markReferenced (h : Mirrors m s) {w : String} {n : ℤ} (hv : m.Visible w n) :
    Mirrors { m with references := insert (w, n) m.references }
      (s.update (fun r => r.IsPublished w ∧ r.version = some n)
        fun r => { r with referenced := true }) := by
  refine h.reflag (reflags_mark w n) ?_ ?_ (fun _ => Finset.Subset.refl _) h.hidden ?_
  · intro r _ _ k v hholds
    refine Iff.trans ?_ hholds.deleted
    split_ifs <;> rfl
  · intro r _ hk k v hholds
    have hnumber : r.version = some n ↔ k = n := by simp [hholds.number]
    rw [Finset.mem_insert, ← hholds.referenced]
    by_cases hpair : r.workflowId = w ∧ k = n
    · have hp : r.kind = .published := by
        rcases (DefinitionRow.isVersion_of_not_draft hk).2 with hp | hd
        · exact hp
        · have hin := hholds.deleted.1 hd
          rw [hpair.1, hpair.2] at hin
          exact absurd hin hv.2
      simp [DefinitionRow.IsPublished, hpair.1, hpair.2, hp, hnumber]
    · have hne : ¬ ((r.IsPublished w) ∧ r.version = some n) := fun hp =>
        hpair ⟨hp.1.1, hnumber.1 hp.2⟩
      simp [hne, Prod.ext_iff, hpair]
  · intro w' k href
    rcases Finset.mem_insert.1 href with heq | href
    · obtain ⟨rfl, rfl⟩ := Prod.ext_iff.1 heq
      obtain ⟨r, hr, hp, hversion⟩ := h.visible _ _ hv
      exact ⟨r, hr, ⟨hp.1, .inl hp.2⟩, hversion⟩
    · exact h.reference w' k href

omit [PyLib] in
theorem contains_erase (drafts : Dict String WorkflowDraft) (k w : String) :
    (drafts.erase k).contains w = (decide (w ≠ k) && drafts.contains w) := by
  rw [Dict.contains, Dict.get?_erase]
  by_cases hw : w = k <;> simp [hw, Dict.contains]

omit [PyLib] in
/-- The entries of the drafts without those of one workflow. -/
theorem filterMap_draftEntry_filter (rows : List DefinitionRow) (w : String)
    (p : DefinitionRow → Bool)
    (hp : ∀ r ∈ rows, r.kind = .draft → (p r = true ↔ r.workflowId ≠ w)) :
    (rows.filter p).filterMap draftEntry =
      (rows.filterMap draftEntry).filter fun e => decide (e.1 ≠ w) := by
  induction rows with
  | nil => rfl
  | cons r rest ih =>
    have hrest := ih fun q hq => hp q (List.mem_cons_of_mem _ hq)
    have hr := hp r List.mem_cons_self
    by_cases hk : r.kind = .draft
    · by_cases hw : r.workflowId = w
      · have hnot : p r = false := by simpa [hw] using hr hk
        simp [hnot, draftEntry, hk, hw, hrest]
      · have htrue : p r = true := (hr hk).2 hw
        simp [htrue, draftEntry, hk, hw, hrest]
    · have hnone : draftEntry r = none := if_neg hk
      cases hpr : p r with
      | true => simp [hpr, hnone, hrest]
      | false => simp [hpr, hnone, hrest]

/-- The drafts of a table without the draft of one workflow. -/
theorem Mirrors.drafts_erase (h : Mirrors m s) (w : String) (p : DefinitionRow → Bool)
    (hp : ∀ r ∈ s.rows, r.kind = .draft → (p r = true ↔ r.workflowId ≠ w)) :
    (s.rows.filter p).filterMap draftEntry =
      (m.drafts.erase w).entries.map fun e => (e.1, e.2.toDict) := by
  rw [filterMap_draftEntry_filter s.rows w p hp, h.drafts, List.filter_map]
  rfl

/-- Deleting a workflow whose versions are not referenced. -/
theorem Mirrors.deleteDraft (h : Mirrors m s) (w : String)
    (hfree : ∀ n, (w, n) ∉ m.references) :
    Mirrors { m with
        drafts := m.drafts.erase w
        versions := m.versions.erase w
        deletedVersions := m.deletedVersions.erase w }
      (s.delete fun r => r.IsDraft w ∨ r.IsVersion w) := by
  have hgone (r : DefinitionRow) : ¬ (r.IsDraft w ∨ r.IsVersion w) ↔ r.workflowId ≠ w := by
    constructor
    · rintro hnot hw
      cases hk : r.kind with
      | draft => exact hnot (.inl ⟨hw, hk⟩)
      | published => exact hnot (.inr ⟨hw, .inl hk⟩)
      | deleted => exact hnot (.inr ⟨hw, .inr hk⟩)
    · rintro hw (hd | hv)
      · exact hw hd.1
      · exact hw hv.1
  have hmem (r : DefinitionRow) :
      r ∈ (s.delete fun r => r.IsDraft w ∨ r.IsVersion w).rows ↔ r ∈ s.rows ∧ r.workflowId ≠ w := by
    simp only [SQLiteStore.delete, List.mem_filter, decide_eq_true_eq, hgone]
  have hversions (w' : String) (hw : w' ≠ w) :
      ((m.versions.erase w).get? w').getD ∅ = m.versionsOf w' := by
    rw [Dict.get?_erase, if_neg hw]
    rfl
  have hnoVersions : ((m.versions.erase w).get? w).getD ∅ = ∅ := by
    rw [Dict.get?_erase, if_pos rfl]
    rfl
  have hdeleted (w' : String) (hw : w' ≠ w) :
      ((m.deletedVersions.erase w).get? w').getD ∅ = m.deletedOf w' := by
    rw [Dict.get?_erase, if_neg hw]
    rfl
  have hnoDeleted : ((m.deletedVersions.erase w).get? w).getD ∅ = (∅ : Finset ℤ) := by
    rw [Dict.get?_erase, if_pos rfl]
    rfl
  constructor
  · refine h.drafts_erase w _ fun r _ _ => ?_
    rw [decide_eq_true_iff]
    exact hgone r
  · exact Dict.nodup_keys_filterKeys h.draftIds _
  · intro r hr hk
    obtain ⟨hr, hw⟩ := (hmem r).1 hr
    obtain ⟨n, v, hholds⟩ := h.rows r hr hk
    exact ⟨n, v, hholds.of_eq (hversions _ hw) (hdeleted _ hw) rfl⟩
  · have hsub : (s.delete fun r => r.IsDraft w ∨ r.IsVersion w).rows.Sublist s.rows :=
      List.filter_sublist
    exact (h.once.sublist ((hsub.filter _).map _))
  · intro w' n hv
    by_cases hw : w' = w
    · have hnone := hv.1
      rw [hw] at hnone
      unfold MemoryStore.versionOf MemoryStore.versionsOf at hnone
      rw [hnoVersions] at hnone
      cases hnone
    · have hold : m.Visible w' n := by
        unfold MemoryStore.Visible MemoryStore.versionOf MemoryStore.versionsOf
          MemoryStore.deletedOf at hv
        rw [hversions w' hw, hdeleted w' hw] at hv
        exact hv
      obtain ⟨r, hr, hp, hversion⟩ := h.visible w' n hold
      refine ⟨r, (hmem r).2 ⟨hr, ?_⟩, hp, hversion⟩
      rw [hp.1]
      exact hw
  · intro w' n href
    obtain ⟨r, hr, hv, hversion⟩ := h.reference w' n href
    refine ⟨r, (hmem r).2 ⟨hr, ?_⟩, hv, hversion⟩
    rw [hv.1]
    rintro rfl
    exact hfree n href
  · intro r hr hk hnone
    obtain ⟨hr, hw⟩ := (hmem r).1 hr
    rw [contains_erase] at hnone
    exact h.kept r hr hk (by simpa [hw] using hnone)
  · intro w' n hn
    unfold MemoryStore.deletedOf at hn
    unfold MemoryStore.versionOf MemoryStore.versionsOf
    by_cases hw : w' = w
    · rw [hw, hnoDeleted] at hn
      exact absurd hn (Finset.notMem_empty n)
    · rw [hdeleted w' hw] at hn
      rw [hversions w' hw]
      exact h.hidden w' n hn
  · intro w' n v hv
    unfold MemoryStore.versionOf MemoryStore.versionsOf at hv
    by_cases hw : w' = w
    · rw [hw, hnoVersions] at hv
      cases hv
    · rw [hversions w' hw] at hv
      exact h.numbered w' n v hv
  · exact Dict.nodup_keys_filterKeys h.workflowIds _
  · intro w'
    unfold MemoryStore.versionsOf
    by_cases hw : w' = w
    · rw [hw, hnoVersions]
      exact List.nodup_nil
    · rw [hversions w' hw]
      exact h.numbers w'

/-- The relation looks at the versions and the deleted numbers of each workflow only. -/
theorem Mirrors.congr (h : Mirrors m s) {m' : MemoryStore} (hdrafts : m'.drafts = m.drafts)
    (hversions : ∀ w, m'.versionsOf w = m.versionsOf w)
    (hdeleted : ∀ w, m'.deletedOf w = m.deletedOf w) (hreferences : m'.references = m.references)
    (hids : m'.versions.keys.Nodup) : Mirrors m' s := by
  have hversionOf (w : String) (n : ℤ) : m'.versionOf w n = m.versionOf w n := by
    unfold MemoryStore.versionOf
    rw [hversions]
  have hvisible (w : String) (n : ℤ) : m'.Visible w n ↔ m.Visible w n := by
    unfold MemoryStore.Visible
    rw [hversionOf, hdeleted]
  constructor
  · rw [hdrafts]
    exact h.drafts
  · rw [hdrafts]
    exact h.draftIds
  · intro r hr hk
    obtain ⟨n, v, hholds⟩ := h.rows r hr hk
    exact ⟨n, v, hholds.of_eq (hversions _) (hdeleted _) hreferences⟩
  · exact h.once
  · intro w n hv
    exact h.visible w n ((hvisible w n).1 hv)
  · rw [hreferences]
    exact h.reference
  · rw [hdrafts]
    exact h.kept
  · intro w n hn
    rw [hdeleted] at hn
    rw [hversionOf]
    exact h.hidden w n hn
  · intro w n v hv
    rw [hversionOf] at hv
    exact h.numbered w n v hv
  · exact hids
  · intro w
    rw [hversions]
    exact h.numbers w

/-- Hiding every version of a workflow. -/
theorem Mirrors.hide (h : Mirrors m s) (w : String) :
    Mirrors { m with deletedVersions :=
        m.deletedVersions.set w (m.versionsOf w).keys.toFinset }
      (s.update (fun r => r.IsPublished w) fun r => { r with kind := .deleted }) := by
  have hafter (w' : String) :
      ((m.deletedVersions.set w (m.versionsOf w).keys.toFinset).get? w').getD ∅ =
        if w' = w then (m.versionsOf w).keys.toFinset else m.deletedOf w' := by
    rw [Dict.get?_set]
    split <;> rfl
  have hkeys (n : ℤ) : n ∈ (m.versionsOf w).keys.toFinset ↔ (m.versionOf w n).isSome = true := by
    rw [List.mem_toFinset, ← Dict.contains_iff_mem_keys]
    rfl
  have hflags : Reflags fun r => if r.IsPublished w then { r with kind := .deleted } else r := by
    constructor <;> intro r <;> split_ifs with hp <;> simp_all [DefinitionRow.IsPublished]
  refine h.reflag hflags ?_ ?_ ?_ ?_ h.reference
  · intro r _ hk n v hholds
    have hkind := hholds.deleted
    rw [hafter]
    by_cases hw : r.workflowId = w
    · have hstored := hholds.stored
      rw [hw] at hstored
      rw [if_pos hw, hkeys, hstored]
      rcases (DefinitionRow.isVersion_of_not_draft hk).2 with hp | hd
      · simp [DefinitionRow.IsPublished, hw, hp]
      · simp [DefinitionRow.IsPublished, hd]
    · simpa [DefinitionRow.IsPublished, hw] using hkind
  · intro r _ _ n v hholds
    rw [← hholds.referenced]
    split_ifs <;> rfl
  · intro w' n hn
    rw [hafter]
    split_ifs with hw
    · rw [hkeys, ← hw]
      exact h.hidden w' n hn
    · exact hn
  · intro w' n hn
    rw [hafter] at hn
    split_ifs at hn with hw
    · rw [hw]
      exact (hkeys n).1 hn
    · exact h.hidden w' n hn

/-- A row that stays when a workflow goes and its references are kept. -/
def DefinitionRow.Stays (r : DefinitionRow) (w : String) : Prop :=
  ¬ r.IsDraft w ∧ ¬ (r.workflowId = w ∧ r.kind = .deleted ∧ r.referenced = false)

instance (r : DefinitionRow) (w : String) : Decidable (r.Stays w) :=
  inferInstanceAs (Decidable (_ ∧ _))

/-- A hidden workflow goes: its draft, and its versions that are not referenced. -/
theorem Mirrors.drop (h : Mirrors m s) (w : String)
    (hhidden : ∀ r ∈ s.rows, r.IsVersion w → r.kind = .deleted) :
    Mirrors { m with drafts := m.drafts.erase w } ⟨s.rows.filter fun r => r.Stays w⟩ := by
  have hmem (r : DefinitionRow) :
      r ∈ s.rows.filter (fun r => r.Stays w) ↔ r ∈ s.rows ∧ r.Stays w := by
    simp [List.mem_filter]
  constructor
  · refine h.drafts_erase w _ fun r _ hk => ?_
    rw [decide_eq_true_iff]
    constructor
    · exact fun hstays hw => hstays.1 ⟨hw, hk⟩
    · exact fun hw => ⟨fun hd => hw hd.1, fun hd => hw hd.1⟩
  · exact Dict.nodup_keys_filterKeys h.draftIds _
  · intro r hr hk
    obtain ⟨n, v, hholds⟩ := h.rows r ((hmem r).1 hr).1 hk
    exact ⟨n, v, hholds.of_eq rfl rfl rfl⟩
  · exact (h.once.sublist ((List.filter_sublist.filter _).map _))
  · intro w' n hv
    obtain ⟨r, hr, hp, hversion⟩ := h.visible w' n hv
    refine ⟨r, (hmem r).2 ⟨hr, fun hd => hp.not_draft hd.2, fun hd => ?_⟩, hp, hversion⟩
    rw [hp.2] at hd
    exact RowKind.noConfusion hd.2.1
  · intro w' n href
    obtain ⟨r, hr, hv, hversion⟩ := h.reference w' n href
    obtain ⟨k, v, hholds⟩ := h.rows r hr hv.not_draft
    obtain rfl : k = n := Option.some.inj (hholds.number.symm.trans hversion)
    have href' : r.referenced = true := hholds.referenced.2 (by rw [hv.1]; exact href)
    refine ⟨r, (hmem r).2 ⟨hr, fun hd => hv.not_draft hd.2, fun hd => ?_⟩, hv, hversion⟩
    rw [href'] at hd
    exact Bool.noConfusion hd.2.2
  · intro r hr hk hnone
    obtain ⟨hr, hstays⟩ := (hmem r).1 hr
    rw [contains_erase] at hnone
    by_cases hw : r.workflowId = w
    · have hd : r.kind = .deleted := by
        have hv := DefinitionRow.isVersion_of_not_draft hk
        rw [hw] at hv
        exact hhidden r hr hv
      refine ⟨hd, ?_⟩
      by_contra href
      exact hstays.2 ⟨hw, hd, by simpa using href⟩
    · exact h.kept r hr hk (by simpa [hw] using hnone)
  · exact h.hidden
  · exact h.numbered
  · exact h.workflowIds
  · exact h.numbers

theorem Mirrors.deletePreservingReferences (h : Mirrors m s) {w : String}
    (hdraft : m.drafts.contains w = true) :
    ∃ m' s', m.deletePreservingReferences w = .ok m' ∧ s.deletePreservingReferences w = .ok s' ∧
      Mirrors m' s' := by
  have hhas : s.HasDraft w := (h.hasDraft_iff w).2 hdraft
  -- The three statements leave the rows that stay of the hidden ones.
  have hrows : (((s.delete fun r => r.IsDraft w).update (fun r => r.IsPublished w)
        fun r => { r with kind := .deleted }).delete fun r =>
          r.workflowId = w ∧ r.kind = .deleted ∧ r.referenced = false) =
      ⟨(s.update (fun r => r.IsPublished w) fun r => { r with kind := .deleted }).rows.filter
        fun r => r.Stays w⟩ := by
    have htest : ((fun r : DefinitionRow => decide ¬ r.IsDraft w) ∘ fun r : DefinitionRow =>
        if r.IsPublished w then { r with kind := .deleted } else r) =
        fun r => decide ¬ r.IsDraft w := by
      funext r
      by_cases hp : r.IsPublished w
      · simp [DefinitionRow.IsDraft, hp, hp.2]
      · simp [hp]
    simp only [SQLiteStore.delete, SQLiteStore.update, SQLiteStore.mk.injEq]
    rw [← htest, ← List.filter_map, List.filter_filter]
    refine List.filter_congr fun r _ => ?_
    simp [DefinitionRow.Stays, Bool.and_comm]
  have hhidden := h.hide w
  have hdropped := hhidden.drop w fun r hr hv => by
    obtain ⟨q, _, rfl⟩ := List.mem_map.1 hr
    split_ifs at hv ⊢ with hp
    · rfl
    · rcases hv.2 with hk | hk
      · exact absurd ⟨hv.1, hk⟩ hp
      · exact hk
  unfold MemoryStore.deletePreservingReferences SQLiteStore.deletePreservingReferences
  rw [if_neg (not_not.2 hdraft), if_neg (not_not.2 hhas)]
  dsimp only
  rw [hrows]
  by_cases hempty : (m.versionsOf w).entries = []
  · rw [if_neg (not_not.2 hempty)]
    refine ⟨_, _, rfl, rfl, hdropped.congr rfl ?_ ?_ rfl ?_⟩
    · intro w'
      show ((m.versions.erase w).get? w').getD ∅ = m.versionsOf w'
      rw [Dict.get?_erase]
      split_ifs with hw
      · rw [hw]
        exact (congrArg Dict.mk hempty).symm
      · rfl
    · intro w'
      show ((m.deletedVersions.erase w).get? w').getD ∅ =
        ((m.deletedVersions.set w (m.versionsOf w).keys.toFinset).get? w').getD ∅
      rw [Dict.get?_erase, Dict.get?_set]
      split_ifs with hw
      · simp [Dict.keys, hempty]
      · rfl
    · exact Dict.nodup_keys_filterKeys h.workflowIds _
  · rw [if_pos hempty]
    exact ⟨_, _, rfl, rfl, hdropped⟩

/-! ## Publishing -/

/-- The numbers in the table are numbers of the dictionary. -/
theorem Mirrors.number_mem (h : Mirrors m s) {r : DefinitionRow} (hr : r ∈ s.rows) {w : String}
    (hv : r.IsVersion w) {n : ℤ} (hn : r.version = some n) : n ∈ (m.versionsOf w).keys := by
  obtain ⟨k, v, hholds⟩ := h.rows r hr hv.not_draft
  obtain rfl : k = n := Option.some.inj (hholds.number.symm.trans hn)
  have hstored := hholds.stored
  rw [hv.1] at hstored
  exact Dict.mem_keys_of_get? hstored

/-- The highest number of a workflow is still in the table. -/
def HighestKept (m : MemoryStore) (s : SQLiteStore) (w : String) : Prop :=
  ∀ n ∈ (m.versionsOf w).keys, ∃ k ∈ (s.rows.filter fun r => r.IsVersion w).filterMap (·.version),
    n ≤ k

instance (m : MemoryStore) (s : SQLiteStore) (w : String) : Decidable (HighestKept m s w) :=
  inferInstanceAs (Decidable (∀ n ∈ _, ∃ k ∈ _, n ≤ k))

/-- Both stores give a version the same number. -/
theorem Mirrors.nextNumber_eq (h : Mirrors m s) {w : String} (hkept : HighestKept m s w) :
    s.nextNumber w = maxOr (m.versionsOf w).keys + 1 := by
  have hmem (n : ℤ)
      (hn : n ∈ (s.rows.filter fun r => r.IsVersion w).filterMap (·.version)) :
      n ∈ (m.versionsOf w).keys := by
    obtain ⟨r, hr, hversion⟩ := List.mem_filterMap.1 hn
    obtain ⟨hr, hv⟩ := List.mem_filter.1 hr
    exact h.number_mem hr (of_decide_eq_true hv) hversion
  have hmax := maxOr_eq (fun n hn => ⟨n, hmem n hn, le_rfl⟩) hkept
  exact congrArg (· + 1) hmax

omit [PyLib] in
theorem sqlInt_bounds {n : ℤ} (h : sqlInt n = .ok n) : -2 ^ 63 ≤ n ∧ n < 2 ^ 63 := by
  unfold sqlInt at h
  split_ifs at h with hn
  exact hn

/-- The next number can be bound when it is below the bound. -/
theorem Mirrors.sqlInt_next (h : Mirrors m s) {w : String} (hkept : HighestKept m s w)
    (hsmall : maxOr (m.versionsOf w).keys + 1 < 2 ^ 63) :
    sqlInt (maxOr (m.versionsOf w).keys + 1) = .ok (maxOr (m.versionsOf w).keys + 1) := by
  refine if_pos ⟨?_, hsmall⟩
  by_cases hempty : (m.versionsOf w).keys = []
  · rw [hempty]
    decide
  · obtain ⟨k, hk, hle⟩ := hkept _ (maxOr_mem hempty)
    obtain ⟨r, hr, hversion⟩ := List.mem_filterMap.1 hk
    obtain ⟨hr, hv⟩ := List.mem_filter.1 hr
    have hin := h.number_mem hr (of_decide_eq_true hv) hversion
    obtain ⟨j, v, hholds⟩ := h.rows r hr (of_decide_eq_true hv).not_draft
    obtain rfl : j = k := Option.some.inj (hholds.number.symm.trans hversion)
    have hbound := sqlInt_bounds hholds.fits
    have hge := le_maxOr hin
    omega

/-- A new version, with a number above all others of its workflow. -/
theorem Mirrors.addVersion (h : Mirrors m s) {w : String} (hdraft : m.drafts.contains w = true)
    {n : ℤ} {v v' : WorkflowVersion} (habove : ∀ k ∈ (m.versionsOf w).keys, k < n)
    (hfits : sqlInt n = .ok n) (hid : v.workflowId = w) (hnumber : v.version = .int n)
    (hpayload : v'.stripped.untimed = v.untimed) :
    Mirrors { m with versions := m.versions.set w ((m.versionsOf w).set n v) }
      ⟨s.rows ++ [⟨w, some n, .published, false, v'.toDict⟩]⟩ := by
  have hnew : n ∉ (m.versionsOf w).keys := fun hn => lt_irrefl n (habove n hn)
  have hfresh (r : DefinitionRow) (hr : r ∈ s.rows) (hv : r.IsVersion w) : r.version ≠ some n :=
    fun hversion => hnew (h.number_mem hr hv hversion)
  have hversions (w' : String) :
      ((m.versions.set w ((m.versionsOf w).set n v)).get? w').getD ∅ =
        if w' = w then (m.versionsOf w).set n v else m.versionsOf w' := by
    rw [Dict.get?_set]
    split <;> rfl
  have hversionOf (w' : String) (k : ℤ) :
      ({ m with versions := m.versions.set w ((m.versionsOf w).set n v) } :
        MemoryStore).versionOf w' k = if w' = w ∧ k = n then some v else m.versionOf w' k := by
    show (((m.versions.set w ((m.versionsOf w).set n v)).get? w').getD ∅).get? k = _
    rw [hversions]
    by_cases hw : w' = w
    · rw [if_pos hw, Dict.get?_set, hw]
      by_cases hk : k = n <;> simp [hk, MemoryStore.versionOf]
    · simp [hw, MemoryStore.versionOf]
  have hdeleted : n ∉ m.deletedOf w := by
    intro hn
    have hsome := h.hidden w n hn
    obtain ⟨v₀, hv₀⟩ := Option.isSome_iff_exists.1 hsome
    exact hnew (Dict.mem_keys_of_get? hv₀)
  have hreferences : (w, n) ∉ m.references := by
    intro href
    obtain ⟨r, hr, hv, hversion⟩ := h.reference w n href
    exact hfresh r hr hv hversion
  have hmem (r : DefinitionRow) :
      r ∈ s.rows ++ [⟨w, some n, .published, false, v'.toDict⟩] ↔
        r ∈ s.rows ∨ r = ⟨w, some n, .published, false, v'.toDict⟩ := by
    rw [List.mem_append, List.mem_singleton]
  constructor
  · show (s.rows ++ _).filterMap draftEntry = _
    rw [List.filterMap_append, h.drafts]
    exact List.append_nil _
  · exact h.draftIds
  · intro r hr hk
    rcases (hmem r).1 hr with hold | rfl
    · obtain ⟨k, v₀, hholds⟩ := h.rows r hold hk
      have hne : ¬ (r.workflowId = w ∧ k = n) := by
        rintro ⟨hw, rfl⟩
        have hv := DefinitionRow.isVersion_of_not_draft hk
        rw [hw] at hv
        exact hfresh r hold hv hholds.number
      refine ⟨k, v₀, hholds.number, hholds.fits, ?_, hholds.deleted, hholds.referenced,
        hholds.payload⟩
      rw [hversionOf, if_neg hne]
      exact hholds.stored
    · refine ⟨n, v, rfl, hfits, ?_, ?_, ?_, v'.stripped, v'.fromDict_toDict, hpayload⟩
      · rw [hversionOf, if_pos ⟨rfl, rfl⟩]
      · exact ⟨fun hk => RowKind.noConfusion hk, fun hin => absurd hin hdeleted⟩
      · exact ⟨fun hr => Bool.noConfusion hr, fun hin => absurd hin hreferences⟩
  · show ((List.filter _ (s.rows ++ _)).map _).Nodup
    have hlast : [(⟨w, some n, .published, false, v'.toDict⟩ : DefinitionRow)].filter
        (fun r => decide (r.kind ≠ .draft)) = [⟨w, some n, .published, false, v'.toDict⟩] := rfl
    rw [List.filter_append, hlast, List.map_append, List.nodup_append]
    refine ⟨h.once, List.nodup_singleton _, ?_⟩
    rintro pair hpair _ hone rfl
    obtain ⟨r, hr, heq⟩ := List.mem_map.1 hpair
    obtain ⟨hr, hk⟩ := List.mem_filter.1 hr
    obtain ⟨hw, hversion⟩ := Prod.ext_iff.1 (heq.trans (List.mem_singleton.1 hone))
    have hv := DefinitionRow.isVersion_of_not_draft (of_decide_eq_true hk)
    rw [show r.workflowId = w from hw] at hv
    exact hfresh r hr hv hversion
  · intro w' k hv
    have hsome := hv.1
    rw [hversionOf] at hsome
    split_ifs at hsome with hnow
    · obtain ⟨rfl, rfl⟩ := hnow
      exact ⟨_, (hmem _).2 (.inr rfl), ⟨rfl, rfl⟩, rfl⟩
    · obtain ⟨r, hr, hp, hversion⟩ := h.visible w' k ⟨hsome, hv.2⟩
      exact ⟨r, (hmem r).2 (.inl hr), hp, hversion⟩
  · intro w' k href
    obtain ⟨r, hr, hv, hversion⟩ := h.reference w' k href
    exact ⟨r, (hmem r).2 (.inl hr), hv, hversion⟩
  · intro r hr hk hnone
    rcases (hmem r).1 hr with hr | rfl
    · exact h.kept r hr hk hnone
    · exact absurd (hdraft.symm.trans hnone) (by decide)
  · intro w' k hk
    rw [hversionOf]
    split_ifs
    · rfl
    · exact h.hidden w' k hk
  · intro w' k v₀ hv₀
    rw [hversionOf] at hv₀
    split_ifs at hv₀ with hnow
    · obtain rfl := Option.some.inj hv₀
      obtain ⟨rfl, rfl⟩ := hnow
      exact ⟨hid, hnumber⟩
    · exact h.numbered w' k v₀ hv₀
  · exact Dict.nodup_keys_set h.workflowIds _ _
  · intro w'
    show (((m.versions.set w ((m.versionsOf w).set n v)).get? w').getD ∅).keys.Nodup
    rw [hversions]
    split_ifs
    · exact Dict.nodup_keys_set (h.numbers w) _ _
    · exact h.numbers w'

end Mirrored

end DeviceShell.Studio
