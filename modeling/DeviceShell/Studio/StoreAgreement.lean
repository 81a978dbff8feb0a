import DeviceShell.Studio.StoreMirror

/-!
# The two stores of workflow definitions answer alike

`Lockstep` says when a call keeps both stores related and is answered alike: a draft that is read or
published is held whole by its dictionary and has no canvas edges, its highest number is still in
the table, a version that is marked or asked for is visible, and a listing has one order only. In
every run of such calls both stores answer the same, publication times aside, or both raise
(`stores_agree`), an exception of the same class apart from two kinds of calls (`SameClass`).
-/

namespace DeviceShell.Studio

section Stores

variable [PyLib] {m : MemoryStore} {s : SQLiteStore}

/-! ## Reading rows -/

/-- The number of a row. -/
def DefinitionRow.num (r : DefinitionRow) : ℤ := r.version.getD 0

/-- The version of the store in memory that a row holds. -/
def versionAt (m : MemoryStore) (r : DefinitionRow) : Option WorkflowVersion :=
  m.versionOf r.workflowId r.num

omit [PyLib] in
theorem RowHolds.num_eq [PyLib] {r : DefinitionRow} {n : ℤ} {v : WorkflowVersion}
    (h : RowHolds m r n v) : r.num = n := by
  rw [DefinitionRow.num, h.number]
  rfl

/-- Rows of versions are read as the versions that they hold, publication times aside. -/
theorem Mirrors.readVersions_eq (h : Mirrors m s) {rows : List DefinitionRow}
    (hrows : ∀ r ∈ rows, r ∈ s.rows ∧ r.kind ≠ .draft) {versions : List WorkflowVersion}
    (hversions : rows.map (versionAt m) = versions.map some) :
    ∃ read, SQLiteStore.readVersions rows = .ok read ∧
      read.map WorkflowVersion.untimed = versions.map WorkflowVersion.untimed := by
  unfold SQLiteStore.readVersions
  induction rows generalizing versions with
  | nil =>
    obtain rfl : versions = [] := by simpa using hversions.symm
    exact ⟨[], rfl, rfl⟩
  | cons r rest ih =>
    cases versions with
    | nil => cases hversions
    | cons v versions =>
      obtain ⟨hhead, htail⟩ := List.cons.inj hversions
      obtain ⟨hr, hk⟩ := hrows r List.mem_cons_self
      obtain ⟨n, v₀, hholds⟩ := h.rows r hr hk
      have hat : versionAt m r = some v₀ := by
        rw [versionAt, hholds.num_eq]
        exact hholds.stored
      obtain rfl : v₀ = v := Option.some.inj (hat.symm.trans hhead)
      obtain ⟨v', hread, huntimed⟩ := hholds.payload
      obtain ⟨read, hrest, hsame⟩ := ih (fun q hq => hrows q (List.mem_cons_of_mem _ hq)) htail
      refine ⟨v' :: read, ?_, ?_⟩
      · rw [List.mapM_cons, hread, hrest]
        rfl
      · rw [List.map_cons, List.map_cons, huntimed, hsame]

/-! ## Versions of one workflow -/

/-- The rows of a workflow have distinct numbers. -/
theorem Mirrors.num_nodup (h : Mirrors m s) (w : String) :
    ((s.rows.filter fun r => r.IsPublished w).map DefinitionRow.num).Nodup := by
  have hsub : (s.rows.filter fun r => r.IsPublished w).Sublist
      (s.rows.filter fun r => r.kind ≠ .draft) := by
    refine List.monotone_filter_right _ fun r hr => ?_
    have hp : r.IsPublished w := of_decide_eq_true hr
    exact decide_eq_true hp.not_draft
  have hpairs := h.once.sublist (hsub.map _)
  refine List.Nodup.of_map (fun n => (w, some n)) ?_
  rw [List.map_map]
  have hsame : (s.rows.filter fun r => r.IsPublished w).map
      ((fun n : ℤ => (w, some n)) ∘ DefinitionRow.num) =
      (s.rows.filter fun r => r.IsPublished w).map fun r => (r.workflowId, r.version) := by
    refine List.map_congr_left fun r hr => ?_
    obtain ⟨hr, hp⟩ := List.mem_filter.1 hr
    have hp : r.IsPublished w := of_decide_eq_true hp
    obtain ⟨n, v, hholds⟩ := h.rows r hr hp.not_draft
    simp [DefinitionRow.num, hholds.number, hp.1]
  rw [hsame]
  exact hpairs

omit [PyLib] in
theorem mem_visibleItems {w : String} {n : ℤ} {v : WorkflowVersion}
    (hnodup : (m.versionsOf w).keys.Nodup) :
    (n, v) ∈ m.visibleItems w (m.versionsOf w) ↔ m.versionOf w n = some v ∧ n ∉ m.deletedOf w := by
  simp only [MemoryStore.visibleItems, List.mem_filter, decide_eq_true_eq]
  refine and_congr_left fun _ => ⟨fun hin => ?_, fun hget => ?_⟩
  · exact Dict.get?_of_mem hnodup hin
  · exact Dict.mem_of_get? hget

omit [PyLib] in
/-- The visible numbers of a workflow. -/
theorem mem_visibleNumbers {w : String} {n : ℤ} (hnodup : (m.versionsOf w).keys.Nodup) :
    n ∈ (m.visibleItems w (m.versionsOf w)).map Prod.fst ↔ m.Visible w n := by
  constructor
  · intro hn
    obtain ⟨e, he, rfl⟩ := List.mem_map.1 hn
    obtain ⟨hget, hdeleted⟩ := (mem_visibleItems hnodup).1 he
    exact ⟨Option.isSome_of_eq_some hget, hdeleted⟩
  · rintro ⟨hsome, hdeleted⟩
    obtain ⟨v, hv⟩ := Option.isSome_iff_exists.1 hsome
    exact List.mem_map.2 ⟨(n, v), (mem_visibleItems hnodup).2 ⟨hv, hdeleted⟩, rfl⟩

omit [PyLib] in
/-- Sorting by a key sorts the keys. -/
theorem map_mergeSort_pairwise {α κ : Type} [LinearOrder κ] (key : α → κ) (l : List α) :
    ((l.mergeSort fun a b => decide (key a ≤ key b)).map key).Pairwise (· ≤ ·) := by
  have hsorted := @List.pairwise_mergeSort α (fun a b => decide (key a ≤ key b))
    (fun a b c hab hbc => decide_eq_true ((of_decide_eq_true hab).trans (of_decide_eq_true hbc)))
    (fun a b => by
      rcases le_total (key a) (key b) with hle | hle
      · simp [hle]
      · simp [hle]) l
  exact List.pairwise_map.2 (hsorted.imp of_decide_eq_true)

/-- The rows that `list_versions` reads hold the versions that it lists in memory. -/
theorem Mirrors.listVersions_rows (h : Mirrors m s) (w : String) :
    (SQLiteStore.byVersion (s.rows.filter fun r => r.IsPublished w)).map (versionAt m) =
      (m.listVersions w).map some := by
  have hpermRows := (s.rows.filter fun r => r.IsPublished w).mergeSort_perm
    fun a b => decide (a.num ≤ b.num)
  have hpermItems := (m.visibleItems w (m.versionsOf w)).mergeSort_perm
    fun a b => decide (a.1 ≤ b.1)
  -- Both listings are in the order of the same numbers.
  have hnumbers : (SQLiteStore.byVersion (s.rows.filter fun r => r.IsPublished w)).map
      DefinitionRow.num =
      ((m.visibleItems w (m.versionsOf w)).mergeSort fun a b => a.1 ≤ b.1).map Prod.fst := by
    refine List.Perm.eq_of_pairwise (fun a b _ _ => le_antisymm)
      (map_mergeSort_pairwise DefinitionRow.num _) (map_mergeSort_pairwise Prod.fst _) ?_
    refine (hpermRows.map _).trans (List.Perm.trans ?_ (hpermItems.map _).symm)
    have hitems : ((m.visibleItems w (m.versionsOf w)).map Prod.fst).Nodup :=
      (h.numbers w).sublist (List.filter_sublist.map _)
    refine (List.perm_ext_iff_of_nodup (h.num_nodup w) hitems).2 fun n => ?_
    rw [mem_visibleNumbers (h.numbers w), h.visible_iff, List.mem_map]
    constructor
    · rintro ⟨r, hr, rfl⟩
      obtain ⟨hr, hp⟩ := List.mem_filter.1 hr
      have hp : r.IsPublished w := of_decide_eq_true hp
      obtain ⟨k, v, hholds⟩ := h.rows r hr hp.not_draft
      exact ⟨r, hr, hp, by rw [hholds.num_eq, hholds.number]⟩
    · rintro ⟨r, hr, hp, hversion⟩
      exact ⟨r, List.mem_filter.2 ⟨hr, decide_eq_true hp⟩, by rw [DefinitionRow.num, hversion]; rfl⟩
  have hrows : (SQLiteStore.byVersion (s.rows.filter fun r => r.IsPublished w)).map (versionAt m) =
      ((SQLiteStore.byVersion (s.rows.filter fun r => r.IsPublished w)).map
        DefinitionRow.num).map (m.versionOf w) := by
    rw [List.map_map]
    refine List.map_congr_left fun r hr => ?_
    have hp := (List.mem_filter.1 (hpermRows.mem_iff.1 hr)).2
    have hp : r.IsPublished w := of_decide_eq_true hp
    rw [versionAt, hp.1]
    rfl
  have hitems : (m.listVersions w).map some =
      (((m.visibleItems w (m.versionsOf w)).mergeSort fun a b => a.1 ≤ b.1).map Prod.fst).map
        (m.versionOf w) := by
    unfold MemoryStore.listVersions
    rw [List.map_map, List.map_map]
    refine List.map_congr_left fun e he => ?_
    exact ((mem_visibleItems (h.numbers w)).1 (hpermItems.mem_iff.1 he)).1.symm
  rw [hrows, hitems, hnumbers]

/-- Both stores list the same versions of a workflow. -/
theorem Mirrors.listVersions_eq (h : Mirrors m s) (w : String) :
    ∃ read, s.listVersions w = .ok read ∧
      read.map WorkflowVersion.untimed = (m.listVersions w).map WorkflowVersion.untimed := by
  refine h.readVersions_eq (fun r hr => ?_) (h.listVersions_rows w)
  obtain ⟨hr, hp⟩ := List.mem_filter.1 ((List.mergeSort_perm _ _).mem_iff.1 hr)
  exact ⟨hr, (of_decide_eq_true hp : r.IsPublished w).not_draft⟩

/-! ## Published versions -/

/-- The key by which a version with a number is sorted. -/
def keyOf (w : String) (n : ℤ) (v : WorkflowVersion) : PublishedKey :=
  toLex (Value.strOr v.publishedAt "", toLex (w, n))

/-- The key of the version that a row holds. -/
def rowKey (m : MemoryStore) (r : DefinitionRow) : PublishedKey :=
  match versionAt m r with
  | some v => keyOf r.workflowId r.num v
  | none => toLex ("", toLex (r.workflowId, r.num))

/-- The version that a key stands for. -/
def versionOfKey (m : MemoryStore) (k : PublishedKey) : Option WorkflowVersion :=
  m.versionOf (ofLex (ofLex k).2).1 (ofLex (ofLex k).2).2

/-- A version is listed: it is visible, its workflow has a draft, and it is the latest one when only
these are asked for. -/
def Listed (m : MemoryStore) (latestOnly : Bool) (w : String) (n : ℤ) : Prop :=
  m.Visible w n ∧ m.drafts.contains w = true ∧
    (latestOnly = true → ∀ k, m.Visible w k → k ≤ n)

theorem Mirrors.publishedKey_eq (h : Mirrors m s) {w : String} {n : ℤ} {v : WorkflowVersion}
    (hv : m.versionOf w n = some v) : publishedKey v = .ok (keyOf w n v) := by
  obtain ⟨hid, hversion⟩ := h.numbered w n v hv
  unfold publishedKey
  rw [hid, hversion]
  rfl

/-- The versions of one workflow that `list_published` collects. -/
theorem Mirrors.mem_collected (h : Mirrors m s) (latestOnly : Bool) (w : String)
    (v : WorkflowVersion) :
    v ∈ m.collected w latestOnly (m.versionsOf w) ↔
      ∃ n, m.versionOf w n = some v ∧ Listed m latestOnly w n := by
  have hnodup := h.numbers w
  have hvisible {n : ℤ} {v : WorkflowVersion} :
      (n, v) ∈ m.visibleItems w (m.versionsOf w) ↔ m.versionOf w n = some v ∧ m.Visible w n := by
    rw [mem_visibleItems hnodup]
    refine and_congr_right fun hget => ⟨fun hdeleted => ?_, fun hv => hv.2⟩
    exact ⟨Option.isSome_of_eq_some hget, hdeleted⟩
  unfold MemoryStore.collected
  dsimp only
  by_cases hdraft : m.drafts.contains w = true
  · rw [if_neg (not_not.2 hdraft)]
    cases latestOnly with
    | false =>
      rw [if_neg Bool.false_ne_true, List.mem_map]
      constructor
      · rintro ⟨e, he, rfl⟩
        obtain ⟨hget, hv⟩ := hvisible.1 he
        exact ⟨e.1, hget, hv, hdraft, fun hl => absurd hl Bool.false_ne_true⟩
      · rintro ⟨n, hget, hv, -, -⟩
        exact ⟨(n, v), hvisible.2 ⟨hget, hv⟩, rfl⟩
    | true =>
      rw [if_pos rfl]
      by_cases hempty : m.visibleItems w (m.versionsOf w) = []
      · rw [if_pos hempty]
        refine ⟨fun hin => absurd hin List.not_mem_nil, ?_⟩
        rintro ⟨n, hget, hv, -, -⟩
        have hin := hvisible.2 ⟨hget, hv⟩
        rw [hempty] at hin
        cases hin
      · rw [if_neg hempty, Option.mem_toList]
        have hmax := maxOr_mem (l := (m.visibleItems w (m.versionsOf w)).map Prod.fst)
          (by simpa using hempty)
        have hmaxVisible := (mem_visibleNumbers hnodup).1 hmax
        have hle (k : ℤ) (hk : m.Visible w k) :
            k ≤ maxOr ((m.visibleItems w (m.versionsOf w)).map Prod.fst) :=
          le_maxOr ((mem_visibleNumbers hnodup).2 hk)
        constructor
        · intro hget
          exact ⟨_, hget, hmaxVisible, hdraft, fun _ => hle⟩
        · rintro ⟨n, hget, hv, -, hlatest⟩
          have heq : n = maxOr ((m.visibleItems w (m.versionsOf w)).map Prod.fst) :=
            le_antisymm (hle n hv) (hlatest rfl _ hmaxVisible)
          rw [← heq]
          exact hget
  · rw [if_pos hdraft]
    refine ⟨fun hin => absurd hin List.not_mem_nil, ?_⟩
    rintro ⟨n, -, -, hin, -⟩
    exact absurd hin hdraft

omit [PyLib] in
theorem versionsOf_of_mem (hids : m.versions.keys.Nodup) {e : String × Dict ℤ WorkflowVersion}
    (he : e ∈ m.versions.entries) : m.versionsOf e.1 = e.2 := by
  have hget : m.versions.get? e.1 = some e.2 := Dict.get?_of_mem hids he
  rw [MemoryStore.versionsOf, hget]
  rfl

/-- `list_published` collects the versions that are listed. -/
theorem Mirrors.mem_published (h : Mirrors m s) (latestOnly : Bool) (v : WorkflowVersion) :
    v ∈ m.published latestOnly ↔
      ∃ w n, m.versionOf w n = some v ∧ Listed m latestOnly w n := by
  unfold MemoryStore.published
  rw [List.mem_flatMap]
  constructor
  · rintro ⟨e, he, hv⟩
    rw [← versionsOf_of_mem h.workflowIds he] at hv
    exact ⟨e.1, (h.mem_collected latestOnly e.1 v).1 hv⟩
  · rintro ⟨w, n, hget, hlisted⟩
    cases hw : m.versions.get? w with
    | none =>
      rw [MemoryStore.versionOf, MemoryStore.versionsOf, hw] at hget
      cases hget
    | some items =>
      have he := Dict.mem_of_get? hw
      refine ⟨(w, items), he, ?_⟩
      have hof : m.versionsOf w = items := versionsOf_of_mem h.workflowIds he
      have hin := (h.mem_collected latestOnly w v).2 ⟨n, hget, hlisted⟩
      rw [hof] at hin
      exact hin

theorem Mirrors.collected_nodup (h : Mirrors m s) (latestOnly : Bool) (w : String) :
    ((m.collected w latestOnly (m.versionsOf w)).map fun v => (v.workflowId, v.version)).Nodup := by
  unfold MemoryStore.collected
  dsimp only
  split_ifs
  · exact List.nodup_nil
  · cases (m.versionsOf w).get? (maxOr ((m.visibleItems w (m.versionsOf w)).map Prod.fst)) with
    | none => exact List.nodup_nil
    | some v => exact List.nodup_singleton _
  · have hids : ((m.visibleItems w (m.versionsOf w)).map Prod.snd).map
        (fun v => (v.workflowId, v.version)) =
        ((m.visibleItems w (m.versionsOf w)).map Prod.fst).map fun n => (w, Value.int n) := by
      rw [List.map_map, List.map_map]
      refine List.map_congr_left fun e he => ?_
      have hget := ((mem_visibleItems (h.numbers w)).1 he).1
      exact Prod.ext_iff.2 (h.numbered w e.1 e.2 hget)
    have hnumbers : ((m.visibleItems w (m.versionsOf w)).map Prod.fst).Nodup :=
      (h.numbers w).sublist (List.filter_sublist.map _)
    rw [hids]
    refine hnumbers.map fun n k heq => ?_
    exact Value.int.inj (Prod.ext_iff.1 heq).2
  · exact List.nodup_nil

/-- No version is collected twice. -/
theorem Mirrors.published_nodup (h : Mirrors m s) (latestOnly : Bool) :
    ((m.published latestOnly).map fun v => (v.workflowId, v.version)).Nodup := by
  have hid {e : String × Dict ℤ WorkflowVersion} (he : e ∈ m.versions.entries)
      {v : WorkflowVersion} (hv : v ∈ m.collected e.1 latestOnly e.2) : v.workflowId = e.1 := by
    rw [← versionsOf_of_mem h.workflowIds he] at hv
    obtain ⟨n, hget, -⟩ := (h.mem_collected latestOnly e.1 v).1 hv
    exact (h.numbered e.1 n v hget).1
  unfold MemoryStore.published
  rw [List.map_flatMap, List.nodup_flatMap]
  constructor
  · intro e he
    have hnodup := h.collected_nodup latestOnly e.1
    rw [versionsOf_of_mem h.workflowIds he] at hnodup
    exact hnodup
  · have hkeys := List.pairwise_map.1 h.workflowIds
    refine hkeys.imp_of_mem fun {e e'} he he' hne => ?_
    intro pair hpair hpair'
    obtain ⟨v, hv, rfl⟩ := List.mem_map.1 hpair
    obtain ⟨v', hv', heq⟩ := List.mem_map.1 hpair'
    have hsame : v'.workflowId = v.workflowId := (Prod.ext_iff.1 heq).1
    rw [hid he hv, hid he' hv'] at hsame
    exact hne hsame.symm

/-- The rows that the table lists hold the versions that are listed in memory. -/
theorem Mirrors.mem_publishedRows (h : Mirrors m s) (latestOnly : Bool) (r : DefinitionRow) :
    r ∈ s.published latestOnly ↔
      r ∈ s.rows ∧ r.kind = .published ∧ Listed m latestOnly r.workflowId r.num := by
  unfold SQLiteStore.published
  rw [List.mem_filter, decide_eq_true_iff]
  refine and_congr_right fun hr => and_congr_right fun hk => ?_
  obtain ⟨n, v, hholds⟩ := h.rows r hr (by rw [hk]; decide)
  have hvisible : m.Visible r.workflowId r.num := by
    rw [hholds.num_eq]
    exact hholds.visible hk
  have hlatest : s.IsLatest r ↔ ∀ k, m.Visible r.workflowId k → k ≤ r.num := by
    constructor
    · intro hl k hv
      obtain ⟨q, hq, hp, hversion⟩ := h.visible _ _ hv
      have hle := hl q hq hp
      rw [hversion] at hle
      exact hle
    · intro hl q hq hp
      obtain ⟨k, v', hholds'⟩ := h.rows q hq hp.not_draft
      have hv := hholds'.visible hp.2
      rw [hp.1, ← hholds'.num_eq] at hv
      exact hl _ hv
  rw [h.hasDraft_iff, hlatest]
  exact ⟨fun hd => ⟨hvisible, hd.1, hd.2⟩, fun hd => ⟨hd.2.1, hd.2.2⟩⟩

/-- The versions that the table lists were stamped in the order in which they were published. -/
def Stamped (m : MemoryStore) (s : SQLiteStore) (latestOnly : Bool) : Prop :=
  ((s.published latestOnly).map (rowKey m)).Pairwise (· < ·)

omit [PyLib] in
/-- Sorting by a key in reverse sorts the keys in reverse. -/
theorem map_mergeSort_pairwise_reverse {α κ : Type} [LinearOrder κ] (key : α → κ) (l : List α) :
    ((l.mergeSort fun a b => decide (key b ≤ key a)).map key).Pairwise (· ≥ ·) :=
  map_mergeSort_pairwise (fun a => OrderDual.toDual (key a)) l

theorem versionOfKey_rowKey (r : DefinitionRow) : versionOfKey m (rowKey m r) = versionAt m r := by
  unfold rowKey
  split
  · rfl
  · rfl

theorem Mirrors.versionAt_published (h : Mirrors m s) {latestOnly : Bool} {r : DefinitionRow}
    (hr : r ∈ s.published latestOnly) :
    Listed m latestOnly r.workflowId r.num ∧
      ∃ v, versionAt m r = some v ∧ rowKey m r = keyOf r.workflowId r.num v := by
  obtain ⟨-, -, hlisted⟩ := (h.mem_publishedRows latestOnly r).1 hr
  obtain ⟨v, hv⟩ := Option.isSome_iff_exists.1 hlisted.1.1
  refine ⟨hlisted, v, hv, ?_⟩
  have hat : versionAt m r = some v := hv
  unfold rowKey
  rw [hat]

/-- Each collected version has the key of its number. -/
theorem Mirrors.keyed_published (h : Mirrors m s) (latestOnly : Bool) :
    ∃ keyed, ((m.published latestOnly).mapM fun item => do
      return (← publishedKey item, item)) = .ok keyed ∧
      keyed.map Prod.snd = m.published latestOnly ∧
      ∀ e ∈ keyed, versionOfKey m e.1 = some e.2 ∧
        e.1 = keyOf (ofLex (ofLex e.1).2).1 (ofLex (ofLex e.1).2).2 e.2 := by
  have hall := fun v hv => (h.mem_published latestOnly v).1 hv
  generalize m.published latestOnly = items at hall
  induction items with
  | nil => exact ⟨[], rfl, rfl, fun e he => absurd he List.not_mem_nil⟩
  | cons v rest ih =>
    obtain ⟨keyed, hrest, hsnd, hkeys⟩ := ih fun q hq => hall q (List.mem_cons_of_mem _ hq)
    obtain ⟨w, n, hget, -⟩ := hall v List.mem_cons_self
    refine ⟨(keyOf w n v, v) :: keyed, ?_, by rw [List.map_cons, hsnd], ?_⟩
    · rw [List.mapM_cons, hrest, h.publishedKey_eq hget]
      rfl
    · intro e he
      rcases List.mem_cons.1 he with rfl | he
      · exact ⟨hget, rfl⟩
      · exact hkeys e he

/-- `list_published` sorts what it collects by the keys of its versions. -/
theorem Mirrors.listPublished_eq (h : Mirrors m s) {latestOnly : Bool}
    (hstamped : Stamped m s latestOnly) (limit : ℤ) :
    ∃ versions : List WorkflowVersion,
      m.listPublished latestOnly limit = .ok (versions.take limit.toNat) ∧
      (s.published latestOnly).reverse.map (versionAt m) = versions.map some := by
  obtain ⟨keyed, hmapM, hsnd, hkeys⟩ := h.keyed_published latestOnly
  have hperm := keyed.mergeSort_perm fun a b => decide (b.1 ≤ a.1)
  have hnodup : (keyed.map Prod.fst).Nodup := by
    refine List.Nodup.of_map (fun k : PublishedKey =>
      ((ofLex (ofLex k).2).1, Value.int (ofLex (ofLex k).2).2)) ?_
    have hids : (keyed.map Prod.fst).map (fun k : PublishedKey =>
        ((ofLex (ofLex k).2).1, Value.int (ofLex (ofLex k).2).2)) =
        (m.published latestOnly).map fun v => (v.workflowId, v.version) := by
      rw [← hsnd, List.map_map, List.map_map]
      refine List.map_congr_left fun e he => ?_
      exact (Prod.ext_iff.2 (h.numbered _ _ _ (hkeys e he).1)).symm
    rw [hids]
    exact h.published_nodup latestOnly
  have hmem (k : PublishedKey) : k ∈ keyed.map Prod.fst ↔
      ∃ w n v, m.versionOf w n = some v ∧ Listed m latestOnly w n ∧ k = keyOf w n v := by
    constructor
    · intro hk
      obtain ⟨e, he, rfl⟩ := List.mem_map.1 hk
      have hin : e.2 ∈ m.published latestOnly := by
        rw [← hsnd]
        exact List.mem_map_of_mem he
      obtain ⟨w, n, hget, hlisted⟩ := (h.mem_published latestOnly e.2).1 hin
      obtain ⟨hkey, heq⟩ := hkeys e he
      obtain ⟨hw, hn⟩ := h.numbered w n e.2 hget
      obtain ⟨hw', hn'⟩ := h.numbered _ _ e.2 hkey
      refine ⟨w, n, e.2, hget, hlisted, heq.trans ?_⟩
      rw [← hw'.symm.trans hw, Value.int.inj (hn'.symm.trans hn)]
    · rintro ⟨w, n, v, hget, hlisted, rfl⟩
      have hin := (h.mem_published latestOnly v).2 ⟨w, n, hget, hlisted⟩
      rw [← hsnd] at hin
      obtain ⟨e, he, rfl⟩ := List.mem_map.1 hin
      obtain ⟨hkey, heq⟩ := hkeys e he
      obtain ⟨hw, hn⟩ := h.numbered w n e.2 hget
      obtain ⟨hw', hn'⟩ := h.numbered _ _ e.2 hkey
      refine List.mem_map.2 ⟨e, he, heq.trans ?_⟩
      rw [← hw'.symm.trans hw, Value.int.inj (hn'.symm.trans hn)]
  have hrows (k : PublishedKey) : k ∈ (s.published latestOnly).map (rowKey m) ↔
      ∃ w n v, m.versionOf w n = some v ∧ Listed m latestOnly w n ∧ k = keyOf w n v := by
    constructor
    · intro hk
      obtain ⟨r, hr, rfl⟩ := List.mem_map.1 hk
      obtain ⟨hlisted, v, hv, heq⟩ := h.versionAt_published hr
      exact ⟨r.workflowId, r.num, v, hv, hlisted, heq⟩
    · rintro ⟨w, n, v, hget, hlisted, rfl⟩
      obtain ⟨r, hr, hp, hversion⟩ := h.visible w n hlisted.1
      have hnum : r.num = n := by
        rw [DefinitionRow.num, hversion]
        rfl
      rw [← hp.1, ← hnum] at hlisted hget ⊢
      have hin := (h.mem_publishedRows latestOnly r).2 ⟨hr, hp.2, hlisted⟩
      obtain ⟨-, v', hv', heq⟩ := h.versionAt_published hin
      obtain rfl : v' = v := Option.some.inj (hv'.symm.trans hget)
      exact List.mem_map.2 ⟨r, hin, heq⟩
  -- Both orders are the same order of the same keys.
  have hkeysEq : (s.published latestOnly).reverse.map (rowKey m) =
      (keyed.mergeSort fun a b => b.1 ≤ a.1).map Prod.fst := by
    have hdescending : ((s.published latestOnly).reverse.map (rowKey m)).Pairwise (· ≥ ·) := by
      rw [List.map_reverse, List.pairwise_reverse]
      exact hstamped.imp le_of_lt
    refine List.Perm.eq_of_pairwise (fun a b _ _ hab hba => le_antisymm hba hab) hdescending
      (map_mergeSort_pairwise_reverse Prod.fst keyed) ?_
    rw [List.map_reverse]
    refine (List.reverse_perm _).trans (List.Perm.trans ?_ (hperm.map _).symm)
    refine (List.perm_ext_iff_of_nodup (hstamped.imp ne_of_lt) hnodup).2 fun k => ?_
    rw [hrows, hmem]
  refine ⟨(keyed.mergeSort fun a b => b.1 ≤ a.1).map Prod.snd, ?_, ?_⟩
  · unfold MemoryStore.listPublished
    rw [hmapM]
    rfl
  · calc (s.published latestOnly).reverse.map (versionAt m)
        = ((s.published latestOnly).reverse.map (rowKey m)).map (versionOfKey m) := by
          rw [List.map_map]
          exact List.map_congr_left fun r _ => (versionOfKey_rowKey r).symm
      _ = ((keyed.mergeSort fun a b => b.1 ≤ a.1).map Prod.fst).map (versionOfKey m) := by
          rw [hkeysEq]
      _ = ((keyed.mergeSort fun a b => b.1 ≤ a.1).map Prod.snd).map some := by
          rw [List.map_map, List.map_map]
          refine List.map_congr_left fun e he => ?_
          exact (hkeys e (hperm.mem_iff.1 he)).1

/-! ## Drafts -/

/-- The payloads of the rows of drafts are the dictionaries of the drafts, in their order. -/
theorem Mirrors.draftRows (h : Mirrors m s) :
    (s.rows.filter fun r => r.kind = .draft).map (·.payload) =
      m.drafts.values.map WorkflowDraft.toDict := by
  have hpayloads : (s.rows.filter fun r => r.kind = .draft).map (·.payload) =
      (s.rows.filterMap draftEntry).map Prod.snd := by
    induction s.rows with
    | nil => rfl
    | cons r rest ih =>
      by_cases hk : r.kind = .draft
      · simp [draftEntry, hk] at ih ⊢
        exact ih
      · simpa [draftEntry, hk] using ih
  rw [hpayloads, h.drafts, List.map_map, Dict.values, List.map_map]
  rfl

/-- A listing of at most one draft has one order only. -/
theorem Mirrors.list_eq (h : Mirrors m s) {limit : ℤ} (hbound : limit < 2 ^ 63)
    (hone : limit ≤ 0 ∨ (m.drafts.entries.length ≤ 1 ∧ ∀ d ∈ m.drafts.values, d.Plain)) :
    s.list limit = .ok (m.list limit) := by
  have hlimit : sqlInt (max 0 limit) = .ok (max 0 limit) := by
    refine if_pos ⟨?_, ?_⟩ <;> omega
  have hnat : (max 0 limit).toNat = limit.toNat := by omega
  have hread : s.list limit =
      ((s.rows.filter fun r => r.kind = .draft).reverse.take limit.toNat).mapM
        fun r => WorkflowDraft.fromDict r.payload := by
    unfold SQLiteStore.list
    rw [hlimit]
    show (List.take (max 0 limit).toNat _).mapM _ = _
    rw [hnat]
  rw [hread]
  unfold MemoryStore.list
  rcases hone with hnone | ⟨hlength, hplain⟩
  · have hzero : limit.toNat = 0 := by omega
    rw [hzero]
    rfl
  · have hpayloads := h.draftRows
    have hvalues : m.drafts.values.length ≤ 1 := by
      rw [Dict.values, List.length_map]
      exact hlength
    generalize m.drafts.values = values at hpayloads hvalues hplain
    generalize s.rows.filter (fun r => r.kind = .draft) = rows at hpayloads
    cases rows with
    | nil =>
      obtain rfl : values = [] := by simpa using hpayloads.symm
      simp
      rfl
    | cons r rest =>
      cases values with
      | nil => cases hpayloads
      | cons d values =>
        obtain rfl : values = [] := by
          rw [List.length_cons] at hvalues
          exact List.eq_nil_of_length_eq_zero (by omega)
        obtain ⟨hd, hrest⟩ := List.cons.inj hpayloads
        obtain rfl : rest = [] := by simpa using hrest
        have hback : WorkflowDraft.fromDict r.payload = .ok d := by
          rw [show r.payload = d.toDict from hd]
          exact d.fromDict_toDict_iff.2 (hplain d List.mem_cons_self)
        cases limit.toNat with
        | zero => rfl
        | succ k =>
          rw [List.reverse_singleton, List.take_succ_cons, List.take_succ_cons, List.take_nil,
            List.take_nil, List.mapM_cons, hback]
          rfl

/-! ## Calls -/

/-- An answer, publication times aside. -/
def StoreAnswer.untimed : StoreAnswer → StoreAnswer
  | .version v => .version v.untimed
  | .versions vs => .versions (vs.map WorkflowVersion.untimed)
  | a => a

/-- The class of an exception of the stores. -/
def className : PyError → String
  | .valueError _ => "ValueError"
  | .keyError _ => "KeyError"
  | .typeError _ => "TypeError"
  | .overflowError _ => "OverflowError"
  | _ => "Exception"

/-- What a call asks of both stores to keep them related and to be answered alike. -/
def Lockstep (p : StorePair) : StoreCall → Prop
  | .get w version => version.isDraft = true → ∀ d ∈ p.memory.drafts.get? w, d.Plain
  | .list limit => limit < 2 ^ 63 ∧ (limit ≤ 0 ∨
      (p.memory.drafts.entries.length ≤ 1 ∧ ∀ d ∈ p.memory.drafts.values, d.Plain))
  | .publish w _ _ => ∀ d ∈ p.memory.drafts.get? w, d.Plain ∧ d.canvasEdges.isNone = true ∧
      HighestKept p.memory p.sqlite w ∧ maxOr (p.memory.versionsOf w).keys + 1 < 2 ^ 63
  | .isReferenced w version => ∀ n ∈ version.toInt.toOption, p.memory.Visible w n
  | .markReferenced w version => ∀ n ∈ version.toInt.toOption, p.memory.Visible w n
  | .referencedVersions w => ∀ key ∈ p.memory.references, key.1 = w → p.memory.Visible w key.2
  | .listPublished latestOnly limit =>
    limit < 2 ^ 63 ∧ (limit ≤ 0 ∨ Stamped p.memory p.sqlite latestOnly)
  | _ => True

instance (p : StorePair) : DecidablePred (Lockstep p)
  | .create _ => inferInstanceAs (Decidable True)
  | .save _ => inferInstanceAs (Decidable True)
  | .get w version => inferInstanceAs
      (Decidable (version.isDraft = true → ∀ d ∈ p.memory.drafts.get? w, d.Plain))
  | .list limit => inferInstanceAs (Decidable (limit < 2 ^ 63 ∧ (limit ≤ 0 ∨
      (p.memory.drafts.entries.length ≤ 1 ∧ ∀ d ∈ p.memory.drafts.values, d.Plain))))
  | .delete _ _ => inferInstanceAs (Decidable True)
  | .deletePreservingReferences _ => inferInstanceAs (Decidable True)
  | .publish w _ _ => inferInstanceAs (Decidable (∀ d ∈ p.memory.drafts.get? w, d.Plain ∧
      d.canvasEdges.isNone = true ∧ HighestKept p.memory p.sqlite w ∧
      maxOr (p.memory.versionsOf w).keys + 1 < 2 ^ 63))
  | .listVersions _ => inferInstanceAs (Decidable True)
  | .isReferenced w version => inferInstanceAs
      (Decidable (∀ n ∈ version.toInt.toOption, p.memory.Visible w n))
  | .referencedVersions w => inferInstanceAs
      (Decidable (∀ key ∈ p.memory.references, key.1 = w → p.memory.Visible w key.2))
  | .listPublished latestOnly limit => inferInstanceAs (Decidable (limit < 2 ^ 63 ∧
      (limit ≤ 0 ∨ ((p.sqlite.published latestOnly).map (rowKey p.memory)).Pairwise (· < ·))))
  | .markReferenced w version => inferInstanceAs
      (Decidable (∀ n ∈ version.toInt.toOption, p.memory.Visible w n))

/-- What a call asks so that both stores raise exceptions of the same class, if they raise. -/
def SameClass (p : StorePair) : StoreCall → Prop
  | .get _ version => version.isDraft = true ∨ ∃ n ∈ version.toInt.toOption, sqlInt n = .ok n
  | .delete w version =>
    if version.isDraft then
      p.memory.drafts.contains w = true ∨ ∀ key ∈ p.memory.references, key.1 ≠ w
    else ∀ n ∈ version.toInt.toOption, sqlInt n = .ok n
  | _ => True

/-- Both stores answer alike and stay related, or both raise. -/
def Answered (alike : Prop) (x : Except PyError (StoreAnswer × MemoryStore))
    (y : Except PyError (StoreAnswer × SQLiteStore)) : Prop :=
  (∃ a b m' s', x = .ok (a, m') ∧ y = .ok (b, s') ∧ a.untimed = b.untimed ∧ Mirrors m' s') ∨
    ∃ e e', x = .error e ∧ y = .error e' ∧ (alike → className e = className e')

omit [PyLib] in
/-- A visible version is returned. -/
theorem getVersion_of_visible [PyLib] {w : String} {version : VersionRef} {n : ℤ}
    (hn : version.toInt = .ok n) (hv : m.Visible w n) :
    ∃ v, m.versionOf w n = some v ∧ m.getVersion w version = .ok v := by
  obtain ⟨v, hget⟩ := Option.isSome_iff_exists.1 hv.1
  refine ⟨v, hget, ?_⟩
  unfold MemoryStore.getVersion
  cases hw : m.versions.get? w with
  | none =>
    rw [MemoryStore.versionOf, MemoryStore.versionsOf, hw] at hget
    cases hget
  | some items =>
    rw [MemoryStore.versionOf, MemoryStore.versionsOf, hw] at hget
    rw [hn]
    dsimp only
    rw [show items.get? n = some v from hget]
    exact if_neg hv.2

omit [PyLib] in

/-- Every other one is not found. -/
theorem getVersion_of_not_visible [PyLib] {w : String} {version : VersionRef}
    (hn : ∀ n, version.toInt = .ok n → ¬ m.Visible w n) :
    m.getVersion w version = .error (versionNotFound w version) := by
  unfold MemoryStore.getVersion
  cases hw : m.versions.get? w with
  | none => rfl
  | some items =>
    cases hint : version.toInt with
    | error e => rfl
    | ok n =>
      have hnot := hn n hint
      dsimp only
      cases hget : items.get? n with
      | none => rfl
      | some v =>
        refine if_pos ?_
        by_contra hdeleted
        refine hnot ⟨?_, hdeleted⟩
        rw [MemoryStore.versionOf, MemoryStore.versionsOf, hw]
        exact Option.isSome_of_eq_some hget

theorem sqlite_getVersion {w : String} {version : VersionRef} {n : ℤ} (hint : version.toInt = .ok n)
    (hfits : sqlInt n = .ok n) :
    s.getVersion w version = match s.publishedRow w n with
      | none => .error (versionNotFound w version)
      | some row => WorkflowVersion.fromDict row.payload := by
  unfold SQLiteStore.getVersion
  rw [hint]
  show (sqlInt n >>= _) = _
  rw [hfits]
  rfl

theorem memory_deleteVersion {w : String} {version : VersionRef} {n : ℤ}
    (hint : version.toInt = .ok n) :
    m.deleteVersion w version = if m.Visible w n then
        .ok { m with deletedVersions :=
          m.deletedVersions.set w (insert n (m.deletedOf w)) }
      else .error (versionNotFound w version) := by
  have hcontains : (m.versionsOf w).contains n = (m.versionOf w n).isSome := rfl
  unfold MemoryStore.deleteVersion
  rw [hint]
  simp only [bind, Except.bind, hcontains, MemoryStore.Visible]
  by_cases hsome : (m.versionOf w n).isSome = true
  · by_cases hdeleted : n ∈ m.deletedOf w
    · simp [hsome, hdeleted, throw, throwThe, MonadExceptOf.throw]
    · simp [hsome, hdeleted, pure, Except.pure]
  · simp [hsome, throw, throwThe, MonadExceptOf.throw]

theorem sqlite_deleteVersion {w : String} {version : VersionRef} {n : ℤ}
    (hint : version.toInt = .ok n) (hfits : sqlInt n = .ok n) :
    s.deleteVersion w version = if ∃ r ∈ s.rows, r.IsPublished w ∧ r.version = some n then
        .ok (s.update (fun r => r.IsPublished w ∧ r.version = some n)
          fun r => { r with kind := .deleted })
      else .error (workflowNotFound w) := by
  unfold SQLiteStore.deleteVersion
  rw [hint]
  show (sqlInt n >>= _) = _
  rw [hfits]
  rfl

section Answers

variable (h : Mirrors m s)
include h

theorem answered_create (draft : WorkflowDraft) {alike : Prop} :
    Answered alike (m.call (.create draft)) (s.call (.create draft)) := by
  have hhas := h.hasDraft_iff draft.id
  simp only [MemoryStore.call, SQLiteStore.call, MemoryStore.create, SQLiteStore.create]
  by_cases hold : m.drafts.contains draft.id = true
  · rw [if_pos hold, if_pos (hhas.2 hold)]
    exact .inr ⟨_, _, rfl, rfl, fun _ => rfl⟩
  · rw [if_neg hold, if_neg fun hd => hold (hhas.1 hd)]
    exact .inl ⟨_, _, _, _, rfl, rfl, rfl, h.create draft (by simpa using hold)⟩

theorem answered_save (draft : WorkflowDraft) {alike : Prop} :
    Answered alike (m.call (.save draft)) (s.call (.save draft)) := by
  have hhas := h.hasDraft_iff draft.id
  simp only [MemoryStore.call, SQLiteStore.call, MemoryStore.save, SQLiteStore.save]
  by_cases hold : m.drafts.contains draft.id = true
  · rw [if_pos hold, if_pos (hhas.2 hold)]
    exact .inl ⟨_, _, _, _, rfl, rfl, rfl, h.save draft hold⟩
  · rw [if_neg hold, if_neg fun hd => hold (hhas.1 hd)]
    exact .inr ⟨_, _, rfl, rfl, fun _ => rfl⟩

theorem answered_list {limit : ℤ} (hc : Lockstep ⟨m, s⟩ (.list limit)) {alike : Prop} :
    Answered alike (m.call (.list limit)) (s.call (.list limit)) := by
  simp only [MemoryStore.call, SQLiteStore.call]
  rw [h.list_eq hc.1 hc.2]
  exact .inl ⟨_, _, _, _, rfl, rfl, rfl, h⟩

theorem answered_listVersions (w : String) {alike : Prop} :
    Answered alike (m.call (.listVersions w)) (s.call (.listVersions w)) := by
  obtain ⟨read, hread, hsame⟩ := h.listVersions_eq w
  simp only [MemoryStore.call, SQLiteStore.call]
  rw [hread]
  exact .inl ⟨_, _, _, _, rfl, rfl, congrArg StoreAnswer.versions hsame.symm, h⟩

theorem answered_listPublished {latestOnly : Bool} {limit : ℤ}
    (hc : Lockstep ⟨m, s⟩ (.listPublished latestOnly limit)) {alike : Prop} :
    Answered alike (m.call (.listPublished latestOnly limit))
      (s.call (.listPublished latestOnly limit)) := by
  obtain ⟨hbound, hone⟩ := hc
  have hlimit : sqlInt (max 0 limit) = .ok (max 0 limit) := by
    refine if_pos ⟨?_, ?_⟩ <;> omega
  have hnat : (max 0 limit).toNat = limit.toNat := by omega
  have hread : s.listPublished latestOnly limit =
      SQLiteStore.readVersions ((s.published latestOnly).reverse.take limit.toNat) := by
    unfold SQLiteStore.listPublished
    rw [hlimit]
    show SQLiteStore.readVersions (List.take (max 0 limit).toNat _) = _
    rw [hnat]
  simp only [MemoryStore.call, SQLiteStore.call]
  rw [hread]
  rcases hone with hnone | hstamped
  · have hzero : limit.toNat = 0 := by omega
    obtain ⟨keyed, hmapM, -⟩ := h.keyed_published latestOnly
    have hmemory : m.listPublished latestOnly limit = .ok [] := by
      unfold MemoryStore.listPublished
      rw [hmapM, hzero]
      rfl
    rw [hmemory, hzero]
    exact .inl ⟨_, _, _, _, rfl, rfl, rfl, h⟩
  · obtain ⟨versions, hmemory, hrows⟩ := h.listPublished_eq hstamped limit
    have htaken : ((s.published latestOnly).reverse.take limit.toNat).map (versionAt m) =
        (versions.take limit.toNat).map some := by
      rw [List.map_take, List.map_take, hrows]
    obtain ⟨read, hok, hsame⟩ := h.readVersions_eq (fun r hr => by
      have hin := List.mem_reverse.1 (List.mem_of_mem_take hr)
      obtain ⟨hr, hk, -⟩ := (h.mem_publishedRows latestOnly r).1 hin
      exact ⟨hr, by rw [hk]; decide⟩) htaken
    rw [hmemory, hok]
    exact .inl ⟨_, _, _, _, rfl, rfl, congrArg StoreAnswer.versions hsame.symm, h⟩

theorem answered_get {w : String} {version : VersionRef} (hc : Lockstep ⟨m, s⟩ (.get w version)) :
    Answered (SameClass ⟨m, s⟩ (.get w version)) (m.call (.get w version))
      (s.call (.get w version)) := by
  simp only [MemoryStore.call, SQLiteStore.call]
  by_cases hdraft : version.isDraft = true
  · rw [if_pos hdraft, if_pos hdraft, h.getDraft_eq]
    unfold MemoryStore.getDraft
    cases hget : m.drafts.get? w with
    | none => exact .inr ⟨_, _, rfl, rfl, fun _ => rfl⟩
    | some d =>
      have hplain : d.stripped = d := d.stripped_eq_iff.2 (hc hdraft d hget)
      refine .inl ⟨_, _, _, _, rfl, rfl, ?_, h⟩
      rw [hplain]
  · rw [if_neg hdraft, if_neg hdraft]
    cases hint : version.toInt with
    | error e =>
      have hmemory : m.getVersion w version = .error (versionNotFound w version) :=
        getVersion_of_not_visible fun n hn => by rw [hint] at hn; cases hn
      have hsqlite : s.getVersion w version = .error e := by
        unfold SQLiteStore.getVersion
        rw [hint]
        rfl
      rw [hmemory, hsqlite]
      refine .inr ⟨_, _, rfl, rfl, ?_⟩
      rintro (hd | ⟨n, hn, -⟩)
      · exact absurd hd hdraft
      · rw [hint] at hn
        cases hn
    | ok n =>
      rcases h.publishedRow_spec w n with ⟨hv, r, v, hrow, hw, hholds⟩ | ⟨hv, hrow⟩
      · obtain ⟨v₀, hget, hmemory⟩ := getVersion_of_visible hint hv
        have hstored := hholds.stored
        rw [hw] at hstored
        obtain rfl : v₀ = v := Option.some.inj (hget.symm.trans hstored)
        obtain ⟨v', hread, hsame⟩ := hholds.payload
        have hsqlite : s.getVersion w version = .ok v' := by
          rw [sqlite_getVersion hint hholds.fits, hrow]
          exact hread
        rw [hmemory, hsqlite]
        exact .inl ⟨_, _, _, _, rfl, rfl, congrArg StoreAnswer.version hsame.symm, h⟩
      · have hmemory : m.getVersion w version = .error (versionNotFound w version) := by
          refine getVersion_of_not_visible fun k hk => ?_
          obtain rfl : n = k := Except.ok.inj (hint.symm.trans hk)
          exact hv
        rw [hmemory]
        cases hfits : sqlInt n with
        | error e =>
          have hsqlite : s.getVersion w version = .error e := by
            unfold SQLiteStore.getVersion
            rw [hint]
            show (sqlInt n >>= _) = _
            rw [hfits]
            rfl
          rw [hsqlite]
          refine .inr ⟨_, _, rfl, rfl, ?_⟩
          rintro (hd | ⟨k, hk, hok⟩)
          · exact absurd hd hdraft
          · rw [hint] at hk
            obtain rfl : n = k := Option.some.inj hk
            rw [hfits] at hok
            cases hok
        | ok k =>
          obtain rfl : n = k := sqlInt_eq hfits
          rw [sqlite_getVersion hint hfits, hrow]
          exact .inr ⟨_, _, rfl, rfl, fun _ => rfl⟩

theorem answered_deletePreservingReferences (w : String) {alike : Prop} :
    Answered alike (m.call (.deletePreservingReferences w))
      (s.call (.deletePreservingReferences w)) := by
  simp only [MemoryStore.call, SQLiteStore.call]
  by_cases hdraft : m.drafts.contains w = true
  · obtain ⟨m', s', hmemory, hsqlite, hafter⟩ := h.deletePreservingReferences hdraft
    rw [hmemory, hsqlite]
    exact .inl ⟨_, _, _, _, rfl, rfl, rfl, hafter⟩
  · have hhas : ¬ s.HasDraft w := fun hd => hdraft ((h.hasDraft_iff w).1 hd)
    unfold MemoryStore.deletePreservingReferences SQLiteStore.deletePreservingReferences
    rw [if_pos hdraft, if_pos hhas]
    exact .inr ⟨_, _, rfl, rfl, fun _ => rfl⟩

/-- A workflow has references in both stores or in none. -/
theorem referenced_iff (w : String) :
    (∃ r ∈ s.rows, r.IsVersion w ∧ r.referenced) ↔ ∃ key ∈ m.references, key.1 = w := by
  constructor
  · rintro ⟨r, hr, hv, href⟩
    obtain ⟨n, v, hholds⟩ := h.rows r hr hv.not_draft
    exact ⟨_, hholds.referenced.1 href, hv.1⟩
  · rintro ⟨⟨_, n⟩, hkey, rfl⟩
    obtain ⟨r, hr, hv, hversion⟩ := h.reference _ n hkey
    obtain ⟨k, v, hholds⟩ := h.rows r hr hv.not_draft
    obtain rfl : k = n := Option.some.inj (hholds.number.symm.trans hversion)
    refine ⟨r, hr, hv, hholds.referenced.2 ?_⟩
    rw [hv.1]
    exact hkey

theorem answered_deleteDraft {w : String} {version : VersionRef}
    (hdraft : version.isDraft = true) :
    Answered (SameClass ⟨m, s⟩ (.delete w version)) (m.call (.delete w version))
      (s.call (.delete w version)) := by
  simp only [MemoryStore.call, SQLiteStore.call]
  rw [if_pos hdraft, if_pos hdraft]
  unfold MemoryStore.deleteDraft SQLiteStore.deleteDraft
  have href := referenced_iff h w
  by_cases hin : m.drafts.contains w = true
  · rw [if_neg (not_not.2 hin)]
    by_cases hreferenced : ∃ key ∈ m.references, key.1 = w
    · rw [if_pos hreferenced, if_pos (href.2 hreferenced)]
      exact .inr ⟨_, _, rfl, rfl, fun _ => rfl⟩
    · have hsome : ∃ r ∈ s.rows, r.IsDraft w ∨ r.IsVersion w := by
        obtain ⟨r, hr, hd⟩ := (h.hasDraft_iff w).2 hin
        exact ⟨r, hr, .inl hd⟩
      rw [if_neg hreferenced, if_neg fun hr => hreferenced (href.1 hr), if_pos hsome]
      refine .inl ⟨_, _, _, _, rfl, rfl, rfl, h.deleteDraft w fun n hn => ?_⟩
      exact hreferenced ⟨_, hn, rfl⟩
  · rw [if_pos hin]
    by_cases hreferenced : ∃ key ∈ m.references, key.1 = w
    · rw [if_pos (href.2 hreferenced)]
      refine .inr ⟨_, _, rfl, rfl, fun hsame => ?_⟩
      simp only [SameClass, if_pos hdraft] at hsame
      obtain ⟨key, hkey, hw⟩ := hreferenced
      rcases hsame with hd | hnone
      · exact absurd hd hin
      · exact absurd hw (hnone key hkey)
    · -- Without a draft the table has only rows of referenced versions.
      have hnone : ¬ ∃ r ∈ s.rows, r.IsDraft w ∨ r.IsVersion w := by
        rintro ⟨r, hr, hd | hv⟩
        · exact hin ((h.hasDraft_iff w).1 ⟨r, hr, hd⟩)
        · have hkept := h.kept r hr hv.not_draft (by rw [hv.1]; simpa using hin)
          exact hreferenced (href.1 ⟨r, hr, hv, hkept.2⟩)
      rw [if_neg fun hr => hreferenced (href.1 hr), if_neg hnone]
      exact .inr ⟨_, _, rfl, rfl, fun _ => rfl⟩

theorem answered_deleteVersion {w : String} {version : VersionRef}
    (hdraft : ¬ version.isDraft = true) :
    Answered (SameClass ⟨m, s⟩ (.delete w version)) (m.call (.delete w version))
      (s.call (.delete w version)) := by
  simp only [MemoryStore.call, SQLiteStore.call]
  rw [if_neg hdraft, if_neg hdraft]
  cases hint : version.toInt with
  | error e =>
    unfold MemoryStore.deleteVersion SQLiteStore.deleteVersion
    rw [hint]
    exact .inr ⟨e, e, rfl, rfl, fun _ => rfl⟩
  | ok n =>
    have hrows := h.visible_iff w n
    rw [memory_deleteVersion hint]
    by_cases hv : m.Visible w n
    · rw [if_pos hv, sqlite_deleteVersion hint (h.sqlInt_of_visible hv), if_pos (hrows.1 hv)]
      exact .inl ⟨_, _, _, _, rfl, rfl, rfl, h.deleteVersion hv⟩
    · rw [if_neg hv]
      cases hfits : sqlInt n with
      | error e =>
        have hsqlite : s.deleteVersion w version = .error e := by
          unfold SQLiteStore.deleteVersion
          rw [hint]
          show (sqlInt n >>= _) = _
          rw [hfits]
          rfl
        rw [hsqlite]
        refine .inr ⟨_, _, rfl, rfl, fun hsame => ?_⟩
        simp only [SameClass, if_neg hdraft, hint] at hsame
        have hok := hsame n rfl
        rw [hfits] at hok
        cases hok
      | ok k =>
        obtain rfl : n = k := sqlInt_eq hfits
        rw [sqlite_deleteVersion hint hfits, if_neg fun hr => hv (hrows.2 hr)]
        exact .inr ⟨_, _, rfl, rfl, fun _ => rfl⟩

theorem answered_markReferenced {w : String} {version : VersionRef}
    (hc : Lockstep ⟨m, s⟩ (.markReferenced w version)) {alike : Prop} :
    Answered alike (m.call (.markReferenced w version)) (s.call (.markReferenced w version)) := by
  simp only [MemoryStore.call, SQLiteStore.call]
  unfold MemoryStore.markReferenced SQLiteStore.markReferenced
  cases hint : version.toInt with
  | error e => exact .inr ⟨e, e, rfl, rfl, fun _ => rfl⟩
  | ok n =>
    have hv : m.Visible w n := hc n (by rw [hint]; rfl)
    have hsqlite : (sqlInt n >>= fun number =>
        if ∃ r ∈ s.rows, r.IsPublished w ∧ r.version = some number then
          pure (s.update (fun r => r.IsPublished w ∧ r.version = some number)
            fun r => { r with referenced := true })
        else throw (versionNotFound w version)) =
        Except.ok (s.update (fun r => r.IsPublished w ∧ r.version = some n)
          fun r => { r with referenced := true }) := by
      rw [h.sqlInt_of_visible hv]
      exact if_pos ((h.visible_iff w n).1 hv)
    have hmap := congrArg (Except.map fun s' => (StoreAnswer.nothing, s')) hsqlite
    exact .inl ⟨_, _, _, _, rfl, hmap, rfl, h.markReferenced hv⟩

theorem answered_isReferenced {w : String} {version : VersionRef}
    (hc : Lockstep ⟨m, s⟩ (.isReferenced w version)) {alike : Prop} :
    Answered alike (m.call (.isReferenced w version)) (s.call (.isReferenced w version)) := by
  simp only [MemoryStore.call, SQLiteStore.call]
  unfold MemoryStore.isReferenced SQLiteStore.isReferenced
  cases hint : version.toInt with
  | error e => exact .inr ⟨e, e, rfl, rfl, fun _ => rfl⟩
  | ok n =>
    have hv : m.Visible w n := hc n (by rw [hint]; rfl)
    rcases h.publishedRow_spec w n with ⟨-, r, v, hrow, hw, hholds⟩ | ⟨hnot, -⟩
    · have hsqlite : (sqlInt n >>= fun number => match s.publishedRow w number with
          | none => throw (versionNotFound w version)
          | some row => pure row.referenced) = Except.ok r.referenced := by
        rw [hholds.fits]
        show (match s.publishedRow w n with
          | none => throw (versionNotFound w version)
          | some row => pure row.referenced) = Except.ok r.referenced
        rw [hrow]
        rfl
      have hmap := congrArg (Except.map fun b => (StoreAnswer.flag b, s)) hsqlite
      refine .inl ⟨_, _, _, _, rfl, hmap, ?_, h⟩
      have hflag : decide ((w, n) ∈ m.references) = r.referenced := by
        have href := hholds.referenced
        rw [hw] at href
        rw [Bool.eq_iff_iff, decide_eq_true_iff, href]
      exact congrArg StoreAnswer.flag hflag
    · exact absurd hv hnot

theorem answered_referencedVersions {w : String}
    (hc : Lockstep ⟨m, s⟩ (.referencedVersions w)) {alike : Prop} :
    Answered alike (m.call (.referencedVersions w)) (s.call (.referencedVersions w)) := by
  have hnumbers : m.referencedVersions w = s.referencedVersions w := by
    ext n
    unfold MemoryStore.referencedVersions SQLiteStore.referencedVersions
    rw [Finset.mem_image, List.mem_toFinset, List.mem_filterMap]
    constructor
    · rintro ⟨key, hkey, rfl⟩
      obtain ⟨hkey, hw⟩ := Finset.mem_filter.1 hkey
      obtain ⟨r, hr, hp, hversion⟩ := h.visible w key.2 (hc key hkey hw)
      obtain ⟨k, v, hholds⟩ := h.rows r hr hp.not_draft
      have hk : k = key.2 := Option.some.inj (hholds.number.symm.trans hversion)
      have href : r.referenced = true := by
        rw [hholds.referenced, hp.1, hk, ← hw]
        exact hkey
      exact ⟨r, List.mem_filter.2 ⟨hr, decide_eq_true ⟨hp, href⟩⟩, hversion⟩
    · rintro ⟨r, hr, hversion⟩
      obtain ⟨hr, hboth⟩ := List.mem_filter.1 hr
      obtain ⟨hp, href⟩ := of_decide_eq_true hboth
      obtain ⟨k, v, hholds⟩ := h.rows r hr (DefinitionRow.IsPublished.not_draft hp)
      obtain rfl : k = n := Option.some.inj (hholds.number.symm.trans hversion)
      have hin := hholds.referenced.1 href
      rw [hp.1] at hin
      exact ⟨(w, k), Finset.mem_filter.2 ⟨hin, rfl⟩, rfl⟩
  simp only [MemoryStore.call, SQLiteStore.call]
  rw [hnumbers]
  exact .inl ⟨_, _, _, _, rfl, rfl, rfl, h⟩

theorem answered_publish {w memoryNow sqliteNow : String}
    (hc : Lockstep ⟨m, s⟩ (.publish w memoryNow sqliteNow)) {alike : Prop} :
    Answered alike (m.call (.publish w memoryNow sqliteNow))
      (s.call (.publish w memoryNow sqliteNow)) := by
  simp only [MemoryStore.call, SQLiteStore.call]
  unfold MemoryStore.publish SQLiteStore.publish
  rw [h.getDraft_eq]
  unfold MemoryStore.getDraft
  cases hget : m.drafts.get? w with
  | none => exact .inr ⟨_, _, rfl, rfl, fun _ => rfl⟩
  | some d =>
    obtain ⟨hplain, hcanvas, hkept, hsmall⟩ := hc d hget
    have hstripped : d.stripped = d := d.stripped_eq_iff.2 hplain
    have hfits := h.sqlInt_next hkept hsmall
    have hread : Except.map WorkflowDraft.stripped (Except.ok d : Except PyError WorkflowDraft) =
        .ok d := congrArg Except.ok hstripped
    have habove (k : ℤ) (hk : k ∈ (m.versionsOf w).keys) : k < maxOr (m.versionsOf w).keys + 1 := by
      have hle := le_maxOr hk
      omega
    have hdraft : m.drafts.contains w = true :=
      (Dict.contains_iff_mem_keys _ _).2 (Dict.mem_keys_of_get? hget)
    have hnone : d.canvasEdges = none := Option.isNone_iff_eq_none.1 hcanvas
    have houtputs : d.outputs.map WorkflowOutput.stripped = d.outputs :=
      (map_stripped_eq_iff d.outputs).2 hplain
    dsimp only
    rw [hread]
    simp only [bind, Except.bind, pure, Except.pure, h.nextNumber_eq hkept, hfits, Except.map]
    refine .inl ⟨_, _, _, _, rfl, rfl, ?_, h.addVersion hdraft habove hfits rfl rfl ?_⟩
    · simp [StoreAnswer.untimed, WorkflowVersion.untimed, hnone]
    · simp [WorkflowVersion.untimed, WorkflowVersion.stripped, hnone, houtputs]

/-- Every call in lockstep is answered alike and keeps both stores related. -/
theorem answered (c : StoreCall) (hc : Lockstep ⟨m, s⟩ c) :
    Answered (SameClass ⟨m, s⟩ c) (m.call c) (s.call c) := by
  cases c with
  | create draft => exact answered_create h draft
  | save draft => exact answered_save h draft
  | get w version => exact answered_get h hc
  | list limit => exact answered_list h hc
  | delete w version =>
    by_cases hdraft : version.isDraft = true
    · exact answered_deleteDraft h hdraft
    · exact answered_deleteVersion h hdraft
  | deletePreservingReferences w => exact answered_deletePreservingReferences h w
  | publish w memoryNow sqliteNow => exact answered_publish h hc
  | listVersions w => exact answered_listVersions h w
  | isReferenced w version => exact answered_isReferenced h hc
  | referencedVersions w => exact answered_referencedVersions h hc
  | listPublished latestOnly limit => exact answered_listPublished h hc
  | markReferenced w version => exact answered_markReferenced h hc

end Answers

/-! ## Runs -/

/-- Both stores answer a call the same, publication times aside, or both raise. -/
def Agree (p : StorePair) (c : StoreCall) : Prop :=
  match p.memory.call c, p.sqlite.call c with
  | .ok a, .ok b => a.1.untimed = b.1.untimed
  | .error _, .error _ => True
  | _, _ => False

/-- When both stores raise, they raise exceptions of the same class. -/
def RaiseAlike (p : StorePair) (c : StoreCall) : Prop :=
  ∀ e e', p.memory.call c = .error e → p.sqlite.call c = .error e' → className e = className e'

theorem Mirrors.init : Mirrors {} {} := by
  have hnothing (w : String) (n : ℤ) : (({} : MemoryStore).versionOf w n) = none := rfl
  constructor
  · rfl
  · exact List.nodup_nil
  · intro r hr
    cases hr
  · exact List.nodup_nil
  · intro w n hv
    have hsome := hv.1
    rw [hnothing] at hsome
    cases hsome
  · intro w n href
    exact absurd href (Finset.notMem_empty _)
  · intro r hr
    cases hr
  · intro w n hn
    exact absurd hn (Finset.notMem_empty n)
  · intro w n v hv
    cases hv
  · exact List.nodup_nil
  · exact fun _ => List.nodup_nil

/-- A call in lockstep keeps both stores related. -/
theorem mirrors_step (p : StorePair) (c : StoreCall) (h : Mirrors p.memory p.sqlite)
    (hc : Lockstep p c) : Mirrors (p.step c).memory (p.step c).sqlite := by
  unfold StorePair.step
  rcases answered h c hc with ⟨a, b, m', s', hm, hs, -, hafter⟩ | ⟨e, e', hm, hs, -⟩
  · rw [hm, hs]
    exact hafter
  · rw [hm, hs]
    exact h

/-- In every run of calls in lockstep both stores answer every call the same, publication times
aside, or both raise; and where the call asks for it, exceptions of the same class. -/
theorem stores_agree (calls : List StoreCall)
    (h : Machine.Meets StorePair.step Lockstep {} calls) (before after : List StoreCall)
    (c : StoreCall) (hcalls : calls = before ++ c :: after) :
    Agree (Machine.run StorePair.step {} before) c ∧
      (SameClass (Machine.run StorePair.step {} before) c →
        RaiseAlike (Machine.run StorePair.step {} before) c) := by
  rw [hcalls] at h
  obtain ⟨hbefore, hc, -⟩ := Machine.meets_append.1 h
  have hmirrors : Mirrors (Machine.run StorePair.step {} before).memory
      (Machine.run StorePair.step {} before).sqlite :=
    hbefore.invariant (I := fun p => Mirrors p.memory p.sqlite) mirrors_step Mirrors.init
  unfold Agree RaiseAlike
  rcases answered hmirrors c hc with ⟨a, b, m', s', hm, hs, hsame, -⟩ | ⟨e, e', hm, hs, hsame⟩
  · rw [hm, hs]
    refine ⟨hsame, fun _ _ _ herror => ?_⟩
    cases herror
  · rw [hm, hs]
    refine ⟨trivial, fun halike e₁ e₂ h₁ h₂ => ?_⟩
    cases h₁
    cases h₂
    exact hsame halike

end Stores

/-- A draft without nodes. -/
def emptyDraft : WorkflowDraft := { id := "w", name := "inspect" }

/-- A workflow is published twice, its first version is referenced and deleted, and it is listed
and asked for in between. -/
def publishTwice : List StoreCall :=
  [.create emptyDraft, .publish "w" "t1" "u1", .save emptyDraft, .publish "w" "t2" "u2",
    .markReferenced "w" (.number 1), .isReferenced "w" (.number 1), .delete "w" (.number 1),
    .get "w" (.number 1), .listVersions "w", .listPublished true 500]

theorem stores_agree_publishTwice :
    let := PyLib.atEpoch
    Agree (Machine.run StorePair.step {} (publishTwice.take 9)) (.listPublished true 500) :=
  have hlockstep : Machine.Meets (@StorePair.step PyLib.atEpoch) (@Lockstep PyLib.atEpoch) {}
      publishTwice := by decide +kernel
  (@stores_agree PyLib.atEpoch publishTwice hlockstep (publishTwice.take 9) []
    (.listPublished true 500) rfl).1

/-- A draft whose canvas edges were all removed. -/
def drawnDraft : WorkflowDraft := { id := "w", name := "inspect", canvasEdges := some [] }

/-- An answer is a version with canvas edges. -/
def hasCanvas : StoreAnswer → Bool
  | .version v => v.canvasEdges.isSome
  | _ => false

/-- The stores publish different versions of a draft with canvas edges. -/
theorem not_stores_agree_drawnDraft :
    let := PyLib.atEpoch
    ¬ ∀ (before : List StoreCall) (c : StoreCall),
      Agree (Machine.run StorePair.step {} before) c := by
  intro _ hall
  have hsame := hall [.create drawnDraft] (.publish "w" "t1" "u1")
  have hcanvas : true = false := congrArg hasCanvas hsame
  cases hcanvas

end DeviceShell.Studio
