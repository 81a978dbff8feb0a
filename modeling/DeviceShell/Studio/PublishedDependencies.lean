import DeviceShell.Lib.DepthFirst
import DeviceShell.Lib.Text
import DeviceShell.Studio.DefinitionStores

/-!
# The versions that a published version depends on

`_published_workflow_dependencies` of `interfaces/desktop_api/routers/workflow_definitions.py` and
the endpoint that publishes. A node with the action `workflow.call` names a workflow and a version;
the versions that are called, and those that they call, are marked as referenced, which keeps them
from being deleted with their workflow. The traversal is `KeyedGraph.gather` over what a store
holds, with a depth that the store cannot use up; it raises what the store raises for a version that
is not there. The endpoint is the same over either store, with any check of the draft in front of it.
-/

namespace DeviceShell.Studio

/-! ## Calls -/

/-- The version that a node calls, where it calls one by its number. -/
def WorkflowNode.called [PyLib] (node : WorkflowNode) : Option (String × ℤ) :=
  let settings := node.config.merge node.inputMapping
  let calledId := strip (Value.strOr (settings.get? "workflow_id") "")
  match settings.get? "version" with
  | some (.int number) =>
    if node.actionId = "workflow.call" ∧ calledId ≠ "" then some (calledId, number) else none
  | _ => none

/-- The versions that some nodes call. -/
def calledVersions [PyLib] (nodes : List WorkflowNode) : List (String × ℤ) :=
  nodes.filterMap WorkflowNode.called

/-! ## Stores -/

/-- What the endpoint uses of a store, with the keys that it can hold a version under, and with the
versions that are marked as referenced. -/
structure DefinitionStore (σ : Type) where
  getDraft : σ → String → Except PyError WorkflowDraft
  getVersion : σ → String → VersionRef → Except PyError WorkflowVersion
  publish : σ → String → String → Except PyError (WorkflowVersion × σ)
  markReferenced : σ → String → VersionRef → Except PyError σ
  keys : σ → List (String × ℤ)
  Marked : σ → String × ℤ → Prop
  mem_keys {s : σ} {w : String} {n : ℤ} {v : WorkflowVersion} :
    getVersion s w (.number n) = .ok v → (w, n) ∈ keys s
  publish_nodes {s s' : σ} {w now : String} {draft : WorkflowDraft} {v : WorkflowVersion} :
    getDraft s w = .ok draft → publish s w now = .ok (v, s') → v.nodes = draft.nodes
  publish_marked {s s' : σ} {w now : String} {v : WorkflowVersion} :
    publish s w now = .ok (v, s') → ∀ key, Marked s' key ↔ Marked s key
  mark_marked {s s' : σ} {w : String} {n : ℤ} :
    markReferenced s w (.number n) = .ok s' → ∀ key, Marked s' key ↔ Marked s key ∨ key = (w, n)

/-- The store in memory. -/
def memoryStore [PyLib] : DefinitionStore MemoryStore where
  getDraft := MemoryStore.getDraft
  getVersion m w version := m.getVersion w version
  publish := MemoryStore.publish
  markReferenced m w version := m.markReferenced w version
  keys m := m.versions.entries.flatMap fun e => e.2.keys.map fun n => (e.1, n)
  Marked m key := key ∈ m.references
  mem_keys {m w n v} h := by
    unfold MemoryStore.getVersion at h
    split at h
    · rename_i items number hitems hnumber
      cases hnumber
      split at h
      · cases h
      · rename_i hget
        have hentry : (w, items) ∈ m.versions.entries := Dict.mem_of_get? hitems
        have hkey : n ∈ items.keys := Dict.mem_keys_of_get? hget
        exact List.mem_flatMap.mpr ⟨_, hentry, List.mem_map.mpr ⟨n, hkey, rfl⟩⟩
    · cases h
  publish_nodes hdraft h := by
    obtain ⟨draft', hdraft', h⟩ := Except.bind_eq_ok.mp h
    rw [hdraft] at hdraft'
    cases hdraft'
    cases h
    rfl
  publish_marked h key := by
    obtain ⟨draft, -, h⟩ := Except.bind_eq_ok.mp h
    cases h
    rfl
  mark_marked {m m' w n} h key := by
    obtain ⟨number, hnumber, h⟩ := Except.bind_eq_ok.mp h
    cases hnumber
    cases h
    rw [Finset.mem_insert, or_comm]

/-- A version of the store in SQLite is marked. -/
def SQLiteStore.Marked (s : SQLiteStore) (key : String × ℤ) : Prop :=
  ∃ r ∈ s.rows, r.IsPublished key.1 ∧ r.version = some key.2 ∧ r.referenced = true

/-- What is marked after a version is. -/
theorem SQLiteStore.marked_markReferenced [PyLib] {s s' : SQLiteStore} {w : String} {n : ℤ}
    (h : s.markReferenced w (.number n) = .ok s') (key : String × ℤ) :
    s'.Marked key ↔ s.Marked key ∨ key = (w, n) := by
  obtain ⟨given, hgiven, h⟩ := Except.bind_eq_ok.mp h
  cases hgiven
  obtain ⟨number, hnumber, h⟩ := Except.bind_eq_ok.mp h
  obtain rfl := sqlInt_eq hnumber
  split at h
  · rename_i hexists
    cases h
    constructor
    · rintro ⟨r, hr, hpublished, hversion, hreferenced⟩
      obtain ⟨q, hq, rfl⟩ := List.mem_map.mp hr
      split at hpublished
      · rename_i hmatch
        rw [if_pos hmatch] at hversion
        have hw : key.1 = w := hpublished.1.symm.trans hmatch.1.1
        have hnum : key.2 = n := Option.some.inj (hversion.symm.trans hmatch.2)
        exact .inr (Prod.ext hw hnum)
      · rename_i hmatch
        rw [if_neg hmatch] at hversion hreferenced
        exact .inl ⟨q, hq, hpublished, hversion, hreferenced⟩
    · rintro (⟨q, hq, hpublished, hversion, hreferenced⟩ | rfl)
      · refine ⟨_, List.mem_map_of_mem hq, ?_⟩
        split
        · exact ⟨hpublished, hversion, rfl⟩
        · exact ⟨hpublished, hversion, hreferenced⟩
      · obtain ⟨q, hq, hmatch⟩ := hexists
        refine ⟨_, List.mem_map_of_mem hq, ?_⟩
        rw [if_pos hmatch]
        exact ⟨hmatch.1, hmatch.2, rfl⟩
  · cases h

/-- The store in SQLite. -/
def sqliteStore [PyLib] : DefinitionStore SQLiteStore where
  getDraft s w := s.getDraft w
  getVersion s w version := s.getVersion w version
  publish s w now := s.publish w now
  markReferenced s w version := s.markReferenced w version
  keys s := s.rows.filterMap fun r => r.version.map fun n => (r.workflowId, n)
  Marked := SQLiteStore.Marked
  mem_keys {s w n v} h := by
    obtain ⟨given, hgiven, h⟩ := Except.bind_eq_ok.mp h
    cases hgiven
    obtain ⟨number, hnumber, h⟩ := Except.bind_eq_ok.mp h
    obtain rfl := sqlInt_eq hnumber
    split at h
    · cases h
    · rename_i row hrow
      have hmem : row ∈ s.rows := List.mem_of_find?_eq_some hrow
      have hmatch := List.find?_some hrow
      rw [decide_eq_true_eq] at hmatch
      refine List.mem_filterMap.mpr ⟨row, hmem, ?_⟩
      rw [hmatch.2, hmatch.1.1]
      rfl
  publish_nodes hdraft h := by
    obtain ⟨draft', hdraft', h⟩ := Except.bind_eq_ok.mp h
    rw [hdraft] at hdraft'
    cases hdraft'
    obtain ⟨number, -, h⟩ := Except.bind_eq_ok.mp h
    cases h
    rfl
  publish_marked {s s' w now v} h key := by
    obtain ⟨draft, -, h⟩ := Except.bind_eq_ok.mp h
    obtain ⟨number, -, h⟩ := Except.bind_eq_ok.mp h
    cases h
    simp [SQLiteStore.Marked]
  mark_marked h key := SQLiteStore.marked_markReferenced h key

/-! ## Dependencies -/

namespace DefinitionStore

variable {σ : Type} (S : DefinitionStore σ) [PyLib]

/-- The published versions of a store and what they call. -/
def graph (s : σ) : KeyedGraph (String × ℤ) WorkflowVersion PyError where
  resolve key := S.getVersion s key.1 (.number key.2)
  calls version := calledVersions version.nodes

/-- `_published_workflow_dependencies`, of a version with these nodes. -/
def publishedDependencies (s : σ) (nodes : List WorkflowNode) :
    Option (Except PyError (List (String × ℤ))) :=
  (S.graph s).gather ((S.keys s).length + 1) (calledVersions nodes) []

/-- A version that is reached from some nodes by calls of published versions. -/
def Reached (s : σ) (nodes : List WorkflowNode) (key : String × ℤ) : Prop :=
  (S.graph s).Reached (calledVersions nodes) key

/-- `mark_referenced` of each of some versions. -/
def markAll (s : σ) (keys : List (String × ℤ)) : Except PyError σ :=
  keys.foldlM (fun s key => S.markReferenced s key.1 (.number key.2)) s

/-- The marks of a version that was published. -/
def markDependencies (s : σ) (version : WorkflowVersion) : Option (Except PyError σ) :=
  match S.publishedDependencies s version.nodes with
  | none => none
  | some (.error e) => some (.error e)
  | some (.ok keys) => some (S.markAll s keys)

/-- `publish_workflow_definition`: the version that was published, if the draft is `valid`. -/
def publishDefinition (valid : σ → WorkflowDraft → Except PyError Bool) (s : σ)
    (workflowId now : String) : Option (Except PyError (Option WorkflowVersion × σ)) :=
  match S.getDraft s workflowId with
  | .error e => some (.error e)
  | .ok draft => match valid s draft with
    | .error e => some (.error e)
    | .ok false => some (.ok (none, s))
    | .ok true => match S.publish s workflowId now with
      | .error e => some (.error e)
      | .ok (version, s') =>
        (S.markDependencies s' version).map fun r => r.map fun s'' => (some version, s'')

/-- The traversal ends. -/
theorem publishedDependencies_isSome (s : σ) (nodes : List WorkflowNode) :
    (S.publishedDependencies s nodes).isSome := by
  have hless : (KeyedGraph.unseen (S.keys s) []).length < (S.keys s).length + 1 :=
    Nat.lt_succ_of_le (List.length_filter_le _ _)
  exact KeyedGraph.gather_isSome (fun h => S.mem_keys h) _ _ _ hless

/-- What the traversal returns: what is reached, each version once, and all of it is there. -/
theorem publishedDependencies_spec {s : σ} {nodes : List WorkflowNode} {keys : List (String × ℤ)}
    (h : S.publishedDependencies s nodes = some (.ok keys)) :
    keys.Nodup ∧ (∀ key, key ∈ keys ↔ S.Reached s nodes key) ∧
      ∀ key ∈ keys, ∃ version, S.getVersion s key.1 (.number key.2) = .ok version := by
  have hspec := KeyedGraph.gather_spec _ h
  refine ⟨hspec.nodup List.nodup_nil, KeyedGraph.mem_gather_iff h, fun key hkey => ?_⟩
  obtain ⟨version, hversion, -⟩ := hspec.closed key hkey List.not_mem_nil
  exact ⟨version, hversion⟩

omit [PyLib] in
/-- What is marked after some versions are. -/
theorem markAll_marked {s s' : σ} {keys : List (String × ℤ)} (h : S.markAll s keys = .ok s')
    (key : String × ℤ) : S.Marked s' key ↔ S.Marked s key ∨ key ∈ keys := by
  induction keys generalizing s with
  | nil =>
    cases h
    simp
  | cons first rest ih =>
    obtain ⟨mid, hmid, hrest⟩ := Except.bind_eq_ok.mp h
    calc S.Marked s' key
      _ ↔ S.Marked mid key ∨ key ∈ rest := ih hrest
      _ ↔ (S.Marked s key ∨ key = first) ∨ key ∈ rest := by rw [S.mark_marked hmid]
      _ ↔ S.Marked s key ∨ key ∈ first :: rest := by rw [or_assoc, List.mem_cons]

/-- A version that was published: the draft and the marks that it comes from. -/
theorem publishDefinition_spec {valid : σ → WorkflowDraft → Except PyError Bool} {s s' : σ}
    {workflowId now : String} {version : WorkflowVersion}
    (h : S.publishDefinition valid s workflowId now = some (.ok (some version, s'))) :
    ∃ draft s₁ keys, S.getDraft s workflowId = .ok draft ∧
      S.publish s workflowId now = .ok (version, s₁) ∧
      S.publishedDependencies s₁ draft.nodes = some (.ok keys) ∧ S.markAll s₁ keys = .ok s' := by
  unfold publishDefinition at h
  split at h
  · cases h
  · rename_i draft hdraft
    split at h
    · cases h
    · cases h
    · split at h
      · cases h
      · rename_i version' s₁ hpublish
        have hnodes : version'.nodes = draft.nodes := S.publish_nodes hdraft hpublish
        unfold markDependencies at h
        rw [hnodes] at h
        split at h
        · cases h
        · cases h
        · rename_i keys hkeys
          cases hmark : S.markAll s₁ keys with
          | error e =>
            rw [hmark] at h
            cases h
          | ok marked =>
            rw [hmark] at h
            cases h
            exact ⟨draft, s₁, keys, hdraft, hpublish, hkeys, hmark⟩

/-- The traversal ends. It returns the versions that are reached, each once, if they are all there,
and otherwise raises what the store raises for one that is not. After a version was published, the
versions that its draft reaches are marked, in addition to those that were. -/
theorem publishedDependencies_correct :
    (∀ s nodes,
      (∃ keys, S.publishedDependencies s nodes = some (.ok keys) ∧ keys.Nodup ∧
        (∀ key, key ∈ keys ↔ S.Reached s nodes key) ∧
        ∀ key ∈ keys, ∃ version, S.getVersion s key.1 (.number key.2) = .ok version) ∨
      ∃ key e, S.Reached s nodes key ∧ S.getVersion s key.1 (.number key.2) = .error e ∧
        S.publishedDependencies s nodes = some (.error e)) ∧
    ∀ valid s workflowId now version s',
      S.publishDefinition valid s workflowId now = some (.ok (some version, s')) →
      ∃ draft s₁, S.getDraft s workflowId = .ok draft ∧
        S.publish s workflowId now = .ok (version, s₁) ∧
        ∀ key, S.Marked s' key ↔ S.Marked s key ∨ S.Reached s₁ draft.nodes key := by
  constructor
  · intro s nodes
    obtain ⟨result, hresult⟩ := Option.isSome_iff_exists.mp (S.publishedDependencies_isSome s nodes)
    rcases result with e | keys
    · obtain ⟨key, hreached, herror⟩ := KeyedGraph.gather_error _ hresult
      exact .inr ⟨key, e, hreached, herror, hresult⟩
    · exact .inl ⟨keys, hresult, S.publishedDependencies_spec hresult⟩
  · intro valid s workflowId now version s' h
    obtain ⟨draft, s₁, keys, hdraft, hpublish, hkeys, hmark⟩ := S.publishDefinition_spec h
    have hmem := (S.publishedDependencies_spec hkeys).2.1
    refine ⟨draft, s₁, hdraft, hpublish, fun key => ?_⟩
    rw [S.markAll_marked hmark, S.publish_marked hpublish, hmem]

end DefinitionStore

/-- A node that calls a version of a workflow. -/
def callNode (workflowId : String) (version : ℤ) : WorkflowNode where
  id := "call"
  actionId := "workflow.call"
  config := ⟨[("workflow_id", .str workflowId), ("version", .int version)]⟩

/-- A version that is not there is raised for. -/
theorem not_publishedDependencies_missing :
    letI := PyLib.decimal
    ¬ ∀ (m : MemoryStore) nodes, ∃ keys,
      memoryStore.publishedDependencies m nodes = some (.ok keys) ∧
        ∀ key, key ∈ keys ↔ memoryStore.Reached m nodes key := by
  intro h
  obtain ⟨keys, hkeys, -⟩ := h {} [callNode "backup" 1]
  have hraised : @DefinitionStore.publishedDependencies MemoryStore (@memoryStore PyLib.decimal)
      PyLib.decimal {} [callNode "backup" 1] =
      some (.error (@versionNotFound PyLib.decimal "backup" (.number 1))) := by decide +kernel
  rw [hraised] at hkeys
  cases hkeys

/-- The first version of a workflow, which calls that of another. -/
def calling (workflowId called : String) : WorkflowVersion where
  workflowId := workflowId
  version := .int 1
  name := workflowId
  nodes := [callNode called 1]

/-- Two workflows that call each other. -/
def callsInCircle : MemoryStore where
  versions := ⟨[("back", ⟨[(1, calling "back" "forth")]⟩), ("forth", ⟨[(1, calling "forth" "back")]⟩)]⟩

example : letI := PyLib.decimal
    memoryStore.publishedDependencies callsInCircle [callNode "back" 1] =
      some (.ok [("back", 1), ("forth", 1)]) := by decide +kernel

end DeviceShell.Studio
