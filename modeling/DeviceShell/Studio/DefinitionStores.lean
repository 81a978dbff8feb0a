import DeviceShell.Lib.Machine
import DeviceShell.Studio.Models

/-!
# The two stores of workflow definitions

`MemoryWorkflowDefinitionStore` of `application/workflow_studio/store.py` and
`SQLiteWorkflowDefinitionStore` of `infrastructure/persistence/sqlite_workflows.py`. The first keeps
dictionaries of values. The second keeps one table of rows, oldest first, whose payload is the JSON
of a draft or of a version; a statement that raises changes no row, and a number outside of 64 bits
cannot be bound to one. Each call answers and gives the next state, or raises.
-/

namespace DeviceShell.Studio

/-! ## Versions as they are asked for -/

/-- `version: int | str | None`. -/
inductive VersionRef where
  | none
  | number (n : ℤ)
  | text (s : String)
deriving DecidableEq, Repr

/-- `version is None or version == "draft"`. -/
def VersionRef.isDraft : VersionRef → Bool
  | .none => true
  | .number _ => false
  | .text s => s == "draft"

/-- `int(version)`. -/
def VersionRef.toInt [PyLib] : VersionRef → Except PyError ℤ
  | .none => Value.none.toInt
  | .number n => .ok n
  | .text s => (Value.str s).toInt

/-- `str(version)`. -/
def VersionRef.pyStr [PyLib] : VersionRef → String
  | .none => Value.none.pyStr
  | .number n => (Value.int n).pyStr
  | .text s => s

/-- The error of a workflow that is not there. -/
def workflowNotFound (workflowId : String) : PyError :=
  .keyError ("workflow not found: " ++ workflowId)

/-- The error of a version that is not there. -/
def versionNotFound [PyLib] (workflowId : String) (version : VersionRef) : PyError :=
  .keyError ("workflow version not found: " ++ workflowId ++ "@" ++ version.pyStr)

/-- `max(numbers, default=0)`. -/
def maxOr : List ℤ → ℤ
  | [] => 0
  | n :: rest => rest.foldl max n

/-! ## The store in memory -/

/-- `MemoryWorkflowDefinitionStore`. -/
structure MemoryStore where
  drafts : Dict String WorkflowDraft := ∅
  versions : Dict String (Dict ℤ WorkflowVersion) := ∅
  deletedVersions : Dict String (Finset ℤ) := ∅
  references : Finset (String × ℤ) := ∅

namespace MemoryStore

variable (m : MemoryStore) (workflowId : String)

/-- `self._versions.get(workflow_id, {})`. -/
def versionsOf : Dict ℤ WorkflowVersion := (m.versions.get? workflowId).getD ∅

/-- `self._deleted_versions.get(workflow_id, set())`. -/
def deletedOf : Finset ℤ := (m.deletedVersions.get? workflowId).getD ∅

/-- `create`. -/
def create (draft : WorkflowDraft) : Except PyError (WorkflowDraft × MemoryStore) :=
  if m.drafts.contains draft.id then .error (.valueError ("workflow already exists: " ++ draft.id))
  else .ok (draft, { m with drafts := m.drafts.set draft.id draft })

/-- `save`. -/
def save (draft : WorkflowDraft) : Except PyError (WorkflowDraft × MemoryStore) :=
  if m.drafts.contains draft.id then
    .ok (draft, { m with drafts := m.drafts.set draft.id draft })
  else .error (workflowNotFound draft.id)

/-- `get` of a draft. -/
def getDraft : Except PyError WorkflowDraft :=
  match m.drafts.get? workflowId with
  | none => .error (workflowNotFound workflowId)
  | some draft => .ok draft

/-- `get` of a version: an `int(version)` that raises is caught. -/
def getVersion [PyLib] (version : VersionRef) : Except PyError WorkflowVersion :=
  match m.versions.get? workflowId, version.toInt with
  | some items, .ok number => match items.get? number with
    | none => .error (versionNotFound workflowId version)
    | some result =>
      if number ∈ m.deletedOf workflowId then .error (versionNotFound workflowId version)
      else .ok result
  | _, _ => .error (versionNotFound workflowId version)

/-- `list`. -/
def list (limit : ℤ) : List WorkflowDraft := m.drafts.values.take limit.toNat

/-- `delete` of a workflow. -/
def deleteDraft : Except PyError MemoryStore :=
  if ¬ m.drafts.contains workflowId then .error (workflowNotFound workflowId)
  else if ∃ key ∈ m.references, key.1 = workflowId then
    .error (.valueError ("workflow has referenced published versions: " ++ workflowId))
  else .ok { m with
    drafts := m.drafts.erase workflowId
    versions := m.versions.erase workflowId
    deletedVersions := m.deletedVersions.erase workflowId }

/-- `delete` of a version. -/
def deleteVersion [PyLib] (version : VersionRef) : Except PyError MemoryStore := do
  let number ← version.toInt
  if ¬ (m.versionsOf workflowId).contains number then
    throw (versionNotFound workflowId version)
  else if number ∈ m.deletedOf workflowId then
    throw (versionNotFound workflowId version)
  else
    return { m with deletedVersions :=
      m.deletedVersions.set workflowId (insert number (m.deletedOf workflowId)) }

/-- `delete_preserving_references`. -/
def deletePreservingReferences : Except PyError MemoryStore :=
  if ¬ m.drafts.contains workflowId then .error (workflowNotFound workflowId)
  else
    let versions := m.versionsOf workflowId
    if versions.entries ≠ [] then .ok { m with
      drafts := m.drafts.erase workflowId
      deletedVersions := m.deletedVersions.set workflowId versions.keys.toFinset }
    else .ok { m with
      drafts := m.drafts.erase workflowId
      versions := m.versions.erase workflowId
      deletedVersions := m.deletedVersions.erase workflowId }

/-- `publish`, at the time `now`. -/
def publish (now : String) : Except PyError (WorkflowVersion × MemoryStore) := do
  let draft ← m.getDraft workflowId
  let versions := m.versionsOf workflowId
  let number := maxOr versions.keys + 1
  let version : WorkflowVersion := {
    workflowId := workflowId
    version := .int number
    name := draft.name
    inputs := draft.inputs
    nodes := draft.nodes
    edges := draft.edges
    publishedAt := .str now
    description := draft.description
    outputs := draft.outputs
    canvasEdges := draft.canvasEdges }
  return (version, { m with versions := m.versions.set workflowId (versions.set number version) })

/-- The entries of some versions whose numbers are not deleted. -/
def visibleItems (items : Dict ℤ WorkflowVersion) : List (ℤ × WorkflowVersion) :=
  items.entries.filter fun e => e.1 ∉ m.deletedOf workflowId

/-- `list_versions`: the items are sorted by their numbers. -/
def listVersions : List WorkflowVersion :=
  ((m.visibleItems workflowId (m.versionsOf workflowId)).mergeSort fun a b => a.1 ≤ b.1).map
    Prod.snd

/-- `is_referenced`. -/
def isReferenced [PyLib] (version : VersionRef) : Except PyError Bool := do
  let number ← version.toInt
  return decide ((workflowId, number) ∈ m.references)

/-- `referenced_versions`. -/
def referencedVersions : Finset ℤ :=
  (m.references.filter fun key => key.1 = workflowId).image Prod.snd

/-- `mark_referenced`. -/
def markReferenced [PyLib] (version : VersionRef) : Except PyError MemoryStore := do
  let number ← version.toInt
  return { m with references := insert (workflowId, number) m.references }

/-- The versions of one workflow that `list_published` sorts. -/
def collected (latestOnly : Bool) (items : Dict ℤ WorkflowVersion) : List WorkflowVersion :=
  let visible := m.visibleItems workflowId items
  if ¬ m.drafts.contains workflowId then []
  else if latestOnly then
    if visible = [] then [] else (items.get? (maxOr (visible.map Prod.fst))).toList
  else visible.map Prod.snd

/-- The versions that `list_published` sorts. -/
def published (latestOnly : Bool) : List WorkflowVersion :=
  m.versions.entries.flatMap fun e => m.collected e.1 latestOnly e.2

end MemoryStore

/-- The key by which `list_published` sorts. -/
abbrev PublishedKey := String ×ₗ String ×ₗ ℤ

/-- `(item.published_at or "", item.workflow_id, int(item.version))`. -/
def publishedKey [PyLib] (item : WorkflowVersion) : Except PyError PublishedKey := do
  return toLex (Value.strOr item.publishedAt "", toLex (item.workflowId, ← item.version.toInt))

/-- `list_published`. -/
def MemoryStore.listPublished [PyLib] (m : MemoryStore) (latestOnly : Bool) (limit : ℤ) :
    Except PyError (List WorkflowVersion) := do
  let keyed ← (m.published latestOnly).mapM fun item => do return (← publishedKey item, item)
  return ((keyed.mergeSort fun a b => b.1 ≤ a.1).map Prod.snd).take limit.toNat

/-! ## The store in SQLite -/

/-- The column `kind`. -/
inductive RowKind where
  | draft
  | published
  | deleted
deriving DecidableEq, Repr

/-- A row of `workflow_definitions`. -/
structure DefinitionRow where
  workflowId : String
  version : Option ℤ
  kind : RowKind
  referenced : Bool
  payload : Dict String Value

/-- `SQLiteWorkflowDefinitionStore`: its table, in the order of `rowid`. -/
structure SQLiteStore where
  rows : List DefinitionRow := []

/-- What binds to a parameter of a statement. -/
def sqlInt (n : ℤ) : Except PyError ℤ :=
  if -2 ^ 63 ≤ n ∧ n < 2 ^ 63 then .ok n
  else .error (.overflowError "Python int too large to convert to SQLite INTEGER")

/-- What binds is the number itself. -/
theorem sqlInt_eq {n k : ℤ} (h : sqlInt n = .ok k) : n = k := by
  unfold sqlInt at h
  split_ifs at h
  exact Except.ok.inj h

namespace DefinitionRow

variable (r : DefinitionRow) (workflowId : String)

/-- `workflow_id=? AND kind='draft'`. -/
def IsDraft : Prop := r.workflowId = workflowId ∧ r.kind = .draft

/-- `workflow_id=? AND kind='published'`. -/
def IsPublished : Prop := r.workflowId = workflowId ∧ r.kind = .published

/-- `workflow_id=? AND kind IN ('published','deleted')`. -/
def IsVersion : Prop := r.workflowId = workflowId ∧ (r.kind = .published ∨ r.kind = .deleted)

instance : Decidable (r.IsDraft workflowId) := inferInstanceAs (Decidable (_ ∧ _))

instance : Decidable (r.IsPublished workflowId) := inferInstanceAs (Decidable (_ ∧ _))

instance : Decidable (r.IsVersion workflowId) := inferInstanceAs (Decidable (_ ∧ _))

end DefinitionRow

namespace SQLiteStore

variable (s : SQLiteStore) (workflowId : String)

/-- A row of the draft of a workflow is there. -/
def HasDraft : Prop := ∃ r ∈ s.rows, r.IsDraft workflowId

instance : Decidable (s.HasDraft workflowId) :=
  inferInstanceAs (Decidable (∃ r ∈ s.rows, r.IsDraft workflowId))

/-- `UPDATE workflow_definitions SET ... WHERE ...`. -/
def update (p : DefinitionRow → Prop) [DecidablePred p] (f : DefinitionRow → DefinitionRow) :
    SQLiteStore :=
  ⟨s.rows.map fun r => if p r then f r else r⟩

/-- `DELETE FROM workflow_definitions WHERE ...`. -/
def delete (p : DefinitionRow → Prop) [DecidablePred p] : SQLiteStore :=
  ⟨s.rows.filter fun r => ¬ p r⟩

/-- `create`: the index on drafts refuses a second one. -/
def create (draft : WorkflowDraft) : Except PyError (WorkflowDraft × SQLiteStore) :=
  if s.HasDraft draft.id then .error (.valueError ("workflow already exists: " ++ draft.id))
  else .ok (draft, ⟨s.rows ++ [⟨draft.id, none, .draft, false, draft.toDict⟩]⟩)

/-- `save`. -/
def save (draft : WorkflowDraft) : Except PyError (WorkflowDraft × SQLiteStore) :=
  if s.HasDraft draft.id then
    .ok (draft, s.update (fun r => r.IsDraft draft.id) fun r => { r with payload := draft.toDict })
  else .error (workflowNotFound draft.id)

/-- `get` of a draft. -/
def getDraft [PyLib] : Except PyError WorkflowDraft :=
  match s.rows.find? fun r => r.IsDraft workflowId with
  | none => .error (workflowNotFound workflowId)
  | some row => WorkflowDraft.fromDict row.payload

/-- The row of a published version. -/
def publishedRow (number : ℤ) : Option DefinitionRow :=
  s.rows.find? fun r => r.IsPublished workflowId ∧ r.version = some number

/-- `get` of a version. -/
def getVersion [PyLib] (version : VersionRef) : Except PyError WorkflowVersion := do
  let number ← sqlInt (← version.toInt)
  match s.publishedRow workflowId number with
  | none => throw (versionNotFound workflowId version)
  | some row => WorkflowVersion.fromDict row.payload

/-- `list`. -/
def list [PyLib] (limit : ℤ) : Except PyError (List WorkflowDraft) := do
  let limit ← sqlInt (max 0 limit)
  let rows := (s.rows.filter fun r => r.kind = .draft).reverse.take limit.toNat
  rows.mapM fun r => WorkflowDraft.fromDict r.payload

/-- `delete` of a workflow. -/
def deleteDraft : Except PyError SQLiteStore :=
  if ∃ r ∈ s.rows, r.IsVersion workflowId ∧ r.referenced then
    .error (.valueError ("workflow has referenced published versions: " ++ workflowId))
  else if ∃ r ∈ s.rows, r.IsDraft workflowId ∨ r.IsVersion workflowId then
    .ok (s.delete fun r => r.IsDraft workflowId ∨ r.IsVersion workflowId)
  else .error (workflowNotFound workflowId)

/-- `delete` of a version. -/
def deleteVersion [PyLib] (version : VersionRef) : Except PyError SQLiteStore := do
  let number ← sqlInt (← version.toInt)
  if ∃ r ∈ s.rows, r.IsPublished workflowId ∧ r.version = some number then
    return s.update (fun r => r.IsPublished workflowId ∧ r.version = some number)
      fun r => { r with kind := .deleted }
  else throw (workflowNotFound workflowId)

/-- `delete_preserving_references`: three statements after the check. -/
def deletePreservingReferences : Except PyError SQLiteStore :=
  if ¬ s.HasDraft workflowId then .error (workflowNotFound workflowId)
  else
    let undrafted := s.delete fun r => r.IsDraft workflowId
    let hidden := undrafted.update (fun r => r.IsPublished workflowId)
      fun r => { r with kind := .deleted }
    .ok (hidden.delete fun r =>
      r.workflowId = workflowId ∧ r.kind = .deleted ∧ r.referenced = false)

/-- `SELECT COALESCE(MAX(version),0)+1 ...`. -/
def nextNumber : ℤ :=
  maxOr ((s.rows.filter fun r => r.IsVersion workflowId).filterMap (·.version)) + 1

/-- `publish`, at the time `now`: the canvas edges of the draft are not passed on. -/
def publish [PyLib] (now : String) : Except PyError (WorkflowVersion × SQLiteStore) := do
  let draft ← s.getDraft workflowId
  let number ← sqlInt (s.nextNumber workflowId)
  let version : WorkflowVersion := {
    workflowId := workflowId
    version := .int number
    name := draft.name
    inputs := draft.inputs
    nodes := draft.nodes
    edges := draft.edges
    publishedAt := .str now
    description := draft.description
    outputs := draft.outputs }
  return (version,
    ⟨s.rows ++ [⟨workflowId, some number, .published, false, version.toDict⟩]⟩)

/-- `mark_referenced`. -/
def markReferenced [PyLib] (version : VersionRef) : Except PyError SQLiteStore := do
  let number ← sqlInt (← version.toInt)
  if ∃ r ∈ s.rows, r.IsPublished workflowId ∧ r.version = some number then
    return s.update (fun r => r.IsPublished workflowId ∧ r.version = some number)
      fun r => { r with referenced := true }
  else throw (versionNotFound workflowId version)

/-- `ORDER BY version`. -/
def byVersion (rows : List DefinitionRow) : List DefinitionRow :=
  rows.mergeSort fun a b => a.version.getD 0 ≤ b.version.getD 0

/-- The versions that the payloads of some rows hold. -/
def readVersions [PyLib] (rows : List DefinitionRow) : Except PyError (List WorkflowVersion) :=
  rows.mapM fun r => WorkflowVersion.fromDict r.payload

/-- `list_versions`. -/
def listVersions [PyLib] : Except PyError (List WorkflowVersion) :=
  readVersions (byVersion (s.rows.filter fun r => r.IsPublished workflowId))

/-- `is_referenced`. -/
def isReferenced [PyLib] (version : VersionRef) : Except PyError Bool := do
  let number ← sqlInt (← version.toInt)
  match s.publishedRow workflowId number with
  | none => throw (versionNotFound workflowId version)
  | some row => return row.referenced

/-- `referenced_versions`. -/
def referencedVersions : Finset ℤ :=
  ((s.rows.filter fun r => r.IsPublished workflowId ∧ r.referenced).filterMap (·.version)).toFinset

/-- No published version of the workflow of a row has a greater number. -/
def IsLatest (r : DefinitionRow) : Prop :=
  ∀ q ∈ s.rows, q.IsPublished r.workflowId → q.version.getD 0 ≤ r.version.getD 0

instance (r : DefinitionRow) : Decidable (s.IsLatest r) :=
  inferInstanceAs (Decidable (∀ q ∈ s.rows, _ → _))

/-- The rows that `list_published` orders. -/
def published (latestOnly : Bool) : List DefinitionRow :=
  s.rows.filter fun r =>
    r.kind = .published ∧ s.HasDraft r.workflowId ∧ (latestOnly = true → s.IsLatest r)

/-- `list_published`: `ORDER BY rowid DESC LIMIT ?`. -/
def listPublished [PyLib] (latestOnly : Bool) (limit : ℤ) :
    Except PyError (List WorkflowVersion) := do
  let limit ← sqlInt (max 0 limit)
  readVersions ((s.published latestOnly).reverse.take limit.toNat)

end SQLiteStore

/-! ## Calls -/

/-- A call of a store, with the times at which either one publishes. -/
inductive StoreCall where
  | create (draft : WorkflowDraft)
  | save (draft : WorkflowDraft)
  | get (workflowId : String) (version : VersionRef)
  | list (limit : ℤ)
  | delete (workflowId : String) (version : VersionRef)
  | deletePreservingReferences (workflowId : String)
  | publish (workflowId memoryNow sqliteNow : String)
  | listVersions (workflowId : String)
  | isReferenced (workflowId : String) (version : VersionRef)
  | referencedVersions (workflowId : String)
  | listPublished (latestOnly : Bool) (limit : ℤ)
  | markReferenced (workflowId : String) (version : VersionRef)

/-- What a call returns. -/
inductive StoreAnswer where
  | nothing
  | draft (d : WorkflowDraft)
  | version (v : WorkflowVersion)
  | drafts (ds : List WorkflowDraft)
  | versions (vs : List WorkflowVersion)
  | flag (b : Bool)
  | numbers (ns : Finset ℤ)

/-- The answer of the store in memory, and its next state. -/
def MemoryStore.call [PyLib] (m : MemoryStore) :
    StoreCall → Except PyError (StoreAnswer × MemoryStore)
  | .create draft => (m.create draft).map fun r => (.draft r.1, r.2)
  | .save draft => (m.save draft).map fun r => (.draft r.1, r.2)
  | .get workflowId version =>
    if version.isDraft then (m.getDraft workflowId).map fun d => (.draft d, m)
    else (m.getVersion workflowId version).map fun v => (.version v, m)
  | .list limit => .ok (.drafts (m.list limit), m)
  | .delete workflowId version =>
    if version.isDraft then (m.deleteDraft workflowId).map fun m' => (.nothing, m')
    else (m.deleteVersion workflowId version).map fun m' => (.nothing, m')
  | .deletePreservingReferences workflowId =>
    (m.deletePreservingReferences workflowId).map fun m' => (.nothing, m')
  | .publish workflowId now _ => (m.publish workflowId now).map fun r => (.version r.1, r.2)
  | .listVersions workflowId => .ok (.versions (m.listVersions workflowId), m)
  | .isReferenced workflowId version =>
    (m.isReferenced workflowId version).map fun b => (.flag b, m)
  | .referencedVersions workflowId => .ok (.numbers (m.referencedVersions workflowId), m)
  | .listPublished latestOnly limit =>
    (m.listPublished latestOnly limit).map fun vs => (.versions vs, m)
  | .markReferenced workflowId version =>
    (m.markReferenced workflowId version).map fun m' => (.nothing, m')

/-- The answer of the store in SQLite, and its next state. -/
def SQLiteStore.call [PyLib] (s : SQLiteStore) :
    StoreCall → Except PyError (StoreAnswer × SQLiteStore)
  | .create draft => (s.create draft).map fun r => (.draft r.1, r.2)
  | .save draft => (s.save draft).map fun r => (.draft r.1, r.2)
  | .get workflowId version =>
    if version.isDraft then (s.getDraft workflowId).map fun d => (.draft d, s)
    else (s.getVersion workflowId version).map fun v => (.version v, s)
  | .list limit => (s.list limit).map fun ds => (.drafts ds, s)
  | .delete workflowId version =>
    if version.isDraft then (s.deleteDraft workflowId).map fun s' => (.nothing, s')
    else (s.deleteVersion workflowId version).map fun s' => (.nothing, s')
  | .deletePreservingReferences workflowId =>
    (s.deletePreservingReferences workflowId).map fun s' => (.nothing, s')
  | .publish workflowId _ now => (s.publish workflowId now).map fun r => (.version r.1, r.2)
  | .listVersions workflowId => (s.listVersions workflowId).map fun vs => (.versions vs, s)
  | .isReferenced workflowId version =>
    (s.isReferenced workflowId version).map fun b => (.flag b, s)
  | .referencedVersions workflowId => .ok (.numbers (s.referencedVersions workflowId), s)
  | .listPublished latestOnly limit =>
    (s.listPublished latestOnly limit).map fun vs => (.versions vs, s)
  | .markReferenced workflowId version =>
    (s.markReferenced workflowId version).map fun s' => (.nothing, s')

/-- The state after a call: a call that raises leaves it as it was. -/
def stateAfter {σ : Type} (before : σ) (outcome : Except PyError (StoreAnswer × σ)) : σ :=
  match outcome with
  | .ok r => r.2
  | .error _ => before

/-- Both stores, which are given the same calls. -/
structure StorePair where
  memory : MemoryStore := {}
  sqlite : SQLiteStore := {}

/-- Both stores after a call. -/
def StorePair.step [PyLib] (p : StorePair) (c : StoreCall) : StorePair where
  memory := stateAfter p.memory (p.memory.call c)
  sqlite := stateAfter p.sqlite (p.sqlite.call c)

end DeviceShell.Studio
