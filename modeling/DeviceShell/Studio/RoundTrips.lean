import DeviceShell.Studio.StoreMirror

/-!
# Drafts and versions through their dictionaries

A draft or a version is written to a dictionary whenever it is stored in SQLite, and a version also
when it is restored as a draft. What comes back is what was written, less the constraints and the
hints of its outputs, which `WorkflowOutput.to_dict` leaves out although `from_dict` reads them and
`WorkflowInput.to_dict` writes its own. So nothing is lost exactly when no output has any
(`losesNoField_iff`).
-/

namespace DeviceShell.Studio

/-! ## Versions -/

/-- A version whose dictionary holds all of it. -/
def WorkflowVersion.Plain (version : WorkflowVersion) : Prop := ∀ item ∈ version.outputs, item.Plain

/-- A version that is read back as it was written. -/
theorem WorkflowVersion.stripped_eq_iff (version : WorkflowVersion) :
    version.stripped = version ↔ version.Plain := by
  rw [WorkflowVersion.Plain, ← map_stripped_eq_iff]
  obtain ⟨_, _, _, _, _, _, _, _, _, _⟩ := version
  simp [WorkflowVersion.stripped]

variable [PyLib]

/-- A version is read back as it was written exactly when its outputs have no constraints and no
hints. -/
theorem WorkflowVersion.fromDict_toDict_iff (version : WorkflowVersion) :
    WorkflowVersion.fromDict version.toDict = .ok version ↔ version.Plain := by
  rw [WorkflowVersion.fromDict_toDict, ← WorkflowVersion.stripped_eq_iff]
  constructor
  · exact Except.ok.inj
  · exact congrArg Except.ok

/-! ## Restoring -/

/-- The draft that `restore_workflow_version` reads from a version. -/
def restoredDraft (version : WorkflowVersion) (workflowId : String) :
    Except PyError WorkflowDraft :=
  WorkflowDraft.fromDict (((version.toDict.set "id" (.str workflowId)).set "version"
    (.str "draft")).set "status" (.str "draft"))

/-- A version as a draft, with all its fields. -/
def WorkflowVersion.asDraft (version : WorkflowVersion) (workflowId : String) : WorkflowDraft where
  id := workflowId
  name := version.name
  description := version.description
  inputs := version.inputs
  nodes := version.nodes
  edges := version.edges
  outputs := version.outputs
  canvasEdges := version.canvasEdges

/-- A version is restored with its outputs stripped. -/
theorem restoredDraft_eq (version : WorkflowVersion) (workflowId : String) :
    restoredDraft version workflowId = .ok (version.asDraft workflowId).stripped := by
  unfold restoredDraft
  generalize hpayload : ((version.toDict.set "id" (.str workflowId)).set "version"
    (.str "draft")).set "status" (.str "draft") = payload
  have hcanvas : canvasEdgesOf payload = .ok version.canvasEdges :=
    canvasEdgesOf_of_get? (hpayload ▸ rfl)
  have hinputs : readItems payload "inputs" WorkflowInput.fromDict = .ok version.inputs :=
    readItems_same WorkflowInput.fromDict_toDict (hpayload ▸ rfl)
  have hnodes : readItems payload "nodes" WorkflowNode.fromDict = .ok version.nodes :=
    readItems_same WorkflowNode.fromDict_toDict (hpayload ▸ rfl)
  have hedges : readItems payload "edges" (fun v => .ok (WorkflowEdge.fromDict v)) =
      .ok version.edges :=
    readItems_edges (hpayload ▸ rfl)
  have houtputs : readItems payload "outputs" WorkflowOutput.fromDict =
      .ok (version.outputs.map WorkflowOutput.stripped) :=
    readItems_of_get? WorkflowOutput.fromDict_toDict (hpayload ▸ rfl)
  unfold WorkflowDraft.fromDict
  rw [hcanvas, hinputs, hnodes, hedges, houtputs, ← hpayload]
  rfl

/-- A version is restored with all its fields exactly when its outputs have no constraints and no
hints. -/
theorem restoredDraft_eq_asDraft_iff (version : WorkflowVersion) (workflowId : String) :
    restoredDraft version workflowId = .ok (version.asDraft workflowId) ↔ version.Plain := by
  have hplain : (version.asDraft workflowId).Plain ↔ version.Plain := Iff.rfl
  rw [restoredDraft_eq, ← hplain, ← WorkflowDraft.stripped_eq_iff]
  constructor
  · exact Except.ok.inj
  · exact congrArg Except.ok

/-! ## Saving and loading -/

/-- A draft that was created is read from its dictionary. -/
theorem SQLiteStore.getDraft_create {s s' : SQLiteStore} {draft : WorkflowDraft}
    (h : s.create draft = .ok (draft, s')) :
    s'.getDraft draft.id = WorkflowDraft.fromDict draft.toDict := by
  unfold SQLiteStore.create at h
  split at h
  · cases h
  · rename_i hnone
    cases h
    have hfind : s.rows.find? (fun r => decide (r.IsDraft draft.id)) = none := by
      rw [List.find?_eq_none]
      intro r hr hdraft
      exact hnone ⟨r, hr, of_decide_eq_true hdraft⟩
    unfold SQLiteStore.getDraft
    rw [List.find?_append, hfind]
    simp [DefinitionRow.IsDraft]

/-- A draft that was saved is read from its dictionary. -/
theorem SQLiteStore.getDraft_save {s s' : SQLiteStore} {draft : WorkflowDraft}
    (h : s.save draft = .ok (draft, s')) :
    s'.getDraft draft.id = WorkflowDraft.fromDict draft.toDict := by
  unfold SQLiteStore.save at h
  split at h
  · rename_i hdraft
    cases h
    have hfind : ∃ r, s.rows.find? (fun r => decide (r.IsDraft draft.id)) = some r := by
      obtain ⟨r, hr, hisDraft⟩ := hdraft
      exact Option.isSome_iff_exists.mp (List.find?_isSome.mpr ⟨r, hr, decide_eq_true hisDraft⟩)
    obtain ⟨r, hr⟩ := hfind
    have hisDraft : r.IsDraft draft.id := by simpa using List.find?_some hr
    have hsame : ((fun r : DefinitionRow => decide (r.IsDraft draft.id)) ∘ fun r : DefinitionRow =>
        if r.IsDraft draft.id then { r with payload := draft.toDict } else r) =
        fun r => decide (r.IsDraft draft.id) := by
      funext q
      by_cases hq : q.IsDraft draft.id
      · have hkept : DefinitionRow.IsDraft { q with payload := draft.toDict } draft.id := hq
        simp [hq, hkept]
      · simp [hq]
    unfold SQLiteStore.getDraft SQLiteStore.update
    rw [List.find?_map, hsame, hr]
    simp [hisDraft]
  · cases h

omit [PyLib] in
/-- No row of a workflow has the number that is next. -/
theorem SQLiteStore.version_ne_nextNumber (s : SQLiteStore) {workflowId : String}
    {r : DefinitionRow} (hr : r ∈ s.rows) (hversion : r.IsVersion workflowId) :
    r.version ≠ some (s.nextNumber workflowId) := by
  intro h
  have hmem : s.nextNumber workflowId ∈
      (s.rows.filter fun r => r.IsVersion workflowId).filterMap (·.version) :=
    List.mem_filterMap.mpr ⟨r, List.mem_filter.mpr ⟨hr, decide_eq_true hversion⟩, h⟩
  have hle := le_maxOr hmem
  unfold SQLiteStore.nextNumber at hle
  omega

/-- A version that was published is read from its dictionary. -/
theorem SQLiteStore.getVersion_publish {s s' : SQLiteStore} {workflowId now : String}
    {version : WorkflowVersion} (h : s.publish workflowId now = .ok (version, s')) :
    ∃ number, version.version = .int number ∧
      s'.getVersion workflowId (.number number) = WorkflowVersion.fromDict version.toDict := by
  obtain ⟨draft, hdraft, h⟩ := Except.bind_eq_ok.mp h
  obtain ⟨number, hnumber, h⟩ := Except.bind_eq_ok.mp h
  have hnext : number = s.nextNumber workflowId := by
    unfold sqlInt at hnumber
    split at hnumber
    · exact (Except.ok.inj hnumber).symm
    · cases hnumber
  cases h
  refine ⟨number, rfl, ?_⟩
  have hint : sqlInt number = .ok number := by rw [hnext] at hnumber ⊢; exact hnumber
  have hfind : s.rows.find? (fun r => decide (r.IsPublished workflowId ∧ r.version = some number)) =
      none := by
    rw [List.find?_eq_none]
    intro r hr hrow
    obtain ⟨hpublished, hversion⟩ := of_decide_eq_true hrow
    exact s.version_ne_nextNumber hr ⟨hpublished.1, .inl hpublished.2⟩ (hnext ▸ hversion)
  unfold SQLiteStore.getVersion SQLiteStore.publishedRow VersionRef.toInt
  simp only [bind, Except.bind, hint]
  rw [List.find?_append, hfind]
  simp [DefinitionRow.IsPublished]

/-- What writing a draft and a version to their dictionaries is to keep. -/
structure LosesNoField (draft : WorkflowDraft) (version : WorkflowVersion) : Prop where
  draft_back : WorkflowDraft.fromDict draft.toDict = .ok draft
  version_back : WorkflowVersion.fromDict version.toDict = .ok version
  restored : ∀ workflowId, restoredDraft version workflowId = .ok (version.asDraft workflowId)
  saved : ∀ s s' : SQLiteStore, s.create draft = .ok (draft, s') ∨ s.save draft = .ok (draft, s') →
    s'.getDraft draft.id = .ok draft
  published : ∀ (s s' : SQLiteStore) (workflowId now : String),
    s.publish workflowId now = .ok (version, s') →
      ∃ number, version.version = .int number ∧
        s'.getVersion workflowId (.number number) = .ok version

/-- No field is lost exactly when no output has constraints or hints. -/
theorem losesNoField_iff (draft : WorkflowDraft) (version : WorkflowVersion) :
    LosesNoField draft version ↔ draft.Plain ∧ version.Plain := by
  constructor
  · intro h
    exact ⟨draft.fromDict_toDict_iff.mp h.draft_back,
      version.fromDict_toDict_iff.mp h.version_back⟩
  · rintro ⟨hdraft, hversion⟩
    have hback := draft.fromDict_toDict_iff.mpr hdraft
    have hversionBack := version.fromDict_toDict_iff.mpr hversion
    constructor
    case draft_back => exact hback
    case version_back => exact hversionBack
    case restored => exact fun w => (restoredDraft_eq_asDraft_iff version w).mpr hversion
    case saved =>
      rintro s s' (h | h)
      · rw [SQLiteStore.getDraft_create h, hback]
      · rw [SQLiteStore.getDraft_save h, hback]
    case published =>
      intro s s' workflowId now h
      obtain ⟨number, hnumber, hget⟩ := SQLiteStore.getVersion_publish h
      exact ⟨number, hnumber, hget.trans hversionBack⟩

/-- An output with a constraint. -/
def boundedOutput : WorkflowOutput :=
  .make "load" (.str "${probe.load}") "number" "" "text" "" "" "" "" "output"
    ⟨[("maximum", .int 100)]⟩ ∅

omit [PyLib] in
/-- The constraint of an output is lost. -/
theorem not_losesNoField_boundedOutput :
    let := PyLib.atEpoch
    ¬ LosesNoField { id := "w", name := "inspect", outputs := [boundedOutput] }
      { workflowId := "w", version := .int 1, name := "inspect" } := by
  intro _ h
  have hplain : ∀ item ∈ [boundedOutput], item.Plain :=
    (WorkflowDraft.fromDict_toDict_iff _).mp h.draft_back
  exact absurd hplain (by decide +kernel)

end DeviceShell.Studio
