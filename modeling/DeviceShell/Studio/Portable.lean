import DeviceShell.Studio.Validation

/-!
# Portable workflow documents

`export_document` and `from_document` of `application/workflow_studio/portable.py`. The import strips
the texts that it reads and wants the name, the ids and the actions not to be blank. The export
leaves out of a canvas edge what is false, where it leaves out of an edge only what is `None`.
`roundTrips_iff` says that an accepted draft comes back as it was exported, apart from its id, its
version and its status, exactly when neither makes a difference.
-/

namespace DeviceShell.Studio

/-- `FORMAT`. -/
def portableFormat : String := "device-tui.workflow"

/-- `SCHEMA_VERSION`. -/
def schemaVersion : ℤ := 2

/-- `SUPPORTED_SCHEMA_VERSIONS`. -/
def supportedSchemaVersions : List ℤ := [1, schemaVersion]

/-- `PortableWorkflow`. -/
structure PortableWorkflow where
  draft : WorkflowDraft
  requiredActions : List String
  warnings : List String := []

/-- A draft with the actions that it needs, each at its first place. -/
def portableWorkflow (draft : WorkflowDraft) : PortableWorkflow where
  draft := draft
  requiredActions := (draft.nodes.map (·.actionId)).reverse.dedup.reverse

/-! ## Exporting -/

/-- `retry` of a step. -/
def exportRetry (config : Dict String Value) : List (String × Value) :=
  (match config.get? "retry_attempts" with
    | some v => [("attempts", v)]
    | none => []) ++
  match config.get? "retry_backoff_seconds" with
    | some v => [("backoff_seconds", v)]
    | none => []

/-- A step of `export_document`. -/
def exportStep (node : WorkflowNode) : Dict String Value :=
  ⟨[("id", .str node.id), ("action", .str node.actionId)] ++
    optional "with" (node.config.entries ≠ []) (.ofDict node.config) ++
    optional "inputs" (node.inputMapping.entries ≠ []) (.ofDict node.inputMapping) ++
    optional "position" (node.position.entries ≠ []) (.ofDict (node.position.mapValues .float)) ++
    optional "retry" (exportRetry node.config ≠ []) (.dict (exportRetry node.config))⟩

/-- An edge of `export_document`. -/
def exportEdge (edge : WorkflowEdge) : Dict String Value :=
  ⟨[("from", .str edge.source), ("to", .str edge.target)] ++
    edge.toDict.entries.filter fun e => e.1 ∉ ["source", "target"]⟩

/-- A canvas edge of `export_document`. -/
def exportCanvasEdge (edge : WorkflowEdge) : Dict String Value :=
  ⟨[("from", .str edge.source), ("to", .str edge.target)] ++
    optional "condition" (edge.condition.truthy = true) edge.condition ++
    optional "source_handle" (edge.sourceHandle.truthy = true) edge.sourceHandle⟩

/-- `canvas_edges` of `export_document`. -/
def exportCanvas : Option (List WorkflowEdge) → Value
  | none => .none
  | some edges => dicts exportCanvasEdge edges

/-- `body` of `export_document`. -/
def exportBody (workflow : WorkflowDraft) : Dict String Value :=
  ⟨[("name", .str workflow.name), ("description", .str workflow.description),
    ("inputs", dicts WorkflowInput.toDict workflow.inputs),
    ("outputs", dicts WorkflowOutput.toDict workflow.outputs),
    ("steps", dicts exportStep workflow.nodes), ("edges", dicts exportEdge workflow.edges),
    ("canvas_edges", exportCanvas workflow.canvasEdges)]⟩

/-- `export_document`. -/
def exportDocument (workflow : WorkflowDraft) : Dict String Value :=
  ⟨[("format", .str portableFormat), ("schema_version", .int schemaVersion),
    ("workflow", .ofDict (exportBody workflow))]⟩

/-! ## Importing -/

/-- `raise PortableWorkflowError(message)`, a `ValueError`. -/
def notPortable {α : Type} (message : String) : Except PyError α := .error (.valueError message)

/-- `isinstance(values, (list, tuple))`. -/
def asItems (values : Value) (message : String) : Except PyError (List Value) :=
  match values with
  | .list items => .ok items
  | _ => notPortable message

/-- `isinstance(item, Mapping)`. -/
def asMapping (item : Value) (message : String) : Except PyError (Dict String Value) :=
  match item with
  | .dict entries => .ok ⟨entries⟩
  | _ => notPortable message

/-- A coordinate of a position; the code keeps a value that is not a number as it is. -/
def coordinate (e : String × Value) : Except PyError (String × PyFloat) :=
  match e.2.num? with
  | some x => .ok (e.1, x)
  | none => .error (.other "a position that is not a number")

/-- `dict(item.get("position") or {})`. -/
def positionOf (entries : Dict String Value) : Except PyError (Dict String PyFloat) := do
  return ⟨← entries.entries.mapM coordinate⟩

section

variable [PyLib]

/-- `str(item.get(key) or item.get(other) or "").strip()`. -/
def importText (item : Dict String Value) (key other : String) : String :=
  strip (Value.strOr (some (getTruthy item key (getOr item other .none))) "")

/-- The configuration of a step, with what `retry` says. -/
def importConfig (item : Dict String Value) : Except PyError (Dict String Value) := do
  let config ← getDictOf item "with" "config"
  match item.get? "retry" with
  | some (.dict retry) =>
    let config := match Dict.lookup "attempts" retry with
      | some v => config.set "retry_attempts" v
      | none => config
    return match Dict.lookup "backoff_seconds" retry with
      | some v => config.set "retry_backoff_seconds" v
      | none => config
  | _ => return config

/-- `_as_nodes`, with the ids that have been seen. -/
def importNodes (seen : List String) : List Value → Except PyError (List WorkflowNode)
  | [] => .ok []
  | item :: rest => do
    let item ← asMapping item "each workflow step must be an object"
    let nodeId := strip (Value.strOr (item.get? "id") "")
    let actionId := importText item "action" "action_id"
    if nodeId = "" ∨ actionId = "" then
      notPortable "each workflow step requires id and action"
    else if nodeId ∈ seen then notPortable ("duplicate workflow step id: " ++ nodeId)
    else do
      let config ← importConfig item
      let inputMapping ← getDictOf item "inputs" "input_mapping"
      let position ← positionOf (← getDict item "position")
      let nodes ← importNodes (nodeId :: seen) rest
      return { id := nodeId, actionId := actionId, config := config, inputMapping := inputMapping,
               position := position } :: nodes

/-- The edge that an item describes. -/
def importEdge (item : Dict String Value) : WorkflowEdge where
  source := importText item "from" "source"
  target := importText item "to" "target"
  condition := getOr item "condition" .none
  sourceHandle := getOr item "source_handle" .none

/-- An item of `_as_edges`. -/
def importLink (nodeIds : List String) (item : Value) : Except PyError WorkflowEdge := do
  let edge := importEdge (← asMapping item "each workflow edge must be an object")
  if edge.source ∉ nodeIds ∨ edge.target ∉ nodeIds then
    notPortable ("edge references an unknown step: " ++ edge.source ++ "->" ++ edge.target)
  else return edge

/-- `_as_edges`. -/
def importEdges (values : Value) (nodeIds : List String) : Except PyError (List WorkflowEdge) :=
  match values with
  | .none => .ok []
  | values => do (← asItems values "workflow.edges must be a list").mapM (importLink nodeIds)

/-- An item of `_as_canvas_edges`. -/
def importCanvasEdge (item : Value) : Except PyError WorkflowEdge := do
  return importEdge (← asMapping item "each workflow canvas edge must be an object")

/-- `_as_canvas_edges`. -/
def importCanvasEdges (values : Value) : Except PyError (Option (List WorkflowEdge)) :=
  match values with
  | .none => .ok none
  | values => do
    return some (← (← asItems values "workflow.canvas_edges must be a list").mapM importCanvasEdge)

/-- `_as_inputs` and `_as_outputs`. -/
def importItems {α : Type} (values : Value) (message : String)
    (fromDict : Dict String Value → Except PyError α) : Except PyError (List α) :=
  match values with
  | .none => .ok []
  | values => do ((← asItems values message).filterMap Value.asDict?).mapM fromDict

/-- `int(document.get("schema_version", 0))`. -/
def documentVersion (document : Dict String Value) : Except PyError ℤ :=
  match (getOr document "schema_version" (.int 0)).toInt with
  | .error (.typeError _) => notPortable "schema_version must be an integer"
  | .error (.valueError _) => notPortable "schema_version must be an integer"
  | version => version

/-- The draft that a body describes. -/
def importBody (body : Dict String Value) : Except PyError WorkflowDraft := do
  let steps ← asItems (getOr body "steps" (getOr body "nodes" .none)) "workflow.steps must be a list"
  let nodes ← importNodes [] steps
  let edges ← importEdges (getOr body "edges" .none) (nodes.map (·.id))
  let name := strip (Value.strOr (body.get? "name") "")
  if name = "" then notPortable "workflow.name is required"
  else do
    let inputs ← importItems (getOr body "inputs" .none) "workflow.inputs must be a list"
      WorkflowInput.fromDict
    let outputs ← importItems (getOr body "outputs" .none) "workflow.outputs must be a list"
      WorkflowOutput.fromDict
    let canvasEdges ← importCanvasEdges (getOr body "canvas_edges" .none)
    return {
      id := ""
      name := name
      description := Value.strOr (body.get? "description") ""
      inputs := inputs
      nodes := nodes
      edges := edges
      outputs := outputs
      canvasEdges := canvasEdges }

/-- `from_document`. -/
def fromDocument (document : Dict String Value) : Except PyError PortableWorkflow := do
  if (getOr document "format" .none).pyEq (.str portableFormat) = false then
    notPortable ("format must be " ++ portableFormat)
  else do
    let version ← documentVersion document
    if version ∉ supportedSchemaVersions then
      notPortable ("unsupported workflow schema_version: " ++ PyLib.repr (.int version))
    else do
      let body ← asMapping (getOr document "workflow" .none) "workflow is required"
      let draft ← importBody body
      return portableWorkflow draft

/-! ## What an exported document is read as -/

/-- A text as it is imported. -/
def Trimmed (s : String) : Prop := strip s = s ∧ s ≠ ""

/-- What is read of a node. -/
def importedNode (node : WorkflowNode) : WorkflowNode :=
  { node with id := strip node.id, actionId := strip node.actionId }

/-- What is read of an edge. -/
def importedEdge (edge : WorkflowEdge) : WorkflowEdge :=
  { edge with source := strip edge.source, target := strip edge.target }

/-- What is read of a value that is left out where it is false. -/
def truthyOr (v : Value) : Value := if v.truthy then v else .none

/-- What is read of a canvas edge. -/
def importedCanvasEdge (edge : WorkflowEdge) : WorkflowEdge :=
  { importedEdge edge with
    condition := truthyOr edge.condition
    sourceHandle := truthyOr edge.sourceHandle }

/-- What is read of an exported draft. -/
def imported (draft : WorkflowDraft) : WorkflowDraft where
  id := ""
  name := strip draft.name
  description := draft.description
  inputs := draft.inputs
  nodes := draft.nodes.map importedNode
  edges := draft.edges.map importedEdge
  outputs := draft.outputs.map WorkflowOutput.stripped
  canvasEdges := draft.canvasEdges.map fun edges => edges.map importedCanvasEdge

omit [PyLib] in
/-- A dictionary that is left out where it is empty. -/
theorem getDictOf_optional {entries : List (String × Value)} {key other : String}
    {d : Dict String Value}
    (h : Dict.lookup key entries = if d.entries ≠ [] then some (.ofDict d) else none)
    (hother : Dict.lookup other entries = none) : getDictOf ⟨entries⟩ key other = .ok d := by
  have hempty : getTruthy ⟨entries⟩ other (.dict []) = .dict [] := by
    simp [getTruthy, getOr_mk, hother, Value.truthy]
  unfold getDictOf
  rw [hempty]
  exact getDict_mk_optional h

/-- A text under the first of two keys. -/
theorem importText_of_get? {item : Dict String Value} {key other s : String}
    (h : item.get? key = some (.str s)) (hother : item.get? other = none) :
    importText item key other = strip s := by
  unfold importText getTruthy getOr
  rw [h, hother]
  by_cases hs : s = "" <;> simp [Value.strOr, Value.truthy, hs]

omit [PyLib] in
/-- The configuration of a step is read back: what `retry` says is there already. -/
theorem importConfig_exportStep (node : WorkflowNode) :
    importConfig (exportStep node) = .ok node.config := by
  have hconfig : getDictOf (exportStep node) "with" "config" = .ok node.config :=
    getDictOf_optional (by simp [lookup_append, lookup_optional, Dict.lookup])
      (by simp [lookup_append, lookup_optional, Dict.lookup])
  have hretry : (exportStep node).get? "retry" =
      if exportRetry node.config ≠ [] then some (.dict (exportRetry node.config)) else none := by
    simp [Dict.get?, exportStep, lookup_append, lookup_optional, Dict.lookup]
  unfold importConfig
  rw [hconfig, hretry]
  simp only [bind, Except.bind, pure, Except.pure]
  cases hattempts : node.config.get? "retry_attempts" with
  | none => cases hbackoff : node.config.get? "retry_backoff_seconds" with
    | none => simp [exportRetry, hattempts, hbackoff]
    | some v => simp [exportRetry, hattempts, hbackoff, Dict.lookup, Dict.set_of_get? hbackoff]
  | some v => cases hbackoff : node.config.get? "retry_backoff_seconds" with
    | none => simp [exportRetry, hattempts, hbackoff, Dict.lookup, Dict.set_of_get? hattempts]
    | some w =>
      simp [exportRetry, hattempts, hbackoff, Dict.lookup, Dict.set_of_get? hattempts,
        Dict.set_of_get? hbackoff]

omit [PyLib] in
theorem positionOf_mapValues (position : Dict String PyFloat) :
    positionOf (position.mapValues .float) = .ok position := by
  have hnumbers : (position.mapValues Value.float).entries.mapM coordinate =
      .ok position.entries := by
    refine Except.mapM_eq_ok.2 ?_
    unfold Dict.mapValues
    generalize position.entries = entries
    induction entries with
    | nil => exact .nil
    | cons e rest ih => exact .cons rfl ih
  unfold positionOf
  rw [hnumbers]
  rfl

/-- A step is read as its node with the texts stripped, if they are not blank and the id is new. -/
theorem importNodes_cons (seen : List String) (node : WorkflowNode) (rest : List Value) :
    importNodes seen (.ofDict (exportStep node) :: rest) =
      if strip node.id = "" ∨ strip node.actionId = "" then
        notPortable "each workflow step requires id and action"
      else if strip node.id ∈ seen then
        notPortable ("duplicate workflow step id: " ++ strip node.id)
      else do return importedNode node :: (← importNodes (strip node.id :: seen) rest) := by
  have hid : strip (Value.strOr ((exportStep node).get? "id") "") = strip node.id := by
    show strip (Value.strOr (some (.str node.id)) "") = strip node.id
    by_cases hs : node.id = "" <;> simp [Value.strOr, Value.truthy, hs]
  have haction : importText (exportStep node) "action" "action_id" = strip node.actionId :=
    importText_of_get? rfl (by simp [Dict.get?, exportStep, lookup_append, lookup_optional, Dict.lookup])
  have hmapping : getDictOf (exportStep node) "inputs" "input_mapping" = .ok node.inputMapping :=
    getDictOf_optional (by simp [lookup_append, lookup_optional, Dict.lookup])
      (by simp [lookup_append, lookup_optional, Dict.lookup])
  have hposition : getDict (exportStep node) "position" =
      .ok (node.position.mapValues .float) :=
    getDict_mk_optional (by simp [lookup_append, lookup_optional, Dict.lookup, Dict.mapValues])
  have hmap : asMapping (.ofDict (exportStep node)) "each workflow step must be an object" =
      .ok (exportStep node) := rfl
  rw [importNodes, hmap]
  simp only [bind, Except.bind]
  rw [hid, haction, importConfig_exportStep, hmapping, hposition]
  simp only [positionOf_mapValues]
  split
  · rfl
  · split
    · rfl
    · rfl

/-- What is read of the steps, if anything is: no text of a node is blank. -/
theorem importNodes_eq_ok {seen : List String} {nodes read : List WorkflowNode}
    (h : importNodes seen ((nodes.map exportStep).map .ofDict) = .ok read) :
    read = nodes.map importedNode ∧
      ∀ node ∈ nodes, strip node.id ≠ "" ∧ strip node.actionId ≠ "" := by
  induction nodes generalizing seen read with
  | nil =>
    obtain rfl := Except.ok.inj h
    exact ⟨rfl, by simp⟩
  | cons node rest ih =>
    rw [List.map_cons, List.map_cons, importNodes_cons] at h
    split at h
    · exact absurd h (by simp [notPortable])
    · rename_i hblank
      rw [not_or] at hblank
      split at h
      · exact absurd h (by simp [notPortable])
      · obtain ⟨others, hothers, hread⟩ := Except.bind_eq_ok.mp h
        obtain rfl := Except.ok.inj hread
        obtain ⟨rfl, hrest⟩ := ih hothers
        refine ⟨rfl, ?_⟩
        intro other hmem
        rcases List.mem_cons.1 hmem with rfl | hmem
        · exact hblank
        · exact hrest other hmem

/-- Nodes with trimmed texts and different ids are read. -/
theorem importNodes_exported {seen : List String} {nodes : List WorkflowNode}
    (htrimmed : ∀ node ∈ nodes, Trimmed node.id ∧ Trimmed node.actionId)
    (hnodup : (nodes.map (·.id)).Nodup) (hnew : ∀ node ∈ nodes, node.id ∉ seen) :
    importNodes seen ((nodes.map exportStep).map .ofDict) = .ok (nodes.map importedNode) := by
  induction nodes generalizing seen with
  | nil => rfl
  | cons node rest ih =>
    obtain ⟨hid, haction⟩ := htrimmed node List.mem_cons_self
    obtain ⟨hother, hrest⟩ := List.nodup_cons.1 hnodup
    have hunseen : ∀ other ∈ rest, other.id ∉ node.id :: seen := by
      intro other hmem hseen
      rcases List.mem_cons.1 hseen with heq | hseen
      · exact hother (List.mem_map.2 ⟨other, hmem, heq⟩)
      · exact hnew other (List.mem_cons_of_mem _ hmem) hseen
    have hnotBlank : ¬(strip node.id = "" ∨ strip node.actionId = "") := by
      rw [hid.1, haction.1, not_or]
      exact ⟨hid.2, haction.2⟩
    have htail := ih (fun other hmem => htrimmed other (List.mem_cons_of_mem _ hmem)) hrest hunseen
    rw [List.map_cons, List.map_cons, importNodes_cons, if_neg hnotBlank, hid.1,
      if_neg (hnew node List.mem_cons_self), htail]
    rfl

/-- An exported edge is read with its ends stripped. -/
theorem importEdge_exportEdge (edge : WorkflowEdge) :
    importEdge (exportEdge edge) = importedEdge edge := by
  obtain ⟨source, target, condition, sourceHandle⟩ := edge
  have hsource : importText (exportEdge ⟨source, target, condition, sourceHandle⟩) "from" "source" =
      strip source := by
    refine importText_of_get? rfl ?_
    cases condition <;> cases sourceHandle <;> rfl
  have htarget : importText (exportEdge ⟨source, target, condition, sourceHandle⟩) "to" "target" =
      strip target := by
    refine importText_of_get? rfl ?_
    cases condition <;> cases sourceHandle <;> rfl
  have hcondition : getOr (exportEdge ⟨source, target, condition, sourceHandle⟩) "condition" .none =
      condition := by
    cases condition <;> cases sourceHandle <;> rfl
  have hhandle : getOr (exportEdge ⟨source, target, condition, sourceHandle⟩) "source_handle" .none =
      sourceHandle := by
    cases condition <;> cases sourceHandle <;> rfl
  unfold importEdge
  rw [hsource, htarget, hcondition, hhandle]
  rfl

/-- An exported canvas edge is read without what is false. -/
theorem importEdge_exportCanvasEdge (edge : WorkflowEdge) :
    importEdge (exportCanvasEdge edge) = importedCanvasEdge edge := by
  have hsource : importText (exportCanvasEdge edge) "from" "source" = strip edge.source :=
    importText_of_get? rfl (by simp [Dict.get?, exportCanvasEdge, lookup_append, lookup_optional,
      Dict.lookup])
  have htarget : importText (exportCanvasEdge edge) "to" "target" = strip edge.target :=
    importText_of_get? rfl (by simp [Dict.get?, exportCanvasEdge, lookup_append, lookup_optional,
      Dict.lookup])
  have hcondition : getOr (exportCanvasEdge edge) "condition" .none = truthyOr edge.condition := by
    unfold exportCanvasEdge truthyOr
    rw [getOr_mk, lookup_append, lookup_append, lookup_optional, lookup_optional]
    by_cases h : edge.condition.truthy = true <;> simp [Dict.lookup, h]
  have hhandle : getOr (exportCanvasEdge edge) "source_handle" .none =
      truthyOr edge.sourceHandle := by
    unfold exportCanvasEdge truthyOr
    rw [getOr_mk, lookup_append, lookup_append, lookup_optional, lookup_optional]
    by_cases h : edge.sourceHandle.truthy = true <;> simp [Dict.lookup, h]
  unfold importEdge
  rw [hsource, htarget, hcondition, hhandle]
  rfl

omit [PyLib] in
/-- The items of a list are read one by one. -/
theorem mapM_dicts {α β : Type} {toDict : α → Dict String Value} {read : Value → Except PyError β}
    {back : α → β} {items : List α} (h : ∀ a ∈ items, read (.ofDict (toDict a)) = .ok (back a)) :
    ((items.map toDict).map Value.ofDict).mapM read = .ok (items.map back) := by
  refine Except.mapM_eq_ok.2 ?_
  rw [List.forall₂_map_left_iff, List.forall₂_map_left_iff, List.forall₂_map_right_iff,
    List.forall₂_same]
  exact h

theorem importLink_exportEdge (nodeIds : List String) (edge : WorkflowEdge) :
    importLink nodeIds (.ofDict (exportEdge edge)) =
      if strip edge.source ∉ nodeIds ∨ strip edge.target ∉ nodeIds then
        notPortable ("edge references an unknown step: " ++ strip edge.source ++ "->" ++
          strip edge.target)
      else .ok (importedEdge edge) := by
  show (if (importEdge (exportEdge edge)).source ∉ nodeIds ∨ _ then _ else _) = _
  rw [importEdge_exportEdge]
  rfl

/-- What is read of the edges, if anything is. -/
theorem importEdges_eq_ok {edges read : List WorkflowEdge} {nodeIds : List String}
    (h : importEdges (dicts exportEdge edges) nodeIds = .ok read) :
    read = edges.map importedEdge := by
  have heach : ∀ edge ∈ edges, importLink nodeIds (.ofDict (exportEdge edge)) =
      .ok (importedEdge edge) := by
    intro edge hedge
    obtain ⟨found, hfound⟩ := Except.ok_of_mem_mapM h
      (List.mem_map_of_mem (f := Value.ofDict) (List.mem_map_of_mem (f := exportEdge) hedge))
    rw [importLink_exportEdge] at hfound ⊢
    split at hfound
    · exact absurd hfound (by simp [notPortable])
    · rename_i hknown
      rw [if_neg hknown]
  exact Except.ok.inj (h.symm.trans (mapM_dicts heach))

/-- Edges between known nodes are read. -/
theorem importEdges_exported {edges : List WorkflowEdge} {nodeIds : List String}
    (h : ∀ edge ∈ edges, strip edge.source ∈ nodeIds ∧ strip edge.target ∈ nodeIds) :
    importEdges (dicts exportEdge edges) nodeIds = .ok (edges.map importedEdge) := by
  refine mapM_dicts fun edge hedge => ?_
  obtain ⟨hsource, htarget⟩ := h edge hedge
  rw [importLink_exportEdge, if_neg (by simp [hsource, htarget])]

/-- Canvas edges are always read. -/
theorem importCanvasEdges_exported (edges : Option (List WorkflowEdge)) :
    importCanvasEdges (exportCanvas edges) =
      .ok (edges.map fun edges => edges.map importedCanvasEdge) := by
  cases edges with
  | none => rfl
  | some edges =>
    have hread : ((edges.map exportCanvasEdge).map Value.ofDict).mapM importCanvasEdge =
        .ok (edges.map importedCanvasEdge) :=
      mapM_dicts fun edge _ => congrArg Except.ok (importEdge_exportCanvasEdge edge)
    show (do return some (← ((edges.map exportCanvasEdge).map Value.ofDict).mapM
      importCanvasEdge) : Except PyError (Option (List WorkflowEdge))) = _
    rw [hread]
    rfl

omit [PyLib] in
/-- Inputs and outputs are read from their dictionaries. -/
theorem importItems_exported {α : Type} {toDict : α → Dict String Value}
    {fromDict : Dict String Value → Except PyError α} {back : α → α}
    (hback : ∀ a, fromDict (toDict a) = .ok (back a)) (items : List α) (message : String) :
    importItems (dicts toDict items) message fromDict = .ok (items.map back) := by
  have hmappings : ((items.map toDict).map Value.ofDict).filterMap Value.asDict? =
      items.map toDict := by
    rw [List.filterMap_map]
    exact List.filterMap_some
  show (((items.map toDict).map Value.ofDict).filterMap Value.asDict?).mapM fromDict = _
  rw [hmappings]
  refine Except.mapM_eq_ok.2 ?_
  rw [List.forall₂_map_left_iff, List.forall₂_map_right_iff, List.forall₂_same]
  exact fun a _ => hback a

/-! ## What comes back -/

/-- The name of an exported body. -/
theorem importName (draft : WorkflowDraft) :
    strip (Value.strOr ((exportBody draft).get? "name") "") = strip draft.name := by
  show strip (Value.strOr (some (.str draft.name)) "") = _
  by_cases hs : draft.name = "" <;> simp [Value.strOr, Value.truthy, hs]

theorem importDescription (draft : WorkflowDraft) :
    Value.strOr ((exportBody draft).get? "description") "" = draft.description := by
  show Value.strOr (some (.str draft.description)) "" = _
  by_cases hs : draft.description = "" <;> simp [Value.strOr, Value.truthy, hs]

/-- The rest of an exported body is read once its nodes and edges are. -/
theorem importBody_exported {draft : WorkflowDraft} {nodes : List WorkflowNode}
    (hnodes : importNodes [] ((draft.nodes.map exportStep).map .ofDict) = .ok nodes) :
    importBody (exportBody draft) = (do
      let edges ← importEdges (dicts exportEdge draft.edges) (nodes.map (·.id))
      if strip draft.name = "" then notPortable "workflow.name is required"
      else return { imported draft with nodes := nodes, edges := edges }) := by
  have hback : ∀ input : WorkflowInput, WorkflowInput.fromDict input.toDict = .ok (id input) :=
    WorkflowInput.fromDict_toDict
  have hinputs := importItems_exported hback draft.inputs "workflow.inputs must be a list"
  have houtputs := importItems_exported WorkflowOutput.fromDict_toDict draft.outputs
    "workflow.outputs must be a list"
  have hcanvas := importCanvasEdges_exported draft.canvasEdges
  rw [List.map_id] at hinputs
  unfold importBody
  rw [importName, importDescription]
  show (do
    let nodes ← importNodes [] ((draft.nodes.map exportStep).map .ofDict)
    let edges ← importEdges (dicts exportEdge draft.edges) (nodes.map (·.id))
    if strip draft.name = "" then notPortable "workflow.name is required"
    else do
      let inputs ← importItems (dicts WorkflowInput.toDict draft.inputs)
        "workflow.inputs must be a list" WorkflowInput.fromDict
      let outputs ← importItems (dicts WorkflowOutput.toDict draft.outputs)
        "workflow.outputs must be a list" WorkflowOutput.fromDict
      let canvasEdges ← importCanvasEdges (exportCanvas draft.canvasEdges)
      return {
        id := ""
        name := strip draft.name
        description := draft.description
        inputs := inputs
        nodes := nodes
        edges := edges
        outputs := outputs
        canvasEdges := canvasEdges } : Except PyError WorkflowDraft) = _
  rw [hnodes, hinputs, houtputs, hcanvas]
  rfl

/-- What is read of an exported body, if anything is: the name and the texts of the nodes are not
blank. -/
theorem importBody_eq_ok {draft read : WorkflowDraft}
    (h : importBody (exportBody draft) = .ok read) :
    read = imported draft ∧ strip draft.name ≠ "" ∧
      ∀ node ∈ draft.nodes, strip node.id ≠ "" ∧ strip node.actionId ≠ "" := by
  obtain ⟨steps, hsteps, hrest⟩ := Except.bind_eq_ok.mp h
  have hexported : steps = (draft.nodes.map exportStep).map .ofDict := (Except.ok.inj hsteps).symm
  subst hexported
  obtain ⟨nodes, hnodes, -⟩ := Except.bind_eq_ok.mp hrest
  obtain ⟨rfl, hblank⟩ := importNodes_eq_ok hnodes
  rw [importBody_exported hnodes] at h
  obtain ⟨edges, hedges, hread⟩ := Except.bind_eq_ok.mp h
  obtain rfl := importEdges_eq_ok hedges
  split at hread
  · exact absurd hread (by simp [notPortable])
  · rename_i hname
    exact ⟨(Except.ok.inj hread).symm, hname, hblank⟩

/-- The document around an exported body. -/
theorem fromDocument_exportDocument (draft : WorkflowDraft) :
    fromDocument (exportDocument draft) = (do
      return portableWorkflow (← importBody (exportBody draft))) := by
  have hformat : (getOr (exportDocument draft) "format" .none).pyEq (.str portableFormat) = true := by
    show (Value.str portableFormat).pyEq (.str portableFormat) = true
    simp [Value.pyEq]
  unfold fromDocument
  rw [if_neg (by simp [hformat])]
  rfl

omit [PyLib] in
/-- What `to_dict` holds apart from the id, the version and the status. -/
def WorkflowDraft.content (draft : WorkflowDraft) : Dict String Value :=
  ((draft.toDict.erase "id").erase "version").erase "status"

/-- What an accepted draft needs to be imported as it was exported: its name and the ids and actions
of its nodes are not blank and have no space around them, no end of a canvas edge has, and a canvas
edge has no condition or handle that is false but not `None`. -/
structure Portable (draft : WorkflowDraft) : Prop where
  name : Trimmed draft.name
  nodes : ∀ node ∈ draft.nodes, Trimmed node.id ∧ Trimmed node.actionId
  canvas : ∀ edges, draft.canvasEdges = some edges → ∀ edge ∈ edges,
    (strip edge.source = edge.source ∧ strip edge.target = edge.target) ∧
      (isNone edge.condition ∨ edge.condition.truthy) ∧
        (isNone edge.sourceHandle ∨ edge.sourceHandle.truthy)

/-- The document that a draft is exported to is imported as the draft, apart from its id, its version
and its status. -/
def RoundTrips (draft : WorkflowDraft) : Prop :=
  ∃ portable, fromDocument (exportDocument draft) = .ok portable ∧
    portable.draft.content = draft.content

omit [PyLib] in
theorem truthyOr_eq_iff (v : Value) : truthyOr v = v ↔ isNone v ∨ v.truthy := by
  unfold truthyOr
  by_cases hv : v.truthy = true
  · simp [hv]
  · cases v <;> simp_all [isNone]

omit [PyLib] in
theorem importedNode_eq_iff (node : WorkflowNode) :
    importedNode node = node ↔ strip node.id = node.id ∧ strip node.actionId = node.actionId := by
  obtain ⟨_, _, _, _, _⟩ := node
  simp [importedNode]

omit [PyLib] in
theorem importedEdge_eq_iff (edge : WorkflowEdge) :
    importedEdge edge = edge ↔ strip edge.source = edge.source ∧ strip edge.target = edge.target := by
  obtain ⟨_, _, _, _⟩ := edge
  simp [importedEdge]

omit [PyLib] in
theorem importedCanvasEdge_eq_iff (edge : WorkflowEdge) :
    importedCanvasEdge edge = edge ↔
      (strip edge.source = edge.source ∧ strip edge.target = edge.target) ∧
        (isNone edge.condition ∨ edge.condition.truthy) ∧
          (isNone edge.sourceHandle ∨ edge.sourceHandle.truthy) := by
  rw [← truthyOr_eq_iff, ← truthyOr_eq_iff]
  obtain ⟨_, _, _, _⟩ := edge
  simp [importedCanvasEdge, importedEdge, and_assoc]

omit [PyLib] in
/-- A list whose items are all read as they are. -/
theorem map_eq_self_iff {α : Type} {f : α → α} {items : List α} :
    items.map f = items ↔ ∀ a ∈ items, f a = a := by
  induction items with
  | nil => simp
  | cons a rest ih => simp [ih]

omit [PyLib] in
/-- Dictionaries that are read back tell the items of a list apart. -/
theorem dicts_injective {α : Type} {toDict : α → Dict String Value}
    {fromDict : Dict String Value → Except PyError α} (hback : ∀ a, fromDict (toDict a) = .ok a)
    {items others : List α} (h : dicts toDict items = dicts toDict others) : items = others := by
  have hsame : ∀ a, fromDict (toDict a) = .ok (id a) := hback
  have hread := importItems_exported hsame items ""
  have hother := importItems_exported hsame others ""
  rw [List.map_id] at hread hother
  exact Except.ok.inj (hread.symm.trans (h ▸ hother))

/-- What the content of a draft tells. -/
theorem content_eq {draft other : WorkflowDraft} (h : draft.content = other.content) :
    draft.name = other.name ∧ draft.nodes = other.nodes ∧ draft.canvasEdges = other.canvasEdges := by
  have hname : some (Value.str draft.name) = some (Value.str other.name) :=
    congrArg (fun d : Dict String Value => d.get? "name") h
  have hnodes : some (dicts WorkflowNode.toDict draft.nodes) =
      some (dicts WorkflowNode.toDict other.nodes) :=
    congrArg (fun d : Dict String Value => d.get? "nodes") h
  have hcanvas : some (canvasDicts draft.canvasEdges) = some (canvasDicts other.canvasEdges) :=
    congrArg (fun d : Dict String Value => d.get? "canvas_edges") h
  refine ⟨Value.str.inj (Option.some.inj hname), dicts_injective WorkflowNode.fromDict_toDict
    (Option.some.inj hnodes), ?_⟩
  have hread : canvasEdgesOf ⟨[("canvas_edges", canvasDicts draft.canvasEdges)]⟩ =
      .ok draft.canvasEdges := canvasEdgesOf_of_get? rfl
  rw [Option.some.inj hcanvas, canvasEdgesOf_of_get? rfl] at hread
  exact (Except.ok.inj hread).symm

variable {rules : NodeRules} {draft : WorkflowDraft}

/-- What comes back as it was exported. -/
theorem RoundTrips.portable (h : RoundTrips draft) : Portable draft := by
  obtain ⟨portable, hread, hcontent⟩ := h
  rw [fromDocument_exportDocument] at hread
  obtain ⟨read, hbody, hportable⟩ := Except.bind_eq_ok.mp hread
  obtain rfl := Except.ok.inj hportable
  obtain ⟨rfl, hname, hblank⟩ := importBody_eq_ok hbody
  obtain ⟨hsameName, hsameNodes, hsameCanvas⟩ := content_eq hcontent
  constructor
  case name => exact ⟨hsameName, hsameName ▸ hname⟩
  case nodes =>
    intro node hnode
    have hsame := map_eq_self_iff.1 hsameNodes node hnode
    obtain ⟨hid, haction⟩ := (importedNode_eq_iff node).1 hsame
    obtain ⟨hidBlank, hactionBlank⟩ := hblank node hnode
    exact ⟨⟨hid, hid ▸ hidBlank⟩, haction, haction ▸ hactionBlank⟩
  case canvas =>
    intro edges hedges edge hedge
    have hsame : edges.map importedCanvasEdge = edges := by
      simpa [portableWorkflow, imported, hedges] using hsameCanvas
    exact (importedCanvasEdge_eq_iff edge).1 (map_eq_self_iff.1 hsame edge hedge)

/-- What an accepted draft needs is enough. -/
theorem Portable.roundTrips (h : Portable draft) (haccepted : validateWorkflow rules draft = []) :
    RoundTrips draft := by
  have hnodes : draft.nodes.map importedNode = draft.nodes :=
    map_eq_self_iff.2 fun node hnode =>
      (importedNode_eq_iff node).2 ⟨(h.nodes node hnode).1.1, (h.nodes node hnode).2.1⟩
  have hids : ∀ id ∈ draft.nodeIds, strip id = id := by
    intro id hid
    obtain ⟨node, hnode, rfl⟩ := List.mem_map.1 hid
    exact (h.nodes node hnode).1.1
  have hends : ∀ edge ∈ draft.edges, strip edge.source = edge.source ∧
      strip edge.target = edge.target := by
    intro edge hedge
    obtain ⟨hsource, htarget⟩ := linked_of_mem haccepted hedge
    exact ⟨hids _ hsource, hids _ htarget⟩
  have hedges : draft.edges.map importedEdge = draft.edges :=
    map_eq_self_iff.2 fun edge hedge => (importedEdge_eq_iff edge).2 (hends edge hedge)
  have hcanvas : (draft.canvasEdges.map fun edges => edges.map importedCanvasEdge) =
      draft.canvasEdges := by
    cases hsome : draft.canvasEdges with
    | none => rfl
    | some edges =>
      have hsame : edges.map importedCanvasEdge = edges :=
        map_eq_self_iff.2 fun edge hedge =>
          (importedCanvasEdge_eq_iff edge).2 (h.canvas edges hsome edge hedge)
      rw [Option.map_some, hsame]
  have hnew : ∀ node ∈ draft.nodes, node.id ∉ ([] : List String) := fun node _ => by simp
  have hreadNodes := importNodes_exported h.nodes (nodup_nodeIds haccepted) hnew
  have hreadEdges : importEdges (dicts exportEdge draft.edges)
      ((draft.nodes.map importedNode).map (·.id)) = .ok (draft.edges.map importedEdge) := by
    refine importEdges_exported fun edge hedge => ?_
    obtain ⟨hsource, htarget⟩ := linked_of_mem haccepted hedge
    rw [hnodes, (hends edge hedge).1, (hends edge hedge).2]
    exact ⟨hsource, htarget⟩
  have hname : strip draft.name ≠ "" := h.name.1.symm ▸ h.name.2
  refine ⟨portableWorkflow (imported draft), ?_, ?_⟩
  · rw [fromDocument_exportDocument, importBody_exported hreadNodes, hreadEdges]
    simp only [bind, Except.bind, if_neg hname]
    rfl
  · have hstripped : ∀ item : WorkflowOutput, item.stripped.toDict = item.toDict := fun _ => rfl
    have houtputs : dicts WorkflowOutput.toDict (draft.outputs.map WorkflowOutput.stripped) =
        dicts WorkflowOutput.toDict draft.outputs := by
      unfold dicts
      rw [List.map_map (f := WorkflowOutput.stripped)]
      exact congrArg (fun items => Value.list (items.map Value.ofDict))
        (List.map_congr_left fun item _ => hstripped item)
    simp only [WorkflowDraft.content, WorkflowDraft.toDict, portableWorkflow, imported, h.name.1, hnodes, hedges,
      hcanvas, houtputs]
    rfl

/-- An accepted draft comes back as it was exported exactly when it is portable. -/
theorem roundTrips_iff (haccepted : validateWorkflow rules draft = []) :
    RoundTrips draft ↔ Portable draft :=
  ⟨RoundTrips.portable, fun h => h.roundTrips haccepted⟩

end

/-- Nodes and outputs in which nothing is found. -/
def NodeRules.none : NodeRules := ⟨fun _ _ => [], fun _ _ => [], fun _ _ => [], fun _ _ => []⟩

/-- A draft of one step. -/
def waitDraft : WorkflowDraft where
  id := "w"
  name := "wait"
  nodes := [{ id := "pause", actionId := "utility.wait", config := ⟨[("retry_attempts", .int 2)]⟩ }]

theorem roundTrips_iff_waitDraft : let _ := PyLib.atEpoch
    RoundTrips waitDraft ↔ Portable waitDraft := by
  intro pyLib
  have haccepted : validateWorkflow .none waitDraft = [] := by decide +kernel
  exact roundTrips_iff haccepted

/-- A draft whose canvas edge has an empty handle. -/
def handleDraft : WorkflowDraft where
  id := "w"
  name := "inspect"
  canvasEdges := some [{ source := "start", target := "end", sourceHandle := .str "" }]

/-- Whatever nodes and outputs are checked for, the draft is accepted, and its handle is lost. -/
theorem not_roundTrips_handleDraft : let _ := PyLib.atEpoch
    (∀ rules, validateWorkflow rules handleDraft = []) ∧ ¬RoundTrips handleDraft := by
  intro pyLib
  refine ⟨fun rules => ?_, fun h => ?_⟩
  · have hloops : handleDraft.loopIssues = [] := by decide +kernel
    have hdisconnected : handleDraft.disconnectedIssues = [] := by decide +kernel
    have hcycle : handleDraft.cycleIssues = [] := by decide +kernel
    rw [validateWorkflow, hloops, hdisconnected, hcycle]
    rfl
  · have hcanvas := h.portable.canvas _ rfl _ List.mem_cons_self
    exact absurd hcanvas.2.2 (by decide)

end DeviceShell.Studio
