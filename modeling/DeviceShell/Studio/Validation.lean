import DeviceShell.Lib.DepthFirst
import DeviceShell.Studio.DeviceLoops

/-!
# What a draft is checked for

`validate_workflow` of `application/workflow_studio/validation.py`: the names, the ids and the graph
of a draft. What it checks of the settings of a node by its action, of an output and of the
references in both is left open (`NodeRules`): every theorem holds for whatever is checked there.
-/

namespace DeviceShell.Studio

/-- `ValidationIssue`, without its suggestions. -/
structure ValidationIssue where
  code : String
  message : String
  nodeId : Option String := none
deriving DecidableEq

/-- The checks of nodes and outputs one by one. -/
structure NodeRules where
  output : WorkflowDraft → WorkflowOutput → List ValidationIssue
  node : WorkflowDraft → WorkflowNode → List ValidationIssue
  references : WorkflowDraft → WorkflowNode → List ValidationIssue
  outputReferences : WorkflowDraft → WorkflowOutput → List ValidationIssue

/-- `_SUPPORTED_BRANCH_LABELS`. -/
def supportedBranchLabels : List String :=
  ["true", "then", "yes", "1", "真", "是", "false", "else", "no", "0", "假", "否"]

namespace WorkflowDraft

variable (draft : WorkflowDraft)

/-- The ids of the nodes, with repetitions. -/
def nodeIds : List String := draft.nodes.map (·.id)

/-- The ids that come again after they have been seen. -/
def repeated : List String → List String → List String
  | _, [] => []
  | seen, id :: rest => (if id ∈ seen then [id] else []) ++ repeated (id :: seen) rest

/-- `duplicate_node_id`. -/
def duplicateNodeIssues : List ValidationIssue :=
  if draft.nodeIds.dedup.length ≠ draft.nodes.length then
    (repeated [] draft.nodeIds).map fun id =>
      ⟨"duplicate_node_id", "duplicate node id: " ++ id, some id⟩
  else []

/-- `duplicate_input_name` and `duplicate_output_name`. -/
def duplicateNameIssues : List ValidationIssue :=
  let inputNames := draft.inputs.map (·.name)
  let outputNames := draft.outputs.map (·.name)
  (if inputNames.dedup.length ≠ inputNames.length then
    [⟨"duplicate_input_name", "workflow input names must be unique", none⟩] else []) ++
  (if outputNames.dedup.length ≠ outputNames.length then
    [⟨"duplicate_output_name", "workflow output names must be unique", none⟩] else [])

/-- An edge between nodes of the draft. -/
def linked (edge : WorkflowEdge) : Prop :=
  edge.source ∈ draft.nodeIds ∧ edge.target ∈ draft.nodeIds

instance (edge : WorkflowEdge) : Decidable (draft.linked edge) :=
  inferInstanceAs (Decidable (_ ∧ _))

section

variable [PyLib]

/-- What is checked of the condition of an edge. -/
def conditionIssues (edge : WorkflowEdge) : List ValidationIssue :=
  match edge.condition with
  | .none => []
  | .str s => if strip s = "" then
      [⟨"invalid_condition", "edge condition must be a non-empty string", some edge.source⟩] else []
  | _ => [⟨"invalid_condition", "edge condition must be a non-empty string", some edge.source⟩]

/-- What is checked of the branch that an edge from a condition belongs to. -/
def branchIssues (edge : WorkflowEdge) : List ValidationIssue :=
  let branches := (draft.nodes.find? fun node => node.id = edge.source).any fun node =>
    node.actionId = "utility.condition"
  let label := if edge.condition.truthy then edge.condition else edge.sourceHandle
  if branches ∧ PyLib.casefold (strip (Value.strOr (some label) "")) ∉ supportedBranchLabels then
    [⟨"invalid_branch_label", "condition branch label must identify a true or false branch",
      some edge.source⟩]
  else []

/-- What is checked of an edge. -/
def edgeIssues (edge : WorkflowEdge) : List ValidationIssue :=
  if draft.linked edge then conditionIssues edge ++ draft.branchIssues edge
  else [⟨"invalid_edge", "edge references an unknown node",
    some (if edge.source ∈ draft.nodeIds then edge.target else edge.source)⟩]

end

/-- `adjacency[id]`. -/
def adjacency (id : String) : List String :=
  (draft.edges.filter fun edge => draft.linked edge ∧ edge.source = id).map (·.target)

/-- The nodes that no edge leads to. -/
def roots : List String :=
  draft.nodeIds.dedup.filter fun id =>
    !draft.edges.any fun edge => draft.linked edge ∧ edge.target = id

/-- The graph of the draft. -/
def graph : KeyedGraph String String Empty where
  resolve id := .ok id
  calls id := draft.adjacency id

/-- The nodes that the roots lead to. -/
def reachable : List String :=
  match draft.graph.gather (draft.nodes.length + 1) draft.roots [] with
  | some (.ok found) => found
  | _ => []

/-- `disconnected_node`. -/
def disconnectedIssues : List ValidationIssue :=
  if 1 < draft.nodes.length then
    (if draft.roots.length ≠ 1 then
      [⟨"disconnected_node", "workflow must have exactly one root node", none⟩] else []) ++
    ((draft.nodeIds.dedup.filter fun id => id ∉ draft.reachable).map fun id =>
      ⟨"disconnected_node", "node is disconnected from workflow", some id⟩)
  else []

/-- `visit` of some nodes in turn, while others are being visited: the nodes that have been visited
and those at which a cycle is closed. -/
def visitEach (below : List String → List String → List String → List String × List String)
    (visiting : List String) : List String → List String → List String × List String
  | [], visited => (visited, [])
  | id :: rest, visited =>
    if id ∈ visiting then
      let after := visitEach below visiting rest visited
      (after.1, id :: after.2)
    else if id ∈ visited then visitEach below visiting rest visited
    else
      let inside := below (id :: visiting) (draft.adjacency id) visited
      let after := visitEach below visiting rest (id :: inside.1)
      (after.1, inside.2 ++ after.2)

/-- `visit`, which goes no deeper than there are nodes. -/
def visit : ℕ → List String → List String → List String → List String × List String
  | 0 => fun _ _ visited => (visited, [])
  | depth + 1 => draft.visitEach (visit depth)

/-- `cycle`. -/
def cycleIssues : List ValidationIssue :=
  (draft.visit (draft.nodes.length + 1) [] draft.nodeIds.dedup []).2.map fun id =>
    ⟨"cycle", "workflow contains a cycle", some id⟩

variable [PyLib]

/-- `invalid_device_loop_body`. An exception that is not caught counts as an issue too: neither draft
is accepted. -/
def loopIssues : List ValidationIssue :=
  match (Canvas.mk draft.nodes draft.edges).deviceLoopBodies with
  | some (.error e) => [⟨"invalid_device_loop_body", e.text, none⟩]
  | _ => []

end WorkflowDraft

/-- `validate_workflow`: the errors that it finds. -/
def validateWorkflow [PyLib] (rules : NodeRules) (draft : WorkflowDraft) : List ValidationIssue :=
  draft.loopIssues ++ draft.duplicateNodeIssues ++ draft.duplicateNameIssues ++
    draft.outputs.flatMap (rules.output draft) ++ draft.nodes.flatMap (rules.node draft) ++
    draft.edges.flatMap draft.edgeIssues ++ draft.disconnectedIssues ++ draft.cycleIssues ++
    draft.nodes.flatMap (rules.references draft) ++
    draft.outputs.flatMap (rules.outputReferences draft)

/-! ## What an accepted draft has -/

/-- What is not repeated after what has been seen is neither among it nor repeated. -/
theorem repeated_eq_nil {seen ids : List String} (h : WorkflowDraft.repeated seen ids = []) :
    ids.Nodup ∧ ∀ id ∈ ids, id ∉ seen := by
  induction ids generalizing seen with
  | nil => simp
  | cons id rest ih =>
    obtain ⟨hid, hrest⟩ := List.append_eq_nil_iff.1 h
    have hnew : id ∉ seen := by
      intro hmem
      simp [hmem] at hid
    obtain ⟨hnodup, hunseen⟩ := ih hrest
    have hother : id ∉ rest := fun hmem => hunseen id hmem List.mem_cons_self
    refine ⟨List.nodup_cons.2 ⟨hother, hnodup⟩, ?_⟩
    intro key hkey
    rcases List.mem_cons.1 hkey with rfl | hkey
    · exact hnew
    · exact fun hmem => hunseen key hkey (List.mem_cons_of_mem _ hmem)

variable [PyLib] {rules : NodeRules} {draft : WorkflowDraft}

/-- The ids of an accepted draft are different. -/
theorem nodup_nodeIds (h : validateWorkflow rules draft = []) : draft.nodeIds.Nodup := by
  have hissues : draft.duplicateNodeIssues = [] := by
    simp only [validateWorkflow, List.append_eq_nil_iff] at h
    tauto
  unfold WorkflowDraft.duplicateNodeIssues at hissues
  split at hissues
  · exact (repeated_eq_nil (List.map_eq_nil_iff.1 hissues)).1
  · rename_i hlength
    rw [not_not] at hlength
    have hsame : draft.nodeIds.dedup = draft.nodeIds := by
      refine (List.dedup_sublist _).eq_of_length ?_
      rw [hlength, WorkflowDraft.nodeIds, List.length_map]
    rw [← hsame]
    exact List.nodup_dedup _

/-- The edges of an accepted draft are between its nodes. -/
theorem linked_of_mem (h : validateWorkflow rules draft = []) {edge : WorkflowEdge}
    (hedge : edge ∈ draft.edges) : draft.linked edge := by
  have hissues : draft.edges.flatMap draft.edgeIssues = [] := by
    simp only [validateWorkflow, List.append_eq_nil_iff] at h
    tauto
  have hedgeIssues := List.flatMap_eq_nil_iff.1 hissues edge hedge
  unfold WorkflowDraft.edgeIssues at hedgeIssues
  split at hedgeIssues
  · assumption
  · exact absurd hedgeIssues (by simp)

end DeviceShell.Studio
