import DeviceShell.Lib.Numerals
import DeviceShell.Lib.References
import DeviceShell.Studio.DefinitionStores

/-!
# Expanding calls of workflows

`_expand_subworkflows` of `interfaces/desktop_api/routers/workflow_definitions.py`. A node that calls
a published version is replaced by the nodes of that version, expanded themselves and renamed, and by
a node of its own id that collects the outputs. Edges to the node lead to the roots of the version, its
terminals lead to the node. References in the texts of the version are bound to the inputs of the call
or renamed as the nodes are. Recursion and the loop over the calls are bounded by numbers; `none` is
the result where one of them is used up.
-/

namespace DeviceShell.Studio

/-- What `_expand_subworkflows` raises. -/
inductive ExpandError where
  /-- `UnsupportedOperationError`. -/
  | unsupported (message : String)
  | python (e : PyError)
deriving DecidableEq

/-- A draft or a version, by the attributes that are read of both. -/
structure WorkflowSource where
  workflowId : String
  version : Value
  name : String
  description : String
  inputs : List WorkflowInput
  outputs : List WorkflowOutput
  nodes : List WorkflowNode
  edges : List WorkflowEdge
  canvasEdges : Option (List WorkflowEdge)

def WorkflowDraft.source (draft : WorkflowDraft) : WorkflowSource where
  workflowId := draft.id
  version := .str draft.version
  name := draft.name
  description := draft.description
  inputs := draft.inputs
  outputs := draft.outputs
  nodes := draft.nodes
  edges := draft.edges
  canvasEdges := draft.canvasEdges

def WorkflowVersion.source (version : WorkflowVersion) : WorkflowSource where
  workflowId := version.workflowId
  version := version.version
  name := version.name
  description := version.description
  inputs := version.inputs
  outputs := version.outputs
  nodes := version.nodes
  edges := version.edges
  canvasEdges := version.canvasEdges

/-! ## Texts of the called version -/

/-- What the texts of a called version are bound to. -/
structure Binding where
  /-- `prefix`. -/
  front : String
  /-- `child_node_ids`. -/
  nodeIds : List String
  /-- `child_inputs`. -/
  inputs : Dict String Value
  /-- `variable_aliases`. -/
  aliases : Dict String String

section

variable [PyLib]

/-- The part of `_mapped_child_input` that goes down into a value. -/
def fieldOf (tail : List String) : List String → Value → Except ExpandError Value
  | [], current => .ok current
  | segment :: rest, current =>
    match current.asDict?.bind (·.get? segment) with
    | some next => fieldOf tail rest next
    | none => .error (.unsupported
        ("sub-workflow input does not contain field: " ++ ".".intercalate tail))

/-- `_mapped_child_input`. -/
def mappedChildInput (value : Value) (tail : List String) : Except ExpandError Value :=
  if tail = [] then .ok value
  else match value with
    | .str text =>
      if startsWith text "$\x7b" ∧ endsWith text "\x7d" then
        .ok (.str (String.ofList text.toList.dropLast ++ "." ++ ".".intercalate tail ++ "\x7d"))
      else fieldOf tail tail value
    | value => fieldOf tail tail value

/-- `replacement` of `_rewrite_child_value`. -/
def Binding.replacement (b : Binding) (path : String) : Except ExpandError Value :=
  let parts := segments path
  let root := parts.headD ""
  let tail := parts.tail
  if root = "inputs" ∧ tail ≠ [] ∧ b.inputs.contains (tail.headD "") then
    mappedChildInput ((b.inputs.get? (tail.headD "")).getD .none) tail.tail
  else if b.inputs.contains root then mappedChildInput ((b.inputs.get? root).getD .none) tail
  else if root = "outputs" ∧ tail ≠ [] ∧ tail.headD "" ∈ b.nodeIds then
    .ok (.str (referenceText ("outputs." ++ b.front ++ ".".intercalate tail)))
  else if root ∈ b.nodeIds then .ok (.str (referenceText (b.front ++ ".".intercalate parts)))
  else match b.aliases.get? root with
    | some name =>
      .ok (.str (referenceText (name ++ if tail = [] then "" else "." ++ ".".intercalate tail)))
    | none => .ok (.str (referenceText path))

/-- `_rewrite_child_value` on a text. -/
def Binding.rewriteText (b : Binding) (text : String) : Except ExpandError Value :=
  match exactReference text with
  | some path => b.replacement path
  | none => (substitute matchReference (fun path => (b.replacement path).map Value.pyStr) text).map
      Value.str

mutual

/-- `_rewrite_child_value`. -/
def Binding.rewrite (b : Binding) : Value → Except ExpandError Value
  | .dict entries => do return .dict (← b.rewriteEntries entries)
  | .list items => do return .list (← b.rewriteItems items)
  | .str text => b.rewriteText text
  | value => .ok value
termination_by structural value => value

/-- The items of a list. -/
def Binding.rewriteItems (b : Binding) : List Value → Except ExpandError (List Value)
  | [] => .ok []
  | value :: rest => do
    let value ← b.rewrite value
    return value :: (← b.rewriteItems rest)
termination_by structural items => items

/-- The values of a dictionary. -/
def Binding.rewriteEntries (b : Binding) :
    List (String × Value) → Except ExpandError (List (String × Value))
  | [] => .ok []
  | (key, value) :: rest => do
    let value ← b.rewrite value
    return (key, value) :: (← b.rewriteEntries rest)
termination_by structural entries => entries

end

/-! ## Nodes and edges of the called version -/

/-- `{**dict(node.config), **dict(node.input_mapping)}`. -/
def WorkflowNode.settings (node : WorkflowNode) : Dict String Value :=
  node.config.merge node.inputMapping

/-- `str(settings.get("name") or "")`. -/
def variableName (settings : Dict String Value) : String :=
  Value.strOr (settings.get? "name") ""

/-- `aliases`. -/
def aliasesOf (front : String) (nodes : List WorkflowNode) : Dict String String :=
  (nodes.filter fun node => node.actionId = "variable.set" ∧ variableName node.settings ≠ "").foldl
    (fun d node => d.set (variableName node.settings) (front ++ variableName node.settings)) ∅

/-- A node of the called version. -/
def Binding.childNode (b : Binding) (node : WorkflowNode) : Except ExpandError WorkflowNode := do
  let config ← b.rewriteEntries node.config.entries
  let inputMapping ← b.rewriteEntries node.inputMapping.entries
  let config : Dict String Value := ⟨config⟩
  let inputMapping : Dict String Value := ⟨inputMapping⟩
  let renamed :=
    if node.actionId = "variable.set" then
      b.aliases.get? (variableName (config.merge inputMapping))
    else none
  return {
    id := b.front ++ node.id
    actionId := node.actionId
    config := renamed.elim config fun name =>
      if inputMapping.contains "name" then config else config.set "name" (.str name)
    inputMapping := renamed.elim inputMapping fun name =>
      if inputMapping.contains "name" then inputMapping.set "name" (.str name) else inputMapping
    position := node.position }

/-- An edge of the called version. -/
def Binding.childEdge (b : Binding) (edge : WorkflowEdge) : Except ExpandError WorkflowEdge := do
  let condition ← b.rewrite edge.condition
  return {
    source := b.front ++ edge.source
    target := b.front ++ edge.target
    condition := condition
    sourceHandle := edge.sourceHandle }

/-! ## A call -/

/-- The nodes and the edges of a graph. -/
structure StudioGraph where
  nodes : List WorkflowNode
  edges : List WorkflowEdge

/-- The version that a node calls. -/
def calledBy (call : WorkflowNode) : Except ExpandError (String × ℤ) :=
  let calledId := strip (Value.strOr (call.settings.get? "workflow_id") "")
  match call.settings.get? "version" with
  | some (.int version) =>
    if calledId = "" then .error (.unsupported
      ("sub-workflow node " ++ call.id ++ " requires a fixed published version"))
    else .ok (calledId, version)
  | _ => .error (.unsupported
      ("sub-workflow node " ++ call.id ++ " requires a fixed published version"))

/-- `f"{workflow_id}@{version}"`. -/
def versionText (called : String × ℤ) : String := called.1 ++ "@" ++ toString called.2

/-- The called version, and the check that it is not being expanded already. -/
def resolveChild (resolve : String → ℤ → Except PyError WorkflowVersion)
    (stack : List (String × ℤ)) (called : String × ℤ) : Except ExpandError WorkflowVersion :=
  let notFound : Except ExpandError WorkflowVersion :=
    .error (.unsupported ("published workflow version not found: " ++ versionText called))
  match resolve called.1 called.2 with
  | .error (.keyError _) => notFound
  | .error (.typeError _) => notFound
  | .error (.valueError _) => notFound
  | .error e => .error (.python e)
  | .ok child =>
    if called ∈ stack then
      .error (.unsupported ("recursive workflow call detected: " ++ versionText called))
    else .ok child

/-- `child_inputs`, where no required input is missing. -/
def childInputs (call : WorkflowNode) (child : WorkflowVersion) :
    Except ExpandError (Dict String Value) :=
  let supplied := ((call.settings.get? "inputs").bind Value.asDict?).getD ∅
  let given := child.inputs.filter fun item =>
    supplied.contains item.name ∨ isNone item.default = false
  let inputs := given.foldl
    (fun d item => d.set item.name ((supplied.get? item.name).getD item.default)) ∅
  match child.inputs.find? fun item =>
      item.required ∧ isNone item.default ∧ inputs.contains item.name = false with
  | some item => .error (.unsupported ("sub-workflow input is missing: " ++ item.name))
  | none => .ok inputs

/-- `f"{call.id}__"`. -/
def frontOf (call : WorkflowNode) : String := call.id ++ "__"

/-- The edges of the graph in which the called version stands in front of the call. -/
def splicedEdges (edges childEdges : List WorkflowEdge) (callId : String)
    (roots terminals : List String) : List WorkflowEdge :=
  let incoming := edges.filter fun edge => edge.target = callId
  let outgoing := edges.filter fun edge => edge.source = callId
  let retained := edges.filter fun edge => edge.target ≠ callId ∧ edge.source ≠ callId
  let entering :=
    if roots ≠ [] then
      incoming.flatMap (fun edge => roots.map fun root => { edge with target := root }) ++
        terminals.map fun terminal => { source := terminal, target := callId }
    else incoming.map fun edge => { edge with target := callId }
  retained ++ entering ++ outgoing ++ childEdges

/-- The graph with the nodes in the place of the first call. -/
def replaceCall (nodes new : List WorkflowNode) : List WorkflowNode :=
  nodes.takeWhile (fun node => node.actionId ≠ "workflow.call") ++ new ++
    (nodes.dropWhile fun node => node.actionId ≠ "workflow.call").tail

/-- The expanded version in the place of its call. -/
def spliceChild (g : StudioGraph) (call : WorkflowNode) (called : String × ℤ)
    (child : WorkflowVersion) (expanded : WorkflowDraft) : Except ExpandError StudioGraph := do
  let inputs ← childInputs call child
  let b : Binding :=
    { front := frontOf call
      nodeIds := expanded.nodes.map WorkflowNode.id
      inputs := inputs
      aliases := aliasesOf (frontOf call) expanded.nodes }
  let childNodes ← expanded.nodes.mapM b.childNode
  let childEdges ← expanded.edges.mapM b.childEdge
  let values ← child.outputs.mapM fun item => do return (item.name, ← b.rewrite item.value)
  let aggregate : WorkflowNode :=
    { id := call.id
      actionId := "workflow.outputs"
      config := ⟨[("workflow_id", .str called.1), ("version", .int called.2),
        ("values", .ofDict (values.foldl (fun d e => d.set e.1 e.2) ∅))]⟩
      position := call.position }
  let targets := expanded.edges.map WorkflowEdge.target
  let sources := expanded.edges.map WorkflowEdge.source
  let roots := (b.nodeIds.filter (· ∉ targets)).map (b.front ++ ·)
  let terminals := (b.nodeIds.filter (· ∉ sources)).map (b.front ++ ·)
  let existing := (g.nodes.map WorkflowNode.id).filter (· ≠ call.id)
  match ((childNodes.map WorkflowNode.id).filter (· ∈ existing)).mergeSort (fun a b => a ≤ b) with
  | collision :: _ => throw (.unsupported
      ("sub-workflow node id collides after expansion: " ++ collision))
  | [] => return {
      nodes := replaceCall g.nodes (childNodes ++ [aggregate])
      edges := splicedEdges g.edges childEdges call.id roots terminals }

/-! ## The expansion -/

/-- The id and the version that are being expanded, where the version is a number. -/
def WorkflowSource.identity (source : WorkflowSource) : Option (String × ℤ) :=
  match source.version with
  | .int version => if 0 ≤ version then some (source.workflowId, version) else none
  | .str text =>
    if text ≠ "" ∧ text.toList.all isDigit then
      (PyLib.parseInt text).map fun version => (source.workflowId, version)
    else none
  | _ => none

variable (resolve : String → ℤ → Except PyError WorkflowVersion)

/-- One pass of the loop; `below` expands the called version. -/
def expandCall (below : WorkflowSource → Option (Except ExpandError WorkflowDraft))
    (stack : List (String × ℤ)) (g : StudioGraph) (call : WorkflowNode) :
    Option (Except ExpandError StudioGraph) :=
  match calledBy call with
  | .error e => some (.error e)
  | .ok called => match resolveChild resolve stack called with
    | .error e => some (.error e)
    | .ok child => match below child.source with
      | none => none
      | some (.error e) => some (.error e)
      | some (.ok expanded) => some (spliceChild g call called child expanded)

/-- The loop over the calls. -/
def expandCalls (below : WorkflowSource → Option (Except ExpandError WorkflowDraft))
    (stack : List (String × ℤ)) : ℕ → StudioGraph → Option (Except ExpandError StudioGraph)
  | passes, g =>
    match g.nodes.find? fun node => node.actionId = "workflow.call", passes with
    | none, _ => some (.ok g)
    | some _, 0 => none
    | some call, passes + 1 => match expandCall resolve below stack g call with
      | none => none
      | some (.error e) => some (.error e)
      | some (.ok g) => expandCalls below stack passes g

/-- `_expand_subworkflows`; `stack` is `expansion_stack`. -/
def expandSubworkflows : ℕ → List (String × ℤ) → WorkflowSource →
    Option (Except ExpandError WorkflowDraft)
  | 0, _, _ => none
  | depth + 1, stack, source =>
    if ∃ identity ∈ source.identity, identity ∈ stack then
      some (.error (.unsupported ("recursive workflow call detected: " ++ source.workflowId ++ "@" ++
        source.version.pyStr)))
    else
      let stack := stack ++ source.identity.toList
      match expandCalls resolve (expandSubworkflows depth stack) stack source.nodes.length
          ⟨source.nodes, source.edges⟩ with
      | none => none
      | some (.error e) => some (.error e)
      | some (.ok g) => some (.ok {
          id := source.workflowId
          name := source.name
          description := source.description
          version := source.version.pyStr
          inputs := source.inputs
          outputs := source.outputs
          nodes := g.nodes
          edges := g.edges
          status := if source.identity.isSome then "published" else "draft"
          canvasEdges := source.canvasEdges })

end

end DeviceShell.Studio
