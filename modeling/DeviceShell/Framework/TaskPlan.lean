import DeviceShell.Lib.Operators
import DeviceShell.Lib.References
import DeviceShell.Framework.Models

/-!
# Task plans

`WorkflowNode`, `TaskPlan` and `TaskRun` of `framework/orchestrator.py`, with the checks of a plan
and the orders in which its nodes run.
-/

namespace DeviceShell.Framework

/-- `TaskRunStatus`. -/
inductive TaskRunStatus where
  | created
  | running
  | waitingChild
  | waitingDecision
  | waitingReconcile
  | unknown
  | succeeded
  | failed
  | cancelled
deriving DecidableEq, Repr

/-- `status in {SUCCEEDED, FAILED, CANCELLED}`. -/
def TaskRunStatus.terminal : TaskRunStatus → Bool
  | .succeeded => true
  | .failed => true
  | .cancelled => true
  | _ => false

/-- `WorkflowNode`. -/
structure WorkflowNode where
  id : String
  workflowId : String
  dependsOn : List String := []
  inputMapping : Dict String Value := ∅
  version : String := "1"
  runIf : Option (Dict String Value) := none
  retryPolicy : Dict String Value := ∅
  repeatPolicy : Dict String Value := ∅
  parallelGroup : Option String := none

/-- `TaskPlan`. -/
structure TaskPlan where
  id : String
  version : String := "1"
  nodes : List WorkflowNode := []

/-- `TaskRun`. -/
structure TaskRun where
  id : String
  planId : String
  deviceId : String
  status : TaskRunStatus := .created
  inputs : Dict String Value := ∅
  nodeRuns : Dict String String := ∅
  outputs : Dict String Value := ∅
  error : Option (Dict String Value) := none
  context : Dict String Value := ∅

/-- `node.parallel_group`, the empty text being none. -/
def WorkflowNode.group? (node : WorkflowNode) : Option String := node.parallelGroup.filter (· ≠ "")

/-- All dependencies of a node are among some ids. -/
def WorkflowNode.readyAfter (node : WorkflowNode) (ids : List String) : Bool :=
  node.dependsOn.all fun d => ids.contains d

namespace TaskPlan

/-- The nodes ordered by their ids. -/
def sortById (nodes : List WorkflowNode) : List WorkflowNode :=
  nodes.insertionSort fun a b => ¬ b.id < a.id

/-- The nodes without those of some ids. -/
def without (nodes : List WorkflowNode) (ids : List String) : List WorkflowNode :=
  nodes.filter fun node => !ids.contains node.id

/-- The rounds of `_ordered_nodes`; the number bounds how many. -/
def orderLoop : ℕ → List WorkflowNode → List WorkflowNode → Except PyError (List WorkflowNode)
  | _, [], ordered => .ok ordered
  | 0, _ :: _, _ => .error (.valueError "task plan contains a dependency cycle")
  | n + 1, pending, ordered =>
    let ready := pending.filter fun node => node.readyAfter (ordered.map (·.id))
    if ready.isEmpty then .error (.valueError "task plan contains a dependency cycle")
    else orderLoop n (without pending (ready.map (·.id))) (ordered ++ sortById ready)

/-- `{node.id: node for node in nodes}.values()`. -/
def byId (nodes : List WorkflowNode) : List WorkflowNode :=
  (nodes.foldl (fun d node => d.set node.id node) (∅ : Dict String WorkflowNode)).values

/-- `_ordered_nodes`. -/
def orderedNodes (plan : TaskPlan) : Except PyError (List WorkflowNode) :=
  orderLoop plan.nodes.length (byId plan.nodes) []

/-- The rounds of `execution_batches`; the number bounds how many. -/
def batchLoop : ℕ → List WorkflowNode → List String → Except PyError (List (List WorkflowNode))
  | _, [], _ => .ok []
  | 0, _ :: _, _ => .error (.valueError "task plan contains a dependency cycle")
  | n + 1, pending, completed =>
    match pending.filter fun node => node.readyAfter completed with
    | [] => .error (.valueError "task plan contains a dependency cycle")
    | first :: rest => do
      let batch := match first.group? with
        | some _ => (first :: rest).filter fun node => node.parallelGroup == first.parallelGroup
        | none => [first]
      let ids := batch.map (·.id)
      return batch :: (← batchLoop n (without pending ids) (completed ++ ids))

/-- `execution_batches`. -/
def executionBatches (plan : TaskPlan) : Except PyError (List (List WorkflowNode)) := do
  let ordered ← plan.orderedNodes
  batchLoop ordered.length ordered []

/-- The ids of the members of a group. -/
def members (plan : TaskPlan) (group : String) : List String :=
  (plan.nodes.filter fun node => node.group? == some group).map (·.id)

/-- The first node that cannot be executed, with the reason. -/
def nodeError (ids : List String) (node : WorkflowNode) : Option PyError :=
  if isBlank node.workflowId then
    some (.valueError ("workflow id is required for node: " ++ node.id))
  else
    let unknown := (node.dependsOn.filter fun d => !ids.contains d).dedup
    if unknown.isEmpty then none
    else some (.valueError ("node " ++ node.id ++ " depends on unknown nodes: " ++
      ", ".intercalate (unknown.insertionSort (· ≤ ·))))

/-- `TaskPlan.validate`. -/
def validate (plan : TaskPlan) : Except PyError Unit := do
  if isBlank plan.id || isBlank plan.version || plan.nodes.isEmpty then
    throw (.valueError "task plan id, version, and nodes are required")
  let ids := plan.nodes.map (·.id)
  if ids.dedup.length ≠ plan.nodes.length then
    throw (.valueError "task plan node ids must be unique")
  match plan.nodes.findSome? (nodeError ids) with
  | some e => throw e
  | none => pure ()
  let groups := (plan.nodes.filterMap (·.group?)).dedup
  match groups.find? fun group => plan.nodes.any fun node =>
      (plan.members group).contains node.id &&
        node.dependsOn.any fun d => (plan.members group).contains d with
  | some group => throw (.valueError ("parallel group " ++ group ++ " contains dependent nodes"))
  | none => pure ()
  let _ ← plan.orderedNodes

/-- One round of `_downstream_node_ids`: the nodes in order, each added when it depends on one that
is in already. -/
def downstreamRound (plan : TaskPlan) (downstream : List String) : List String :=
  plan.nodes.foldl (fun downstream node =>
    if !downstream.contains node.id && node.dependsOn.any fun d => downstream.contains d then
      downstream ++ [node.id]
    else downstream) downstream

/-- `_downstream_node_ids`: the rounds end when one adds nothing, which each but the last does. -/
def downstreamNodeIds (plan : TaskPlan) (stepId : String) : List String :=
  (downstreamRound plan)^[plan.nodes.length] [stepId]

end TaskPlan

mutual

/-- `references` of `_validate_input_dependencies`: the references in a value, at any depth. -/
def valueReferences : Value → List String
  | .str s => references s
  | .list items => itemReferences items
  | .dict entries => entryReferences entries
  | _ => []
termination_by structural v => v

/-- The references in the items of a list. -/
def itemReferences : List Value → List String
  | [] => []
  | v :: rest => valueReferences v ++ itemReferences rest
termination_by structural items => items

/-- The references in the values of a dictionary. -/
def entryReferences : List (String × Value) → List String
  | [] => []
  | (_, v) :: rest => valueReferences v ++ entryReferences rest
termination_by structural entries => entries

end

/-- The ancestors of the nodes, for nodes in an order that respects the dependencies. -/
def ancestors (ordered : List WorkflowNode) : Dict String (List String) :=
  ordered.foldl (fun known node =>
    known.set node.id (node.dependsOn.flatMap fun d => d :: (known.get? d).getD [])) ∅

/-- The node whose output a reference reads, where it is one that needs a dependency. -/
def referenceSource (reference : String) : Option String :=
  match segments reference with
  | root :: rest =>
    if ["inputs", "context", "device"].contains root then none
    else
      let source := match root == "outputs", rest with
        | true, second :: _ => second
        | _, _ => root
      if ["item", "index", "iteration", "result"].contains source then none else some source
  | [] => none

/-- The first reference of a node to the output of a node that is not among its ancestors. -/
def dependencyError (nodeIds : List String) (known : Dict String (List String))
    (node : WorkflowNode) : Option PyError :=
  (entryReferences node.inputMapping.entries).findSome? fun reference =>
    match referenceSource reference with
    | some source =>
      if nodeIds.contains source && !((known.get? node.id).getD []).contains source then
        some (.taskInputDependency node.id reference source)
      else none
    | none => none

/-- `_validate_input_dependencies`. -/
def validateInputDependencies (plan : TaskPlan) : Except PyError Unit := do
  let ordered ← plan.orderedNodes
  match plan.nodes.findSome? (dependencyError (plan.nodes.map (·.id)) (ancestors ordered)) with
  | some e => throw e
  | none => pure ()

/-- `_aggregate_child_status`. -/
def aggregateChildStatus : RunStatus → TaskRunStatus
  | .waitingDecision => .waitingDecision
  | .waitingReconcile => .waitingReconcile
  | .recovering => .waitingReconcile
  | .paused => .waitingReconcile
  | .cancelled => .cancelled
  | .unknown => .unknown
  | .failed => .failed
  | .pending | .running | .succeeded => .waitingChild

/-- `_continues_after_failure`. -/
def continuesAfterFailure [PyLib] (node : WorkflowNode) : Bool :=
  PyLib.casefold (strip (Value.strOr (node.retryPolicy.get? "on_failure") "stop")) == "continue"

end DeviceShell.Framework
