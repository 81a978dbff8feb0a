import Mathlib.Data.List.Chain
import Mathlib.Logic.Relation
import DeviceShell.Studio.Models

/-!
# The bodies of loop nodes on the canvas

`device_loop_bodies` of `application/workflow_studio/device_loops.py`: a loop node owns the nodes
that follow its entry along single edges, up to an end that it names, an exit of the loop or a join
with another path. The nodes that the walk comes to are checked one by one. The entry is not: it is
put in front of the body afterwards.

The walk is bounded by a number of steps that it never uses up (`walk_isSome`).
-/

namespace DeviceShell.Studio

/-- The nodes and the edges of a draft or of a version. -/
structure Canvas where
  nodes : List WorkflowNode
  edges : List WorkflowEdge

/-- `DISALLOWED_BODY_ACTIONS`. -/
def disallowedBodyActions : List String :=
  ["device.for_each", "loop.for_each", "loop.until", "utility.condition", "utility.confirm",
    "workflow.call"]

/-- `BODY_HANDLES`. -/
def bodyHandles : List String := ["body", "loop-body", "loop_body"]

/-- `EXIT_HANDLES`. -/
def exitHandles : List String := ["exit", "loop-exit", "loop_exit"]

/-- `LOOP_ACTIONS`. -/
def loopActions : List String := ["device.for_each", "loop.for_each", "loop.until"]

/-- What the walk along the body of a loop goes by. -/
structure LoopScope where
  id : String
  /-- `body_start`. -/
  start : String
  /-- `explicit_end`. -/
  last : String
  /-- `exit_targets`. -/
  exits : List String

/-- Where the walk begins. -/
def LoopScope.first (scope : LoopScope) : String :=
  if scope.start ≠ "" then scope.start else scope.id

/-- `value in names`, for a set of texts. -/
def inTexts (value : Option Value) (names : List String) : Except PyError Bool :=
  match value with
  | some (.str s) => .ok (names.contains s)
  | some (.list _) => .error (.typeError "unhashable type: 'list'")
  | some (.dict _) => .error (.typeError "unhashable type: 'dict'")
  | _ => .ok false

namespace Canvas

variable (w : Canvas)

/-- `{node.id: node for node in workflow.nodes}`. -/
def nodesById : Dict String WorkflowNode := w.nodes.foldl (fun d node => d.set node.id node) ∅

/-- The action of the node with an id. -/
def actionOf (id : String) : String := ((w.nodesById.get? id).map (·.actionId)).getD ""

/-- The edges between nodes of the canvas. -/
def links : List WorkflowEdge :=
  w.edges.filter fun edge => w.nodesById.contains edge.source && w.nodesById.contains edge.target

/-- `outgoing_edges[id]`. -/
def outgoingEdges (id : String) : List WorkflowEdge := w.links.filter fun edge => edge.source = id

/-- `incoming[id]`. -/
def incoming (id : String) : List String :=
  (w.links.filter fun edge => edge.target = id).map (·.source)

variable [PyLib]

/-- `_edge_handle`. -/
def edgeHandle (edge : WorkflowEdge) : String :=
  PyLib.casefold (strip (Value.strOr (some edge.sourceHandle) ""))

/-- `{**node.config, **node.input_mapping}`. -/
def loopSettings (node : WorkflowNode) : Dict String Value := node.config.merge node.inputMapping

/-- `str(settings.get(a) or settings.get(b) or ... or "").strip()`. -/
def settingText (settings : Dict String Value) (keys : List String) : String :=
  strip (((keys.findSome? fun key => (settings.get? key).filter Value.truthy).map Value.pyStr).getD
    "")

/-- The edges of a node into a body. -/
def bodyEdges (node : WorkflowNode) : List WorkflowEdge :=
  (w.outgoingEdges node.id).filter fun edge => bodyHandles.contains (edgeHandle edge)

/-- The edges of a node to an exit. -/
def exitEdges (node : WorkflowNode) : List WorkflowEdge :=
  (w.outgoingEdges node.id).filter fun edge => exitHandles.contains (edgeHandle edge)

/-- `graph_mode`. -/
def graphMode (node : WorkflowNode) : Except PyError Bool := do
  let settings := loopSettings node
  let mode := settings.get? "body_mode"
  if ← inTexts mode ["downstream", "bounded"] then return true
  else return !(w.bodyEdges node).isEmpty ||
    (node.actionId == "device.for_each" && !(mode.getD .none).pyEq (.str "action") &&
      !(w.outgoingEdges node.id).isEmpty && !((settings.get? "action_inputs").getD .none).truthy)

/-- `body_edges`, with the edge that is inferred where none is marked. -/
def entryEdges (node : WorkflowNode) : List WorkflowEdge :=
  let sources := w.outgoingEdges node.id
  let marked := w.bodyEdges node
  let inferred := sources.filter fun edge => !exitHandles.contains (edgeHandle edge)
  if marked = [] ∧ sources.length = 1 ∧ w.exitEdges node = [] then sources
  else if marked = [] ∧ 1 < sources.length ∧ inferred.length = 1 then inferred
  else marked

/-- What the walk along the body of a loop goes by. -/
def loopScope (node : WorkflowNode) : LoopScope :=
  let settings := loopSettings node
  let named := settingText settings ["body_start", "loop_start"]
  { id := node.id
    start := if named ≠ "" then named
      else ((w.entryEdges node).head?.map (·.target)).getD ""
    last := settingText settings ["body_end", "loop_end", "loop_body_end"]
    exits := (w.exitEdges node).map (·.target) }

/-- The checks before the walk. -/
def checkScope (node : WorkflowNode) : Except PyError Unit :=
  let scope := w.loopScope node
  let loop := "device loop " ++ node.id
  if 1 < (w.entryEdges node).length then
    .error (.valueError (loop ++ " requires one loop-body entry"))
  else if 1 < (w.exitEdges node).length then
    .error (.valueError (loop ++ " requires one loop-exit connection"))
  else if scope.start ≠ "" ∧ w.nodesById.contains scope.start = false then
    .error (.valueError (loop ++ " body_start references an unknown node"))
  else if scope.last ≠ "" ∧ w.nodesById.contains scope.last = false then
    .error (.valueError (loop ++ " body_end references an unknown node"))
  else .ok ()

omit [PyLib] in
/-- The walk from a node, with the body so far: the body, and whether the named end was reached. -/
def walk (scope : LoopScope) (owned : List String) :
    ℕ → String → List String → Option (Except PyError (List String × Bool))
  | 0, _, _ => none
  | steps + 1, current, body =>
    match w.outgoingEdges current with
    | [] => some (.ok (body, false))
    | edge :: others =>
      let loop := "device loop " ++ scope.id
      if scope.last ≠ "" ∧ current = scope.last then some (.ok (body, true))
      else if others ≠ [] then
        some (.error (.valueError
          (loop ++ " requires a linear body; branches are not supported")))
      else if edge.target ∈ scope.exits then some (.ok (body, false))
      else if 1 < (w.incoming edge.target).length then some (.ok (body, false))
      else if edge.target = scope.id ∨ edge.target ∈ body ∨ edge.target ∈ owned then
        some (.error (.valueError (loop ++ " has a cycle or overlapping body")))
      else if w.actionOf edge.target ∈ disallowedBodyActions then
        some (.error (.valueError (loop ++ " cannot contain " ++ w.actionOf edge.target)))
      else walk scope owned steps edge.target (body ++ [edge.target])

end Canvas

/-- The nodes of a walk that has ended, with the entry in front and cut off at the named end. -/
def LoopScope.cut (scope : LoopScope) (walked : List String) (reached : Bool) :
    Except PyError (List String) :=
  let loop := "device loop " ++ scope.id
  if scope.start ≠ "" then
    let body := if scope.start = scope.last then [scope.start]
      else if scope.start ∈ walked then walked
      else scope.start :: walked
    if scope.last = "" then .ok body
    else if scope.last ∈ body then .ok (body.take (body.idxOf scope.last + 1))
    else .error (.valueError (loop ++ " body_end is not reachable from body_start"))
  else if scope.last ≠ "" ∧ reached = false then
    .error (.valueError (loop ++ " body_end is not reachable"))
  else .ok walked

/-- The body of a loop whose walk has ended. -/
def LoopScope.close (scope : LoopScope) (walked : List String) (reached : Bool) :
    Except PyError (List String) := do
  let body ← scope.cut walked reached
  if body = [] then
    throw (.valueError ("device loop " ++ scope.id ++ " requires a downstream action"))
  else return body

/-- `bodies` and `owned`. -/
structure LoopBodies where
  bodies : Dict String (List String) := ∅
  owned : List String := []

namespace Canvas

variable (w : Canvas) [PyLib]

/-- The body of one node, where it is a loop with a body on the canvas. -/
def loopBody (node : WorkflowNode) (owned : List String) :
    Option (Except PyError (Option (List String))) :=
  if node.actionId ∉ loopActions then some (.ok none)
  else match w.graphMode node with
    | .error e => some (.error e)
    | .ok false => some (.ok none)
    | .ok true => match w.checkScope node with
      | .error e => some (.error e)
      | .ok () =>
        let scope := w.loopScope node
        match w.walk scope owned (w.nodesById.keys.length + 1) scope.first [] with
        | none => none
        | some (.error e) => some (.error e)
        | some (.ok (walked, reached)) => some ((scope.close walked reached).map some)

/-- The bodies of some nodes, in turn. -/
def bodiesFrom : List WorkflowNode → LoopBodies → Option (Except PyError LoopBodies)
  | [], s => some (.ok s)
  | node :: rest, s => match w.loopBody node s.owned with
    | none => none
    | some (.error e) => some (.error e)
    | some (.ok none) => bodiesFrom rest s
    | some (.ok (some body)) =>
      bodiesFrom rest { bodies := s.bodies.set node.id body, owned := s.owned ++ body }

/-- `device_loop_bodies`. -/
def deviceLoopBodies : Option (Except PyError (Dict String (List String))) :=
  (w.bodiesFrom w.nodes {}).map fun result => result.map (·.bodies)

end Canvas

end DeviceShell.Studio
