import DeviceShell.Lib.Fallible
import DeviceShell.Lib.Text
import DeviceShell.Framework.TaskPlan
import DeviceShell.Studio.LoopChains

/-!
# What loops own

`device_loop_bodies` takes the loops in turn, and no walk comes to a node that a loop before it
owns. But an entry is put into a body unchecked: it may have an action that no body may contain, be
the loop node itself, or lie on the path of another loop. The bodies are well formed exactly when no
entry does (`wellFormed_iff`).

The compiler gives each loop the steps of its body and leaves the nodes of all bodies out of the
plan (`planIds_of_compile`).
-/

namespace DeviceShell.Studio

namespace Canvas

variable (w : Canvas) [PyLib]

/-- A loop node with a body on the canvas. -/
def IsGraphLoop (node : WorkflowNode) : Prop :=
  node.actionId ∈ loopActions ∧ w.graphMode node = .ok true

instance : DecidablePred w.IsGraphLoop := fun _ => inferInstanceAs (Decidable (_ ∧ _))

/-- The loop nodes with a body on the canvas. -/
def graphLoops : List WorkflowNode := w.nodes.filter fun node => w.IsGraphLoop node

/-- A loop node with a body on the canvas; of several nodes with one id, the last. -/
def OwnsBody (node : WorkflowNode) : Prop :=
  ∃ before after, w.graphLoops = before ++ node :: after ∧ ∀ later ∈ after, later.id ≠ node.id

/-- What the compiler relies on. -/
structure WellFormed (w : Canvas) (bodies : Dict String (List String)) : Prop where
  linear : ∀ id body, bodies.get? id = some body → body.Nodup ∧ body.IsChain w.Linked
  apart : ∀ id body, bodies.get? id = some body →
    id ∉ body ∧ ∀ x ∈ body, w.actionOf x ∉ disallowedBodyActions
  disjoint : ∀ id id' body body', id ≠ id' → bodies.get? id = some body →
    bodies.get? id' = some body' → body.Disjoint body'

/-- No loop has an entry that its body may not contain, or that is on the path of another loop. -/
def EntriesAllowed : Prop :=
  ∀ node, w.OwnsBody node → (w.loopScope node).start ≠ "" →
    (w.loopScope node).start ≠ node.id ∧
    w.actionOf (w.loopScope node).start ∉ disallowedBodyActions ∧
    ∀ other, w.OwnsBody other → other.id ≠ node.id →
      ¬ w.OnChain (w.loopScope other) (w.loopScope node).start

variable {w}

/-! ## One loop -/

/-- The body that a loop node is given. -/
theorem loopBody_spec {node : WorkflowNode} {owned body : List String}
    (h : w.loopBody node owned = some (.ok (some body))) :
    w.IsGraphLoop node ∧ w.IsBody (w.loopScope node) owned body := by
  unfold loopBody at h
  split at h
  · cases h
  · rename_i hloop
    split at h
    · cases h
    · cases h
    · rename_i hmode
      split at h
      · cases h
      · simp only at h
        split at h
        · cases h
        · cases h
        · rename_i walked reached hwalk
          have hclose : (w.loopScope node).close walked reached = .ok body := by
            cases hc : (w.loopScope node).close walked reached with
            | error e => rw [hc] at h; cases h
            | ok b =>
              rw [hc] at h
              simpa [Except.map] using h
          obtain ⟨walked', hsame, hwalked⟩ := walk_spec _ hwalk
          rw [List.nil_append] at hsame
          subst hsame
          exact ⟨⟨not_not.mp hloop, hmode⟩, isBody_of_close hwalked hclose⟩

/-- A node that is given no body is no loop with a body on the canvas. -/
theorem not_isGraphLoop_of_loopBody {node : WorkflowNode} {owned : List String}
    (h : w.loopBody node owned = some (.ok none)) : ¬ w.IsGraphLoop node := by
  rintro ⟨hloop, hmode⟩
  unfold loopBody at h
  rw [if_neg (not_not.mpr hloop), hmode] at h
  simp only at h
  split at h
  · cases h
  · split at h
    · cases h
    · cases h
    · rename_i walked reached hwalk
      cases hc : (w.loopScope node).close walked reached with
      | error e => rw [hc] at h; cases h
      | ok b => rw [hc] at h; cases h

/-- The body of a node is found or refused in finitely many steps. -/
theorem loopBody_isSome (node : WorkflowNode) (owned : List String) :
    (w.loopBody node owned).isSome := by
  have hwalk : (w.walk (w.loopScope node) owned (w.nodesById.keys.length + 1)
      (w.loopScope node).first []).isSome :=
    walk_isSome _ List.nodup_nil (List.nil_subset _) (by simp)
  obtain ⟨result, hresult⟩ := Option.isSome_iff_exists.mp hwalk
  unfold loopBody
  split
  · rfl
  · split
    · rfl
    · rfl
    · split
      · rfl
      · simp only [hresult]
        rcases result with e | ⟨walked, reached⟩
        · rfl
        · rfl

/-! ## The loops in turn -/

/-- The loops that were given a body, in turn, with their bodies. -/
def Owning (w : Canvas) : List String → List (WorkflowNode × List String) → Prop
  | _, [] => True
  | owned, (node, body) :: rest =>
    w.IsBody (w.loopScope node) owned body ∧ Owning w (owned ++ body) rest

/-- A body belongs to a loop that was given it after other loops. -/
theorem Owning.isBody {owned : List String} {trace : List (WorkflowNode × List String)}
    (h : Owning w owned trace) {p : WorkflowNode × List String} (hp : p ∈ trace) :
    ∃ owned', owned ⊆ owned' ∧ w.IsBody (w.loopScope p.1) owned' p.2 := by
  induction trace generalizing owned with
  | nil => cases hp
  | cons q rest ih =>
    obtain ⟨hq, hrest⟩ := h
    rcases List.mem_cons.mp hp with rfl | hp
    · exact ⟨owned, List.Subset.refl _, hq⟩
    · obtain ⟨owned', hsub, hbody⟩ := ih hrest hp
      exact ⟨owned', fun x hx => hsub (List.mem_append_left _ hx), hbody⟩

/-- Two bodies share at most the entry of one of them. -/
def SharesEntry (w : Canvas) (p q : WorkflowNode × List String) : Prop :=
  p.1.id ≠ q.1.id → ∀ x ∈ p.2, x ∈ q.2 →
    ((w.loopScope p.1).start ≠ "" ∧ x = (w.loopScope p.1).start) ∨
      ((w.loopScope q.1).start ≠ "" ∧ x = (w.loopScope q.1).start)

/-- What a body shares with one before it is its entry. -/
theorem Owning.pairwise {owned : List String} {trace : List (WorkflowNode × List String)}
    (h : Owning w owned trace) : trace.Pairwise w.SharesEntry := by
  induction trace generalizing owned with
  | nil => exact .nil
  | cons p rest ih =>
    obtain ⟨-, hrest⟩ := h
    refine .cons (fun q hq _ x hx hxq => .inr ?_) (ih hrest)
    obtain ⟨owned', hsub, hbody⟩ := hrest.isBody hq
    rcases hbody.checked x hxq with hentry | hchecked
    · exact hentry
    · exact absurd (hsub (List.mem_append_right _ hx)) hchecked.not_owned

/-- The loops that were given a body. -/
theorem bodiesFrom_trace {nodes : List WorkflowNode} {s s' : LoopBodies}
    (h : w.bodiesFrom nodes s = some (.ok s')) :
    ∃ trace : List (WorkflowNode × List String),
      trace.map Prod.fst = nodes.filter (fun node => w.IsGraphLoop node) ∧
      Owning w s.owned trace ∧
      s'.bodies = trace.foldl (fun d p => d.set p.1.id p.2) s.bodies := by
  induction nodes generalizing s with
  | nil =>
    cases h
    exact ⟨[], rfl, trivial, rfl⟩
  | cons node rest ih =>
    unfold bodiesFrom at h
    split at h
    · cases h
    · cases h
    · rename_i hbody
      obtain ⟨trace, hnodes, howning, hbodies⟩ := ih h
      refine ⟨trace, ?_, howning, hbodies⟩
      rw [hnodes, List.filter_cons_of_neg]
      simpa using not_isGraphLoop_of_loopBody hbody
    · rename_i body hbody
      obtain ⟨hloop, hisBody⟩ := loopBody_spec hbody
      obtain ⟨trace, hnodes, howning, hbodies⟩ := ih h
      refine ⟨(node, body) :: trace, ?_, ⟨hisBody, howning⟩, hbodies⟩
      rw [List.map_cons, hnodes, List.filter_cons_of_pos]
      simpa using hloop

/-- The bodies are found or refused in finitely many steps. -/
theorem bodiesFrom_isSome (nodes : List WorkflowNode) (s : LoopBodies) :
    (w.bodiesFrom nodes s).isSome := by
  induction nodes generalizing s with
  | nil => rfl
  | cons node rest ih =>
    obtain ⟨result, hresult⟩ := Option.isSome_iff_exists.mp (w.loopBody_isSome node s.owned)
    unfold bodiesFrom
    rw [hresult]
    rcases result with e | _ | body
    · rfl
    · exact ih s
    · exact ih _

omit [PyLib] in
/-- In the result each id has the body of the last loop with that id. -/
theorem get?_bodies_iff (trace : List (WorkflowNode × List String)) (id : String)
    (body : List String) :
    (trace.foldl (fun d p => d.set p.1.id p.2) (∅ : Dict String (List String))).get? id = some body ↔
      ∃ before node after, trace = before ++ (node, body) :: after ∧ node.id = id ∧
        ∀ later ∈ after, later.1.id ≠ id := by
  induction trace using List.reverseRecOn with
  | nil => simp
  | append_singleton trace p ih =>
    rw [List.foldl_append, List.foldl_cons, List.foldl_nil, Dict.get?_set]
    by_cases hid : id = p.1.id
    · rw [if_pos hid]
      constructor
      · intro h
        exact ⟨trace, p.1, [], by rw [← Option.some.inj h], hid.symm, by simp⟩
      · rintro ⟨before, node, after, htrace, -, hafter⟩
        rcases List.eq_nil_or_concat after with rfl | ⟨front, q, rfl⟩
        · obtain ⟨-, hp⟩ := List.append_inj' htrace rfl
          rw [(List.cons.inj hp).1]
        · rw [List.concat_eq_append, ← List.cons_append, ← List.append_assoc] at htrace
          obtain ⟨-, hp⟩ := List.append_inj' htrace rfl
          have hq : q ∈ front.concat q := by simp
          exact absurd ((List.cons.inj hp).1 ▸ hid.symm) (hafter q hq)
    · rw [if_neg hid, ih]
      constructor
      · rintro ⟨before, node, after, rfl, hnode, hafter⟩
        refine ⟨before, node, after ++ [p], by simp, hnode, fun later hlater => ?_⟩
        rcases List.mem_append.mp hlater with hlater | hlater
        · exact hafter later hlater
        · rw [List.mem_singleton.mp hlater]
          exact fun h => hid h.symm
      · rintro ⟨before, node, after, htrace, hnode, hafter⟩
        rcases List.eq_nil_or_concat after with rfl | ⟨front, q, rfl⟩
        · obtain ⟨-, hp⟩ := List.append_inj' htrace rfl
          have hsame : p.1 = node := congrArg Prod.fst (List.cons.inj hp).1
          exact absurd (hsame ▸ hnode.symm) hid
        · rw [List.concat_eq_append, ← List.cons_append, ← List.append_assoc] at htrace
          obtain ⟨hfront, -⟩ := List.append_inj' htrace rfl
          exact ⟨before, node, front, hfront, hnode, fun later hlater =>
            hafter later (by simp [hlater])⟩

/-- The bodies that were found, and the loops that they belong to. -/
theorem bodies_spec {bodies : Dict String (List String)}
    (h : w.deviceLoopBodies = some (.ok bodies)) :
    ∃ trace : List (WorkflowNode × List String),
      trace.map Prod.fst = w.graphLoops ∧ Owning w [] trace ∧
      ∀ id body, bodies.get? id = some body ↔
        ∃ before node after, trace = before ++ (node, body) :: after ∧ node.id = id ∧
          ∀ later ∈ after, later.1.id ≠ id := by
  unfold deviceLoopBodies at h
  obtain ⟨result, hresult, hmap⟩ := Option.map_eq_some_iff.mp h
  rcases result with e | s
  · cases hmap
  · obtain ⟨trace, hnodes, howning, hbodies⟩ := bodiesFrom_trace hresult
    have hsame : s.bodies = bodies := by simpa [Except.map] using hmap
    refine ⟨trace, hnodes, howning, fun id body => ?_⟩
    rw [← hsame, hbodies]
    exact get?_bodies_iff trace id body

/-- The bodies are well formed exactly when each entry is allowed in its body and on the path of
no other loop. -/
theorem wellFormed_iff {bodies : Dict String (List String)}
    (h : w.deviceLoopBodies = some (.ok bodies)) :
    w.WellFormed bodies ↔ w.EntriesAllowed := by
  obtain ⟨trace, hnodes, howning, hget⟩ := bodies_spec h
  -- A loop that owns a body has it in the result, and every body there has such a loop.
  have hloop {node : WorkflowNode} (hnode : w.OwnsBody node) :
      ∃ body, bodies.get? node.id = some body ∧
        ∀ x, x ∈ body ↔ w.OnChain (w.loopScope node) x := by
    obtain ⟨before, after, hsplit, hafter⟩ := hnode
    rw [← hnodes] at hsplit
    obtain ⟨before', rest, rfl, rfl, hrest⟩ := List.map_eq_append_iff.mp hsplit
    obtain ⟨p, after', rfl, rfl, rfl⟩ := List.map_eq_cons_iff.mp hrest
    obtain ⟨owned, -, hbody⟩ := howning.isBody (p := p) (by simp)
    refine ⟨p.2, (hget _ _).mpr ⟨before', p.1, after', rfl, rfl, fun later hlater => ?_⟩,
      hbody.mem_iff⟩
    exact hafter later.1 (List.mem_map_of_mem hlater)
  have howner {id : String} {body : List String} (hbody : bodies.get? id = some body) :
      ∃ node, w.OwnsBody node ∧ node.id = id ∧ (node, body) ∈ trace := by
    obtain ⟨before, node, after, rfl, hid, hafter⟩ := (hget id body).mp hbody
    refine ⟨node, ⟨before.map Prod.fst, after.map Prod.fst, ?_, ?_⟩, hid, by simp⟩
    · rw [← hnodes]
      simp
    · intro later hlater
      obtain ⟨q, hq, rfl⟩ := List.mem_map.mp hlater
      rw [hid]
      exact hafter q hq
  constructor
  · intro hwell node hnode hstart
    obtain ⟨body, hbody, hmem⟩ := hloop hnode
    have hin : (w.loopScope node).start ∈ body := (hmem _).mpr (onChain_start hstart)
    obtain ⟨hself, hallowed⟩ := hwell.apart _ _ hbody
    refine ⟨fun heq => hself (heq ▸ hin), hallowed _ hin, fun other hother hne hchain => ?_⟩
    obtain ⟨body', hbody', hmem'⟩ := hloop hother
    exact hwell.disjoint _ _ _ _ hne hbody' hbody ((hmem' _).mpr hchain) hin
  · intro hentries
    constructor
    case linear =>
      intro id body hbody
      obtain ⟨node, -, -, hmem⟩ := howner hbody
      obtain ⟨owned, -, hisBody⟩ := howning.isBody hmem
      exact ⟨hisBody.nodup, hisBody.linear⟩
    case apart =>
      intro id body hbody
      obtain ⟨node, hnode, rfl, hmem⟩ := howner hbody
      obtain ⟨owned, -, hisBody⟩ := howning.isBody hmem
      have hchecked : ∀ x ∈ body, x ≠ node.id ∧ w.actionOf x ∉ disallowedBodyActions := by
        intro x hx
        rcases hisBody.checked x hx with ⟨hstart, rfl⟩ | hchecked
        · obtain ⟨hne, hallowed, -⟩ := hentries node hnode hstart
          exact ⟨hne, hallowed⟩
        · exact ⟨hchecked.ne_loop, hchecked.allowed⟩
      exact ⟨fun hself => (hchecked _ hself).1 rfl, fun x hx => (hchecked x hx).2⟩
    case disjoint =>
      intro id id' body body' hne hbody hbody' x hx hx'
      obtain ⟨node, hnode, rfl, hmem⟩ := howner hbody
      obtain ⟨node', hnode', rfl, hmem'⟩ := howner hbody'
      obtain ⟨owned, -, hisBody⟩ := howning.isBody hmem
      obtain ⟨owned', -, hisBody'⟩ := howning.isBody hmem'
      have hsymm : Std.Symm w.SharesEntry :=
        ⟨fun p q hpq hid y hy hyq => (hpq hid.symm y hyq hy).symm⟩
      have hshares : w.SharesEntry (node, body) (node', body') :=
        howning.pairwise.forall_of_forall (fun p _ hid => absurd rfl hid) hmem hmem'
      rcases hshares hne x hx hx' with ⟨hstart, rfl⟩ | ⟨hstart, rfl⟩
      · exact (hentries node hnode hstart).2.2 node' hnode' hne.symm ((hisBody'.mem_iff _).mp hx')
      · exact (hentries node' hnode' hstart).2.2 node hnode hne ((hisBody.mem_iff _).mp hx)

end Canvas

/-! ## The compiler -/

/-- What `_compile_task_plan` makes of the conditions and of a single node, where it refuses
neither. -/
structure NodeCompiler where
  /-- The checks of the condition nodes and of their branches. -/
  conditions : Canvas → Except PyError Unit
  /-- The task node of a node that is no condition, with the bodies of the loops at hand. -/
  compile : Dict String (List String) → WorkflowNode → Except PyError Framework.WorkflowNode
  id_kept : ∀ {bodies node taskNode}, compile bodies node = .ok taskNode → taskNode.id = node.id

/-- `body_owners`. -/
def bodyOwners (bodies : Dict String (List String)) : Dict String String :=
  (bodies.entries.flatMap fun e => e.2.map fun id => (id, e.1)).foldl
    (fun d e => d.set e.1 e.2) ∅

/-- A task node as a step of a body. -/
def stepOf (node : Framework.WorkflowNode) : Value :=
  .dict [("id", .str node.id), ("action_id", .str node.workflowId),
    ("action_inputs", .ofDict node.inputMapping), ("retry_policy", .ofDict node.retryPolicy),
    ("repeat_policy", .ofDict node.repeatPolicy)]

/-- The inputs of a loop whose body is on the canvas. -/
def loopInputs (params : Dict String Value) (body : List Framework.WorkflowNode) :
    Dict String Value :=
  (((params.erase "action_id").erase "action_inputs").set "action_steps"
    (.list (body.map stepOf))).set "scope_outputs" (.str "$\x7boutputs\x7d")

/-- The nodes of a body among the task nodes. -/
def bodySteps (compiled : Dict String Framework.WorkflowNode) (body : List String) :
    Except PyError (List Framework.WorkflowNode) :=
  body.mapM fun id => match compiled.get? id with
    | some node => .ok node
    | none => .error (.keyError id)

/-- A task node of the plan: a loop takes the steps of its body, and what depends on a node of a
body depends on the loop. -/
def groupNode (bodies : Dict String (List String)) (compiled : Dict String Framework.WorkflowNode)
    (node : Framework.WorkflowNode) : Except PyError Framework.WorkflowNode := do
  let params ← match bodies.get? node.id with
    | none => pure node.inputMapping
    | some ids => do
      let body ← bodySteps compiled ids
      if body.any fun item => item.parallelGroup.isSome then
        throw (.other "device loop body cannot use parallel groups")
      else pure (loopInputs node.inputMapping body)
  return { node with
    inputMapping := params
    dependsOn :=
      (node.dependsOn.map fun dep => ((bodyOwners bodies).get? dep).getD dep).eraseDups }

/-- `grouped_nodes`. -/
def groupNodes (bodies : Dict String (List String)) (taskNodes : List Framework.WorkflowNode) :
    Except PyError (List Framework.WorkflowNode) :=
  if bodies.entries = [] then .ok taskNodes
  else (taskNodes.filter fun node => !(bodyOwners bodies).contains node.id).mapM
    (groupNode bodies (taskNodes.foldl (fun d node => d.set node.id node) ∅))

/-- `condition_nodes`. -/
def Canvas.conditionIds (w : Canvas) : List String :=
  (w.nodes.filter fun node => node.actionId = "utility.condition").map (·.id)

/-- The nodes of a canvas that have task nodes. -/
def Canvas.taskNodes (w : Canvas) : List WorkflowNode :=
  w.nodes.filter fun node => !w.conditionIds.contains node.id

/-- A `ValueError` as the `UnsupportedOperationError` that the compiler raises for it. -/
def asUnsupported : PyError → PyError
  | .valueError message => .other message
  | e => e

/-- `_compile_task_plan` with the bodies of the loops. -/
def compileWith [PyLib] (compiler : NodeCompiler) (w : Canvas) (workflowId version : String)
    (bodies : Dict String (List String)) : Except PyError Framework.TaskPlan := do
  compiler.conditions w
  let taskNodes ← w.taskNodes.mapM (compiler.compile bodies)
  let grouped ← groupNodes bodies taskNodes
  let plan : Framework.TaskPlan := {
    id := "workflow-task:" ++ workflowId ++ ":" ++ version
    version := version
    nodes := grouped }
  plan.validate.mapError asUnsupported
  return plan

/-- `_compile_task_plan`. -/
def compileTaskPlan [PyLib] (compiler : NodeCompiler) (w : Canvas) (workflowId version : String) :
    Option (Except PyError Framework.TaskPlan) :=
  w.deviceLoopBodies.map fun bodies => do
    compileWith compiler w workflowId version (← bodies.mapError asUnsupported)

/-- The nodes that some loop owns. -/
theorem mem_bodyOwners_iff (bodies : Dict String (List String)) (id : String) :
    (bodyOwners bodies).contains id = true ↔ ∃ e ∈ bodies.entries, id ∈ e.2 := by
  have hfold (l : List (String × String)) (d : Dict String String) :
      (l.foldl (fun d e => d.set e.1 e.2) d).contains id = true ↔
        d.contains id = true ∨ ∃ e ∈ l, e.1 = id := by
    induction l generalizing d with
    | nil => simp
    | cons e rest ih =>
      rw [List.foldl_cons, ih, Dict.contains_iff_mem_keys, Dict.mem_keys_set,
        Dict.contains_iff_mem_keys]
      simp only [List.mem_cons, exists_eq_or_imp]
      rw [eq_comm]
      tauto
  unfold bodyOwners
  rw [hfold]
  simp [Dict.contains]

/-- A task node keeps its id in the plan. -/
theorem id_of_groupNode {bodies : Dict String (List String)}
    {compiled : Dict String Framework.WorkflowNode} {node grouped : Framework.WorkflowNode}
    (h : groupNode bodies compiled node = .ok grouped) : grouped.id = node.id := by
  unfold groupNode at h
  split at h
  · cases h
    rfl
  · obtain ⟨body, -, h⟩ := Except.bind_eq_ok.mp h
    split at h
    · cases h
    · cases h
      rfl

/-- The ids of a traversal that keeps them. -/
theorem map_id_of_mapM {α β : Type} {f : α → Except PyError β} {key : α → String}
    {key' : β → String} (hf : ∀ {a b}, f a = .ok b → key' b = key a) {xs : List α} {ys : List β}
    (h : xs.mapM f = .ok ys) : ys.map key' = xs.map key := by
  have hall := Except.mapM_eq_ok.mp h
  clear h
  induction hall with
  | nil => rfl
  | cons hxy _ ih => rw [List.map_cons, List.map_cons, hf hxy, ih]

/-- The task nodes that no loop owns are the nodes of the plan. -/
theorem ids_of_groupNodes {bodies : Dict String (List String)}
    {taskNodes grouped : List Framework.WorkflowNode} (h : groupNodes bodies taskNodes = .ok grouped) :
    grouped.map (·.id) =
      (taskNodes.map (·.id)).filter fun id => !(bodyOwners bodies).contains id := by
  unfold groupNodes at h
  split at h
  · rename_i hempty
    cases h
    refine (List.filter_eq_self.mpr fun id _ => ?_).symm
    have hiff := mem_bodyOwners_iff bodies id
    rw [hempty] at hiff
    simpa using hiff
  · rw [map_id_of_mapM (fun hgroup => id_of_groupNode hgroup) h, List.filter_map]
    rfl

/-- The plan has the nodes of the canvas but for the conditions and for the nodes of the bodies. -/
theorem planIds_of_compile [PyLib] {compiler : NodeCompiler} {w : Canvas}
    {workflowId version : String} {bodies : Dict String (List String)} {plan : Framework.TaskPlan}
    (h : compileWith compiler w workflowId version bodies = .ok plan) :
    plan.nodes.map (·.id) =
      (w.taskNodes.map (·.id)).filter fun id => !(bodyOwners bodies).contains id := by
  obtain ⟨-, -, h⟩ := Except.bind_eq_ok.mp h
  obtain ⟨taskNodes, htasks, h⟩ := Except.bind_eq_ok.mp h
  obtain ⟨grouped, hgrouped, h⟩ := Except.bind_eq_ok.mp h
  obtain ⟨-, -, h⟩ := Except.bind_eq_ok.mp h
  cases h
  rw [ids_of_groupNodes hgrouped, map_id_of_mapM (fun hnode => compiler.id_kept hnode) htasks]

/-! ## Loop bodies as a whole -/

namespace Canvas

variable [PyLib]

/-- What the compiler leaves out of the plan. -/
def LeavesOut (w : Canvas) (bodies : Dict String (List String)) : Prop :=
  ∀ (compiler : NodeCompiler) (workflowId version : String) (plan : Framework.TaskPlan),
    compileTaskPlan compiler w workflowId version = some (.ok plan) →
      plan.nodes.map (·.id) = (w.taskNodes.map (·.id)).filter fun id =>
        decide ¬ ∃ e ∈ bodies.entries, id ∈ e.2

/-- The bodies of a canvas are found or refused; those that are found are left out of the plan, and
they are well formed exactly when each entry is allowed in its body and on the path of no other
loop. -/
theorem deviceLoopBodies_correct (w : Canvas) :
    (∃ result, w.deviceLoopBodies = some result) ∧
      ∀ bodies, w.deviceLoopBodies = some (.ok bodies) →
        ((w.WellFormed bodies ∧ w.LeavesOut bodies) ↔ w.EntriesAllowed) := by
  refine ⟨?_, fun bodies h => ?_⟩
  · obtain ⟨result, hresult⟩ := Option.isSome_iff_exists.mp (bodiesFrom_isSome w.nodes {})
    exact ⟨result.map (·.bodies), by rw [deviceLoopBodies, hresult]; rfl⟩
  · have hleaves : w.LeavesOut bodies := by
      intro compiler workflowId version plan hplan
      unfold compileTaskPlan at hplan
      rw [h] at hplan
      have hcompile : compileWith compiler w workflowId version bodies = .ok plan :=
        Option.some.inj hplan
      rw [planIds_of_compile hcompile]
      refine List.filter_congr fun id _ => ?_
      rw [Bool.eq_iff_iff, Bool.not_eq_true', decide_eq_true_eq, ← mem_bodyOwners_iff,
        Bool.not_eq_true]
    rw [← wellFormed_iff h]
    exact and_iff_left hleaves

/-- A loop whose body begins with the call of another workflow. -/
def callCanvas : Canvas where
  nodes := [{ id := "each", actionId := "loop.for_each" },
    { id := "call", actionId := "workflow.call" }]
  edges := [{ source := "each", target := "call", sourceHandle := .str "body" }]

omit [PyLib] in
/-- The call is taken into the body. -/
theorem not_wellFormed_callCanvas :
    letI := PyLib.decimal
    callCanvas.deviceLoopBodies = some (.ok ⟨[("each", ["call"])]⟩) ∧
      ¬ callCanvas.WellFormed ⟨[("each", ["call"])]⟩ := by
  refine ⟨by decide +kernel, fun h => ?_⟩
  exact (h.apart "each" ["call"] rfl).2 "call" List.mem_cons_self (by decide +kernel)

end Canvas

end DeviceShell.Studio
