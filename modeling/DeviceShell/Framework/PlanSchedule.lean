import DeviceShell.Lib.Fallible
import DeviceShell.Lib.Layering
import DeviceShell.Framework.TaskPlan

/-!
# The schedule of a task plan

`TaskPlan.validate` accepts exactly the plans whose nodes can be scheduled (`validate_iff_valid`). Both
`_ordered_nodes` and `execution_batches` take the nodes away in batches of nodes that wait for nothing
that is left, the one all that are ready, sorted by id, the other the first that is ready with its
group. For an accepted plan both come to an end, name every node once, and put it after its
dependencies (`Valid.schedule`, `accepted_iff_scheduled`). `_validate_input_dependencies` collects the ancestors along the
order and accepts exactly the plans whose references name nodes they depend on, directly or through
others (`inputDependencies_iff`).
-/

namespace DeviceShell.Framework

open Layering Relation

namespace TaskPlan

/-- The second node names the first among its dependencies. -/
abbrev DependsOn (plan : TaskPlan) : String → String → Prop :=
  Precedes WorkflowNode.id WorkflowNode.dependsOn plan.nodes

/-- A plan that can be scheduled. -/
structure Valid (plan : TaskPlan) : Prop where
  id : ¬ isBlank plan.id
  version : ¬ isBlank plan.version
  nonempty : plan.nodes ≠ []
  distinct : (plan.nodes.map (·.id)).Nodup
  workflow : ∀ node ∈ plan.nodes, ¬ isBlank node.workflowId
  known : ∀ node ∈ plan.nodes, ∀ d ∈ node.dependsOn, d ∈ plan.nodes.map (·.id)
  apart : ∀ group, ∀ a ∈ plan.nodes, ∀ b ∈ plan.nodes,
    a.group? = some group → b.group? = some group → a.id ∉ b.dependsOn
  acyclic : GraphSplice.Acyclic plan.DependsOn

/-! ## The orders -/

/-- The batches of a run over the nodes. -/
abbrev Runs (nodes : List WorkflowNode) (done : List String) : List (List WorkflowNode) → Prop :=
  Drains WorkflowNode.id WorkflowNode.dependsOn nodes done

theorem readyAfter_iff {node : WorkflowNode} {ids : List String} :
    node.readyAfter ids = true ↔ Ready WorkflowNode.dependsOn ids node := by
  unfold WorkflowNode.readyAfter Ready
  simp only [List.all_eq_true, List.contains_eq_mem, decide_eq_true_eq]

theorem sortById_perm (nodes : List WorkflowNode) : (sortById nodes).Perm nodes :=
  List.perm_insertionSort _ nodes

theorem without_eq_rest {nodes batch : List WorkflowNode} :
    without nodes (batch.map (·.id)) = rest WorkflowNode.id nodes batch := rfl

/-- Sorting a batch does not change what it leaves. -/
theorem rest_sortById {nodes ready : List WorkflowNode} :
    rest WorkflowNode.id nodes (sortById ready) = without nodes (ready.map (·.id)) := by
  unfold rest without
  refine List.filter_congr fun node _ => ?_
  have hsame : node.id ∈ (sortById ready).map (·.id) ↔ node.id ∈ ready.map (·.id) :=
    ((sortById_perm ready).map _).mem_iff
  rw [List.contains_eq_mem, List.contains_eq_mem, decide_eq_decide.2 hsame]

/-- The nodes of a round of `_ordered_nodes`. -/
def roundOf (pending ordered : List WorkflowNode) : List WorkflowNode :=
  pending.filter fun node => node.readyAfter (ordered.map (·.id))

theorem orderLoop_succ {n : ℕ} {pending ordered : List WorkflowNode} (hpending : pending ≠ []) :
    orderLoop (n + 1) pending ordered =
      if (roundOf pending ordered).isEmpty then
        .error (.valueError "task plan contains a dependency cycle")
      else orderLoop n (without pending ((roundOf pending ordered).map (·.id)))
        (ordered ++ sortById (roundOf pending ordered)) := by
  obtain ⟨node, others, rfl⟩ := List.exists_cons_of_ne_nil hpending
  rfl

/-- What `_ordered_nodes` comes to are batches of the nodes. -/
theorem orderLoop_ok {n : ℕ} {pending ordered nodes : List WorkflowNode}
    (h : orderLoop n pending ordered = .ok nodes) :
    ∃ batches, Runs pending (ordered.map (·.id)) batches ∧ nodes = ordered ++ batches.flatten := by
  induction n generalizing pending ordered with
  | zero =>
    cases pending with
    | nil =>
      injection h with h
      exact ⟨[], .nil, by simp [h]⟩
    | cons node others => cases h
  | succ n ih =>
    by_cases hpending : pending = []
    · rw [hpending] at h ⊢
      injection h with h
      exact ⟨[], .nil, by simp [h]⟩
    · rw [orderLoop_succ hpending] at h
      split at h
      · cases h
      · obtain ⟨batches, hruns, heq⟩ := ih h
        let batch := sortById (roundOf pending ordered)
        have hbatch : batch.Subperm pending :=
          (sortById_perm _).subperm.trans List.filter_sublist.subperm
        have hready : ∀ node ∈ batch, Ready WorkflowNode.dependsOn (ordered.map (·.id)) node := by
          intro node hnode
          have hround : node ∈ roundOf pending ordered := (sortById_perm _).mem_iff.1 hnode
          exact readyAfter_iff.1 (List.mem_filter.1 hround).2
        have hrest : Runs (rest WorkflowNode.id pending batch)
            (ordered.map (·.id) ++ batch.map (·.id)) batches := by
          rw [rest_sortById, ← List.map_append]
          exact hruns
        refine ⟨batch :: batches, .cons hbatch hready hrest, ?_⟩
        rw [heq, List.flatten_cons, List.append_assoc]

/-- `_ordered_nodes` comes to an end where the nodes do not wait for themselves. -/
theorem orderLoop_ends {n : ℕ} {pending ordered : List WorkflowNode} (hn : pending.length ≤ n)
    (hclosed : Closed WorkflowNode.id WorkflowNode.dependsOn pending (ordered.map (·.id)))
    (hacyclic : GraphSplice.Acyclic (Precedes WorkflowNode.id WorkflowNode.dependsOn pending)) :
    ∃ nodes, orderLoop n pending ordered = .ok nodes := by
  induction n generalizing pending ordered with
  | zero =>
    have hnil : pending = [] := List.length_eq_zero_iff.1 (by omega)
    rw [hnil]
    exact ⟨ordered, rfl⟩
  | succ n ih =>
    by_cases hpending : pending = []
    · rw [hpending]
      exact ⟨ordered, rfl⟩
    · obtain ⟨node, hnode, hready⟩ := exists_ready hclosed hacyclic hpending
      have hround : node ∈ roundOf pending ordered :=
        List.mem_filter.2 ⟨hnode, readyAfter_iff.2 hready⟩
      have hsome : ¬ (roundOf pending ordered).isEmpty = true := by
        rw [List.isEmpty_iff]
        exact List.ne_nil_of_mem hround
      rw [orderLoop_succ hpending, if_neg hsome, ← rest_sortById]
      have hsorted : node ∈ sortById (roundOf pending ordered) :=
        (sortById_perm _).mem_iff.2 hround
      have hless : (rest WorkflowNode.id pending (sortById (roundOf pending ordered))).length <
          pending.length := length_rest_lt hnode hsorted
      refine ih (by omega) ?_ (acyclic_rest hacyclic)
      rw [List.map_append]
      exact hclosed.rest

/-- The batch that `execution_batches` takes when a node is the first that is ready. -/
def batchOf (first : WorkflowNode) (ready : List WorkflowNode) : List WorkflowNode :=
  match first.group? with
  | some _ => ready.filter fun node => node.parallelGroup == first.parallelGroup
  | none => [first]

theorem batchLoop_succ {n : ℕ} {pending : List WorkflowNode} {completed : List String}
    {first : WorkflowNode} {others : List WorkflowNode} (hpending : pending ≠ [])
    (hready : (pending.filter fun node => node.readyAfter completed) = first :: others) :
    batchLoop (n + 1) pending completed =
      (batchLoop n (without pending ((batchOf first (first :: others)).map (·.id)))
        (completed ++ (batchOf first (first :: others)).map (·.id)) >>=
        fun later => .ok (batchOf first (first :: others) :: later)) := by
  obtain ⟨node, left, rfl⟩ := List.exists_cons_of_ne_nil hpending
  conv_lhs => unfold batchLoop
  simp only [hready]
  rfl

theorem batchLoop_stuck {n : ℕ} {pending : List WorkflowNode} {completed : List String}
    (hpending : pending ≠ [])
    (hready : (pending.filter fun node => node.readyAfter completed) = []) :
    batchLoop (n + 1) pending completed =
      .error (.valueError "task plan contains a dependency cycle") := by
  obtain ⟨node, left, rfl⟩ := List.exists_cons_of_ne_nil hpending
  unfold batchLoop
  simp only [hready]

/-- A batch is one node without a group, or some nodes of one group. -/
def OneGroup (batch : List WorkflowNode) : Prop :=
  (∃ node, batch = [node] ∧ node.group? = none) ∨
    ∃ group, batch ≠ [] ∧ ∀ node ∈ batch, node.group? = some group

section

variable {first : WorkflowNode} {ready : List WorkflowNode}

theorem batchOf_sublist : (batchOf first (first :: ready)).Sublist (first :: ready) := by
  unfold batchOf
  split
  · exact List.filter_sublist
  · exact List.singleton_sublist.2 List.mem_cons_self

theorem first_mem_batchOf : first ∈ batchOf first (first :: ready) := by
  unfold batchOf
  split
  · exact List.mem_filter.2 ⟨List.mem_cons_self, by simp⟩
  · exact List.mem_singleton.2 rfl

theorem oneGroup_batchOf : OneGroup (batchOf first (first :: ready)) := by
  cases hgroup : first.group? with
  | none =>
    left
    refine ⟨first, ?_, hgroup⟩
    unfold batchOf
    rw [hgroup]
  | some group =>
    right
    refine ⟨group, List.ne_nil_of_mem first_mem_batchOf, fun node hnode => ?_⟩
    unfold batchOf at hnode
    rw [hgroup] at hnode
    have hsame : node.parallelGroup = first.parallelGroup := by
      simpa using (List.mem_filter.1 hnode).2
    rw [← hgroup]
    unfold WorkflowNode.group?
    rw [hsame]

end

/-- What `execution_batches` comes to are batches of the nodes. -/
theorem batchLoop_ok {n : ℕ} {pending : List WorkflowNode} {completed : List String}
    {batches : List (List WorkflowNode)} (h : batchLoop n pending completed = .ok batches) :
    Runs pending completed batches ∧ ∀ batch ∈ batches, OneGroup batch := by
  induction n generalizing pending completed batches with
  | zero =>
    cases pending with
    | nil =>
      injection h with h
      rw [← h]
      exact ⟨.nil, fun batch hbatch => absurd hbatch List.not_mem_nil⟩
    | cons node others => cases h
  | succ n ih =>
    by_cases hpending : pending = []
    · rw [hpending] at h ⊢
      injection h with h
      rw [← h]
      exact ⟨.nil, fun batch hbatch => absurd hbatch List.not_mem_nil⟩
    · cases hready : pending.filter fun node => node.readyAfter completed with
      | nil =>
        rw [batchLoop_stuck hpending hready] at h
        cases h
      | cons first others =>
        rw [batchLoop_succ hpending hready] at h
        obtain ⟨later, hlater, heq⟩ := Except.bind_eq_ok.1 h
        injection heq with heq
        subst heq
        obtain ⟨hruns, hgroups⟩ := ih hlater
        have hsub : (batchOf first (first :: others)).Sublist pending := by
          refine batchOf_sublist.trans ?_
          rw [← hready]
          exact List.filter_sublist
        have hall : ∀ node ∈ batchOf first (first :: others),
            Ready WorkflowNode.dependsOn completed node := by
          intro node hnode
          have hin : node ∈ pending.filter fun node => node.readyAfter completed := by
            rw [hready]
            exact batchOf_sublist.subset hnode
          exact readyAfter_iff.1 (List.mem_filter.1 hin).2
        refine ⟨.cons hsub.subperm hall hruns, fun batch hbatch => ?_⟩
        rcases List.mem_cons.1 hbatch with rfl | hbatch
        · exact oneGroup_batchOf
        · exact hgroups batch hbatch

/-- `execution_batches` comes to an end where the nodes do not wait for themselves. -/
theorem batchLoop_ends {n : ℕ} {pending : List WorkflowNode} {completed : List String}
    (hn : pending.length ≤ n)
    (hclosed : Closed WorkflowNode.id WorkflowNode.dependsOn pending completed)
    (hacyclic : GraphSplice.Acyclic (Precedes WorkflowNode.id WorkflowNode.dependsOn pending)) :
    ∃ batches, batchLoop n pending completed = .ok batches := by
  induction n generalizing pending completed with
  | zero =>
    have hnil : pending = [] := List.length_eq_zero_iff.1 (by omega)
    rw [hnil]
    exact ⟨[], rfl⟩
  | succ n ih =>
    by_cases hpending : pending = []
    · rw [hpending]
      exact ⟨[], rfl⟩
    · obtain ⟨node, hnode, hwaits⟩ := exists_ready hclosed hacyclic hpending
      cases hready : pending.filter fun node => node.readyAfter completed with
      | nil =>
        have hin : node ∈ pending.filter fun node => node.readyAfter completed :=
          List.mem_filter.2 ⟨hnode, readyAfter_iff.2 hwaits⟩
        rw [hready] at hin
        exact absurd hin List.not_mem_nil
      | cons first others =>
        have hfirst : first ∈ pending := by
          have hin : first ∈ pending.filter fun node => node.readyAfter completed := by
            rw [hready]
            exact List.mem_cons_self
          exact List.mem_of_mem_filter hin
        have hless : (rest WorkflowNode.id pending (batchOf first (first :: others))).length <
            pending.length := length_rest_lt hfirst first_mem_batchOf
        have hend : ∃ later, batchLoop n
            (without pending ((batchOf first (first :: others)).map (·.id)))
            (completed ++ (batchOf first (first :: others)).map (·.id)) = .ok later := by
          rw [without_eq_rest]
          exact ih (by omega) hclosed.rest (acyclic_rest hacyclic)
        obtain ⟨later, hlater⟩ := hend
        rw [batchLoop_succ hpending hready, hlater]
        exact ⟨_, rfl⟩

/-! ## Accepted plans -/

section

variable {plan : TaskPlan}

/-- Nodes with different ids are the values of the dictionary of them. -/
theorem byId_of_nodup {nodes : List WorkflowNode} (h : (nodes.map (·.id)).Nodup) :
    byId nodes = nodes := by
  unfold byId Dict.values
  rw [Dict.entries_foldl_set _ _ _ h _ (by simp)]
  show List.map Prod.snd ([] ++ _) = _
  rw [List.nil_append, List.map_map]
  exact List.map_id nodes

/-- A node names no unknown dependency and a workflow. -/
theorem nodeError_eq_none_iff {ids : List String} {node : WorkflowNode} :
    nodeError ids node = none ↔
      ¬ isBlank node.workflowId ∧ ∀ d ∈ node.dependsOn, d ∈ ids := by
  have hunknown : ((node.dependsOn.filter fun d => !ids.contains d).dedup).isEmpty = true ↔
      ∀ d ∈ node.dependsOn, d ∈ ids := by
    rw [List.isEmpty_iff, List.dedup_eq_nil, List.filter_eq_nil_iff]
    simp only [List.contains_eq_mem, Bool.not_eq_true', decide_eq_false_iff_not, not_not]
  unfold nodeError
  by_cases hblank : isBlank node.workflowId = true
  · simp [hblank]
  · rw [if_neg hblank]
    by_cases hknown : ∀ d ∈ node.dependsOn, d ∈ ids
    · rw [if_pos (hunknown.2 hknown)]
      exact ⟨fun _ => ⟨hblank, hknown⟩, fun _ => rfl⟩
    · rw [if_neg (mt hunknown.1 hknown)]
      simp only [reduceCtorEq, false_iff]
      exact fun h => hknown h.2

/-- A group has a member that depends on another. -/
def groupConflict (plan : TaskPlan) (group : String) : Bool :=
  plan.nodes.any fun node => (plan.members group).contains node.id &&
    node.dependsOn.any fun d => (plan.members group).contains d

theorem mem_members {group id : String} :
    id ∈ plan.members group ↔ ∃ node ∈ plan.nodes, node.group? = some group ∧ node.id = id := by
  unfold members
  simp only [List.mem_map, List.mem_filter, beq_iff_eq, and_assoc]

theorem groupConflict_iff (hdistinct : (plan.nodes.map (·.id)).Nodup) {group : String} :
    groupConflict plan group = true ↔ ∃ a ∈ plan.nodes, ∃ b ∈ plan.nodes,
      a.group? = some group ∧ b.group? = some group ∧ a.id ∈ b.dependsOn := by
  unfold groupConflict
  simp only [List.any_eq_true, Bool.and_eq_true, List.contains_eq_mem, decide_eq_true_eq]
  constructor
  · rintro ⟨b, hb, hmember, d, hd, hdmember⟩
    obtain ⟨a, ha, hagroup, rfl⟩ := mem_members.1 hdmember
    obtain ⟨b', hb', hbgroup, hid⟩ := mem_members.1 hmember
    have hsame : b' = b := eq_of_key hdistinct hb' hb hid
    exact ⟨a, ha, b, hb, hagroup, hsame ▸ hbgroup, hd⟩
  · rintro ⟨a, ha, b, hb, hagroup, hbgroup, hdep⟩
    exact ⟨b, hb, mem_members.2 ⟨b, hb, hbgroup, rfl⟩, a.id, hdep,
      mem_members.2 ⟨a, ha, hagroup, rfl⟩⟩

/-- The groups of the nodes. -/
def groups (plan : TaskPlan) : List String := (plan.nodes.filterMap (·.group?)).dedup

/-- No group has a member that depends on another. -/
theorem groups_apart_iff (hdistinct : (plan.nodes.map (·.id)).Nodup) :
    plan.groups.find? (groupConflict plan) = none ↔
      ∀ group, ∀ a ∈ plan.nodes, ∀ b ∈ plan.nodes,
        a.group? = some group → b.group? = some group → a.id ∉ b.dependsOn := by
  rw [List.find?_eq_none]
  constructor
  · intro hnone group a ha b hb hagroup hbgroup hdep
    have hgroup : group ∈ plan.groups := by
      unfold groups
      rw [List.mem_dedup, List.mem_filterMap]
      exact ⟨a, ha, hagroup⟩
    exact hnone group hgroup ((groupConflict_iff hdistinct).2
      ⟨a, ha, b, hb, hagroup, hbgroup, hdep⟩)
  · intro hapart group _ hconflict
    obtain ⟨a, ha, b, hb, hagroup, hbgroup, hdep⟩ := (groupConflict_iff hdistinct).1 hconflict
    exact hapart group a ha b hb hagroup hbgroup hdep

/-- The checks of `validate`, one after the other. -/
theorem validate_ok_iff : plan.validate = .ok () ↔
    (isBlank plan.id || isBlank plan.version || plan.nodes.isEmpty) = false ∧
    (plan.nodes.map (·.id)).dedup.length = plan.nodes.length ∧
    plan.nodes.findSome? (nodeError (plan.nodes.map (·.id))) = none ∧
    plan.groups.find? (groupConflict plan) = none ∧ ∃ nodes, plan.orderedNodes = .ok nodes := by
  unfold validate groups groupConflict
  cases hhead : isBlank plan.id || isBlank plan.version || plan.nodes.isEmpty with
  | true => simp [bind, Except.bind, throw, throwThe, MonadExceptOf.throw]
  | false =>
    by_cases hids : (plan.nodes.map (·.id)).dedup.length = plan.nodes.length
    · simp only [hids, Bool.false_eq_true, if_false, ne_eq, not_true_eq_false]
      cases hnodes : plan.nodes.findSome? (nodeError (plan.nodes.map (·.id))) with
      | some e => simp [bind, Except.bind, throw, throwThe, MonadExceptOf.throw]
      | none =>
        simp only [true_and]
        split
        · next group hgroup =>
          rw [hgroup]
          simp [bind, Except.bind, throw, throwThe, MonadExceptOf.throw]
        · next hgroup =>
          rw [hgroup]
          cases hordered : plan.orderedNodes <;> simp [bind, Except.bind, pure, Except.pure]
    · simp [hids, bind, Except.bind, throw, throwThe, MonadExceptOf.throw]

theorem distinct_iff : (plan.nodes.map (·.id)).dedup.length = plan.nodes.length ↔
    (plan.nodes.map (·.id)).Nodup := by
  constructor
  · intro hlength
    have hsub : (plan.nodes.map (·.id)).dedup.Sublist (plan.nodes.map (·.id)) :=
      List.dedup_sublist _
    rw [← hsub.eq_of_length (by rw [hlength, List.length_map])]
    exact List.nodup_dedup _
  · intro hnodup
    rw [hnodup.dedup, List.length_map]

/-- `_ordered_nodes` comes to an end exactly where no node waits for itself. -/
theorem orderedNodes_iff (hdistinct : (plan.nodes.map (·.id)).Nodup)
    (hknown : ∀ node ∈ plan.nodes, ∀ d ∈ node.dependsOn, d ∈ plan.nodes.map (·.id)) :
    (∃ nodes, plan.orderedNodes = .ok nodes) ↔ GraphSplice.Acyclic plan.DependsOn := by
  unfold orderedNodes
  rw [byId_of_nodup hdistinct]
  constructor
  · rintro ⟨nodes, hnodes⟩
    obtain ⟨batches, hruns, -⟩ := orderLoop_ok hnodes
    exact hruns.acyclic hdistinct fun node _ => List.not_mem_nil
  · intro hacyclic
    exact orderLoop_ends (le_refl _) (fun node hnode d hd => .inr (hknown node hnode d hd)) hacyclic

/-- `validate` accepts exactly the plans that can be scheduled. -/
theorem validate_iff_valid (plan : TaskPlan) : plan.validate = .ok () ↔ plan.Valid := by
  rw [validate_ok_iff, distinct_iff]
  simp only [Bool.or_eq_false_iff, List.isEmpty_eq_false_iff, List.findSome?_eq_none_iff,
    nodeError_eq_none_iff]
  constructor
  · rintro ⟨⟨⟨hid, hversion⟩, hnonempty⟩, hdistinct, hnodes, hgroups, hordered⟩
    have hknown : ∀ node ∈ plan.nodes, ∀ d ∈ node.dependsOn, d ∈ plan.nodes.map (·.id) :=
      fun node hnode => (hnodes node hnode).2
    exact
      { id := by simp [hid]
        version := by simp [hversion]
        nonempty := hnonempty
        distinct := hdistinct
        workflow := fun node hnode => (hnodes node hnode).1
        known := hknown
        apart := (groups_apart_iff hdistinct).1 hgroups
        acyclic := (orderedNodes_iff hdistinct hknown).1 hordered }
  · intro h
    exact ⟨⟨⟨by simpa using h.id, by simpa using h.version⟩, h.nonempty⟩, h.distinct,
      fun node hnode => ⟨h.workflow node hnode, h.known node hnode⟩,
      (groups_apart_iff h.distinct).2 h.apart, (orderedNodes_iff h.distinct h.known).2 h.acyclic⟩

/-! ## The schedule -/

/-- Both orders of a plan, and what they keep to. -/
structure Schedule (plan : TaskPlan) (ordered : List WorkflowNode)
    (batches : List (List WorkflowNode)) : Prop where
  orderedNodes : plan.orderedNodes = .ok ordered
  executionBatches : plan.executionBatches = .ok batches
  each : ordered.Perm plan.nodes
  after : ∀ pre node post, ordered = pre ++ node :: post →
    ∀ d ∈ node.dependsOn, d ∈ pre.map (·.id)
  eachBatched : batches.flatten.Perm plan.nodes
  batchAfter : ∀ pre batch post, batches = pre ++ batch :: post →
    ∀ node ∈ batch, ∀ d ∈ node.dependsOn, d ∈ pre.flatten.map (·.id)
  oneGroup : ∀ batch ∈ batches, OneGroup batch

/-- An order of a plan that can be scheduled. -/
theorem Valid.ordered (h : plan.Valid) : ∃ ordered, plan.orderedNodes = .ok ordered ∧
    ordered.Perm plan.nodes ∧ ∀ pre node post, ordered = pre ++ node :: post →
      ∀ d ∈ node.dependsOn, d ∈ pre.map (·.id) := by
  obtain ⟨ordered, hordered⟩ := (orderedNodes_iff h.distinct h.known).2 h.acyclic
  refine ⟨ordered, hordered, ?_⟩
  unfold orderedNodes at hordered
  rw [byId_of_nodup h.distinct] at hordered
  obtain ⟨batches, hruns, heq⟩ := orderLoop_ok hordered
  rw [List.nil_append] at heq
  rw [heq]
  refine ⟨hruns.perm h.distinct, fun pre node post hsplit d hd => ?_⟩
  exact (hruns.before_flatten hsplit hd).resolve_left List.not_mem_nil

/-- Every node of a plan that can be scheduled is scheduled once, after its dependencies. -/
theorem Valid.schedule (hvalid : plan.Valid) : ∃ ordered batches, plan.Schedule ordered batches := by
  obtain ⟨ordered, hordered, hperm, hafter⟩ := hvalid.ordered
  have hids : (ordered.map (·.id)).Perm (plan.nodes.map (·.id)) := hperm.map _
  have hdistinct : (ordered.map (·.id)).Nodup := hids.nodup_iff.2 hvalid.distinct
  have hclosed : Closed WorkflowNode.id WorkflowNode.dependsOn ordered [] := by
    intro node hnode d hd
    exact .inr (hids.mem_iff.2 (hvalid.known node (hperm.mem_iff.1 hnode) d hd))
  have hacyclic : GraphSplice.Acyclic
      (Precedes WorkflowNode.id WorkflowNode.dependsOn ordered) := by
    intro id hcycle
    refine hvalid.acyclic id (TransGen.mono (fun a b hab => ?_) _ _ hcycle)
    obtain ⟨node, hnode, hid, hdep⟩ := hab
    exact ⟨node, hperm.mem_iff.1 hnode, hid, hdep⟩
  obtain ⟨batches, hbatches⟩ := batchLoop_ends (le_refl _) hclosed hacyclic
  obtain ⟨hruns, hgroups⟩ := batchLoop_ok hbatches
  refine ⟨ordered, batches, ?_⟩
  exact
    { orderedNodes := hordered
      executionBatches := by
        unfold executionBatches
        rw [hordered]
        exact hbatches
      each := hperm
      after := hafter
      eachBatched := (hruns.perm hdistinct).trans hperm
      batchAfter := fun pre batch post hsplit node hnode d hd =>
        (hruns.before hsplit hnode hd).resolve_left List.not_mem_nil
      oneGroup := hgroups }

end

end TaskPlan

/-! ## References to other nodes -/

section

variable {plan : TaskPlan}

/-- The ancestors of some nodes are collected. -/
def Collected (plan : TaskPlan) (nodes : List WorkflowNode) (known : Dict String (List String)) :
    Prop :=
  ∀ node ∈ nodes, ∃ ids, known.get? node.id = some ids ∧
    ∀ id, id ∈ ids ↔ TransGen plan.DependsOn id node.id

theorem dependsOn_iff (hvalid : plan.Valid) {node : WorkflowNode} (hnode : node ∈ plan.nodes)
    {d : String} : plan.DependsOn d node.id ↔ d ∈ node.dependsOn := by
  constructor
  · rintro ⟨other, hother, hid, hd⟩
    have hsame : other = node := eq_of_key hvalid.distinct hother hnode hid
    exact hsame ▸ hd
  · intro hd
    exact ⟨node, hnode, rfl, hd⟩

/-- The ancestors of a node are its dependencies and their ancestors. -/
theorem ancestor_iff (hvalid : plan.Valid) {node : WorkflowNode} (hnode : node ∈ plan.nodes)
    {id : String} : TransGen plan.DependsOn id node.id ↔
      ∃ d ∈ node.dependsOn, id = d ∨ TransGen plan.DependsOn id d := by
  rw [TransGen.tail'_iff]
  constructor
  · rintro ⟨d, hpath, hd⟩
    refine ⟨d, (dependsOn_iff hvalid hnode).1 hd, ?_⟩
    rcases reflTransGen_iff_eq_or_transGen.1 hpath with heq | hpath
    · exact .inl heq.symm
    · exact .inr hpath
  · rintro ⟨d, hd, heq | hpath⟩
    · exact ⟨d, heq ▸ .refl, (dependsOn_iff hvalid hnode).2 hd⟩
    · exact ⟨d, hpath.to_reflTransGen, (dependsOn_iff hvalid hnode).2 hd⟩

/-- A node whose dependencies are collected adds its own ancestors. -/
theorem Collected.step {pre : List WorkflowNode} {known : Dict String (List String)}
    (h : Collected plan pre known) (hvalid : plan.Valid) {node : WorkflowNode}
    (hnode : node ∈ plan.nodes) (hnew : node.id ∉ pre.map (·.id))
    (hdeps : ∀ d ∈ node.dependsOn, d ∈ pre.map (·.id)) :
    Collected plan (pre ++ [node])
      (known.set node.id (node.dependsOn.flatMap fun d => d :: (known.get? d).getD [])) := by
  intro other hother
  rcases List.mem_append.1 hother with hother | hother
  · have hne : other.id ≠ node.id := fun heq => hnew (heq ▸ List.mem_map_of_mem hother)
    rw [Dict.get?_set_of_ne known hne]
    exact h other hother
  · rw [List.mem_singleton.1 hother]
    refine ⟨_, Dict.get?_set_self _ _ _, fun id => ?_⟩
    rw [ancestor_iff hvalid hnode, List.mem_flatMap]
    have hids (d : String) (hd : d ∈ node.dependsOn) :
        id ∈ d :: (known.get? d).getD [] ↔ id = d ∨ TransGen plan.DependsOn id d := by
      obtain ⟨dep, hdep, rfl⟩ := List.mem_map.1 (hdeps d hd)
      obtain ⟨ids, hget, hids⟩ := h dep hdep
      rw [hget, Option.getD_some, List.mem_cons, hids]
    constructor
    · rintro ⟨d, hd, hid⟩
      exact ⟨d, hd, (hids d hd).1 hid⟩
    · rintro ⟨d, hd, hid⟩
      exact ⟨d, hd, (hids d hd).2 hid⟩

/-- Along an order that respects the dependencies all ancestors are collected. -/
theorem collected_ancestors (hvalid : plan.Valid) {ordered : List WorkflowNode}
    (hperm : ordered.Perm plan.nodes) (hafter : ∀ pre node post, ordered = pre ++ node :: post →
      ∀ d ∈ node.dependsOn, d ∈ pre.map (·.id)) : Collected plan ordered (ancestors ordered) := by
  have hdistinct : (ordered.map (·.id)).Nodup := (hperm.map _).nodup_iff.2 hvalid.distinct
  -- The nodes that the fold has been through are collected.
  have hfold (post : List WorkflowNode) : ∀ (pre : List WorkflowNode)
      (known : Dict String (List String)), ordered = pre ++ post → Collected plan pre known →
      Collected plan ordered (post.foldl (fun known node =>
        known.set node.id (node.dependsOn.flatMap fun d => d :: (known.get? d).getD [])) known) := by
    induction post with
    | nil =>
      intro pre known hsplit h
      rw [hsplit, List.append_nil]
      exact h
    | cons node post ih =>
      intro pre known hsplit h
      have hnode : node ∈ plan.nodes := by
        refine hperm.mem_iff.1 ?_
        rw [hsplit]
        exact List.mem_append_right pre List.mem_cons_self
      have hnew : node.id ∉ pre.map (·.id) := by
        intro hin
        rw [hsplit, List.map_append, List.map_cons] at hdistinct
        exact (List.nodup_append'.1 hdistinct).2.2 hin List.mem_cons_self
      have hnext := h.step hvalid hnode hnew (hafter pre node post hsplit)
      refine ih (pre ++ [node]) _ ?_ hnext
      rw [hsplit, List.append_assoc]
      rfl
  exact hfold ordered [] ∅ rfl fun node hnode => absurd hnode List.not_mem_nil

/-- The references of a node that name a node of the plan name an ancestor. -/
theorem dependencyError_eq_none_iff {ids : List String} {known : Dict String (List String)}
    {node : WorkflowNode} : dependencyError ids known node = none ↔
      ∀ reference ∈ entryReferences node.inputMapping.entries, ∀ source,
        referenceSource reference = some source → source ∈ ids →
          source ∈ (known.get? node.id).getD [] := by
  unfold dependencyError
  rw [List.findSome?_eq_none_iff]
  refine forall₂_congr fun reference _ => ?_
  cases hsource : referenceSource reference with
  | none => simp
  | some source =>
    by_cases hin : source ∈ ids <;> by_cases hknown : source ∈ (known.get? node.id).getD []
    · simp [hin, hknown]
    · simp [hin, hknown]
    · simp [hin]
    · simp [hin]

/-- For a plan that can be scheduled, the check of its references is exact. -/
theorem TaskPlan.Valid.validateInputDependencies_iff (hvalid : plan.Valid) :
    validateInputDependencies plan = .ok () ↔
      ∀ node ∈ plan.nodes, ∀ reference ∈ entryReferences node.inputMapping.entries, ∀ source,
        referenceSource reference = some source → source ∈ plan.nodes.map (·.id) →
          TransGen plan.DependsOn source node.id := by
  obtain ⟨ordered, hordered, hperm, hafter⟩ := hvalid.ordered
  have hcollected := collected_ancestors hvalid hperm hafter
  have hnone : validateInputDependencies plan = .ok () ↔ plan.nodes.findSome?
      (dependencyError (plan.nodes.map (·.id)) (ancestors ordered)) = none := by
    unfold validateInputDependencies
    rw [hordered]
    simp only [bind, Except.bind]
    cases plan.nodes.findSome?
        (dependencyError (plan.nodes.map (·.id)) (ancestors ordered)) with
    | none => simp [pure, Except.pure]
    | some e => simp [throw, throwThe, MonadExceptOf.throw]
  rw [hnone, List.findSome?_eq_none_iff]
  refine forall₂_congr fun node hnode => ?_
  rw [dependencyError_eq_none_iff]
  obtain ⟨ids, hget, hids⟩ := hcollected node (hperm.mem_iff.2 hnode)
  rw [hget, Option.getD_some]
  simp only [hids]

/-- `_validate_input_dependencies` accepts exactly the plans whose references to nodes name nodes
that come before. -/
theorem inputDependencies_iff (h : plan.validate = .ok ()) :
    validateInputDependencies plan = .ok () ↔
      ∀ node ∈ plan.nodes, ∀ reference ∈ entryReferences node.inputMapping.entries, ∀ source,
        referenceSource reference = some source → source ∈ plan.nodes.map (·.id) →
          TransGen plan.DependsOn source node.id := by
  have hvalid : plan.Valid := (TaskPlan.validate_iff_valid plan).1 h
  exact hvalid.validateInputDependencies_iff

end

/-- The last of three nodes reads the first through the second. -/
def chainPlan : TaskPlan where
  id := "chain"
  nodes := [
    { id := "report", workflowId := "result.save", dependsOn := ["parse"],
      inputMapping := ⟨[("value", .str "$\x7bcollect.text\x7d $\x7boutputs.parse.rows\x7d")]⟩ },
    { id := "collect", workflowId := "device.command" },
    { id := "parse", workflowId := "text.parse", dependsOn := ["collect"],
      inputMapping := ⟨[("text", .str "$\x7bcollect.text\x7d")]⟩ }]

theorem inputDependencies_iff_chain : TransGen chainPlan.DependsOn "collect" "report" := by
  have haccepted : chainPlan.validate = .ok () := rfl
  have hreferences := (inputDependencies_iff haccepted).1 rfl
  exact hreferences _ List.mem_cons_self "collect.text" (by decide +kernel) "collect" rfl
    (by decide +kernel)

end DeviceShell.Framework
