import DeviceShell.Tasking.Plans

/-!
# The order of a plan's steps

`_acyclic` of the plan compiler and `_ordered_nodes` of the Framework go through the steps of a plan
in rounds: one takes away the steps that wait for nothing that is left, the other adds the nodes
whose dependencies are in. Where every dependency is a step of the plan the rounds are the same, so
that the plan that passes the first check has the order that the second one asks for
(`orderedNodes_of_acyclic`).
-/

namespace DeviceShell.Tasking

open Framework (TaskPlan WorkflowNode)

/-- A round of both checks has the same steps left, and the others are in the order. -/
structure SameRound (graph : Dict String (List String)) (pending ordered : List WorkflowNode) :
    Prop where
  entries : graph.entries = pending.map fun node => (node.id, node.dependsOn)
  closed : ∀ node ∈ pending, ∀ d ∈ node.dependsOn,
    d ∈ ordered.map (·.id) ∨ d ∈ pending.map (·.id)
  apart : ∀ node ∈ pending, node.id ∉ ordered.map (·.id)

/-- The nodes that a round takes. -/
def readyNodes (pending ordered : List WorkflowNode) : List WorkflowNode :=
  pending.filter fun node => node.readyAfter (ordered.map (·.id))

theorem mem_sortById {nodes : List WorkflowNode} {node : WorkflowNode} :
    node ∈ TaskPlan.sortById nodes ↔ node ∈ nodes :=
  (List.perm_insertionSort _ nodes).mem_iff

section

variable {graph : Dict String (List String)} {pending ordered : List WorkflowNode}

theorem SameRound.keys (h : SameRound graph pending ordered) :
    graph.keys = pending.map (·.id) := by
  unfold Dict.keys
  rw [h.entries, List.map_map]
  rfl

/-- Both checks take the same steps. -/
theorem SameRound.ready (h : SameRound graph pending ordered) :
    (graph.entries.filter fun e => e.2.all fun d => !graph.contains d).map (·.1) =
      (readyNodes pending ordered).map (·.id) := by
  have hsame : ∀ node ∈ pending, (node.dependsOn.all fun d => !graph.contains d) =
      node.readyAfter (ordered.map (·.id)) := by
    intro node hnode
    rw [Bool.eq_iff_iff]
    unfold WorkflowNode.readyAfter
    simp only [List.all_eq_true, Bool.not_eq_true', List.contains_eq_mem, decide_eq_true_eq]
    have hgraph (d : String) : graph.contains d = false ↔ d ∉ pending.map (·.id) := by
      rw [← h.keys, ← Dict.contains_iff_mem_keys, Bool.not_eq_true]
    constructor
    · intro hall d hd
      exact (h.closed node hnode d hd).resolve_right ((hgraph d).mp (hall d hd))
    · intro hall d hd
      rw [hgraph, List.mem_map]
      rintro ⟨other, hother, rfl⟩
      exact h.apart other hother (hall other.id hd)
  unfold readyNodes
  rw [h.entries, List.filter_map, List.map_map]
  have hfilter : pending.filter ((fun e : String × List String =>
        e.2.all fun d => !graph.contains d) ∘ fun node => (node.id, node.dependsOn)) =
      pending.filter fun node => node.readyAfter (ordered.map (·.id)) :=
    List.filter_congr hsame
  rw [hfilter]
  rfl

/-- What is left after a round. -/
theorem SameRound.next (h : SameRound graph pending ordered) :
    SameRound (graph.filterKeys fun id => !((readyNodes pending ordered).map (·.id)).contains id)
      (TaskPlan.without pending ((readyNodes pending ordered).map (·.id)))
      (ordered ++ TaskPlan.sortById (readyNodes pending ordered)) where
  entries := by
    unfold Dict.filterKeys TaskPlan.without
    rw [h.entries, List.filter_map]
    rfl
  closed node hnode d hd := by
    have hnode := List.mem_of_mem_filter hnode
    by_cases hready : d ∈ (readyNodes pending ordered).map (·.id)
    · left
      obtain ⟨other, hother, rfl⟩ := List.mem_map.mp hready
      rw [List.map_append, List.mem_append]
      exact .inr (List.mem_map_of_mem (mem_sortById.mpr hother))
    · rcases h.closed node hnode d hd with hin | hleft
      · left
        rw [List.map_append, List.mem_append]
        exact .inl hin
      · right
        obtain ⟨other, hother, rfl⟩ := List.mem_map.mp hleft
        refine List.mem_map_of_mem (List.mem_filter.mpr ⟨hother, ?_⟩)
        simpa using hready
  apart node hnode hin := by
    obtain ⟨hpending, hleft⟩ := List.mem_filter.mp hnode
    rw [List.map_append, List.mem_append] at hin
    rcases hin with hin | hin
    · exact h.apart node hpending hin
    · obtain ⟨other, hother, heq⟩ := List.mem_map.mp hin
      have hready : node.id ∈ (readyNodes pending ordered).map (·.id) :=
        List.mem_map.mpr ⟨other, mem_sortById.mp hother, heq⟩
      rw [List.contains_eq_mem, decide_eq_true hready] at hleft
      cases hleft

/-- If the first check gets to the end, the second one does. -/
theorem SameRound.ends (h : SameRound graph pending ordered) (n : ℕ)
    (hacyclic : acyclicLoop n graph = true) :
    ∃ nodes, TaskPlan.orderLoop n pending ordered = .ok nodes := by
  induction n generalizing graph pending ordered with
  | zero =>
    have hempty : pending = [] := by
      have hentries := h.entries
      rw [List.isEmpty_iff.mp hacyclic] at hentries
      exact List.map_eq_nil_iff.mp hentries.symm
    rw [hempty]
    exact ⟨ordered, rfl⟩
  | succ n ih =>
    cases hpending : pending with
    | nil => exact ⟨ordered, rfl⟩
    | cons node rest =>
      have hentries : graph.entries.isEmpty = false := by
        rw [h.entries, hpending]
        rfl
      unfold acyclicLoop at hacyclic
      rw [hentries] at hacyclic
      simp only [Bool.false_eq_true, if_false, h.ready] at hacyclic
      unfold TaskPlan.orderLoop
      rw [← hpending]
      show ∃ nodes, (if (readyNodes pending ordered).isEmpty then _ else _) = _
      by_cases hready : (readyNodes pending ordered).isEmpty = true
      · rw [List.isEmpty_iff.mp hready] at hacyclic
        simp at hacyclic
      · have hmap : ((readyNodes pending ordered).map (·.id)).isEmpty = false := by
          rw [List.isEmpty_map]
          simpa using hready
        rw [if_neg hready]
        rw [hmap] at hacyclic
        simp only [Bool.false_eq_true, if_false] at hacyclic
        exact ih h.next hacyclic

end

/-- A plan whose steps depend on one another without a cycle has an order of its nodes. -/
theorem orderedNodes_of_acyclic {steps : List PlanStep} {taskPlan : TaskPlan}
    (hnodes : taskPlan.nodes.map (fun node => (node.id, node.dependsOn)) =
      steps.map fun step => (step.id, step.dependsOn))
    (hnodup : (steps.map (·.id)).Nodup)
    (hknown : ∀ step ∈ steps, ∀ d ∈ step.dependsOn, d ∈ steps.map (·.id))
    (hacyclic : acyclic steps = true) : ∃ nodes, taskPlan.orderedNodes = .ok nodes := by
  have hids : taskPlan.nodes.map (·.id) = steps.map (·.id) := by
    have h := congrArg (List.map Prod.fst) hnodes
    rw [List.map_map, List.map_map] at h
    exact h
  have hbyId : TaskPlan.byId taskPlan.nodes = taskPlan.nodes := by
    unfold TaskPlan.byId Dict.values
    rw [Dict.entries_foldl_set _ _ _ (by rw [hids]; exact hnodup) _ (by simp)]
    show List.map Prod.snd ([] ++ _) = _
    rw [List.nil_append, List.map_map]
    exact List.map_id taskPlan.nodes
  let graph := steps.foldl (fun d step => d.set step.id step.dependsOn)
    (∅ : Dict String (List String))
  have hgraph : graph.entries = steps.map fun step => (step.id, step.dependsOn) := by
    rw [Dict.entries_foldl_set _ _ _ hnodup _ (by simp)]
    rfl
  have hround : SameRound graph taskPlan.nodes [] :=
    { entries := by rw [hgraph, hnodes]
      closed := fun node hnode d hd => by
        right
        have hmem : (node.id, node.dependsOn) ∈ steps.map fun step => (step.id, step.dependsOn) := by
          rw [← hnodes]
          exact List.mem_map_of_mem hnode
        obtain ⟨step, hstep, heq⟩ := List.mem_map.mp hmem
        rw [hids]
        refine hknown step hstep d ?_
        have hdeps : step.dependsOn = node.dependsOn := congrArg Prod.snd heq
        rw [hdeps]
        exact hd
      apart := fun _ _ => by simp }
  have hlength : graph.entries.length = taskPlan.nodes.length := by
    rw [hgraph, ← hnodes, List.length_map]
  unfold TaskPlan.orderedNodes
  rw [hbyId, ← hlength]
  exact hround.ends _ hacyclic

end DeviceShell.Tasking
