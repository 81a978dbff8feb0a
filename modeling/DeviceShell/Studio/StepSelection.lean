import DeviceShell.Framework.PlanSchedule
import DeviceShell.Lib.Worklist

/-!
# A single step of a plan

`_select_plan_from_step` of `interfaces/desktop_api/routers/workflow_definitions.py` cuts a plan down
to one step and what it needs, for a test run. For an accepted plan and a step of it the search ends,
keeps exactly the nodes on which the step depends, directly or through others, and the result is
accepted again, its references included (`selectPlanFromStep_correct`).
-/

namespace DeviceShell.Studio

open Framework Relation Worklist

/-- `by_id`. -/
def nodesById (plan : TaskPlan) : Dict String Framework.WorkflowNode :=
  plan.nodes.foldl (fun d node => d.set node.id node) ∅

/-- The dependencies of the node with an id. -/
def dependenciesOf (plan : TaskPlan) (id : String) : Option (List String) :=
  ((nodesById plan).get? id).map (·.dependsOn)

/-- The plan of the nodes with some ids. -/
def stepPlan (plan : TaskPlan) (stepId : String) (wanted : List String) : TaskPlan where
  id := plan.id ++ ":step:" ++ stepId
  version := plan.version
  nodes := plan.nodes.filter fun node => wanted.contains node.id

/-- `_select_plan_from_step`. The number bounds how many steps are popped. -/
def selectPlanFromStep (plan : TaskPlan) (stepId : String) : Option (Except PyError TaskPlan) :=
  (explore (dependenciesOf plan) (plan.nodes.length + 1) [stepId] [stepId]).map fun
    | .error _ => .error (.other ("unknown workflow step: " ++ stepId))
    | .ok wanted => .ok (stepPlan plan stepId wanted)

section

variable {plan : TaskPlan} {stepId : String} {wanted : List String}

/-- What the search finds of a plan whose ids are distinct. -/
theorem dependenciesOf_eq_some_iff (hvalid : plan.Valid) {id : String} {ids : List String} :
    dependenciesOf plan id = some ids ↔
      ∃ node ∈ plan.nodes, node.id = id ∧ node.dependsOn = ids := by
  have hentries : (nodesById plan).entries = plan.nodes.map fun node => (node.id, node) := by
    unfold nodesById
    rw [Dict.entries_foldl_set _ _ _ hvalid.distinct _ (by simp)]
    rfl
  have hkeys : (nodesById plan).keys.Nodup := by
    unfold Dict.keys
    rw [hentries, List.map_map]
    exact hvalid.distinct
  have hget (node : Framework.WorkflowNode) :
      (nodesById plan).get? id = some node ↔ node ∈ plan.nodes ∧ node.id = id := by
    constructor
    · intro h
      have hmem := Dict.mem_of_get? h
      rw [hentries, List.mem_map] at hmem
      obtain ⟨other, hother, heq⟩ := hmem
      injection heq with hid hsame
      exact ⟨hsame ▸ hother, hsame ▸ hid⟩
    · rintro ⟨hnode, rfl⟩
      refine Dict.get?_of_mem hkeys ?_
      rw [hentries]
      exact List.mem_map_of_mem hnode
  unfold dependenciesOf
  rw [Option.map_eq_some_iff]
  constructor
  · rintro ⟨node, hnode, hids⟩
    exact ⟨node, ((hget node).1 hnode).1, ((hget node).1 hnode).2, hids⟩
  · rintro ⟨node, hnode, hid, hids⟩
    exact ⟨node, (hget node).2 ⟨hnode, hid⟩, hids⟩

/-- The search goes from a node to its dependencies. -/
theorem leads_iff (hvalid : plan.Valid) {a b : String} :
    Leads (dependenciesOf plan) a b ↔ plan.DependsOn b a := by
  constructor
  · rintro ⟨ids, hids, hb⟩
    obtain ⟨node, hnode, hid, rfl⟩ := (dependenciesOf_eq_some_iff hvalid).1 hids
    exact ⟨node, hnode, hid, hb⟩
  · rintro ⟨node, hnode, hid, hb⟩
    exact ⟨node.dependsOn, (dependenciesOf_eq_some_iff hvalid).2 ⟨node, hnode, hid, rfl⟩, hb⟩

/-- The search finds what a step needs. -/
theorem reached_iff (hvalid : plan.Valid) {a b : String} :
    ReflTransGen (Leads (dependenciesOf plan)) a b ↔ ReflTransGen plan.DependsOn b a := by
  have hswap : Leads (dependenciesOf plan) = Function.swap plan.DependsOn := by
    funext a b
    exact propext (leads_iff hvalid)
  rw [hswap]
  exact reflTransGen_swap

/-- What a step of the plan needs are steps of the plan. -/
theorem mem_ids_of_needed (hvalid : plan.Valid) (hstep : stepId ∈ plan.nodes.map (·.id))
    {id : String} (h : ReflTransGen plan.DependsOn id stepId) : id ∈ plan.nodes.map (·.id) := by
  induction h using ReflTransGen.head_induction_on with
  | refl => exact hstep
  | head hfirst _ _ =>
    obtain ⟨node, hnode, -, hd⟩ := hfirst
    exact hvalid.known node hnode _ hd

/-- A step of the plan has dependencies to follow. -/
theorem dependenciesOf_ne_none (hvalid : plan.Valid) {id : String}
    (h : id ∈ plan.nodes.map (·.id)) : dependenciesOf plan id ≠ none := by
  obtain ⟨node, hnode, hid⟩ := List.mem_map.1 h
  have hsome := (dependenciesOf_eq_some_iff hvalid).2 ⟨node, hnode, hid, rfl⟩
  rw [hsome]
  exact Option.some_ne_none _

/-- The search from a step of the plan ends with what the step needs. -/
theorem explore_step (hvalid : plan.Valid) (hstep : stepId ∈ plan.nodes.map (·.id)) :
    ∃ wanted, explore (dependenciesOf plan) (plan.nodes.length + 1) [stepId] [stepId] =
      some (.ok wanted) ∧ ∀ id, id ∈ wanted ↔ ReflTransGen plan.DependsOn id stepId := by
  have hground : ∀ id ∈ plan.nodes.map (·.id), ∀ ids, dependenciesOf plan id = some ids →
      ids ⊆ plan.nodes.map (·.id) := by
    intro id _ ids hids d hd
    obtain ⟨node, hnode, -, rfl⟩ := (dependenciesOf_eq_some_iff hvalid).1 hids
    exact hvalid.known node hnode d hd
  have hsub : [stepId] ⊆ plan.nodes.map (·.id) := by
    intro id hid
    rw [List.mem_singleton.1 hid]
    exact hstep
  have hn : [stepId].length + ((plan.nodes.map (·.id)).length - [stepId].length) ≤
      plan.nodes.length + 1 := by
    rw [List.length_map, List.length_singleton]
    omega
  have hsome := explore_isSome hground exploring_start hsub hn
  obtain ⟨result, hresult⟩ := Option.isSome_iff_exists.1 hsome
  cases result with
  | error id =>
    obtain ⟨hpath, hnone⟩ := explore_error exploring_start hresult
    have hin := mem_ids_of_needed hvalid hstep ((reached_iff hvalid).1 hpath)
    exact absurd hnone (dependenciesOf_ne_none hvalid hin)
  | ok wanted =>
    refine ⟨wanted, hresult, fun id => ?_⟩
    rw [explore_ok exploring_start hresult, reached_iff hvalid]

/-- What is cut out of a plan for a step of it. -/
structure CutTo (plan : TaskPlan) (stepId : String) (selected : TaskPlan) : Prop where
  id : selected.id = plan.id ++ ":step:" ++ stepId
  version : selected.version = plan.version
  inOrder : selected.nodes.Sublist plan.nodes
  needed : ∀ node, node ∈ selected.nodes ↔
    node ∈ plan.nodes ∧ ReflTransGen plan.DependsOn node.id stepId
  accepted : selected.validate = .ok ()
  references : validateInputDependencies plan = .ok () →
    validateInputDependencies selected = .ok ()

theorem mem_stepPlan {node : Framework.WorkflowNode} :
    node ∈ (stepPlan plan stepId wanted).nodes ↔ node ∈ plan.nodes ∧ node.id ∈ wanted := by
  unfold stepPlan
  rw [List.mem_filter, List.contains_eq_mem, decide_eq_true_eq]

/-- A text with a mark in it is not blank. -/
theorem isBlank_marked (s t : String) : ¬ isBlank (s ++ ":step:" ++ t) := by
  unfold isBlank
  rw [String.toList_append, String.toList_append, List.all_append, List.all_append]
  have hmark : (":step:".toList).all isSpace = false := by decide +kernel
  rw [hmark, Bool.and_false, Bool.false_and]
  exact Bool.false_ne_true

/-- A path that ends at a node that is needed stays within the nodes that are needed. -/
theorem path_needed (hwanted : ∀ id, id ∈ wanted ↔ ReflTransGen plan.DependsOn id stepId)
    {a b : String} (hb : b ∈ wanted) (h : TransGen plan.DependsOn a b) :
    TransGen (stepPlan plan stepId wanted).DependsOn a b := by
  have hedge {c d : String} (hd : d ∈ wanted) (hcd : plan.DependsOn c d) :
      (stepPlan plan stepId wanted).DependsOn c d := by
    obtain ⟨node, hnode, hid, hc⟩ := hcd
    exact ⟨node, mem_stepPlan.2 ⟨hnode, hid ▸ hd⟩, hid, hc⟩
  induction h with
  | single hab => exact .single (hedge hb hab)
  | tail _ hlast ih =>
    have hc : _ ∈ wanted := (hwanted _).2 (.head hlast ((hwanted _).1 hb))
    exact .tail (ih hc) (hedge hb hlast)

/-- The plan that is cut out can be scheduled. -/
theorem valid_stepPlan (hvalid : plan.Valid) (hstep : stepId ∈ plan.nodes.map (·.id))
    (hwanted : ∀ id, id ∈ wanted ↔ ReflTransGen plan.DependsOn id stepId) :
    (stepPlan plan stepId wanted).Valid := by
  have hsub : (stepPlan plan stepId wanted).nodes.Sublist plan.nodes := List.filter_sublist
  obtain ⟨step, hmem, hid⟩ := List.mem_map.1 hstep
  have hselected : step ∈ (stepPlan plan stepId wanted).nodes :=
    mem_stepPlan.2 ⟨hmem, (hwanted _).2 (hid ▸ .refl)⟩
  exact
    { id := isBlank_marked plan.id stepId
      version := hvalid.version
      nonempty := List.ne_nil_of_mem hselected
      distinct := hvalid.distinct.sublist (hsub.map _)
      workflow := fun node hnode => hvalid.workflow node (hsub.subset hnode)
      known := by
        intro node hnode d hd
        obtain ⟨hin, hneeded⟩ := mem_stepPlan.1 hnode
        have hd' : d ∈ wanted := by
          rw [hwanted] at hneeded ⊢
          exact .head ⟨node, hin, rfl, hd⟩ hneeded
        obtain ⟨dep, hdep, rfl⟩ := List.mem_map.1 (hvalid.known node hin d hd)
        exact List.mem_map_of_mem (mem_stepPlan.2 ⟨hdep, hd'⟩)
      apart := fun group a ha b hb =>
        hvalid.apart group a (hsub.subset ha) b (hsub.subset hb)
      acyclic := by
        intro id hcycle
        refine hvalid.acyclic id (TransGen.mono (fun a b hab => ?_) _ _ hcycle)
        obtain ⟨node, hnode, hedge⟩ := hab
        exact ⟨node, hsub.subset hnode, hedge⟩ }

/-- For an accepted plan `_select_plan_from_step` raises for an unknown step only, and for a step of
the plan it gives exactly what the step needs, as a plan that is accepted. -/
theorem selectPlanFromStep_correct (h : plan.validate = .ok ()) :
    (stepId ∉ plan.nodes.map (·.id) → selectPlanFromStep plan stepId =
      some (.error (.other ("unknown workflow step: " ++ stepId)))) ∧
    (stepId ∈ plan.nodes.map (·.id) → ∃ selected,
      selectPlanFromStep plan stepId = some (.ok selected) ∧ CutTo plan stepId selected) := by
  have hvalid : plan.Valid := (TaskPlan.validate_iff_valid plan).1 h
  refine ⟨fun hunknown => ?_, fun hstep => ?_⟩
  · have hnone : dependenciesOf plan stepId = none := by
      cases hids : dependenciesOf plan stepId with
      | none => rfl
      | some ids =>
        obtain ⟨node, hnode, hid, -⟩ := (dependenciesOf_eq_some_iff hvalid).1 hids
        exact absurd (List.mem_map.2 ⟨node, hnode, hid⟩) hunknown
    have hfails : explore (dependenciesOf plan) (plan.nodes.length + 1) [stepId] [stepId] =
        some (.error stepId) := by
      unfold explore
      simp only [hnone]
    unfold selectPlanFromStep
    simp only [hfails, Option.map_some]
  · obtain ⟨wanted, hfound, hwanted⟩ := explore_step hvalid hstep
    have hselected : (stepPlan plan stepId wanted).Valid := valid_stepPlan hvalid hstep hwanted
    refine ⟨stepPlan plan stepId wanted, ?_, ?_⟩
    · unfold selectPlanFromStep
      simp only [hfound, Option.map_some]
    · exact
        { id := rfl
          version := rfl
          inOrder := List.filter_sublist
          needed := fun node => by rw [mem_stepPlan, hwanted]
          accepted := (TaskPlan.validate_iff_valid _).2 hselected
          references := by
            intro hplan
            rw [hvalid.validateInputDependencies_iff] at hplan
            rw [hselected.validateInputDependencies_iff]
            intro node hnode reference hreference source hsource hin
            obtain ⟨hmem, hneeded⟩ := mem_stepPlan.1 hnode
            obtain ⟨other, hother, rfl⟩ := List.mem_map.1 hin
            have hpath := hplan node hmem reference hreference other.id hsource
              (List.mem_map_of_mem (mem_stepPlan.1 hother).1)
            exact path_needed hwanted hneeded hpath }

end

theorem selectPlanFromStep_correct_chain : ∃ selected,
    selectPlanFromStep chainPlan "parse" = some (.ok selected) ∧ CutTo chainPlan "parse" selected :=
  (selectPlanFromStep_correct rfl).2 (by decide +kernel)

end DeviceShell.Studio
