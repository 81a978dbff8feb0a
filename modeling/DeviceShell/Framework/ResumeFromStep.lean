import DeviceShell.Framework.Methods
import Mathlib.Logic.Relation

/-!
# Resuming a task from a step

`_resume_from_step` of `framework/orchestrator.py` is to forget what the step and the nodes that
depend on it have produced, and to keep what the others have (`ClearsFromStep`). The nodes are those
that `_downstream_node_ids` finds: exactly the transitive dependents (`mem_downstreamNodeIds`).

What a node produces stands under its id, but for two things. A `variable.set` node records its
variable in the outputs under the variable's name, and a failure that a node continues after is
marked in the context. The code removes what stands under the ids of the nodes and no more, so a
variable of a dependent stays, a variable of another node that is named like a dependent goes, and
the marks stay. `resumeFromStep_clears_iff` says that these are the only ways in which it fails.
-/

namespace DeviceShell.Framework

/-! ## The dependents of a step -/

namespace TaskPlan

variable (plan : TaskPlan)

/-- A node of the plan depends on another. -/
def Depends (dependency id : String) : Prop :=
  ∃ node ∈ plan.nodes, node.id = id ∧ dependency ∈ node.dependsOn

/-- The step itself, and what depends on it through any number of nodes. -/
def Downstream (stepId id : String) : Prop := Relation.ReflTransGen plan.Depends stepId id

/-- Some ids with every node that depends on one of them. -/
def Closed (ids : List String) : Prop := ∀ id ∈ ids, ∀ id', plan.Depends id id' → id' ∈ ids

/-- The nodes that are not among some ids. -/
def missing (ids : List String) : List WorkflowNode :=
  plan.nodes.filter fun node => !ids.contains node.id

/-- One node of a round: it is added when it depends on an id that is in already. -/
def downstreamStep (ids : List String) (node : WorkflowNode) : List String :=
  if !ids.contains node.id && node.dependsOn.any fun d => ids.contains d then ids ++ [node.id]
  else ids

variable {plan} {ids : List String} {stepId id : String}

theorem subset_downstreamStep (node : WorkflowNode) : ids ⊆ downstreamStep ids node := by
  unfold downstreamStep
  split
  · exact List.subset_append_left _ _
  · exact List.Subset.refl _

theorem subset_foldl_downstreamStep (nodes : List WorkflowNode) :
    ids ⊆ nodes.foldl downstreamStep ids := by
  induction nodes generalizing ids with
  | nil => exact List.Subset.refl _
  | cons node nodes ih => exact List.Subset.trans (subset_downstreamStep node) ih

/-- A node of a round that depends on an id that was in before the round is in after it. -/
theorem mem_foldl_downstreamStep {nodes : List WorkflowNode} {node : WorkflowNode}
    (hnode : node ∈ nodes) {dependency : String} (hdep : dependency ∈ node.dependsOn)
    (hmem : dependency ∈ ids) : node.id ∈ nodes.foldl downstreamStep ids := by
  induction nodes generalizing ids with
  | nil => cases hnode
  | cons first nodes ih =>
    rcases List.mem_cons.mp hnode with rfl | hrest
    · refine subset_foldl_downstreamStep nodes ?_
      unfold downstreamStep
      by_cases hin : node.id ∈ ids
      · rw [if_neg (by simp [hin])]
        exact hin
      · have hany : node.dependsOn.any (fun d => ids.contains d) = true :=
          List.any_eq_true.mpr ⟨dependency, hdep, List.contains_iff_mem.mpr hmem⟩
        rw [if_pos (Bool.and_eq_true_iff.mpr ⟨by simpa using hin, hany⟩)]
        exact List.mem_append_right _ (List.mem_singleton_self _)
    · exact ih hrest (subset_downstreamStep first hmem)

/-- A round adds only nodes that depend on an id that is in. -/
theorem downstream_of_mem_foldl {nodes : List WorkflowNode} (hnodes : nodes ⊆ plan.nodes)
    (hids : ∀ id ∈ ids, plan.Downstream stepId id) (h : id ∈ nodes.foldl downstreamStep ids) :
    plan.Downstream stepId id := by
  induction nodes generalizing ids with
  | nil => exact hids id h
  | cons node nodes ih =>
    refine ih (List.subset_of_cons_subset hnodes) (fun id' hid' => ?_) h
    unfold downstreamStep at hid'
    split at hid'
    · rename_i hadded
      rcases List.mem_append.mp hid' with hold | hnew
      · exact hids id' hold
      · obtain ⟨dependency, hdep, hin⟩ := List.any_eq_true.mp (Bool.and_eq_true_iff.mp hadded).2
        rw [List.mem_singleton.mp hnew]
        exact (hids dependency (List.contains_iff_mem.mp hin)).tail
          ⟨node, hnodes List.mem_cons_self, rfl, hdep⟩
    · exact hids id' hid'

/-- A round leaves closed ids closed. -/
theorem Closed.downstreamRound (h : plan.Closed ids) : plan.downstreamRound ids = ids := by
  have hfold : ∀ nodes ⊆ plan.nodes, nodes.foldl downstreamStep ids = ids := by
    intro nodes hnodes
    induction nodes with
    | nil => rfl
    | cons node nodes ih =>
      have hstep : downstreamStep ids node = ids := by
        unfold downstreamStep
        rw [if_neg]
        intro hadded
        obtain ⟨hnew, hany⟩ := Bool.and_eq_true_iff.mp hadded
        obtain ⟨dependency, hdep, hin⟩ := List.any_eq_true.mp hany
        have hmem := h dependency (List.contains_iff_mem.mp hin) node.id
          ⟨node, hnodes List.mem_cons_self, rfl, hdep⟩
        rw [List.contains_iff_mem.mpr hmem] at hnew
        cases hnew
      rw [List.foldl_cons, hstep]
      exact ih (List.subset_of_cons_subset hnodes)
  exact hfold plan.nodes (List.Subset.refl _)

/-- A round on ids that are not closed adds a node. -/
theorem missing_downstreamRound_lt (h : ¬ plan.Closed ids) :
    (plan.missing (plan.downstreamRound ids)).length < (plan.missing ids).length := by
  unfold Closed at h
  simp only [not_forall] at h
  obtain ⟨dependency, hin, id, ⟨node, hnode, rfl, hdep⟩, hout⟩ := h
  have hsub : ids ⊆ plan.downstreamRound ids := subset_foldl_downstreamStep plan.nodes
  have hfilter : plan.missing (plan.downstreamRound ids) =
      (plan.missing ids).filter fun node => !(plan.downstreamRound ids).contains node.id := by
    unfold missing
    rw [List.filter_filter]
    refine List.filter_congr fun node _ => ?_
    by_cases hround : node.id ∈ plan.downstreamRound ids
    · simp [hround]
    · have hold : node.id ∉ ids := fun hmem => hround (hsub hmem)
      simp [hround, hold]
  rw [hfilter, List.length_filter_lt_length_iff_exists]
  refine ⟨node, List.mem_filter.mpr ⟨hnode, by simpa using hout⟩, ?_⟩
  have hadded : node.id ∈ plan.downstreamRound ids := mem_foldl_downstreamStep hnode hdep hin
  simpa using hadded

/-- After so many rounds the ids are closed, or so many nodes are no longer missing. -/
theorem closed_or_missing_iterate (ids : List String) (n : ℕ) :
    plan.Closed ((plan.downstreamRound)^[n] ids) ∨
      (plan.missing ((plan.downstreamRound)^[n] ids)).length + n ≤ plan.nodes.length := by
  induction n with
  | zero => exact .inr (List.length_filter_le _ _)
  | succ n ih =>
    rw [Function.iterate_succ_apply']
    rcases ih with hclosed | hfew
    · left
      rw [hclosed.downstreamRound]
      exact hclosed
    · by_cases hclosed : plan.Closed ((plan.downstreamRound)^[n] ids)
      · left
        rw [hclosed.downstreamRound]
        exact hclosed
      · have := missing_downstreamRound_lt hclosed
        right
        omega

/-- The rounds of `_downstream_node_ids` are enough. -/
theorem closed_downstreamNodeIds (plan : TaskPlan) (stepId : String) :
    plan.Closed (plan.downstreamNodeIds stepId) := by
  rcases @closed_or_missing_iterate plan [stepId] plan.nodes.length with hclosed | hfew
  · exact hclosed
  · have hnone : plan.missing (plan.downstreamNodeIds stepId) = [] := by
      unfold downstreamNodeIds
      rw [← List.length_eq_zero_iff]
      omega
    rintro _ _ _ ⟨node, hnode, rfl, -⟩
    by_contra hout
    have hmissing : node ∈ plan.missing (plan.downstreamNodeIds stepId) :=
      List.mem_filter.mpr ⟨hnode, by simpa using hout⟩
    rw [hnone] at hmissing
    cases hmissing

/-- `_downstream_node_ids` is the step and its transitive dependents. -/
theorem mem_downstreamNodeIds : id ∈ plan.downstreamNodeIds stepId ↔ plan.Downstream stepId id := by
  constructor
  · intro h
    have hrounds : ∀ n, ∀ id ∈ (plan.downstreamRound)^[n] [stepId], plan.Downstream stepId id := by
      intro n
      induction n with
      | zero =>
        intro id hid
        rw [List.mem_singleton.mp hid]
        exact .refl
      | succ n ih =>
        intro id hid
        rw [Function.iterate_succ_apply'] at hid
        exact downstream_of_mem_foldl (List.Subset.refl _) ih hid
    exact hrounds _ id h
  · intro h
    induction h with
    | refl =>
      have hrounds : ∀ n, stepId ∈ (plan.downstreamRound)^[n] [stepId] := by
        intro n
        induction n with
        | zero => exact List.mem_singleton_self _
        | succ n ih =>
          rw [Function.iterate_succ_apply']
          exact subset_foldl_downstreamStep plan.nodes ih
      exact hrounds _
    | tail _ hdepends ih => exact closed_downstreamNodeIds plan stepId _ ih _ hdepends

end TaskPlan

/-! ## What the nodes have produced -/

section

variable [PyLib]

/-- A change of a task's outputs. -/
inductive OutputWrite where
  /-- `outputs[node_id] = value`. -/
  | output (nodeId : String) (value : Value)
  /-- `_record_variable_output(outputs, node, projected)`. -/
  | recorded (node : WorkflowNode) (projected : Dict String Value)
  /-- A resume from a step, which clears some nodes. -/
  | cleared (downstream : List String)

/-- The outputs of a task, with the node that produced each entry. -/
structure Attributed where
  outputs : Dict String Value := ∅
  producers : Dict String String := ∅

/-- The name under which a node records a variable. -/
def variableName (node : WorkflowNode) (projected : Dict String Value) : Option String :=
  if node.workflowId ≠ "variable.set" then none
  else (some (strippedEntry projected "name")).filter (· ≠ "")

/-- What a change makes of the outputs. -/
def OutputWrite.write (outputs : Dict String Value) : OutputWrite → Dict String Value
  | .output nodeId value => outputs.set nodeId value
  | .recorded node projected => recordVariableOutput outputs node projected
  | .cleared downstream => outputs.filterKeys fun key => !downstream.contains key

/-- A change of the outputs, and of the producers with them. -/
def OutputWrite.apply (a : Attributed) (write : OutputWrite) : Attributed where
  outputs := write.write a.outputs
  producers := match write with
    | .output nodeId _ => a.producers.set nodeId nodeId
    | .recorded node projected => match variableName node projected with
      | some name => a.producers.set name node.id
      | none => a.producers
    | .cleared downstream => a.producers.filterKeys fun key => !downstream.contains key

/-- The outputs of a task after some changes. -/
def attributed (history : List OutputWrite) : Attributed := history.foldl OutputWrite.apply {}

/-- The marks of continued failures in a context. -/
def marks (context : Dict String Value) : List String :=
  match Orchestrator.continuedFailuresOf { id := "", planId := "", deviceId := "", context := context } with
  | .ok ids => ids
  | .error _ => []

/-- Every output has a producer, and every producer an output. -/
theorem attributed_isSome (history : List OutputWrite) (key : String) :
    ((attributed history).outputs.get? key).isSome =
      ((attributed history).producers.get? key).isSome := by
  unfold attributed
  induction history using List.reverseRecOn with
  | nil => rfl
  | append_singleton history write ih =>
    rw [List.foldl_append, List.foldl_cons, List.foldl_nil]
    generalize history.foldl OutputWrite.apply {} = a at ih ⊢
    cases write with
    | output nodeId value =>
      simp only [OutputWrite.apply, OutputWrite.write, Dict.get?_set]
      split
      · rfl
      · exact ih
    | recorded node projected =>
      unfold OutputWrite.apply OutputWrite.write recordVariableOutput variableName
      by_cases hset : node.workflowId ≠ "variable.set"
      · simp only [if_pos hset]
        exact ih
      · simp only [if_neg hset]
        by_cases hname : strippedEntry projected "name" = ""
        · simp only [hname, if_true, Option.filter_some, ne_eq, not_true_eq_false, decide_false,
            Bool.false_eq_true, if_false]
          exact ih
        · simp only [hname, if_false, Option.filter_some, ne_eq, not_false_eq_true, decide_true,
            if_true, Dict.get?_set]
          split
          · rfl
          · exact ih
    | cleared downstream =>
      simp only [OutputWrite.apply, OutputWrite.write, Dict.get?_filterKeys]
      split
      · exact ih
      · rfl

/-! ## What is to hold -/

/-- The resume has forgotten what the step and its dependents have produced, and nothing else. -/
structure ClearsFromStep (plan : TaskPlan) (stepId : String) (before : TaskRun)
    (producers : Dict String String) (after : TaskRun) : Prop where
  found : ∀ id, id ∈ plan.downstreamNodeIds stepId ↔ plan.Downstream stepId id
  runCleared : ∀ id, plan.Downstream stepId id → after.nodeRuns.get? id = none
  runKept : ∀ id, ¬ plan.Downstream stepId id → after.nodeRuns.get? id = before.nodeRuns.get? id
  /-- An output or a variable is forgotten with the node that produced it. -/
  outputCleared : ∀ key producer, producers.get? key = some producer →
    plan.Downstream stepId producer → after.outputs.get? key = none
  outputKept : ∀ key, (∀ producer, producers.get? key = some producer →
    ¬ plan.Downstream stepId producer) → after.outputs.get? key = before.outputs.get? key
  marked : ∀ id, id ∈ marks after.context ↔
    id ∈ marks before.context ∧ ¬ plan.Downstream stepId id

/-- Every entry of the outputs stands under the id of a dependent exactly when a dependent produced
it; and no dependent is marked as a continued failure, or the context given with the resume has the
marks of the others. -/
structure SeparateFromStep (plan : TaskPlan) (stepId : String) (before : TaskRun)
    (producers : Dict String String) (context : Dict String Value) : Prop where
  named : ∀ key producer, producers.get? key = some producer →
    (plan.Downstream stepId key ↔ plan.Downstream stepId producer)
  unmarked : context.contains "continued_failures" = false →
    ∀ id ∈ marks before.context, ¬ plan.Downstream stepId id
  given : context.contains "continued_failures" = true → ∀ id, id ∈ marks context ↔
    id ∈ marks before.context ∧ ¬ plan.Downstream stepId id

/-- The task that `_resume_from_step` stores. -/
def resumedTask (task : TaskRun) (plan : TaskPlan) (stepId : String)
    (context : Dict String Value) : TaskRun :=
  { task with
    status := .running
    nodeRuns := task.nodeRuns.filterKeys fun key => !(plan.downstreamNodeIds stepId).contains key
    outputs := task.outputs.filterKeys fun key => !(plan.downstreamNodeIds stepId).contains key
    error := none
    context := (task.context.merge context).set "resume_from_step" (.str stepId) }

section Resume

open Stateful

variable {ρ : Type} {o : Orchestrator ρ} {w : World ρ} {task : TaskRun} {plan : TaskPlan}
  {stepId : String} {context : Dict String Value}

/-- What `_resume_from_step` returns is stored. -/
theorem resumeFromStep_ensures (cancelActive : Bool) :
    Ensures (o.resumeFromStep task plan stepId context cancelActive) w fun r w' =>
      ∀ after, r = .ok after → after = resumedTask task plan stepId context ∧
        w'.tasks.get? task.id = some after := by
  -- The child that is cancelled, if any, does not matter to the task.
  have hsave : ∀ w : World ρ, Ensures (o.save (resumedTask task plan stepId context)) w
      fun r w' => ∀ after, r = .ok after → after = resumedTask task plan stepId context ∧
        w'.tasks.get? task.id = some after := by
    intro w after hafter
    cases hafter
    refine ⟨rfl, ?_⟩
    show (o.saved w _).tasks.get? _ = _
    rw [Orchestrator.saved_tasks]
    exact Dict.get?_set_self _ _ _
  have hnote : ∀ w : World ρ, Ensures (do
      Orchestrator.note (.cleared task.id (plan.downstreamNodeIds stepId))
      o.save (resumedTask task plan stepId context)) w fun r w' => ∀ after, r = .ok after →
        after = resumedTask task plan stepId context ∧ w'.tasks.get? task.id = some after :=
    fun w => ensures_modify (hsave _)
  have hraised : ∀ e (w' : World ρ) (after : TaskRun), (.error e : Except PyError TaskRun) = .ok after →
      after = resumedTask task plan stepId context ∧ w'.tasks.get? task.id = some after :=
    fun _ _ _ h => by cases h
  have hany : ∀ {α : Type} (m : Method ρ α) (w : World ρ), Ensures m w fun _ _ => True :=
    fun _ _ => trivial
  unfold Orchestrator.resumeFromStep
  cases cancelActive with
  | false => exact hnote w
  | true =>
    refine (hany _ w).bind (fun child w' _ => ?_) fun e w' _ => hraised e w'
    cases child with
    | none => exact hnote w'
    | some child => exact (hany _ w').bind (fun _ w'' _ => hnote w'') fun e w'' _ => hraised e w''

/-- The marks are read from one entry of the context. -/
theorem marks_congr {c c' : Dict String Value}
    (h : c.get? "continued_failures" = c'.get? "continued_failures") : marks c = marks c' := by
  unfold marks Orchestrator.continuedFailuresOf
  dsimp only
  rw [h]

/-- The marks after the resume are those that are given with it, or those before. -/
theorem marks_resumedTask (hcontext : context.keys.Nodup) :
    marks (resumedTask task plan stepId context).context =
      if context.contains "continued_failures" then marks context else marks task.context := by
  have hkey : "continued_failures" ≠ "resume_from_step" := by decide
  unfold resumedTask
  dsimp only
  by_cases hgiven : context.contains "continued_failures" = true
  · rw [if_pos hgiven]
    obtain ⟨v, hv⟩ := Option.isSome_iff_exists.mp hgiven
    refine marks_congr ?_
    rw [Dict.get?_set_of_ne _ hkey, Dict.get?_merge_of_get? _ hcontext hv, hv]
  · rw [if_neg hgiven]
    refine marks_congr ?_
    rw [Dict.get?_set_of_ne _ hkey, Dict.get?_merge_of_not_mem]
    rwa [← Dict.contains_iff_mem_keys]

omit [PyLib] in
/-- What stands under the id of a dependent is not kept. -/
theorem get?_without_downstream {α : Type} (d : Dict String α) (key : String) :
    (plan.Downstream stepId key → (d.filterKeys fun key =>
      !(plan.downstreamNodeIds stepId).contains key).get? key = none) ∧
    (¬ plan.Downstream stepId key → (d.filterKeys fun key =>
      !(plan.downstreamNodeIds stepId).contains key).get? key = d.get? key) := by
  rw [Dict.get?_filterKeys, ← TaskPlan.mem_downstreamNodeIds]
  constructor
  · intro h
    rw [if_neg (by simpa using h)]
  · intro h
    rw [if_pos (by simpa using h)]

/-- A resume from a step clears exactly what depends on the step where the outputs are separate from
it, and nowhere else. -/
theorem resumeFromStep_clears_iff (o : Orchestrator ρ) (w w' : World ρ) (task after : TaskRun)
    (plan : TaskPlan) (stepId : String) (context : Dict String Value)
    (hcontext : context.keys.Nodup) (cancelActive : Bool) (history : List OutputWrite)
    (houtputs : task.outputs = (attributed history).outputs)
    (hrun : (o.resumeFromStep task plan stepId context cancelActive).run w = (.ok after, w')) :
    (∃ stored, w'.tasks.get? task.id = some stored ∧
      ClearsFromStep plan stepId task (attributed history).producers stored) ↔
        SeparateFromStep plan stepId task (attributed history).producers context := by
  have hensures := @resumeFromStep_ensures _ _ o w task plan stepId context cancelActive
  unfold Ensures at hensures
  rw [hrun] at hensures
  obtain ⟨rfl, hstored⟩ := hensures after rfl
  have hmarks := @marks_resumedTask _ task plan stepId context hcontext
  -- Every key with a producer has a value.
  have hvalue : ∀ key producer, (attributed history).producers.get? key = some producer →
      task.outputs.get? key ≠ none := by
    intro key producer hproducer hnone
    have hsome := attributed_isSome history key
    rw [← houtputs, hnone, hproducer] at hsome
    cases hsome
  constructor
  · rintro ⟨stored, hget, h⟩
    rw [hstored] at hget
    cases hget
    refine ⟨fun key producer hproducer => ⟨fun hkey => ?_, fun hdown => ?_⟩, fun hgiven id hid => ?_,
      fun hgiven id => ?_⟩
    · by_contra hdown
      have hkept := h.outputKept key fun p hp => by
        rw [hproducer] at hp
        exact Option.some.inj hp ▸ hdown
      exact hvalue key producer hproducer
        (hkept.symm.trans ((get?_without_downstream task.outputs key).1 hkey))
    · by_contra hkey
      have hcleared := h.outputCleared key producer hproducer hdown
      exact hvalue key producer hproducer
        (((get?_without_downstream task.outputs key).2 hkey).symm.trans hcleared)
    · rw [hgiven, if_neg Bool.false_ne_true] at hmarks
      have hmarked := h.marked id
      rw [hmarks] at hmarked
      exact (hmarked.mp hid).2
    · rw [hgiven, if_pos rfl] at hmarks
      have hmarked := h.marked id
      rwa [hmarks] at hmarked
  · intro h
    refine ⟨_, hstored, ?_⟩
    constructor
    · exact fun id => TaskPlan.mem_downstreamNodeIds
    · exact fun id hid => (get?_without_downstream task.nodeRuns id).1 hid
    · exact fun id hid => (get?_without_downstream task.nodeRuns id).2 hid
    · intro key producer hproducer hdown
      exact (get?_without_downstream task.outputs key).1 ((h.named key producer hproducer).mpr hdown)
    · intro key hkept
      by_cases hkey : plan.Downstream stepId key
      · -- No entry stands under the id of a dependent that no dependent produced.
        have hnone : (attributed history).producers.get? key = none := by
          cases hproducer : (attributed history).producers.get? key with
          | none => rfl
          | some producer =>
            exact absurd ((h.named key producer hproducer).mp hkey) (hkept producer hproducer)
        have hempty := attributed_isSome history key
        rw [hnone, ← houtputs] at hempty
        rw [Option.isSome_none, Option.isSome_eq_false_iff, Option.isNone_iff_eq_none] at hempty
        rw [hempty]
        exact (get?_without_downstream task.outputs key).1 hkey
      · exact (get?_without_downstream task.outputs key).2 hkey
    · intro id
      rw [hmarks]
      by_cases hgiven : context.contains "continued_failures" = true
      · rw [if_pos hgiven]
        exact h.given hgiven id
      · have hfalse := Bool.not_eq_true _ ▸ hgiven
        rw [if_neg hgiven]
        exact ⟨fun hid => ⟨hid, h.unmarked hfalse id hid⟩, fun hid => hid.1⟩

end Resume

end

/-! ## A variable that stays -/

/-- A plan that sets a variable and then uses it. -/
def variablePlan : TaskPlan where
  id := "plan"
  nodes :=
    [{ id := "set", workflowId := "variable.set" },
      { id := "use", workflowId := "terminal.send", dependsOn := ["set"] }]

/-- What the `variable.set` node returns. -/
def variableOutput : Dict String Value := ⟨[("name", .str "port"), ("value", .int 22)]⟩

/-- The outputs of its nodes, without the variable. -/
def nodeOutputs : List OutputWrite :=
  [.output "set" (.ofDict variableOutput), .output "use" (.dict [("status", .str "succeeded")])]

/-- The outputs of its nodes, with the variable. -/
def variableOutputs : List OutputWrite :=
  [.output "set" (.ofDict variableOutput),
    .recorded { id := "set", workflowId := "variable.set" } variableOutput,
    .output "use" (.dict [("status", .str "succeeded")])]

/-- A task of the plan that failed, with some outputs. -/
def failedTask [PyLib] (history : List OutputWrite) : TaskRun where
  id := "task"
  planId := "plan"
  deviceId := "device"
  status := .failed
  outputs := (attributed history).outputs

/-- An orchestrator without workflows. -/
def bareOrchestrator : Orchestrator Unit where
  runtime := ⟨[], [], 5⟩
  build _ _ := .error (.keyError "unknown workflow")

/-- Where no variable was recorded, a resume from the first step clears everything. -/
theorem clearsFromStep_nodeOutputs : ∃ stored,
    ((@Orchestrator.resumeFromStep Unit .atEpoch bareOrchestrator
      (@failedTask .atEpoch nodeOutputs) variablePlan "set" ∅ false).run
        { runtime := { resources := () } }).2.tasks.get? "task" = some stored ∧
      @ClearsFromStep .atEpoch variablePlan "set" (@failedTask .atEpoch nodeOutputs)
        (@attributed .atEpoch nodeOutputs).producers stored := by
  refine (@resumeFromStep_clears_iff .atEpoch Unit bareOrchestrator
    { runtime := { resources := () } } _ (@failedTask .atEpoch nodeOutputs) _ variablePlan "set" ∅
    List.nodup_nil false nodeOutputs rfl rfl).mpr
      (@SeparateFromStep.mk .atEpoch _ _ _ _ _ ?_ ?_ ?_)
  · intro key producer h
    have hproducers : (@attributed .atEpoch nodeOutputs).producers =
      ⟨[("set", "set"), ("use", "use")]⟩ := rfl
    rw [hproducers] at h
    have hsame : key = producer := by
      have hmem := Dict.mem_of_get? h
      simp only [List.mem_cons, Prod.mk.injEq, List.not_mem_nil, or_false] at hmem
      rcases hmem with ⟨rfl, rfl⟩ | ⟨rfl, rfl⟩ <;> rfl
    rw [hsame]
  · intro _ id hid
    cases hid
  · intro h
    cases h

/-- A resume from the step that set the variable leaves the variable. -/
theorem not_clearsFromStep_variable : ¬ ∃ stored,
    ((@Orchestrator.resumeFromStep Unit .atEpoch bareOrchestrator
      (@failedTask .atEpoch variableOutputs) variablePlan "set" ∅ false).run
        { runtime := { resources := () } }).2.tasks.get? "task" = some stored ∧
      @ClearsFromStep .atEpoch variablePlan "set" (@failedTask .atEpoch variableOutputs)
        (@attributed .atEpoch variableOutputs).producers stored := by
  rintro ⟨stored, hget, h⟩
  have hstored : some stored = some (resumedTask (@failedTask .atEpoch variableOutputs) variablePlan
    "set" ∅) := hget.symm
  cases hstored
  obtain ⟨-, -, -, houtputs, -, -⟩ := h
  have hcleared := houtputs "port" "set" rfl .refl
  have hkept : (resumedTask (@failedTask .atEpoch variableOutputs) variablePlan "set"
    ∅).outputs.contains "port" = true := by decide
  rw [Dict.contains, hcleared] at hkept
  cases hkept

end DeviceShell.Framework
