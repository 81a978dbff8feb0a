import DeviceShell.Studio.AcceptedGraphs
import DeviceShell.Studio.Expansion

/-!
# What an expansion keeps

An expanded workflow runs its nodes in the order that the workflow and the versions it calls give
them. Where the ids of every graph are distinct, its edges are among its nodes and it has no cycle,
the same holds of the expanded graph, in which no call is left (`Sound`). Each pass of the loop is a
splice of two graphs.
-/

namespace DeviceShell.Studio

open Relation GraphSplice

/-- A node that calls a workflow. -/
def WorkflowNode.IsCall (node : WorkflowNode) : Prop := node.actionId = "workflow.call"

instance (node : WorkflowNode) : Decidable node.IsCall :=
  inferInstanceAs (Decidable (node.actionId = "workflow.call"))

/-! ## The parts of a splice -/

/-- What the results of a traversal have in common with what was traversed. -/
theorem map_of_mapM {ε α β γ : Type} {f : α → Except ε β} {g : β → γ} {k : α → γ} {xs : List α}
    {ys : List β} (h : xs.mapM f = .ok ys) (hf : ∀ x y, f x = .ok y → g y = k x) :
    ys.map g = xs.map k := by
  have hall := Except.mapM_eq_ok.1 h
  clear h
  induction hall with
  | nil => rfl
  | cons hxy _ ih => exact congrArg₂ List.cons (hf _ _ hxy) ih

section

variable [PyLib]

theorem childNode_ok {b : Binding} {node renamed : WorkflowNode} (h : b.childNode node = .ok renamed) :
    (renamed.id, renamed.actionId) = (b.front ++ node.id, node.actionId) := by
  obtain ⟨config, -, h⟩ := Except.bind_eq_ok.1 h
  obtain ⟨inputMapping, -, h⟩ := Except.bind_eq_ok.1 h
  obtain rfl := Except.ok.inj h
  rfl

theorem childEdge_ok {b : Binding} {edge renamed : WorkflowEdge} (h : b.childEdge edge = .ok renamed) :
    (renamed.source, renamed.target) = (b.front ++ edge.source, b.front ++ edge.target) := by
  obtain ⟨condition, -, h⟩ := Except.bind_eq_ok.1 h
  obtain rfl := Except.ok.inj h
  rfl

/-- What a splice comes to, when it comes to something. -/
structure Spliceable (g : StudioGraph) (call : WorkflowNode) (expanded : WorkflowDraft)
    (childNodes : List WorkflowNode) (childEdges : List WorkflowEdge) (aggregate : WorkflowNode)
    (g' : StudioGraph) : Prop where
  nodes : childNodes.map (fun node => (node.id, node.actionId)) =
    expanded.nodes.map fun node => (frontOf call ++ node.id, node.actionId)
  edges : childEdges.map (fun edge => (edge.source, edge.target)) =
    expanded.edges.map fun edge => (frontOf call ++ edge.source, frontOf call ++ edge.target)
  collected : aggregate.id = call.id ∧ aggregate.actionId = "workflow.outputs"
  noCollision : ∀ node ∈ childNodes, node.id ∈ idsOf g.nodes → node.id = call.id
  result : g' = {
    nodes := replaceCall g.nodes (childNodes ++ [aggregate])
    edges := splicedEdges g.edges childEdges call.id
      (((idsOf expanded.nodes).filter (· ∉ expanded.edges.map WorkflowEdge.target)).map
        (frontOf call ++ ·))
      (((idsOf expanded.nodes).filter (· ∉ expanded.edges.map WorkflowEdge.source)).map
        (frontOf call ++ ·)) }

theorem spliceChild_ok {g g' : StudioGraph} {call : WorkflowNode} {called : String × ℤ}
    {child : WorkflowVersion} {expanded : WorkflowDraft}
    (h : spliceChild g call called child expanded = .ok g') :
    ∃ childNodes childEdges aggregate,
      Spliceable g call expanded childNodes childEdges aggregate g' := by
  obtain ⟨inputs, -, h⟩ := Except.bind_eq_ok.1 h
  obtain ⟨childNodes, hnodes, h⟩ := Except.bind_eq_ok.1 h
  obtain ⟨childEdges, hedges, h⟩ := Except.bind_eq_ok.1 h
  obtain ⟨values, -, h⟩ := Except.bind_eq_ok.1 h
  dsimp only at h
  split at h
  · cases h
  · next hsort =>
    obtain rfl := Except.ok.inj h
    refine ⟨childNodes, childEdges, _, ?_, ?_, ?_, ?_, rfl⟩
    · exact map_of_mapM hnodes fun _ _ => childNode_ok
    · exact map_of_mapM hedges fun _ _ => childEdge_ok
    · exact ⟨rfl, rfl⟩
    · intro node hnode hin
      by_contra hne
      have hmem : node.id ∈ ((childNodes.map WorkflowNode.id).filter
          (· ∈ (g.nodes.map WorkflowNode.id).filter (· ≠ call.id))) := by
        simp only [List.mem_filter, decide_eq_true_eq]
        exact ⟨List.mem_map_of_mem hnode, hin, by simpa using hne⟩
      have hsorted := (List.mergeSort_perm ((childNodes.map WorkflowNode.id).filter
        (· ∈ (g.nodes.map WorkflowNode.id).filter (· ≠ call.id))) (fun a b => a ≤ b)).mem_iff.2 hmem
      rw [hsort] at hsorted
      exact List.not_mem_nil hsorted

end

theorem append_injective (front : String) : Function.Injective (front ++ ·) := by
  intro a b hab
  have hlist : front.toList ++ a.toList = front.toList ++ b.toList := by
    simpa using congrArg String.toList hab
  exact String.toList_inj.1 (List.append_cancel_left hlist)

theorem frontOf_append_ne (call : WorkflowNode) (id : String) : frontOf call ++ id ≠ call.id := by
  intro heq
  have hlen := congrArg String.length heq
  simp only [frontOf, String.length_append] at hlen
  have htwo : "__".length = 2 := rfl
  omega

/-! ## One pass -/

/-- The ids of some nodes, as vertices. -/
def vertices (nodes : List WorkflowNode) : Set String := {id | id ∈ idsOf nodes}

theorem Sound.within {nodes : List WorkflowNode} {edges : List WorkflowEdge} (h : Sound nodes edges) :
    Within (vertices nodes) (Leads edges) := by
  rintro _ _ ⟨e, he, rfl, rfl⟩
  exact h.ends e he

theorem finite_vertices (nodes : List WorkflowNode) : (vertices nodes).Finite :=
  (idsOf nodes).finite_toSet

namespace Spliceable

variable {g g' : StudioGraph} {call : WorkflowNode} {expanded : WorkflowDraft}
  {childNodes : List WorkflowNode} {childEdges : List WorkflowEdge} {aggregate : WorkflowNode}
  (h : Spliceable g call expanded childNodes childEdges aggregate g')

include h

theorem idsOf_childNodes : idsOf childNodes = (idsOf expanded.nodes).map (frontOf call ++ ·) := by
  have hids := congrArg (List.map Prod.fst) h.nodes
  simpa [idsOf, List.map_map, Function.comp_def] using hids

theorem vertices_childNodes :
    vertices childNodes = (frontOf call ++ ·) '' vertices expanded.nodes := by
  ext id
  change id ∈ idsOf childNodes ↔ _
  rw [h.idsOf_childNodes, List.mem_map]
  rfl

theorem leads_childEdges : Leads childEdges =
    Relation.Map (Leads expanded.edges) (frontOf call ++ ·) (frontOf call ++ ·) := by
  ext x y
  have hmem : (x, y) ∈ childEdges.map (fun edge => (edge.source, edge.target)) ↔
      (x, y) ∈ expanded.edges.map fun edge =>
        (frontOf call ++ edge.source, frontOf call ++ edge.target) := by
    rw [h.edges]
  simp only [List.mem_map, Prod.mk.injEq] at hmem
  rw [Leads, hmem]
  constructor
  · rintro ⟨e, he, rfl, rfl⟩
    exact ⟨e.source, e.target, ⟨e, he, rfl, rfl⟩, rfl, rfl⟩
  · rintro ⟨_, _, ⟨e, he, rfl, rfl⟩, rfl, rfl⟩
    exact ⟨e, he, rfl, rfl⟩

/-- The roots of the called version. -/
theorem mem_rootIds (id : String) :
    id ∈ ((idsOf expanded.nodes).filter (· ∉ expanded.edges.map WorkflowEdge.target)).map
        (frontOf call ++ ·) ↔
      id ∈ roots (vertices childNodes) (Leads childEdges) := by
  rw [h.vertices_childNodes, h.leads_childEdges, List.mem_map]
  have hroot : ∀ id', id' ∈ (idsOf expanded.nodes).filter
      (· ∉ expanded.edges.map WorkflowEdge.target) ↔
      id' ∈ roots (vertices expanded.nodes) (Leads expanded.edges) := by
    intro id'
    rw [List.mem_filter, decide_eq_true_eq]
    refine and_congr_right fun _ => ?_
    simp only [List.mem_map, not_exists, not_and, Leads]
    exact ⟨fun hno a e he _ => hno e he, fun hno e he => hno e.source e he rfl⟩
  constructor
  · rintro ⟨id', hid', rfl⟩
    exact (mem_roots_map (append_injective _)).2 ((hroot id').1 hid')
  · intro hid
    obtain ⟨id', -, rfl⟩ := hid.1
    exact ⟨id', (hroot id').2 ((mem_roots_map (append_injective _)).1 hid), rfl⟩

/-- The terminals of the called version. -/
theorem mem_terminalIds (id : String) :
    id ∈ ((idsOf expanded.nodes).filter (· ∉ expanded.edges.map WorkflowEdge.source)).map
        (frontOf call ++ ·) ↔
      id ∈ terminals (vertices childNodes) (Leads childEdges) := by
  rw [h.vertices_childNodes, h.leads_childEdges, List.mem_map]
  have hend : ∀ id', id' ∈ (idsOf expanded.nodes).filter
      (· ∉ expanded.edges.map WorkflowEdge.source) ↔
      id' ∈ terminals (vertices expanded.nodes) (Leads expanded.edges) := by
    intro id'
    rw [List.mem_filter, decide_eq_true_eq]
    refine and_congr_right fun _ => ?_
    simp only [List.mem_map, not_exists, not_and, Leads]
    exact ⟨fun hno b e he hs _ => hno e he hs, fun hno e he hs => hno e.target e he hs rfl⟩
  constructor
  · rintro ⟨id', hid', rfl⟩
    exact (mem_terminals_map (append_injective _)).2 ((hend id').1 hid')
  · intro hid
    obtain ⟨id', -, rfl⟩ := hid.1
    exact ⟨id', (hend id').2 ((mem_terminals_map (append_injective _)).1 hid), rfl⟩

end Spliceable

/-- The edges of a splice, for lists of the roots and the terminals. -/
theorem leads_splicedEdges {edges childEdges : List WorkflowEdge} {callId : String}
    {rootIds terminalIds : List String} {M : Set String}
    (hroots : ∀ id, id ∈ rootIds ↔ id ∈ roots M (Leads childEdges))
    (hterminals : ∀ id, id ∈ terminalIds ↔ id ∈ terminals M (Leads childEdges)) (a b : String) :
    Leads (splicedEdges edges childEdges callId rootIds terminalIds) a b ↔
      Spliced (Leads edges) (Leads childEdges) M callId a b := by
  have hsome : rootIds ≠ [] ↔ (roots M (Leads childEdges)).Nonempty := by
    constructor
    · intro hne
      obtain ⟨id, hid⟩ := List.exists_mem_of_ne_nil _ hne
      exact ⟨id, (hroots id).1 hid⟩
    · rintro ⟨id, hid⟩
      exact List.ne_nil_of_mem ((hroots id).2 hid)
  constructor
  · rintro ⟨e, he, rfl, rfl⟩
    simp only [splicedEdges, List.mem_append, List.mem_filter, decide_eq_true_eq] at he
    rcases he with ((⟨hmem, ht, hs⟩ | he) | ⟨hmem, hs⟩) | hmem
    · exact .kept ⟨e, hmem, rfl, rfl⟩ hs ht
    · split at he
      · next hne =>
        rcases List.mem_append.1 he with he | he
        · obtain ⟨e', he', hmap⟩ := List.mem_flatMap.1 he
          obtain ⟨root, hroot, rfl⟩ := List.mem_map.1 hmap
          rw [List.mem_filter, decide_eq_true_eq] at he'
          exact .enter ⟨e', he'.1, rfl, he'.2⟩ ((hroots root).1 hroot)
        · obtain ⟨terminal, hterminal, rfl⟩ := List.mem_map.1 he
          exact .leave ((hterminals terminal).1 hterminal) (hsome.1 hne)
      · next hnone =>
        obtain ⟨e', he', rfl⟩ := List.mem_map.1 he
        rw [List.mem_filter, decide_eq_true_eq] at he'
        refine .bypass ⟨e', he'.1, rfl, he'.2⟩ ?_
        exact Set.not_nonempty_iff_eq_empty.1 fun hne => hnone (hsome.2 hne)
    · rw [hs]
      exact .out ⟨e, hmem, hs, rfl⟩
    · exact .inner ⟨e, hmem, rfl, rfl⟩
  · intro hstep
    unfold Leads splicedEdges
    cases hstep with
    | kept hP ha hb =>
      obtain ⟨e, he, rfl, rfl⟩ := hP
      exact ⟨e, by simp [he, ha, hb], rfl, rfl⟩
    | enter hP hb =>
      obtain ⟨e, he, rfl, ht⟩ := hP
      have hmem := (hroots b).2 hb
      have hne : rootIds ≠ [] := List.ne_nil_of_mem hmem
      refine ⟨{ e with target := b }, ?_, rfl, rfl⟩
      simp only [List.mem_append, if_pos hne]
      refine .inl (.inl (.inr (.inl (List.mem_flatMap.2 ⟨e, by simp [he, ht], ?_⟩))))
      exact List.mem_map_of_mem hmem
    | bypass hP hnone =>
      obtain ⟨e, he, rfl, ht⟩ := hP
      have hne : ¬ rootIds ≠ [] := fun hne => by
        have hsome' := hsome.1 hne
        rw [hnone] at hsome'
        exact Set.not_nonempty_empty hsome'
      refine ⟨{ e with target := callId }, ?_, rfl, rfl⟩
      simp only [List.mem_append, if_neg hne]
      refine .inl (.inl (.inr (List.mem_map.2 ⟨e, by simp [he, ht], rfl⟩)))
    | leave ha hsome' =>
      have hmem := (hterminals a).2 ha
      refine ⟨{ source := a, target := callId }, ?_, rfl, rfl⟩
      simp only [List.mem_append, if_pos (hsome.2 hsome')]
      exact .inl (.inl (.inr (.inr (List.mem_map.2 ⟨a, hmem, rfl⟩))))
    | out hP =>
      obtain ⟨e, he, hs, rfl⟩ := hP
      exact ⟨e, by simp [he, hs], hs, rfl⟩
    | inner hC =>
      obtain ⟨e, he, rfl, rfl⟩ := hC
      exact ⟨e, by simp [he], rfl, rfl⟩

/-- The graph around the first call, before and after it is replaced. -/
theorem replaceCall_of_find? {nodes : List WorkflowNode} {call : WorkflowNode}
    (h : nodes.find? (fun node => node.actionId = "workflow.call") = some call) :
    ∃ before after, nodes = before ++ call :: after ∧ call.IsCall ∧
      ∀ new, replaceCall nodes new = before ++ new ++ after := by
  obtain ⟨hcall, before, after, rfl, hbefore⟩ := List.find?_eq_some_iff_append.1 h
  have hcall' : call.IsCall := of_decide_eq_true hcall
  have hnone : ∀ node ∈ before, decide (node.actionId ≠ "workflow.call") = true := by
    intro node hnode
    simpa using hbefore node hnode
  have hstop : call.actionId = "workflow.call" := hcall'
  refine ⟨before, after, rfl, hcall', fun new => ?_⟩
  unfold replaceCall
  rw [List.takeWhile_append_of_pos hnone, List.dropWhile_append_of_pos hnone]
  simp [hstop]

namespace Spliceable

variable {g g' : StudioGraph} {call : WorkflowNode} {expanded : WorkflowDraft}
  {childNodes : List WorkflowNode} {childEdges : List WorkflowEdge} {aggregate : WorkflowNode}
  (h : Spliceable g call expanded childNodes childEdges aggregate g')

include h

theorem leads_result : Leads g'.edges =
    Spliced (Leads g.edges) (Leads childEdges) (vertices childNodes) call.id := by
  ext a b
  rw [h.result]
  exact leads_splicedEdges h.mem_rootIds h.mem_terminalIds a b

/-- A pass is a splice. -/
theorem splice (hg : Sound g.nodes g.edges) (he : Sound expanded.nodes expanded.edges)
    (hcall : call ∈ g.nodes) :
    Splice (Leads g.edges) (Leads childEdges) (vertices g.nodes) (vertices childNodes) call.id where
  mem := List.mem_map_of_mem hcall
  outer := hg.within
  inner := by
    rw [h.vertices_childNodes, h.leads_childEdges]
    exact within_map _ he.within
  disjoint := by
    intro id hid hold
    obtain ⟨node, hnode, rfl⟩ := List.mem_map.1 hid
    have heq : node.id = call.id := h.noCollision node hnode hold
    have hfront : node.id ∈ (idsOf expanded.nodes).map (frontOf call ++ ·) :=
      h.idsOf_childNodes ▸ hid
    obtain ⟨inner, -, hinner⟩ := List.mem_map.1 hfront
    exact frontOf_append_ne call inner (hinner.trans heq)

theorem acyclic_childEdges (he : Sound expanded.nodes expanded.edges) : Acyclic (Leads childEdges) := by
  rw [h.leads_childEdges]
  exact acyclic_map (append_injective _) he.acyclic

/-- The ids after a pass, in another order. -/
theorem idsOf_result (hfind : g.nodes.find? (fun node => node.actionId = "workflow.call") = some call) :
    (idsOf g'.nodes).Perm (idsOf g.nodes ++ idsOf childNodes) := by
  obtain ⟨before, after, hnodes, -, hreplace⟩ := replaceCall_of_find? hfind
  have hids : idsOf g'.nodes = idsOf before ++ (idsOf childNodes ++ (call.id :: idsOf after)) := by
    rw [h.result, hreplace]
    simp [idsOf, h.collected.1]
  have hold : idsOf g.nodes ++ idsOf childNodes =
      idsOf before ++ ((call.id :: idsOf after) ++ idsOf childNodes) := by
    rw [hnodes]
    simp [idsOf]
  rw [hids, hold]
  exact List.Perm.append_left _ List.perm_append_comm

/-- A pass keeps the graph sound. -/
theorem sound (hg : Sound g.nodes g.edges) (he : Sound expanded.nodes expanded.edges)
    (hfind : g.nodes.find? (fun node => node.actionId = "workflow.call") = some call) :
    Sound g'.nodes g'.edges := by
  have hsplice := h.splice hg he (List.mem_of_find?_eq_some hfind)
  have hperm := h.idsOf_result hfind
  have hmem : ∀ id, id ∈ idsOf g'.nodes ↔ id ∈ idsOf g.nodes ∨ id ∈ idsOf childNodes := fun id =>
    hperm.mem_iff.trans List.mem_append
  refine ⟨?_, ?_, ?_⟩
  · have hchild : (idsOf childNodes).Nodup := by
      rw [h.idsOf_childNodes]
      exact he.nodup.map (append_injective _)
    refine hperm.nodup_iff.2 (List.nodup_append.2 ⟨hg.nodup, hchild, ?_⟩)
    rintro a ha _ hb rfl
    exact hsplice.disjoint a hb ha
  · intro e hmemE
    have hstep : Leads g'.edges e.source e.target := ⟨e, hmemE, rfl, rfl⟩
    rw [h.leads_result] at hstep
    have hends := hsplice.within _ _ hstep
    exact ⟨(hmem _).2 hends.1, (hmem _).2 hends.2⟩
  · rw [h.leads_result]
    exact hsplice.acyclic_spliced hg.acyclic (h.acyclic_childEdges he)

section

variable (hg : Sound g.nodes g.edges) (he : Sound expanded.nodes expanded.edges)
  (hcall : call ∈ g.nodes)

include hg he hcall

/-- The nodes that were there reach each other as before. -/
theorem reaches_own {a b : String} (ha : a ∈ idsOf g.nodes) (hb : b ∈ idsOf g.nodes) :
    TransGen (Leads g'.edges) a b ↔ TransGen (Leads g.edges) a b := by
  rw [h.leads_result]
  exact (h.splice hg he hcall).transGen_spliced_iff (finite_vertices _) (h.acyclic_childEdges he) ha hb

/-- The nodes of the called version reach each other as there. -/
theorem reaches_inner {a b : String} (ha : a ∈ idsOf expanded.nodes)
    (hb : b ∈ idsOf expanded.nodes) :
    TransGen (Leads g'.edges) (frontOf call ++ a) (frontOf call ++ b) ↔
      TransGen (Leads expanded.edges) a b := by
  have hmem : ∀ {id}, id ∈ idsOf expanded.nodes → frontOf call ++ id ∈ vertices childNodes := by
    intro id hid
    rw [h.vertices_childNodes]
    exact Set.mem_image_of_mem _ hid
  rw [h.leads_result,
    (h.splice hg he hcall).transGen_inner_iff hg.acyclic (hmem ha) (hmem hb), h.leads_childEdges]
  exact transGen_map_iff (append_injective _)

/-- A node reaches those of the called version where it reached the call. -/
theorem reaches_into {a m : String} (ha : a ∈ idsOf g.nodes) (hm : m ∈ idsOf expanded.nodes) :
    TransGen (Leads g'.edges) a (frontOf call ++ m) ↔ TransGen (Leads g.edges) a call.id := by
  have hmem : frontOf call ++ m ∈ vertices childNodes := by
    rw [h.vertices_childNodes]
    exact Set.mem_image_of_mem _ hm
  rw [h.leads_result]
  exact (h.splice hg he hcall).transGen_outer_inner_iff (finite_vertices _) (h.acyclic_childEdges he)
    ha hmem

/-- A node of the called version reaches the call and what the call reached. -/
theorem reaches_out {m b : String} (hm : m ∈ idsOf expanded.nodes) (hb : b ∈ idsOf g.nodes) :
    TransGen (Leads g'.edges) (frontOf call ++ m) b ↔
      b = call.id ∨ TransGen (Leads g.edges) call.id b := by
  have hmem : frontOf call ++ m ∈ vertices childNodes := by
    rw [h.vertices_childNodes]
    exact Set.mem_image_of_mem _ hm
  rw [h.leads_result]
  exact (h.splice hg he hcall).transGen_inner_outer_iff (finite_vertices _) (h.acyclic_childEdges he)
    hmem hb

end

end Spliceable

end DeviceShell.Studio
