import DeviceShell.Lib.CycleSearch
import DeviceShell.Lib.GraphSplice
import DeviceShell.Studio.Validation

/-!
# The graphs that are accepted

What the checks of the graph of a draft come to. `validate_workflow` finds nothing wrong with the
graph exactly if the ids are distinct, the edges are among the nodes, there is no cycle (`Sound`), and
all nodes are reached from one of them (`Rooted`). Its search for cycles is the one of the library, its
reachability is gathering.
-/

namespace DeviceShell.Studio

open Relation GraphSplice

/-! ## Graphs -/

/-- An edge leads from one id to another. -/
def Leads (edges : List WorkflowEdge) (a b : String) : Prop :=
  ∃ e ∈ edges, e.source = a ∧ e.target = b

/-- The ids of some nodes. -/
def idsOf (nodes : List WorkflowNode) : List String := nodes.map WorkflowNode.id

/-- The ids are distinct, the edges are among the nodes, and there is no cycle. -/
structure Sound (nodes : List WorkflowNode) (edges : List WorkflowEdge) : Prop where
  nodup : (idsOf nodes).Nodup
  ends : ∀ e ∈ edges, e.source ∈ idsOf nodes ∧ e.target ∈ idsOf nodes
  acyclic : Acyclic (Leads edges)

/-- Where there are several nodes, all are reached from one of them. -/
def Rooted (nodes : List WorkflowNode) (edges : List WorkflowEdge) : Prop :=
  1 < nodes.length → ∃ root ∈ idsOf nodes, ∀ id ∈ idsOf nodes, ReflTransGen (Leads edges) root id

/-! ## The checks -/

variable {draft : WorkflowDraft}

theorem mem_adjacency {a b : String} :
    b ∈ draft.adjacency a ↔ ∃ e ∈ draft.edges, draft.linked e ∧ e.source = a ∧ e.target = b := by
  simp only [WorkflowDraft.adjacency, List.mem_map, List.mem_filter, decide_eq_true_eq]
  constructor
  · rintro ⟨e, ⟨he, hlinked, hs⟩, ht⟩
    exact ⟨e, he, hlinked, hs, ht⟩
  · rintro ⟨e, he, hlinked, hs, ht⟩
    exact ⟨e, ⟨he, hlinked, hs⟩, ht⟩

theorem adjacency_subset (a : String) : draft.adjacency a ⊆ draft.nodeIds := by
  intro b hb
  obtain ⟨e, -, hlinked, -, rfl⟩ := mem_adjacency.1 hb
  exact hlinked.2

/-- Where all edges are among the nodes, the checks follow all of them. -/
theorem next_adjacency (hlinked : ∀ e ∈ draft.edges, draft.linked e) :
    CycleSearch.Next draft.adjacency = Leads draft.edges := by
  ext a b
  constructor
  · intro hb
    obtain ⟨e, he, -, hs, ht⟩ := mem_adjacency.1 hb
    exact ⟨e, he, hs, ht⟩
  · rintro ⟨e, he, hs, ht⟩
    exact mem_adjacency.2 ⟨e, he, hlinked e he, hs, ht⟩

theorem code_of_conditionIssues {edge : WorkflowEdge} {issue : ValidationIssue}
    (h : issue ∈ WorkflowDraft.conditionIssues edge) : issue.code = "invalid_condition" := by
  unfold WorkflowDraft.conditionIssues at h
  split at h
  · exact absurd h List.not_mem_nil
  · have hissue := (List.mem_ite_nil_right.1 h).2
    exact List.mem_singleton.1 hissue ▸ rfl
  · exact List.mem_singleton.1 h ▸ rfl

section

variable [PyLib]

theorem code_of_branchIssues {edge : WorkflowEdge} {issue : ValidationIssue}
    (h : issue ∈ draft.branchIssues edge) : issue.code = "invalid_branch_label" := by
  have hissue := (List.mem_ite_nil_right.1 h).2
  exact List.mem_singleton.1 hissue ▸ rfl

/-- An edge is an issue of its own where it is not between nodes. -/
theorem linked_iff (edge : WorkflowEdge) :
    (∀ issue ∈ draft.edgeIssues edge, issue.code ≠ "invalid_edge") ↔ draft.linked edge := by
  unfold WorkflowDraft.edgeIssues
  split
  · next hlinked =>
    refine iff_of_true (fun issue hissue hcode => ?_) hlinked
    rcases List.mem_append.1 hissue with hissue | hissue
    · exact absurd ((code_of_conditionIssues hissue).symm.trans hcode) (by decide)
    · exact absurd ((code_of_branchIssues hissue).symm.trans hcode) (by decide)
  · next hlinked =>
    refine iff_of_false (fun hnone => ?_) hlinked
    exact hnone _ List.mem_cons_self rfl

end

theorem duplicateNodeIssues_eq_nil_iff : draft.duplicateNodeIssues = [] ↔ draft.nodeIds.Nodup := by
  have hlength : draft.nodeIds.length = draft.nodes.length := List.length_map _
  unfold WorkflowDraft.duplicateNodeIssues
  constructor
  · intro hissues
    split at hissues
    · exact (repeated_eq_nil (List.map_eq_nil_iff.1 hissues)).1
    · next hsame =>
      have heq : draft.nodeIds.dedup = draft.nodeIds :=
        (List.dedup_sublist _).eq_of_length (by omega)
      exact heq ▸ List.nodup_dedup _
  · intro hnodup
    rw [List.Nodup.dedup hnodup, if_neg (not_not.2 hlength)]

/-- `visit` is a search for cycles. -/
theorem visit_eq_search (depth : ℕ) :
    draft.visit depth = CycleSearch.search draft.adjacency depth := by
  have heach : ∀ below, draft.visitEach below = CycleSearch.searchEach draft.adjacency below := by
    intro below
    funext visiting keys
    induction keys with
    | nil => rfl
    | cons id rest ih =>
      funext visited
      simp only [WorkflowDraft.visitEach, CycleSearch.searchEach, ih]
  induction depth with
  | zero => rfl
  | succ depth ih => exact (congrArg draft.visitEach ih).trans (heach _)

/-- A cycle is an issue, and nothing else is one of that kind. -/
theorem cycleIssues_eq_nil_iff (hlinked : ∀ e ∈ draft.edges, draft.linked e) :
    draft.cycleIssues = [] ↔ Acyclic (Leads draft.edges) := by
  have hclosed : ∀ x ∈ draft.nodeIds.dedup, draft.adjacency x ⊆ draft.nodeIds.dedup :=
    fun x _ y hy => List.mem_dedup.2 (adjacency_subset x hy)
  have hdepth : draft.nodeIds.dedup.length < draft.nodes.length + 1 := by
    have hle := (List.dedup_sublist draft.nodeIds).length_le
    have hlength : draft.nodeIds.length = draft.nodes.length := List.length_map _
    omega
  unfold WorkflowDraft.cycleIssues
  rw [List.map_eq_nil_iff, visit_eq_search, CycleSearch.search_eq_nil_iff hclosed hdepth,
    next_adjacency hlinked]
  constructor
  · intro hacyclic x hcycle
    obtain ⟨_, ⟨e, he, rfl, -⟩, -⟩ := TransGen.head'_iff.1 hcycle
    exact hacyclic _ (List.mem_dedup.2 (hlinked e he).1) hcycle
  · exact fun hacyclic x _ => hacyclic x

/-- What is gathered from the roots is what they lead to. -/
theorem mem_reachable_iff (hlinked : ∀ e ∈ draft.edges, draft.linked e) (id : String) :
    id ∈ draft.reachable ↔ ∃ root ∈ draft.roots, ReflTransGen (Leads draft.edges) root id := by
  have hroots : ∀ root ∈ draft.roots, root ∈ draft.nodeIds := fun root hroot =>
    List.mem_dedup.1 (List.mem_filter.1 hroot).1
  have hsome : (draft.graph.gather (draft.nodes.length + 1) draft.roots []).isSome := by
    have hknown : ∀ {key node}, key ∈ draft.nodeIds → draft.graph.resolve key = .ok node →
        key ∈ draft.nodeIds ∧ ∀ called ∈ draft.graph.calls node, called ∈ draft.nodeIds :=
      fun {_ node} hkey _ => ⟨hkey, fun called hcalled => adjacency_subset node hcalled⟩
    refine KeyedGraph.gather_isSome_within hknown _ _ _ hroots ?_
    · have hlength : draft.nodeIds.length = draft.nodes.length := List.length_map _
      have hle := List.length_filter_le (fun key => key ∉ ([] : List String)) draft.nodeIds
      unfold KeyedGraph.unseen
      omega
  have hcalls : draft.graph.Calls = Leads draft.edges := by
    rw [← next_adjacency hlinked]
    ext a b
    constructor
    · rintro ⟨_, hnode, hb⟩
      obtain rfl := Except.ok.inj hnode
      exact hb
    · exact fun hb => ⟨a, rfl, hb⟩
  obtain ⟨result, hresult⟩ := Option.isSome_iff_exists.1 hsome
  unfold WorkflowDraft.reachable
  rw [hresult]
  cases result with
  | error e => exact e.elim
  | ok found =>
    rw [KeyedGraph.mem_gather_iff hresult, KeyedGraph.Reached, hcalls]

theorem mem_roots_iff (hlinked : ∀ e ∈ draft.edges, draft.linked e) (id : String) :
    id ∈ draft.roots ↔ id ∈ draft.nodeIds ∧ ∀ a, ¬ Leads draft.edges a id := by
  simp only [WorkflowDraft.roots, List.mem_filter, List.mem_dedup, Bool.not_eq_true', List.any_eq_false,
    decide_eq_true_eq]
  refine and_congr_right fun _ => ?_
  constructor
  · rintro hno a ⟨e, he, -, ht⟩
    exact hno e he ⟨hlinked e he, ht⟩
  · rintro hno e he ⟨-, ht⟩
    exact hno e.source ⟨e, he, rfl, ht⟩

/-- Without a cycle, the checks that nothing is disconnected are met where there is one root. -/
theorem disconnectedIssues_eq_nil_iff (hlinked : ∀ e ∈ draft.edges, draft.linked e)
    (hacyclic : Acyclic (Leads draft.edges)) :
    draft.disconnectedIssues = [] ↔ Rooted draft.nodes draft.edges := by
  unfold WorkflowDraft.disconnectedIssues Rooted
  split
  · next hlen =>
    rw [List.append_eq_nil_iff, List.map_eq_nil_iff, List.filter_eq_nil_iff]
    constructor
    · rintro ⟨hone, hall⟩ -
      have hcount : draft.roots.length = 1 := by
        by_contra hne
        rw [if_pos hne] at hone
        exact List.cons_ne_nil _ _ hone
      obtain ⟨root, hroot⟩ := List.length_eq_one_iff.1 hcount
      have hmem : root ∈ draft.roots := hroot ▸ List.mem_cons_self
      refine ⟨root, ((mem_roots_iff hlinked root).1 hmem).1, fun id hid => ?_⟩
      have hreached : id ∈ draft.reachable := by simpa using hall id (List.mem_dedup.2 hid)
      obtain ⟨root', hroot', hpath⟩ := (mem_reachable_iff hlinked id).1 hreached
      rw [hroot, List.mem_singleton] at hroot'
      exact hroot' ▸ hpath
    · intro hrooted
      obtain ⟨root, hid, hpaths⟩ := hrooted hlen
      -- What leads to the root would close a cycle, and every other node has a predecessor.
      have hiff : ∀ id, id ∈ draft.roots ↔ id = root := by
        intro id
        rw [mem_roots_iff hlinked]
        constructor
        · rintro ⟨hmem, hno⟩
          rcases (hpaths id hmem).cases_tail with heq | ⟨a, -, hlast⟩
          · exact heq
          · exact absurd hlast (hno a)
        · rintro rfl
          refine ⟨hid, fun a hedge => hacyclic a ?_⟩
          have ha : a ∈ draft.nodeIds := by
            obtain ⟨e, he, rfl, -⟩ := hedge
            exact (hlinked e he).1
          exact .head' hedge (hpaths a ha)
      have hroots : draft.roots = [root] := by
        have hnodup : draft.roots.Nodup := (List.nodup_dedup _).filter _
        exact List.perm_singleton.1 ((List.perm_ext_iff_of_nodup hnodup (List.nodup_singleton _)).2
          fun id => (hiff id).trans List.mem_singleton.symm)
      refine ⟨by rw [hroots]; rfl, fun id hid => ?_⟩
      have hreached := (mem_reachable_iff hlinked id).2
        ⟨root, (hiff root).2 rfl, hpaths id (List.mem_dedup.1 hid)⟩
      simpa using hreached
  · next hlen => exact iff_of_true rfl fun h => absurd h hlen

/-- The checks of the graph find nothing exactly if it is sound and rooted. -/
theorem graph_accepted_iff [PyLib] (draft : WorkflowDraft) :
    draft.duplicateNodeIssues = [] ∧
        (∀ edge ∈ draft.edges, ∀ issue ∈ draft.edgeIssues edge, issue.code ≠ "invalid_edge") ∧
        draft.disconnectedIssues = [] ∧ draft.cycleIssues = [] ↔
      Sound draft.nodes draft.edges ∧ Rooted draft.nodes draft.edges := by
  rw [duplicateNodeIssues_eq_nil_iff]
  constructor
  · rintro ⟨hnodup, hedges, hdisconnected, hcycle⟩
    have hlinked : ∀ e ∈ draft.edges, draft.linked e := fun e he => (linked_iff e).1 (hedges e he)
    have hacyclic := (cycleIssues_eq_nil_iff hlinked).1 hcycle
    exact ⟨⟨hnodup, hlinked, hacyclic⟩,
      (disconnectedIssues_eq_nil_iff hlinked hacyclic).1 hdisconnected⟩
  · rintro ⟨⟨hnodup, hlinked, hacyclic⟩, hrooted⟩
    exact ⟨hnodup, fun e he => (linked_iff e).2 (hlinked e he),
      (disconnectedIssues_eq_nil_iff hlinked hacyclic).2 hrooted,
      (cycleIssues_eq_nil_iff hlinked).2 hacyclic⟩

end DeviceShell.Studio
