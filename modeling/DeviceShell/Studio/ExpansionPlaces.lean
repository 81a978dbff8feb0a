import DeviceShell.Studio.ExpansionOrder

/-!
# The order of an expanded workflow

A node of an expanded workflow stands at a place: that of a node of the workflow, or of a node of the
version that is called there. One place comes before another as the nodes of the workflow do, or,
within one call, as the nodes of the called version do and all of them before the call (`Before`).
`Expands` says that a graph is the workflow with some of its calls replaced, in this order; each pass
of the loop replaces one more (`Expands.pass`), so that a finished expansion has replaced them all
(`expandSubworkflows_expands`).
-/

namespace DeviceShell.Studio

open Relation GraphSplice

/-- A node of the workflow, or of the version it calls. -/
abbrev Place := String × Option String

/-- The id of the node at a place. -/
def Place.id : Place → String
  | (own, none) => own
  | (own, some inner) => own ++ "__" ++ inner

variable {nodes : List WorkflowNode} {edges : List WorkflowEdge}
  {below : String → Option WorkflowDraft} {g g' : StudioGraph}

/-- The places of a workflow, where `below` tells what the replaced calls stand for. -/
inductive IsPlace (nodes : List WorkflowNode) (below : String → Option WorkflowDraft) : Place → Prop
  | own {id : String} (hid : id ∈ idsOf nodes) : IsPlace nodes below (id, none)
  | inner {id a : String} {e : WorkflowDraft} (hid : id ∈ idsOf nodes) (he : below id = some e)
      (ha : a ∈ idsOf e.nodes) : IsPlace nodes below (id, some a)

/-- The order of the places. -/
inductive Before (edges : List WorkflowEdge) (below : String → Option WorkflowDraft) :
    Place → Place → Prop
  | across {p q : Place} (h : TransGen (Leads edges) p.1 q.1) : Before edges below p q
  | within {id a b : String} {e : WorkflowDraft} (he : below id = some e)
      (h : TransGen (Leads e.edges) a b) : Before edges below (id, some a) (id, some b)
  | collected {id a : String} : Before edges below (id, some a) (id, none)

/-- The ids and the actions that a node stands for. -/
def shapes (below : String → Option WorkflowDraft) (node : WorkflowNode) : List (String × String) :=
  match below node.id with
  | none => [(node.id, node.actionId)]
  | some e => e.nodes.map (fun inner => (frontOf node ++ inner.id, inner.actionId)) ++
      [(node.id, "workflow.outputs")]

/-- A graph is a workflow in which the calls that `below` knows are replaced. -/
structure Expands (nodes : List WorkflowNode) (edges : List WorkflowEdge)
    (below : String → Option WorkflowDraft) (g : StudioGraph) : Prop where
  sound : Sound g.nodes g.edges
  listed : g.nodes.map (fun node => (node.id, node.actionId)) = nodes.flatMap (shapes below)
  kept : ∀ node ∈ nodes, below node.id = none → node ∈ g.nodes
  distinct : ∀ p q, IsPlace nodes below p → IsPlace nodes below q → p.id = q.id → p = q
  order : ∀ p q, IsPlace nodes below p → IsPlace nodes below q →
    (TransGen (Leads g.edges) p.id q.id ↔ Before edges below p q)

/-- What replaced calls stand for. -/
def Replaced (below : String → Option WorkflowDraft) : Prop :=
  ∀ id e, below id = some e → Sound e.nodes e.edges ∧ ∀ node ∈ e.nodes, ¬ node.IsCall

/-- Nothing is replaced at first. -/
theorem expands_start (h : Sound nodes edges) : Expands nodes edges (fun _ => none) ⟨nodes, edges⟩ where
  sound := h
  listed := List.map_eq_flatMap
  kept := fun node hnode _ => hnode
  distinct := by
    intro p q hp hq heq
    cases hp with
    | inner _ he _ => cases he
    | own _ => cases hq with
      | inner _ he _ => cases he
      | own _ => exact congrArg (·, none) heq
  order := by
    intro p q hp hq
    cases hp with
    | inner _ he _ => cases he
    | own _ => cases hq with
      | inner _ he _ => cases he
      | own _ =>
        constructor
        · exact fun h => .across h
        · intro hbefore
          cases hbefore with
          | across h => exact h

namespace Expands

variable (hx : Expands nodes edges below g)

include hx

theorem mem_idsOf_iff (id : String) :
    id ∈ idsOf g.nodes ↔ ∃ p, IsPlace nodes below p ∧ p.id = id := by
  have hids : idsOf g.nodes = (nodes.flatMap (shapes below)).map Prod.fst := by
    rw [← hx.listed, List.map_map]
    rfl
  rw [hids, List.mem_map]
  constructor
  · rintro ⟨shape, hshape, rfl⟩
    obtain ⟨node, hnode, hshape⟩ := List.mem_flatMap.1 hshape
    have hown : IsPlace nodes below (node.id, none) := .own (List.mem_map_of_mem hnode)
    unfold shapes at hshape
    split at hshape
    · obtain rfl := List.mem_singleton.1 hshape
      exact ⟨_, hown, rfl⟩
    · next e he =>
      rcases List.mem_append.1 hshape with hshape | hshape
      · obtain ⟨inner, hinner, rfl⟩ := List.mem_map.1 hshape
        exact ⟨(node.id, some inner.id),
          .inner (List.mem_map_of_mem hnode) he (List.mem_map_of_mem hinner), rfl⟩
      · obtain rfl := List.mem_singleton.1 hshape
        exact ⟨_, hown, rfl⟩
  · rintro ⟨p, hp, rfl⟩
    cases hp with
    | own hid =>
      obtain ⟨node, hnode, rfl⟩ := List.mem_map.1 hid
      cases hb : below node.id with
      | none =>
        exact ⟨(node.id, node.actionId), List.mem_flatMap.2 ⟨node, hnode, by simp [shapes, hb]⟩, rfl⟩
      | some e =>
        exact ⟨(node.id, "workflow.outputs"),
          List.mem_flatMap.2 ⟨node, hnode, by simp [shapes, hb]⟩, rfl⟩
    | inner hid he ha =>
      obtain ⟨node, hnode, rfl⟩ := List.mem_map.1 hid
      obtain ⟨inner, hinner, rfl⟩ := List.mem_map.1 ha
      refine ⟨(frontOf node ++ inner.id, inner.actionId),
        List.mem_flatMap.2 ⟨node, hnode, ?_⟩, rfl⟩
      simp only [shapes, he]
      exact List.mem_append_left _ (List.mem_map_of_mem (f := fun inner : WorkflowNode =>
        (frontOf node ++ inner.id, inner.actionId)) hinner)

/-- A call of the graph is one of the workflow that is not replaced. -/
theorem call_mem (hreplaced : Replaced below) {call : WorkflowNode} (hcall : call ∈ g.nodes)
    (hisCall : call.IsCall) : call ∈ nodes ∧ below call.id = none := by
  have hshape : (call.id, call.actionId) ∈ nodes.flatMap (shapes below) := by
    rw [← hx.listed]
    exact List.mem_map_of_mem (f := fun node : WorkflowNode => (node.id, node.actionId)) hcall
  obtain ⟨node, hnode, hshape⟩ := List.mem_flatMap.1 hshape
  unfold shapes at hshape
  split at hshape
  · next hnone =>
    obtain ⟨hid, -⟩ := Prod.mk.inj (List.mem_singleton.1 hshape)
    have hsame : call = node :=
      List.inj_on_of_nodup_map hx.sound.nodup hcall (hx.kept node hnode hnone) hid
    exact hsame ▸ ⟨hnode, hnone⟩
  · next e he =>
    rcases List.mem_append.1 hshape with hshape | hshape
    · obtain ⟨inner, hinner, heq⟩ := List.mem_map.1 hshape
      exact absurd ((Prod.mk.inj heq).2.trans hisCall) ((hreplaced _ _ he).2 inner hinner)
    · have hout := (Prod.mk.inj (List.mem_singleton.1 hshape)).2
      rw [hisCall] at hout
      exact absurd hout (by decide)

end Expands

/-! ## One more call -/

section

variable {call : WorkflowNode} {expanded : WorkflowDraft}

/-- The places once a call is replaced. -/
theorem isPlace_update (hcall : call.id ∈ idsOf nodes) (hnone : below call.id = none) (p : Place) :
    IsPlace nodes (Function.update below call.id (some expanded)) p ↔
      IsPlace nodes below p ∨ ∃ a ∈ idsOf expanded.nodes, p = (call.id, some a) := by
  constructor
  · intro hp
    cases hp with
    | own hid => exact .inl (.own hid)
    | @inner id a e hid he ha =>
      by_cases heq : id = call.id
      · subst heq
        rw [Function.update_self] at he
        obtain rfl := Option.some.inj he
        exact .inr ⟨a, ha, rfl⟩
      · rw [Function.update_of_ne heq] at he
        exact .inl (.inner hid he ha)
  · rintro (hp | ⟨a, ha, rfl⟩)
    · cases hp with
      | own hid => exact .own hid
      | @inner id a e hid he ha =>
        have hne : id ≠ call.id := by
          rintro rfl
          rw [hnone] at he
          cases he
        exact .inner hid ((Function.update_of_ne hne _ _).trans he) ha
    · exact .inner hcall (Function.update_self _ _ _) ha

/-- The places that were there keep their order. -/
theorem before_update_of_old (hnone : below call.id = none) {p q : Place}
    (hp : IsPlace nodes below p) :
    Before edges (Function.update below call.id (some expanded)) p q ↔ Before edges below p q := by
  -- A call that was replaced before is another one.
  have hne : ∀ {id e}, below id = some e → id ≠ call.id := by
    rintro id e he rfl
    rw [hnone] at he
    cases he
  constructor
  · intro hbefore
    cases hbefore with
    | across h => exact .across h
    | within he h => cases hp with
      | inner _ he' _ =>
        rw [Function.update_of_ne (hne he')] at he
        exact .within he h
    | collected => exact .collected
  · intro hbefore
    cases hbefore with
    | across h => exact .across h
    | within he h => exact .within ((Function.update_of_ne (hne he) _ _).trans he) h
    | collected => exact .collected

/-- A place of the workflow comes before a new one where it comes before the call. -/
theorem before_new_iff (hnone : below call.id = none) {p : Place} (hp : IsPlace nodes below p)
    (a : String) : Before edges (Function.update below call.id (some expanded)) p (call.id, some a) ↔
      Before edges below p (call.id, none) := by
  constructor
  · intro hbefore
    cases hbefore with
    | across h => exact .across h
    | within _ _ => cases hp with
      | inner _ he _ =>
        rw [hnone] at he
        cases he
  · intro hbefore
    cases hbefore with
    | across h => exact .across h
    | collected => cases hp with
      | inner _ he _ =>
        rw [hnone] at he
        cases he

/-- A new place comes before one of the workflow where the call does, and before the call. -/
theorem new_before_iff (hnone : below call.id = none) {q : Place} (hq : IsPlace nodes below q)
    (a : String) : Before edges (Function.update below call.id (some expanded)) (call.id, some a) q ↔
      q = (call.id, none) ∨ Before edges below (call.id, none) q := by
  constructor
  · intro hbefore
    cases hbefore with
    | across h => exact .inr (.across h)
    | within _ _ => cases hq with
      | inner _ he _ =>
        rw [hnone] at he
        cases he
    | collected => exact .inl rfl
  · rintro (rfl | hbefore)
    · exact .collected
    · cases hbefore with
      | across h => exact .across h

/-- The new places keep the order of the called version. -/
theorem new_before_new_iff (hacyclic : Acyclic (Leads edges)) (a b : String) :
    Before edges (Function.update below call.id (some expanded)) (call.id, some a)
      (call.id, some b) ↔ TransGen (Leads expanded.edges) a b := by
  constructor
  · intro hbefore
    cases hbefore with
    | across h => exact absurd h (hacyclic _)
    | within he h =>
      rw [Function.update_self] at he
      obtain rfl := Option.some.inj he
      exact h
  · exact fun h => .within (Function.update_self _ _ _) h

variable {childNodes : List WorkflowNode} {childEdges : List WorkflowEdge} {aggregate : WorkflowNode}

/-- The node that calls stands for more than it did, the others for the same. -/
theorem flatMap_shapes_update {xs : List WorkflowNode} (hxs : call.id ∉ idsOf xs) :
    xs.flatMap (shapes (Function.update below call.id (some expanded))) =
      xs.flatMap (shapes below) := by
  unfold List.flatMap
  congr 1
  refine List.map_congr_left fun node hnode => ?_
  have hne : node.id ≠ call.id := fun heq => hxs (heq ▸ List.mem_map_of_mem hnode)
  simp only [shapes, Function.update_of_ne hne]

/-- The nodes of the graph after a pass. -/
theorem Expands.listed_pass (hx : Expands nodes edges below g) (hreplaced : Replaced below)
    (hnodup : (idsOf nodes).Nodup)
    (hs : Spliceable g call expanded childNodes childEdges aggregate g')
    (hfind : g.nodes.find? (fun node => node.actionId = "workflow.call") = some call) :
    g'.nodes.map (fun node => (node.id, node.actionId)) =
      nodes.flatMap (shapes (Function.update below call.id (some expanded))) := by
  obtain ⟨before, after, hsplit, hcall, hreplace⟩ := replaceCall_of_find? hfind
  obtain ⟨hmem, hnone⟩ := hx.call_mem hreplaced (List.mem_of_find?_eq_some hfind) hcall
  obtain ⟨first, last, rfl⟩ := List.append_of_mem hmem
  have hids : (idsOf first ++ call.id :: idsOf last).Nodup := by simpa [idsOf] using hnodup
  obtain ⟨hfirst, hlast⟩ : call.id ∉ idsOf first ∧ call.id ∉ idsOf last := by
    have hmiddle := List.nodup_middle.1 hids
    simpa using (List.nodup_cons.1 hmiddle).1
  -- The call divides both lists at the same place.
  have hlists : before.map (fun node => (node.id, node.actionId)) ++
        (call.id, call.actionId) :: after.map (fun node => (node.id, node.actionId)) =
      first.flatMap (shapes below) ++ (call.id, call.actionId) :: last.flatMap (shapes below) := by
    have hlisted := hx.listed
    rw [hsplit] at hlisted
    simpa [shapes, hnone] using hlisted
  have hg : (idsOf before ++ call.id :: idsOf after).Nodup := by
    have hg := hx.sound.nodup
    rw [hsplit] at hg
    simpa [idsOf] using hg
  obtain ⟨hbefore, hafter⟩ : call.id ∉ idsOf before ∧ call.id ∉ idsOf after := by
    have hmiddle := List.nodup_middle.1 hg
    simpa using (List.nodup_cons.1 hmiddle).1
  have hnot : ∀ {xs : List WorkflowNode}, call.id ∉ idsOf xs →
      (call.id, call.actionId) ∉ xs.map fun node => (node.id, node.actionId) := by
    intro xs hxs hin
    obtain ⟨node, hnode, heq⟩ := List.mem_map.1 hin
    exact hxs ((Prod.mk.inj heq).1 ▸ List.mem_map_of_mem hnode)
  obtain ⟨hleft, -, hright⟩ :=
    (List.append_cons_inj_of_notMem (hnot hbefore) (hnot hafter)).1 hlists
  rw [hs.result, hreplace]
  simp only [List.map_append, List.flatMap_append, List.flatMap_cons, flatMap_shapes_update hfirst,
    flatMap_shapes_update hlast, hleft, hright, hs.nodes, List.map_cons, List.map_nil,
    hs.collected.1, hs.collected.2, shapes, Function.update_self, List.append_assoc]

/-- A pass of the loop replaces one more call. -/
theorem Expands.pass (hx : Expands nodes edges below g) (hreplaced : Replaced below)
    (hsound : Sound nodes edges) (he : Sound expanded.nodes expanded.edges)
    (hs : Spliceable g call expanded childNodes childEdges aggregate g')
    (hfind : g.nodes.find? (fun node => node.actionId = "workflow.call") = some call) :
    Expands nodes edges (Function.update below call.id (some expanded)) g' := by
  have hmemG := List.mem_of_find?_eq_some hfind
  obtain ⟨before, after, hsplit, hcall, hreplace⟩ := replaceCall_of_find? hfind
  obtain ⟨hmem, hnone⟩ := hx.call_mem hreplaced hmemG hcall
  have hid : call.id ∈ idsOf nodes := List.mem_map_of_mem hmem
  have hplace : ∀ p, IsPlace nodes (Function.update below call.id (some expanded)) p ↔
      IsPlace nodes below p ∨ ∃ a ∈ idsOf expanded.nodes, p = (call.id, some a) :=
    isPlace_update hid hnone
  have hold : ∀ {p}, IsPlace nodes below p → p.id ∈ idsOf g.nodes := fun {p} hp =>
    (hx.mem_idsOf_iff _).2 ⟨p, hp, rfl⟩
  refine ⟨hs.sound hx.sound he hfind, hx.listed_pass hreplaced hsound.nodup hs hfind, ?_, ?_, ?_⟩
  · intro node hnode hkept
    have hne : node.id ≠ call.id := by
      intro heq
      rw [heq, Function.update_self] at hkept
      cases hkept
    rw [Function.update_of_ne hne] at hkept
    have hin := hx.kept node hnode hkept
    rw [hs.result, hreplace]
    rw [hsplit] at hin
    have hcases : node ∈ before ∨ node = call ∨ node ∈ after := by simpa using hin
    rcases hcases with hin | rfl | hin
    · simp [hin]
    · exact absurd rfl hne
    · simp [hin]
  · -- A new id is none of those that were there.
    have hnew : ∀ {p a}, IsPlace nodes below p → a ∈ idsOf expanded.nodes →
        p.id ≠ Place.id (call.id, some a) := by
      intro p a hp ha heq
      have hvertex : frontOf call ++ a ∈ vertices childNodes := by
        rw [hs.vertices_childNodes]
        exact Set.mem_image_of_mem _ ha
      have hin : Place.id (call.id, some a) ∈ idsOf g.nodes := heq ▸ hold hp
      exact (hs.splice hx.sound he hmemG).disjoint _ hvertex hin
    intro p q hp hq heq
    rcases (hplace p).1 hp with hp | ⟨a, ha, rfl⟩ <;> rcases (hplace q).1 hq with hq | ⟨b, hb, rfl⟩
    · exact hx.distinct p q hp hq heq
    · exact absurd heq (hnew hp hb)
    · exact absurd heq.symm (hnew hq ha)
    · exact congrArg (fun id => (call.id, some id)) (append_injective (frontOf call) heq)
  · have hcallPlace : IsPlace nodes below (call.id, none) := .own hid
    intro p q hp hq
    rcases (hplace p).1 hp with hp | ⟨a, ha, rfl⟩ <;> rcases (hplace q).1 hq with hq | ⟨b, hb, rfl⟩
    · calc TransGen (Leads g'.edges) p.id q.id
          ↔ TransGen (Leads g.edges) p.id q.id := hs.reaches_own hx.sound he hmemG (hold hp) (hold hq)
        _ ↔ Before edges below p q := hx.order p q hp hq
        _ ↔ _ := (before_update_of_old hnone hp).symm
    · calc TransGen (Leads g'.edges) p.id (Place.id (call.id, some b))
          ↔ TransGen (Leads g.edges) p.id call.id := hs.reaches_into hx.sound he hmemG (hold hp) hb
        _ ↔ Before edges below p (call.id, none) := hx.order p _ hp hcallPlace
        _ ↔ _ := (before_new_iff hnone hp b).symm
    · have hsame : q.id = call.id ↔ q = (call.id, none) :=
        ⟨fun heq => hx.distinct q _ hq hcallPlace heq, fun heq => heq ▸ rfl⟩
      calc TransGen (Leads g'.edges) (Place.id (call.id, some a)) q.id
          ↔ q.id = call.id ∨ TransGen (Leads g.edges) call.id q.id :=
            hs.reaches_out hx.sound he hmemG ha (hold hq)
        _ ↔ q = (call.id, none) ∨ Before edges below (call.id, none) q :=
            or_congr hsame (hx.order _ q hcallPlace hq)
        _ ↔ _ := (new_before_iff hnone hq a).symm
    · exact (hs.reaches_inner hx.sound he hmemG ha hb).trans
        (new_before_new_iff hsound.acyclic a b).symm

end

end DeviceShell.Studio
