import DeviceShell.Lib.DepthFirst
import DeviceShell.Studio.ExpansionPlaces

/-!
# The expansion as a whole

The passes of the loop one after the other. A finished expansion of a sound workflow over sound
versions is sound, has no call left, and is the workflow with every call replaced by the expansion of
the version it names, in the order of the places (`expandSubworkflows_expands`). Over a store with
finitely many versions the expansion finishes or raises, whatever versions call each other: the
recursion goes no deeper than there are versions, since each is refused while it is being expanded
(`expandSubworkflows_finishes`).
-/

namespace DeviceShell.Studio

open Relation GraphSplice

variable {resolve : String → ℤ → Except PyError WorkflowVersion}

section

variable [PyLib]

/-- The version that a call names, expanded by `below`. -/
def CallsFor (resolve : String → ℤ → Except PyError WorkflowVersion)
    (below : WorkflowSource → Option (Except ExpandError WorkflowDraft)) (call : WorkflowNode)
    (expanded : WorkflowDraft) : Prop :=
  ∃ called child, calledBy call = .ok called ∧ resolve called.1 called.2 = .ok child ∧
    below child.source = some (.ok expanded)

/-- What the passes so far have replaced. -/
def Known (resolve : String → ℤ → Except PyError WorkflowVersion)
    (below : WorkflowSource → Option (Except ExpandError WorkflowDraft)) (nodes : List WorkflowNode)
    (replaced : String → Option WorkflowDraft) : Prop :=
  ∀ id expanded, replaced id = some expanded →
    ∃ call ∈ nodes, call.id = id ∧ call.IsCall ∧ CallsFor resolve below call expanded

omit [PyLib] in
theorem resolveChild_ok {stack : List (String × ℤ)} {called : String × ℤ} {child : WorkflowVersion}
    (h : resolveChild resolve stack called = .ok child) :
    resolve called.1 called.2 = .ok child ∧ called ∉ stack := by
  unfold resolveChild at h
  dsimp only at h
  split at h
  · cases h
  · cases h
  · cases h
  · cases h
  · next hresolve =>
    split at h
    · cases h
    · next hnew =>
      obtain rfl := Except.ok.inj h
      exact ⟨hresolve, hnew⟩

theorem known_nothing {below : WorkflowSource → Option (Except ExpandError WorkflowDraft)}
    {nodes : List WorkflowNode} : Known resolve below nodes fun _ => none := by
  intro id expanded hid
  cases hid

/-- A pass that comes to something is a splice of the version that the call names. -/
theorem expandCall_ok {below : WorkflowSource → Option (Except ExpandError WorkflowDraft)}
    {stack : List (String × ℤ)} {g g' : StudioGraph} {call : WorkflowNode}
    (h : expandCall resolve below stack g call = some (.ok g')) :
    ∃ expanded, CallsFor resolve below call expanded ∧ ∃ childNodes childEdges aggregate,
      Spliceable g call expanded childNodes childEdges aggregate g' := by
  unfold expandCall at h
  split at h
  · cases h
  · next called hcalled =>
    split at h
    · cases h
    · next child hchild =>
      split at h
      · cases h
      · cases h
      · next expanded hexpanded =>
        exact ⟨expanded, ⟨called, child, hcalled, (resolveChild_ok hchild).1, hexpanded⟩,
          spliceChild_ok (Option.some.inj h)⟩

/-! ## The loop -/

section

variable {below : WorkflowSource → Option (Except ExpandError WorkflowDraft)}
  {stack : List (String × ℤ)} {nodes : List WorkflowNode} {edges : List WorkflowEdge}
  {g g' : StudioGraph} {passes : ℕ}

theorem expandCalls_of_none
    (h : g.nodes.find? (fun node => node.actionId = "workflow.call") = none) :
    expandCalls resolve below stack passes g = some (.ok g) := by
  unfold expandCalls
  rw [h]

theorem expandCalls_zero {call : WorkflowNode}
    (h : g.nodes.find? (fun node => node.actionId = "workflow.call") = some call) :
    expandCalls resolve below stack 0 g = none := by
  unfold expandCalls
  rw [h]

theorem expandCalls_unfinished {call : WorkflowNode}
    (h : g.nodes.find? (fun node => node.actionId = "workflow.call") = some call)
    (hpass : expandCall resolve below stack g call = none) :
    expandCalls resolve below stack (passes + 1) g = none := by
  conv_lhs => unfold expandCalls
  simp only [h, hpass]

theorem expandCalls_failed {call : WorkflowNode} {e : ExpandError}
    (h : g.nodes.find? (fun node => node.actionId = "workflow.call") = some call)
    (hpass : expandCall resolve below stack g call = some (.error e)) :
    expandCalls resolve below stack (passes + 1) g = some (.error e) := by
  conv_lhs => unfold expandCalls
  simp only [h, hpass]

theorem expandCalls_passed {call : WorkflowNode} {mid : StudioGraph}
    (h : g.nodes.find? (fun node => node.actionId = "workflow.call") = some call)
    (hpass : expandCall resolve below stack g call = some (.ok mid)) :
    expandCalls resolve below stack (passes + 1) g = expandCalls resolve below stack passes mid := by
  conv_lhs => unfold expandCalls
  simp only [h, hpass]

omit [PyLib] in
theorem not_isCall_of_find? (h : g.nodes.find? (fun node => node.actionId = "workflow.call") = none) :
    ∀ node ∈ g.nodes, ¬ node.IsCall := by
  intro node hnode hcall
  have hnot := List.find?_eq_none.1 h node hnode
  exact hnot (decide_eq_true hcall)

/-- A step of a run of the loop that finishes. -/
theorem expandCalls_ok (h : expandCalls resolve below stack passes g = some (.ok g')) :
    (g' = g ∧ ∀ node ∈ g.nodes, ¬ node.IsCall) ∨
      ∃ call mid passes', passes = passes' + 1 ∧
        g.nodes.find? (fun node => node.actionId = "workflow.call") = some call ∧
        expandCall resolve below stack g call = some (.ok mid) ∧
        expandCalls resolve below stack passes' mid = some (.ok g') := by
  cases hfind : g.nodes.find? (fun node => node.actionId = "workflow.call") with
  | none =>
    rw [expandCalls_of_none hfind] at h
    exact .inl ⟨(Except.ok.inj (Option.some.inj h)).symm, not_isCall_of_find? hfind⟩
  | some call => cases passes with
    | zero =>
      rw [expandCalls_zero hfind] at h
      cases h
    | succ passes =>
      cases hpass : expandCall resolve below stack g call with
      | none =>
        rw [expandCalls_unfinished hfind hpass] at h
        cases h
      | some result =>
        cases result with
        | error e =>
          rw [expandCalls_failed hfind hpass] at h
          cases h
        | ok mid =>
          rw [expandCalls_passed hfind hpass] at h
          exact .inr ⟨call, mid, passes, rfl, rfl, hpass, h⟩

/-- What the loop comes to when it finishes. -/
theorem expandCalls_expands (hsound : Sound nodes edges)
    (hbelow : ∀ call expanded, CallsFor resolve below call expanded →
      Sound expanded.nodes expanded.edges ∧ ∀ node ∈ expanded.nodes, ¬ node.IsCall)
    {replaced : String → Option WorkflowDraft} (hx : Expands nodes edges replaced g)
    (hknown : Known resolve below nodes replaced)
    (h : expandCalls resolve below stack passes g = some (.ok g')) :
    ∃ replaced', Expands nodes edges replaced' g' ∧ Known resolve below nodes replaced' ∧
      ∀ node ∈ g'.nodes, ¬ node.IsCall := by
  induction passes generalizing g replaced with
  | zero =>
    obtain ⟨rfl, hnone⟩ | ⟨_, _, _, hpasses, -⟩ := expandCalls_ok h
    · exact ⟨replaced, hx, hknown, hnone⟩
    · exact absurd hpasses (Nat.succ_ne_zero _).symm
  | succ passes ih =>
    obtain ⟨rfl, hnone⟩ | ⟨call, mid, passes', hpasses, hfind, hmid, hrest⟩ := expandCalls_ok h
    · exact ⟨replaced, hx, hknown, hnone⟩
    · obtain rfl := Nat.succ.inj hpasses
      have hreplaced : Replaced replaced := by
        intro id expanded hid
        obtain ⟨_, -, -, -, hfor⟩ := hknown id expanded hid
        exact hbelow _ expanded hfor
      obtain ⟨_, _, -, hcall, -⟩ := replaceCall_of_find? hfind
      obtain ⟨expanded, hfor, childNodes, childEdges, aggregate, hs⟩ := expandCall_ok hmid
      obtain ⟨hmem, hnone⟩ := hx.call_mem hreplaced (List.mem_of_find?_eq_some hfind) hcall
      have hpass := hx.pass hreplaced hsound (hbelow call expanded hfor).1 hs hfind
      refine ih hpass ?_ hrest
      intro id e hid
      by_cases heq : id = call.id
      · subst heq
        rw [Function.update_self] at hid
        obtain rfl := Option.some.inj hid
        exact ⟨call, hmem, rfl, hcall, hfor⟩
      · rw [Function.update_of_ne heq] at hid
        exact hknown id e hid

/-- A loop that finishes leaves no call. -/
theorem not_isCall_of_expandCalls (h : expandCalls resolve below stack passes g = some (.ok g')) :
    ∀ node ∈ g'.nodes, ¬ node.IsCall := by
  induction passes generalizing g with
  | zero =>
    obtain ⟨rfl, hnone⟩ | ⟨_, _, _, hpasses, -⟩ := expandCalls_ok h
    · exact hnone
    · exact absurd hpasses (Nat.succ_ne_zero _).symm
  | succ passes ih =>
    obtain ⟨rfl, hnone⟩ | ⟨call, mid, passes', hpasses, hfind, hmid, hrest⟩ := expandCalls_ok h
    · exact hnone
    · obtain rfl := Nat.succ.inj hpasses
      exact ih hrest

end

/-! ## The recursion -/

/-- What one level of an expansion that finishes has done. -/
theorem expandSubworkflows_ok {depth : ℕ} {stack : List (String × ℤ)} {source : WorkflowSource}
    {draft : WorkflowDraft}
    (h : expandSubworkflows resolve (depth + 1) stack source = some (.ok draft)) :
    expandCalls resolve (expandSubworkflows resolve depth (stack ++ source.identity.toList))
      (stack ++ source.identity.toList) source.nodes.length ⟨source.nodes, source.edges⟩ =
      some (.ok ⟨draft.nodes, draft.edges⟩) := by
  unfold expandSubworkflows at h
  split at h
  · cases h
  · dsimp only at h
    split at h
    · cases h
    · cases h
    · next g hg =>
      obtain rfl := Except.ok.inj (Option.some.inj h)
      exact hg

theorem not_isCall_of_expandSubworkflows {depth : ℕ} {stack : List (String × ℤ)}
    {source : WorkflowSource} {draft : WorkflowDraft}
    (h : expandSubworkflows resolve depth stack source = some (.ok draft)) :
    ∀ node ∈ draft.nodes, ¬ node.IsCall := by
  cases depth with
  | zero => cases h
  | succ depth => exact not_isCall_of_expandCalls (expandSubworkflows_ok h)

section

variable (hresolve : ∀ id version child, resolve id version = .ok child →
  Sound child.nodes child.edges)

include hresolve

/-- A finished expansion of a sound workflow is sound. -/
theorem sound_of_expandSubworkflows {depth : ℕ} {stack : List (String × ℤ)} {source : WorkflowSource}
    {draft : WorkflowDraft} (hsource : Sound source.nodes source.edges)
    (h : expandSubworkflows resolve depth stack source = some (.ok draft)) :
    Sound draft.nodes draft.edges := by
  induction depth generalizing stack source draft with
  | zero => cases h
  | succ depth ih =>
    have hbelow : ∀ call expanded,
        CallsFor resolve (expandSubworkflows resolve depth (stack ++ source.identity.toList)) call
          expanded → Sound expanded.nodes expanded.edges ∧ ∀ node ∈ expanded.nodes, ¬ node.IsCall := by
      rintro call expanded ⟨called, child, -, hchild, hexpanded⟩
      exact ⟨ih (hresolve _ _ _ hchild) hexpanded, not_isCall_of_expandSubworkflows hexpanded⟩
    obtain ⟨_, hx, -, -⟩ := expandCalls_expands hsource hbelow (expands_start hsource)
      known_nothing (expandSubworkflows_ok h)
    exact hx.sound

/-- A finished expansion is the workflow with every call replaced by the expansion of the version it
names, in the order of the places. -/
theorem expandSubworkflows_expands {depth : ℕ} {stack : List (String × ℤ)} {source : WorkflowSource}
    {draft : WorkflowDraft} (hsource : Sound source.nodes source.edges)
    (h : expandSubworkflows resolve (depth + 1) stack source = some (.ok draft)) :
    ∃ versions, Expands source.nodes source.edges versions ⟨draft.nodes, draft.edges⟩ ∧
      (∀ node ∈ draft.nodes, ¬ node.IsCall) ∧
      ∀ node ∈ source.nodes, (versions node.id = none ↔ ¬ node.IsCall) ∧
        ∀ expanded, versions node.id = some expanded →
          CallsFor resolve (expandSubworkflows resolve depth (stack ++ source.identity.toList)) node
            expanded := by
  have hbelow : ∀ call expanded,
      CallsFor resolve (expandSubworkflows resolve depth (stack ++ source.identity.toList)) call
        expanded → Sound expanded.nodes expanded.edges ∧ ∀ node ∈ expanded.nodes, ¬ node.IsCall := by
    rintro call expanded ⟨called, child, -, hchild, hexpanded⟩
    exact ⟨sound_of_expandSubworkflows hresolve (hresolve _ _ _ hchild) hexpanded,
      not_isCall_of_expandSubworkflows hexpanded⟩
  obtain ⟨versions, hx, hknown, hnone⟩ := expandCalls_expands hsource hbelow (expands_start hsource)
    known_nothing (expandSubworkflows_ok h)
  refine ⟨versions, hx, hnone, fun node hnode => ?_⟩
  -- A call that is known by the id of a node is that node.
  have hsame : ∀ {expanded}, versions node.id = some expanded → node.IsCall ∧
      CallsFor resolve (expandSubworkflows resolve depth (stack ++ source.identity.toList)) node
        expanded := by
    intro expanded hid
    obtain ⟨call, hmem, heq, hcall, hfor⟩ := hknown node.id expanded hid
    obtain rfl : call = node := List.inj_on_of_nodup_map hsource.nodup hmem hnode heq
    exact ⟨hcall, hfor⟩
  refine ⟨⟨fun hid => hnone node (hx.kept node hnode hid), fun hcall => ?_⟩, fun e he => (hsame he).2⟩
  cases hid : versions node.id with
  | none => rfl
  | some e => exact absurd (hsame hid).1 hcall

end

end

/-- A version with a node of its own. -/
def leafVersion : WorkflowVersion where
  workflowId := "leaf"
  version := .int 1
  name := "Leaf"
  nodes := [{ id := "value", actionId := "variable.set" }]

/-- A version that calls another one, itself or none. -/
def callingVersion (id called : String) : WorkflowVersion where
  workflowId := id
  version := .int 1
  name := id
  nodes := [{ id := "call", actionId := "workflow.call",
              config := ⟨[("workflow_id", .str called), ("version", .int 1)]⟩ },
            { id := "save", actionId := "result.save" }]
  edges := [{ source := "call", target := "save" }]

/-- A store with a version that calls another one, which calls a third. -/
def nestedVersions (id : String) (version : ℤ) : Except PyError WorkflowVersion :=
  if id = "leaf" ∧ version = 1 then .ok leafVersion
  else if id = "middle" ∧ version = 1 then .ok (callingVersion "middle" "leaf")
  else .error (.keyError id)

theorem sound_leafVersion : Sound leafVersion.nodes leafVersion.edges where
  nodup := by decide
  ends := fun e he => absurd he List.not_mem_nil
  acyclic := by
    intro x hx
    obtain ⟨_, ⟨e, he, -⟩, -⟩ := TransGen.head'_iff.1 hx
    exact absurd he List.not_mem_nil

theorem sound_callingVersion (id called : String) :
    Sound (callingVersion id called).nodes (callingVersion id called).edges where
  nodup := by
    have hids : idsOf (callingVersion id called).nodes = ["call", "save"] := rfl
    rw [hids]
    decide
  ends := by
    intro e he
    obtain rfl := List.mem_singleton.1 he
    exact ⟨List.mem_cons_self, List.mem_cons_of_mem _ List.mem_cons_self⟩
  acyclic := by
    have hedge : ∀ {a b}, Leads (callingVersion id called).edges a b → a = "call" ∧ b = "save" := by
      rintro a b ⟨e, he, rfl, rfl⟩
      obtain rfl := List.mem_singleton.1 he
      exact ⟨rfl, rfl⟩
    intro x hx
    obtain ⟨_, hfirst, -⟩ := TransGen.head'_iff.1 hx
    obtain ⟨_, -, hlast⟩ := TransGen.tail'_iff.1 hx
    exact absurd ((hedge hfirst).1.symm.trans (hedge hlast).2) (by decide)

theorem sound_nestedVersions (id : String) (version : ℤ) (child : WorkflowVersion)
    (h : nestedVersions id version = .ok child) : Sound child.nodes child.edges := by
  unfold nestedVersions at h
  split_ifs at h
  · obtain rfl := Except.ok.inj h
    exact sound_leafVersion
  · obtain rfl := Except.ok.inj h
    exact sound_callingVersion _ _

theorem expandSubworkflows_expands_nested :
    let _ := PyLib.atEpoch
    let source := (callingVersion "parent" "middle").source
    ∃ draft, expandSubworkflows nestedVersions 3 [] source = some (.ok draft) ∧
      idsOf draft.nodes = ["call__call__value", "call__call", "call__save", "call", "save"] ∧
      ∃ versions, Expands source.nodes source.edges versions ⟨draft.nodes, draft.edges⟩ := by
  intro _ source
  have hids : ((expandSubworkflows nestedVersions 3 [] source).bind Except.toOption).map
      (fun draft => idsOf draft.nodes) =
      some ["call__call__value", "call__call", "call__save", "call", "save"] := by decide +kernel
  obtain ⟨draft, hdraft, hnodes⟩ := Option.map_eq_some_iff.1 hids
  obtain ⟨result, hresult, hok⟩ := Option.bind_eq_some_iff.1 hdraft
  cases result with
  | error e => cases hok
  | ok draft' =>
    obtain rfl := Option.some.inj hok
    obtain ⟨versions, hx, -⟩ :=
      expandSubworkflows_expands sound_nestedVersions (sound_callingVersion "parent" "middle") hresult
    exact ⟨draft', hresult, hnodes, versions, hx⟩

/-! ## The end of an expansion -/

section

variable [PyLib]

/-- Every version is stored under its own id and number, and there are only these. -/
structure Stored (resolve : String → ℤ → Except PyError WorkflowVersion)
    (keys : List (String × ℤ)) : Prop where
  mem : ∀ id version child, resolve id version = .ok child → (id, version) ∈ keys
  workflowId : ∀ id version child, resolve id version = .ok child → child.workflowId = id
  version : ∀ id version child, resolve id version = .ok child →
    child.version = .int version ∧ 0 ≤ version

theorem Stored.identity {keys : List (String × ℤ)} (h : Stored resolve keys) {called : String × ℤ}
    {child : WorkflowVersion} (hchild : resolve called.1 called.2 = .ok child) :
    child.source.identity = some called := by
  obtain ⟨hversion, hpos⟩ := h.version _ _ _ hchild
  have hid := h.workflowId _ _ _ hchild
  simp [WorkflowSource.identity, WorkflowVersion.source, hversion, hpos, hid]

section

variable {below below' : WorkflowSource → Option (Except ExpandError WorkflowDraft)}
  {stack : List (String × ℤ)} {g : StudioGraph} {call : WorkflowNode}

/-- A pass comes to something where the called version does. -/
theorem expandCall_isSome
    (h : ∀ called child, calledBy call = .ok called → resolveChild resolve stack called = .ok child →
      (below child.source).isSome) : (expandCall resolve below stack g call).isSome := by
  unfold expandCall
  split
  · rfl
  · next called hcalled =>
    split
    · rfl
    · next child hchild =>
      have hsome := h called child hcalled hchild
      split
      · next hnone => exact absurd hsome (by simp [hnone])
      · rfl
      · rfl

/-- A pass comes to the same with more depth below. -/
theorem expandCall_mono (hbelow : ∀ source result, below source = some result →
    below' source = some result) {result : Except ExpandError StudioGraph}
    (h : expandCall resolve below stack g call = some result) :
    expandCall resolve below' stack g call = some result := by
  unfold expandCall at h ⊢
  split at h
  · exact h
  · split at h
    · exact h
    · split at h
      · cases h
      · next hexpanded =>
        rw [hbelow _ _ hexpanded]
        exact h
      · next hexpanded =>
        rw [hbelow _ _ hexpanded]
        exact h

/-- The number of calls that are left. -/
def callCount (g : StudioGraph) : ℕ := g.nodes.countP fun node => node.actionId = "workflow.call"

omit [PyLib] in
/-- A pass leaves one call less. -/
theorem callCount_pass {expanded : WorkflowDraft} {childNodes : List WorkflowNode}
    {childEdges : List WorkflowEdge} {aggregate : WorkflowNode} {g' : StudioGraph}
    (hs : Spliceable g call expanded childNodes childEdges aggregate g')
    (hexpanded : ∀ node ∈ expanded.nodes, ¬ node.IsCall)
    (hfind : g.nodes.find? (fun node => node.actionId = "workflow.call") = some call) :
    callCount g = callCount g' + 1 := by
  obtain ⟨before, after, hsplit, hcall, hreplace⟩ := replaceCall_of_find? hfind
  have hchild : childNodes.countP (fun node => node.actionId = "workflow.call") = 0 := by
    refine List.countP_eq_zero.2 fun node hnode hisCall => ?_
    have hmem : (node.id, node.actionId) ∈
        expanded.nodes.map fun node => (frontOf call ++ node.id, node.actionId) := by
      rw [← hs.nodes]
      exact List.mem_map_of_mem (f := fun node : WorkflowNode => (node.id, node.actionId)) hnode
    obtain ⟨inner, hinner, heq⟩ := List.mem_map.1 hmem
    exact hexpanded inner hinner ((Prod.mk.inj heq).2.trans (of_decide_eq_true hisCall))
  have haggregate : aggregate.actionId ≠ "workflow.call" := by
    rw [hs.collected.2]
    decide
  have hcall' : call.actionId = "workflow.call" := hcall
  unfold callCount
  rw [hs.result, hreplace, hsplit]
  simp only [List.countP_append, List.countP_cons, List.countP_nil, hchild, hcall', haggregate,
    decide_true, decide_false, if_true, Bool.false_eq_true, if_false]
  omega

/-- As many passes as there are calls are enough. -/
theorem expandCalls_isSome {passes : ℕ}
    (hbelow : ∀ child : WorkflowVersion, ∀ called, resolveChild resolve stack called = .ok child →
      (below child.source).isSome)
    (hnone : ∀ source expanded, below source = some (.ok expanded) →
      ∀ node ∈ expanded.nodes, ¬ node.IsCall) (hpasses : callCount g ≤ passes) :
    (expandCalls resolve below stack passes g).isSome := by
  induction passes generalizing g with
  | zero =>
    cases hfind : g.nodes.find? (fun node => node.actionId = "workflow.call") with
    | none =>
      rw [expandCalls_of_none hfind]
      rfl
    | some call =>
      obtain ⟨_, _, -, hcall, -⟩ := replaceCall_of_find? hfind
      have hpos : 0 < callCount g := List.countP_pos_iff.2
        ⟨call, List.mem_of_find?_eq_some hfind, decide_eq_true hcall⟩
      omega
  | succ passes ih =>
    cases hfind : g.nodes.find? (fun node => node.actionId = "workflow.call") with
    | none =>
      rw [expandCalls_of_none hfind]
      rfl
    | some call =>
      have hsome : (expandCall resolve below stack g call).isSome :=
        expandCall_isSome fun called child _ hchild => hbelow child called hchild
      obtain ⟨result, hresult⟩ := Option.isSome_iff_exists.1 hsome
      cases result with
      | error e =>
        rw [expandCalls_failed hfind hresult]
        rfl
      | ok mid =>
        rw [expandCalls_passed hfind hresult]
        obtain ⟨expanded, ⟨_, _, -, -, hexpanded⟩, _, _, _, hs⟩ := expandCall_ok hresult
        have hless := callCount_pass hs (hnone _ _ hexpanded) hfind
        exact ih (by omega)

/-- The loop comes to the same with more depth below. -/
theorem expandCalls_mono (hbelow : ∀ source result, below source = some result →
    below' source = some result) {passes : ℕ} {result : Except ExpandError StudioGraph}
    (h : expandCalls resolve below stack passes g = some result) :
    expandCalls resolve below' stack passes g = some result := by
  induction passes generalizing g with
  | zero =>
    cases hfind : g.nodes.find? (fun node => node.actionId = "workflow.call") with
    | none =>
      rw [expandCalls_of_none hfind] at h ⊢
      exact h
    | some call =>
      rw [expandCalls_zero hfind] at h
      cases h
  | succ passes ih =>
    cases hfind : g.nodes.find? (fun node => node.actionId = "workflow.call") with
    | none =>
      rw [expandCalls_of_none hfind] at h ⊢
      exact h
    | some call =>
      cases hpass : expandCall resolve below stack g call with
      | none =>
        rw [expandCalls_unfinished hfind hpass] at h
        cases h
      | some pass =>
        have hmono := expandCall_mono hbelow hpass
        cases pass with
        | error e =>
          rw [expandCalls_failed hfind hpass] at h
          rw [expandCalls_failed hfind hmono]
          exact h
        | ok mid =>
          rw [expandCalls_passed hfind hpass] at h
          rw [expandCalls_passed hfind hmono]
          exact ih h

end

/-- More depth changes nothing. -/
theorem expandSubworkflows_mono {depth : ℕ} {stack : List (String × ℤ)} {source : WorkflowSource}
    {result : Except ExpandError WorkflowDraft}
    (h : expandSubworkflows resolve depth stack source = some result) :
    expandSubworkflows resolve (depth + 1) stack source = some result := by
  induction depth generalizing stack source result with
  | zero => cases h
  | succ depth ih =>
    unfold expandSubworkflows at h ⊢
    split
    · next hin =>
      rw [if_pos hin] at h
      exact h
    · next hin =>
      rw [if_neg hin] at h
      dsimp only at h ⊢
      split at h
      · cases h
      · next hloop =>
        rw [expandCalls_mono (fun _ _ => ih) hloop]
        exact h
      · next hloop =>
        rw [expandCalls_mono (fun _ _ => ih) hloop]
        exact h

/-- The recursion goes no deeper than there are versions that are not being expanded. -/
theorem expandSubworkflows_isSome {keys : List (String × ℤ)} (hstored : Stored resolve keys)
    {depth : ℕ} {stack : List (String × ℤ)} {source : WorkflowSource}
    (hdepth : (KeyedGraph.unseen keys (stack ++ source.identity.toList)).length < depth) :
    (expandSubworkflows resolve depth stack source).isSome := by
  induction depth generalizing stack source with
  | zero => omega
  | succ depth ih =>
    unfold expandSubworkflows
    split
    · rfl
    · dsimp only
      have hloop : (expandCalls resolve
          (expandSubworkflows resolve depth (stack ++ source.identity.toList))
          (stack ++ source.identity.toList) source.nodes.length ⟨source.nodes, source.edges⟩).isSome := by
        refine expandCalls_isSome ?_ (fun _ _ h => not_isCall_of_expandSubworkflows h)
          List.countP_le_length
        intro child called hchild
        obtain ⟨hresolved, hnew⟩ := resolveChild_ok hchild
        have hmem : called ∈ keys := hstored.mem _ _ _ hresolved
        have hless := KeyedGraph.length_unseen_lt hmem hnew
        refine ih ?_
        rw [hstored.identity hresolved, Option.toList_some]
        omega
      obtain ⟨result, hresult⟩ := Option.isSome_iff_exists.1 hloop
      rw [hresult]
      cases result with
      | error e => rfl
      | ok g => rfl

/-- Over a store with finitely many versions an expansion comes to a result, the same for every depth
above the number of versions. -/
theorem expandSubworkflows_finishes {keys : List (String × ℤ)} (hstored : Stored resolve keys)
    (source : WorkflowSource) :
    ∃ result, ∀ depth, keys.length < depth →
      expandSubworkflows resolve depth [] source = some result := by
  have hsome : (expandSubworkflows resolve (keys.length + 1) [] source).isSome := by
    refine expandSubworkflows_isSome hstored ?_
    have hle : (KeyedGraph.unseen keys ([] ++ source.identity.toList)).length ≤ keys.length :=
      List.length_filter_le _ _
    omega
  obtain ⟨result, hresult⟩ := Option.isSome_iff_exists.1 hsome
  refine ⟨result, fun depth hdepth => ?_⟩
  induction depth, hdepth using Nat.le_induction with
  | base => exact hresult
  | succ depth _ ih => exact expandSubworkflows_mono ih

end

/-- A store with two versions that call each other. -/
def mutualVersions (id : String) (version : ℤ) : Except PyError WorkflowVersion :=
  if id = "ping" ∧ version = 1 then .ok (callingVersion "ping" "pong")
  else if id = "pong" ∧ version = 1 then .ok (callingVersion "pong" "ping")
  else .error (.keyError id)

theorem expandSubworkflows_finishes_mutual :
    let _ := PyLib.atEpoch
    ∃ result, ∀ depth, 2 < depth →
      expandSubworkflows mutualVersions depth [] (callingVersion "ping" "pong").source =
        some result := by
  intro _
  have hversions : ∀ id version child, mutualVersions id version = .ok child →
      (id, version) ∈ [("ping", 1), ("pong", 1)] ∧ child.workflowId = id ∧
        child.version = .int version ∧ 0 ≤ version := by
    intro id version child h
    unfold mutualVersions at h
    split_ifs at h with hping hpong
    · obtain rfl := Except.ok.inj h
      obtain ⟨rfl, rfl⟩ := hping
      exact ⟨by decide, rfl, rfl, by decide⟩
    · obtain rfl := Except.ok.inj h
      obtain ⟨rfl, rfl⟩ := hpong
      exact ⟨by decide, rfl, rfl, by decide⟩
  have hstored : Stored mutualVersions [("ping", 1), ("pong", 1)] :=
    ⟨fun id version child h => (hversions id version child h).1,
      fun id version child h => (hversions id version child h).2.1,
      fun id version child h => (hversions id version child h).2.2⟩
  exact expandSubworkflows_finishes hstored _

end DeviceShell.Studio
