import DeviceShell.Framework.OrchestratorMachine

/-!
# Contracts between the coroutines of the orchestrator

A `Contract` says what the coroutines of a call of `execute` may write, what they may rely on while
they are suspended, and what a member of a batch hands over with its result. Where a contract is
sound, each coroutine is verified on its own with the rules of `Co.Holds`; the theorems below turn
that into an invariant of the whole machine, `KeptAll`, whatever the order of its steps.
-/

namespace DeviceShell.Framework

/-- The nodes of the batch that is awaited. -/
def Wait.batch : Wait → List WorkflowNode
  | .gather _ batch _ => batch
  | _ => []

/-- Whether a gather is awaited. -/
def Wait.isGather : Wait → Bool
  | .gather _ _ _ => true
  | _ => false

/-- A contract. -/
structure Contract (ρ : Type) where
  /-- Holds of the scope of a call of `execute` whenever one of its coroutines is suspended. -/
  inv : Scope ρ → Prop
  /-- What others than the coroutines of the call do to the world. -/
  rely : Frame → World ρ → World ρ → Prop
  /-- The condition under which the coroutine of the call is resumed. -/
  mainOk : (w : Wait) → w.Reply → Scope ρ → Prop
  /-- The condition under which the member of a node is resumed. -/
  memberOk : WorkflowNode → (w : Wait) → w.Reply → Scope ρ → Prop
  /-- What the coroutine of the call may write. -/
  main : Scope ρ → Scope ρ → Prop
  /-- What the member of a node may write. -/
  member : WorkflowNode → Scope ρ → Scope ρ → Prop
  /-- What the result of the member of a node comes with. -/
  post : WorkflowNode → BatchResult → Scope ρ → Prop
  /-- Whether members may go on after one of them raised. -/
  orphans : Prop
  /-- What holds of the frames of two calls that are in flight. -/
  apart : Frame → Frame → Prop

namespace Contract

variable {ρ : Type} (c : Contract ρ)

/-- What happens to the scope of a suspended coroutine in one step: the world is changed by others,
a member that satisfies `p` writes or, where that is possible, the coroutine of the call does. -/
def Other (p : WorkflowNode → Prop) (main : Prop) (s s' : Scope ρ) : Prop :=
  (s'.frame = s.frame ∧ c.rely s.frame s.world s'.world) ∨ (∃ m, p m ∧ c.member m s s') ∨
    (main ∧ c.main s s')

/-- What happens to the scope of a suspended coroutine. -/
def Later (p : WorkflowNode → Prop) (main : Prop) : Scope ρ → Scope ρ → Prop :=
  Relation.ReflTransGen (c.Other p main)

theorem later_of {R : Scope ρ → Scope ρ → Prop} {p : WorkflowNode → Prop} {main : Prop}
    (h : ∀ a b, R a b → c.Other p main a b) {s s' : Scope ρ} (hs : Relation.ReflTransGen R s s') :
    c.Later p main s s' := by
  induction hs with
  | refl => exact .refl
  | tail _ hstep ih => exact ih.tail (h _ _ hstep)

/-- What a reply says about the scope in which it comes. -/
def Answers (s : Scope ρ) : (w : Wait) → w.Reply → Prop
  | .child id, r => ∀ run, r = .ok run →
      s.world.runtime.runs.get? id = some run ∧ run.status.active = false
  | .gather _ batch _, r => ∀ results, r = .ok results →
      List.Forall₂ (fun node result => c.post node result s) batch results
  | .sleep, _ => True
  | .scheduled, _ => True

/-- Every resumption of the member of a node satisfies `P`. -/
def memberWaits (node : WorkflowNode) (w : Wait) (P : w.Reply → Scope ρ → Prop) (s : Scope ρ) :
    Prop :=
  c.inv s ∧ w.isGather = false ∧
    ∀ s', c.Later (fun m => m.id ≠ node.id) (w ≠ .scheduled ∧ c.orphans) s s' → c.inv s' →
      ∀ r, c.Answers s' w r → c.memberOk node w r s' → P r s'

/-- What the contract asks of the coroutine of a member. -/
def MemberHolds (node : WorkflowNode) (m : Exec ρ BatchResult) (s : Scope ρ) : Prop :=
  Co.Holds (c.member node) (c.memberWaits node) (fun r s => c.post node r s ∧ c.inv s)
    (fun _ s => c.inv s) m s

/-- Every resumption of the coroutine of a call satisfies `P`. -/
def mainRests (w : Wait) (P : w.Reply → Scope ρ → Prop) (s : Scope ρ) : Prop :=
  ∀ s', c.Later (· ∈ w.batch) False s s' → c.inv s' →
    ∀ r, c.Answers s' w r → c.mainOk w r s' → P r s'

/-- A suspended member stays suspended while others step. -/
theorem memberWaits_later {node : WorkflowNode} {w : Wait} {P : w.Reply → Scope ρ → Prop}
    {s s' : Scope ρ} (h : c.memberWaits node w P s)
    (hl : c.Later (fun m => m.id ≠ node.id) (w ≠ .scheduled ∧ c.orphans) s s') (hi : c.inv s') :
    c.memberWaits node w P s' :=
  ⟨hi, h.2.1, fun s'' hl' hi' => h.2.2 s'' (hl.trans hl') hi'⟩

theorem mainRests_later {w : Wait} {P : w.Reply → Scope ρ → Prop} {s s' : Scope ρ}
    (h : c.mainRests w P s) (hl : c.Later (· ∈ w.batch) False s s') : c.mainRests w P s' :=
  fun s'' hl' hi => h s'' (hl.trans hl') hi

section Holds

variable [PyLib] (o : Orchestrator ρ)

/-- The members of an awaited batch can be started. -/
def Starts (w : Wait) (s : Scope ρ) : Prop :=
  (w.batch.map (·.id)).Nodup ∧ ∀ task batch outputs, w = .gather task batch outputs →
    ∀ node ∈ batch, c.memberWaits node .scheduled
      (fun _ s => c.MemberHolds node (o.executeParallelNode task node outputs) s) s

/-- What the contract asks where the coroutine of a call is suspended. -/
def mainWaits (w : Wait) (P : w.Reply → Scope ρ → Prop) (s : Scope ρ) : Prop :=
  c.inv s ∧ c.Starts o w s ∧ c.mainRests w P s

/-- What the contract asks of the coroutine of a call. -/
def MainHolds (m : Exec ρ TaskRun) (s : Scope ρ) : Prop :=
  Co.Holds c.main (c.mainWaits o) (fun _ s => c.inv s) (fun _ s => c.inv s) m s

/-- What a contract must satisfy to be kept by the machine. -/
structure Sound : Prop where
  inv_rely : ∀ s w', c.inv s → c.rely s.frame s.world w' → c.inv ⟨w', s.frame⟩
  post_rely : ∀ n b s w', c.post n b s → c.rely s.frame s.world w' → c.post n b ⟨w', s.frame⟩
  post_member : ∀ m n b s s', m.id ≠ n.id → c.member m s s' → c.post n b s → c.post n b s'
  orphan : ∀ task batch outputs e s, c.mainOk (.gather task batch outputs) (.error e) s → c.orphans
  apart_symm : ∀ f f', c.apart f f' → c.apart f' f
  main_apart : ∀ s s' f, c.main s s' → c.apart s.frame f →
    c.apart s'.frame f ∧ c.rely f s.world s'.world
  member_apart : ∀ n s s' f, c.member n s s' → c.apart s.frame f →
    c.apart s'.frame f ∧ c.rely f s.world s'.world

/-- The members of a call of `execute` keep the contract. -/
structure MembersKept (w : World ρ) (e : Execution ρ) : Prop where
  distinct : (e.members.map (·.node.id)).Nodup
  waits : ∀ m ∈ e.members, ∀ wait k, m.state = .waiting wait k →
    c.memberWaits m.node wait (fun r s => c.MemberHolds m.node (k r) s) ⟨w, e.frame⟩

/-- A call of `execute` keeps the contract. -/
structure Kept (w : World ρ) (e : Execution ρ) : Prop extends c.MembersKept w e where
  inv : c.inv ⟨w, e.frame⟩
  rests : ∀ m, e.main = some m →
    c.mainRests m.wait (fun r s => c.MainHolds o (m.resume r) s) ⟨w, e.frame⟩
  /-- The members are those of the awaited batch. -/
  batch : ∀ m, e.main = some m → e.members.map (·.node) = m.wait.batch
  finished : ∀ m, e.main = some m → ∀ member ∈ e.members, ∀ result,
    member.state = .finished (.ok result) → c.post member.node result ⟨w, e.frame⟩

/-- All calls of `execute` keep the contract, and are apart from each other. -/
structure KeptAll (s : TaskState ρ) : Prop where
  kept : ∀ id e, s.executions.get? id = some e → c.Kept o s.world e
  apart : ∀ i j e f, s.executions.get? i = some e → s.executions.get? j = some f → i ≠ j →
    c.apart e.frame f.frame

/-- What a section of a coroutine did to the world. -/
inductive Moved (w w' : World ρ) : Prop where
  /-- No coroutine was resumed. -/
  | stayed (same : w' = w)
  | main (f f' : Frame) (writes : Relation.ReflTransGen c.main ⟨w, f⟩ ⟨w', f'⟩)
      (inv : c.inv ⟨w', f'⟩)
  | member (node : WorkflowNode) (f f' : Frame)
      (writes : Relation.ReflTransGen (c.member node) ⟨w, f⟩ ⟨w', f'⟩) (inv : c.inv ⟨w', f'⟩)

variable {c o}

/-- The world is changed by others. -/
theorem Kept.other (hc : c.Sound) {w w' : World ρ} {e : Execution ρ} (h : c.Kept o w e)
    (hw : c.rely e.frame w w') : c.Kept o w' e := by
  have hinv : c.inv ⟨w', e.frame⟩ := hc.inv_rely _ _ h.inv hw
  have hother : ∀ p main, c.Later p main ⟨w, e.frame⟩ ⟨w', e.frame⟩ := fun p main =>
    .single (.inl ⟨rfl, hw⟩)
  exact
    { distinct := h.distinct
      waits := fun m hm wait k hk => c.memberWaits_later (h.waits m hm wait k hk) (hother _ _) hinv
      inv := hinv
      rests := fun m hm => c.mainRests_later (h.rests m hm) (hother _ _)
      batch := h.batch
      finished := fun m hm member hmem result hr =>
        hc.post_rely _ _ _ _ (h.finished m hm member hmem result hr) hw }

/-- The writes of the coroutine of a call leave others apart from it, and are what they rely on. -/
theorem main_apart (hc : c.Sound) {s s' : Scope ρ} (h : Relation.ReflTransGen c.main s s')
    {e : Execution ρ} (ha : c.apart s.frame e.frame) (hk : c.Kept o s.world e) :
    c.apart s'.frame e.frame ∧ c.Kept o s'.world e := by
  induction h with
  | refl => exact ⟨ha, hk⟩
  | tail _ hstep ih =>
    obtain ⟨hapart, hrely⟩ := hc.main_apart _ _ _ hstep ih.1
    exact ⟨hapart, ih.2.other hc hrely⟩

theorem member_apart (hc : c.Sound) {node : WorkflowNode} {s s' : Scope ρ}
    (h : Relation.ReflTransGen (c.member node) s s') {e : Execution ρ}
    (ha : c.apart s.frame e.frame) (hk : c.Kept o s.world e) :
    c.apart s'.frame e.frame ∧ c.Kept o s'.world e := by
  induction h with
  | refl => exact ⟨ha, hk⟩
  | tail _ hstep ih =>
    obtain ⟨hapart, hrely⟩ := hc.member_apart _ _ _ _ hstep ih.1
    exact ⟨hapart, ih.2.other hc hrely⟩

/-- Every call but one keeps the contract, and is apart from a frame. -/
structure OthersKept (c : Contract ρ) (o : Orchestrator ρ) (executions : Dict ℕ (Execution ρ))
    (id : ℕ) (s : Scope ρ) : Prop where
  kept : ∀ j f, executions.get? j = some f → j ≠ id → c.Kept o s.world f ∧ c.apart s.frame f.frame
  apart : ∀ i j e f, executions.get? i = some e → executions.get? j = some f → i ≠ j → i ≠ id →
    j ≠ id → c.apart e.frame f.frame

theorem KeptAll.others {s : TaskState ρ} (h : c.KeptAll o s) {id : ℕ} {e : Execution ρ}
    (he : s.executions.get? id = some e) : OthersKept c o s.executions id ⟨s.world, e.frame⟩ where
  kept j f hj hne := ⟨h.kept j f hj, h.apart id j e f he hj hne.symm⟩
  apart i j e' f hi hj hne _ _ := h.apart i j e' f hi hj hne

/-- Storing a call that keeps the contract. -/
theorem OthersKept.keep (hc : c.Sound) {s : TaskState ρ} {id : ℕ} {w : World ρ} {e : Execution ρ}
    (h : OthersKept c o s.executions id ⟨w, e.frame⟩) (he : c.Kept o w e) :
    c.KeptAll o (Orchestrator.keep s id w e) := by
  have hget : ∀ j f, (Orchestrator.keep s id w e).executions.get? j = some f →
      (j = id ∧ f = e) ∨ (j ≠ id ∧ s.executions.get? j = some f) := by
    intro j f hj
    simp only [Orchestrator.keep] at hj
    split at hj
    · rw [Dict.get?_erase] at hj
      split at hj
      · cases hj
      · exact .inr ⟨‹_›, hj⟩
    · rw [Dict.get?_set] at hj
      split at hj
      · exact .inl ⟨‹_›, (Option.some.inj hj).symm⟩
      · exact .inr ⟨‹_›, hj⟩
  constructor
  · intro j f hj
    rcases hget j f hj with ⟨-, rfl⟩ | ⟨hne, hj⟩
    · exact he
    · exact (h.kept j f hj hne).1
  · intro i j e' f hi hj hne
    rcases hget i e' hi with ⟨hi, he'⟩ | ⟨hine, hi⟩ <;>
      rcases hget j f hj with ⟨hj, hf⟩ | ⟨hjne, hj⟩
    · exact absurd (hi.trans hj.symm) hne
    · exact he' ▸ (h.kept j f hj hjne).2
    · exact hf ▸ hc.apart_symm _ _ (h.kept i e' hi hine).2
    · exact h.apart i j e' f hi hj hne hine hjne

/-- The members of a gather that has just been started. -/
theorem gathered_kept {w : Wait} {s : Scope ρ} (h : c.Starts o w s) {main : Suspended ρ TaskRun} :
    c.MembersKept s.world ⟨s.frame, some main, o.gathered w, none⟩ := by
  cases w with
  | gather task batch outputs =>
    constructor
    · simp only [Orchestrator.gathered, List.map_map]
      exact h.1
    · intro m hm wait k hk
      obtain ⟨node, hnode, rfl⟩ := List.mem_map.1 hm
      cases hk
      exact h.2 task batch outputs rfl node hnode
  | child _ | sleep | scheduled =>
    exact ⟨List.nodup_nil, fun m hm => absurd hm List.not_mem_nil⟩

theorem gathered_nodes (w : Wait) : (o.gathered w).map (·.node) = w.batch := by
  cases w with
  | gather task batch outputs =>
    simp only [Orchestrator.gathered, List.map_map, Wait.batch]
    exact List.map_id _
  | child _ | sleep | scheduled => rfl

theorem gathered_waiting {w : Wait} {m : Member ρ} (h : m ∈ o.gathered w)
    {result : Except PyError BatchResult} (hr : m.state = .finished result) : False := by
  cases w with
  | gather task batch outputs =>
    obtain ⟨node, -, rfl⟩ := List.mem_map.1 h
    cases hr
  | child _ | sleep | scheduled => exact absurd h List.not_mem_nil

/-- Running the coroutine of a call to its next suspension. -/
theorem runMain_kept (hc : c.Sound) {s : TaskState ρ} {id : ℕ} {e : Execution ρ}
    {m : Exec ρ TaskRun} (hothers : OthersKept c o s.executions id ⟨s.world, e.frame⟩)
    (hmembers : c.MembersKept s.world e)
    (horphans : ∀ member ∈ e.members, ∀ wait k, member.state = .waiting wait k →
      wait ≠ .scheduled ∧ c.orphans)
    (hm : c.MainHolds o m ⟨s.world, e.frame⟩) :
    c.KeptAll o (o.runMain s id e m) ∧ c.Moved s.world (o.runMain s id e m).world := by
  obtain ⟨hsteps, hstop⟩ := hm.section_
  unfold Orchestrator.runMain
  generalize m.section_ ⟨s.world, e.frame⟩ = result at hsteps hstop
  obtain ⟨s', stop⟩ := result
  have hkept : ∀ j f, s.executions.get? j = some f → j ≠ id →
      c.Kept o s'.world f ∧ c.apart s'.frame f.frame := by
    intro j f hj hne
    obtain ⟨hk, ha⟩ := hothers.kept j f hj hne
    obtain ⟨ha', hk'⟩ := main_apart hc hsteps ha hk
    exact ⟨hk', ha'⟩
  have hothers' : ∀ e' : Execution ρ, e'.frame = s'.frame →
      OthersKept c o s.executions id ⟨s'.world, e'.frame⟩ := fun e' he' =>
    ⟨fun j f hj hne => he' ▸ hkept j f hj hne, hothers.apart⟩
  cases stop with
  | done result =>
    have hinv : c.inv s' := by
      cases result with
      | ok run => exact hstop
      | error error => exact hstop
    refine ⟨(hothers' _ rfl).keep hc ?_, .main _ _ hsteps hinv⟩
    refine ⟨⟨hmembers.distinct, fun member hmem wait k hk => ?_⟩, hinv, ?_, ?_, ?_⟩
    · -- Members that are still suspended are orphans, which what the coroutine wrote does not touch.
      obtain ⟨hsched, horph⟩ := horphans member hmem wait k hk
      have hlater : c.Later (fun n => n.id ≠ member.node.id) (wait ≠ .scheduled ∧ c.orphans)
          ⟨s.world, e.frame⟩ s' :=
        c.later_of (fun _ _ hab => .inr (.inr ⟨⟨hsched, horph⟩, hab⟩)) hsteps
      exact c.memberWaits_later (hmembers.waits member hmem wait k hk) hlater hinv
    · exact fun _ h => by cases h
    · exact fun _ h => by cases h
    · exact fun _ h => by cases h
  | await w k =>
    obtain ⟨hinv, hstarts, hrests⟩ := hstop
    refine ⟨(hothers' _ rfl).keep hc ?_, .main _ _ hsteps hinv⟩
    refine ⟨gathered_kept hstarts, hinv, ?_, ?_, ?_⟩
    · rintro _ ⟨rfl⟩
      exact hrests
    · rintro _ ⟨rfl⟩
      exact gathered_nodes w
    · exact fun _ _ member hmem result hr => (gathered_waiting hmem hr).elim

omit [PyLib] in
/-- The members other than the one at an index. -/
theorem mem_set_ne {l : List (Member ρ)} {index : ℕ} {m m' : Member ρ}
    (hnodup : (l.map (·.node.id)).Nodup) (hm : l[index]? = some m) {x : Member ρ}
    (hx : x ∈ l.set index m') : x = m' ∨ (x ∈ l ∧ x.node.id ≠ m.node.id) := by
  obtain ⟨hlt, hget⟩ := List.getElem?_eq_some_iff.1 hm
  obtain ⟨j, hj, rfl⟩ := List.mem_iff_getElem.1 hx
  rw [List.length_set] at hj
  rw [List.getElem_set]
  split
  · exact .inl rfl
  · rename_i hne
    refine .inr ⟨List.getElem_mem hj, fun heq => hne ?_⟩
    have hj' : j < (l.map (·.node.id)).length := by simpa using hj
    have hlt' : index < (l.map (·.node.id)).length := by simpa using hlt
    have hmap : (l.map (·.node.id))[j] = (l.map (·.node.id))[index] := by
      simp only [List.getElem_map, heq, hget]
    exact ((List.Nodup.getElem_inj_iff hnodup).1 hmap).symm

omit [PyLib] in
theorem map_node_set {l : List (Member ρ)} {index : ℕ} {m : Member ρ} (hm : l[index]? = some m)
    (state : MemberState ρ) : (l.set index ⟨m.node, state⟩).map (·.node) = l.map (·.node) := by
  obtain ⟨hlt, hget⟩ := List.getElem?_eq_some_iff.1 hm
  rw [List.map_set]
  refine List.ext_getElem (by simp) fun j _ _ => ?_
  rw [List.getElem_set]
  split
  · subst ‹index = j›
    simp [hget]
  · rfl

omit [PyLib] in
/-- A result keeps what it comes with while another member writes. -/
theorem post_siblings (hc : c.Sound) {m n : WorkflowNode} (hne : m.id ≠ n.id) {s s' : Scope ρ}
    (hsteps : Relation.ReflTransGen (c.member m) s s') {b : BatchResult} (h : c.post n b s) :
    c.post n b s' := by
  induction hsteps with
  | refl => exact h
  | tail _ hstep ih => exact hc.post_member _ _ _ _ _ hne hstep ih

/-- Running a member of a batch to its next suspension. -/
theorem runMember_kept (hc : c.Sound) {s : TaskState ρ} {id index : ℕ} {e : Execution ρ}
    {m : Member ρ} {co : Exec ρ BatchResult} (h : c.KeptAll o s)
    (he : s.executions.get? id = some e) (hm : e.members[index]? = some m)
    (hco : c.MemberHolds m.node co ⟨s.world, e.frame⟩) :
    c.KeptAll o (Orchestrator.runMember s id e index m.node co) ∧
      c.Moved s.world (Orchestrator.runMember s id e index m.node co).world := by
  have hothers := h.others he
  have hk := h.kept id e he
  obtain ⟨hsteps, hstop⟩ := hco.section_
  unfold Orchestrator.runMember
  generalize co.section_ ⟨s.world, e.frame⟩ = result at hsteps hstop
  obtain ⟨s', stop⟩ := result
  have hkept : ∀ j f, s.executions.get? j = some f → j ≠ id →
      c.Kept o s'.world f ∧ c.apart s'.frame f.frame := by
    intro j f hj hne
    obtain ⟨hk, ha⟩ := hothers.kept j f hj hne
    obtain ⟨ha', hk'⟩ := member_apart hc hsteps ha hk
    exact ⟨hk', ha'⟩
  have hothers' : ∀ e' : Execution ρ, e'.frame = s'.frame →
      OthersKept c o s.executions id ⟨s'.world, e'.frame⟩ := fun e' he' =>
    ⟨fun j f hj hne => he' ▸ hkept j f hj hne, hothers.apart⟩
  have hsibling : ∀ x : Member ρ, x.node.id ≠ m.node.id → ∀ main,
      c.Later (fun n => n.id ≠ x.node.id) main ⟨s.world, e.frame⟩ s' := fun x hne main =>
    c.later_of (fun _ _ hab => .inr (.inl ⟨m.node, hne.symm, hab⟩)) hsteps
  -- What holds after the section whatever the member's new state is.
  have hset : ∀ (state : MemberState ρ) (e' : Execution ρ), e'.frame = s'.frame →
      e'.main = e.main → e'.members = e.members.set index ⟨m.node, state⟩ → c.inv s' →
      (∀ wait k, state = .waiting wait k →
        c.memberWaits m.node wait (fun r s => c.MemberHolds m.node (k r) s) s') →
      (∀ result, state = .finished (.ok result) → c.post m.node result s') →
      c.Kept o s'.world e' := by
    intro state e' hframe hmain hmembers hinv hwait hfin
    refine ⟨⟨?_, ?_⟩, ?_, ?_, ?_, ?_⟩
    · have := congrArg (List.map WorkflowNode.id) (map_node_set hm state)
      simp only [List.map_map] at this
      rw [hmembers]
      exact this ▸ hk.distinct
    · intro x hx wait k hxk
      rw [hmembers] at hx
      rw [hframe]
      rcases mem_set_ne hk.distinct hm hx with rfl | ⟨hmem, hne⟩
      · exact hwait wait k hxk
      · exact c.memberWaits_later (hk.waits x hmem wait k hxk) (hsibling x hne _) hinv
    · rw [hframe]
      exact hinv
    · intro main hmain'
      rw [hmain] at hmain'
      rw [hframe]
      refine c.mainRests_later (hk.rests main hmain') ?_
      have hbatch : m.node ∈ main.wait.batch := by
        rw [← hk.batch main hmain']
        exact List.mem_map.2 ⟨m, List.mem_of_getElem? hm, rfl⟩
      exact c.later_of (fun _ _ hab => .inr (.inl ⟨m.node, hbatch, hab⟩)) hsteps
    · intro main hmain'
      rw [hmembers, map_node_set hm, hk.batch main (hmain ▸ hmain')]
    · intro main hmain' x hx result hr
      rw [hmembers] at hx
      rw [hframe]
      rcases mem_set_ne hk.distinct hm hx with rfl | ⟨hmem, hne⟩
      · exact hfin result hr
      · exact post_siblings hc hne.symm hsteps (hk.finished main (hmain ▸ hmain') x hmem result hr)
  cases stop with
  | done result =>
    have hinv : c.inv s' := by
      cases result with
      | ok run => exact hstop.2
      | error error => exact hstop
    refine ⟨(hothers' _ rfl).keep hc (hset (.finished result) _ rfl rfl rfl hinv
      (fun _ _ h => by cases h) fun b hb => ?_), .member _ _ _ hsteps hinv⟩
    cases hb
    exact hstop.1
  | await w k =>
    refine ⟨(hothers' _ rfl).keep hc (hset (.waiting w k) _ rfl rfl rfl hstop.1 ?_
      fun _ h => by cases h), .member _ _ _ hsteps hstop.1⟩
    rintro _ _ ⟨rfl⟩
    exact hstop

/-! ## Resumptions -/

omit [PyLib] in
theorem mem_of_results {l : List (Member ρ)} {rs : List BatchResult}
    (h : Orchestrator.results l = some rs) :
    List.Forall₂ (fun m r => m.state = .finished (.ok r)) l rs := by
  induction l generalizing rs with
  | nil =>
    simp only [Orchestrator.results, Option.some.injEq] at h
    subst h
    exact .nil
  | cons m l ih =>
    simp only [Orchestrator.results] at h
    split at h
    · rename_i hm hl
      cases h
      exact .cons hm (ih hl)
    · cases h

omit [PyLib] in
/-- When all members have returned, none is suspended. -/
theorem finished_of_results {l : List (Member ρ)} {rs : List BatchResult}
    (h : Orchestrator.results l = some rs) {m : Member ρ} (hm : m ∈ l) :
    ∃ r, m.state = .finished (.ok r) := by
  have hall := mem_of_results h
  clear h
  induction hall with
  | nil => cases hm
  | cons hr _ ih =>
    rcases List.mem_cons.1 hm with rfl | hm
    · exact ⟨_, hr⟩
    · exact ih hm

/-- A reply to the coroutine of a call: a child that is not active, or an exception, or what has
become of all members. -/
theorem answers_of_reply {w : World ρ} {e : Execution ρ} (h : c.Kept o w e)
    {m : Suspended ρ TaskRun} (hm : e.main = some m) {r : m.wait.Reply}
    (hr : Orchestrator.reply w e m.wait = some r) :
    c.Answers ⟨w, e.frame⟩ m.wait r ∧ ∀ member ∈ e.members, ∀ wait k,
      member.state = .waiting wait k → wait ≠ .scheduled ∧
        ∃ task batch outputs error, (⟨m.wait, r⟩ : Σ w : Wait, w.Reply) =
          ⟨.gather task batch outputs, .error error⟩ := by
  have hbatch := h.batch m hm
  have hfinished := h.finished m hm
  obtain ⟨wait, resume⟩ := m
  cases wait with
  | child id =>
    refine ⟨fun run hrun => ?_, fun member hmem => ?_⟩
    · subst hrun
      simp only [Orchestrator.reply] at hr
      split at hr
      · split at hr
        · cases hr
        · cases hr
          exact ⟨‹_›, by simp_all⟩
      · cases hr
    · rw [List.map_eq_nil_iff.1 hbatch] at hmem
      cases hmem
  | sleep =>
    refine ⟨trivial, fun member hmem => ?_⟩
    rw [List.map_eq_nil_iff.1 hbatch] at hmem
    cases hmem
  | scheduled =>
    refine ⟨trivial, fun member hmem => ?_⟩
    rw [List.map_eq_nil_iff.1 hbatch] at hmem
    cases hmem
  | gather task batch outputs =>
    simp only [Orchestrator.reply] at hr
    split at hr
    · cases hr
    rename_i hsched
    have hnot : ∀ member ∈ e.members, ∀ wait k, member.state = .waiting wait k →
        wait ≠ .scheduled := by
      intro member hmem wait k hk hw
      subst hw
      refine hsched (List.any_eq_true.2 ⟨member, hmem, ?_⟩)
      simp only [Orchestrator.Member.scheduled, hk]
    split at hr
    · rename_i error _
      cases hr
      exact ⟨fun _ h => (by cases h), fun member hmem wait k hk =>
        ⟨hnot member hmem wait k hk, task, batch, outputs, error, rfl⟩⟩
    · obtain ⟨results, hresults, rfl⟩ := Option.map_eq_some_iff.1 hr
      constructor
      · rintro _ ⟨rfl⟩
        have hall := mem_of_results hresults
        change e.members.map (·.node) = batch at hbatch
        rw [← hbatch, List.forall₂_map_left_iff]
        obtain ⟨hlength, hstates⟩ := List.forall₂_iff_zip.1 hall
        refine List.forall₂_iff_zip.2 ⟨hlength, fun {member result} hzip => ?_⟩
        exact hfinished member (List.of_mem_zip hzip).1 result (hstates hzip)
      · intro member hmem wait k hk
        obtain ⟨r, hr⟩ := finished_of_results hresults hmem
        rw [hr] at hk
        cases hk

omit [PyLib] in
/-- The exception that a child raised is a reply, where a child is awaited. -/
theorem answers_of_failure {s : Scope ρ} {error : PyError} {w : Wait} {r : w.Reply}
    (hr : Orchestrator.failure error w = some r) : c.Answers s w r ∧ w.batch = [] := by
  cases w with
  | child id =>
    cases hr
    exact ⟨fun _ h => (by cases h), rfl⟩
  | sleep | scheduled | gather _ _ _ => cases hr

variable (c o) in
/-- What the condition of a contract means for a resumption of the coroutine of a call. -/
def MainResumes (s : TaskState ρ) (id : ℕ)
    (reply : World ρ → Execution ρ → (wait : Wait) → Option wait.Reply) : Prop :=
  ∀ e m r, s.executions.get? id = some e → e.main = some m → reply s.world e m.wait = some r →
    c.mainOk m.wait r ⟨s.world, e.frame⟩

variable (c o) in
/-- What the condition of a contract means for a resumption of a member. -/
def MemberResumes (s : TaskState ρ) (id index : ℕ)
    (reply : World ρ → Execution ρ → (wait : Wait) → Option wait.Reply) : Prop :=
  ∀ e m w k r, s.executions.get? id = some e → e.members[index]? = some m →
    m.state = .waiting w k → reply s.world e w = some r → c.memberOk m.node w r ⟨s.world, e.frame⟩

omit [PyLib] in
/-- A reply to a member is one that the contract knows. -/
theorem answers_member {s : Scope ρ} {e : Execution ρ} {w : Wait} (hw : w.isGather = false)
    {r : w.Reply} (hr : Orchestrator.reply s.world e w = some r) : c.Answers s w r := by
  cases w with
  | child id =>
    intro run hrun
    subst hrun
    simp only [Orchestrator.reply] at hr
    split at hr
    · split at hr
      · cases hr
      · cases hr
        exact ⟨‹_›, by simp_all⟩
    · cases hr
  | sleep | scheduled => trivial
  | gather _ _ _ => cases hw

/-- The world is changed by others than the calls of `execute`. -/
theorem KeptAll.other (hc : c.Sound) {s s' : TaskState ρ} (h : c.KeptAll o s)
    (hs : ∀ id e, s'.executions.get? id = some e → s.executions.get? id = some e)
    (hrely : ∀ id e, s'.executions.get? id = some e → c.rely e.frame s.world s'.world) :
    c.KeptAll o s' :=
  ⟨fun id e he => (h.kept id e (hs id e he)).other hc (hrely id e he),
    fun i j e f hi hj hne => h.apart i j e f (hs i e hi) (hs j f hj) hne⟩

end Holds

end Contract

end DeviceShell.Framework
