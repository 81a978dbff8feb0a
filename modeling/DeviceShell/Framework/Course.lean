import DeviceShell.Framework.AdvanceEvidence

/-!
# The course of a run through its definitions

Which way the runs of a workflow go, when the definition registered under the workflow's key is
always one of a given kind `D`. A section saves a run that keeps its identity and the facts of its
actions, whose decision point has the options of a state of the definitions, and whose state is the
one before or the target of a transition (`Follows`). From this come the invariant `OnCourse` of
every history, and, for a sequential one, that a run changes its state only along a transition of
the state it is in or to the target of an option (`step_moves`).
-/

namespace DeviceShell.Framework

open Logged (Guarantees Steps)

/-- The key of the context under which the facts of an action are stored. -/
def factsKey (actionId : String) : String := "action." ++ actionId ++ ".facts"

/-- No other key of the runtime starts with the letter that the facts' keys start with. -/
theorem factsKey_ne {key : String} {c : Char} {x : List Char} (hkey : key.toList = c :: x)
    (hc : 'a' ≠ c) (actionId : String) : factsKey actionId ≠ key := by
  rw [factsKey, String.append_assoc]
  exact append_ne_of_head rfl hkey hc _

theorem factsKey_injective {a b : String} (h : factsKey a = factsKey b) : a = b := by
  have h' := congrArg String.toList h
  simp only [factsKey, String.toList_append, List.append_assoc, List.append_cancel_left_eq,
    List.append_cancel_right_eq] at h'
  exact String.toList_inj.1 h'

theorem factsKey_ne_reconcile (actionId stateId : String) :
    factsKey actionId ≠ "reconcile." ++ stateId :=
  factsKey_ne (String.toList_append ..) (by decide) actionId

theorem factsKey_ne_decision (actionId optionId : String) :
    factsKey actionId ≠ "decision." ++ optionId :=
  factsKey_ne (String.toList_append ..) (by decide) actionId

/-- Only what is recorded of attempts and of progress differs. -/
def WorkflowRun.Recorded (r s : WorkflowRun) : Prop :=
  ∃ attempts progress revision,
    r = { s with attempts := attempts, progress := progress, revision := revision }

theorem WorkflowRun.Recorded.refl (r : WorkflowRun) : r.Recorded r := ⟨_, _, _, rfl⟩

theorem WorkflowRun.Recorded.trans {r s t : WorkflowRun} (h : r.Recorded s) (h' : s.Recorded t) :
    r.Recorded t := by
  obtain ⟨attempts, progress, revision, rfl⟩ := h
  obtain ⟨_, _, _, rfl⟩ := h'
  exact ⟨attempts, progress, revision, rfl⟩

/-- The saves of such a run. -/
def Records (s : WorkflowRun) : Write → Prop
  | .run r => r.Recorded s
  | .event _ => True

/-! ## Definitions of a kind -/

variable (D : WorkflowDefinition → Prop)

/-- The state of one of the definitions. -/
def StateOf (state : StateNode) : Prop := ∃ d, D d ∧ state ∈ d.states

/-- A transition of one of the definitions. -/
def Edge (source target : String) : Prop :=
  ∃ state, StateOf D state ∧ state.id = source ∧
    (target = state.nextState ∨ target ∈ state.transitions.values)

/-- The target of an option of one of the definitions. -/
def Chosen (target : String) : Prop :=
  ∃ state option, StateOf D state ∧ option ∈ state.decisionOptions ∧ option.nextState = target

/-- What the run may decide on is what a state of the definitions offers. -/
def Offers (r : WorkflowRun) : Prop :=
  ∀ point, r.decisionPoint = some point →
    ∃ state, StateOf D state ∧ point.options = state.decisionOptions

/-- A save of a run `s` that follows the definitions, and goes from its state where `goes` says. -/
structure Follows (goes : String → Prop) (s r : WorkflowRun) : Prop where
  id : r.id = s.id
  key : r.definitionKey = s.definitionKey
  facts : ∀ actionId, r.context.get? (factsKey actionId) = s.context.get? (factsKey actionId)
  offers : Offers D r
  place : r.currentState = s.currentState ∨ goes r.currentState

/-- The saves of such runs. -/
def SavesCourse (goes : String → Prop) (s : WorkflowRun) : Write → Prop
  | .run r => Follows D goes s r
  | .event _ => True

/-- A call that waits for a provider's answer has a provider to ask. -/
def Call.Asks : Call → Prop
  | .handler .. => True
  | .reconcile _ _ action _ => action.reconcile.provider ≠ ""
  | .recover _ _ action _ _ => action.reconcile.provider ≠ ""

/-- The call waits for a provider. -/
def Call.Waits : Call → Prop
  | .handler .. => False
  | .reconcile .. | .recover .. => True

/-- A call about a state of the definitions. -/
structure Call.OnCourse (c : Call) : Prop where
  offers : Offers D c.run
  state : StateOf D c.state
  action : c.state.action = some c.action
  asks : c.Asks

/-- A section that suspends keeps a snapshot of the run `s`, and is on course. -/
def EndsOnCourse (s : WorkflowRun) (o : Outcome) : Prop :=
  ∀ call, o = .suspended call → Follows D (fun _ => False) s call.run ∧ call.OnCourse D

variable {D} {goes : String → Prop} {s r run : WorkflowRun}

theorem WorkflowRun.Recorded.offers (h : r.Recorded s) (hs : Offers D s) : Offers D r := by
  obtain ⟨_, _, _, rfl⟩ := h
  exact hs

theorem Follows.refl (hs : Offers D s) : Follows D goes s s :=
  ⟨rfl, rfl, fun _ => rfl, hs, .inl rfl⟩

theorem Follows.of_recorded (h : r.Recorded s) (hs : Offers D s) : Follows D goes s r := by
  obtain ⟨_, _, _, rfl⟩ := h
  exact ⟨rfl, rfl, fun _ => rfl, hs, .inl rfl⟩

theorem Follows.mono {goes' : String → Prop} (h : Follows D goes s r)
    (hgoes : ∀ x, goes x → goes' x) : Follows D goes' s r :=
  ⟨h.id, h.key, h.facts, h.offers, h.place.imp_right (hgoes _)⟩

/-- From a run that stayed in the state of `s`, a section goes on as from `s`. -/
theorem Follows.trans (h : Follows D (fun _ => False) s run) (h' : Follows D goes run r) :
    Follows D goes s r where
  id := h'.id.trans h.id
  key := h'.key.trans h.key
  facts actionId := (h'.facts actionId).trans (h.facts actionId)
  offers := h'.offers
  place := by
    rcases h.place with hplace | hfalse
    · rw [← hplace]
      exact h'.place
    · exact hfalse.elim

theorem Follows.same_place (h : Follows D (fun _ => False) s r) :
    r.currentState = s.currentState := h.place.resolve_right fun hfalse => hfalse

/-- A run whose context has changed under a key of the runtime's own only. -/
theorem Follows.set (h : Follows D goes s run) (key : String)
    (hkey : ∀ actionId, factsKey actionId ≠ key) (value : Value) :
    Follows D goes s { run with context := run.context.set key value } :=
  ⟨h.id, h.key, fun actionId => (Dict.get?_set_of_ne _ (hkey actionId) _).trans (h.facts actionId),
    h.offers, h.place⟩

/-- A call that is on course stays so while its handler or provider emits events. -/
theorem Call.OnCourse.emitted {c : Call} (h : c.OnCourse D) (event : Event) :
    (Runtime.emitted c event).OnCourse D := by
  cases c with
  | handler | reconcile | recover => exact ⟨h.offers, h.state, h.action, h.asks⟩

namespace Runtime

theorem state_mem {d : WorkflowDefinition} {id : String} {state : StateNode}
    (h : d.state id = .ok state) : state ∈ d.states := by
  unfold WorkflowDefinition.state at h
  split at h
  · rename_i found hfound
    cases h
    exact List.mem_of_find?_eq_some hfound
  · cases h

/-- The state that follows is the target of a transition. -/
theorem edge_nextState {state : StateNode} (hstate : StateOf D state) (observed : List String) :
    Edge D state.id (nextState state observed) := by
  refine ⟨state, hstate, rfl, ?_⟩
  unfold nextState
  split
  · rename_i t ht
    exact .inr (List.mem_map.2 ⟨t, List.mem_of_find?_eq_some ht, rfl⟩)
  · exact .inl rfl

/-! ## What sections record of an attempt -/

theorem save_records {t : WorkflowRun} (h : r.Recorded s) :
    Guarantees (fun _ => Records s) tracked t (save r) (fun a u => a = r ∧ u = r) :=
  Guarantees.bind (Guarantees.write h) fun _ _ hu => Guarantees.pure ⟨rfl, hu⟩

theorem replaceAttempt_records {t : WorkflowRun} (h : r.Recorded s) (attempt : ActionAttempt) :
    Guarantees (fun _ => Records s) tracked t (replaceAttempt r attempt)
      (fun a _ => a.Recorded s) := by
  have hsaved : ({ r with
      attempts := r.attempts.map fun a => if a.id = attempt.id then attempt else a
      revision := r.revision + 1 } : WorkflowRun).Recorded s := .trans ⟨_, _, _, rfl⟩ h
  refine (save_records hsaved).mono fun a u ha => ?_
  rw [ha.1]
  exact hsaved

theorem appendActionEvent_records {t : WorkflowRun} (h : r.Recorded s) (events : List Event)
    (event : Event) (actionId : String) :
    Guarantees (fun _ => Records s) tracked t (appendActionEvent events r event actionId)
      (fun a _ => a.1.Recorded s) := by
  have hevent : ∀ event, Guarantees (fun _ => Records s) tracked t (appendEvent events event)
      fun _ _ => True := by
    intro event
    unfold appendEvent
    refine Guarantees.ite (fun _ => ?_) fun _ => ?_
    · split
      · exact Guarantees.pure trivial
      · exact Guarantees.raise _
    · exact Guarantees.bind (Guarantees.write trivial) fun _ _ _ => Guarantees.pure trivial
  unfold appendActionEvent
  refine Guarantees.bind (hevent _) fun event u _ => ?_
  refine Guarantees.ite (fun _ => ?_) fun _ => Guarantees.pure h
  split
  · refine Guarantees.bind (replaceAttempt_records h _) fun q u hq => ?_
    have hsaved : ({ q with
        progress := { q.progress with
          lastEventType := event.type, lastProgressAt := event.observedAt }
        revision := q.revision + 1 } : WorkflowRun).Recorded s := .trans ⟨_, _, _, rfl⟩ hq
    refine Guarantees.bind (save_records hsaved) fun a u ha => Guarantees.pure ?_
    rw [ha.1]
    exact hsaved
  · exact Guarantees.pure h

theorem emitResults_records {t : WorkflowRun} (h : r.Recorded s) (events : List Event)
    (actionId : String) (emitted : List Event) (results : List ResultEvent) :
    Guarantees (fun _ => Records s) tracked t (emitResults events actionId r emitted results)
      (fun a _ => a.1.Recorded s) := by
  induction results generalizing r t emitted with
  | nil => exact Guarantees.pure h
  | cons e rest ih =>
    unfold emitResults
    exact Guarantees.bind (appendActionEvent_records h _ _ _) fun a u ha => ih ha _

/-! ## What sections save -/

/-- A save on course. -/
theorem save_course {t : WorkflowRun} (h : Follows D goes s r) :
    Guarantees (fun _ => SavesCourse D goes s) tracked t (save r) (fun a u => a = r ∧ u = r) :=
  Guarantees.bind (Guarantees.write h) fun _ _ hu => Guarantees.pure ⟨rfl, hu⟩

/-- A section that ends with such a save. -/
theorem save_course' {t : WorkflowRun} (h : Follows D goes s r) :
    Guarantees (fun _ => SavesCourse D goes s) tracked t (save r) (fun _ _ => True) :=
  (save_course h).mono fun _ _ _ => trivial

theorem records_course {α : Type} {t : WorkflowRun} {m : SaveM α} {Q : α → WorkflowRun → Prop}
    (hs : Offers D s) (h : Guarantees (fun _ => Records s) tracked t m Q) :
    Guarantees (fun _ => SavesCourse D goes s) tracked t m Q := by
  refine h.imp (I := fun _ => True) (fun u w _ hw => ⟨?_, trivial⟩) trivial
  cases w with
  | run r => exact .of_recorded hw hs
  | event e => trivial

theorem definitionOf_congr {defs : Definitions} (h : r.definitionKey = s.definitionKey) :
    definitionOf defs r = definitionOf defs s := by
  rw [definitionOf, definitionOf, h]

/-- A run moves where a transition of the given state leads, by a registered definition. -/
def Leads (D : WorkflowDefinition → Prop) (defs : Definitions) (s : WorkflowRun)
    (source target : String) : Prop :=
  (∃ d, definitionOf defs s = .ok d) ∧ Edge D source target

theorem advance_course {t : WorkflowRun} {defs : Definitions} (hrun : Follows D goes s run)
    {next : String} (hgoes : (∃ d, definitionOf defs s = .ok d) → goes next) (trigger : String) :
    Guarantees (fun _ => SavesCourse D goes s) tracked t (advance defs run next trigger)
      (fun _ _ => True) := by
  unfold advance
  refine Guarantees.bind Guarantees.lift fun definition u hu => ?_
  have hgo : goes next := hgoes ⟨definition, (definitionOf_congr hrun.key).symm.trans hu.1⟩
  refine Guarantees.ite (fun hnext => ?_) fun _ => ?_
  · apply save_course'
    exact ⟨hrun.id, hrun.key, hrun.facts, hrun.offers, .inr (hnext ▸ hgo)⟩
  · refine Guarantees.bind Guarantees.lift fun state u _ => ?_
    apply save_course'
    refine ⟨hrun.id, hrun.key, hrun.facts, ?_, .inr hgo⟩
    intro point hpoint
    cases hpoint

theorem createDecision_course {t : WorkflowRun} (hrun : Follows D goes s run) {state : StateNode}
    (hstate : StateOf D state) (uuid reason : String) (error : Option (Dict String Value)) :
    Guarantees (fun _ => SavesCourse D goes s) tracked t
      (createDecision uuid run state reason error) (fun _ _ => True) := by
  unfold createDecision
  refine Guarantees.ite (fun _ => ?_) fun _ => ?_
  · apply save_course'
    exact ⟨hrun.id, hrun.key, hrun.facts, hrun.offers, hrun.place⟩
  · apply save_course'
    refine ⟨hrun.id, hrun.key, hrun.facts, ?_, hrun.place⟩
    intro point hpoint
    obtain rfl := Option.some.inj hpoint
    exact ⟨state, hstate, rfl⟩

/-- A section that ends by returning the run of another one. -/
theorem returned_course {t : WorkflowRun} {m : SaveM WorkflowRun}
    {Q : WorkflowRun → WorkflowRun → Prop} {G : Write → Prop}
    (h : Guarantees (fun _ => G) tracked t m Q) :
    Guarantees (fun _ => G) tracked t (do return Outcome.returned (← m))
      (fun o _ => EndsOnCourse D s o) := by
  refine h.bind fun r u _ => Guarantees.pure ?_
  intro call hcall
  cases hcall

theorem endsOnCourse_suspended {call : Call} (hrun : Follows D (fun _ => False) s call.run)
    (hcall : call.OnCourse D) : EndsOnCourse D s (.suspended call) := by
  intro call' h'
  cases h'
  exact ⟨hrun, hcall⟩

section Sections

variable [PyLib] (cfg : RuntimeConfig) (now : ℚ) (uuid : String) (defs : Definitions)

theorem applyReconcile_course (hD : ∀ d, definitionOf defs run = .ok d → D d)
    (hrun : Offers D run) {t : WorkflowRun} (stateId : String) (mapping : Dict String String)
    (outcome : ReconcileResult) :
    Guarantees (fun _ => SavesCourse D (Leads D defs run stateId) run) tracked t
      (applyReconcile cfg now uuid defs run stateId mapping outcome) (fun _ _ => True) := by
  have hbase : Follows D (Leads D defs run stateId) run
      { run with context := run.context.set ("reconcile." ++ stateId) (reconcileContext outcome) } :=
    (Follows.refl hrun).set _ (fun a => factsKey_ne_reconcile a stateId) _
  unfold applyReconcile
  refine Guarantees.ite (fun _ => ?_) fun _ => ?_
  · have hfenced := hbase.set recoveryKey (factsKey_ne rfl (by decide))
      (fence (.str "reconcile.in_progress") [retryAt cfg now])
    apply save_course'
    exact ⟨hfenced.id, hfenced.key, hfenced.facts, hfenced.offers, hfenced.place⟩
  refine Guarantees.bind (save_course ?_) fun r u hu => ?_
  · exact ⟨hbase.id, hbase.key, hbase.facts, hbase.offers, hbase.place⟩
  have hr : Follows D (Leads D defs run stateId) run r := by
    rw [hu.1]
    exact ⟨hbase.id, hbase.key, hbase.facts, hbase.offers, hbase.place⟩
  refine Guarantees.bind Guarantees.lift fun definition u' hdef => ?_
  refine Guarantees.bind Guarantees.lift fun state u'' hfind => ?_
  have hstate : StateOf D state :=
    ⟨definition, hD definition ((definitionOf_congr hr.key).symm.trans hdef.1), state_mem hfind.1⟩
  refine Guarantees.ite (fun _ => advance_course hr (fun hreg => ⟨hreg, ?_⟩) _) fun _ => ?_
  · rw [← WorkflowDefinition.state_id hfind.1]
    exact edge_nextState hstate []
  refine Guarantees.ite (fun _ => ?_) fun _ => createDecision_course hr hstate _ _ _
  split
  · refine Guarantees.ite (fun _ => save_course' ?_) fun _ => createDecision_course hr hstate _ _ _
    exact ⟨hr.id, hr.key, hr.facts, hr.offers, hr.place⟩
  · exact createDecision_course hr hstate _ _ _

theorem recovered_course (hrun : Offers D run) {state : StateNode} (hstate : StateOf D state)
    {t : WorkflowRun} (recovery : Dict String Value) (outcome : ReconcileResult) :
    Guarantees (fun _ => SavesCourse D (Leads D defs run state.id) run) tracked t
      (recovered cfg now uuid defs run state recovery outcome) (fun _ _ => True) := by
  have hbase : Follows D (Leads D defs run state.id) run
      { run with
        context := run.context.set ("reconcile." ++ state.id) (reconcileContext outcome) } :=
    (Follows.refl hrun).set _ (fun a => factsKey_ne_reconcile a state.id) _
  have hfenced : ∀ value, Follows D (Leads D defs run state.id) run
      { run with context := (run.context.set ("reconcile." ++ state.id)
        (reconcileContext outcome)).set recoveryKey value } :=
    fun value => hbase.set recoveryKey (factsKey_ne rfl (by decide)) value
  unfold recovered
  refine Guarantees.ite (fun _ => ?_) fun _ => ?_
  · have hopen := hfenced (.dict [("required", .bool false)])
    refine Guarantees.bind (save_course ?_) fun r u hu => ?_
    · exact ⟨hopen.id, hopen.key, hopen.facts, hopen.offers, hopen.place⟩
    refine advance_course ?_ (fun hreg => ⟨hreg, edge_nextState hstate []⟩) _
    rw [hu.1]
    exact ⟨hopen.id, hopen.key, hopen.facts, hopen.offers, hopen.place⟩
  refine Guarantees.ite (fun _ => ?_) fun _ => ?_
  · have hopen := hfenced (.dict [("required", .bool false)])
    apply save_course'
    exact ⟨hopen.id, hopen.key, hopen.facts, hopen.offers, hopen.place⟩
  refine Guarantees.ite (fun _ => ?_) fun _ => ?_
  · have hclosed := hfenced
      (fence ((recovery.get? "reason").getD (.str "restart")) [retryAt cfg now])
    apply save_course'
    exact ⟨hclosed.id, hclosed.key, hclosed.facts, hclosed.offers, hclosed.place⟩
  · refine Guarantees.bind (save_course ?_) fun r u hu => ?_
    · exact ⟨hbase.id, hbase.key, hbase.facts, hbase.offers, hbase.place⟩
    refine createDecision_course ?_ hstate _ _ _
    rw [hu.1]
    exact ⟨hbase.id, hbase.key, hbase.facts, hbase.offers, hbase.place⟩

theorem recover_course (hrun : Offers D run) {state : StateNode} (hstate : StateOf D state)
    {t : WorkflowRun} :
    Guarantees (fun _ => SavesCourse D goes run) tracked t (recover cfg now uuid run state)
      (fun o _ => EndsOnCourse D run o) := by
  have hdecision : ∀ {t : WorkflowRun}, Guarantees (fun _ => SavesCourse D goes run) tracked t
      (do return Outcome.returned (← createDecision uuid run state
        "recovery.reconcile_unavailable" none)) (fun o _ => EndsOnCourse D run o) := fun {t} =>
    returned_course (createDecision_course (.refl hrun) hstate _ _ _)
  unfold recover
  split
  · refine Guarantees.ite (fun _ => Guarantees.pure ?_) fun _ => ?_
    · intro call hcall
      cases hcall
    split
    · exact hdecision
    · rename_i action haction
      refine Guarantees.ite (fun _ => hdecision) fun hprovider => ?_
      refine Guarantees.bind Guarantees.lift fun _ u _ => Guarantees.pure ?_
      exact endsOnCourse_suspended (.refl hrun) ⟨hrun, hstate, haction, hprovider⟩
  · refine returned_course (save_course' ?_)
    exact ⟨rfl, rfl, fun _ => rfl, hrun, .inl rfl⟩

theorem tick_course (hD : ∀ d, definitionOf defs run = .ok d → D d) (hrun : Offers D run)
    {t : WorkflowRun} :
    Guarantees (fun _ => SavesCourse D (Leads D defs run run.currentState) run) tracked t
      (tick cfg now uuid defs run) (fun o _ => EndsOnCourse D run o) := by
  unfold tick
  refine Guarantees.ite (fun _ => Guarantees.pure ?_) fun _ => ?_
  · intro call hcall
    cases hcall
  refine Guarantees.bind Guarantees.lift fun definition u hdef => ?_
  refine Guarantees.bind Guarantees.lift fun state u' hfind => ?_
  have hdefinition : definitionOf defs run = .ok definition := by
    have hreg := hdef.1
    unfold registered at hreg
    unfold definitionOf
    cases hget : defs.get? run.definitionKey with
    | none =>
      rw [hget] at hreg
      cases hreg
    | some d =>
      rw [hget] at hreg
      cases hreg
      rfl
  have hstate : StateOf D state := ⟨definition, hD definition hdefinition, state_mem hfind.1⟩
  refine Guarantees.ite (fun _ => recover_course cfg now uuid hrun hstate) fun _ => ?_
  refine Guarantees.ite (fun _ => returned_course (save_course' ?_)) fun _ => ?_
  · exact ⟨rfl, rfl, fun _ => rfl, hrun, .inl rfl⟩
  split
  · refine Guarantees.ite (fun _ => returned_course (advance_course (.refl hrun) ?_ _)) fun _ =>
      returned_course (createDecision_course (.refl hrun) hstate _ _ _)
    intro hreg
    exact ⟨hreg, state, hstate, WorkflowDefinition.state_id hfind.1, .inl rfl⟩
  · rename_i action haction
    have hattempt : Follows D (fun _ => False) run { run with
        attempts := run.attempts ++ [newAttempt now uuid run action]
        revision := run.revision + 1 } := ⟨rfl, rfl, fun _ => rfl, hrun, .inl rfl⟩
    refine Guarantees.bind (save_course (hattempt.mono fun _ => False.elim)) fun r u hu => ?_
    refine Guarantees.bind Guarantees.lift fun _ u _ => Guarantees.pure ?_
    rw [hu.1]
    exact endsOnCourse_suspended hattempt ⟨hrun, hstate, haction, trivial⟩

omit [PyLib] in
theorem reconcile_course (hD : ∀ d, definitionOf defs run = .ok d → D d) (hrun : Offers D run)
    {t : WorkflowRun} (reason : String) :
    Guarantees (fun _ => SavesCourse D (fun _ => False) run) tracked t
      (reconcile cfg uuid defs run reason) (fun o _ => EndsOnCourse D run o) := by
  unfold reconcile
  refine Guarantees.bind Guarantees.lift fun definition u hdef => ?_
  refine Guarantees.bind Guarantees.lift fun state u' hfind => ?_
  have hstate : StateOf D state := ⟨definition, hD definition hdef.1, state_mem hfind.1⟩
  split
  · exact returned_course (createDecision_course (.refl hrun) hstate _ _ _)
  · rename_i action haction
    refine Guarantees.ite
      (fun _ => returned_course (createDecision_course (.refl hrun) hstate _ _ _))
      fun hprovider => ?_
    refine Guarantees.bind Guarantees.lift fun _ u _ => Guarantees.pure ?_
    exact endsOnCourse_suspended (.refl hrun) ⟨hrun, hstate, haction, hprovider⟩

/-- The saves of a handler's return: of the run, or of the run with the facts of the result. -/
def FinishesCourse (D : WorkflowDefinition → Prop) (goes : String → Prop) (run : WorkflowRun)
    (actionId : String) (result : ActionResult) (w : Write) : Prop :=
  SavesCourse D goes run w ∨ SavesCourse D goes (withActionFacts run actionId result.facts) w

theorem finishTick_course (hrun : Offers D run) {state : StateNode} (hstate : StateOf D state)
    {action : ActionSpec} (haction : state.action = some action) {t : WorkflowRun}
    (events : List Event) (attempt active : ActionAttempt) (emitted : List Event)
    (result : ActionResult) :
    Guarantees (fun _ => FinishesCourse D (Leads D defs run state.id) run action.id result) tracked t
      (finishTick cfg now uuid defs events run state action attempt active emitted result)
      (fun o _ => EndsOnCourse D (withActionFacts run action.id result.facts) o) := by
  have hreg : ∀ base : WorkflowRun, base.definitionKey = run.definitionKey →
      (∃ d, definitionOf defs base = .ok d) → ∃ d, definitionOf defs run = .ok d := by
    rintro base hkey ⟨d, hd⟩
    exact ⟨d, (definitionOf_congr hkey).symm.trans hd⟩
  have hwith : ∀ {q : WorkflowRun}, q.Recorded run →
      (withActionFacts q action.id result.facts).Recorded
        (withActionFacts run action.id result.facts) := by
    rintro _ ⟨attempts, progress, revision, rfl⟩
    unfold withActionFacts
    split <;> exact ⟨attempts, progress, revision, rfl⟩
  have hoffers : Offers D (withActionFacts run action.id result.facts) := by
    unfold withActionFacts
    split <;> exact hrun
  have hkey : (withActionFacts run action.id result.facts).definitionKey = run.definitionKey := by
    unfold withActionFacts
    split <;> rfl
  have hright : ∀ {α : Type} {t : WorkflowRun} {m : SaveM α} {Q : α → WorkflowRun → Prop},
      Guarantees (fun _ => SavesCourse D (Leads D defs run state.id)
        (withActionFacts run action.id result.facts)) tracked t m Q →
      Guarantees (fun _ => FinishesCourse D (Leads D defs run state.id) run action.id result)
        tracked t m Q := fun h =>
    h.imp (I := fun _ => True) (fun _ _ _ hw => ⟨.inr hw, trivial⟩) trivial
  unfold finishTick
  refine Guarantees.bind (Q := fun a _ => a.1.Recorded run) ?_ fun a u ha => hright ?_
  · exact (records_course hrun (emitResults_records (.refl run) _ _ _ _)).imp (I := fun _ => True)
      (fun _ _ _ hw => ⟨.inl hw, trivial⟩) trivial
  -- From here on the section saves from the run with the facts.
  refine Guarantees.bind (save_course (.of_recorded (hwith ha) hoffers)) fun q u hq => ?_
  have hrecorded : q.Recorded (withActionFacts run action.id result.facts) := hq.1 ▸ hwith ha
  refine Guarantees.ite (fun _ => ?_) fun _ => ?_
  · refine Guarantees.bind (records_course hoffers (replaceAttempt_records hrecorded _))
      fun v u hv => ?_
    exact returned_course (advance_course (.of_recorded hv hoffers)
      (fun hd => ⟨hreg _ hkey hd, edge_nextState hstate _⟩) _)
  refine Guarantees.bind (records_course hoffers (replaceAttempt_records hrecorded _))
    fun v u hv => ?_
  have hfollows : Follows D (fun _ => False) (withActionFacts run action.id result.facts) v :=
    .of_recorded hv hoffers
  refine Guarantees.ite (fun hprovider => ?_) fun _ =>
    returned_course (createDecision_course (.of_recorded hv hoffers) hstate _ _ _)
  have hwaits : Follows D (fun _ => False) (withActionFacts run action.id result.facts)
      { v with status := .waitingReconcile, revision := v.revision + 1 } :=
    ⟨hfollows.id, hfollows.key, hfollows.facts, hfollows.offers, hfollows.place⟩
  refine Guarantees.bind (save_course (hwaits.mono fun _ => False.elim)) fun x u hx => ?_
  refine Guarantees.bind Guarantees.lift fun _ u _ => Guarantees.pure ?_
  rw [hx.1]
  exact endsOnCourse_suspended hwaits ⟨hwaits.offers, hstate, haction, hprovider⟩

theorem applyDecision_course (hrun : Offers D run) {t : WorkflowRun}
    (submission : DecisionSubmission) :
    Guarantees (fun _ => SavesCourse D (Chosen D) run) tracked t
      (applyDecision now defs run submission) (fun _ _ => True) := by
  unfold applyDecision
  refine Guarantees.bind Guarantees.lift fun option u hvalid => ?_
  obtain ⟨point, hpoint, -, hmem⟩ := DecisionEngine.validate_point hvalid.1
  obtain ⟨state, hstate, hoptions⟩ := hrun point hpoint
  have hbase : Follows D (Chosen D) run { run with
      context := (run.context.set "decision" (.ofDict (decisionOutputs option submission))).set
        ("decision." ++ option.id) (.ofDict (decisionOutputs option submission)) } :=
    ((Follows.refl hrun).set "decision" (factsKey_ne rfl (by decide)) _).set _
      (fun a => factsKey_ne_decision a option.id) _
  have hdecided : Offers D { run with decisionPoint := none } := by
    intro point hpoint
    cases hpoint
  refine Guarantees.ite (fun _ => save_course' ?_) fun _ => ?_
  · exact ⟨rfl, rfl, hbase.facts, hdecided, .inl rfl⟩
  refine Guarantees.ite (fun _ => save_course' ?_) fun _ => ?_
  · refine ⟨rfl, rfl, fun a => ?_, hdecided, .inl rfl⟩
    exact (Dict.get?_set_of_ne _ (factsKey_ne rfl (by decide) a) _).trans (hbase.facts a)
  refine Guarantees.ite (fun _ => save_course' ?_) fun _ => ?_
  · exact ⟨rfl, rfl, hbase.facts, hdecided, .inl rfl⟩
  refine Guarantees.ite (fun _ => save_course' ?_) fun _ => ?_
  · exact ⟨rfl, rfl, hbase.facts, hdecided, .inl rfl⟩
  refine Guarantees.bind Guarantees.lift fun definition u _ => ?_
  refine Guarantees.ite (fun _ => advance_course ?_ ?_ _) fun _ => save_course' ?_
  · exact ⟨rfl, rfl, hbase.facts, hdecided, .inl rfl⟩
  · exact fun _ => ⟨state, option, hstate, hoptions ▸ hmem, rfl⟩
  · exact ⟨rfl, rfl, hbase.facts, hdecided, .inl rfl⟩

end Sections

/-! ## The calls that do not await -/

/-- A pause of the run, for the given reason. -/
theorem fenced_course [PyLib] (now : ℚ) (hs : Offers D s) (reason : String) (w : Write)
    (hw : w ∈ (save { s with
      status := .paused
      context := s.context.set recoveryKey
        (fence (.str reason) [("observed_at", .str (PyLib.isoformat now))])
      revision := s.revision + 1 }).written) : SavesCourse D goes s w := by
  have hs' : Follows D goes s s := .refl hs
  have hfenced := hs'.set recoveryKey (factsKey_ne rfl (by decide))
    (fence (.str reason) [("observed_at", .str (PyLib.isoformat now))])
  obtain rfl := List.mem_singleton.1 hw
  exact ⟨hfenced.id, hfenced.key, hfenced.facts, hfenced.offers, hfenced.place⟩

theorem pause_course [PyLib] (now : ℚ) (hs : Offers D s) :
    ∀ w ∈ (pause now s).written, SavesCourse D goes s w := by
  unfold pause
  split
  · intro w hw
    cases hw
  · exact fenced_course now hs "paused"

theorem markInterrupted_course [PyLib] (now : ℚ) (hs : Offers D s) (reason : String) :
    ∀ w ∈ (markInterrupted now s reason).written, SavesCourse D goes s w := by
  unfold markInterrupted
  split
  · intro w hw
    cases hw
  · exact fenced_course now hs reason

theorem cancel_course (s : WorkflowRun) :
    ∀ w ∈ (cancel s).written, SavesCourse D goes s w := by
  unfold cancel
  split
  · intro w hw
    cases hw
  · intro w hw
    obtain rfl := List.mem_singleton.1 hw
    refine ⟨rfl, rfl, fun _ => rfl, ?_, .inl rfl⟩
    intro point hpoint
    cases hpoint

/-- A resume saves the run with the context it is given. -/
theorem resume_course (s : WorkflowRun) (context : Dict String Value) :
    ∀ w ∈ (resume s context).written,
      SavesCourse D goes { s with context := s.context.merge context } w := by
  unfold resume
  split
  · intro w hw
    obtain rfl := List.mem_singleton.1 hw
    refine ⟨rfl, rfl, fun _ => rfl, ?_, .inl rfl⟩
    intro point hpoint
    cases hpoint
  · intro w hw
    cases hw

end Runtime

/-! ## The machine -/

/-- What a history promises of the definitions that it registers and of the facts of its runs. -/
structure Charter where
  /-- The definitions registered under a key. -/
  kind : String → WorkflowDefinition → Prop
  /-- What holds of the facts of a run. -/
  facts : WorkflowRun → Prop
  facts_congr : ∀ {r s : WorkflowRun}, r.definitionKey = s.definitionKey →
    (∀ actionId, r.context.get? (factsKey actionId) = s.context.get? (factsKey actionId)) →
      facts s → facts r

/-- The inputs that keep the charter: no run is started under the id of another one. -/
def Charter.Permits {ρ : Type} (ch : Charter) (st : RuntimeState ρ) : RuntimeInput → Prop
  | .start definition _ context runId => ch.kind definition.key definition ∧
      (∀ id, runId = some id → id = "" ∨ id ∉ st.runs.keys) ∧
      ∀ r : WorkflowRun, r.definitionKey = definition.key → r.context = context → ch.facts r
  | .registerDefinition definition => ch.kind definition.key definition
  | .resume runId context => ∀ r, st.runs.get? runId = some r →
      ch.facts { r with context := r.context.merge context }
  | .finish call outcome => ∀ snapshot state action attempt active events r,
      st.calls.get? call = some (.handler snapshot state action attempt active events) →
        st.runs.get? snapshot.id = some r →
          ch.facts (Runtime.withActionFacts r action.id outcome.toResult.facts)
  | _ => True

namespace RuntimeState

variable {ρ : Type}

/-- Every definition, run and call keeps the charter. -/
structure OnCourse (ch : Charter) (st : RuntimeState ρ) : Prop where
  definitions : ∀ key d, st.definitions.get? key = some d → ch.kind key d
  keyed : st.Keyed
  runs : ∀ id r, st.runs.get? id = some r → Offers (ch.kind r.definitionKey) r ∧ ch.facts r
  calls : ∀ n c, st.calls.get? n = some c →
    (∃ r, st.runs.get? c.run.id = some r ∧ r.definitionKey = c.run.definitionKey) ∧
      c.OnCourse (ch.kind c.run.definitionKey) ∧ ch.facts c.run

/-- A save of the run `id` of the workflow `key` that keeps the charter. -/
def Conforms (ch : Charter) (id key : String) : Write → Prop
  | .run r => r.id = id ∧ r.definitionKey = key ∧ Offers (ch.kind key) r ∧ ch.facts r
  | .event _ => True

variable {coordinator : Option (ResourceCoordinator ρ)} {now : ℚ} {ch : Charter}
  {st st' : RuntimeState ρ}

theorem Conforms.onRun {id key : String} {w : Write} (h : Conforms ch id key w) : OnRun id w := by
  cases w with
  | run r => exact h.1
  | event e => trivial

/-- A save on course of a run that keeps the charter. -/
theorem conforms_of_course {goes : String → Prop} {s : WorkflowRun} (hs : ch.facts s) {w : Write}
    (h : SavesCourse (ch.kind s.definitionKey) goes s w) :
    Conforms ch s.id s.definitionKey w := by
  cases w with
  | run r => exact ⟨h.id, h.key, h.offers, ch.facts_congr h.key h.facts hs⟩
  | event e => trivial

/-- The registered definition of a run is of its kind. -/
theorem OnCourse.kind_of_definitionOf (h : st.OnCourse ch) (run : WorkflowRun)
    (d : WorkflowDefinition) (hd : Runtime.definitionOf st.definitions run = .ok d) :
    ch.kind run.definitionKey d := by
  unfold Runtime.definitionOf at hd
  split at hd
  · rename_i definition hget
    cases hd
    exact h.definitions _ _ hget
  · cases hd

@[simp] theorem definitions_commit (st : RuntimeState ρ) (ws : List Write) :
    (st.commit coordinator now ws).definitions = st.definitions := by
  induction ws generalizing st with
  | nil => rfl
  | cons w ws ih =>
    refine (ih _).trans ?_
    cases w with
    | run r =>
      unfold RuntimeState.apply releaseTerminal
      dsimp only
      split <;> [split; skip] <;> rfl
    | event e => rfl

/-- Calls may end. -/
theorem OnCourse.congr (h : st.OnCourse ch) (hdefs : st'.definitions = st.definitions)
    (hruns : st'.runs = st.runs)
    (hcalls : ∀ n c, st'.calls.get? n = some c → st.calls.get? n = some c) : st'.OnCourse ch where
  definitions := by
    rw [hdefs]
    exact h.definitions
  keyed := by
    rw [Keyed, hruns]
    exact h.keyed
  runs := by
    rw [hruns]
    exact h.runs
  calls n c hc := by
    rw [hruns]
    exact h.calls n c (hcalls n c hc)

/-- The saves of a stored run that keep the charter. -/
theorem OnCourse.commit (h : st.OnCourse ch) {id key : String}
    (hstored : ∃ r, st.runs.get? id = some r ∧ r.definitionKey = key) {ws : List Write}
    (hw : ∀ w ∈ ws, Conforms ch id key w) : (st.commit coordinator now ws).OnCourse ch := by
  have hon : ∀ w ∈ ws, OnRun id w := fun w hmem => (hw w hmem).onRun
  obtain ⟨s, hs, hkey⟩ := hstored
  have hstored : ∃ r, (st.commit coordinator now ws).runs.get? id = some r ∧
      r.definitionKey = key ∧ Offers (ch.kind key) r ∧ ch.facts r := by
    refine ⟨_, get?_commit_onRun hon hs, ?_⟩
    rcases foldl_tracked s hw with hsame | hsaved
    · rw [hsame, ← hkey]
      exact ⟨rfl, h.runs id s hs⟩
    · exact hsaved.2
  refine ⟨?_, h.keyed.commit ws, ?_, ?_⟩
  · rw [definitions_commit]
    exact h.definitions
  · intro id' r hr
    by_cases hid : id' = id
    · obtain ⟨r', hr', hkey', hoffers, hfacts⟩ := hstored
      rw [hid, hr'] at hr
      cases hr
      exact ⟨hkey'.symm ▸ hoffers, hfacts⟩
    · rw [get?_commit_of_onRun hon hid] at hr
      exact h.runs id' r hr
  · rw [calls_commit]
    intro n c hc
    obtain ⟨⟨r, hr, hrkey⟩, hcourse⟩ := h.calls n c hc
    refine ⟨?_, hcourse⟩
    by_cases hid : c.run.id = id
    · obtain ⟨r', hr', hkey', -⟩ := hstored
      rw [hid] at hr ⊢
      rw [hs] at hr
      cases hr
      exact ⟨r', hr', hkey'.trans (hkey.symm.trans hrkey)⟩
    · exact ⟨r, (get?_commit_of_onRun hon hid).trans hr, hrkey⟩

/-- A coroutine suspends on course. -/
theorem OnCourse.suspend [PyLib] (h : st.OnCourse ch) {call : Call}
    (hstored : ∃ r, st.runs.get? call.run.id = some r ∧
      r.definitionKey = call.run.definitionKey)
    (hcall : call.OnCourse (ch.kind call.run.definitionKey)) (hfacts : ch.facts call.run) :
    (st.suspend coordinator now call).OnCourse ch := by
  obtain ⟨hruns, hcalls, -, -⟩ := executionRun_frame coordinator now st call.run
  have hdefs : (executionRun coordinator now st call.run).2.definitions = st.definitions := by
    unfold executionRun
    split
    · rfl
    · split
      · rfl
      · dsimp only
        split <;> rfl
  unfold RuntimeState.suspend
  split
  · rename_i st₁ he
    rw [he] at hruns hcalls hdefs
    exact h.congr hdefs hruns fun n c hc => hcalls ▸ hc
  · rename_i st₁ he
    rw [he] at hruns hcalls hdefs
    dsimp only at hruns hcalls hdefs
    have hold : st₁.OnCourse ch := h.congr hdefs hruns fun n c hc => hcalls ▸ hc
    refine ⟨hold.definitions, hold.keyed, hold.runs, fun n c hc => ?_⟩
    rw [Dict.get?_set] at hc
    split at hc
    · cases hc
      dsimp only
      rw [hruns]
      exact ⟨hstored, hcall, hfacts⟩
    · exact hold.calls n c hc

/-- A section of a coroutine, whose suspended call is about the run `base`. -/
theorem OnCourse.perform [PyLib] (h : st.OnCourse ch) {s base : WorkflowRun}
    (hs : st.runs.get? s.id = some s) (hid : base.id = s.id)
    (hkey : base.definitionKey = s.definitionKey) (hfacts : ch.facts base) {m : SaveM Outcome}
    {t : WorkflowRun} {G : Write → Prop} (hG : ∀ w, G w → Conforms ch s.id s.definitionKey w)
    (hm : Guarantees (fun _ => G) tracked t m
      fun o _ => EndsOnCourse (ch.kind s.definitionKey) base o) :
    (st.perform coordinator now m).OnCourse ch := by
  have hw : ∀ w ∈ m.written, Conforms ch s.id s.definitionKey w := fun w hmem =>
    hG w (Logged.steps_forall.1 hm.steps w hmem)
  have hon : ∀ w ∈ m.written, OnRun s.id w := fun w hmem => (hw w hmem).onRun
  have hcommit : (st.commit coordinator now m.written).OnCourse ch := h.commit ⟨s, hs, rfl⟩ hw
  unfold RuntimeState.perform
  dsimp only
  split
  · rename_i call heq
    obtain ⟨hfollows, hcourse⟩ := hm.returned _ heq call rfl
    have hcallkey : call.run.definitionKey = s.definitionKey := hfollows.key.trans hkey
    refine hcommit.suspend ?_ ?_ (ch.facts_congr hfollows.key hfollows.facts hfacts)
    · rw [hcallkey, hfollows.id.trans hid]
      refine ⟨_, get?_commit_onRun hon hs, ?_⟩
      rcases foldl_tracked s hw with hsame | hsaved
      · rw [hsame]
      · exact hsaved.2.1
    · rw [hcallkey]
      exact hcourse
  · exact hcommit

/-- How an input moves a run to another state. -/
def Steers (ch : Charter) (st : RuntimeState ρ) (r r' : WorkflowRun) : RuntimeInput → Prop
  | .tick _ => Runtime.Leads (ch.kind r.definitionKey) st.definitions r r.currentState
      r'.currentState
  | .finish call _ => ∃ c, st.calls.get? call = some c ∧ c.run.id = r.id ∧
      Runtime.Leads (ch.kind r.definitionKey) st.definitions r c.state.id r'.currentState
  | .reconciled call _ => ∃ c, st.calls.get? call = some c ∧ c.run.id = r.id ∧ c.Waits ∧
      Follows (ch.kind r.definitionKey)
        (Runtime.Leads (ch.kind r.definitionKey) st.definitions c.run c.state.id) c.run r'
  | .applyDecision .. => Chosen (ch.kind r.definitionKey) r'.currentState
  | _ => False

/-- What a step does: the charter is kept, a new run starts a definition, and a run moves as the
input moves it. -/
structure Conducts (ch : Charter) (input : RuntimeInput) (st st' : RuntimeState ρ) : Prop where
  course : st'.OnCourse ch
  key : ∀ id r r', st.runs.get? id = some r → st'.runs.get? id = some r' →
    r'.definitionKey = r.definitionKey
  created : ∀ id r, st.runs.get? id = none → st'.runs.get? id = some r →
    ∃ d, ch.kind r.definitionKey d ∧ r.currentState = d.startState
  moves : ∀ id r r', st.runs.get? id = some r → st'.runs.get? id = some r' →
    r'.currentState ≠ r.currentState → Steers ch st r r' input

variable {input : RuntimeInput}

theorem conducts_quiet (hcourse : st'.OnCourse ch)
    (hruns : st'.runs = st.runs) : Conducts ch input st st' where
  course := hcourse
  key id r r' hr hr' := by
    rw [hruns, hr] at hr'
    cases hr'
    rfl
  created id r hnone hr := by
    rw [hruns, hnone] at hr
    cases hr
  moves id r r' hr hr' hmoved := by
    rw [hruns, hr] at hr'
    cases hr'
    exact absurd rfl hmoved

/-- The stored run `s` is saved, and others are not. -/
theorem conducts_saved (st₀ : RuntimeState ρ) (hcourse : st'.OnCourse ch)
    (hruns : st₀.runs = st.runs) {s : WorkflowRun} (hs : st.runs.get? s.id = some s)
    {ws : List Write} (hst' : st'.runs = (st₀.commit coordinator now ws).runs) {P : Write → Prop}
    (hw : ∀ w ∈ ws, P w) (hP : ∀ w, P w → Conforms ch s.id s.definitionKey w)
    (hmoves : ∀ r', P (.run r') → r'.currentState ≠ s.currentState → Steers ch st s r' input) :
    Conducts ch input st st' where
  course := hcourse
  key id r r' hr hr' := by
    have hwon : ∀ w ∈ ws, OnRun s.id w := fun w hmem => (hP w (hw w hmem)).onRun
    rw [hst'] at hr'
    by_cases hid : id = s.id
    · subst hid
      rw [hs] at hr
      cases hr
      rw [get?_commit_onRun hwon (hruns ▸ hs)] at hr'
      cases hr'
      rcases foldl_tracked s hw with hsame | hsaved
      · rw [hsame]
      · exact (hP _ hsaved).2.1
    · rw [get?_commit_of_onRun hwon hid, hruns, hr] at hr'
      cases hr'
      rfl
  created id r hnone hr := by
    have hwon : ∀ w ∈ ws, OnRun s.id w := fun w hmem => (hP w (hw w hmem)).onRun
    rw [hst'] at hr
    by_cases hid : id = s.id
    · rw [hid, hs] at hnone
      cases hnone
    · rw [get?_commit_of_onRun hwon hid, hruns, hnone] at hr
      cases hr
  moves id r r' hr hr' hmoved := by
    have hwon : ∀ w ∈ ws, OnRun s.id w := fun w hmem => (hP w (hw w hmem)).onRun
    rw [hst'] at hr'
    by_cases hid : id = s.id
    · subst hid
      rw [hs] at hr
      cases hr
      rw [get?_commit_onRun hwon (hruns ▸ hs)] at hr'
      cases hr'
      rcases foldl_tracked s hw with hsame | hsaved
      · rw [hsame] at hmoved
        exact absurd rfl hmoved
      · exact hmoves _ hsaved hmoved
    · rw [get?_commit_of_onRun hwon hid, hruns, hr] at hr'
      cases hr'
      exact absurd rfl hmoved

/-- A method that does not await and moves no run. -/
theorem conducts_stays (h : st.OnCourse ch) {s base : WorkflowRun}
    (hs : st.runs.get? s.id = some s) (hid : base.id = s.id)
    (hkey : base.definitionKey = s.definitionKey) (hplace : base.currentState = s.currentState)
    (hfacts : ch.facts base) {ws : List Write}
    (hw : ∀ w ∈ ws, SavesCourse (ch.kind base.definitionKey) (fun _ => False) base w) :
    Conducts ch input st (st.commit coordinator now ws) := by
  have hconforms : ∀ w ∈ ws, Conforms ch s.id s.definitionKey w := by
    intro w hmem
    rw [← hid, ← hkey]
    exact conforms_of_course hfacts (hw w hmem)
  refine conducts_saved st (h.commit ⟨s, hs, rfl⟩ hconforms) rfl hs rfl hw (fun w hsaves => ?_)
    fun r' hsaves hmoved => ?_
  · rw [← hid, ← hkey]
    exact conforms_of_course hfacts hsaves
  · exact absurd (hsaves.same_place.trans hplace) hmoved

end RuntimeState

namespace Runtime

open RuntimeState

variable {ρ : Type} [PyLib] {coordinator : Option (ResourceCoordinator ρ)} {cfg : RuntimeConfig}
  {ch : Charter} {st : RuntimeState ρ} {input : RuntimeInput}

omit [PyLib] in
theorem conducts_self (h : st.OnCourse ch) : Conducts ch input st st := conducts_quiet h rfl

omit [PyLib] in
/-- A call on the stored run. -/
theorem withRun_conducts {st₀ : RuntimeState ρ} {runId : String}
    {f : WorkflowRun → RuntimeState ρ} (h : st.OnCourse ch) (hruns : st₀.runs = st.runs)
    (hnone : Conducts ch input st st₀)
    (hf : ∀ run, st.runs.get? run.id = some run → run.id = runId →
      Conducts ch input st (f run)) : Conducts ch input st (withRun st₀ runId f) := by
  unfold withRun
  rw [hruns]
  split
  · rename_i run hrun
    have hid := h.keyed runId run hrun
    exact hf run (hid ▸ hrun) hid
  · exact hnone

omit [PyLib] in
theorem note_conducts {st' : RuntimeState ρ} (h : Conducts ch input st st')
    (es : List Happening) : Conducts ch input st (st'.note es) :=
  ⟨h.course.congr rfl rfl fun _ _ hc => hc, h.key, h.created, h.moves⟩

omit [PyLib] in
/-- A new run, under an id that no stored run has. -/
theorem conducts_created (h : st.OnCourse ch) {definition : WorkflowDefinition}
    (hkind : ch.kind definition.key definition) {runId : String} {run : WorkflowRun}
    {st' : RuntimeState ρ} (hnew : runId ∉ st.runs.keys)
    (hdefs : st'.definitions = st.definitions.set definition.key definition)
    (hruns : st'.runs = st.runs.set runId run) (hcalls : st'.calls = st.calls)
    (hid : run.id = runId) (hkey : run.definitionKey = definition.key)
    (hstart : run.currentState = definition.startState) (hpoint : run.decisionPoint = none)
    (hfacts : ch.facts run) : Conducts ch input st st' := by
  subst hid
  have hget : ∀ id r, st.runs.get? id = some r → st'.runs.get? id = some r := by
    intro id r hr
    have hne : id ≠ run.id := fun heq => hnew (heq ▸ Dict.mem_keys_of_get? hr)
    rw [hruns, Dict.get?_set_of_ne _ hne]
    exact hr
  have hold : ∀ id r, st'.runs.get? id = some r → id = run.id ∧ r = run ∨
      st.runs.get? id = some r := by
    intro id r hr
    rw [hruns, Dict.get?_set] at hr
    split at hr
    · exact .inl ⟨‹_›, (Option.some.inj hr).symm⟩
    · exact .inr hr
  refine ⟨⟨?_, ?_, ?_, ?_⟩, ?_, ?_, ?_⟩
  · intro key d hd
    rw [hdefs, Dict.get?_set] at hd
    split at hd
    · rename_i hkey
      cases hd
      exact hkey ▸ hkind
    · exact h.definitions key d hd
  · intro id r hr
    rcases hold id r hr with ⟨rfl, rfl⟩ | hr
    · rfl
    · exact h.keyed id r hr
  · intro id r hr
    rcases hold id r hr with ⟨rfl, rfl⟩ | hr
    · refine ⟨fun point hp => ?_, hfacts⟩
      rw [hpoint] at hp
      cases hp
    · exact h.runs id r hr
  · rw [hcalls]
    intro n c hc
    obtain ⟨⟨r, hr, hkey⟩, hcourse⟩ := h.calls n c hc
    exact ⟨⟨r, hget _ _ hr, hkey⟩, hcourse⟩
  · intro id r r' hr hr'
    rw [hget id r hr] at hr'
    cases hr'
    rfl
  · intro id r hnone hr
    rcases hold id r hr with ⟨rfl, rfl⟩ | hr
    · exact ⟨definition, hkey ▸ hkind, hstart⟩
    · rw [hnone] at hr
      cases hr
  · intro id r r' hr hr' hmoved
    rw [hget id r hr] at hr'
    cases hr'
    exact absurd rfl hmoved

theorem start_conducts (h : st.OnCourse ch) (now : ℚ) {definition : WorkflowDefinition}
    (deviceId : String) {context : Dict String Value} {runId : Option String}
    (hok : ch.Permits st (.start definition deviceId context runId)) :
    Conducts ch input st (start coordinator now st definition deviceId context runId).2 := by
  obtain ⟨hkind, hfresh, hfacts⟩ := hok
  have hnew := newRunId_not_mem_keys hfresh
  unfold start
  split
  · exact conducts_self h
  dsimp only
  split
  · exact conducts_created h hkind hnew rfl rfl rfl rfl rfl rfl rfl (hfacts _ rfl rfl)
  · split
    · exact conducts_created h hkind hnew rfl rfl rfl rfl rfl rfl rfl (hfacts _ rfl rfl)
    · refine conducts_quiet ⟨?_, h.keyed, h.runs, h.calls⟩ rfl
      intro key d hd
      dsimp only at hd
      rw [Dict.get?_set] at hd
      split at hd
      · rename_i hkey
        cases hd
        exact hkey ▸ hkind
      · exact h.definitions key d hd

omit [PyLib] in
/-- The same runs of the same workflows, in the same states. -/
structure SamePlaces (st st' : RuntimeState ρ) : Prop where
  kept : ∀ id r, st.runs.get? id = some r → ∃ r', st'.runs.get? id = some r' ∧
    r'.definitionKey = r.definitionKey ∧ r'.currentState = r.currentState
  new : ∀ id, st.runs.get? id = none → st'.runs.get? id = none

/-- An interruption moves no run. -/
theorem interrupt_course (coordinator : Option (ResourceCoordinator ρ)) (h : st.OnCourse ch) (now : ℚ) (runId reason : String) :
    (interrupt coordinator now st runId reason).OnCourse ch ∧
      SamePlaces st (interrupt coordinator now st runId reason) := by
  unfold interrupt withRun
  cases hrun : st.runs.get? runId with
  | none => exact ⟨h, fun id r hr => ⟨r, hr, rfl, rfl⟩, fun _ hnone => hnone⟩
  | some run =>
    have hid : run.id = runId := h.keyed runId run hrun
    have hs : st.runs.get? run.id = some run := hid ▸ hrun
    obtain ⟨hoffers, hfacts⟩ := h.runs _ run hs
    have hw : ∀ w ∈ (markInterrupted now run reason).written,
        SavesCourse (ch.kind run.definitionKey) (fun _ => False) run w :=
      markInterrupted_course now hoffers reason
    have hconducts : Conducts ch .restart st
        (st.commit coordinator now (markInterrupted now run reason).written) :=
      conducts_stays h hs rfl rfl rfl hfacts hw
    have hon : ∀ w ∈ (markInterrupted now run reason).written, OnRun run.id w := fun w hmem =>
      (conforms_of_course hfacts (hw w hmem)).onRun
    refine ⟨(note_conducts hconducts _).course, fun id r hr => ?_, fun id hnone => ?_⟩
    case refine_2 =>
      have hne : id ≠ run.id := fun heq => by
        rw [heq, hs] at hnone
        cases hnone
      exact (get?_commit_of_onRun hon hne).trans hnone
    by_cases hne : id = run.id
    · subst hne
      rw [hs] at hr
      cases hr
      refine ⟨_, get?_commit_onRun hon hs, ?_⟩
      rcases foldl_tracked run hw with hsame | hsaved
      · rw [hsame]
        exact ⟨rfl, rfl⟩
      · exact ⟨hsaved.key, hsaved.same_place⟩
    · exact ⟨r, (get?_commit_of_onRun hon hne).trans hr, rfl, rfl⟩

/-- The same, of several runs in turn. -/
theorem interrupts_course (coordinator : Option (ResourceCoordinator ρ)) (now : ℚ) (reason : String) (runs : List WorkflowRun)
    (h : st.OnCourse ch) :
    (runs.foldl (fun st run => interrupt coordinator now st run.id reason) st).OnCourse ch ∧
      SamePlaces st
        (runs.foldl (fun st run => interrupt coordinator now st run.id reason) st) := by
  induction runs generalizing st with
  | nil => exact ⟨h, fun _ r hr => ⟨r, hr, rfl, rfl⟩, fun _ hnone => hnone⟩
  | cons run runs ih =>
    obtain ⟨hcourse, hsame⟩ := interrupt_course coordinator h now run.id reason
    obtain ⟨hcourse', hsame'⟩ := ih hcourse
    refine ⟨hcourse', fun id r hr => ?_, fun id hnone => hsame'.new id (hsame.new id hnone)⟩
    obtain ⟨r', hr', hkey, hplace⟩ := hsame.kept id r hr
    obtain ⟨r'', hr'', hkey', hplace'⟩ := hsame'.kept id r' hr'
    exact ⟨r'', hr'', hkey'.trans hkey, hplace'.trans hplace⟩

omit [PyLib] in
theorem conducts_of_samePlaces {st' : RuntimeState ρ} (hcourse : st'.OnCourse ch)
    (hsame : SamePlaces st st') : Conducts ch input st st' where
  course := hcourse
  key id r r' hr hr' := by
    obtain ⟨q, hq, hkey, -⟩ := hsame.kept id r hr
    rw [hr'] at hq
    cases hq
    exact hkey
  created id r hnone hr := by
    rw [hsame.new id hnone] at hr
    cases hr
  moves id r r' hr hr' hmoved := by
    obtain ⟨q, hq, -, hplace⟩ := hsame.kept id r hr
    rw [hr'] at hq
    cases hq
    exact absurd hplace hmoved

omit [PyLib] in
/-- An event of a handler or provider. -/
theorem append_conducts (h : st.OnCourse ch) {now : ℚ} {run : WorkflowRun}
    (hrun : st.runs.get? run.id = some run) (event : Event) (actionId : String) :
    Conducts ch input st
      (st.commit coordinator now (appendActionEvent st.events run event actionId).written) := by
  obtain ⟨hoffers, hfacts⟩ := h.runs _ run hrun
  refine conducts_stays h hrun rfl rfl rfl hfacts ?_
  exact Logged.steps_forall.1 (records_course (t := run) hoffers
    (appendActionEvent_records (.refl run) st.events event actionId)).steps

/-- The return of a handler. -/
theorem finish_conducts (h : st.OnCourse ch) (now : ℚ) (call : ℕ) (outcome : HandlerOutcome)
    (hok : ch.Permits st (.finish call outcome)) :
    Conducts ch (.finish call outcome) st
      (step coordinator cfg st (now, .finish call outcome)) := by
  dsimp only [step]
  split
  · rename_i snapshot state action attempt active events hc
    have herase : ∀ n c, (st.calls.erase call).get? n = some c → st.calls.get? n = some c :=
      fun n c hn => get?_of_get?_erase call n c hn
    refine withRun_conducts h rfl (conducts_quiet (h.congr rfl rfl herase) rfl)
      fun run hrun hid => ?_
    have hended : ({ st with
        calls := st.calls.erase call, issued := st.uuid4 :: st.issued } : RuntimeState ρ).OnCourse
          ch := h.congr rfl rfl herase
    obtain ⟨⟨r, hr, hkey⟩, hcourse, -⟩ := h.calls call _ hc
    have heq : r = run := by
      rw [hid] at hrun
      exact Option.some.inj (hr.symm.trans hrun)
    subst heq
    obtain ⟨hoffers, hfacts⟩ := h.runs _ r hrun
    have hfacts' : ch.facts (withActionFacts r action.id outcome.toResult.facts) :=
      hok snapshot state action attempt active events r hc hr
    have hbase : (withActionFacts r action.id outcome.toResult.facts).id = r.id ∧
        (withActionFacts r action.id outcome.toResult.facts).definitionKey = r.definitionKey ∧
        (withActionFacts r action.id outcome.toResult.facts).currentState = r.currentState := by
      unfold withActionFacts
      split <;> exact ⟨rfl, rfl, rfl⟩
    obtain ⟨hbid, hbkey, hbplace⟩ := hbase
    have hstate : StateOf (ch.kind r.definitionKey) state := by
      rw [hkey]
      exact hcourse.state
    have hm := finishTick_course (t := r) cfg now st.uuid4 st.definitions hoffers hstate
      hcourse.action st.events attempt active events outcome.toResult
    have hG : ∀ w, FinishesCourse (ch.kind r.definitionKey)
        (Leads (ch.kind r.definitionKey) st.definitions r state.id) r action.id outcome.toResult w →
        Conforms ch r.id r.definitionKey w := by
      rintro w (hw | hw)
      · exact conforms_of_course hfacts hw
      · have hw' : SavesCourse
            (ch.kind (withActionFacts r action.id outcome.toResult.facts).definitionKey)
            (Leads (ch.kind r.definitionKey) st.definitions r state.id)
            (withActionFacts r action.id outcome.toResult.facts) w := hbkey ▸ hw
        rw [← hbid, ← hbkey]
        exact conforms_of_course hfacts' hw'
    refine conducts_saved { st with calls := st.calls.erase call, issued := st.uuid4 :: st.issued }
      (hended.perform hrun hbid hbkey hfacts' hG hm) rfl hrun
      (runs_perform _ _) (Logged.steps_forall.1 hm.steps) hG
      fun r' hsaves hmoved => ⟨_, hc, hid.symm, ?_⟩
    rcases hsaves with hsaves | hsaves
    · exact hsaves.place.resolve_left hmoved
    · exact hsaves.place.resolve_left fun hplace => hmoved (hplace.trans hbplace)
  · exact conducts_self h

/-- The answer of a provider. -/
theorem reconciled_conducts (h : st.OnCourse ch) (now : ℚ) (call : ℕ) (outcome : ReconcileResult) :
    Conducts ch (.reconciled call outcome) st
      (step coordinator cfg st (now, .reconciled call outcome)) := by
  dsimp only [step]
  split
  · exact conducts_self h
  rename_i c hc
  split
  · exact conducts_self h
  rename_i m hm
  obtain ⟨⟨r, hr, hkey⟩, hcourse, hfacts⟩ := h.calls call c hc
  have hrid : r.id = c.run.id := h.keyed _ _ hr
  let ended : RuntimeState ρ :=
    { st with calls := st.calls.erase call, issued := st.uuid4 :: st.issued }
  have hended : (ended.note
      [.reconciled c.run.id c.state.id outcome.classification]).OnCourse ch :=
    h.congr rfl rfl fun n c hn => get?_of_get?_erase call n c hn
  have hD : ∀ d, definitionOf st.definitions c.run = .ok d → ch.kind c.run.definitionKey d :=
    h.kind_of_definitionOf c.run
  have hwaits : c.Waits := by
    cases c with
    | handler => cases hm
    | reconcile | recover => trivial
  have hsaves : ∀ w ∈ m.written, SavesCourse (ch.kind c.run.definitionKey)
      (Leads (ch.kind c.run.definitionKey) st.definitions c.run c.state.id) c.run w := by
    cases c with
    | handler => cases hm
    | reconcile run state action events =>
      cases hm
      exact Logged.steps_forall.1 (applyReconcile_course (t := run) cfg now st.uuid4 st.definitions
        hD hcourse.offers state.id action.reconcile.onClassification outcome).steps
    | recover run state action recovery events =>
      cases hm
      exact Logged.steps_forall.1 (recovered_course (t := run) cfg now st.uuid4 st.definitions
        hcourse.offers hcourse.state recovery outcome).steps
  have hconforms : ∀ w ∈ m.written, Conforms ch c.run.id c.run.definitionKey w := fun w hmem =>
    conforms_of_course hfacts (hsaves w hmem)
  refine conducts_saved (ended.note [.reconciled c.run.id c.state.id outcome.classification])
    (hended.commit ⟨r, hr, hkey⟩ hconforms) rfl (hrid ▸ hr) rfl hsaves
    (fun w hw => ?_) fun r' hfollows _ => ⟨c, hc, hrid.symm, hwaits, ?_⟩
  · rw [hrid, hkey]
    exact conforms_of_course hfacts hw
  · rw [hkey]
    exact hfollows

/-- One step of a history that keeps the charter. -/
theorem step_conducts (h : st.OnCourse ch) (input : ℚ × RuntimeInput)
    (hok : ch.Permits st input.2) :
    Conducts ch input.2 st (step coordinator cfg st input) := by
  obtain ⟨now, input⟩ := input
  cases input with
  | start definition deviceId context runId => exact start_conducts h now deviceId hok
  | registerDefinition definition =>
    dsimp only [step]
    split
    · refine conducts_quiet ⟨?_, h.keyed, h.runs, h.calls⟩ rfl
      intro key d hd
      dsimp only at hd
      rw [Dict.get?_set] at hd
      split at hd
      · rename_i hkey
        cases hd
        exact hkey ▸ hok
      · exact h.definitions key d hd
    · exact conducts_self h
  | tick runId =>
    refine withRun_conducts h rfl (conducts_self h) fun run hrun hid => ?_
    obtain ⟨hoffers, hfacts⟩ := h.runs _ run hrun
    have hm := tick_course (t := run) cfg now st.uuid4 st.definitions
      (h.kind_of_definitionOf run) hoffers
    have hissued : ({ st with issued := st.uuid4 :: st.issued } : RuntimeState ρ).OnCourse ch :=
      h.congr rfl rfl fun _ _ hc => hc
    refine conducts_saved { st with issued := st.uuid4 :: st.issued } (hissued.perform hrun rfl rfl hfacts
      (fun _ hw => conforms_of_course hfacts hw) hm) rfl hrun (runs_perform _ _)
      (Logged.steps_forall.1 hm.steps) (fun _ hw => conforms_of_course hfacts hw)
      fun r' hsaves hmoved => ?_
    exact hsaves.place.resolve_left hmoved
  | reconcile runId reason =>
    refine withRun_conducts h rfl (conducts_self h) fun run hrun hid => ?_
    obtain ⟨hoffers, hfacts⟩ := h.runs _ run hrun
    have hm := reconcile_course (t := run) cfg st.uuid4 st.definitions
      (h.kind_of_definitionOf run) hoffers reason
    have hissued : ({ st with issued := st.uuid4 :: st.issued } : RuntimeState ρ).OnCourse ch :=
      h.congr rfl rfl fun _ _ hc => hc
    refine conducts_saved { st with issued := st.uuid4 :: st.issued } (hissued.perform hrun rfl rfl hfacts
      (fun _ hw => conforms_of_course hfacts hw) hm) rfl hrun (runs_perform _ _)
      (Logged.steps_forall.1 hm.steps) (fun _ hw => conforms_of_course hfacts hw)
      fun r' hsaves hmoved => ?_
    exact absurd hsaves.same_place hmoved
  | markInterrupted runId reason =>
    obtain ⟨hcourse, hsame⟩ := interrupt_course coordinator h now runId reason
    exact conducts_of_samePlaces hcourse hsame
  | recoverInflight reason limit =>
    obtain ⟨hcourse, hsame⟩ := interrupts_course coordinator now reason
      ((st.runs.values.take limit).filter fun run => run.status.active) h
    exact conducts_of_samePlaces hcourse hsame
  | pause runId =>
    refine withRun_conducts h rfl (conducts_self h) fun run hrun hid => note_conducts ?_ _
    obtain ⟨hoffers, hfacts⟩ := h.runs _ run hrun
    exact conducts_stays h hrun rfl rfl rfl hfacts (pause_course now hoffers)
  | resume runId context =>
    refine withRun_conducts h rfl (conducts_self h) fun run hrun hid => ?_
    refine conducts_stays h hrun ?_ ?_ ?_ (hok run (hid ▸ hrun)) (resume_course run context)
    · rfl
    · rfl
    · rfl
  | cancel runId =>
    refine withRun_conducts h rfl (conducts_self h) fun run hrun hid => ?_
    obtain ⟨-, hfacts⟩ := h.runs _ run hrun
    exact conducts_stays h hrun rfl rfl rfl hfacts (cancel_course run)
  | applyDecision runId submission =>
    refine withRun_conducts h rfl (conducts_self h) fun run hrun hid => ?_
    obtain ⟨hoffers, hfacts⟩ := h.runs _ run hrun
    have hw := Logged.steps_forall.1
      (applyDecision_course (t := run) now st.definitions hoffers submission).steps
    have hnoted : (st.note (decidedNote run submission)).OnCourse ch :=
      h.congr rfl rfl fun _ _ hc => hc
    refine conducts_saved (st.note (decidedNote run submission)) (hnoted.commit ⟨run, hrun, rfl⟩ fun w hmem =>
      conforms_of_course hfacts (hw w hmem)) rfl hrun rfl hw
      (fun _ hsaves => conforms_of_course hfacts hsaves) fun r' hsaves hmoved => ?_
    exact hsaves.place.resolve_left hmoved
  | emit call event =>
    dsimp only [step]
    split
    · exact conducts_self h
    rename_i c hc
    refine withRun_conducts h rfl (conducts_self h) fun run hrun _ => ?_
    have happend : Conducts ch (.emit call event) st (st.commit coordinator now
        (appendActionEvent st.events run event c.action.id).written) :=
      append_conducts h hrun event c.action.id
    split
    · refine ⟨⟨happend.course.definitions, happend.course.keyed, happend.course.runs, ?_⟩,
        happend.key, happend.created, happend.moves⟩
      intro n d hd
      rw [Dict.get?_set] at hd
      split at hd
      · cases hd
        rw [emitted_run]
        obtain ⟨hstored, hcourse, hfacts⟩ := happend.course.calls call c (by rw [calls_commit, hc])
        exact ⟨hstored, hcourse.emitted _, hfacts⟩
      · exact happend.course.calls n d hd
    · exact happend
  | lateEmit runId actionId event =>
    refine withRun_conducts h rfl (conducts_self h) fun run hrun _ => ?_
    exact append_conducts h hrun event actionId
  | finish call outcome => exact finish_conducts h now call outcome hok
  | reconciled call outcome => exact reconciled_conducts h now call outcome
  | abort call => exact conducts_quiet (h.congr rfl rfl (get?_of_get?_erase _)) rfl
  | restart =>
    refine conducts_quiet ⟨?_, h.keyed, h.runs, ?_⟩ rfl
    · intro key d hd
      cases hd
    · intro n c hc
      cases hc

end Runtime

end DeviceShell.Framework
