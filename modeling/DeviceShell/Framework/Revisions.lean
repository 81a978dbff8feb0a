import DeviceShell.Lib.Versioned
import DeviceShell.Framework.Sections

/-!
# Revisions identify the contents of runs

The run store holds the last save of each run, and the saves of the history are its log
(`Extends`). A step writes more of the log. Where a section starts from the stored run and bumps the
revision at each save, the log raises the revisions (`Bumps`); this holds of every section but two.
The facts of a finished action are saved under the revision that the run already has, and the
section after a reconcile saves from the snapshot that its call took, which other saves may have
overtaken. `start` under a stored id begins again at revision 0. `Revising` excludes these three, and
a history meets it exactly when its revisions identify the contents (`revisionsIdentify_iff`).
-/

namespace DeviceShell.Framework

open Logged (Guarantees Steps)
open Versioned (Raise Increasing stored)

/-- The run that a happening stores. -/
def Happening.stored? : Happening → Option WorkflowRun
  | .created run | .saved run => some run
  | _ => none

/-- The runs stored in a history, in order. -/
def saves (history : List Happening) : List WorkflowRun := history.filterMap Happening.stored?

/-- The run that a write saves. -/
def Write.run? : Write → Option WorkflowRun
  | .run r => some r
  | .event _ => none

theorem saves_append (first rest : List Happening) :
    saves (first ++ rest) = saves first ++ saves rest := List.filterMap_append

/-- Each save of a section has a higher revision than the stored run. -/
def Bumps (s : WorkflowRun) : Write → Prop
  | .run r => r.id = s.id ∧ s.revision < r.revision
  | .event _ => True

namespace Runtime

/-! ## The sections that bump the revision -/

/-- A save with a higher revision. -/
theorem save_bumps {s r : WorkflowRun} (hid : r.id = s.id) (hlt : s.revision < r.revision) :
    Guarantees Bumps tracked s (save r) (fun a t => t = a ∧ a = r) := by
  refine Guarantees.bind (Guarantees.write ?_) fun _ _ ht => Guarantees.pure ⟨ht, rfl⟩
  exact ⟨hid, hlt⟩

/-- A section that ends with it. -/
theorem save_bumps' {s r : WorkflowRun} (hid : r.id = s.id) (hlt : s.revision < r.revision) :
    Guarantees Bumps tracked s (save r) (fun _ _ => True) :=
  (save_bumps hid hlt).mono fun _ _ _ => trivial

theorem returned_bumps {s : WorkflowRun} {m : SaveM WorkflowRun}
    (h : Guarantees Bumps tracked s m (fun _ _ => True)) :
    Guarantees Bumps tracked s (do return Outcome.returned (← m)) (fun _ _ => True) :=
  h.bind fun _ _ _ => Guarantees.pure trivial

theorem advance_bumps {s run : WorkflowRun} (hid : run.id = s.id) (hrev : run.revision = s.revision)
    (defs : Definitions) (next trigger : String) :
    Guarantees Bumps tracked s (advance defs run next trigger) (fun _ _ => True) := by
  have hlt : s.revision < run.revision + 1 := by omega
  unfold advance
  refine Guarantees.bind Guarantees.lift fun definition t ht => ?_
  obtain ⟨-, rfl⟩ := ht
  refine Guarantees.ite (fun _ => save_bumps' hid hlt) fun _ => ?_
  refine Guarantees.bind Guarantees.lift fun state t ht => ?_
  obtain ⟨-, rfl⟩ := ht
  exact save_bumps' hid hlt

theorem createDecision_bumps (s : WorkflowRun) (uuid : String) (state : StateNode) (reason : String)
    (error : Option (Dict String Value)) :
    Guarantees Bumps tracked s (createDecision uuid s state reason error) (fun _ _ => True) := by
  have hlt : s.revision < s.revision + 1 := by omega
  unfold createDecision
  exact Guarantees.ite (fun _ => save_bumps' rfl hlt) fun _ => save_bumps' rfl hlt

theorem replaceAttempt_bumps (s : WorkflowRun) (attempt : ActionAttempt) :
    Guarantees Bumps tracked s (replaceAttempt s attempt)
      (fun a t => t = a ∧ a.id = s.id) := by
  unfold replaceAttempt
  refine (save_bumps ?_ ?_).mono fun a t ht => ⟨ht.1, ?_⟩
  · rfl
  · exact Nat.lt_succ_self _
  · rw [ht.2]

theorem appendEvent_bumps (s : WorkflowRun) (events : List Event) (event : Event) :
    Guarantees Bumps tracked s (appendEvent events event) (fun _ t => t = s) := by
  unfold appendEvent
  refine Guarantees.ite (fun _ => ?_) fun _ => ?_
  · split
    · exact Guarantees.pure rfl
    · exact Guarantees.raise _
  · refine Guarantees.bind (Guarantees.write ?_) fun _ t ht => Guarantees.pure ht
    trivial

/-- Progress is recorded in two saves, each with a revision of its own. -/
theorem appendActionEvent_bumps (s : WorkflowRun) (events : List Event) (event : Event)
    (actionId : String) :
    Guarantees Bumps tracked s (appendActionEvent events s event actionId)
      (fun a t => t = a.1 ∧ a.1.id = s.id) := by
  unfold appendActionEvent
  refine Guarantees.bind (appendEvent_bumps s _ _) fun event t ht => ?_
  subst ht
  refine Guarantees.ite (fun _ => ?_) fun _ => Guarantees.pure ⟨rfl, rfl⟩
  split
  · refine Guarantees.bind (replaceAttempt_bumps _ _) fun _ r ht => ?_
    obtain ⟨rfl, hid⟩ := ht
    refine Guarantees.bind (save_bumps ?_ ?_) fun _ r' ht => ?_
    · rfl
    · exact Nat.lt_succ_self _
    obtain ⟨rfl, hr'⟩ := ht
    refine Guarantees.pure ⟨rfl, ?_⟩
    rw [hr']
    exact hid
  · exact Guarantees.pure ⟨rfl, rfl⟩

theorem emitResults_bumps (s : WorkflowRun) (events : List Event) (actionId : String)
    (emitted : List Event) (results : List ResultEvent) :
    Guarantees Bumps tracked s (emitResults events actionId s emitted results)
      (fun a t => t = a.1 ∧ a.1.id = s.id) := by
  induction results generalizing s emitted with
  | nil => exact Guarantees.pure ⟨rfl, rfl⟩
  | cons e rest ih =>
    unfold emitResults
    refine Guarantees.bind (appendActionEvent_bumps s _ _ _) fun a t ht => ?_
    obtain ⟨rfl, hid⟩ := ht
    exact (ih _ _).mono fun b t hb => ⟨hb.1, hb.2.trans hid⟩

section Sections

variable [PyLib] (cfg : RuntimeConfig) (now : ℚ) (uuid : String) (defs : Definitions)

theorem recover_bumps (s : WorkflowRun) (state : StateNode) :
    Guarantees Bumps tracked s (recover cfg now uuid s state) (fun _ _ => True) := by
  have hlt : s.revision < s.revision + 1 := by omega
  unfold recover
  split
  · refine Guarantees.ite (fun _ => Guarantees.pure trivial) fun _ => ?_
    split
    · exact returned_bumps (createDecision_bumps _ _ _ _ _)
    · refine Guarantees.ite (fun _ => returned_bumps (createDecision_bumps _ _ _ _ _)) fun _ => ?_
      exact Guarantees.bind Guarantees.lift fun _ _ _ => Guarantees.pure trivial
  · exact returned_bumps (save_bumps' rfl hlt)

theorem tick_bumps (s : WorkflowRun) :
    Guarantees Bumps tracked s (tick cfg now uuid defs s) (fun _ _ => True) := by
  have hlt : s.revision < s.revision + 1 := by omega
  unfold tick
  refine Guarantees.ite (fun _ => Guarantees.pure trivial) fun _ => ?_
  refine Guarantees.bind Guarantees.lift fun definition t ht => ?_
  obtain ⟨-, rfl⟩ := ht
  refine Guarantees.bind Guarantees.lift fun state t ht => ?_
  obtain ⟨-, rfl⟩ := ht
  refine Guarantees.ite (fun _ => recover_bumps cfg now uuid _ state) fun _ => ?_
  refine Guarantees.ite (fun _ => returned_bumps (save_bumps' rfl hlt)) fun _ => ?_
  split
  · exact Guarantees.ite (fun _ => returned_bumps (advance_bumps rfl rfl _ _ _))
      fun _ => returned_bumps (createDecision_bumps _ _ _ _ _)
  · refine Guarantees.bind (save_bumps rfl hlt) fun _ r _ => ?_
    exact Guarantees.bind Guarantees.lift fun _ _ _ => Guarantees.pure trivial

omit [PyLib] in
theorem reconcile_bumps (s : WorkflowRun) (reason : String) :
    Guarantees Bumps tracked s (reconcile cfg uuid defs s reason) (fun _ _ => True) := by
  unfold reconcile
  refine Guarantees.bind Guarantees.lift fun _ t ht => ?_
  obtain ⟨-, rfl⟩ := ht
  refine Guarantees.bind Guarantees.lift fun state t ht => ?_
  obtain ⟨-, rfl⟩ := ht
  split
  · exact returned_bumps (createDecision_bumps _ _ _ _ _)
  · refine Guarantees.ite (fun _ => returned_bumps (createDecision_bumps _ _ _ _ _)) fun _ => ?_
    exact Guarantees.bind Guarantees.lift fun _ _ _ => Guarantees.pure trivial

theorem markInterrupted_bumps (s : WorkflowRun) (reason : String) :
    Guarantees Bumps tracked s (markInterrupted now s reason) (fun _ _ => True) := by
  have hlt : s.revision < s.revision + 1 := by omega
  unfold markInterrupted
  exact Guarantees.ite (fun _ => Guarantees.pure trivial) fun _ => save_bumps' rfl hlt

theorem pause_bumps (s : WorkflowRun) :
    Guarantees Bumps tracked s (pause now s) (fun _ _ => True) := by
  have hlt : s.revision < s.revision + 1 := by omega
  unfold pause
  exact Guarantees.ite (fun _ => Guarantees.pure trivial) fun _ => save_bumps' rfl hlt

omit [PyLib] in
theorem resume_bumps (s : WorkflowRun) (context : Dict String Value) :
    Guarantees Bumps tracked s (resume s context) (fun _ _ => True) := by
  have hlt : s.revision < s.revision + 1 := by omega
  unfold resume
  exact Guarantees.ite (fun _ => save_bumps' rfl hlt) fun _ => Guarantees.pure trivial

omit [PyLib] in
theorem cancel_bumps (s : WorkflowRun) :
    Guarantees Bumps tracked s (cancel s) (fun _ _ => True) := by
  have hlt : s.revision < s.revision + 1 := by omega
  unfold cancel
  exact Guarantees.ite (fun _ => Guarantees.pure trivial) fun _ => save_bumps' rfl hlt

theorem applyDecision_bumps (s : WorkflowRun) (submission : DecisionSubmission) :
    Guarantees Bumps tracked s (applyDecision now defs s submission) (fun _ _ => True) := by
  have hlt : s.revision < s.revision + 1 := by omega
  unfold applyDecision
  refine Guarantees.bind Guarantees.lift fun option t ht => ?_
  obtain ⟨-, rfl⟩ := ht
  dsimp only
  refine Guarantees.ite (fun _ => save_bumps' ?_ ?_) fun _ => ?_
  · rfl
  · exact hlt
  refine Guarantees.ite (fun _ => save_bumps' ?_ ?_) fun _ => ?_
  · rfl
  · exact hlt
  refine Guarantees.ite (fun _ => save_bumps' ?_ ?_) fun _ => ?_
  · rfl
  · exact hlt
  refine Guarantees.ite (fun _ => save_bumps' ?_ ?_) fun _ => ?_
  · rfl
  · exact hlt
  refine Guarantees.bind Guarantees.lift fun definition t' ht => ?_
  obtain ⟨-, rfl⟩ := ht
  refine Guarantees.ite (fun _ => advance_bumps ?_ ?_ _ _ _) fun _ => save_bumps' ?_ ?_
  · rfl
  · rfl
  · rfl
  · exact hlt

/-! ## The sections that may not -/

/-- The writes of a section that begins with a save over the snapshot `run` and then bumps. -/
def OverSnapshot (run : WorkflowRun) (ws : List Write) : Prop :=
  ∃ r rest, ws = .run r :: rest ∧ r.id = run.id ∧ r.revision = run.revision + 1 ∧
    Steps Bumps tracked r rest

omit [PyLib] in
/-- A section that saves over a snapshot, and goes on from the run that it saved. -/
theorem overSnapshot_bind {run r : WorkflowRun} (hid : r.id = run.id)
    (hrev : r.revision = run.revision + 1) {f : WorkflowRun → SaveM WorkflowRun}
    (hf : Guarantees Bumps tracked r (f r) (fun _ _ => True)) :
    OverSnapshot run (save r >>= f).written :=
  ⟨r, (f r).written, rfl, hid, hrev, hf.steps⟩

omit [PyLib] in
theorem overSnapshot_save {run r : WorkflowRun} (hid : r.id = run.id)
    (hrev : r.revision = run.revision + 1) : OverSnapshot run (save r).written :=
  ⟨r, [], rfl, hid, hrev, trivial⟩

theorem applyReconcile_overSnapshot (run : WorkflowRun) (stateId : String)
    (mapping : Dict String String) (outcome : ReconcileResult) :
    OverSnapshot run (applyReconcile cfg now uuid defs run stateId mapping outcome).written := by
  unfold applyReconcile
  dsimp only
  split
  · exact overSnapshot_save rfl rfl
  refine overSnapshot_bind ?_ ?_ ?_
  · rfl
  · rfl
  refine Guarantees.bind Guarantees.lift fun definition t ht => ?_
  obtain ⟨-, rfl⟩ := ht
  refine Guarantees.bind Guarantees.lift fun state t ht => ?_
  obtain ⟨-, rfl⟩ := ht
  refine Guarantees.ite (fun _ => advance_bumps rfl rfl _ _ _) fun _ => ?_
  refine Guarantees.ite (fun _ => ?_) fun _ => createDecision_bumps _ _ _ _ _
  split
  · refine Guarantees.ite (fun _ => save_bumps' rfl ?_) fun _ => createDecision_bumps _ _ _ _ _
    exact Nat.lt_succ_self _
  · exact createDecision_bumps _ _ _ _ _

theorem recovered_overSnapshot (run : WorkflowRun) (state : StateNode)
    (recovery : Dict String Value) (outcome : ReconcileResult) :
    OverSnapshot run (recovered cfg now uuid defs run state recovery outcome).written := by
  unfold recovered
  dsimp only
  split
  · refine overSnapshot_bind ?_ ?_ (advance_bumps ?_ ?_ _ _ _) <;> rfl
  split
  · exact overSnapshot_save rfl rfl
  split
  · exact overSnapshot_save rfl rfl
  · refine overSnapshot_bind ?_ ?_ (createDecision_bumps _ _ _ _ _) <;> rfl

/-- The section after a provider's answer saves over the snapshot of its call. -/
theorem resumeReconcile_overSnapshot {call : Call} {outcome : ReconcileResult}
    {m : SaveM WorkflowRun} (hm : resumeReconcile cfg now uuid defs call outcome = some m) :
    OverSnapshot call.run m.written := by
  cases call with
  | handler => cases hm
  | reconcile run state action _ =>
    obtain rfl := Option.some.inj hm
    exact applyReconcile_overSnapshot cfg now uuid defs run _ _ _
  | recover run state _ recovery _ =>
    obtain rfl := Option.some.inj hm
    exact recovered_overSnapshot cfg now uuid defs run _ _ _

/-- The end of a handler whose events cannot be stored writes what was emitted before. -/
theorem finishTick_of_error {events : List Event} {s : WorkflowRun} {state : StateNode}
    {action : ActionSpec} {attempt active : ActionAttempt} {emitted : List Event}
    {result : ActionResult} {e : PyError}
    (h : (emitResults events action.id s emitted result.events).result = .error e) :
    (finishTick cfg now uuid defs events s state action attempt active emitted result).written =
      (emitResults events action.id s emitted result.events).written := by
  change (Logged.andThen _ _).written = _
  rw [Logged.andThen, h]

/-- Otherwise it saves the facts, under the revision that the run has after the events. -/
theorem finishTick_of_ok {events : List Event} {s : WorkflowRun} (state : StateNode)
    {action : ActionSpec} (attempt active : ActionAttempt) {emitted : List Event}
    {result : ActionResult} {run : WorkflowRun} {emitted' : List Event}
    (h : (emitResults events action.id s emitted result.events).result = .ok (run, emitted')) :
    ∃ rest,
      (finishTick cfg now uuid defs events s state action attempt active emitted result).written =
        (emitResults events action.id s emitted result.events).written ++
          .run (withActionFacts run action.id result.facts) :: rest := by
  change ∃ rest, (Logged.andThen _ _).written = _
  rw [Logged.andThen, h]
  exact ⟨_, rfl⟩

end Sections

/-- The facts of an action leave the id and the revision. -/
theorem withActionFacts_keeps (run : WorkflowRun) (actionId : String) (facts : Dict String Value) :
    (withActionFacts run actionId facts).id = run.id ∧
      (withActionFacts run actionId facts).revision = run.revision := by
  unfold withActionFacts
  split <;> exact ⟨rfl, rfl⟩

end Runtime

namespace RuntimeState

variable {ρ : Type} {coordinator : Option (ResourceCoordinator ρ)} {now : ℚ}

/-! ## The log of the saves -/

/-- The second state has stored the runs of a log since the first. -/
structure Extends (st st' : RuntimeState ρ) (log : List WorkflowRun) : Prop where
  saves : saves st'.history = saves st.history ++ log
  runs : st'.runs = stored WorkflowRun.id st.runs log

/-- The second state has stored runs since the first, each with a higher revision than before. -/
def Grows (st st' : RuntimeState ρ) : Prop :=
  ∃ log, Extends st st' log ∧ Raise WorkflowRun.id WorkflowRun.revision st.runs log

theorem Extends.congr {st st' st'' : RuntimeState ρ} {log : List WorkflowRun}
    (h : Extends st st' log) (hruns : st''.runs = st'.runs)
    (hsaves : Framework.saves st''.history = Framework.saves st'.history) : Extends st st'' log :=
  ⟨hsaves.trans h.saves, hruns.trans h.runs⟩

theorem Extends.trans {st st' st'' : RuntimeState ρ} {first rest : List WorkflowRun}
    (h : Extends st st' first) (h' : Extends st' st'' rest) : Extends st st'' (first ++ rest) where
  saves := by rw [h'.saves, h.saves, List.append_assoc]
  runs := by rw [h'.runs, h.runs, Versioned.stored_append]

theorem Grows.congr {st st' st'' : RuntimeState ρ} (h : Grows st st')
    (hruns : st''.runs = st'.runs)
    (hsaves : Framework.saves st''.history = Framework.saves st'.history) : Grows st st'' := by
  obtain ⟨log, hlog, hraise⟩ := h
  exact ⟨log, hlog.congr hruns hsaves, hraise⟩

theorem Grows.refl (st : RuntimeState ρ) : Grows st st :=
  ⟨[], ⟨(List.append_nil _).symm, rfl⟩, trivial⟩

/-- A step that stores no run. -/
theorem Grows.same {st st' : RuntimeState ρ} (hruns : st'.runs = st.runs)
    (hsaves : Framework.saves st'.history = Framework.saves st.history) : Grows st st' :=
  (Grows.refl st).congr hruns hsaves

theorem Grows.trans {st st' st'' : RuntimeState ρ} (h : Grows st st') (h' : Grows st' st'') :
    Grows st st'' := by
  obtain ⟨first, hfirst, hraise⟩ := h
  obtain ⟨rest, hrest, hraise'⟩ := h'
  refine ⟨first ++ rest, hfirst.trans hrest, Versioned.raise_append.2 ⟨hraise, ?_⟩⟩
  rw [← hfirst.runs]
  exact hraise'

/-- A happening that stores no run leaves the saves. -/
theorem saves_note (st : RuntimeState ρ) {es : List Happening} (h : ∀ e ∈ es, e.stored? = none) :
    Framework.saves (st.note es).history = Framework.saves st.history := by
  have hes : Framework.saves es = [] := List.filterMap_eq_nil_iff.2 h
  rw [note, saves_append, hes, List.append_nil]

variable (coordinator now) in
/-- The writes of a section extend the log by the runs that it saves. -/
theorem commit_extends (st : RuntimeState ρ) (ws : List Write) :
    Extends st (st.commit coordinator now ws) (ws.filterMap Write.run?) := by
  induction ws generalizing st with
  | nil => exact ⟨(List.append_nil _).symm, rfl⟩
  | cons w ws ih =>
    have htail : Extends (st.apply coordinator now w) (st.commit coordinator now (w :: ws))
      (ws.filterMap Write.run?) := ih _
    cases w with
    | event e => exact ⟨htail.saves, htail.runs⟩
    | run r =>
      have hasked : Framework.saves (askedBy st r) = [] := by
        refine List.filterMap_eq_nil_iff.2 fun e he => ?_
        obtain ⟨point, -, rfl⟩ := mem_askedBy he
        rfl
      have hhead : Extends st (st.apply coordinator now (.run r)) [r] := by
        constructor
        · rw [history_apply_run, saves_append]
          change _ ++ r :: Framework.saves (askedBy st r) = _
          rw [hasked]
        · rw [RuntimeState.apply, releaseTerminal_runs]
          rfl
      exact hhead.trans htail

/-- The writes of a section that bumps raise the revisions of a store that holds its run. -/
theorem raise_of_bumps {runs : Dict String WorkflowRun} {s : WorkflowRun}
    (hs : runs.get? s.id = some s) {ws : List Write} (hw : Steps Bumps tracked s ws) :
    Raise WorkflowRun.id WorkflowRun.revision runs (ws.filterMap Write.run?) := by
  induction ws generalizing runs s with
  | nil => trivial
  | cons w ws ih =>
    cases w with
    | event e => exact ih hs hw.2
    | run r =>
      obtain ⟨⟨hid, hlt⟩, hrest⟩ := hw
      refine ⟨fun q hq => ?_, ih (Dict.get?_set_self _ _ _) hrest⟩
      rw [hid, hs] at hq
      obtain rfl := Option.some.inj hq
      exact hlt

/-- A store holds the run that such writes leave. -/
theorem stored_of_bumps {runs : Dict String WorkflowRun} {s : WorkflowRun}
    (hs : runs.get? s.id = some s) {ws : List Write} (hw : Steps Bumps tracked s ws) :
    (stored WorkflowRun.id runs (ws.filterMap Write.run?)).get? s.id =
      some (ws.foldl tracked s) := by
  induction ws generalizing runs s with
  | nil => exact hs
  | cons w ws ih =>
    cases w with
    | event e => exact ih hs hw.2
    | run r =>
      obtain ⟨⟨hid, -⟩, hrest⟩ := hw
      rw [← hid]
      exact ih (Dict.get?_set_self _ _ _) hrest

variable (coordinator now) in
/-- A section of a stored run that bumps. -/
theorem commit_grows (st : RuntimeState ρ) {s : WorkflowRun} (hs : st.runs.get? s.id = some s)
    {ws : List Write} (hw : Steps Bumps tracked s ws) : Grows st (st.commit coordinator now ws) :=
  ⟨_, commit_extends coordinator now st ws, raise_of_bumps hs hw⟩

/-- A suspension stores no run. -/
theorem saves_perform [PyLib] (st : RuntimeState ρ) (m : SaveM Outcome) :
    Framework.saves (st.perform coordinator now m).history =
      Framework.saves (st.commit coordinator now m.written).history := by
  unfold RuntimeState.perform
  dsimp only
  split
  · rename_i call _
    obtain ⟨-, -, -, hhistory⟩ :=
      executionRun_frame coordinator now (st.commit coordinator now m.written) call.run
    have hstarted : Framework.saves (startedBy call) = [] := by
      cases call <;> rfl
    unfold RuntimeState.suspend
    split
    · rename_i he
      rw [he] at hhistory
      rw [hhistory]
    · rename_i he
      rw [he] at hhistory
      rw [saves_append, hhistory, hstarted, List.append_nil]
  · rfl

variable (coordinator now) in
theorem perform_extends [PyLib] (st : RuntimeState ρ) (m : SaveM Outcome) :
    Extends st (st.perform coordinator now m) (m.written.filterMap Write.run?) :=
  (commit_extends coordinator now st m.written).congr (runs_perform st m) (saves_perform st m)

variable (coordinator now) in
theorem perform_grows [PyLib] (st : RuntimeState ρ) {s : WorkflowRun}
    (hs : st.runs.get? s.id = some s) {m : SaveM Outcome} (hw : Steps Bumps tracked s m.written) :
    Grows st (st.perform coordinator now m) :=
  ⟨_, perform_extends coordinator now st m, raise_of_bumps hs hw⟩

/-- Every run is stored under its own id. -/
def OwnIds (st : RuntimeState ρ) : Prop := ∀ id r, st.runs.get? id = some r → r.id = id

theorem OwnIds.extends {st st' : RuntimeState ρ} (h : st.OwnIds) {log : List WorkflowRun}
    (hlog : Extends st st' log) : st'.OwnIds := by
  intro id r hr
  rw [hlog.runs] at hr
  rcases Versioned.get?_stored hr with ⟨-, hid⟩ | hold
  · exact hid
  · exact h id r hold

end RuntimeState

namespace Runtime

open RuntimeState

section Machine

variable {ρ : Type} [PyLib] (coordinator : Option (ResourceCoordinator ρ)) (cfg : RuntimeConfig)

/-- A `start` that is not refused: its definition is valid, and its device is leased to it. -/
def admits (now : ℚ) (st : RuntimeState ρ) (definition : WorkflowDefinition) (deviceId : String)
    (context : Dict String Value) (runId : Option String) : Bool :=
  definition.validate.isOk &&
    match coordinator with
    | none => true
    | some c =>
      let ownerId := Value.strOr (context.get? "resource_owner_id") (st.newRunId runId)
      (c.acquire now st.resources ⟨"device", deviceId, ownerId, 900⟩).1.isOk

/-- A handler ends that is suspended for a stored run, and the events of its result can be
stored. -/
def storesEvents (st : RuntimeState ρ) (call : ℕ) (outcome : HandlerOutcome) : Bool :=
  match st.calls.get? call with
  | some (.handler snapshot _ action _ _ emitted) =>
    match st.runs.get? snapshot.id with
    | some run =>
      (emitResults st.events action.id run emitted outcome.toResult.events).result.isOk
    | none => false
  | _ => false

/-- The call waits for a reconcile provider. -/
def waitsForProvider : Call → Bool
  | .handler .. => false
  | .reconcile .. | .recover .. => true

/-- The inputs under which revisions identify the contents of runs: a run is started under a new
id, no handler ends whose facts are saved, and a provider answers only where its run has not been
saved since the call took its snapshot. -/
def Revising (st : RuntimeState ρ) (input : ℚ × RuntimeInput) : Prop :=
  match input.2 with
  | .start definition deviceId context runId =>
    admits coordinator input.1 st definition deviceId context runId = true →
      st.newRunId runId ∉ st.runs.keys
  | .finish call outcome => storesEvents st call outcome = false
  | .reconciled call _ => ∀ c ∈ st.calls.get? call, waitsForProvider c = true →
      ∀ run ∈ st.runs.get? c.run.id, run.revision ≤ c.run.revision
  | _ => True

/-- What a step does to the log: it raises the revisions exactly under the condition. -/
def Logs (st st' : RuntimeState ρ) (ok : Prop) : Prop :=
  ∃ log, Extends st st' log ∧ (Raise WorkflowRun.id WorkflowRun.revision st.runs log ↔ ok)

variable {coordinator cfg} {st : RuntimeState ρ}

omit [PyLib] in
theorem logs_of_grows {st' : RuntimeState ρ} (h : Grows st st') {ok : Prop} (hok : ok) :
    Logs st st' ok := by
  obtain ⟨log, hlog, hraise⟩ := h
  exact ⟨log, hlog, iff_of_true hraise hok⟩

omit [PyLib] in
theorem withRun_grows (h : st.OwnIds) {runId : String} {f : WorkflowRun → RuntimeState ρ}
    (hf : ∀ run, st.runs.get? run.id = some run → run.id = runId → Grows st (f run)) :
    Grows st (withRun st runId f) := by
  unfold withRun
  split
  · rename_i run hrun
    have hid : run.id = runId := h runId run hrun
    exact hf run (hid.symm ▸ hrun) hid
  · exact .refl st

omit [PyLib] in
/-- A fence note stores no run. -/
theorem saves_fenceNote (st : RuntimeState ρ) (run : WorkflowRun) (m : SaveM WorkflowRun) :
    saves (st.note (fenceNote run m)).history = saves st.history := by
  refine saves_note st fun e he => ?_
  unfold fenceNote at he
  split at he
  · cases he
  · obtain rfl := List.mem_singleton.1 he
    rfl

variable (coordinator) in
theorem interrupt_grows (h : st.OwnIds) (now : ℚ) (runId reason : String) :
    Grows st (interrupt coordinator now st runId reason) := by
  refine withRun_grows h fun run hrun _ => ?_
  have hgrows := commit_grows coordinator now _ hrun (markInterrupted_bumps now run reason).steps
  exact hgrows.congr rfl (saves_fenceNote _ _ _)

theorem interrupts_grows (h : st.OwnIds) (now : ℚ) (reason : String) (runs : List WorkflowRun) :
    Grows st (runs.foldl (fun st run => interrupt coordinator now st run.id reason) st) := by
  induction runs generalizing st with
  | nil => exact .refl st
  | cons run runs ih =>
    have hone := interrupt_grows coordinator h now run.id reason
    obtain ⟨log, hlog, -⟩ := id hone
    exact hone.trans (ih (h.extends hlog))

/-- A `start` stores its run at revision 0, under its id. -/
theorem start_logs (now : ℚ) (definition : WorkflowDefinition) (deviceId : String)
    (context : Dict String Value) (runId : Option String) :
    Logs st (start coordinator now st definition deviceId context runId).2
      (admits coordinator now st definition deviceId context runId = true →
        st.newRunId runId ∉ st.runs.keys) := by
  have hstored : ∀ (st' : RuntimeState ρ) (run : WorkflowRun), run.id = st.newRunId runId →
      run.revision = 0 → st'.runs = st.runs.set run.id run →
      st'.history = st.history ++ [.created run] → Logs st st' (st.newRunId runId ∉ st.runs.keys) := by
    intro st' run hid hrev hruns hhistory
    refine ⟨[run], ⟨?_, hruns⟩, ?_⟩
    · rw [hhistory, saves_append]
      rfl
    · have hnone : (∀ q ∈ st.runs.get? run.id, q.revision < run.revision) ↔
          st.runs.get? run.id = none := by
        rw [hrev, Option.eq_none_iff_forall_not_mem]
        exact forall₂_congr fun q _ => iff_false_intro (Nat.not_lt_zero _)
      rw [Raise, Raise, and_true, hnone, Dict.get?_eq_none_iff, hid]
  unfold start admits
  split
  · rename_i e he
    exact logs_of_grows (.refl st) (by simp [he, Except.isOk, Except.toBool])
  rename_i he
  simp only [he, Except.isOk, Except.toBool, Bool.true_and]
  cases coordinator with
  | none =>
    simp only [true_implies]
    exact hstored _ _ rfl rfl rfl rfl
  | some c =>
    dsimp only
    split
    · rename_i lease resources ha
      have ha' : c.acquire now st.resources ⟨"device", deviceId,
        Value.strOr (context.get? "resource_owner_id") (st.newRunId runId), 900⟩ =
          (.ok lease, resources) := ha
      simp only [ha', true_implies]
      refine hstored _ _ ?_ ?_ ?_ rfl <;> rfl
    · rename_i e resources ha
      have ha' : c.acquire now st.resources ⟨"device", deviceId,
        Value.strOr (context.get? "resource_owner_id") (st.newRunId runId), 900⟩ =
          (.error e, resources) := ha
      simp only [ha', Bool.false_eq_true, false_implies]
      refine logs_of_grows (.same ?_ ?_) trivial <;> rfl

/-- The end of a handler repeats a revision exactly when it saves the facts. -/
theorem finishTick_raise_iff (now : ℚ) (uuid : String) (defs : Definitions) {run : WorkflowRun}
    {runs : Dict String WorkflowRun} (hrun : runs.get? run.id = some run) (events : List Event)
    (state : StateNode) (action : ActionSpec) (attempt active : ActionAttempt)
    (emitted : List Event) (result : ActionResult) :
    Raise WorkflowRun.id WorkflowRun.revision runs
        ((finishTick cfg now uuid defs events run state action attempt active emitted
          result).written.filterMap Write.run?) ↔
      (emitResults events action.id run emitted result.events).result.isOk = false := by
  have hemit := emitResults_bumps run events action.id emitted result.events
  cases hr : (emitResults events action.id run emitted result.events).result with
  | error e =>
    rw [finishTick_of_error cfg now uuid defs hr]
    exact iff_of_true (raise_of_bumps hrun hemit.steps) rfl
  | ok a =>
    obtain ⟨last, emitted'⟩ := a
    obtain ⟨rest, hwritten⟩ := finishTick_of_ok cfg now uuid defs state attempt active hr
    obtain ⟨hlast, hid⟩ := hemit.returned _ hr
    have hget := stored_of_bumps hrun hemit.steps
    obtain ⟨hkeep, hrev⟩ := withActionFacts_keeps last action.id result.facts
    rw [hwritten, List.filterMap_append, Versioned.raise_append]
    refine iff_of_false (fun h => ?_) (by simp [Except.isOk, Except.toBool])
    have hlt := h.2.1 last (by rw [hkeep, hid, hget, hlast]; rfl)
    omega

theorem finish_logs (h : st.OwnIds) (now : ℚ) (call : ℕ) (outcome : HandlerOutcome) :
    Logs st (step coordinator cfg st (now, .finish call outcome))
      (storesEvents st call outcome = false) := by
  simp only [step, storesEvents]
  cases hc : st.calls.get? call with
  | none => exact logs_of_grows (.refl st) rfl
  | some c =>
    cases c with
    | reconcile | recover => exact logs_of_grows (.refl st) rfl
    | handler snapshot state action attempt active emitted =>
      dsimp only
      unfold withRun
      dsimp only
      cases hrun : st.runs.get? snapshot.id with
      | none => refine logs_of_grows (.same ?_ ?_) rfl <;> rfl
      | some run =>
        have hid : run.id = snapshot.id := h snapshot.id run hrun
        have hstored : st.runs.get? run.id = some run := hid.symm ▸ hrun
        have hlog := perform_extends coordinator now
          { st with calls := st.calls.erase call, issued := st.uuid4 :: st.issued }
          (finishTick cfg now st.uuid4 st.definitions st.events run state action attempt active
            emitted outcome.toResult)
        exact ⟨_, ⟨hlog.saves, hlog.runs⟩, finishTick_raise_iff now _ _ hstored _ _ _ _ _ _ _⟩

/-- A provider's answer is saved over a snapshot, which must not be older than the stored run. -/
theorem reconciled_logs (now : ℚ) (call : ℕ) (outcome : ReconcileResult) :
    Logs st (step coordinator cfg st (now, .reconciled call outcome))
      (∀ c ∈ st.calls.get? call, waitsForProvider c = true →
        ∀ run ∈ st.runs.get? c.run.id, run.revision ≤ c.run.revision) := by
  simp only [step]
  cases hc : st.calls.get? call with
  | none => exact logs_of_grows (.refl st) (fun _ h => by cases h)
  | some c =>
    dsimp only
    cases hm : resumeReconcile cfg now st.uuid4 st.definitions c outcome with
    | none =>
      have hhandler : waitsForProvider c = false := by
        cases c with
        | handler => rfl
        | reconcile | recover => cases hm
      refine logs_of_grows (.refl st) fun c' hc' hwaits => ?_
      obtain rfl := Option.some.inj hc'
      rw [hhandler] at hwaits
      cases hwaits
    | some m =>
      have hwaits : waitsForProvider c = true := by
        cases c with
        | handler => cases hm
        | reconcile | recover => rfl
      obtain ⟨r, rest, hwritten, hid, hrev, hrest⟩ :=
        resumeReconcile_overSnapshot cfg now st.uuid4 st.definitions hm
      have hlog := commit_extends coordinator now
        ({ st with calls := st.calls.erase call, issued := st.uuid4 :: st.issued }.note
          [.reconciled c.run.id c.state.id outcome.classification]) m.written
      have hnone : ∀ e ∈ [Happening.reconciled c.run.id c.state.id outcome.classification],
          e.stored? = none := by
        intro e he
        obtain rfl := List.mem_singleton.1 he
        rfl
      have hsaves := saves_note
        { st with calls := st.calls.erase call, issued := st.uuid4 :: st.issued } hnone
      refine ⟨_, ⟨hlog.saves.trans (by rw [hsaves]), hlog.runs⟩, ?_⟩
      have htail : Raise WorkflowRun.id WorkflowRun.revision (st.runs.set r.id r)
          (rest.filterMap Write.run?) := raise_of_bumps (Dict.get?_set_self _ _ _) hrest
      have hraise : Raise WorkflowRun.id WorkflowRun.revision st.runs
          (m.written.filterMap Write.run?) ↔
            ∀ run ∈ st.runs.get? c.run.id, run.revision < c.run.revision + 1 := by
        rw [hwritten]
        change (_ ∧ Raise _ _ _ (rest.filterMap Write.run?)) ↔ _
        rw [and_iff_left htail, hid, hrev]
      rw [hraise]
      constructor
      · intro hlt c' hc' _ run hrun
        obtain rfl := Option.some.inj hc'
        exact Nat.lt_succ_iff.1 (hlt run hrun)
      · intro hle run hrun
        exact Nat.lt_succ_iff.2 (hle c rfl hwaits run hrun)

omit [PyLib] in
theorem saves_decidedNote (st : RuntimeState ρ) (run : WorkflowRun)
    (submission : DecisionSubmission) :
    saves (st.note (decidedNote run submission)).history = saves st.history := by
  refine saves_note st fun e he => ?_
  unfold decidedNote at he
  split at he
  · obtain rfl := List.mem_singleton.1 he
    rfl
  · cases he

variable (coordinator) in
omit [PyLib] in
/-- An event may be emitted at any time. -/
theorem appendActionEvent_grows {run : WorkflowRun} (hrun : st.runs.get? run.id = some run)
    (now : ℚ) (event : Event) (actionId : String) :
    Grows st (st.commit coordinator now
      (appendActionEvent st.events run event actionId).written) :=
  commit_grows coordinator now _ hrun (appendActionEvent_bumps run st.events event actionId).steps

/-- One step raises the revisions exactly under the condition. -/
theorem step_logs (h : st.OwnIds) (input : ℚ × RuntimeInput) :
    Logs st (step coordinator cfg st input) (Revising coordinator st input) := by
  obtain ⟨now, input⟩ := input
  cases input with
  | start definition deviceId context runId => exact start_logs now definition deviceId context runId
  | finish call outcome => exact finish_logs h now call outcome
  | reconciled call outcome => exact reconciled_logs now call outcome
  | registerDefinition definition =>
    refine logs_of_grows ?_ trivial
    dsimp only [step]
    split
    · exact .same rfl rfl
    · exact .refl st
  | tick runId =>
    refine logs_of_grows (withRun_grows h fun run hrun _ => ?_) trivial
    have hissued : Grows st { st with issued := st.uuid4 :: st.issued } := .same rfl rfl
    exact hissued.trans (perform_grows coordinator now
      { st with issued := st.uuid4 :: st.issued } hrun
      (tick_bumps cfg now st.uuid4 st.definitions run).steps)
  | reconcile runId reason =>
    refine logs_of_grows (withRun_grows h fun run hrun _ => ?_) trivial
    have hissued : Grows st { st with issued := st.uuid4 :: st.issued } := .same rfl rfl
    exact hissued.trans (perform_grows coordinator now
      { st with issued := st.uuid4 :: st.issued } hrun
      (reconcile_bumps cfg st.uuid4 st.definitions run reason).steps)
  | markInterrupted runId reason =>
    exact logs_of_grows (interrupt_grows coordinator h now runId reason) trivial
  | recoverInflight reason limit =>
    exact logs_of_grows (interrupts_grows h now reason _) trivial
  | pause runId =>
    refine logs_of_grows (withRun_grows h fun run hrun _ => ?_) trivial
    have hgrows := commit_grows coordinator now _ hrun (pause_bumps now run).steps
    exact hgrows.congr rfl (saves_fenceNote _ _ _)
  | resume runId context =>
    refine logs_of_grows (withRun_grows h fun run hrun _ => ?_) trivial
    exact commit_grows coordinator now _ hrun (resume_bumps run context).steps
  | cancel runId =>
    refine logs_of_grows (withRun_grows h fun run hrun _ => ?_) trivial
    exact commit_grows coordinator now _ hrun (cancel_bumps run).steps
  | applyDecision runId submission =>
    refine logs_of_grows (withRun_grows h fun run hrun _ => ?_) trivial
    have hnote : Grows st (st.note (decidedNote run submission)) :=
      .same rfl (saves_decidedNote st run submission)
    exact hnote.trans (commit_grows coordinator now (st.note (decidedNote run submission)) hrun
      (applyDecision_bumps now st.definitions run submission).steps)
  | emit call event =>
    refine logs_of_grows ?_ trivial
    dsimp only [step]
    split
    · exact .refl st
    rename_i c hc
    refine withRun_grows h fun run hrun _ => ?_
    have hgrows := appendActionEvent_grows coordinator hrun now event c.action.id
    split
    · exact hgrows.congr rfl rfl
    · exact hgrows
  | lateEmit runId actionId event =>
    refine logs_of_grows (withRun_grows h fun run hrun _ => ?_) trivial
    exact appendActionEvent_grows coordinator hrun now event actionId
  | abort call =>
    refine logs_of_grows ?_ trivial
    exact .same rfl rfl
  | restart =>
    refine logs_of_grows ?_ trivial
    exact .same rfl rfl

variable (coordinator cfg) in
/-- What a run does to the log. -/
theorem run_logs (h : st.OwnIds) (inputs : List (ℚ × RuntimeInput)) :
    Logs st (Machine.run (step coordinator cfg) st inputs)
      (Machine.Meets (step coordinator cfg) (Revising coordinator) st inputs) := by
  induction inputs generalizing st with
  | nil => exact logs_of_grows (.refl st) trivial
  | cons i rest ih =>
    have hstep : Logs st (step coordinator cfg st i) (Revising coordinator st i) := step_logs h i
    obtain ⟨first, hfirst, hraise⟩ := hstep
    obtain ⟨log, hlog, hraise'⟩ := ih (h.extends hfirst)
    refine ⟨first ++ log, hfirst.trans hlog, ?_⟩
    rw [Versioned.raise_append, hraise, ← hfirst.runs, hraise']
    rfl

end Machine

/-- Revisions identify the contents of runs. -/
structure RevisionsIdentify {ρ : Type} (st : RuntimeState ρ) : Prop where
  /-- The revisions saved for each run id increase strictly. -/
  increasing : Increasing WorkflowRun.id WorkflowRun.revision (saves st.history)
  /-- Two saves of a run with the same revision have the same content. -/
  content : ∀ q ∈ saves st.history, ∀ r ∈ saves st.history, q.id = r.id →
    q.revision = r.revision → q = r
  /-- A decision bound to a revision is accepted only for the run that was saved with it. -/
  decision : ∀ runId run submission option, st.runs.get? runId = some run →
    DecisionEngine.validate run submission = .ok option →
      ∀ q ∈ saves st.history, q.id = runId → (q.revision : ℤ) = submission.expectedRevision → q = run

/-- A history identifies the contents of runs by their revisions exactly when it starts no run under
a stored id, ends no handler whose facts it saves, and lets no provider answer for a run that was
saved since. -/
theorem revisionsIdentify_iff {ρ : Type} [PyLib] (coordinator : Option (ResourceCoordinator ρ))
    (cfg : RuntimeConfig) (resources : ρ) (inputs : List (ℚ × RuntimeInput)) :
    RevisionsIdentify (reached coordinator cfg resources inputs) ↔
      Machine.Meets (step coordinator cfg) (Revising coordinator) { resources := resources }
        inputs := by
  have hempty : ({ resources := resources } : RuntimeState ρ).OwnIds := by
    intro id r hr
    cases hr
  obtain ⟨log, hlog, hraise⟩ := run_logs coordinator cfg hempty inputs
  have hsaves : saves (reached coordinator cfg resources inputs).history = log :=
    hlog.saves.trans (List.nil_append log)
  have hincreasing : Increasing WorkflowRun.id WorkflowRun.revision log ↔ _ :=
    Versioned.raise_empty_iff.symm.trans hraise
  constructor
  · intro h
    have hlogged := h.increasing
    rw [hsaves] at hlogged
    exact hincreasing.1 hlogged
  · intro h
    have hlogged := hincreasing.2 h
    have hcontent : ∀ q ∈ log, ∀ r ∈ log, q.id = r.id → q.revision = r.revision → q = r :=
      fun q hq r hr => Versioned.eq_of_version_eq hlogged hq hr
    refine ⟨hsaves ▸ hlogged, hsaves ▸ hcontent, fun runId run submission option hrun hv q hq => ?_⟩
    intro hid hrev
    rw [hsaves] at hq
    -- The run that the decision is applied to is the last one saved under its id.
    have hstored : (stored WorkflowRun.id ∅ log).get? runId = some run := by
      rw [← hrun]
      exact congrArg (fun runs => Dict.get? runs runId) hlog.runs.symm
    rcases Versioned.get?_stored hstored with ⟨hmem, hkey⟩ | hnone
    · have hlast : q.revision = run.revision :=
        Int.ofNat.inj (hrev.trans (DecisionEngine.validate_revision hv))
      exact hcontent q hq run hmem (hid.trans hkey.symm) hlast
    · cases hnone

/-- A workflow of one state, whose action asks for the version. -/
def inspectVersion : WorkflowDefinition where
  id := "inspect"
  version := "1"
  startState := "version"
  states := [{ id := "version", action := some ⟨"version", "device.version", [], 0, 1, {}, "normal"⟩ }]

/-- Its action succeeds, with the version as a fact. -/
def versionFound : List (ℚ × RuntimeInput) :=
  [(0, .start inspectVersion "device" ∅ (some "run")), (0, .tick "run"),
    (0, .finish 0 (.result
      { status := .succeeded, facts := ⟨[("version", .str "V200R021")]⟩ }))]

/-- An action that ends with facts saves them under the revision of its attempt. -/
theorem not_revisionsIdentify :
    ¬ RevisionsIdentify (@reached Unit .atEpoch none ⟨["device.version"], [], 5⟩ () versionFound) := by
  let := PyLib.atEpoch
  intro h
  -- The save of the attempt has no outputs, the save of the facts has some.
  have houtputs :
      let log := saves (@reached Unit .atEpoch none ⟨["device.version"], [], 5⟩ () versionFound).history
      ∀ q ∈ log, ∀ r ∈ log, q.id = r.id → q.revision = r.revision →
        q.outputs.entries.length = r.outputs.entries.length := by
    intro log q hq r hr hid hrev
    rw [h.content q hq r hr hid hrev]
  exact absurd houtputs (by decide +kernel)

end Runtime

end DeviceShell.Framework
