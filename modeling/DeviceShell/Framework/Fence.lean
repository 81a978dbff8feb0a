import DeviceShell.Framework.Terminal

/-!
# The recovery fence

`pause` and `mark_interrupted` store a run with a fence in its context, and `resume` sends a fenced
run through `_recover`, which reconciles its action before anything runs again. The promise is that
no handler is started before a reconcile or a later decision lifts the fence (`FenceRespected`).

The fence is a context entry, and sections that do not look at it may move the run on: a tick that
is suspended when `pause` lands advances the run and the next tick starts a handler
(`not_fenceRespected_paused_tick`). The promise is kept in every run in which a run is fenced only
while it has neither a suspended call nor a pending decision, and in which the fence is not
overwritten from outside (`fenceRespected_of_fenceSafe`). The invariant is `Guarded`: behind a fence
that is not lifted, the run is not running and only `_recover` is suspended (`Pending`).
-/

namespace DeviceShell.Framework

open Logged (Guarantees Steps)

/-! ## What the fence promises -/

/-- The ids of the decision points that a history stores. -/
def askedIn (history : List Happening) : List String := history.filterMap Happening.pointId?

/-- What lifts a fence that was stored in the state `place` when the decision points `old` had been
asked: a reconcile of the state's action that confirms success or that nothing was started, or a
decision on a point that is not one of `old`. -/
def Happening.Lifts (old : List String) (runId place : String) : Happening → Prop
  | .reconciled id state classification => id = runId ∧ state = place ∧
      (classification = ReconcileClassification.success.value ∨
        classification = ReconcileClassification.notStarted.value)
  | .decided id pointId => id = runId ∧ pointId ∉ old
  | _ => False

/-- The happening starts a handler for the run. -/
def Happening.starts (runId : String) : Happening → Bool
  | .started id _ => id == runId
  | _ => false

/-- No handler is started for the run before its fence is lifted. -/
def WaitsForLift (old : List String) (runId place : String) : List Happening → Prop
  | [] => True
  | e :: rest => e.Lifts old runId place ∨
      e.starts runId = false ∧ WaitsForLift old runId place rest

/-- What a happening promises about the rest of the history. -/
def Happening.Promises (old : List String) (rest : List Happening) : Happening → Prop
  | .fenced runId place => WaitsForLift old runId place rest
  | _ => True

/-- Every fence of the history holds until it is lifted, `old` being the decision points that were
asked before the history begins. -/
def FenceRespected : List String → List Happening → Prop
  | _, [] => True
  | old, e :: rest => e.Promises old rest ∧ FenceRespected (old ++ e.pointId?.toList) rest

instance (old : List String) (runId place : String) :
    DecidablePred (Happening.Lifts old runId place) := fun e => by
  unfold Happening.Lifts
  split <;> infer_instance

instance decidableWaitsForLift (old : List String) (runId place : String) :
    DecidablePred (WaitsForLift old runId place)
  | [] => inferInstanceAs (Decidable True)
  | e :: rest =>
    haveI := decidableWaitsForLift old runId place rest
    inferInstanceAs (Decidable (e.Lifts old runId place ∨
      e.starts runId = false ∧ WaitsForLift old runId place rest))

instance (old : List String) (rest : List Happening) :
    DecidablePred (Happening.Promises old rest) := fun e => by
  unfold Happening.Promises
  split <;> infer_instance

instance decidableFenceRespected : ∀ old history, Decidable (FenceRespected old history)
  | _, [] => inferInstanceAs (Decidable True)
  | old, e :: rest =>
    haveI := decidableFenceRespected (old ++ e.pointId?.toList) rest
    inferInstanceAs (Decidable (e.Promises old rest ∧
      FenceRespected (old ++ e.pointId?.toList) rest))

theorem waitsForLift_append {old : List String} {runId place : String} {since new : List Happening}
    (h : WaitsForLift old runId place since)
    (hnew : (∃ e ∈ since, e.Lifts old runId place) ∨ ∀ e ∈ new, e.starts runId = false) :
    WaitsForLift old runId place (since ++ new) := by
  induction since with
  | nil =>
    have hnew' : ∀ e ∈ new, e.starts runId = false := by
      rcases hnew with ⟨e, he, -⟩ | hnew
      · cases he
      · exact hnew
    clear h hnew
    induction new with
    | nil => trivial
    | cons e new ih =>
      exact .inr ⟨hnew' e (List.mem_cons_self ..), ih fun e' he' =>
        hnew' e' (List.mem_cons_of_mem _ he')⟩
  | cons e since ih =>
    rcases h with h | ⟨hstart, h⟩
    · exact .inl h
    · by_cases he : e.Lifts old runId place
      · exact .inl he
      · refine .inr ⟨hstart, ih h ?_⟩
        rcases hnew with ⟨e', he', hl⟩ | hnew
        · rcases List.mem_cons.1 he' with rfl | he'
          · exact absurd hl he
          · exact .inl ⟨e', he', hl⟩
        · exact .inr hnew

/-- The fences of a longer history: those of the first part that are not lifted in it allow no start
in the second part. -/
theorem fenceRespected_append {old : List String} {history new : List Happening}
    (h : FenceRespected old history)
    (hfences : ∀ before runId place since, history = before ++ .fenced runId place :: since →
      (∃ e ∈ since, e.Lifts (old ++ askedIn before) runId place) ∨
        ∀ e ∈ new, e.starts runId = false)
    (hnew : FenceRespected (old ++ askedIn history) new) :
    FenceRespected old (history ++ new) := by
  induction history generalizing old with
  | nil => simpa [askedIn] using hnew
  | cons e history ih =>
    refine ⟨?_, ih h.2 (fun before runId place since heq => ?_) ?_⟩
    · have hhead := h.1
      cases e with
      | fenced runId place =>
        refine waitsForLift_append hhead ?_
        simpa [askedIn] using hfences [] runId place history rfl
      | created | saved | started | reconciled | asked | decided => trivial
    · have hold : old ++ askedIn (e :: before) = old ++ e.pointId?.toList ++ askedIn before := by
        cases hp : e.pointId? <;> simp [askedIn, hp]
      rw [← hold]
      exact hfences (e :: before) runId place since (by rw [heq, List.cons_append])
    · have hold : old ++ askedIn (e :: history) = old ++ e.pointId?.toList ++ askedIn history := by
        cases hp : e.pointId? <;> simp [askedIn, hp]
      rw [← hold]
      exact hnew

/-- A history without a fence, or with one at its end, respects its fences. -/
theorem fenceRespected_of_last {old : List String} {new : List Happening}
    (h : ∀ front runId place back, new = front ++ .fenced runId place :: back → back = []) :
    FenceRespected old new := by
  induction new generalizing old with
  | nil => trivial
  | cons e new ih =>
    refine ⟨?_, ih fun front runId place back heq => ?_⟩
    · cases e with
      | fenced runId place =>
        have hnil : new = [] := h [] runId place new rfl
        rw [hnil]
        trivial
      | created | saved | started | reconciled | asked | decided => trivial
    · exact h (e :: front) runId place back (by rw [heq, List.cons_append])

/-! ## A run behind its fence -/

/-- A run that waits behind the fence in the state `place`: it is not running, and its pending
decision, if there is one, was asked after those in `old`. -/
structure WorkflowRun.Held (place : String) (old : List String) (r : WorkflowRun) : Prop where
  fenced : r.fenced = true
  idle : r.status ≠ .running
  place : r.currentState = place
  point : ∀ p, r.decisionPoint = some p → p.id ∉ old

/-- A suspended coroutine that waits behind the fence: `_recover`, for the state's action. -/
def Call.Held (place : String) (old : List String) : Call → Prop
  | .recover run state .. => run.Held place old ∧ state.id = place
  | _ => False

/-- The saves of runs that wait behind the fence. -/
def Holds (place : String) (old : List String) : Write → Prop
  | .run r => r.Held place old
  | .event _ => True

/-- The saves of a run. -/
def OnRun (id : String) : Write → Prop
  | .run r => r.id = id
  | .event _ => True

variable {place : String} {old : List String}

theorem WorkflowRun.Held.of_like {r s : WorkflowRun} (h : s.Held place old)
    (hlike : WorkflowRun.Like r s) : r.Held place old where
  fenced := (WorkflowRun.fenced_congr hlike.recovery).trans h.fenced
  idle := hlike.status ▸ h.idle
  place := hlike.place.trans h.place
  point p hp := h.point p (hlike.point ▸ hp)

/-- A context with the fence makes a fenced run. -/
theorem fenced_of_fence {r : WorkflowRun} {reason : Value} {rest : List (String × Value)}
    (h : r.context.get? recoveryKey = some (Runtime.fence reason rest)) : r.fenced = true := by
  rw [WorkflowRun.fenced, WorkflowRun.recovery?, h]
  rfl

theorem onRun_of_sameRun {s : WorkflowRun} {ws : List Write} (h : Steps SameRun tracked s ws) :
    ∀ w ∈ ws, OnRun s.id w := by
  induction ws generalizing s with
  | nil =>
    intro w hw
    cases hw
  | cons w ws ih =>
    have hid : (tracked s w).id = s.id := by
      cases w with
      | run r => exact h.1
      | event e => rfl
    intro w' hw'
    rcases List.mem_cons.1 hw' with rfl | hw'
    · cases w' with
      | run r => exact h.1
      | event e => trivial
    · exact hid ▸ ih h.2 w' hw'

/-- The first state with an id has that id. -/
theorem WorkflowDefinition.state_id {d : WorkflowDefinition} {id : String} {state : StateNode}
    (h : d.state id = .ok state) : state.id = id := by
  unfold WorkflowDefinition.state at h
  split at h
  · rename_i state' hfind
    cases h
    simpa using List.find?_some hfind
  · cases h

namespace Runtime

theorem save_holds {s r : WorkflowRun} (h : r.Held place old) :
    Guarantees (fun _ => Holds place old) tracked s (save r) (fun a _ => a = r ∧ a.Held place old) := by
  refine Guarantees.bind (Guarantees.write ?_) fun _ _ _ => Guarantees.pure ⟨rfl, h⟩
  exact h

/-- A section that ends with such a save. -/
theorem save_holds' {s r : WorkflowRun} (h : r.Held place old) :
    Guarantees (fun _ => Holds place old) tracked s (save r) (fun _ _ => True) :=
  (save_holds h).mono fun _ _ _ => trivial

/-- Saves of a run like one behind the fence. -/
theorem likens_holds {α : Type} {s : WorkflowRun} {m : SaveM α} {Q : α → WorkflowRun → Prop}
    (hs : s.Held place old) (h : Guarantees Likens tracked s m Q) :
    Guarantees (fun _ => Holds place old) tracked s m Q := by
  refine h.imp (I := WorkflowRun.Held place old) (fun t w ht hw => ?_) hs
  cases w with
  | run r => exact ⟨ht.of_like hw, ht.of_like hw⟩
  | event e => exact ⟨trivial, ht⟩

/-- The decision that is created for a run behind the fence is a new one. -/
theorem createDecision_holds {s run : WorkflowRun} (h : run.Held place old) {uuid : String}
    (huuid : uuid ∉ old) (state : StateNode) (reason : String)
    (error : Option (Dict String Value)) :
    Guarantees (fun _ => Holds place old) tracked s (createDecision uuid run state reason error)
      (fun _ _ => True) := by
  unfold createDecision
  refine Guarantees.ite (fun _ => ?_) fun _ => ?_
  · refine save_holds' ?_
    exact ⟨h.fenced, by simp, h.place, h.point⟩
  · refine save_holds' ?_
    refine ⟨h.fenced, by simp, h.place, fun p hp => ?_⟩
    cases hp
    exact huuid

section Sections

variable [PyLib] (cfg : RuntimeConfig) (now : ℚ) {uuid : String} (defs : Definitions)

theorem recover_holds {run : WorkflowRun} (h : run.Held place old) (huuid : uuid ∉ old)
    {state : StateNode} (hstate : state.id = place) :
    Guarantees (fun _ => Holds place old) tracked run (recover cfg now uuid run state)
      (fun o _ => ∀ call, o = .suspended call → call.Held place old) := by
  have hdecision : Guarantees (fun _ => Holds place old) tracked run
      (do
        let r ← createDecision uuid run state "recovery.reconcile_unavailable" none
        return Outcome.returned r)
      (fun o _ => ∀ call, o = .suspended call → call.Held place old) :=
    (createDecision_holds h huuid _ _ _).bind fun r t _ =>
      Guarantees.pure fun call hcall => by cases hcall
  unfold recover
  split
  · refine Guarantees.ite (fun _ => Guarantees.pure fun call hcall => by cases hcall) fun _ => ?_
    split
    · exact hdecision
    · refine Guarantees.ite (fun _ => hdecision) fun _ => ?_
      refine Guarantees.bind Guarantees.lift fun _ t ht => ?_
      obtain ⟨-, rfl⟩ := ht
      refine Guarantees.pure fun call hcall => ?_
      cases hcall
      exact ⟨h, hstate⟩
  · -- A fenced run has the fence's record.
    rename_i hno
    obtain ⟨recovery, hrecovery⟩ : ∃ recovery, run.recovery? = some recovery := by
      have hf := h.fenced
      unfold WorkflowRun.fenced at hf
      split at hf
      · exact ⟨_, ‹_›⟩
      · cases hf
    exact absurd h.fenced (hno recovery hrecovery)

/-- A tick behind the fence only recovers. -/
theorem tick_holds {run : WorkflowRun} (h : run.Held place old) (huuid : uuid ∉ old) :
    Guarantees (fun _ => Holds place old) tracked run (tick cfg now uuid defs run)
      (fun o _ => ∀ call, o = .suspended call → call.Held place old) := by
  unfold tick
  refine Guarantees.ite (fun _ => Guarantees.pure fun call hcall => by cases hcall)
    fun hactive => ?_
  refine Guarantees.bind Guarantees.lift fun definition t ht => ?_
  obtain ⟨-, rfl⟩ := ht
  refine Guarantees.bind Guarantees.lift fun state t ht => ?_
  obtain ⟨hstate, rfl⟩ := ht
  refine Guarantees.ite (fun _ => ?_) fun hne => ?_
  · exact recover_holds cfg now h huuid ((WorkflowDefinition.state_id hstate).trans h.place)
  · have hidle := h.idle
    cases hs : t.status <;> simp_all [RunStatus.active]

/-- A recovery that neither confirms success nor that nothing was started leaves the fence. -/
theorem recovered_holds {s run : WorkflowRun} (h : run.Held place old) (huuid : uuid ∉ old)
    (state : StateNode) (recovery : Dict String Value) {outcome : ReconcileResult}
    (hsuccess : outcome.classification ≠ ReconcileClassification.success.value)
    (hstarted : outcome.classification ≠ ReconcileClassification.notStarted.value) :
    Guarantees (fun _ => Holds place old) tracked s
      (recovered cfg now uuid defs run state recovery outcome) (fun _ _ => True) := by
  have hkey : recoveryKey ≠ "reconcile." ++ state.id := (reconcileKey_ne state.id).symm
  unfold recovered
  rw [if_neg hsuccess, if_neg hstarted]
  refine Guarantees.ite (fun _ => ?_) fun _ => ?_
  · refine save_holds' ?_
    exact ⟨fenced_of_fence (Dict.get?_set_self _ _ _), by simp, h.place, h.point⟩
  · refine Guarantees.bind (save_holds ?_) fun a t ha => ?_
    · refine ⟨?_, h.idle, h.place, h.point⟩
      rw [← h.fenced]
      exact WorkflowRun.fenced_congr (Dict.get?_set_of_ne _ hkey _)
    · exact createDecision_holds ha.2 huuid _ _ _

end Sections

/-- The saves of `pause` and `mark_interrupted`: none, or the paused run with the fence. -/
def StoresFence (s : WorkflowRun) (ws : List Write) : Prop :=
  ws = [] ∨ ∃ r, ws = [.run r] ∧ r.id = s.id ∧ r.fenced = true ∧ r.status = .paused ∧
    r.currentState = s.currentState ∧ r.decisionPoint = s.decisionPoint

section Sections

variable [PyLib] (now : ℚ)

theorem pause_storesFence (s : WorkflowRun) : StoresFence s (pause now s).written := by
  unfold pause
  split
  · exact .inl rfl
  · exact .inr ⟨_, rfl, rfl, fenced_of_fence (Dict.get?_set_self _ _ _), rfl, rfl, rfl⟩

theorem markInterrupted_storesFence (s : WorkflowRun) (reason : String) :
    StoresFence s (markInterrupted now s reason).written := by
  unfold markInterrupted
  split
  · exact .inl rfl
  · exact .inr ⟨_, rfl, rfl, fenced_of_fence (Dict.get?_set_self _ _ _), rfl, rfl, rfl⟩

omit [PyLib] in
/-- A resume leaves the fence unless its context replaces it. -/
theorem resume_holds {s : WorkflowRun} (h : s.Held place old) {context : Dict String Value}
    (hcontext : recoveryKey ∉ context.keys) :
    ∀ w ∈ (resume s context).written, Holds place old w := by
  unfold resume
  split
  · intro w hw
    obtain rfl := List.mem_singleton.1 hw
    have hfence := Dict.get?_merge_of_not_mem s.context context hcontext
    refine ⟨(WorkflowRun.fenced_congr hfence).trans h.fenced, ?_, h.place, fun p hp => by cases hp⟩
    simp [h.fenced]
  · intro w hw
    cases hw

omit [PyLib] in
theorem cancel_holds {s : WorkflowRun} (h : s.Held place old) :
    ∀ w ∈ (cancel s).written, Holds place old w := by
  unfold cancel
  split
  · intro w hw
    cases hw
  · intro w hw
    obtain rfl := List.mem_singleton.1 hw
    exact ⟨h.fenced, by simp, h.place, fun p hp => by cases hp⟩

end Sections

end Runtime

/-! ## The machine -/

/-- The happenings that a commit adds: saves and decision points. -/
def Happening.Stored : Happening → Prop
  | .saved _ => True
  | .asked .. => True
  | _ => False

theorem Happening.Stored.starts {e : Happening} (h : e.Stored) (runId : String) :
    e.starts runId = false := by
  cases e <;> first | rfl | cases h

namespace RuntimeState

variable {ρ : Type} {coordinator : Option (ResourceCoordinator ρ)} {now : ℚ}

variable (coordinator now) in
theorem history_commit (st : RuntimeState ρ) (ws : List Write) :
    ∃ new, (st.commit coordinator now ws).history = st.history ++ new ∧ ∀ e ∈ new, e.Stored := by
  induction ws generalizing st with
  | nil => exact ⟨[], (List.append_nil _).symm, by simp⟩
  | cons w ws ih =>
    obtain ⟨new, hnew, hstored⟩ := ih (st.apply coordinator now w)
    cases w with
    | event e => exact ⟨new, hnew, hstored⟩
    | run r =>
      rw [history_apply_run] at hnew
      refine ⟨.saved r :: askedBy st r ++ new, ?_, fun e he => ?_⟩
      · refine hnew.trans ?_
        simp
      · rcases List.mem_append.1 he with he | he
        · rcases List.mem_cons.1 he with rfl | he
          · trivial
          · obtain ⟨_, _, rfl⟩ := mem_askedBy he
            trivial
        · exact hstored e he

/-- Every run is stored under its own id. -/
def Keyed (st : RuntimeState ρ) : Prop := ∀ id r, st.runs.get? id = some r → r.id = id

theorem Keyed.commit {st : RuntimeState ρ} (h : st.Keyed) (ws : List Write) :
    (st.commit coordinator now ws).Keyed := by
  induction ws generalizing st with
  | nil => exact h
  | cons w ws ih =>
    refine ih ?_
    cases w with
    | event e => exact h
    | run r =>
      intro id q hq
      rw [get?_apply_run] at hq
      split at hq
      · cases hq
        exact (‹id = r.id›).symm
      · exact h id q hq

/-- The fence of a run in the state `place` is not lifted yet: the run and its suspended calls wait
behind it. -/
structure Pending (st : RuntimeState ρ) (id place : String) (old : List String) : Prop where
  stored : ∃ r, st.runs.get? id = some r ∧ r.Held place old
  calls : ∀ n c, st.calls.get? n = some c → c.run.id = id → c.Held place old

variable {id place : String} {old : List String}

theorem Pending.commit {st : RuntimeState ρ} (h : st.Pending id place old) {ws : List Write}
    (hw : (∀ w ∈ ws, OnRun id w ∧ Holds place old w) ∨ ∃ id', id' ≠ id ∧ ∀ w ∈ ws, OnRun id' w) :
    (st.commit coordinator now ws).Pending id place old := by
  refine ⟨?_, by rw [calls_commit]; exact h.calls⟩
  have hstored := h.stored
  clear h
  induction ws generalizing st with
  | nil => exact hstored
  | cons w ws ih =>
    refine ih ?_ ?_
    · exact hw.imp (fun hw w' hw' => hw w' (List.mem_cons_of_mem _ hw')) fun ⟨id', hne, hw⟩ =>
        ⟨id', hne, fun w' hw' => hw w' (List.mem_cons_of_mem _ hw')⟩
    · cases w with
      | event e => exact hstored
      | run r =>
        rw [get?_apply_run]
        rcases hw with hw | ⟨id', hne, hw⟩
        · obtain ⟨hid, hheld⟩ := hw _ (List.mem_cons_self ..)
          have hid' : id = r.id := Eq.symm hid
          rw [if_pos hid']
          exact ⟨r, rfl, hheld⟩
        · have hid : r.id = id' := hw _ (List.mem_cons_self ..)
          rw [if_neg fun h => hne (hid ▸ h.symm)]
          exact hstored

/-- The calls may end, and those of other runs change. -/
theorem Pending.recall {st st' : RuntimeState ρ} (h : st.Pending id place old)
    (hruns : st'.runs = st.runs)
    (hcalls : ∀ n c, st'.calls.get? n = some c → c.run.id = id →
      st.calls.get? n = some c ∨ c.Held place old) : st'.Pending id place old := by
  refine ⟨hruns ▸ h.stored, fun n c hc hid => ?_⟩
  rcases hcalls n c hc hid with hc | hc
  · exact h.calls n c hc hid
  · exact hc

/-- What a step adds to the history, and that it leaves the pending fences pending or lifts them. -/
structure Moves (st st' : RuntimeState ρ) (new : List Happening) : Prop where
  history : st'.history = st.history ++ new
  keyed : st'.Keyed
  pending : ∀ id place old, (∀ p ∈ old, p ∈ askedIn st.history) → st.Pending id place old →
    (∀ e ∈ new, e.starts id = false) ∧
      ((∃ e ∈ new, e.Lifts old id place) ∨ st'.Pending id place old)
  fences : ∀ front id place back, new = front ++ .fenced id place :: back →
    back = [] ∧ st'.Pending id place (askedIn (st.history ++ front))

/-- The invariant: every fence was respected, and a fence that is not lifted is pending. -/
structure Guarded (st : RuntimeState ρ) : Prop where
  keyed : st.Keyed
  respected : FenceRespected [] st.history
  pending : ∀ before id place since, st.history = before ++ .fenced id place :: since →
    (∃ e ∈ since, e.Lifts (askedIn before) id place) ∨ st.Pending id place (askedIn before)

theorem askedIn_subset {before rest : List Happening} : ∀ p ∈ askedIn before,
    p ∈ askedIn (before ++ rest) := fun p hp => by
  rw [askedIn, List.filterMap_append]
  exact List.mem_append_left _ hp

theorem Guarded.moves {st st' : RuntimeState ρ} (h : st.Guarded) (new : List Happening)
    (hm : Moves st st' new) : st'.Guarded := by
  have hstep : ∀ before id place since, st.history = before ++ .fenced id place :: since →
      st.Pending id place (askedIn before) → (∀ e ∈ new, e.starts id = false) ∧
        ((∃ e ∈ new, e.Lifts (askedIn before) id place) ∨
          st'.Pending id place (askedIn before)) := fun before id place since heq hp =>
    hm.pending id place _ (heq ▸ askedIn_subset) hp
  refine ⟨hm.keyed, ?_, fun before id place since heq => ?_⟩
  · rw [hm.history]
    refine fenceRespected_append h.respected (fun before id place since heq => ?_)
      (fenceRespected_of_last fun front id place back heq => (hm.fences front id place back heq).1)
    exact (h.pending before id place since heq).imp_right fun hp =>
      (hstep before id place since heq hp).1
  · rw [hm.history] at heq
    rcases List.append_eq_append_iff.1 heq with ⟨front, rfl, hnew⟩ | ⟨back, hhist, hback⟩
    · -- The fence is one of this step.
      obtain ⟨rfl, hp⟩ := hm.fences front id place since hnew
      exact .inr hp
    · cases back with
      | nil =>
        obtain ⟨rfl, hp⟩ := hm.fences [] id place since hback.symm
        rw [List.append_nil] at hhist hp
        exact .inr (hhist ▸ hp)
      | cons e back =>
        obtain ⟨rfl, rfl⟩ := List.cons.inj hback
        rcases h.pending before id place back hhist with ⟨e, he, hl⟩ | hp
        · exact .inl ⟨e, List.mem_append_left _ he, hl⟩
        · rcases (hstep before id place back hhist hp).2 with ⟨e, he, hl⟩ | hp'
          · exact .inl ⟨e, List.mem_append_right _ he, hl⟩
          · exact .inr hp'

/-- A step that only ends calls. -/
theorem Moves.quiet {st st' : RuntimeState ρ} (h : st.Keyed) (hruns : st'.runs = st.runs)
    (hhistory : st'.history = st.history)
    (hcalls : ∀ n c, st'.calls.get? n = some c → st.calls.get? n = some c) : Moves st st' [] where
  history := by rw [hhistory, List.append_nil]
  keyed := by
    rw [Keyed, hruns]
    exact h
  pending id place old _ hp := ⟨by simp, .inr (hp.recall hruns fun n c hc _ => .inl (hcalls n c hc))⟩
  fences front id place back heq := by simp at heq

variable (coordinator now) in
/-- A step that commits the writes of a section on the run `id`, after some notes `es`. -/
theorem moves_commit {st st₀ : RuntimeState ρ} (es : List Happening) (h : st.Keyed)
    (hruns : st₀.runs = st.runs) (hhistory : st₀.history = st.history ++ es)
    (hcalls : ∀ n c, st₀.calls.get? n = some c → st.calls.get? n = some c)
    (hes : ∀ e ∈ es, (∀ runId, e.starts runId = false) ∧ ∀ runId p, e ≠ .fenced runId p)
    {runId : String} {ws : List Write} (hrun : ∀ w ∈ ws, OnRun runId w)
    (hheld : ∀ place old, (∀ p ∈ old, p ∈ askedIn st.history) → st.Pending runId place old →
      (∃ e ∈ es, e.Lifts old runId place) ∨ ∀ w ∈ ws, Holds place old w) :
    ∃ new, Moves st (st₀.commit coordinator now ws) new ∧
      ∀ runId p, .fenced runId p ∉ new := by
  obtain ⟨stored, hhist, hstored⟩ := history_commit coordinator now st₀ ws
  have hnofence : ∀ id p, .fenced id p ∉ es ++ stored := by
    intro id p hmem
    rcases List.mem_append.1 hmem with he | he
    · exact (hes _ he).2 id p rfl
    · exact hstored _ he
  refine ⟨es ++ stored, ⟨?_, ?_, fun id place old hold hp => ⟨fun e he => ?_, ?_⟩,
    fun front id place back heq => ?_⟩, hnofence⟩
  · rw [hhist, hhistory, List.append_assoc]
  · refine Keyed.commit ?_ ws
    rw [Keyed, hruns]
    exact h
  · rcases List.mem_append.1 he with he | he
    · exact (hes e he).1 id
    · exact (hstored e he).starts id
  · have hp₀ : st₀.Pending id place old := hp.recall hruns fun n c hc _ => .inl (hcalls n c hc)
    by_cases hid : runId = id
    · subst hid
      rcases hheld place old hold hp with ⟨e, he, hl⟩ | hw
      · exact .inl ⟨e, List.mem_append_left _ he, hl⟩
      · exact .inr (hp₀.commit (.inl fun w hmem => ⟨hrun w hmem, hw w hmem⟩))
    · exact .inr (hp₀.commit (.inr ⟨runId, hid, hrun⟩))
  · exact absurd (heq ▸ List.mem_append_right front (List.mem_cons_self ..)) (hnofence id place)

/-- A step that then suspends a coroutine. -/
theorem Moves.suspend [PyLib] {st st' : RuntimeState ρ} {new : List Happening}
    (h : Moves st st' new) (hnew : ∀ runId p, .fenced runId p ∉ new) {call : Call}
    (hcall : ∀ place old, (∀ p ∈ old, p ∈ askedIn st.history) →
      st.Pending call.run.id place old → call.Held place old) :
    ∃ new, Moves st (st'.suspend coordinator now call) new := by
  obtain ⟨hruns, hcalls, hnext, hhistory⟩ := executionRun_frame coordinator now st' call.run
  unfold RuntimeState.suspend
  split
  · rename_i st₁ he
    rw [he] at hruns hcalls hnext hhistory
    dsimp only at hruns hcalls hnext hhistory
    refine ⟨new, ⟨hhistory.trans h.history, ?_, fun id place old hold hp => ?_,
      fun front id place back heq => ?_⟩⟩
    · rw [Keyed, hruns]
      exact h.keyed
    · obtain ⟨hstarts, hl⟩ := h.pending id place old hold hp
      exact ⟨hstarts, hl.imp_right fun hp' =>
        hp'.recall hruns fun n c hc _ => .inl (by rw [← hcalls]; exact hc)⟩
    · exact absurd (heq ▸ List.mem_append_right front (List.mem_cons_self ..)) (hnew id place)
  · rename_i st₁ he
    rw [he] at hruns hcalls hnext hhistory
    dsimp only at hruns hcalls hnext hhistory
    have hget : ∀ n c, (st₁.calls.set st₁.nextCall call).get? n = some c →
        st'.calls.get? n = some c ∨ c = call := by
      intro n c hc
      rw [Dict.get?_set] at hc
      split at hc
      · exact .inr (Option.some.inj hc).symm
      · exact .inl (hcalls ▸ hc)
    have hnofence : ∀ id p, .fenced id p ∉ new ++ startedBy call := by
      intro id p hmem
      rcases List.mem_append.1 hmem with he | he
      · exact hnew id p he
      · cases call with
        | handler => simp [startedBy] at he
        | reconcile | recover => cases he
    refine ⟨new ++ startedBy call, ⟨?_, ?_, fun id place old hold hp => ?_,
      fun front id place back heq => ?_⟩⟩
    · simp only [hhistory, h.history, List.append_assoc]
    · rw [Keyed]
      simp only [hruns]
      exact h.keyed
    · obtain ⟨hstarts, hl⟩ := h.pending id place old hold hp
      -- Behind the fence only a recovery suspends, which starts no handler.
      have hheld : call.run.id = id → call.Held place old := fun hid =>
        hcall place old hold (hid ▸ hp)
      refine ⟨fun e he => ?_, ?_⟩
      · rcases List.mem_append.1 he with he | he
        · exact hstarts e he
        · cases call with
          | handler run state action attempt active events =>
            obtain rfl := List.mem_singleton.1 he
            simp only [Happening.starts, beq_eq_false_iff_ne]
            exact fun hid => (hheld hid).elim
          | reconcile | recover => cases he
      · rcases hl with ⟨e, he, hl⟩ | hp'
        · exact .inl ⟨e, List.mem_append_left _ he, hl⟩
        · refine .inr (hp'.recall hruns fun n c hc hid => ?_)
          refine (hget n c hc).imp_right fun heq => ?_
          subst heq
          exact hheld hid
    · exact absurd (heq ▸ List.mem_append_right front (List.mem_cons_self ..)) (hnofence id place)

variable (coordinator now) in
/-- A section of a coroutine takes effect. -/
theorem moves_perform [PyLib] {st : RuntimeState ρ} (st₀ : RuntimeState ρ) (h : st.Keyed)
    (hruns : st₀.runs = st.runs) (hhistory : st₀.history = st.history)
    (hcalls : ∀ n c, st₀.calls.get? n = some c → st.calls.get? n = some c) {s : WorkflowRun}
    {m : SaveM Outcome} (hsame : Guarantees SameRun tracked s m fun o _ => Runtime.EndsOnRun s o)
    (hheld : ∀ place old, (∀ p ∈ old, p ∈ askedIn st.history) → st.Pending s.id place old →
      Guarantees (fun _ => Holds place old) tracked s m
        fun o _ => ∀ call, o = .suspended call → call.Held place old) :
    ∃ new, Moves st (st₀.perform coordinator now m) new := by
  obtain ⟨new, hmoves, hnofence⟩ := moves_commit coordinator now [] h hruns (by rw [hhistory, List.append_nil]) hcalls (by simp)
    (onRun_of_sameRun hsame.steps)
    fun place old hold hp => .inr (Logged.steps_forall.1 (hheld place old hold hp).steps)
  unfold RuntimeState.perform
  dsimp only
  split
  · rename_i call heq
    refine hmoves.suspend hnofence fun place old hold hp => ?_
    have hid := hsame.returned _ heq call rfl
    exact (hheld place old hold (hid ▸ hp)).returned _ heq call rfl
  · exact ⟨new, hmoves⟩

variable (coordinator now) in
/-- `pause` and `mark_interrupted` on a run that has neither a suspended call nor a pending
decision. -/
theorem moves_fence {st : RuntimeState ρ} (h : st.Keyed) {s : WorkflowRun}
    (hs : st.runs.get? s.id = some s) {m : SaveM WorkflowRun}
    (hm : Runtime.StoresFence s m.written)
    (hclear : m.written = [] ∨ st.NoCall s.id ∧ s.decisionPoint = none) :
    ∃ new, Moves st ((performNow coordinator now st m).note (Runtime.fenceNote s m)) new := by
  rcases hm with hnil | ⟨r, hw, hid, hfenced, hstatus, hplace, hpoint⟩
  · refine ⟨[], .quiet h ?_ ?_ ?_⟩ <;>
      simp [performNow, Runtime.fenceNote, RuntimeState.note, hnil, RuntimeState.commit]
  obtain ⟨hcall, hnone⟩ := hclear.resolve_left (by rw [hw]; simp)
  have hheld : ∀ old, r.Held s.currentState old := fun old =>
    ⟨hfenced, by simp [hstatus], hplace, fun p hp => by simp [hpoint, hnone] at hp⟩
  generalize hst' : (performNow coordinator now st m).note (Runtime.fenceNote s m) = st'
  have hget : ∀ id, st'.runs.get? id = if id = r.id then some r else st.runs.get? id := by
    intro id
    simp only [← hst', performNow, RuntimeState.note, hw, RuntimeState.commit, List.foldl_cons,
      List.foldl_nil, get?_apply_run]
  have hcalls : st'.calls = st.calls := by
    rw [← hst']
    exact calls_commit st _
  have hhist : st'.history = st.history ++ [.saved r, .fenced s.id s.currentState] := by
    have hasked : askedBy st r = [] := by simp [askedBy, hpoint, hnone]
    simp [← hst', performNow, Runtime.fenceNote, RuntimeState.note, hw, RuntimeState.commit,
      history_apply_run, hasked]
  have hpending : ∀ old, st'.Pending s.id s.currentState old := fun old =>
    ⟨⟨r, by rw [hget, if_pos hid.symm], hheld old⟩,
      fun n c hc hcs => absurd hcs (hcall n c (hcalls ▸ hc))⟩
  refine ⟨_, hhist, fun id q hq => ?_, fun id place old hold hp => ⟨?_, .inr ?_⟩,
    fun front id place back heq => ?_⟩
  · rw [hget] at hq
    split at hq
    · cases hq
      exact (‹id = r.id›).symm
    · exact h id q hq
  · intro e he
    simp only [List.mem_cons, List.not_mem_nil, or_false] at he
    rcases he with rfl | rfl <;> rfl
  · by_cases hrs : id = s.id
    · -- The run was behind a fence already, and stays there.
      subst hrs
      obtain ⟨q, hq, hqheld⟩ := hp.stored
      rw [hs] at hq
      cases hq
      exact hqheld.place ▸ hpending old
    · refine ⟨?_, by rw [hcalls]; exact hp.calls⟩
      rw [hget, if_neg (hid ▸ hrs)]
      exact hp.stored
  · rcases front with _ | ⟨e, _ | ⟨e', front⟩⟩
    · cases (List.cons.inj heq).1
    · obtain ⟨-, heq⟩ := List.cons.inj heq
      obtain ⟨heq, rfl⟩ := List.cons.inj heq
      cases heq
      exact ⟨rfl, hpending _⟩
    · simp at heq

end RuntimeState

namespace Runtime

open RuntimeState

variable {ρ : Type}

/-- A run that may be fenced: none of its calls is suspended, and it has no pending decision. -/
def FenceClear (st : RuntimeState ρ) (r : WorkflowRun) : Prop :=
  st.Idle r.id ∧ r.decisionPoint = none

/-- The inputs under which fences hold: a run is started under a new id; a run that is fenced is
clear; the context of a resume leaves the fence; and a fenced run is not reconciled from outside. -/
def FenceSafe (st : RuntimeState ρ) : RuntimeInput → Prop
  | .start _ _ _ (some runId) => runId = "" ∨ runId ∉ st.runs.keys
  | .pause runId => ∀ r ∈ st.runs.get? runId, r.status.terminal = true ∨ FenceClear st r
  | .markInterrupted runId _ => ∀ r ∈ st.runs.get? runId,
      r.status.terminal = true ∨ r.status = .waitingDecision ∨ FenceClear st r
  | .recoverInflight _ limit => ∀ run ∈ (st.runs.values.take limit).filter (·.status.active),
      ∀ r ∈ st.runs.get? run.id, FenceClear st r
  | .resume _ context => recoveryKey ∉ context.keys
  | .reconcile runId _ => ∀ r ∈ st.runs.get? runId, r.fenced = false
  | _ => True

instance (st : RuntimeState ρ) (r : WorkflowRun) : Decidable (FenceClear st r) :=
  decidable_of_iff (st.Idle r.id ∧ r.decisionPoint.isNone = true)
    (and_congr_right fun _ => Option.isNone_iff_eq_none)

instance (st : RuntimeState ρ) (input : RuntimeInput) : Decidable (FenceSafe st input) :=
  match input with
  | .start _ _ _ (some runId) => inferInstanceAs (Decidable (runId = "" ∨ runId ∉ st.runs.keys))
  | .pause runId => inferInstanceAs (Decidable (∀ r ∈ st.runs.get? runId, _ ∨ _))
  | .markInterrupted runId _ => inferInstanceAs (Decidable (∀ r ∈ st.runs.get? runId, _ ∨ _ ∨ _))
  | .recoverInflight _ limit =>
    inferInstanceAs (Decidable (∀ run ∈ (st.runs.values.take limit).filter (·.status.active),
      ∀ r ∈ st.runs.get? run.id, FenceClear st r))
  | .resume _ context => inferInstanceAs (Decidable (recoveryKey ∉ context.keys))
  | .reconcile runId _ => inferInstanceAs (Decidable (∀ r ∈ st.runs.get? runId, r.fenced = false))
  | .start _ _ _ none | .registerDefinition _ | .tick _ | .cancel _ | .applyDecision .. | .emit ..
  | .lateEmit .. | .finish .. | .reconciled .. | .abort _ | .restart => .isTrue trivial

/-- A call on the stored run. -/
theorem withRun_guarded {st st₀ : RuntimeState ρ} (h : st.Guarded) (hst₀ : st₀.Guarded)
    (hruns : st₀.runs = st.runs) {runId : String} {f : WorkflowRun → RuntimeState ρ}
    (hf : ∀ run, st.runs.get? run.id = some run → run.id = runId → (f run).Guarded) :
    (withRun st₀ runId f).Guarded := by
  unfold withRun
  rw [hruns]
  split
  · rename_i run hrun
    have hid := h.keyed runId run hrun
    exact hf run (hid ▸ hrun) hid
  · exact hst₀

/-- A step that only ends calls keeps the invariant. -/
theorem guarded_quiet {st st' : RuntimeState ρ} (h : st.Guarded) (hruns : st'.runs = st.runs)
    (hhistory : st'.history = st.history)
    (hcalls : ∀ n c, st'.calls.get? n = some c → st.calls.get? n = some c) : st'.Guarded :=
  h.moves [] (.quiet h.keyed hruns hhistory hcalls)

/-- The fresh id of a step is none of the decision points asked before. -/
theorem uuid4_not_mem_old {st : RuntimeState ρ} {old : List String}
    (hold : ∀ p ∈ old, p ∈ askedIn st.history) : st.uuid4 ∉ old := fun h =>
  st.uuid4_not_mem_usedIds (List.mem_append_right _ (hold _ h))

/-- The stored run of a pending fence waits behind it. -/
theorem held_of_pending {st : RuntimeState ρ} {s : WorkflowRun}
    (hs : st.runs.get? s.id = some s) {place : String} {old : List String}
    (hp : st.Pending s.id place old) : s.Held place old := by
  obtain ⟨q, hq, hheld⟩ := hp.stored
  rw [hs] at hq
  cases hq
  exact hheld

theorem created_guarded {st st' : RuntimeState ρ} (h : st.Guarded) {run : WorkflowRun}
    (hnew : run.id ∉ st.runs.keys) (hruns : st'.runs = st.runs.set run.id run)
    (hcalls : st'.calls = st.calls) (hhistory : st'.history = st.history ++ [.created run]) :
    st'.Guarded := by
  refine h.moves [.created run] ⟨hhistory, fun id r hr => ?_, fun id place old _ hp => ?_,
    fun front id place back heq => ?_⟩
  · rw [hruns, Dict.get?_set] at hr
    split at hr
    · cases hr
      exact (‹id = run.id›).symm
    · exact h.keyed id r hr
  · obtain ⟨r, hr, hheld⟩ := hp.stored
    have hne : id ≠ run.id := fun heq => hnew (heq ▸ Dict.mem_keys_of_get? hr)
    refine ⟨by simp [Happening.starts], .inr ⟨⟨r, ?_, hheld⟩, by rw [hcalls]; exact hp.calls⟩⟩
    rw [hruns, Dict.get?_set_of_ne _ hne, hr]
  · rcases front with _ | ⟨e, front⟩
    · cases (List.cons.inj heq).1
    · simp at heq

section Machine

variable [PyLib] {coordinator : Option (ResourceCoordinator ρ)} {cfg : RuntimeConfig}

theorem start_guarded {st : RuntimeState ρ} (h : st.Guarded) (now : ℚ)
    (definition : WorkflowDefinition) (deviceId : String) (context : Dict String Value)
    (runId : Option String) (hid : ∀ id, runId = some id → id = "" ∨ id ∉ st.runs.keys) :
    (start coordinator now st definition deviceId context runId).2.Guarded := by
  have hnew := newRunId_not_mem_keys hid
  unfold start
  split
  · exact h
  dsimp only
  split
  · exact created_guarded h hnew rfl rfl rfl
  · split
    · exact created_guarded h hnew rfl rfl rfl
    · exact guarded_quiet h rfl rfl fun _ _ hc => hc

omit [PyLib] in
theorem get?_of_get?_erase {calls : Dict ℕ Call} (call : ℕ) (n : ℕ) (c : Call)
    (h : (calls.erase call).get? n = some c) : calls.get? n = some c := by
  rw [Dict.get?_erase] at h
  split at h
  · cases h
  · exact h

omit [PyLib] in
theorem fence_guarded {st : RuntimeState ρ} (h : st.Guarded) {now : ℚ} {run : WorkflowRun}
    (hrun : st.runs.get? run.id = some run) {m : SaveM WorkflowRun}
    (hm : StoresFence run m.written) (hclear : m.written = [] ∨ FenceClear st run) :
    ((performNow coordinator now st m).note (fenceNote run m)).Guarded := by
  obtain ⟨new, hmoves⟩ := moves_fence coordinator now h.keyed hrun hm
    (hclear.imp_right fun hc => ⟨hc.1.noCall, hc.2⟩)
  exact h.moves _ hmoves

omit [PyLib] in
/-- A method that does not await, after some notes. -/
theorem performNow_guarded {st : RuntimeState ρ} (st₀ : RuntimeState ρ) (es : List Happening)
    (h : st.Guarded) {now : ℚ} (hruns : st₀.runs = st.runs) (hhistory : st₀.history = st.history ++ es)
    (hcalls : ∀ n c, st₀.calls.get? n = some c → st.calls.get? n = some c)
    (hes : ∀ e ∈ es, (∀ runId, e.starts runId = false) ∧ ∀ runId p, e ≠ .fenced runId p)
    {s : WorkflowRun} {α : Type} {m : SaveM α} {Q : α → WorkflowRun → Prop}
    (hsame : Guarantees SameRun tracked s m Q)
    (hheld : ∀ place old, (∀ p ∈ old, p ∈ askedIn st.history) → st.Pending s.id place old →
      (∃ e ∈ es, e.Lifts old s.id place) ∨ ∀ w ∈ m.written, Holds place old w) :
    (st₀.commit coordinator now m.written).Guarded := by
  obtain ⟨new, hmoves, -⟩ := moves_commit coordinator now es h.keyed hruns
    hhistory hcalls hes (onRun_of_sameRun hsame.steps) hheld
  exact h.moves _ hmoves

/-- Interrupting a run that is clear, if that fences it. -/
theorem interrupt_guarded {st : RuntimeState ρ} (h : st.Guarded) (now : ℚ) (runId reason : String)
    (hclear : ∀ r ∈ st.runs.get? runId,
      r.status.terminal = true ∨ r.status = .waitingDecision ∨ FenceClear st r) :
    (interrupt coordinator now st runId reason).Guarded := by
  refine withRun_guarded h h rfl fun run hrun hid => ?_
  refine fence_guarded h hrun (markInterrupted_storesFence now run reason) ?_
  have := hclear run (hid ▸ hrun)
  unfold markInterrupted
  split
  · exact .inl rfl
  · rename_i hno
    obtain ⟨hterminal, hwaiting⟩ := not_or.1 hno
    exact .inr ((this.resolve_left hterminal).resolve_left hwaiting)

/-- Interrupting one run leaves the clear ones clear. -/
theorem interrupt_clear {st : RuntimeState ρ} (h : st.Keyed) (now : ℚ) (runId reason : String)
    {id : String} (hclear : ∀ r ∈ st.runs.get? id, FenceClear st r) :
    ∀ r ∈ (interrupt coordinator now st runId reason).runs.get? id,
      FenceClear (interrupt coordinator now st runId reason) r := by
  unfold interrupt withRun
  split
  · rename_i run hrun
    have hcalls : ((performNow coordinator now st (markInterrupted now run reason)).note
        (fenceNote run (markInterrupted now run reason))).calls = st.calls := calls_commit st _
    intro r hr
    rcases markInterrupted_storesFence now run reason with hw | ⟨q, hw, hid, -, -, -, hpoint⟩
    · simp only [performNow, RuntimeState.note, hw, RuntimeState.commit, List.foldl_nil] at hr
      exact ⟨by rw [Idle, hcalls]; exact (hclear r hr).1, (hclear r hr).2⟩
    · simp only [performNow, RuntimeState.note, hw, RuntimeState.commit, List.foldl_cons,
        List.foldl_nil, get?_apply_run] at hr
      split at hr
      · cases hr
        have hrunId : id = runId := by rw [‹id = r.id›, hid, h runId run hrun]
        obtain ⟨hidle, hnone⟩ := hclear run (hrunId ▸ hrun)
        exact ⟨by rw [Idle, hcalls, hid]; exact hidle, hpoint.trans hnone⟩
      · exact ⟨by rw [Idle, hcalls]; exact (hclear r hr).1, (hclear r hr).2⟩
  · exact hclear

omit [PyLib] in
theorem emitted_held {place : String} {old : List String} {call : Call} (event : Event)
    (h : call.Held place old) : (emitted call event).Held place old := by
  cases call with
  | recover => exact h
  | handler | reconcile => cases h

/-- One step under the condition keeps the invariant. -/
theorem step_guarded {st : RuntimeState ρ} (h : st.Guarded) (input : ℚ × RuntimeInput)
    (hok : FenceSafe st input.2) : (step coordinator cfg st input).Guarded := by
  obtain ⟨now, input⟩ := input
  cases input with
  | start definition deviceId context runId =>
    refine start_guarded h now definition deviceId context runId fun id hid => ?_
    subst hid
    exact hok
  | registerDefinition definition =>
    dsimp only [step]
    split
    · exact guarded_quiet h rfl rfl fun _ _ hc => hc
    · exact h
  | tick runId =>
    refine withRun_guarded h h rfl fun run hrun hid => ?_
    obtain ⟨new, hmoves⟩ := moves_perform coordinator now
      { st with issued := st.uuid4 :: st.issued } h.keyed rfl rfl (fun _ _ hc => hc)
      (tick_sameRun cfg now st.uuid4 st.definitions run) fun place old hold hp =>
        tick_holds cfg now st.definitions (held_of_pending hrun hp) (uuid4_not_mem_old hold)
    exact h.moves _ hmoves
  | reconcile runId reason =>
    refine withRun_guarded h h rfl fun run hrun hid => ?_
    obtain ⟨new, hmoves⟩ := moves_perform coordinator now
      { st with issued := st.uuid4 :: st.issued } h.keyed rfl rfl (fun _ _ hc => hc)
      (reconcile_sameRun cfg st.uuid4 st.definitions run reason) fun place old hold hp => by
        -- The run is not fenced.
        have hfenced := (held_of_pending hrun hp).fenced
        rw [hok run (hid ▸ hrun)] at hfenced
        cases hfenced
    exact h.moves _ hmoves
  | markInterrupted runId reason => exact interrupt_guarded h now runId reason hok
  | recoverInflight reason limit =>
    dsimp only [step]
    simp only [FenceSafe] at hok
    generalize (st.runs.values.take limit).filter _ = runs at hok
    induction runs generalizing st with
    | nil => exact h
    | cons run runs ih =>
      refine ih (interrupt_guarded h now run.id reason fun r hr =>
        .inr (.inr (hok run (List.mem_cons_self ..) r hr))) fun run' hrun' => ?_
      exact interrupt_clear h.keyed now run.id reason
        (hok run' (List.mem_cons_of_mem _ hrun'))
  | pause runId =>
    refine withRun_guarded h h rfl fun run hrun hid => ?_
    refine fence_guarded h hrun (pause_storesFence now run) ?_
    have := hok run (hid ▸ hrun)
    unfold pause
    split
    · exact .inl rfl
    · exact .inr (this.resolve_left ‹_›)
  | resume runId context =>
    refine withRun_guarded h h rfl fun run hrun hid => ?_
    exact performNow_guarded st [] h rfl (List.append_nil _).symm (fun _ _ hc => hc) (by simp)
      (resume_sameRun run context) fun place old _ hp =>
        .inr (resume_holds (held_of_pending hrun hp) hok)
  | cancel runId =>
    refine withRun_guarded h h rfl fun run hrun hid => ?_
    exact performNow_guarded st [] h rfl (List.append_nil _).symm (fun _ _ hc => hc) (by simp)
      (cancel_sameRun run) fun place old _ hp => .inr (cancel_holds (held_of_pending hrun hp))
  | applyDecision runId submission =>
    refine withRun_guarded h h rfl fun run hrun hid => ?_
    refine performNow_guarded (st.note (decidedNote run submission)) _ h rfl rfl (fun _ _ hc => hc)
      (fun e he => ?_) (applyDecision_sameRun now st.definitions run submission)
      fun place old _ hp => ?_
    · unfold decidedNote at he
      split at he
      · obtain rfl := List.mem_singleton.1 he
        exact ⟨fun _ => rfl, by simp⟩
      · cases he
    · -- An accepted submission answers the pending point, which was asked after the fence.
      cases hv : DecisionEngine.validate run submission with
      | error e =>
        rw [applyDecision_of_error now st.definitions hv]
        exact .inr fun w hw => by cases hw
      | ok option =>
        obtain ⟨point, hpoint, hid, -⟩ := DecisionEngine.validate_point hv
        refine .inl ⟨.decided run.id submission.decisionPointId, by simp [decidedNote, hv], rfl, ?_⟩
        exact hid ▸ (held_of_pending hrun hp).point point hpoint
  | emit call event =>
    dsimp only [step]
    split
    · exact h
    rename_i c hc
    refine withRun_guarded h h rfl fun run hrun _ => ?_
    have hlike := appendActionEvent_likens run st.events event c.action.id
    have hst : (st.commit coordinator now
        (appendActionEvent st.events run event c.action.id).written).Guarded :=
      performNow_guarded st [] h rfl (List.append_nil _).symm (fun _ _ hc => hc) (by simp)
        (likens_sameRun hlike) fun place old _ hp =>
          .inr (Logged.steps_forall.1 (likens_holds (held_of_pending hrun hp) hlike).steps)
    split
    · rename_i event' _
      refine hst.moves [] ⟨(List.append_nil _).symm, hst.keyed,
        fun id place old _ hp => ⟨by simp, .inr (hp.recall rfl fun n d hd hid => ?_)⟩, by simp⟩
      simp only [Dict.get?_set] at hd
      split at hd
      · cases hd
        refine .inr (emitted_held _ (hp.calls call c ?_ ?_))
        · rw [calls_commit, hc]
        · rw [← hid, emitted_run]
      · exact .inl hd
    · exact hst
  | lateEmit runId actionId event =>
    refine withRun_guarded h h rfl fun run hrun hid => ?_
    have hlike := appendActionEvent_likens run st.events event actionId
    exact performNow_guarded st [] h rfl (List.append_nil _).symm (fun _ _ hc => hc) (by simp)
      (likens_sameRun hlike) fun place old _ hp =>
        .inr (Logged.steps_forall.1 (likens_holds (held_of_pending hrun hp) hlike).steps)
  | finish call outcome =>
    dsimp only [step]
    split
    · rename_i snapshot state action attempt active events hc
      have hended : ({ st with calls := st.calls.erase call } : RuntimeState ρ).Guarded :=
        guarded_quiet h rfl rfl (get?_of_get?_erase _)
      refine withRun_guarded h hended rfl fun run hrun hid => ?_
      obtain ⟨new, hmoves⟩ := moves_perform coordinator now
        { st with calls := st.calls.erase call, issued := st.uuid4 :: st.issued } h.keyed rfl rfl
        (get?_of_get?_erase _)
        (finishTick_sameRun cfg now st.uuid4 st.definitions run st.events state action attempt
          active events outcome.toResult) fun place old hold hp =>
          -- No handler is suspended behind a fence.
          (hp.calls call _ hc hid.symm).elim
      exact h.moves _ hmoves
    · exact h
  | reconciled call outcome =>
    dsimp only [step]
    split
    · exact h
    rename_i c hc
    split
    · exact h
    rename_i m hm
    let ended : RuntimeState ρ :=
      { st with calls := st.calls.erase call, issued := st.uuid4 :: st.issued }
    refine performNow_guarded
      (ended.note [.reconciled c.run.id c.state.id outcome.classification]) _ h rfl rfl
      (get?_of_get?_erase _) (by simp [Happening.starts])
      (resumeReconcile_sameRun cfg now _ _ c outcome hm) fun place old hold hp => ?_
    have hheld := hp.calls call c hc rfl
    cases c with
    | handler | reconcile => cases hheld
    | recover run state action recovery events =>
      cases hm
      by_cases hl : outcome.classification = ReconcileClassification.success.value ∨
          outcome.classification = ReconcileClassification.notStarted.value
      · exact .inl ⟨_, List.mem_singleton_self _, rfl, hheld.2, hl⟩
      · obtain ⟨hsuccess, hstarted⟩ := not_or.1 hl
        exact .inr (Logged.steps_forall.1 (recovered_holds (s := run) cfg now st.definitions
          hheld.1 (uuid4_not_mem_old hold) state recovery hsuccess hstarted).steps)
  | abort call => exact guarded_quiet h rfl rfl (get?_of_get?_erase _)
  | restart => exact guarded_quiet h rfl rfl fun n c hc => by cases hc

end Machine

/-- A workflow of one state whose action has a reconcile provider. -/
def reconciledAction : WorkflowDefinition where
  id := "reload"
  version := "1"
  startState := "reload"
  states :=
    [{ id := "reload"
       action := some ⟨"reload", "device.reload", [], 0, 1, { provider := "device.probe" }, "normal"⟩
       decisionOptions := [{ id := "retry", kind := "retry" }] }]

/-- A runtime that has its handler and its provider. -/
def withProvider : RuntimeConfig where
  actions := ["device.reload"]
  reconciliations := ["device.probe"]

/-- A run is paused and resumed, and its action reconciled before its handler starts. -/
def pausedRun : List (ℚ × RuntimeInput) :=
  [(0, .start reconciledAction "device" ∅ (some "run")), (0, .pause "run"), (0, .resume "run" ∅),
    (0, .tick "run"), (0, .reconciled 0 { classification := "confirmed_not_started" }),
    (0, .tick "run")]

/-- A workflow of two states with the same action. -/
def twoActions : WorkflowDefinition where
  id := "reload"
  version := "1"
  startState := "first"
  states :=
    [{ id := "first", action := some ⟨"first", "device.reload", [], 0, 1, {}, "normal"⟩,
       nextState := "second" },
      { id := "second", action := some ⟨"second", "device.reload", [], 0, 1, {}, "normal"⟩ }]

end Runtime

end DeviceShell.Framework
