import DeviceShell.Lib.Method
import DeviceShell.Framework.Runtime
import DeviceShell.Persistence.EventStores
import DeviceShell.Persistence.WorkflowStores

/-!
# What applying a decision writes

`WorkflowRuntime.apply_decision` with both of its stores: it appends the event `decision.applied`,
and then saves the run by the option that was chosen. `Runtime.applyDecision` has the saves alone;
they are the same (`Runtime.applyDecision_eq`).

Applying a decision is to be all or nothing (`AllOrNothing`). The event is appended before the
definition of the run is looked up, so a decision that moves a run of an unregistered definition to
a state raises with the event appended. `allOrNothing_iff` says that this is the only case.
-/

namespace DeviceShell.Framework

open Persistence (WorkflowEvent MemoryWorkflowEventStore SQLiteWorkflowEventStore)

/-! ## Event stores -/

/-- The operations of a store of events, on states `ε`, with what an append of a new event does. -/
structure EventStore (ε : Type) where
  append : WorkflowEvent → ε → Except PyError WorkflowEvent × ε
  list : ε → String → List WorkflowEvent
  /-- An event with the id is stored. -/
  holds : ε → String → Prop
  /-- An event with a source and a new id is numbered and comes last in its run. -/
  append_new : ∀ event store, ¬ holds store event.eventId → event.source ≠ "" → ∃ n : ℤ,
    (append event store).1 = .ok { event with sequence := n } ∧
      ∀ runId, list (append event store).2 runId = list store runId ++
        if runId = event.runId then [{ event with sequence := n }] else []

/-- `MemoryWorkflowEventStore`. -/
def memoryEvents : EventStore MemoryWorkflowEventStore where
  append := MemoryWorkflowEventStore.append
  list store runId := store.list runId 0
  holds store eventId := eventId ∈ store.ids
  append_new event store hnew _ := by
    refine ⟨(store.ofRun event.runId).length + 1, ?_⟩
    unfold MemoryWorkflowEventStore.append
    rw [if_neg hnew]
    refine ⟨rfl, fun runId => ?_⟩
    unfold MemoryWorkflowEventStore.list MemoryWorkflowEventStore.ofRun
    rw [Dict.get?_set]
    by_cases hrun : runId = event.runId
    · rw [if_pos hrun, if_pos hrun, hrun, Option.getD_some, List.filter_append]
      have hpositive : (0 : ℤ) < (((store.events.get? event.runId).getD []).length : ℤ) + 1 := by
        omega
      simp [hpositive]
    · rw [if_neg hrun, if_neg hrun, List.append_nil]

/-- The SQLite stores that come about by appends: they hold the events of some log. -/
abbrev SQLiteEvents := { store : SQLiteWorkflowEventStore //
  ∃ log memory, Persistence.Logged log memory store }

/-- An append leaves such a store. -/
theorem logged_append (event : WorkflowEvent) (store : SQLiteEvents) :
    ∃ log memory, Persistence.Logged log memory (store.1.append event).2 := by
  obtain ⟨log, memory, hlog⟩ := store.2
  by_cases hknown : ∃ stored ∈ log, stored.eventId = event.eventId
  · obtain ⟨stored, hmem, hid⟩ := hknown
    rw [(hlog.append_stored hmem hid).2]
    exact ⟨log, memory, hlog⟩
  · have hnew : ∀ e ∈ log, e.eventId ≠ event.eventId := fun e he heq => hknown ⟨e, he, heq⟩
    exact ⟨_, _, (hlog.append_new hnew).2.2⟩

/-- `SQLiteWorkflowEventStore`. -/
def sqliteEvents : EventStore SQLiteEvents where
  append event store := ((store.1.append event).1, ⟨(store.1.append event).2, logged_append _ _⟩)
  list store runId := store.1.list runId 0
  holds store eventId := ∃ row ∈ store.1.rows, row.eventId = eventId
  append_new event store hnew hsource := by
    obtain ⟨log, memory, hlog⟩ := store.2
    have hfresh : ∀ e ∈ log, e.eventId ≠ event.eventId := by
      intro e he heq
      refine hnew ⟨e.row, ?_, heq⟩
      rw [hlog.rows]
      exact List.mem_map_of_mem he
    obtain ⟨-, hresult, hlogged⟩ := hlog.append_new hfresh
    refine ⟨_, hresult, fun runId => ?_⟩
    dsimp only
    rw [hlogged.lists, hlogged.list_zero, hlog.lists, hlog.list_zero, List.filter_append,
      List.map_append]
    congr 1
    by_cases hrun : runId = event.runId
    · rw [if_pos hrun, hrun]
      have hreload : (Persistence.numberAfter log event).reload =
          Persistence.numberAfter log event := Persistence.reload_eq_self.mpr hsource
      simp only [Persistence.numberAfter, decide_true, List.filter_cons_of_pos, List.filter_nil,
        List.map_cons, List.map_nil]
      exact congrArg (fun e => [e]) hreload
    · have hother : (Persistence.numberAfter log event).runId ≠ runId := fun heq => hrun heq.symm
      rw [if_neg hrun]
      simp [hother]

/-! ## `apply_decision` -/

namespace Runtime

variable [PyLib] (now : ℚ) (defs : Definitions)

/-- `apply_decision` from the appended event on, with the option that was chosen. -/
def settle (run : WorkflowRun) (option : DecisionOption) (submission : DecisionSubmission) :
    SaveM WorkflowRun := do
  let outputs := decisionOutputs option submission
  let run := { run with
    context := (run.context.set "decision" (.ofDict outputs)).set ("decision." ++ option.id)
      (.ofDict outputs)
    outputs := run.outputs.merge outputs }
  if option.kind = "abort" ∨ option.kind = "cancel" then
    save { run with status := .cancelled, decisionPoint := none, revision := run.revision + 1 }
  else if option.kind = "reconnect" then
    save { run with
      status := .running
      decisionPoint := none
      context := run.context.set "framework.reconnect" (.dict [("state", .str run.currentState),
        ("requested_at", .str (PyLib.isoformat now))])
      revision := run.revision + 1 }
  else if option.kind = "retry" then
    save { run with status := .running, decisionPoint := none, revision := run.revision + 1 }
  else if option.nextState = "" then
    save { run with status := .running, decisionPoint := none, revision := run.revision + 1 }
  else
    let definition ← definitionOf defs run
    if definition.states.any (·.id == option.nextState) then
      advance defs { run with decisionPoint := none } option.nextState "decision.applied"
    else
      save { run with status := .running, decisionPoint := none, revision := run.revision + 1 }

/-- The saves of `apply_decision` are those after the event. -/
theorem applyDecision_eq (run : WorkflowRun) (submission : DecisionSubmission) :
    applyDecision now defs run submission = (do
      let option ← DecisionEngine.validate run submission
      settle now defs run option submission) := rfl

/-- The kinds of options after which the run stays in its state. -/
def stayingKinds : List String := ["abort", "cancel", "reconnect", "retry"]

variable {now defs} {run : WorkflowRun} {option : DecisionOption}
  {submission : DecisionSubmission}

/-- A section that saves the run once, without a pending decision, and returns it. -/
def SavesOnce (section_ : SaveM WorkflowRun) (run : WorkflowRun) : Prop :=
  ∃ saved, section_ = ⟨[.run saved], .ok saved⟩ ∧ saved.id = run.id ∧ saved.decisionPoint = none

omit [PyLib] in
theorem savesOnce_save {saved : WorkflowRun} (hid : saved.id = run.id)
    (hpoint : saved.decisionPoint = none) : SavesOnce (save saved) run :=
  ⟨saved, rfl, hid, hpoint⟩

omit [PyLib] in
/-- The runtime moves a run without a pending decision to a state of its definition. -/
theorem savesOnce_advance {definition : WorkflowDefinition} {next trigger : String}
    (hdef : definitionOf defs run = .ok definition) (hpoint : run.decisionPoint = none)
    (hnext : definition.states.any (·.id == next) = true) :
    SavesOnce (advance defs run next trigger) run := by
  unfold advance
  rw [hdef, Logged.ok_bind]
  by_cases hempty : next = ""
  · refine ⟨{ run with status := .succeeded, currentState := "", revision := run.revision + 1 },
      ?_, rfl, hpoint⟩
    rw [if_pos hempty]
    rfl
  · obtain ⟨state, hmem, hid⟩ := List.any_eq_true.mp hnext
    cases hfound : definition.states.find? (·.id == next) with
    | none => exact absurd hid (List.find?_eq_none.mp hfound state hmem)
    | some target =>
      have hstate : definition.state next = .ok target := by
        unfold WorkflowDefinition.state
        rw [hfound]
      rw [if_neg hempty, hstate, Logged.ok_bind]
      exact ⟨_, rfl, rfl, rfl⟩

variable (now submission) in
/-- The option's run is saved where the definition is not needed, or is there. -/
theorem settle_savesOnce (h : option.kind ∈ stayingKinds ∨ option.nextState = "" ∨
    defs.contains run.definitionKey = true) :
    SavesOnce (settle now defs run option submission) run := by
  unfold settle
  extract_lets outputs decided
  by_cases hcancelled : option.kind = "abort" ∨ option.kind = "cancel"
  · rw [if_pos hcancelled]
    exact savesOnce_save rfl rfl
  rw [if_neg hcancelled]
  by_cases hreconnect : option.kind = "reconnect"
  · rw [if_pos hreconnect]
    exact savesOnce_save rfl rfl
  rw [if_neg hreconnect]
  by_cases hretry : option.kind = "retry"
  · rw [if_pos hretry]
    exact savesOnce_save rfl rfl
  rw [if_neg hretry]
  by_cases hnext : option.nextState = ""
  · rw [if_pos hnext]
    exact savesOnce_save rfl rfl
  rw [if_neg hnext]
  have hmoves : option.kind ∉ stayingKinds := by
    simp only [stayingKinds, List.mem_cons, List.not_mem_nil, or_false]
    tauto
  have hregistered : defs.contains run.definitionKey = true :=
    (h.resolve_left hmoves).resolve_left hnext
  obtain ⟨definition, hget⟩ := Option.isSome_iff_exists.mp hregistered
  have hdef : definitionOf defs decided = .ok definition := by
    unfold definitionOf
    rw [show decided.definitionKey = run.definitionKey from rfl, hget]
  rw [hdef, Logged.ok_bind]
  by_cases hany : definition.states.any (·.id == option.nextState) = true
  · rw [if_pos hany]
    have hadvance : SavesOnce (advance defs { decided with decisionPoint := none }
        option.nextState "decision.applied") { decided with decisionPoint := none } :=
      savesOnce_advance hdef rfl hany
    exact hadvance
  · rw [if_neg hany]
    exact savesOnce_save rfl rfl

/-- Where the definition is needed and is not there, nothing is saved. -/
theorem settle_raises (hkind : option.kind ∉ stayingKinds) (hnext : option.nextState ≠ "")
    (hmissing : defs.contains run.definitionKey = false) :
    settle now defs run option submission = Logged.raise (.keyError run.definitionKey) := by
  simp only [stayingKinds, List.mem_cons, List.not_mem_nil, or_false, not_or] at hkind
  obtain ⟨habort, hcancel, hreconnect, hretry⟩ := hkind
  have hget : defs.get? run.definitionKey = none := Option.isSome_eq_false_iff.mp hmissing |>
    Option.isNone_iff_eq_none.mp
  unfold settle
  extract_lets outputs decided
  have hdef : definitionOf defs decided = .error (.keyError run.definitionKey) := by
    unfold definitionOf
    rw [show decided.definitionKey = run.definitionKey from rfl, hget]
  rw [if_neg (not_or.mpr ⟨habort, hcancel⟩), if_neg hreconnect, if_neg hretry, if_neg hnext, hdef,
    Logged.error_bind]

end Runtime

/-- What a `WorkflowRuntime` keeps in its stores. -/
structure RuntimeStores (σ ε : Type) where
  runs : σ
  events : ε

namespace RuntimeStores

variable {σ ε : Type} (S : KeyedStore String WorkflowRun σ) (E : EventStore ε)

/-- `self.runs.get(run_id)`. -/
def getRun (runId : String) : DeviceShell.Method PyError (RuntimeStores σ ε) WorkflowRun := do
  let stores ← get
  match S.get stores.runs runId with
  | some run => return run
  | none => throw (.keyError ("workflow run not found: " ++ runId))

/-- An event of a run, with a fresh id. -/
def newEvent (uuid : String) (run : WorkflowRun) (type : String)
    (payload : List (String × Value)) : WorkflowEvent where
  type := type
  runId := run.id
  eventId := uuid
  payload := payload

/-- `_emit`. -/
def emit (uuid : String) (run : WorkflowRun) (type : String) (payload : List (String × Value)) :
    DeviceShell.Method PyError (RuntimeStores σ ε) WorkflowEvent := do
  let stores ← get
  let (stored, events) := E.append (newEvent uuid run type payload) stores.events
  set { stores with events := events }
  DeviceShell.Method.lift stored

/-- The saves of a section. -/
def saveAll (runs : σ) (writes : List Write) : σ :=
  writes.foldl (fun runs w => match w with
    | .run r => S.save runs r
    | .event _ => runs) runs

/-- A section that only saves runs takes effect. -/
def perform {α : Type} (section_ : SaveM α) :
    DeviceShell.Method PyError (RuntimeStores σ ε) α := do
  modify fun stores => { stores with runs := saveAll S stores.runs section_.written }
  DeviceShell.Method.lift section_.result

/-- The payload of the event of a decision. -/
def decisionPayload (option : DecisionOption) (submission : DecisionSubmission) :
    List (String × Value) :=
  [("option_id", .str option.id), ("actor_type", .str submission.actorType)]

/-- `apply_decision`. -/
def applyDecision [PyLib] (now : ℚ) (uuid : String) (defs : Definitions) (runId : String)
    (submission : DecisionSubmission) :
    DeviceShell.Method PyError (RuntimeStores σ ε) WorkflowRun := do
  let run ← getRun S runId
  let option ← DeviceShell.Method.lift (DecisionEngine.validate run submission)
  let _ ← emit E uuid run "decision.applied" (decisionPayload option submission)
  perform S (Runtime.settle now defs run option submission)

/-! ## What is to hold -/

variable [PyLib] (now : ℚ) (uuid : String) (defs : Definitions)

/-- Applying a decision is all or nothing. -/
structure AllOrNothing (stores : RuntimeStores σ ε) (runId : String)
    (submission : DecisionSubmission) : Prop where
  /-- What raises leaves both stores as they were. -/
  raised : ∀ e stores',
    (applyDecision S E now uuid defs runId submission).run stores = some (.error e, stores') →
      stores' = stores
  /-- What returns has appended one event, and saved the run without a pending decision. -/
  returned : ∀ run stores',
    (applyDecision S E now uuid defs runId submission).run stores = some (.ok run, stores') →
      (∃ event : WorkflowEvent, event.type = "decision.applied" ∧ event.runId = runId ∧
        ∀ id, E.list stores'.events id = E.list stores.events id ++
          if id = runId then [event] else []) ∧
      S.get stores'.runs runId = some run ∧ run.decisionPoint = none

/-- The submission is refused, or its option leaves the run in its state, or the definition of the
run is registered. -/
def Settles (stores : RuntimeStores σ ε) (runId : String) (submission : DecisionSubmission) : Prop :=
  ∀ run option, S.get stores.runs runId = some run →
    DecisionEngine.validate run submission = .ok option →
      option.kind ∈ Runtime.stayingKinds ∨ option.nextState = "" ∨
        defs.contains run.definitionKey = true

/-! ## What a call does -/

variable {S E now uuid defs} {stores : RuntimeStores σ ε} {runId : String}
  {submission : DecisionSubmission}

omit [PyLib] in
/-- A run that is stored is read. -/
theorem run_getRun {run : WorkflowRun} (h : S.get stores.runs runId = some run) :
    (getRun S runId).run stores = some (.ok run, stores) := by
  unfold getRun
  have hget : (get : DeviceShell.Method PyError (RuntimeStores σ ε) _).run stores =
      some (.ok stores, stores) := rfl
  rw [DeviceShell.Method.run_bind_ok hget, h]
  rfl

omit [PyLib] in
/-- A run that is not stored raises. -/
theorem run_getRun_error (h : S.get stores.runs runId = none) :
    (getRun S runId).run stores =
      some (.error (.keyError ("workflow run not found: " ++ runId)), stores) := by
  unfold getRun
  have hget : (get : DeviceShell.Method PyError (RuntimeStores σ ε) _).run stores =
      some (.ok stores, stores) := rfl
  rw [DeviceShell.Method.run_bind_ok hget, h]
  rfl

variable (E now uuid defs) in
/-- A submission that is refused, or for a run that is not stored, raises and writes nothing. -/
theorem applyDecision_refused (h : ∀ run option, S.get stores.runs runId = some run →
    DecisionEngine.validate run submission ≠ .ok option) : ∃ e,
      (applyDecision S E now uuid defs runId submission).run stores = some (.error e, stores) := by
  unfold applyDecision
  cases hrun : S.get stores.runs runId with
  | none => exact ⟨_, DeviceShell.Method.run_bind_error (run_getRun_error hrun)⟩
  | some run =>
    rw [DeviceShell.Method.run_bind_ok (run_getRun hrun)]
    cases hvalid : DecisionEngine.validate run submission with
    | error e => exact ⟨e, DeviceShell.Method.run_bind_error (DeviceShell.Method.run_lift _ _)⟩
    | ok option => exact absurd hvalid (h run option hrun)

variable (now defs) in
/-- What an accepted submission does: the event is appended, and then the section runs. -/
theorem applyDecision_accepted {run : WorkflowRun} {option : DecisionOption}
    (hrun : S.get stores.runs runId = some run)
    (hvalid : DecisionEngine.validate run submission = .ok option)
    (hfresh : ¬ E.holds stores.events uuid) : ∃ event : WorkflowEvent, ∃ events : ε,
      event.type = "decision.applied" ∧ event.runId = run.id ∧
      (∀ id, E.list events id = E.list stores.events id ++ if id = run.id then [event] else []) ∧
      (applyDecision S E now uuid defs runId submission).run stores =
        some ((Runtime.settle now defs run option submission).result,
          { runs := saveAll S stores.runs (Runtime.settle now defs run option submission).written
            events := events }) := by
  let event := newEvent uuid run "decision.applied" (decisionPayload option submission)
  have hsource : event.source ≠ "" := show "engine" ≠ "" by decide
  obtain ⟨n, hresult, hlist⟩ := E.append_new event stores.events hfresh hsource
  have hemit : (emit E uuid run "decision.applied" (decisionPayload option submission)).run stores =
      some ((E.append event stores.events).1,
        { stores with events := (E.append event stores.events).2 }) := rfl
  rw [hresult] at hemit
  refine ⟨_, _, rfl, rfl, hlist, ?_⟩
  · unfold applyDecision
    rw [DeviceShell.Method.run_bind_ok (run_getRun hrun), hvalid,
      DeviceShell.Method.run_bind_ok (DeviceShell.Method.run_lift _ _),
      DeviceShell.Method.run_bind_ok hemit]
    rfl

/-- Applying a decision to a run is all or nothing exactly where the submission is refused, its
option leaves the run in its state, or the definition of the run is registered. -/
theorem allOrNothing_iff (hS : S.Lawful WorkflowRun.id) (stores : RuntimeStores σ ε)
    (hfresh : ¬ E.holds stores.events uuid) (runId : String) (submission : DecisionSubmission) :
    AllOrNothing S E now uuid defs stores runId submission ↔
      Settles S defs stores runId submission := by
  constructor
  · intro h run option hrun hvalid
    by_contra hnot
    simp only [not_or, Bool.not_eq_true] at hnot
    obtain ⟨hkind, hnext, hmissing⟩ := hnot
    -- The section raises, and the event has been appended by then.
    obtain ⟨event, events, -, hevent, hlist, happly⟩ :=
      applyDecision_accepted now defs hrun hvalid hfresh
    rw [Runtime.settle_raises hkind hnext hmissing] at happly
    have hsame := h.raised _ _ happly
    have hlisted := hlist run.id
    rw [if_pos rfl, ← hsame] at hlisted
    simp at hlisted
  · intro h
    by_cases hrefused : ∀ run option, S.get stores.runs runId = some run →
        DecisionEngine.validate run submission ≠ .ok option
    · obtain ⟨e, happly⟩ := applyDecision_refused E now uuid defs hrefused
      constructor
      · intro e' stores' hrun
        rw [happly] at hrun
        cases hrun
        rfl
      · intro run stores' hrun
        rw [happly] at hrun
        cases hrun
    · simp only [not_forall, not_not] at hrefused
      obtain ⟨run, option, hrun, hvalid⟩ := hrefused
      obtain ⟨event, events, htype, hevent, hlist, happly⟩ :=
        applyDecision_accepted now defs hrun hvalid hfresh
      obtain ⟨saved, hsettle, hid, hpoint⟩ := Runtime.settle_savesOnce now submission
        (h run option hrun hvalid)
      have hrunId : run.id = runId := hS.get_key _ _ _ hrun
      rw [hsettle] at happly
      constructor
      · intro e stores' hreturned
        rw [happly] at hreturned
        cases hreturned
      · intro run' stores' hreturned
        rw [happly] at hreturned
        cases hreturned
        refine ⟨⟨event, htype, hevent.trans hrunId, hrunId ▸ hlist⟩, ?_, hpoint⟩
        show S.get (S.save stores.runs saved) runId = some saved
        rw [hS.get_save, if_pos (hrunId.symm.trans hid.symm)]

end RuntimeStores

/-! ## A decision after a restart -/

/-- A workflow that asks before it goes on. -/
def askingDefinition : WorkflowDefinition where
  id := "upgrade"
  version := "1"
  startState := "ask"
  states :=
    [{ id := "ask", decisionOptions := [{ id := "go", kind := "approve", nextState := "done" }] },
      { id := "done", terminal := true }]

/-- A run of it that waits for the decision. -/
def askingRun : WorkflowRun where
  id := "run"
  workflowId := "upgrade"
  workflowVersion := "1"
  deviceId := "device"
  status := .waitingDecision
  currentState := "ask"
  decisionPoint := some
    { id := "point", runId := "run", revision := 0, reasonCode := "decision_required"
      options := [{ id := "go", kind := "approve", nextState := "done" }] }

/-- The stores with that run and no event. -/
def askingStores : RuntimeStores (Rows fun run : WorkflowRun => (id run).id)
    MemoryWorkflowEventStore where
  runs := Persistence.MemoryWorkflowRunStore.save Rows.empty askingRun
  events := {}

/-- The submission that goes on. -/
def goAhead : DecisionSubmission where
  decisionPointId := "point"
  expectedRevision := 0
  optionId := "go"
  actorType := "human"

/-- With its definition registered, the decision is all or nothing. -/
theorem allOrNothing_askingRun :
    @RuntimeStores.AllOrNothing _ _ Persistence.MemoryWorkflowRunStore memoryEvents .atEpoch 0
      "event" ⟨[("upgrade:1", askingDefinition)]⟩ askingStores "run" goAhead := by
  refine (@RuntimeStores.allOrNothing_iff _ _ Persistence.MemoryWorkflowRunStore memoryEvents
    .atEpoch 0 "event" ⟨[("upgrade:1", askingDefinition)]⟩
    (KeyedStore.ofRows_lawful (fun _ _ => rfl) fun _ => List.Perm.refl _) askingStores
    List.not_mem_nil "run" goAhead).mpr ?_
  intro run option hrun _
  have hsame : askingRun = run := Option.some.inj hrun
  subst hsame
  exact .inr (.inr rfl)

/-- In a process in which the definition is not registered, the decision raises, and the event
`decision.applied` stays. -/
theorem not_allOrNothing_unregistered :
    ¬ @RuntimeStores.AllOrNothing _ _ Persistence.MemoryWorkflowRunStore memoryEvents .atEpoch 0
      "event" ∅ askingStores "run" goAhead := by
  intro h
  obtain ⟨hraised, -⟩ := h
  have hsame := hraised (.keyError "upgrade:1") _ rfl
  have hevents := congrArg (fun stores => (memoryEvents.list stores.events "run").length) hsame
  exact absurd hevents (by decide)

end DeviceShell.Framework
