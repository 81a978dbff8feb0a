import DeviceShell.Lib.Logged
import DeviceShell.Framework.Decisions

/-!
# The workflow runtime, one atomic section at a time

`WorkflowRuntime` of `framework/runtime.py` on one run. A coroutine runs without interruption from
one `await` to the next; each such section is a `SaveM` computation, which writes the saves of the
run and the events it appends, in order, and ends by returning the run or by suspending on a handler
or on a reconcile provider (`Outcome`). `Call` is what a suspended coroutine keeps in its local
variables, the snapshot of the run among them: a section that resumes a `reconcile` or a `recover`
call saves from that snapshot, one that resumes a handler call reloads the run first.

The clock is read once per section (`now`), and one fresh id is available to it (`uuid`), which is
as many as any section uses. Handlers and providers are the environment: what they emit and return
arrives as inputs of the machine of `Framework/RuntimeMachine.lean`.
-/

namespace DeviceShell.Framework

/-- What a section writes: a run that it saves, or an event that it appends. -/
inductive Write where
  | run (r : WorkflowRun)
  | event (e : Event)

/-- A section of a coroutine. -/
abbrev SaveM := Logged Write

/-- The registries and settings of a `WorkflowRuntime`, as far as they do not change. -/
structure RuntimeConfig where
  /-- The operations that have a registered handler. -/
  actions : List String
  /-- The registered reconcile providers. -/
  reconciliations : List String
  /-- `recovery_poll_seconds`. -/
  recoveryPollSeconds : ℚ := 5

/-- The registered definitions, under `id:version`. -/
abbrev Definitions := Dict String WorkflowDefinition

/-- A coroutine suspended in an `await`, with the local variables that it still needs. -/
inductive Call where
  /-- `tick` in `supervisor.execute`. `attempt` is the attempt as saved, `active` the supervisor's
  copy. -/
  | handler (run : WorkflowRun) (state : StateNode) (action : ActionSpec)
      (attempt active : ActionAttempt) (emitted : List Event)
  /-- `tick` or `reconcile` in `provider.reconcile`. -/
  | reconcile (run : WorkflowRun) (state : StateNode) (action : ActionSpec) (emitted : List Event)
  /-- `_recover` in `provider.reconcile`. -/
  | recover (run : WorkflowRun) (state : StateNode) (action : ActionSpec)
      (recovery : Dict String Value) (emitted : List Event)

/-- The snapshot of the run that the coroutine holds. -/
def Call.run : Call → WorkflowRun
  | .handler run .. => run
  | .reconcile run .. => run
  | .recover run .. => run

/-- The state that the coroutine is about. -/
def Call.state : Call → StateNode
  | .handler _ state .. => state
  | .reconcile _ state .. => state
  | .recover _ state .. => state

/-- The action that the coroutine is about. -/
def Call.action : Call → ActionSpec
  | .handler _ _ action .. => action
  | .reconcile _ _ action _ => action
  | .recover _ _ action .. => action

/-- How a section ends: the coroutine returns, or it awaits. -/
inductive Outcome where
  | returned (run : WorkflowRun)
  | suspended (call : Call)

namespace Runtime

/-- `self.runs.save(run)`, as `_save` calls it. -/
def save (run : WorkflowRun) : SaveM WorkflowRun := do
  Logged.write (.run run)
  return run

/-- `self._definitions[f"{run.workflow_id}:{run.workflow_version}"]`. -/
def definitionOf (defs : Definitions) (run : WorkflowRun) : Except PyError WorkflowDefinition :=
  match defs.get? run.definitionKey with
  | some definition => .ok definition
  | none => .error (.keyError run.definitionKey)

/-- The lookup of the definition in `tick`, which has a message of its own. -/
def registered (defs : Definitions) (run : WorkflowRun) : Except PyError WorkflowDefinition :=
  match defs.get? run.definitionKey with
  | some definition => .ok definition
  | none => .error (.keyError ("workflow definition not registered: " ++ run.definitionKey))

/-- `registry.resolve(id)`: raises for an id that is not registered. -/
def resolve (items : List String) (id : String) : Except PyError Unit :=
  if items.contains id then .ok () else .error (.keyError ("unknown registered item: " ++ id))

/-- `_next_state`: the target of the first transition whose event was observed. -/
def nextState (state : StateNode) (observed : List String) : String :=
  match state.transitions.entries.find? (fun t => observed.contains t.1) with
  | some t => t.2
  | none => state.nextState

/-- `_advance`. -/
def advance (defs : Definitions) (run : WorkflowRun) (next trigger : String) :
    SaveM WorkflowRun := do
  let definition ← definitionOf defs run
  if next = "" then
    save { run with status := .succeeded, currentState := "", revision := run.revision + 1 }
  else
    let state ← definition.state next
    save { run with
      status := if state.terminal then .succeeded else .running
      currentState := next
      progress := { run.progress with stage := next, lastEventType := trigger }
      decisionPoint := none
      revision := run.revision + 1 }

/-- `error or default`, an empty dictionary being false. -/
def errorOr (error : Option (Dict String Value)) (default : Dict String Value) :
    Dict String Value :=
  match error with
  | some e => if e.entries.isEmpty then default else e
  | none => default

/-- `_create_decision`: a state without options fails the run. -/
def createDecision (uuid : String) (run : WorkflowRun) (state : StateNode) (reason : String)
    (error : Option (Dict String Value)) : SaveM WorkflowRun :=
  if state.decisionOptions.isEmpty then
    save { run with
      status := .failed
      error := some (errorOr error ⟨[("code", .str reason)]⟩)
      revision := run.revision + 1 }
  else
    save { run with
      status := .waitingDecision
      decisionPoint := some
        { id := uuid
          runId := run.id
          revision := run.revision + 1
          reasonCode := reason
          options := state.decisionOptions
          evidence := (error.toList.filter fun e => !e.entries.isEmpty) }
      revision := run.revision + 1 }

/-- The record of a reconcile in the context. -/
def reconcileContext (outcome : ReconcileResult) : Value :=
  .dict [("classification", .str outcome.classification), ("facts", .ofDict outcome.facts),
    ("evidence", .list (outcome.evidence.map .ofDict))]

/-- The error under which a reconcile's evidence is shown with a decision. -/
def evidenceError (outcome : ReconcileResult) : Dict String Value :=
  ⟨[("evidence", .list (outcome.evidence.map .ofDict))]⟩

/-- The value of the fence in the context. -/
def fence (reason : Value) (rest : List (String × Value)) : Value :=
  .dict ([("required", .bool true), ("reason", reason)] ++ rest)

section Sections

variable [PyLib] (cfg : RuntimeConfig) (now : ℚ) (uuid : String) (defs : Definitions)

/-- The time of the next probe, as a context entry. -/
def retryAt : String × Value :=
  ("retry_at", .str (PyLib.isoformat (now + cfg.recoveryPollSeconds)))

/-- `_apply_reconcile`. -/
def applyReconcile (run : WorkflowRun) (stateId : String) (mapping : Dict String String)
    (outcome : ReconcileResult) : SaveM WorkflowRun := do
  let directive := (mapping.get? outcome.classification).getD "decision"
  let context := run.context.set ("reconcile." ++ stateId) (reconcileContext outcome)
  if outcome.classification = ReconcileClassification.inProgress.value then
    save { run with
      context := context.set recoveryKey
        (fence (.str "reconcile.in_progress") [retryAt cfg now])
      status := .recovering
      revision := run.revision + 1 }
  else
    let run ← save { run with
      context := context, status := .recovering, revision := run.revision + 1 }
    let definition ← definitionOf defs run
    let state ← definition.state stateId
    if directive = "continue" then
      advance defs run (nextState state []) "reconcile.success"
    else if directive = "retry" then
      -- The attempts are counted by the state's id, as the source does.
      let attempts := (run.attempts.filter fun a => a.actionId == stateId).length
      match state.action with
      | some action =>
        if attempts < action.maxAttempts then
          save { run with status := .running, revision := run.revision + 1 }
        else
          createDecision uuid run state ("retry.exhausted." ++ outcome.classification)
            (some (evidenceError outcome))
      | none =>
        createDecision uuid run state ("retry.exhausted." ++ outcome.classification)
          (some (evidenceError outcome))
    else
      createDecision uuid run state ("reconcile." ++ outcome.classification)
        (some (evidenceError outcome))

/-- `_parse_time`: an unreadable time is the present. -/
def parseTime (value : String) : ℚ := (PyLib.fromisoformat value).getD now

/-- `_recover` up to its `await`. -/
def recover (run : WorkflowRun) (state : StateNode) : SaveM Outcome := do
  match run.recovery?, run.fenced with
  | some recovery, true =>
    let retryAt := Value.strOr (recovery.get? "retry_at") ""
    if retryAt ≠ "" ∧ now < parseTime now retryAt then
      return .returned run
    else match state.action with
      | none =>
        return .returned (← createDecision uuid run state "recovery.reconcile_unavailable" none)
      | some action =>
        if action.reconcile.provider = "" then
          return .returned (← createDecision uuid run state "recovery.reconcile_unavailable" none)
        else
          resolve cfg.reconciliations action.reconcile.provider
          return .suspended (.recover run state action recovery [])
  | _, _ =>
    return .returned (← save { run with status := .running, revision := run.revision + 1 })

/-- `_recover` after its `await`, on the snapshot of the run that it was called with. -/
def recovered (run : WorkflowRun) (state : StateNode) (recovery : Dict String Value)
    (outcome : ReconcileResult) : SaveM WorkflowRun := do
  let context := run.context.set ("reconcile." ++ state.id) (reconcileContext outcome)
  if outcome.classification = ReconcileClassification.success.value then
    let run ← save { run with
      context := context.set recoveryKey (.dict [("required", .bool false)])
      revision := run.revision + 1 }
    advance defs run (nextState state []) "recovery.confirmed_success"
  else if outcome.classification = ReconcileClassification.notStarted.value then
    save { run with
      context := context.set recoveryKey (.dict [("required", .bool false)])
      status := .running
      revision := run.revision + 1 }
  else if outcome.classification = ReconcileClassification.inProgress.value then
    save { run with
      context := context.set recoveryKey
        (fence ((recovery.get? "reason").getD (.str "restart")) [retryAt cfg now])
      status := .recovering
      revision := run.revision + 1 }
  else
    let run ← save { run with context := context, revision := run.revision + 1 }
    createDecision uuid run state ("recovery." ++ outcome.classification)
      (some (evidenceError outcome))

/-- The attempt that `tick` records before it starts a handler. -/
def newAttempt (run : WorkflowRun) (action : ActionSpec) : ActionAttempt where
  id := uuid
  actionId := action.id
  attempt := (run.attempts.filter fun a => a.actionId == action.id).length + 1
  status := .running
  startedAt := PyLib.isoformat now
  deadlineAt := if 0 < action.timeoutSeconds then PyLib.isoformat (now + action.timeoutSeconds)
    else ""
  lastProgressAt := PyLib.isoformat now

/-- `tick` up to its first `await`, for a run that the store holds. -/
def tick (run : WorkflowRun) : SaveM Outcome :=
  if !run.status.active then return .returned run
  else do
    let definition ← registered defs run
    let state ← definition.state run.currentState
    if run.status = .recovering then
      recover cfg now uuid run state
    else if state.terminal then
      return .returned (← save { run with status := .succeeded, revision := run.revision + 1 })
    else match state.action with
      | none =>
        if state.decisionOptions.isEmpty then
          return .returned (← advance defs run state.nextState "state.completed")
        else
          return .returned (← createDecision uuid run state "decision_required" none)
      | some action =>
        let attempt := newAttempt now uuid run action
        let run ← save { run with
          attempts := run.attempts ++ [attempt], revision := run.revision + 1 }
        resolve cfg.actions action.operation
        return .suspended (.handler run state action attempt attempt [])

end Sections

/-- `_replace_attempt`. -/
def replaceAttempt (run : WorkflowRun) (attempt : ActionAttempt) : SaveM WorkflowRun :=
  save { run with
    attempts := run.attempts.map fun a => if a.id = attempt.id then attempt else a
    revision := run.revision + 1 }

/-- `MemoryWorkflowEventStore.append`: an id that is already stored yields the event stored under it
for the same run. -/
def appendEvent (events : List Event) (event : Event) : SaveM Event := do
  let known := match event.eventId with
    | some id => events.any fun e => e.eventId == some id
    | none => false
  if known then
    match events.find? fun e => e.runId == event.runId && e.eventId == event.eventId with
    | some stored => return stored
    | none => Logged.raise .stopIteration
  else
    Logged.write (.event event)
    return event

/-- `_append_action_event` on the stored run of the event: the stored run after it and the stored
event. A progress event is recorded on the running attempt, and then on the run. -/
def appendActionEvent (events : List Event) (stored : WorkflowRun) (event : Event)
    (actionId : String) : SaveM (WorkflowRun × Event) := do
  let event := { event with runId := stored.id, actionId := actionId }
  let event ← appendEvent events event
  if event.progress then
    match (stored.attempts.reverse.find? fun a => a.actionId == actionId && a.status == .running) with
    | some active =>
      let run ← replaceAttempt stored
        { active with lastProgressAt := event.observedAt, lastEventType := event.type }
      let run ← save { run with
        progress := { run.progress with
          lastEventType := event.type, lastProgressAt := event.observedAt }
        revision := run.revision + 1 }
      return (run, event)
    | none => return (stored, event)
  else return (stored, event)

/-- The supervisor's copy of the attempt after an event. -/
def supervisedAttempt (active : ActionAttempt) (event : Event) : ActionAttempt :=
  if event.progress then
    { active with lastProgressAt := event.observedAt, lastEventType := event.type }
  else if active.lastEventType = "" then { active with lastEventType := event.type }
  else active

/-- `_with_action_facts`. -/
def withActionFacts (run : WorkflowRun) (actionId : String) (facts : Dict String Value) :
    WorkflowRun :=
  if facts.entries.isEmpty then run
  else { run with
    context := run.context.set ("action." ++ actionId ++ ".facts") (.ofDict facts)
    outputs := run.outputs.set actionId (.ofDict facts) }

/-- The events of a result, emitted in order on the stored run: the stored run after them and all
events emitted for the action so far. -/
def emitResults (events : List Event) (actionId : String) :
    WorkflowRun → List Event → List ResultEvent → SaveM (WorkflowRun × List Event)
  | stored, emitted, [] => return (stored, emitted)
  | stored, emitted, e :: rest => do
    let event := match e with
      | .event e => e
      | .named type => { type := type, runId := stored.id, actionId := actionId }
    let (stored, event) ← appendActionEvent (events ++ emitted) stored event actionId
    emitResults events actionId stored (emitted ++ [event]) rest

end Runtime

/-- `WatchdogIncident`. -/
structure WatchdogIncident where
  code : String
  message : String
  expectedEvents : List String

/-- The terminal expectations of an action, by event type. -/
def ActionSpec.expected (action : ActionSpec) : List String :=
  (action.expectations.filter (·.terminal)).map (·.eventType)

/-- `Watchdog.evaluate`. -/
def watchdogEvaluate [PyLib] (now : ℚ) (action : ActionSpec) (attempt : ActionAttempt)
    (satisfied : List String) (deviceState : DeviceStateSnapshot) : Option WatchdogIncident :=
  let parse (value : String) : ℚ :=
    if value = "" then now else (PyLib.fromisoformat value).getD now
  let elapsed := max 0 (now - parse attempt.startedAt)
  let expected := (action.expected.filter fun t => !satisfied.contains t).dedup.insertionSort (· ≤ ·)
  let overdue := (action.expectations.filter fun e => e.terminal && decide (0 < e.timeoutSeconds) &&
    !satisfied.contains e.eventType && decide (e.timeoutSeconds ≤ elapsed)).map (·.eventType)
  let progressAt := parse (if attempt.lastProgressAt = "" then attempt.startedAt
    else attempt.lastProgressAt)
  let idle := max 0 (now - progressAt)
  let idleLimits := (action.expectations.map (·.idleTimeoutSeconds)).filter fun t => decide (0 < t)
  if 0 < action.timeoutSeconds ∧ action.timeoutSeconds ≤ elapsed then
    some ⟨"action_timeout", "action deadline exceeded", expected⟩
  else if !overdue.isEmpty then
    some ⟨"expectation_timeout", "expected event was not observed before its deadline",
      overdue.insertionSort (· ≤ ·)⟩
  else if idleLimits.any fun t => decide (t ≤ idle) then
    some ⟨"progress_timeout", "semantic progress stopped", expected⟩
  else if deviceState.reachability = "unreachable" ∧ 0 < elapsed then
    some ⟨"device_unreachable", "device became unreachable", expected⟩
  else none

/-- What became of the task that `ActionSupervisor.execute` runs a handler in. -/
inductive HandlerOutcome where
  /-- The handler returned an `ActionResult`. -/
  | result (result : ActionResult)
  /-- The handler raised; its error as the supervisor reports it. -/
  | raised (error : Dict String Value)
  /-- The handler returned something else. -/
  | invalid
  /-- The watchdog found an incident, and the supervisor cancelled the handler. -/
  | timedOut (incident : WatchdogIncident)

/-- The `ActionResult` that the supervisor returns. -/
def HandlerOutcome.toResult : HandlerOutcome → ActionResult
  | .result r => r
  | .raised error => { status := .failed, error := some error }
  | .invalid =>
    { status := .failed
      error := some ⟨[("code", .str "invalid_action_result"),
        ("message", .str "Action handler did not return an ActionResult."),
        ("class", .str "deterministic")]⟩ }
  | .timedOut incident =>
    { status := .timedOut
      error := some ⟨[("code", .str incident.code), ("message", .str incident.message),
        ("class", .str "timeout"),
        ("expected_events", .list (incident.expectedEvents.map .str))]⟩ }

namespace Runtime

section Sections

variable [PyLib] (cfg : RuntimeConfig) (now : ℚ) (uuid : String) (defs : Definitions)

/-- The reason under which an unfinished action is reconciled or decided. -/
def incidentReason (result : ActionResult) (incident : Option WatchdogIncident) : String :=
  Value.strOr ((result.error.getD ∅).get? "code")
    ((incident.map (·.code)).getD "expectation_not_met")

/-- `tick` from the end of its first `await`: `stored` is the run as the store holds it then. -/
def finishTick (events : List Event) (stored : WorkflowRun) (state : StateNode)
    (action : ActionSpec) (attempt active : ActionAttempt) (emitted : List Event)
    (result : ActionResult) : SaveM Outcome := do
  let (run, emitted) ← emitResults events action.id stored emitted result.events
  let observed := emitted.map (·.type)
  let run ← save (withActionFacts run action.id result.facts)
  let persisted := (run.attempts.find? fun a => a.id == attempt.id).getD active
  let updated := { persisted with
    lastEventType := (emitted.getLast?.map (·.type)).getD active.lastEventType
    lastProgressAt := ((emitted.getLast?.filter (·.progress)).map (·.observedAt)).getD
      persisted.lastProgressAt }
  if result.status = .succeeded ∧ action.expected.all (observed.contains ·) then
    let run ← replaceAttempt run { updated with status := .succeeded, result := result.facts }
    return .returned (← advance defs run (nextState state observed)
      (observed.headD "state.completed"))
  else
    let incident := watchdogEvaluate now action updated observed run.deviceState
    let reason := incidentReason result incident
    let run ← replaceAttempt run
      { updated with status := .unknown, result := result.facts, error := result.error }
    if action.reconcile.provider ≠ "" then
      let run ← save { run with status := .waitingReconcile, revision := run.revision + 1 }
      resolve cfg.reconciliations action.reconcile.provider
      return .suspended (.reconcile run state action emitted)
    else
      return .returned (← createDecision uuid run state reason result.error)

/-- `reconcile` up to its `await`. -/
def reconcile (run : WorkflowRun) (reason : String) : SaveM Outcome := do
  let definition ← definitionOf defs run
  let state ← definition.state run.currentState
  match state.action with
  | none => return .returned (← createDecision uuid run state reason none)
  | some action =>
    if action.reconcile.provider = "" then
      return .returned (← createDecision uuid run state reason none)
    else
      resolve cfg.reconciliations action.reconcile.provider
      return .suspended (.reconcile run state action [])

/-- `mark_interrupted`. -/
def markInterrupted (run : WorkflowRun) (reason : String) : SaveM WorkflowRun :=
  if run.status.terminal ∨ run.status = .waitingDecision then return run
  else save { run with
    status := .paused
    context := run.context.set recoveryKey
      (fence (.str reason) [("observed_at", .str (PyLib.isoformat now))])
    revision := run.revision + 1 }

/-- `pause`. -/
def pause (run : WorkflowRun) : SaveM WorkflowRun :=
  if run.status.terminal then return run
  else save { run with
    status := .paused
    context := run.context.set recoveryKey
      (fence (.str "paused") [("observed_at", .str (PyLib.isoformat now))])
    revision := run.revision + 1 }

/-- `resume`. -/
def resume (run : WorkflowRun) (context : Dict String Value) : SaveM WorkflowRun :=
  if run.status = .paused ∨ run.status = .waitingDecision ∨ run.status = .recovering then
    save { run with
      status := if run.fenced then .recovering else .running
      context := run.context.merge context
      decisionPoint := none
      revision := run.revision + 1 }
  else return run

/-- `cancel`. -/
def cancel (run : WorkflowRun) : SaveM WorkflowRun :=
  if run.status.terminal then return run
  else save { run with
    status := .cancelled, decisionPoint := none, revision := run.revision + 1 }

/-- The outputs that a decision leaves. -/
def decisionOutputs (option : DecisionOption) (submission : DecisionSubmission) :
    Dict String Value :=
  ⟨[("approved", .bool (option.kind == "approve")), ("option_id", .str option.id),
    ("reason", .str submission.reason),
    ("status", .str (if option.kind == "approve" then "approved" else "rejected"))]⟩

/-- `apply_decision`. -/
def applyDecision (run : WorkflowRun) (submission : DecisionSubmission) :
    SaveM WorkflowRun := do
  let option ← DecisionEngine.validate run submission
  let outputs := decisionOutputs option submission
  let run := { run with
    context := (run.context.set "decision" (.ofDict outputs)).set ("decision." ++ option.id)
      (.ofDict outputs)
    outputs := run.outputs.merge outputs }
  if option.kind = "abort" ∨ option.kind = "cancel" then
    save { run with status := .cancelled, decisionPoint := none, revision := run.revision + 1 }
  else if option.kind = "reconnect" then
    save { run with
      status := .running
      decisionPoint := none
      context := run.context.set "framework.reconnect" (.dict [("state", .str run.currentState),
        ("requested_at", .str (PyLib.isoformat now))])
      revision := run.revision + 1 }
  else if option.kind = "retry" then
    save { run with status := .running, decisionPoint := none, revision := run.revision + 1 }
  else if option.nextState = "" then
    save { run with status := .running, decisionPoint := none, revision := run.revision + 1 }
  else
    let definition ← definitionOf defs run
    if definition.states.any (·.id == option.nextState) then
      advance defs { run with decisionPoint := none } option.nextState "decision.applied"
    else
      save { run with status := .running, decisionPoint := none, revision := run.revision + 1 }

end Sections

end Runtime

end DeviceShell.Framework
