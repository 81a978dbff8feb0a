import DeviceShell.Lib.Machine
import DeviceShell.Framework.Runtime

/-!
# The workflow runtime as a state machine

The runs of one `WorkflowRuntime` under every interleaving of its calls. A state holds the run
store, the registered definitions, the event store, the leases and the suspended coroutines; an
input either calls a method, or delivers to a suspended coroutine what its handler or provider did.
A step is one atomic section of `Framework/Runtime.lean`. `history` records every save, every start
of a handler, every reconcile that returns, every fence and every accepted decision in the order in
which they happened; no section reads it.

The resource coordinator is a parameter, given by what `acquire` and `release` do to its state.
-/

namespace DeviceShell.Framework

/-- `ResourceRequest`. -/
structure ResourceRequest where
  kind : String
  resourceId : String
  ownerId : String
  ttlSeconds : ℕ := 900

/-- `ResourceLease`. -/
structure ResourceLease where
  kind : String
  resourceId : String
  ownerId : String
  token : String
  expiresAt : String

/-- A resource coordinator with internal state `ρ`: its operations at a given time. -/
structure ResourceCoordinator (ρ : Type) where
  acquire : ℚ → ρ → ResourceRequest → Except PyError ResourceLease × ρ
  release : ℚ → ρ → ResourceLease → ρ

/-- What happened in the runtime, in order. -/
inductive Happening where
  /-- `start` stored a new run. -/
  | created (run : WorkflowRun)
  /-- `_save` stored a run. -/
  | saved (run : WorkflowRun)
  /-- The supervisor started the handler of an action. -/
  | started (runId actionId : String)
  /-- A provider's `reconcile` of the action of a state returned. -/
  | reconciled (runId stateId classification : String)
  /-- `pause` or `mark_interrupted` stored the fence, in the given state. -/
  | fenced (runId stateId : String)
  /-- A decision point was stored for the first time. -/
  | asked (runId pointId : String)
  /-- `apply_decision` accepted a submission for a point. -/
  | decided (runId pointId : String)

/-- The decision point that a happening stores for the first time. -/
def Happening.pointId? : Happening → Option String
  | .asked _ pointId => some pointId
  | _ => none

/-- The state of a `WorkflowRuntime` and of its stores. -/
structure RuntimeState (ρ : Type) where
  runs : Dict String WorkflowRun := ∅
  definitions : Definitions := ∅
  events : List Event := []
  resourceLeases : Dict String ResourceLease := ∅
  resources : ρ
  /-- The suspended coroutines. -/
  calls : Dict ℕ Call := ∅
  /-- The number under which the next coroutine suspends. -/
  nextCall : ℕ := 0
  /-- The fresh ids given out so far. -/
  issued : List String := []
  history : List Happening := []

/-- The calls of the methods of a `WorkflowRuntime`, and what its environment does. -/
inductive RuntimeInput where
  | start (definition : WorkflowDefinition) (deviceId : String) (context : Dict String Value)
      (runId : Option String)
  | registerDefinition (definition : WorkflowDefinition)
  | tick (runId : String)
  | reconcile (runId reason : String)
  | markInterrupted (runId reason : String)
  | recoverInflight (reason : String) (limit : ℕ)
  | pause (runId : String)
  | resume (runId : String) (context : Dict String Value)
  | cancel (runId : String)
  | applyDecision (runId : String) (submission : DecisionSubmission)
  /-- The handler or provider of a suspended call emits an event. -/
  | emit (call : ℕ) (event : Event)
  /-- A handler whose call has ended emits an event. -/
  | lateEmit (runId actionId : String) (event : Event)
  /-- The supervisor of a suspended handler call returns. -/
  | finish (call : ℕ) (outcome : HandlerOutcome)
  /-- The provider of a suspended call returns. -/
  | reconciled (call : ℕ) (outcome : ReconcileResult)
  /-- The `await` of a suspended call raises. -/
  | abort (call : ℕ)
  /-- The process ends and a new one is started over the same stores. -/
  | restart

namespace RuntimeState

variable {ρ : Type}

/-- The ids in use: of runs, of decision points, and those that were given out. -/
def usedIds (st : RuntimeState ρ) : List String :=
  st.issued ++ st.runs.keys ++ st.history.filterMap Happening.pointId?

/-- `str(uuid4())`: a text that is in use nowhere, here a longer one than any in use. -/
def uuid4 (st : RuntimeState ρ) : String :=
  String.ofList (List.replicate ((st.usedIds.map String.length).foldr max 0 + 1) 'u')

/-- `run_id or str(uuid4())`. -/
def newRunId (st : RuntimeState ρ) (runId : Option String) : String :=
  match runId with
  | some id => if id = "" then st.uuid4 else id
  | none => st.uuid4

/-- A terminal save gives the run's lease back. -/
def releaseTerminal (coordinator : Option (ResourceCoordinator ρ)) (now : ℚ)
    (st : RuntimeState ρ) (run : WorkflowRun) : RuntimeState ρ :=
  if run.status.terminal then
    match st.resourceLeases.get? run.id, coordinator with
    | some lease, some c =>
      { st with
        resourceLeases := st.resourceLeases.erase run.id
        resources := c.release now st.resources lease }
    | _, _ => { st with resourceLeases := st.resourceLeases.erase run.id }
  else st

/-- What the history records of a save besides the save: the decision point that it introduces. -/
def askedBy (st : RuntimeState ρ) (r : WorkflowRun) : List Happening :=
  match r.decisionPoint with
  | some point =>
    if (st.history.filterMap Happening.pointId?).contains point.id then []
    else [.asked r.id point.id]
  | none => []

/-- One write of a section. -/
def apply (coordinator : Option (ResourceCoordinator ρ)) (now : ℚ) (st : RuntimeState ρ) :
    Write → RuntimeState ρ
  | .event e => { st with events := st.events ++ [e] }
  | .run r => releaseTerminal coordinator now
      { st with
        runs := st.runs.set r.id r
        history := st.history ++ .saved r :: askedBy st r } r

/-- The writes of a section, in order. -/
def commit (coordinator : Option (ResourceCoordinator ρ)) (now : ℚ) (st : RuntimeState ρ)
    (writes : List Write) : RuntimeState ρ := writes.foldl (apply coordinator now) st

/-- `_execution_run` of the run of a call: holds the device for it, or raises. -/
def executionRun (coordinator : Option (ResourceCoordinator ρ)) [PyLib] (now : ℚ)
    (st : RuntimeState ρ) (run : WorkflowRun) : Except PyError Unit × RuntimeState ρ :=
  match coordinator with
  | none => (.ok (), st)
  | some c =>
    if st.resourceLeases.contains run.id then (.ok (), st)
    else
      let ownerId := Value.strOr (run.context.get? "resource_owner_id") run.id
      match c.acquire now st.resources ⟨"device", run.deviceId, ownerId, 900⟩ with
      | (.ok lease, resources) =>
        (.ok (), { st with
          resourceLeases := st.resourceLeases.set run.id lease, resources := resources })
      | (.error e, resources) => (.error e, { st with resources := resources })

/-- What the history records when a coroutine suspends: the start of a handler. -/
def startedBy : Call → List Happening
  | .handler run _ action .. => [.started run.id action.id]
  | _ => []

/-- A section ends in an `await`: the run's device is acquired, which may raise, and the coroutine
is kept. -/
def suspend (coordinator : Option (ResourceCoordinator ρ)) [PyLib] (now : ℚ)
    (st : RuntimeState ρ) (call : Call) : RuntimeState ρ :=
  match executionRun coordinator now st call.run with
  | (.error _, st) => st
  | (.ok _, st) =>
    { st with
      calls := st.calls.set st.nextCall call
      nextCall := st.nextCall + 1
      history := st.history ++ startedBy call }

/-- A section of a coroutine takes effect: its writes, and its suspension if it awaits. -/
def perform (coordinator : Option (ResourceCoordinator ρ)) [PyLib] (now : ℚ)
    (st : RuntimeState ρ) (section_ : SaveM Outcome) : RuntimeState ρ :=
  let st := st.commit coordinator now section_.written
  match section_.result with
  | .ok (.suspended call) => st.suspend coordinator now call
  | _ => st

/-- A call that never awaits takes effect. -/
def performNow (coordinator : Option (ResourceCoordinator ρ)) (now : ℚ) (st : RuntimeState ρ)
    (section_ : SaveM WorkflowRun) : RuntimeState ρ :=
  st.commit coordinator now section_.written

/-- Adds to the history. -/
def note (st : RuntimeState ρ) (h : List Happening) : RuntimeState ρ :=
  { st with history := st.history ++ h }

end RuntimeState

namespace Runtime

section Machine

variable {ρ : Type} [PyLib] (coordinator : Option (ResourceCoordinator ρ)) (cfg : RuntimeConfig)

open RuntimeState

section Steps

variable (now : ℚ)

/-- `start`. -/
def start (st : RuntimeState ρ) (definition : WorkflowDefinition) (deviceId : String)
    (context : Dict String Value) (runId : Option String) :
    Except PyError WorkflowRun × RuntimeState ρ :=
  match definition.validate with
  | .error e => (.error e, st)
  | .ok _ =>
    let st := { st with definitions := st.definitions.set definition.key definition }
    let id := st.newRunId runId
    let run : WorkflowRun :=
      { id := id
        workflowId := definition.id
        workflowVersion := definition.version
        deviceId := deviceId
        status := .running
        currentState := definition.startState
        context := context
        progress := { stage := definition.startState } }
    let ownerId := Value.strOr (context.get? "resource_owner_id") id
    let stored (st : RuntimeState ρ) : RuntimeState ρ :=
      { st with
        runs := st.runs.set id run
        issued := id :: st.issued
        history := st.history ++ [.created run] }
    match coordinator with
    | none => (.ok run, stored st)
    | some c =>
      match c.acquire now st.resources ⟨"device", deviceId, ownerId, 900⟩ with
      | (.ok lease, resources) =>
        (.ok run, stored { st with
          resources := resources, resourceLeases := st.resourceLeases.set id lease })
      | (.error e, resources) => (.error e, { st with resources := resources })

/-- A call on the stored run; an unknown id raises and changes nothing. -/
def withRun (st : RuntimeState ρ) (runId : String) (f : WorkflowRun → RuntimeState ρ) :
    RuntimeState ρ :=
  match st.runs.get? runId with
  | some run => f run
  | none => st

/-- The fence is recorded when `pause` or `mark_interrupted` saves. -/
def fenceNote (run : WorkflowRun) (section_ : SaveM WorkflowRun) : List Happening :=
  if section_.written.isEmpty then [] else [.fenced run.id run.currentState]

/-- `mark_interrupted` on the stored run. -/
def interrupt (st : RuntimeState ρ) (runId reason : String) : RuntimeState ρ :=
  withRun st runId fun run =>
    (performNow coordinator now st (markInterrupted now run reason)).note
      (fenceNote run (markInterrupted now run reason))

/-- The call with one more emitted event. -/
def emitted (call : Call) (event : Event) : Call :=
  match call with
  | .handler run state action attempt active events =>
    .handler run state action attempt (supervisedAttempt active event) (events ++ [event])
  | .reconcile run state action events => .reconcile run state action (events ++ [event])
  | .recover run state action recovery events =>
    .recover run state action recovery (events ++ [event])

/-- A provider's answer reaches the coroutine that waits for it. -/
def resumeReconcile (uuid : String) (defs : Definitions) (call : Call) (outcome : ReconcileResult) :
    Option (SaveM WorkflowRun) :=
  match call with
  | .reconcile run state action _ =>
    some (applyReconcile cfg now uuid defs run state.id action.reconcile.onClassification outcome)
  | .recover run state _ recovery _ => some (recovered cfg now uuid defs run state recovery outcome)
  | .handler .. => none

/-- The decision point that an accepted submission answers. -/
def decidedNote (run : WorkflowRun) (submission : DecisionSubmission) : List Happening :=
  match DecisionEngine.validate run submission with
  | .ok _ => [.decided run.id submission.decisionPointId]
  | .error _ => []

end Steps

/-- One step of the runtime: an input and the time at which it comes. -/
def step (st : RuntimeState ρ) (input : ℚ × RuntimeInput) : RuntimeState ρ :=
  let now := input.1
  let uuid := st.uuid4
  match input.2 with
  | .start definition deviceId context runId =>
    (start coordinator now st definition deviceId context runId).2
  | .registerDefinition definition =>
    match definition.validate with
    | .ok _ => { st with definitions := st.definitions.set definition.key definition }
    | .error _ => st
  | .tick runId =>
    withRun st runId fun run =>
      perform coordinator now { st with issued := uuid :: st.issued }
        (tick cfg now uuid st.definitions run)
  | .reconcile runId reason =>
    withRun st runId fun run =>
      perform coordinator now { st with issued := uuid :: st.issued }
        (reconcile cfg uuid st.definitions run reason)
  | .markInterrupted runId reason => interrupt coordinator now st runId reason
  | .recoverInflight reason limit =>
    ((st.runs.values.take limit).filter fun run => run.status.active).foldl
      (fun st run => interrupt coordinator now st run.id reason) st
  | .pause runId =>
    withRun st runId fun run =>
      (performNow coordinator now st (pause now run)).note (fenceNote run (pause now run))
  | .resume runId context =>
    withRun st runId fun run => performNow coordinator now st (resume run context)
  | .cancel runId => withRun st runId fun run => performNow coordinator now st (cancel run)
  | .applyDecision runId submission =>
    withRun st runId fun run =>
      performNow coordinator now (st.note (decidedNote run submission))
        (applyDecision now st.definitions run submission)
  | .emit call event =>
    match st.calls.get? call with
    | none => st
    | some c =>
      withRun st c.run.id fun run =>
        let section_ := appendActionEvent st.events run event c.action.id
        let st := st.commit coordinator now section_.written
        match section_.result with
        | .ok (_, event) => { st with calls := st.calls.set call (emitted c event) }
        | .error _ => st
  | .lateEmit runId actionId event =>
    withRun st runId fun run =>
      st.commit coordinator now (appendActionEvent st.events run event actionId).written
  | .finish call outcome =>
    match st.calls.get? call with
    | some (.handler snapshot state action attempt active events) =>
      withRun { st with calls := st.calls.erase call } snapshot.id fun run =>
        perform coordinator now
          { st with calls := st.calls.erase call, issued := uuid :: st.issued }
          (finishTick cfg now uuid st.definitions st.events run state action attempt active events
            outcome.toResult)
    | _ => st
  | .reconciled call outcome =>
    match st.calls.get? call with
    | none => st
    | some c =>
      match resumeReconcile cfg now uuid st.definitions c outcome with
      | none => st
      | some section_ =>
        performNow coordinator now
          ({ st with calls := st.calls.erase call, issued := uuid :: st.issued }.note
            [.reconciled c.run.id c.state.id outcome.classification]) section_
  | .abort call => { st with calls := st.calls.erase call }
  | .restart => { st with calls := ∅, definitions := ∅, resourceLeases := ∅ }

/-- The state reached from empty stores by a list of inputs. -/
def reached (resources : ρ) (inputs : List (ℚ × RuntimeInput)) : RuntimeState ρ :=
  Machine.run (step coordinator cfg) { resources := resources } inputs

end Machine

end Runtime

end DeviceShell.Framework
