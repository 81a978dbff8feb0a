import DeviceShell.Lib.Method
import DeviceShell.Framework.Models

/-!
# The executor of Activities

`ActivityExecutor` of `framework/activity_executor.py`: the preconditions of an Activity are probed
one by one, a guard that does not hold may have another Activity prepare it, which `execute` calls
itself for, and then the handler runs and its success is verified. Handlers, verifiers, probes and
the progress reporter are the environment. What each of them does may depend on everything that was
called before (`Step`), so a run of the executor is a list of calls.

An execution ends after a bounded number of calls, however the definitions refer to each other
(`callBound`); a handler is called only when the last evaluation of each of its guards matched
(`Gated`); and it succeeds only when its handler and its verification did (`Justified`).
-/

namespace DeviceShell.Activity

open Framework (WorkflowRun)

/-- The `on_failure` of a guard. -/
inductive OnFailure where
  | fail
  | prepare
  | decision
deriving DecidableEq, Repr

/-- `GuardSpec`. -/
structure GuardSpec where
  id : String
  probe : String
  predicate : Dict String Value := ∅
  onFailure : OnFailure := .fail
  preparationActivity : String := ""

/-- `VerificationSpec`. -/
structure VerificationSpec where
  id : String
  verifier : String
  inputMapping : Dict String String := ∅
  required : Bool := true

/-- `ActivityDefinition`, its exchanges and its monitor by their ids. -/
structure ActivityDefinition where
  id : String
  version : String := "1"
  preconditions : List GuardSpec := []
  preparation : List String := []
  exchanges : List String := []
  monitor : Option String := none
  verification : Option VerificationSpec := none

/-- `ActivityInvocation`. -/
structure ActivityInvocation where
  activityId : String
  invocationId : String
  workflowRunId : String
  attempt : ℕ := 1
  inputs : Dict String Value := ∅
  context : Dict String Value := ∅

/-- `ActivityContext`. -/
structure ActivityContext where
  workflowRun : WorkflowRun
  invocation : ActivityInvocation

namespace ActivityExecutor

/-- `ActivityResult`, with whatever text a handler uses as its status. -/
structure Result where
  status : String
  outputs : Dict String Value := ∅
  evidence : List (Dict String Value) := []
  operationId : String := ""
  error : Option (Dict String Value) := none

/-- An exception of the environment, with the attributes that are looked for. -/
structure ActivityException where
  message : String
  code : Option Value := none
  errorClass : Option Value := none

/-- What an awaited call of the environment gives. -/
inductive Answer (α : Type) where
  | returned (value : α)
  | raised (e : ActivityException)
  /-- The task was cancelled. -/
  | cancelled

/-- An event that the executor reports. -/
structure ActivityEvent where
  type : String
  runId : String
  actionId : String
  source : String := "activity.executor"
  payload : Dict String Value

/-- What the reporter does with an event. -/
inductive Reported where
  | returned
  | awaitable
  | raised (e : ActivityException)

/-- A call of the executor to its environment. -/
inductive Step where
  | reported (event : ActivityEvent)
  | probed (invocation : ActivityInvocation) (guard : GuardSpec) (answer : Answer Value)
  /-- `none` stands for what is not an `ActivityResult`. -/
  | handled (invocation : ActivityInvocation) (answer : Answer (Option Result))
  | verified (invocation : ActivityInvocation) (verification : VerificationSpec)
      (answer : Answer (Option Result))

/-- The registries of an `ActivityExecutor`; what is registered answers by the calls so far. -/
structure Registries where
  definitions : Dict String ActivityDefinition
  handlers : Dict String (List Step → ActivityInvocation → ActivityContext → Answer (Option Result))
  verifiers : Dict String
    (List Step → VerificationSpec → Result → ActivityContext → Answer (Option Result))
  probes : Dict String (List Step → GuardSpec → ActivityContext → Answer Value)

/-- What `execute` raises. -/
inductive Raised where
  /-- `ActivityExecutionError`. -/
  | execution (message : String)
  /-- An exception of the environment that passes through. -/
  | environment (e : ActivityException)
  /-- A predicate that cannot be evaluated. -/
  | predicate (e : PyError)
  | cancelled

/-- A part of an execution; the state is the calls so far. -/
abbrev ExecM := Method Raised (List Step)

/-- The value of an observation that a predicate compares. -/
def observedValue (observed : Value) : Value :=
  match observed.asDict? with
  | some entries => (entries.get? "value").getD ((entries.get? "status").getD observed)
  | none => observed

/-- `_predicate_matches`. -/
def predicateMatches (predicate : Dict String Value) (observed : Value) : Except PyError Bool := do
  if predicate.entries.isEmpty then return observed.truthy
  let value := observedValue observed
  if let some expected := predicate.get? "equals" then
    if !value.pyEq expected then return false
  if let some allowed := predicate.get? "in" then
    if !(← allowed.contains value) then return false
  if let some wanted := predicate.get? "exists" then
    if (match value with | .none => false | _ => true) != wanted.truthy then return false
  return predicate.entries.all fun (key, expected) =>
    ["equals", "in", "exists"].contains key ||
      match observed.asDict? with
      | some entries => ((entries.get? key).getD .none).pyEq expected
      | none => false

variable (x : Registries) (report : List Step → ActivityEvent → Reported)

/-- `_emit`. -/
def emit (type : String) (invocation : ActivityInvocation) (payload : Dict String Value) :
    ExecM Unit := do
  let calls ← get
  let event : ActivityEvent :=
    { type := type
      runId := invocation.workflowRunId
      actionId := invocation.activityId
      payload := payload }
  set (calls ++ [.reported event])
  match report calls event with
  | .returned => return ()
  | .awaitable => throw (.execution "activity progress reporter must be synchronous")
  | .raised e => throw (.environment e)

/-- `await probe.probe(guard, context)`. -/
def probe (p : List Step → GuardSpec → ActivityContext → Answer Value) (guard : GuardSpec)
    (context : ActivityContext) (invocation : ActivityInvocation) : ExecM (Answer Value) := do
  let calls ← get
  set (calls ++ [.probed invocation guard (p calls guard context)])
  return p calls guard context

/-- The error of a guard that does not hold. -/
def unmet (guard : GuardSpec) (observed : Value) : Dict String Value :=
  ⟨[("code", .str (if guard.onFailure ≠ .decision then "precondition_failed"
      else "precondition_decision_required")),
    ("guard_id", .str guard.id), ("probe", .str guard.probe), ("observed", observed),
    ("predicate", .ofDict guard.predicate)]⟩

/-- The invocation that prepares a guard. -/
def preparationOf (invocation : ActivityInvocation) (guard : GuardSpec) : ActivityInvocation where
  activityId := guard.preparationActivity
  invocationId := invocation.invocationId ++ ":prepare:" ++ guard.id
  workflowRunId := invocation.workflowRunId
  inputs := invocation.inputs
  context := invocation.context

/-- `_check_preconditions` on the guards that are left. `prepare` executes another Activity; there
is none at the depth at which no more preparation is allowed. -/
def checkPreconditions (prepare : Option (ActivityInvocation → ActivityContext → ExecM Result))
    (invocation : ActivityInvocation) (context : ActivityContext) :
    List GuardSpec → ExecM (Option (Dict String Value))
  | [] => return none
  | guard :: rest => do
    match x.probes.get? guard.probe with
    | none =>
      return some ⟨[("code", .str "precondition_probe_missing"), ("guard_id", .str guard.id),
        ("probe", .str guard.probe), ("class", .str "configuration")]⟩
    | some p =>
      match ← probe p guard context invocation with
      | .cancelled => throw .cancelled
      | .raised e =>
        return some ⟨[("code", .str "precondition_probe_failed"), ("guard_id", .str guard.id),
          ("probe", .str guard.probe), ("message", .str e.message), ("class", .str "transient")]⟩
      | .returned observed =>
        match predicateMatches guard.predicate observed with
        | .error e => throw (.predicate e)
        | .ok true =>
          emit report "activity.precondition.satisfied" invocation
            ⟨[("guard_id", .str guard.id), ("probe", .str guard.probe)]⟩
          checkPreconditions prepare invocation context rest
        | .ok false =>
          if guard.onFailure = .prepare ∧ guard.preparationActivity ≠ "" then
            match prepare with
            | none =>
              return some ⟨[("code", .str "precondition_preparation_depth_exceeded"),
                ("guard_id", .str guard.id), ("probe", .str guard.probe)]⟩
            | some execute =>
              emit report "activity.preparation.required" invocation
                ⟨[("guard_id", .str guard.id), ("activity_id", .str guard.preparationActivity)]⟩
              let preparation := preparationOf invocation guard
              let prepared ← execute preparation ⟨context.workflowRun, preparation⟩
              if prepared.status ≠ "succeeded" then
                return some ⟨[("code", .str "precondition_preparation_failed"),
                  ("guard_id", .str guard.id),
                  ("preparation_activity", .str guard.preparationActivity),
                  ("cause", .ofDict (prepared.error.getD ∅))]⟩
              else
                match ← probe p guard context invocation with
                | .cancelled => throw .cancelled
                -- Unlike the first probe, this one is not inside a `try`.
                | .raised e => throw (.environment e)
                | .returned observed =>
                  match predicateMatches guard.predicate observed with
                  | .error e => throw (.predicate e)
                  | .ok true => checkPreconditions prepare invocation context rest
                  | .ok false => return some (unmet guard observed)
          else return some (unmet guard observed)

/-- The event of an execution that ends with a status. -/
def terminalEvent (status : String) : Option String :=
  if ["succeeded", "failed", "unknown", "cancelled"].contains status then
    some ("activity." ++ status)
  else none

/-- The end of `execute`: the terminal event, and the result. -/
def conclude (invocation : ActivityInvocation) (result : Result) : ExecM Result := do
  match terminalEvent result.status with
  | some type =>
    emit report type invocation ⟨[("operation_id", .str result.operationId),
      ("error", .ofDict (result.error.getD ∅))]⟩
    return result
  | none => return result

/-- `execute` from the result of the handler on. -/
def verify (definition : ActivityDefinition) (invocation : ActivityInvocation)
    (context : ActivityContext) (result : Result) : ExecM Result := do
  match definition.verification with
  | none => conclude report invocation result
  | some verification =>
    if result.status = "succeeded" then
      match x.verifiers.get? verification.verifier with
      | none => throw (.execution ("activity verifier not found: " ++ verification.verifier))
      | some v =>
        emit report "activity.verification.started" invocation
          ⟨[("verifier", .str verification.verifier)]⟩
        let calls ← get
        set (calls ++ [.verified invocation verification (v calls verification result context)])
        match v calls verification result context with
        | .cancelled => throw .cancelled
        | .raised e => throw (.environment e)
        | .returned none => throw (.execution "activity verifier returned an invalid result")
        | .returned (some verified) => conclude report invocation verified
    else conclude report invocation result

/-- `_emit` under a condition. -/
def emitIf (condition : Prop) [Decidable condition] (type : String)
    (invocation : ActivityInvocation) (payload : Dict String Value) : ExecM Unit :=
  if condition then emit report type invocation payload else return ()

/-- The events between the preconditions and the handler. -/
def announce (definition : ActivityDefinition) (invocation : ActivityInvocation) : ExecM Unit := do
  emit report "activity.preconditions.checked" invocation
    ⟨[("count", .int definition.preconditions.length)]⟩
  emitIf report (definition.preparation ≠ []) "activity.preparation.started" invocation
    ⟨[("activities", .list (definition.preparation.map .str))]⟩
  emitIf report (definition.exchanges ≠ []) "activity.interaction.started" invocation
    ⟨[("exchanges", .list (definition.exchanges.map .str))]⟩
  emitIf report (definition.monitor.isSome = true) "activity.monitoring.ready" invocation
    ⟨[("monitor_id", .str (definition.monitor.getD ""))]⟩

/-- `execute`, with what executes a preparation. -/
def perform (version : String)
    (prepare : Option (ActivityInvocation → ActivityContext → ExecM Result))
    (invocation : ActivityInvocation) (context : ActivityContext) : ExecM Result := do
  match x.definitions.get? (invocation.activityId ++ ":" ++ version) with
  | none =>
    throw (.execution ("activity definition not found: " ++ invocation.activityId ++ ":" ++ version))
  | some definition =>
    match x.handlers.get? invocation.activityId with
    | none => throw (.execution ("activity handler not found: " ++ invocation.activityId))
    | some handler =>
      emit report "activity.started" invocation ⟨[("activity_id", .str invocation.activityId)]⟩
      emit report "activity.preconditions.checking" invocation
        ⟨[("count", .int definition.preconditions.length)]⟩
      match ← checkPreconditions x report prepare invocation context definition.preconditions with
      | some error =>
        emit report "activity.preconditions.failed" invocation error
        return { status := "failed", outputs := ⟨[("status", .str "failed")]⟩, error := some error }
      | none =>
        announce report definition invocation
        let calls ← get
        set (calls ++ [.handled invocation (handler calls invocation context)])
        match handler calls invocation context with
        | .cancelled => throw .cancelled
        | .raised e =>
          return {
            status := "failed"
            outputs := ⟨[("status", .str "failed")]⟩
            error := some ⟨[("code", e.code.getD (.str "activity_failed")),
              ("message", .str e.message), ("class", e.errorClass.getD (.str "unknown"))]⟩ }
        | .returned none => throw (.execution "activity handler returned an invalid result")
        | .returned (some result) => verify x report definition invocation context result

/-- `execute` at the `_preparation_depth` at which the given number of preparations may still be
nested: three at depth zero, and none at depth three. -/
def executeWithin (version : String) : ℕ → ActivityInvocation → ActivityContext → ExecM Result
  | 0 => perform x report version none
  | n + 1 => perform x report version (some (executeWithin version n))

/-- `execute`. -/
def execute (version : String) : ActivityInvocation → ActivityContext → ExecM Result :=
  executeWithin x report version 3

/-! ## What is to hold -/

/-- The guard's predicate matches what was observed. -/
def Matched (guard : GuardSpec) (observed : Value) : Prop :=
  predicateMatches guard.predicate observed = .ok true

/-- The last evaluation of a guard, among those for some invocations, matched. -/
def LastMatched (among : ActivityInvocation → Prop) (guard : GuardSpec) (calls : List Step) :
    Prop :=
  ∃ earlier invocation observed later,
    calls = earlier ++ .probed invocation guard (.returned observed) :: later ∧
      among invocation ∧ Matched guard observed ∧
        ∀ invocation' answer, among invocation' → .probed invocation' guard answer ∉ later

/-- The handler of an invocation may be called: the last evaluation of each guard of its Activity
matched, of those for the invocation as of those for more. -/
def Open (version : String) (calls : List Step) (invocation : ActivityInvocation) : Prop :=
  ∃ definition, x.definitions.get? (invocation.activityId ++ ":" ++ version) = some definition ∧
    ∀ guard ∈ definition.preconditions, ∀ among : ActivityInvocation → Prop, among invocation →
      LastMatched among guard calls

/-- Every handler was called when it might be. -/
def Gated (version : String) (calls : List Step) : Prop :=
  ∀ before invocation answer after, calls = before ++ .handled invocation answer :: after →
    Open x version before invocation

/-- The result of an execution that succeeded: its handler, called last, succeeded, and where a
verification is declared, the last one gave this result. -/
def Justified (version : String) (invocation : ActivityInvocation) (result : Result)
    (calls : List Step) : Prop :=
  ∃ definition before handled after,
    x.definitions.get? (invocation.activityId ++ ":" ++ version) = some definition ∧
    calls = before ++ .handled invocation (.returned (some handled)) :: after ∧
    handled.status = "succeeded" ∧ (∀ i answer, .handled i answer ∉ after) ∧
    match definition.verification with
    | none => result = handled
    | some verification => ∃ middle last,
        after = middle ++ .verified invocation verification (.returned (some result)) :: last ∧
          ∀ i v answer, .verified i v answer ∉ last

/-- The number of guards in the registry. -/
def guardCount : ℕ := (x.definitions.values.map fun d => d.preconditions.length).sum

/-- The most calls of an execution in which so many preparations may be nested, with so many
guards. -/
def callBound (guards : ℕ) : ℕ → ℕ
  | 0 => guards * 3 + 10
  | n + 1 => guards * (3 + callBound guards n) + 10

/-! ## Calls so far -/

section Calls

variable {x} {version : String} {calls : List Step} {step : Step}

/-- A call that is allowed keeps the gate. -/
theorem Gated.snoc (h : Gated x version calls)
    (hstep : ∀ invocation answer, step = .handled invocation answer → Open x version calls invocation) :
    Gated x version (calls ++ [step]) := by
  intro before invocation answer after heq
  rcases List.eq_nil_or_concat after with rfl | ⟨after, last, rfl⟩
  · obtain ⟨rfl, hlast⟩ := List.append_inj' heq rfl
    exact hstep invocation answer (List.cons.inj hlast).1
  · rw [List.concat_eq_append, ← List.cons_append, ← List.append_assoc] at heq
    obtain ⟨hcalls, -⟩ := List.append_inj' heq rfl
    exact h before invocation answer after hcalls

/-- A call that is redeemed by what follows it: an evaluation that matched, or one of the same guard
for the same invocation later. -/
def Redeemed : Step → List Step → Prop
  | .probed invocation guard answer, rest =>
    (∃ observed, answer = .returned observed ∧ Matched guard observed) ∨
      ∃ observed, .probed invocation guard (.returned observed) ∈ rest ∧ Matched guard observed
  | _, _ => True

/-- Every evaluation matched, or a later one of the guard for the invocation did. -/
def Settled : List Step → Prop
  | [] => True
  | step :: rest => Redeemed step rest ∧ Settled rest

theorem Redeemed.mono {rest rest' : List Step} (h : Redeemed step rest)
    (hsub : ∀ s ∈ rest, s ∈ rest') : Redeemed step rest' := by
  cases step with
  | probed invocation guard answer =>
    rcases h with h | ⟨observed, hmem, hmatch⟩
    · exact .inl h
    · exact .inr ⟨observed, hsub _ hmem, hmatch⟩
  | reported | handled | verified => trivial

theorem Settled.append {first rest : List Step} (hfirst : Settled first) (hrest : Settled rest) :
    Settled (first ++ rest) := by
  induction first with
  | nil => exact hrest
  | cons step first ih =>
    obtain ⟨hstep, hfirst⟩ := hfirst
    exact ⟨hstep.mono fun _ hs => List.mem_append_left _ hs, ih hfirst⟩

/-- In settled calls the last evaluation of a guard matched. -/
theorem lastMatched_of_settled {among : ActivityInvocation → Prop} {guard : GuardSpec}
    {added : List Step} (h : Settled added) (before : List Step)
    (hmem : ∃ invocation answer, among invocation ∧ .probed invocation guard answer ∈ added) :
    LastMatched among guard (before ++ added) := by
  induction added generalizing before with
  | nil =>
    obtain ⟨invocation, answer, -, hmem⟩ := hmem
    cases hmem
  | cons step rest ih =>
    obtain ⟨hstep, hrest⟩ := h
    by_cases hlater : ∃ invocation answer, among invocation ∧
        .probed invocation guard answer ∈ rest
    · rw [← List.singleton_append, ← List.append_assoc]
      exact ih hrest (before ++ [step]) hlater
    · obtain ⟨invocation, answer, hamong, hmem⟩ := hmem
      have hhead : .probed invocation guard answer = step := by
        rcases List.mem_cons.mp hmem with heq | hin
        · exact heq
        · exact absurd ⟨invocation, answer, hamong, hin⟩ hlater
      subst hhead
      rcases hstep with ⟨observed, rfl, hmatch⟩ | ⟨observed, hin, -⟩
      · refine ⟨before, invocation, observed, rest, rfl, hamong, hmatch, ?_⟩
        intro invocation' answer' hamong' hin
        exact hlater ⟨invocation', answer', hamong', hin⟩
      · exact absurd ⟨invocation, _, hamong, hin⟩ hlater

/-- What a part of an execution adds: at most `n` calls with the property `Q`, none of which opens
the gate. -/
def Adds (x : Registries) (version : String) (n : ℕ) (Q : List Step → Prop)
    (calls calls' : List Step) : Prop :=
  ∃ added, calls' = calls ++ added ∧ added.length ≤ n ∧
    (Gated x version calls → Gated x version calls') ∧ Q added

section Adds

variable {n m : ℕ} {Q R : List Step → Prop} {calls' calls'' : List Step}

/-- Nothing is added. -/
theorem adds_nothing (h : Q []) : Adds x version n Q calls calls :=
  ⟨[], (List.append_nil calls).symm, Nat.zero_le n, id, h⟩

/-- One call is added. -/
theorem adds_call (hQ : Q [step]) (hstep : ∀ invocation answer,
    step = .handled invocation answer → Gated x version calls → Open x version calls invocation) :
    Adds x version 1 Q calls (calls ++ [step]) := by
  refine ⟨[step], rfl, le_rfl, fun hgated => ?_, hQ⟩
  exact hgated.snoc fun invocation answer heq => hstep invocation answer heq hgated

theorem Adds.mono (h : Adds x version n Q calls calls') (hn : n ≤ m) (hQ : ∀ a, Q a → R a) :
    Adds x version m R calls calls' := by
  obtain ⟨added, heq, hlength, hgated, hadded⟩ := h
  exact ⟨added, heq, hlength.trans hn, hgated, hQ added hadded⟩

/-- Two parts add one after the other. -/
theorem Adds.trans (h : Adds x version n Q calls calls')
    (h' : ∀ a, Q a → Adds x version m (fun b => R (a ++ b)) calls' calls'') :
    Adds x version (n + m) R calls calls'' := by
  obtain ⟨first, rfl, hfirst, hgated, hQ⟩ := h
  obtain ⟨rest, rfl, hrest, hgated', hR⟩ := h' first hQ
  refine ⟨first ++ rest, List.append_assoc _ _ _, ?_, fun hstart => hgated' (hgated hstart), hR⟩
  rw [List.length_append]
  omega

/-- Two parts add no more calls than both may. -/
theorem Adds.bounded (h : Adds x version n Q calls calls')
    (h' : Adds x version m R calls' calls'') :
    Adds x version (n + m) (fun _ => True) calls calls'' :=
  h.trans fun _ _ => h'.mono le_rfl fun _ _ => trivial

end Adds

end Calls

/-! ## What the parts of an execution add -/

section Parts

open Method (Ensures Returns)

variable {x report} {version : String} {calls : List Step} {invocation : ActivityInvocation}
  {context : ActivityContext}

theorem emit_reports (type : String) (payload : Dict String Value) :
    Ensures (emit report type invocation payload) calls
      fun _ calls' => ∃ event, calls' = calls ++ [.reported event] := by
  unfold emit
  refine Method.ensures_get (Method.ensures_set_bind ?_)
  split
  · exact Method.ensures_pure ⟨_, rfl⟩
  · exact Method.ensures_throw ⟨_, rfl⟩
  · exact Method.ensures_throw ⟨_, rfl⟩

variable (x version) in
theorem emit_adds (type : String) (payload : Dict String Value) :
    Ensures (emit report type invocation payload) calls
      fun _ calls' => Adds x version 1 Settled calls calls' := by
  refine (emit_reports type payload).mono fun _ calls' h => ?_
  obtain ⟨event, rfl⟩ := h
  exact adds_call ⟨trivial, trivial⟩ fun _ _ heq => by cases heq

theorem emitIf_adds (condition : Prop) [Decidable condition] (type : String)
    (payload : Dict String Value) :
    Ensures (emitIf report condition type invocation payload) calls
      fun _ calls' => Adds x version 1 Settled calls calls' :=
  Ensures.ite (fun _ => emit_adds x version type payload)
    fun _ => Method.ensures_pure (adds_nothing trivial)

/-- Settled calls after settled calls are settled. -/
theorem Adds.settled {n m : ℕ} {calls' calls'' : List Step}
    (h : Adds x version n Settled calls calls') (h' : Adds x version m Settled calls' calls'') :
    Adds x version (n + m) Settled calls calls'' :=
  h.trans fun _ hfirst => h'.mono le_rfl fun _ hrest => hfirst.append hrest

/-- Two parts that add settled calls, the second also where the first raises. -/
theorem ensures_settled_bind {n m : ℕ} {first rest : ExecM Unit}
    (hfirst : ∀ calls, Ensures first calls fun _ calls' => Adds x version n Settled calls calls')
    (hrest : ∀ calls, Ensures rest calls fun _ calls' => Adds x version m Settled calls calls') :
    ∀ calls, Ensures (first >>= fun _ => rest) calls
      fun _ calls' => Adds x version (n + m) Settled calls calls' := by
  intro calls
  refine (hfirst calls).bind (fun _ mid hmid => ?_) fun _ mid hmid => ?_
  · exact (hrest mid).mono fun _ _ h => hmid.settled h
  · exact hmid.mono (Nat.le_add_right n m) fun _ h => h

variable (x version) in
theorem announce_adds (definition : ActivityDefinition) :
    Ensures (announce report definition invocation) calls
      fun _ calls' => Adds x version 4 Settled calls calls' :=
  ensures_settled_bind (n := 1) (m := 3) (fun _ => emit_adds x version _ _)
    (ensures_settled_bind (n := 1) (m := 2) (fun _ => emitIf_adds _ _ _)
      (ensures_settled_bind (n := 1) (m := 1) (fun _ => emitIf_adds _ _ _)
        fun _ => emitIf_adds _ _ _)) calls

/-- What a check of guards that returns nothing has added: settled calls, with an evaluation of each
guard for the invocation. -/
def Checked (invocation : ActivityInvocation) (guards : List GuardSpec)
    (r : Except Raised (Option (Dict String Value))) (added : List Step) : Prop :=
  r = .ok none → Settled added ∧
    ∀ guard ∈ guards, ∃ answer, .probed invocation guard answer ∈ added

/-- What an execution that succeeds has added. -/
def Prepared (r : Except Raised Result) (added : List Step) : Prop :=
  ∀ result, r = .ok result → result.status = "succeeded" → Settled added

theorem check_adds {bound : ℕ}
    {prepare : Option (ActivityInvocation → ActivityContext → ExecM Result)}
    (hprepare : ∀ execute, prepare = some execute → ∀ i c mid, Ensures (execute i c) mid
      fun r calls' => Adds x version bound (Prepared r) mid calls')
    (guards : List GuardSpec) (calls : List Step) :
    Ensures (checkPreconditions x report prepare invocation context guards) calls fun r calls' =>
      Adds x version (guards.length * (3 + bound)) (Checked invocation guards r) calls calls' := by
  induction guards generalizing calls with
  | nil =>
    refine Method.ensures_pure (adds_nothing fun _ => ⟨trivial, fun guard hguard => ?_⟩)
    cases hguard
  | cons guard rest ih =>
    have hlength : (guard :: rest).length * (3 + bound) =
        rest.length * (3 + bound) + (3 + bound) := by
      rw [List.length_cons, Nat.succ_mul]
    rw [hlength]
    -- A check that fails needs no more than that its calls are few.
    have hfailed : ∀ (r : Except Raised (Option (Dict String Value))) (mid : List Step) {n} {Q},
        r ≠ .ok none → Adds x version n Q calls mid → n ≤ 3 + bound →
          Adds x version (rest.length * (3 + bound) + (3 + bound))
            (Checked invocation (guard :: rest) r) calls mid := by
      intro r mid n Q hr hadds hn
      exact hadds.mono (by omega) fun _ _ hnone => absurd hnone hr
    -- A guard that holds is followed by the check of the others.
    have hholds : ∀ (mid : List Step) {n}, Adds x version n (fun a => Settled a ∧
        ∃ answer, .probed invocation guard answer ∈ a) calls mid → n ≤ 3 + bound →
          Ensures (checkPreconditions x report prepare invocation context rest) mid fun r calls' =>
            Adds x version (rest.length * (3 + bound) + (3 + bound))
              (Checked invocation (guard :: rest) r) calls calls' := by
      intro mid n hadds hn
      refine (ih mid).mono fun r calls' hrest => Adds.mono (n := n + rest.length * (3 + bound))
        (hadds.trans fun first hfirst => hrest.mono le_rfl fun added hadded hnone => ?_)
        (by omega) fun _ h => h
      obtain ⟨hsettled, hevaluated⟩ := hadded hnone
      refine ⟨hfirst.1.append hsettled, fun g hg => ?_⟩
      rcases List.mem_cons.mp hg with rfl | hg
      · obtain ⟨answer, hanswer⟩ := hfirst.2
        exact ⟨answer, List.mem_append_left _ hanswer⟩
      · obtain ⟨answer, hanswer⟩ := hevaluated g hg
        exact ⟨answer, List.mem_append_right _ hanswer⟩
    unfold checkPreconditions
    cases hprobe : x.probes.get? guard.probe with
    | none => exact Method.ensures_pure (hfailed _ _ (by simp)
      (adds_nothing (n := 0) (Q := fun _ => True) trivial) (by omega))
    | some p =>
      dsimp only
      refine Method.ensures_bind_ok (a := p calls guard context)
        (t := calls ++ [.probed invocation guard (p calls guard context)]) rfl ?_
      have hprobed : Adds x version 1
          (fun a => a = [.probed invocation guard (p calls guard context)]) calls
            (calls ++ [.probed invocation guard (p calls guard context)]) :=
        adds_call rfl fun _ _ heq => by cases heq
      cases hanswer : p calls guard context with
      | cancelled =>
        rw [hanswer] at hprobed
        exact Method.ensures_throw (hfailed _ _ (by simp) hprobed (by omega))
      | raised e =>
        rw [hanswer] at hprobed
        exact Method.ensures_pure (hfailed _ _ (by simp) hprobed (by omega))
      | returned observed =>
        rw [hanswer] at hprobed
        generalize calls ++ [.probed invocation guard (.returned observed)] = mid at hprobed ⊢
        dsimp only
        cases hmatch : predicateMatches guard.predicate observed with
        | error e => exact Method.ensures_throw (hfailed _ _ (by simp) hprobed (by omega))
        | ok holds =>
          cases holds with
          | true =>
            refine (emit_adds x version _ _).bind (fun _ last hlast => ?_)
              fun e last hlast => hfailed _ _ (by simp)
                (hprobed.bounded hlast) (by omega)
            · refine hholds last (n := 1 + 1) (hprobed.trans ?_) (by omega)
              rintro a rfl
              refine hlast.mono le_rfl fun events hevents => ⟨?_, _, List.mem_cons_self⟩
              exact ⟨.inl ⟨observed, rfl, hmatch⟩, hevents⟩
          | false =>
            refine Ensures.ite (fun _ => ?_) fun _ =>
              Method.ensures_pure (hfailed _ _ (by simp) hprobed (by omega))
            cases hexecute : prepare with
            | none => exact Method.ensures_pure (hfailed _ _ (by simp) hprobed (by omega))
            | some execute =>
              subst hexecute
              refine (emit_adds x version _ _).bind (fun _ asked hasked => ?_)
                fun e asked hasked => hfailed _ _ (by simp) (hprobed.bounded hasked) (by omega)
              replace hasked : Adds x version 2 (fun a => ∃ events, Settled events ∧
                  a = .probed invocation guard (.returned observed) :: events) calls asked := by
                refine hprobed.trans (m := 1) ?_
                rintro a rfl
                exact hasked.mono le_rfl fun events hevents => ⟨events, hevents, rfl⟩
              refine (hprepare execute rfl _ _ asked).bind (fun prepared done hdone => ?_)
                fun e done hdone => hfailed _ _ (by simp) (hasked.bounded hdone) (by omega)
              refine Ensures.ite (fun _ => ?_) fun hsucceeded => ?_
              · exact Method.ensures_pure (hfailed _ _ (by simp) (hasked.bounded hdone) (by omega))
              replace hdone : Adds x version (2 + bound) (fun a => ∃ between, Settled between ∧
                  a = .probed invocation guard (.returned observed) :: between) calls done := by
                refine hasked.trans ?_
                rintro a ⟨events, hevents, rfl⟩
                refine hdone.mono le_rfl fun added hadded => ⟨events ++ added, ?_, rfl⟩
                exact hevents.append (hadded prepared rfl (not_not.mp hsucceeded))
              refine Method.ensures_bind_ok (a := p done guard context)
                (t := done ++ [.probed invocation guard (p done guard context)]) rfl ?_
              have hagain : Adds x version (2 + bound + 1) (fun a => ∃ between, Settled between ∧
                  a = .probed invocation guard (.returned observed) :: (between ++
                    [.probed invocation guard (p done guard context)])) calls
                    (done ++ [.probed invocation guard (p done guard context)]) := by
                refine hdone.trans ?_
                rintro a ⟨between, hbetween, rfl⟩
                exact adds_call ⟨between, hbetween, rfl⟩ fun _ _ heq => by cases heq
              generalize p done guard context = answer at hagain ⊢
              generalize done ++ [.probed invocation guard answer] = last at hagain ⊢
              cases answer with
              | cancelled => exact Method.ensures_throw (hfailed _ _ (by simp) hagain (by omega))
              | raised e => exact Method.ensures_throw (hfailed _ _ (by simp) hagain (by omega))
              | returned observed' =>
                dsimp only
                cases hmatch' : predicateMatches guard.predicate observed' with
                | error e => exact Method.ensures_throw (hfailed _ _ (by simp) hagain (by omega))
                | ok holds =>
                  cases holds with
                  | false => exact Method.ensures_pure (hfailed _ _ (by simp) hagain (by omega))
                  | true =>
                    refine hholds last (hagain.mono le_rfl ?_) (by omega)
                    rintro a ⟨between, hbetween, rfl⟩
                    refine ⟨⟨.inr ⟨observed', ?_, hmatch'⟩, hbetween.append ?_⟩, _,
                      List.mem_cons_self⟩
                    · exact List.mem_append_right _ (List.mem_singleton_self _)
                    · exact ⟨.inl ⟨observed', rfl, hmatch'⟩, trivial⟩

theorem conclude_adds (result : Result) :
    Ensures (conclude report invocation result) calls
      fun _ calls' => Adds x version 1 Settled calls calls' := by
  unfold conclude
  split
  · exact (emit_adds x version _ _).bind (fun _ _ h => Method.ensures_pure h) fun _ _ h => h
  · exact Method.ensures_pure (adds_nothing trivial)

theorem verify_adds (definition : ActivityDefinition) (result : Result) :
    Ensures (verify x report definition invocation context result) calls
      fun _ calls' => Adds x version 3 Settled calls calls' := by
  have hconclude : ∀ result, Ensures (conclude report invocation result) calls
      fun _ calls' => Adds x version 3 Settled calls calls' := fun result =>
    (conclude_adds result).mono fun _ _ h => h.mono (by omega) fun _ h => h
  unfold verify
  cases definition.verification with
  | none => exact hconclude result
  | some verification =>
  refine Ensures.ite (fun _ => ?_) fun _ => hconclude result
  cases x.verifiers.get? verification.verifier with
  | none => exact Method.ensures_throw (adds_nothing trivial)
  | some v =>
  refine (emit_adds x version _ _).bind (fun _ mid hmid => ?_)
    fun _ _ h => h.mono (by omega) fun _ h => h
  refine Method.ensures_get (Method.ensures_set_bind ?_)
  have hverified : Adds x version (1 + 1) Settled calls
      (mid ++ [.verified invocation verification (v mid verification result context)]) :=
    hmid.settled (adds_call ⟨trivial, trivial⟩ fun _ _ heq => by cases heq)
  split
  · exact Method.ensures_throw (hverified.mono (by omega) fun _ h => h)
  · exact Method.ensures_throw (hverified.mono (by omega) fun _ h => h)
  · exact Method.ensures_throw (hverified.mono (by omega) fun _ h => h)
  · exact (conclude_adds _).mono fun _ _ h => hverified.settled h

/-- A definition has no more guards than the registry. -/
theorem length_le_guardCount {key : String} {definition : ActivityDefinition}
    (h : x.definitions.get? key = some definition) :
    definition.preconditions.length ≤ guardCount x :=
  List.le_sum_of_mem (List.mem_map_of_mem (Dict.mem_values_of_get? h))

theorem perform_adds {bound : ℕ}
    {prepare : Option (ActivityInvocation → ActivityContext → ExecM Result)}
    (hprepare : ∀ execute, prepare = some execute → ∀ i c mid, Ensures (execute i c) mid
      fun r calls' => Adds x version bound (Prepared r) mid calls') :
    Ensures (perform x report version prepare invocation context) calls fun r calls' =>
      Adds x version (guardCount x * (3 + bound) + 10) (Prepared r) calls calls' := by
  -- Settled calls are what an execution owes, and few calls are enough.
  have hsettled : ∀ (r : Except Raised Result) (mid : List Step) {n},
      Adds x version n Settled calls mid → n ≤ guardCount x * (3 + bound) + 10 →
        Adds x version (guardCount x * (3 + bound) + 10) (Prepared r) calls mid := by
    intro r mid n hadds hn
    exact hadds.mono hn fun _ h _ _ _ => h
  have hraised : ∀ (r : Except Raised Result) (mid : List Step) {n Q},
      (∀ result, r = .ok result → result.status ≠ "succeeded") → Adds x version n Q calls mid →
        n ≤ guardCount x * (3 + bound) + 10 →
          Adds x version (guardCount x * (3 + bound) + 10) (Prepared r) calls mid := by
    intro r mid n Q hr hadds hn
    exact hadds.mono hn fun _ _ result hresult hstatus => absurd hstatus (hr result hresult)
  unfold perform
  split
  · exact Method.ensures_throw (hsettled _ _ (adds_nothing (n := 0) trivial) (by omega))
  rename_i definition hdefinition
  split
  · exact Method.ensures_throw (hsettled _ _ (adds_nothing (n := 0) trivial) (by omega))
  rename_i handler _
  have hcount := Nat.mul_le_mul_right (3 + bound) (length_le_guardCount hdefinition)
  refine (emit_adds x version _ _).bind (fun _ started hstarted => ?_)
    fun _ _ h => hsettled _ _ h (by omega)
  refine (emit_adds x version _ _).bind (fun _ checking hchecking => ?_)
    fun _ _ h => hsettled _ _ (hstarted.settled h) (by omega)
  replace hchecking := hstarted.settled hchecking
  refine (check_adds hprepare definition.preconditions checking).bind
    (fun error checked hchecked => ?_) fun e mid h => ?_
  · cases error with
    | some error =>
      refine (emit_adds x version _ _).bind (fun _ mid h => ?_)
        fun _ mid h => hraised _ _ (by simp) ((hchecking.bounded hchecked).bounded h) (by omega)
      refine Method.ensures_pure (hraised _ _ ?_ ((hchecking.bounded hchecked).bounded h) (by omega))
      intro result hresult
      cases hresult
      exact (by decide : "failed" ≠ "succeeded")
    | none =>
      replace hchecked := hchecking.trans (R := fun a => Settled a ∧ ∀ guard ∈
          definition.preconditions, ∃ answer, .probed invocation guard answer ∈ a)
        fun first hfirst => hchecked.mono le_rfl fun added hadded =>
          ⟨hfirst.append (hadded rfl).1, fun guard hguard => by
            obtain ⟨answer, hanswer⟩ := (hadded rfl).2 guard hguard
            exact ⟨answer, List.mem_append_right _ hanswer⟩⟩
      refine (announce_adds x version definition).bind
        (fun _ ready hready => ?_) fun _ mid h => hraised _ _ (by simp) (hchecked.bounded h)
          (by omega)
      replace hready := hchecked.trans (R := fun a => Settled a ∧ ∀ guard ∈
          definition.preconditions, ∃ answer, .probed invocation guard answer ∈ a)
        fun first hfirst => hready.mono le_rfl fun added hadded =>
          ⟨hfirst.1.append hadded, fun guard hguard => by
            obtain ⟨answer, hanswer⟩ := hfirst.2 guard hguard
            exact ⟨answer, List.mem_append_left _ hanswer⟩⟩
      -- The gate is open: every guard was evaluated in what was added, which is settled.
      have hopen : Open x version ready invocation := by
        obtain ⟨added, rfl, -, -, hadded, hevaluated⟩ := hready
        refine ⟨definition, hdefinition, fun guard hguard among hamong => ?_⟩
        obtain ⟨answer, hanswer⟩ := hevaluated guard hguard
        exact lastMatched_of_settled hadded calls ⟨invocation, answer, hamong, hanswer⟩
      refine Method.ensures_get (Method.ensures_set_bind ?_)
      have hhandled : Adds x version _ Settled calls
          (ready ++ [.handled invocation (handler ready invocation context)]) :=
        hready.trans fun first hfirst => adds_call (hfirst.1.append ⟨trivial, trivial⟩)
          fun i answer heq _ => by
            cases heq
            exact hopen
      generalize handler ready invocation context = answer at hhandled ⊢
      generalize ready ++ [.handled invocation answer] = last at hhandled ⊢
      cases answer with
      | cancelled => exact Method.ensures_throw (hsettled _ _ hhandled (by omega))
      | raised e => exact Method.ensures_pure (hsettled _ _ hhandled (by omega))
      | returned result =>
        cases result with
        | none => exact Method.ensures_throw (hsettled _ _ hhandled (by omega))
        | some result =>
          exact (verify_adds definition result).mono fun r calls' h =>
            hsettled r calls' (hhandled.settled h) (by omega)
  · exact hraised _ _ (by simp) (hchecking.bounded h) (by omega)

variable (x report version) in
/-- An execution adds few calls, opens no gate, and where it succeeds its calls are settled. -/
theorem executeWithin_adds (n : ℕ) (invocation : ActivityInvocation) (context : ActivityContext)
    (calls : List Step) :
    Ensures (executeWithin x report version n invocation context) calls fun r calls' =>
      Adds x version (callBound (guardCount x) n) (Prepared r) calls calls' := by
  induction n generalizing invocation context calls with
  | zero =>
    show Ensures _ _ fun r calls' =>
      Adds x version (guardCount x * (3 + 0) + 10) (Prepared r) calls calls'
    exact perform_adds fun execute h => by cases h
  | succ n ih =>
    refine perform_adds fun execute h i c mid => ?_
    cases h
    exact ih i c mid

/-! ## Executions that succeed -/

/-- What comes before does not matter to a part that ensures something from every state. -/
theorem ensures_rest {α β : Type} {m : ExecM α} {f : α → ExecM β}
    {R : Except Raised β → List Step → Prop} (hf : ∀ a mid, Ensures (f a) mid R)
    (herr : ∀ e mid, R (.error e) mid) : Ensures (m >>= f) calls R :=
  Ensures.bind (Q := fun _ _ => True) (fun _ _ _ => trivial) (fun a mid _ => hf a mid)
    fun e mid _ => herr e mid

/-- The conclusion returns the result, after at most an event. -/
theorem conclude_returns_result (result : Result) :
    Ensures (conclude report invocation result) calls fun r calls' => ∀ result', r = .ok result' →
      result' = result ∧ ∃ events : List ActivityEvent, calls' = calls ++ events.map .reported := by
  unfold conclude
  split
  · refine (emit_reports _ _).bind (fun _ _ h => Method.ensures_pure fun _ heq => ?_)
      fun _ _ _ _ heq => by cases heq
    obtain ⟨event, rfl⟩ := h
    exact ⟨(Except.ok.inj heq).symm, [event], rfl⟩
  · exact Method.ensures_pure fun _ heq => ⟨(Except.ok.inj heq).symm, [], by simp⟩

/-- Events are no calls of a handler or a verifier. -/
theorem mem_reported {events : List ActivityEvent} {step : Step}
    (h : step ∈ events.map .reported) : ∃ event, step = .reported event := by
  obtain ⟨event, -, heq⟩ := List.mem_map.mp h
  exact ⟨event, heq.symm⟩

theorem verify_justified {definition : ActivityDefinition}
    (hdefinition :
      x.definitions.get? (invocation.activityId ++ ":" ++ version) = some definition)
    (before : List Step) (handled : Result) :
    Ensures (verify x report definition invocation context handled)
      (before ++ [.handled invocation (.returned (some handled))]) fun r calls' =>
        ∀ result, r = .ok result → result.status = "succeeded" →
          Justified x version invocation result calls' := by
  unfold verify
  cases hverification : definition.verification with
  | none =>
    refine (conclude_returns_result handled).mono fun r calls' h result hr hstatus => ?_
    obtain ⟨rfl, events, rfl⟩ := h result hr
    refine ⟨definition, before, result, events.map .reported, hdefinition,
      List.append_assoc _ _ _, hstatus, fun i answer hmem => ?_, ?_⟩
    · obtain ⟨event, heq⟩ := mem_reported hmem
      cases heq
    · rw [hverification]
  | some verification =>
    refine Ensures.ite (fun hhandled => ?_) fun hhandled => ?_
    · cases x.verifiers.get? verification.verifier with
      | none => exact Method.ensures_throw fun _ h => by cases h
      | some v =>
        refine (emit_reports _ _).bind (fun _ mid hmid => ?_) fun _ _ _ _ h => by cases h
        obtain ⟨event, rfl⟩ := hmid
        refine Method.ensures_get (Method.ensures_set_bind ?_)
        split
        · exact Method.ensures_throw fun _ h => by cases h
        · exact Method.ensures_throw fun _ h => by cases h
        · exact Method.ensures_throw fun _ h => by cases h
        · rename_i verified hanswer
          rw [hanswer]
          refine (conclude_returns_result verified).mono fun r calls' h result hr hstatus => ?_
          obtain ⟨rfl, events, rfl⟩ := h result hr
          refine ⟨definition, before, handled, .reported event ::
            .verified invocation verification (.returned (some result)) :: events.map .reported,
            hdefinition, by simp, hhandled, fun i answer hmem => ?_, ?_⟩
          · simp only [List.mem_cons, reduceCtorEq, false_or] at hmem
            obtain ⟨event, heq⟩ := mem_reported hmem
            cases heq
          · rw [hverification]
            refine ⟨[.reported event], events.map .reported, rfl, fun i v answer hmem => ?_⟩
            obtain ⟨event, heq⟩ := mem_reported hmem
            cases heq
    · refine (conclude_returns_result handled).mono fun r calls' h result hr hstatus => ?_
      obtain ⟨rfl, -⟩ := h result hr
      exact absurd hstatus hhandled

theorem perform_justified
    (prepare : Option (ActivityInvocation → ActivityContext → ExecM Result)) :
    Ensures (perform x report version prepare invocation context) calls fun r calls' =>
      ∀ result, r = .ok result → result.status = "succeeded" →
        Justified x version invocation result calls' := by
  unfold perform
  split
  · exact Method.ensures_throw fun _ h => by cases h
  rename_i definition hdefinition
  split
  · exact Method.ensures_throw fun _ h => by cases h
  rename_i handler _
  refine ensures_rest (fun _ _ => ensures_rest (fun _ _ => ensures_rest (fun error _ => ?_) ?_) ?_) ?_
  · cases error with
    | some error =>
      refine ensures_rest (fun _ _ => Method.ensures_pure fun result h hstatus => ?_)
        fun _ _ _ h => by cases h
      cases h
      exact absurd hstatus (by decide : "failed" ≠ "succeeded")
    | none =>
      refine ensures_rest (fun _ ready => Method.ensures_get (Method.ensures_set_bind ?_))
        fun _ _ _ h => by cases h
      generalize handler ready invocation context = answer
      cases answer with
      | cancelled => exact Method.ensures_throw fun _ h => by cases h
      | raised e =>
        refine Method.ensures_pure fun result h hstatus => ?_
        cases h
        exact absurd hstatus (by decide : "failed" ≠ "succeeded")
      | returned result =>
        cases result with
        | none => exact Method.ensures_throw fun _ h => by cases h
        | some result => exact verify_justified hdefinition ready result
  · exact fun _ _ _ h => by cases h
  · exact fun _ _ _ h => by cases h
  · exact fun _ _ _ h => by cases h

/-! ## Executions end -/

theorem emit_returns (type : String) (payload : Dict String Value) :
    Returns (emit report type invocation payload) calls := by
  unfold emit
  refine Method.returns_get (Returns.bind Method.returns_set fun _ _ => ?_)
  split
  · exact Method.returns_pure
  · exact Method.returns_throw
  · exact Method.returns_throw

theorem emitIf_returns (condition : Prop) [Decidable condition] (type : String)
    (payload : Dict String Value) :
    Returns (emitIf report condition type invocation payload) calls :=
  Returns.ite (fun _ => emit_returns type payload) fun _ => Method.returns_pure

theorem probe_returns (p : List Step → GuardSpec → ActivityContext → Answer Value)
    (guard : GuardSpec) : Returns (probe p guard context invocation) calls :=
  ⟨_, _, rfl⟩

theorem check_returns {prepare : Option (ActivityInvocation → ActivityContext → ExecM Result)}
    (hprepare : ∀ execute, prepare = some execute → ∀ i c mid, Returns (execute i c) mid)
    (guards : List GuardSpec) (calls : List Step) :
    Returns (checkPreconditions x report prepare invocation context guards) calls := by
  induction guards generalizing calls with
  | nil => exact Method.returns_pure
  | cons guard rest ih =>
    unfold checkPreconditions
    cases x.probes.get? guard.probe with
    | none => exact Method.returns_pure
    | some p =>
      refine Returns.bind (probe_returns p guard) fun answer _ => ?_
      cases answer with
      | cancelled => exact Method.returns_throw
      | raised e => exact Method.returns_pure
      | returned observed =>
        dsimp only
        cases predicateMatches guard.predicate observed with
        | error e => exact Method.returns_throw
        | ok holds =>
          cases holds with
          | true => exact Returns.bind (emit_returns _ _) fun _ mid => ih mid
          | false =>
            refine Returns.ite (fun _ => ?_) fun _ => Method.returns_pure
            cases hexecute : prepare with
            | none => exact Method.returns_pure
            | some execute =>
              subst hexecute
              refine Returns.bind (emit_returns _ _) fun _ _ =>
                Returns.bind (hprepare execute rfl _ _ _) fun prepared _ =>
                  Returns.ite (fun _ => Method.returns_pure) fun _ =>
                    Returns.bind (probe_returns p guard) fun answer mid => ?_
              cases answer with
              | cancelled => exact Method.returns_throw
              | raised e => exact Method.returns_throw
              | returned observed =>
                dsimp only
                cases predicateMatches guard.predicate observed with
                | error e => exact Method.returns_throw
                | ok holds =>
                  cases holds with
                  | true => exact ih mid
                  | false => exact Method.returns_pure

theorem conclude_returns (result : Result) :
    Returns (conclude report invocation result) calls := by
  unfold conclude
  split
  · exact Returns.bind (emit_returns _ _) fun _ _ => Method.returns_pure
  · exact Method.returns_pure

theorem verify_returns (definition : ActivityDefinition) (result : Result) :
    Returns (verify x report definition invocation context result) calls := by
  unfold verify
  cases definition.verification with
  | none => exact conclude_returns result
  | some verification =>
    refine Returns.ite (fun _ => ?_) fun _ => conclude_returns result
    cases x.verifiers.get? verification.verifier with
    | none => exact Method.returns_throw
    | some v =>
      refine Returns.bind (emit_returns _ _) fun _ _ =>
        Method.returns_get (Returns.bind Method.returns_set fun _ _ => ?_)
      split
      · exact Method.returns_throw
      · exact Method.returns_throw
      · exact Method.returns_throw
      · exact conclude_returns _

theorem perform_returns {prepare : Option (ActivityInvocation → ActivityContext → ExecM Result)}
    (hprepare : ∀ execute, prepare = some execute → ∀ i c mid, Returns (execute i c) mid) :
    Returns (perform x report version prepare invocation context) calls := by
  unfold perform
  split
  · exact Method.returns_throw
  split
  · exact Method.returns_throw
  refine Returns.bind (emit_returns _ _) fun _ _ => Returns.bind (emit_returns _ _) fun _ _ =>
    Returns.bind (check_returns hprepare _ _) fun error _ => ?_
  cases error with
  | some error => exact Returns.bind (emit_returns _ _) fun _ _ => Method.returns_pure
  | none =>
    refine Returns.bind ?_ fun _ _ =>
      Method.returns_get (Returns.bind Method.returns_set fun _ _ => ?_)
    · exact Returns.bind (emit_returns _ _) fun _ _ => Returns.bind (emitIf_returns _ _ _)
        fun _ _ => Returns.bind (emitIf_returns _ _ _) fun _ _ => emitIf_returns _ _ _
    · split
      · exact Method.returns_throw
      · exact Method.returns_pure
      · exact Method.returns_throw
      · exact verify_returns _ _

variable (x report version) in
/-- However the definitions refer to each other, an execution ends. -/
theorem executeWithin_returns (n : ℕ) (invocation : ActivityInvocation) (context : ActivityContext)
    (calls : List Step) :
    Returns (executeWithin x report version n invocation context) calls := by
  induction n generalizing invocation context calls with
  | zero => exact perform_returns fun execute h => by cases h
  | succ n ih =>
    refine perform_returns fun execute h i c mid => ?_
    cases h
    exact ih i c mid

end Parts

/-- Every execution ends after a bounded number of calls. Each handler in it is called when the last
evaluation of each of its guards matched, and where the execution succeeds, its handler and its
verification did. -/
theorem execute_bounded_gated (version : String) (invocation : ActivityInvocation)
    (context : ActivityContext) : ∃ r calls,
      (execute x report version invocation context).run [] = some (r, calls) ∧
      calls.length ≤ callBound (guardCount x) 3 ∧ Gated x version calls ∧
      ∀ result, r = .ok result → result.status = "succeeded" →
        Justified x version invocation result calls := by
  obtain ⟨r, calls, hrun⟩ := executeWithin_returns x report version 3 invocation context []
  obtain ⟨added, hcalls, hlength, hgated, -⟩ :=
    executeWithin_adds x report version 3 invocation context [] r calls hrun
  have hstart : Gated x version [] := by
    intro before i answer after heq
    simp at heq
  refine ⟨r, calls, hrun, ?_, hgated hstart, ?_⟩
  · rw [hcalls, List.nil_append]
    exact hlength
  · exact perform_justified _ r calls hrun

end ActivityExecutor

end DeviceShell.Activity
