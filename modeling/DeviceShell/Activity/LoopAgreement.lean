import DeviceShell.Activity.LoopBodies
import DeviceShell.Framework.RichValues
import DeviceShell.Lib.Fallible

/-!
# Where the three loops agree

The three interpreters of a loop's body agree on a body when they reach the same steps, which see the
same outputs, and make the same calls, whatever the child runner returns (`Agree`). They do so up to
the names that a loop binds itself: the body does not read those (`Neutral`), and the `device_id`
that `device.for_each` adds to the inputs of a call is left out of the comparison (`BodyEvent.bare`),
as it is for the child runner.

They agree on a body if and only if it is `Uniform`: only `device.for_each` looks at the policies of
a step and at the names of variables, so no step may retry or repeat, none but the last may continue
after a failure or set a variable, and none may choose its own device. One direction is a simulation
of the loops by each other, step by step. For the other, the references of a body are made to resolve
by outputs that are rich enough, and the first step that is not as it should be tells the loops apart.
-/

namespace DeviceShell.Activity.LoopBody

open Framework Stateful

/-! ## The claim of agreement -/

/-- What happened, up to the device of the loop. -/
def BodyEvent.bare : BodyEvent → BodyEvent
  | entered stepId outputs => .entered stepId outputs
  | called actionId inputs => .called actionId (inputs.erase "device_id")

/-- A child runner that does not look at the device of the loop. -/
def bareRunner (behaviour : ChildRunner) : ChildRunner := fun history actionId inputs =>
  behaviour (history.map .bare) actionId (inputs.erase "device_id")

/-- What happens in a body, from its start. -/
def traceOf {α : Type} (body : Body α) : List BodyEvent := (body.run []).2.map .bare

/-- The names that the loops bind. -/
def injectedNames : List String :=
  ["item", "index", "device", "device_id", "iteration", "result"]

section

variable [PyLib]

/-- The inputs of a step do not depend on the names that the loops bind. -/
def Neutral (step : BodyStep) : Prop :=
  ∀ values values' : Dict String Value,
    (∀ name, name ∉ injectedNames → values.get? name = values'.get? name) →
    (resolveInputs { values := values } step.actionInputs).toOption =
      (resolveInputs { values := values' } step.actionInputs).toOption

/-- The three loops do the same with a body, whatever its calls return. -/
def Agree (body : List BodyStep) : Prop :=
  ∀ (behaviour : ChildRunner) (scope : Dict String Value) (item : Value) (index : ℕ)
    (fields : Dict String Value) (deviceId : String), deviceId ≠ "" → strip deviceId = deviceId →
    traceOf (forEachRunSteps (bareRunner behaviour) (itemLocals item index) scope body) =
        traceOf (deviceRunSteps (bareRunner behaviour) deviceId
          (deviceLocals fields deviceId index) scope body) ∧
      traceOf (forEachRunSteps (bareRunner behaviour) (itemLocals item index) scope body) =
        traceOf (untilRunSteps (bareRunner behaviour) untilLocals scope body)

/-- `device.for_each` makes one call for the step, in whichever way it ends: one iteration, and one
attempt, or else a pause before the next attempt that raises. -/
structure BodyStep.Single (step : BodyStep) : Prop where
  iterations : step.iterations = .ok 1
  attempts : ∃ attempts, step.attempts = .ok attempts ∧
    (attempts = 1 ∨ 1 < attempts ∧ ∃ e, step.backoff = .error e)
  device : "device_id" ∉ step.actionInputs.keys

/-- A step after which `device.for_each` goes on as the other loops do. -/
structure BodyStep.Leads (step : BodyStep) : Prop where
  variable_ : step.actionId ≠ "variable.set"
  stops : step.attempts = .ok 1 → step.continues = false

/-- A body that the three loops do the same with. -/
def Uniform (body : List BodyStep) : Prop :=
  (∀ step ∈ body, step.Single) ∧ ∀ step ∈ body.dropLast, step.Leads

/-! ## Neutral steps -/

/-- Where a reference leads depends on its first name, besides `run`. -/
theorem toOption_followReference (expression : String) {segment : String}
    {values values' : Dict String Value} (hrun : values.get? "run" = values'.get? "run")
    (h : values.get? segment = values'.get? segment) (rest : List String) :
    (followReference expression (.ofDict values) [] (segment :: rest)).toOption =
      (followReference expression (.ofDict values') [] (segment :: rest)).toOption := by
  have hlookup : Dict.lookup segment values.entries = Dict.lookup segment values'.entries := h
  have hmapping : mapping? ⟨values.entries⟩ "run" = mapping? ⟨values'.entries⟩ "run" := by
    show (values.get? "run").bind _ = (values'.get? "run").bind _
    rw [hrun]
  dsimp only [followReference, Value.ofDict]
  rw [hlookup, hmapping]
  split
  · rfl
  · -- The errors name what is there instead.
    split <;> rfl

/-- A step with one input, which refers to a name that no loop binds, is neutral. -/
theorem neutral_of_reference {step : BodyStep} {key text path segment : String}
    {rest : List String} (hinputs : step.actionInputs = ⟨[(key, .str text)]⟩)
    (hkey : key ≠ "input_json") (hpath : exactReference text = some path)
    (hsegments : segments path = segment :: rest) (hsegment : segment ∉ injectedNames) :
    Neutral step := by
  intro values values' hvalues
  have hresolve (values : Dict String Value) :
      resolveInputs { values := values } step.actionInputs =
        (followReference (referenceText path) (.ofDict values) [] (segment :: rest)).map
          fun v => ⟨[(key, v)]⟩ := by
    have hlast : (([key] : List String).getLast? == some "input_json") = false :=
      beq_false_of_ne fun h => hkey (Option.some_inj.mp h)
    rw [hinputs]
    simp only [resolveInputs, List.mapM_cons, List.mapM_nil, resolveWith, hlast, resolveText, hpath,
      resolveReference, List.contains_nil, Bool.false_and, hsegments]
    cases followReference (referenceText path) (.ofDict values) [] (segment :: rest) <;> rfl
  have hfollow := toOption_followReference (referenceText path)
    (hvalues "run" (by decide)) (hvalues segment hsegment) rest
  rw [hresolve, hresolve]
  revert hfollow
  generalize followReference _ (.ofDict values) _ _ = a
  generalize followReference _ (.ofDict values') _ _ = b
  cases a <;> cases b <;> simp [Except.toOption, Except.map]

/-! ## Histories -/

/-- What happens in the loop over the steps of `loop.for_each` and `loop.until`. -/
def plainHistory (runner : ChildRunner) (locals : Dict String Value) (steps : List BodyStep)
    (q : Progress) (history : List BodyEvent) : List BodyEvent :=
  ((plainSteps runner locals steps q).run history).2

/-- What happens in the loop over the steps of `device.for_each`. -/
def deviceHistory (runner : ChildRunner) (deviceId : String) (locals : Dict String Value)
    (steps : List BodyStep) (q : Progress) (history : List BodyEvent) : List BodyEvent :=
  ((deviceSteps runner deviceId locals steps q).run history).2

omit [PyLib] in
/-- What is made of the result does not happen in the body. -/
theorem history_map {α β : Type} (m : Body α) (f : α → β) (history : List BodyEvent) :
    ((do let a ← m; return f a : Body β).run history).2 = (m.run history).2 := by
  rw [run_bind]
  generalize m.run history = result
  obtain ⟨result, after⟩ := result
  cases result with
  | ok a => rfl
  | error e => rfl

omit [PyLib] in
theorem run_call (runner : ChildRunner) (actionId : String) (inputs : Dict String Value)
    (history : List BodyEvent) : (call runner actionId inputs).run history =
      (runner history actionId inputs, history ++ [.called actionId inputs]) := by
  unfold call
  cases hrunner : runner history actionId inputs with
  | ok a =>
    show ((do set (history ++ [.called actionId inputs]); liftM (runner history actionId inputs) :
      Body _).run history) = _
    rw [hrunner]
    rfl
  | error e =>
    show ((do set (history ++ [.called actionId inputs]); liftM (runner history actionId inputs) :
      Body _).run history) = _
    rw [hrunner]
    rfl

/-- A step of `loop.for_each` or `loop.until`. -/
theorem plainHistory_cons (runner : ChildRunner) (locals : Dict String Value) (step : BodyStep)
    (rest : List BodyStep) (q : Progress) (history : List BodyEvent) :
    plainHistory runner locals (step :: rest) q history =
      match stepInputs step q.outputs locals with
      | .error _ => history ++ [.entered step.id q.outputs]
      | .ok inputs =>
        match runner (history ++ [.entered step.id q.outputs]) step.actionId inputs with
        | .error _ => history ++ [.entered step.id q.outputs] ++ [.called step.actionId inputs]
        | .ok result => plainHistory runner locals rest (q.keep step result)
            (history ++ [.entered step.id q.outputs] ++ [.called step.actionId inputs]) := by
  unfold plainHistory
  rw [plainSteps]
  show (((liftM (stepInputs step q.outputs locals) : Body _) >>= _).run
    (history ++ [.entered step.id q.outputs])).2 = _
  cases stepInputs step q.outputs locals with
  | error e => rfl
  | ok inputs =>
    show ((call runner step.actionId inputs >>= _).run _).2 = _
    rw [run_bind, run_call]
    dsimp only
    cases runner (history ++ [.entered step.id q.outputs]) step.actionId inputs with
    | error e => rfl
    | ok result => rfl

omit [PyLib] in
theorem ok_bind {α β : Type} (a : α) (f : α → Except PyError β) : (Except.ok a >>= f) = f a := rfl

/-- What `device.for_each` computes before the calls of a step: the inputs, and how many attempts
and iterations there are. -/
def readyStep (step : BodyStep) (deviceId : String) (outputs locals : Dict String Value) :
    Except PyError (Dict String Value × ℕ × ℕ) := do
  let inputs ← stepInputs step outputs locals
  let inputs ← deviceInputs step deviceId inputs
  let attempts ← step.attempts
  let iterations ← step.iterations
  return (inputs, attempts.toNat, iterations.toNat)

/-- A step of `device.for_each`. -/
theorem deviceHistory_cons (runner : ChildRunner) (deviceId : String)
    (locals : Dict String Value) (step : BodyStep) (rest : List BodyStep) (q : Progress)
    (history : List BodyEvent) :
    deviceHistory runner deviceId locals (step :: rest) q history =
      match readyStep step deviceId q.outputs locals with
      | .error _ => history ++ [.entered step.id q.outputs]
      | .ok (inputs, attempts, iterations) =>
        match (iterateCalls runner step inputs attempts iterations q.result).run
            (history ++ [.entered step.id q.outputs]) with
        | (.error _, after) => after
        | (.ok result, after) => deviceHistory runner deviceId locals rest
            ((q.keep step result).recordVariable step) after := by
  unfold deviceHistory readyStep
  rw [deviceSteps]
  show (((liftM (stepInputs step q.outputs locals) : Body _) >>= _).run
    (history ++ [.entered step.id q.outputs])).2 = _
  cases stepInputs step q.outputs locals with
  | error e => rfl
  | ok inputs =>
    show (((liftM (deviceInputs step deviceId inputs) : Body _) >>= _).run _).2 = _
    rw [ok_bind]
    cases deviceInputs step deviceId inputs with
    | error e => rfl
    | ok inputs =>
      show (((liftM step.attempts : Body _) >>= _).run _).2 = _
      rw [ok_bind]
      cases step.attempts with
      | error e => rfl
      | ok attempts =>
        show (((liftM step.iterations : Body _) >>= _).run _).2 = _
        rw [ok_bind]
        cases step.iterations with
        | error e => rfl
        | ok iterations =>
          show ((iterateCalls runner step inputs attempts.toNat iterations.toNat q.result >>=
            _).run _).2 = _
          rw [run_bind]
          show _ = match (iterateCalls runner step inputs attempts.toNat iterations.toNat
            q.result).run (history ++ [.entered step.id q.outputs]) with
            | (.error _, after) => after
            | (.ok result, after) => _
          generalize (iterateCalls runner step inputs attempts.toNat iterations.toNat
            q.result).run (history ++ [.entered step.id q.outputs]) = result
          obtain ⟨result, after⟩ := result
          cases result with
          | error e => rfl
          | ok result => rfl

/-! ## Inputs -/

/-- What a loop binds, besides the outputs. -/
def Injects (locals : Dict String Value) : Prop :=
  ∀ name ∈ locals.keys, name ∈ injectedNames ∨ name = "outputs"

omit [PyLib] in
/-- What a step sees, apart from the names that the loop binds. -/
theorem get?_stepValues {outputs locals : Dict String Value} (hlocals : Injects locals)
    {name : String} (hname : name ∉ injectedNames) : (stepValues outputs locals).get? name =
      if name = "outputs" then some (.ofDict outputs) else outputs.get? name := by
  unfold stepValues
  rw [Dict.get?_set]
  by_cases houtputs : name = "outputs"
  · rw [if_pos houtputs, if_pos houtputs]
  · rw [if_neg houtputs, if_neg houtputs]
    exact Dict.get?_merge_of_not_mem _ _ fun hmem => (hlocals name hmem).elim hname houtputs

/-- The inputs of a step in two loops. -/
theorem stepInputs_locals {step : BodyStep} (hneutral : Neutral step)
    (outputs : Dict String Value) {locals locals' : Dict String Value} (h : Injects locals)
    (h' : Injects locals') :
    (stepInputs step outputs locals).toOption = (stepInputs step outputs locals').toOption :=
  hneutral _ _ fun _ hname => by rw [get?_stepValues h hname, get?_stepValues h' hname]

/-- The keys of what a mapping resolves to. -/
theorem mem_keys_resolveInputs {r : Resolution} {mapping inputs : Dict String Value}
    (h : resolveInputs r mapping = .ok inputs) (name : String) :
    name ∈ inputs.keys ↔ name ∈ mapping.keys := by
  unfold resolveInputs at h
  rw [Except.bind_eq_ok] at h
  obtain ⟨entries, hentries, hinputs⟩ := h
  obtain rfl := Except.ok.inj hinputs
  have hkeys : entries.map Prod.fst = mapping.entries.map Prod.fst := by
    generalize mapping.entries = items at hentries
    clear hinputs
    rw [Except.mapM_eq_ok] at hentries
    induction hentries with
    | nil => rfl
    | cons hfirst _ ih =>
      rw [Except.bind_eq_ok] at hfirst
      obtain ⟨v, -, hv⟩ := hfirst
      obtain rfl := Except.ok.inj hv
      rw [List.map_cons, List.map_cons, ih]
  have hfold : ∀ (entries : List (String × Value)) (d : Dict String Value),
      name ∈ (entries.foldl (fun d e => d.set e.1 e.2) d).keys ↔
        name ∈ d.keys ∨ name ∈ entries.map Prod.fst := by
    intro entries
    induction entries with
    | nil => simp
    | cons first rest ih =>
      intro d
      rw [List.foldl_cons, ih, Dict.mem_keys_set]
      simp only [List.map_cons, List.mem_cons]
      tauto
  rw [hfold, hkeys]
  exact or_iff_right (by simp [Dict.keys, EmptyCollection.emptyCollection, Dict.empty])

omit [PyLib] in
/-- A step without a device of its own gets that of the loop. -/
theorem deviceInputs_of_not_mem {step : BodyStep} {deviceId : String} {inputs : Dict String Value}
    (hid : strip deviceId = deviceId) (h : "device_id" ∉ inputs.keys) :
    deviceInputs step deviceId inputs = .ok (inputs.set "device_id" (.str deviceId)) := by
  have hdefault : inputs.setDefault "device_id" (.str deviceId) =
      inputs.set "device_id" (.str deviceId) := by
    unfold Dict.setDefault
    rw [if_neg]
    rw [Dict.contains_iff_mem_keys]
    exact h
  have hentry : entry (inputs.set "device_id" (.str deviceId)) "device_id" = .str deviceId := by
    unfold entry
    rw [Dict.get?_set_self]
    rfl
  have hvalue : deviceIdValue (.str deviceId) = .ok deviceId := by
    show Except.ok (strip deviceId) = _
    rw [hid]
  unfold deviceInputs
  dsimp only
  rw [hdefault, hentry, hvalue, ok_bind, if_neg (fun hne => hne rfl), Dict.set_set]
  rfl

omit [PyLib] in
/-- Up to the device of the loop they are the inputs of the step. -/
theorem erase_device {inputs : Dict String Value} (h : "device_id" ∉ inputs.keys) (v : Value) :
    (inputs.set "device_id" v).erase "device_id" = inputs.erase "device_id" := by
  rw [Dict.erase_set_of_get? ((Dict.get?_eq_none_iff _ _).mpr h), Dict.erase_of_not_mem h]

/-! ## The loops do the same with a uniform body -/

/-- `loop.for_each` and `loop.until`. -/
theorem plainHistory_locals {runner : ChildRunner} {locals locals' : Dict String Value}
    (h : Injects locals) (h' : Injects locals') (steps : List BodyStep)
    (hneutral : ∀ step ∈ steps, Neutral step) (q : Progress) (history : List BodyEvent) :
    plainHistory runner locals steps q history = plainHistory runner locals' steps q history := by
  induction steps generalizing q history with
  | nil => rfl
  | cons step rest ih =>
    have hinputs := stepInputs_locals (hneutral step List.mem_cons_self) q.outputs h h'
    have hrest := ih fun s hs => hneutral s (List.mem_cons_of_mem _ hs)
    rw [plainHistory_cons, plainHistory_cons]
    cases hstep : stepInputs step q.outputs locals with
    | error e =>
      cases hstep' : stepInputs step q.outputs locals' with
      | error e' => rfl
      | ok inputs' => rw [hstep, hstep'] at hinputs; cases hinputs
    | ok inputs =>
      cases hstep' : stepInputs step q.outputs locals' with
      | error e' => rw [hstep, hstep'] at hinputs; cases hinputs
      | ok inputs' =>
        rw [hstep, hstep'] at hinputs
        obtain rfl := Option.some.inj hinputs
        dsimp only
        cases runner (history ++ [.entered step.id q.outputs]) step.actionId inputs with
        | error e => rfl
        | ok result => exact hrest _ _

/-- An attempt that the child runner answers. -/
theorem run_attemptCalls (runner : ChildRunner) (step : BodyStep) (inputs : Dict String Value)
    (left : ℕ) (result : Dict String Value) (history : List BodyEvent) :
    (attemptCalls runner step inputs (left + 1) result).run history =
      match runner history step.actionId inputs with
      | .ok result => (.ok result, history ++ [.called step.actionId inputs])
      | .error e => (if left ≠ 0 then do
          let _ ← liftM step.backoff
          attemptCalls runner step inputs left result
        else if step.continues then
          return ⟨[("status", .str "failed"), ("error", .dict [("message", .str e.text)])]⟩
        else throw (.other ("step " ++ step.id ++ ": " ++ e.text)) : Body _).run
          (history ++ [.called step.actionId inputs]) := by
  rw [attemptCalls, run_tryCatch, run_call]
  cases runner history step.actionId inputs with
  | ok result => rfl
  | error e => rfl

/-- One iteration is the attempts. -/
theorem run_iterateCalls_one (runner : ChildRunner) (step : BodyStep)
    (inputs : Dict String Value) (attempts : ℕ) (result : Dict String Value)
    (history : List BodyEvent) : (iterateCalls runner step inputs attempts 1 result).run history =
      (attemptCalls runner step inputs attempts result).run history := by
  rw [iterateCalls, run_bind]
  generalize (attemptCalls runner step inputs attempts result).run history = answer
  obtain ⟨answer, after⟩ := answer
  cases answer with
  | ok result => rfl
  | error e => rfl

/-- A step of one call makes one call; where it fails, so does the step, or it continues. -/
theorem run_single {step : BodyStep} {attempts : ℤ} (hattempts : attempts = 1 ∨
      1 < attempts ∧ ∃ e, step.backoff = .error e)
    (runner : ChildRunner) (inputs result : Dict String Value) (history : List BodyEvent) :
    ∃ answer, (iterateCalls runner step inputs attempts.toNat 1 result).run history =
        (answer, history ++ [.called step.actionId inputs]) ∧
      (∀ r, runner history step.actionId inputs = .ok r → answer = .ok r) ∧
      (∀ e, runner history step.actionId inputs = .error e →
        (attempts = 1 ∧ step.continues = true) ∨ ∃ e', answer = .error e') := by
  obtain ⟨left, hleft⟩ : ∃ left, attempts.toNat = left + 1 := ⟨attempts.toNat - 1, by omega⟩
  rw [run_iterateCalls_one, hleft, run_attemptCalls]
  cases runner history step.actionId inputs with
  | ok r =>
    refine ⟨.ok r, rfl, fun r' hr => ?_, fun e he => by cases he⟩
    obtain rfl := Except.ok.inj hr
    rfl
  | error e =>
    dsimp only
    rcases hattempts with hone | ⟨hmore, e', hbackoff⟩
    · -- The last attempt: the step continues, or raises.
      have hzero : left = 0 := by omega
      rw [if_neg (fun hne => hne hzero)]
      by_cases hcontinues : step.continues = true
      · rw [if_pos hcontinues]
        exact ⟨_, rfl, (fun r hr => by cases hr), fun _ _ => .inl ⟨hone, hcontinues⟩⟩
      · rw [if_neg hcontinues]
        exact ⟨_, rfl, (fun r hr => by cases hr), fun _ _ => .inr ⟨_, rfl⟩⟩
    · -- The pause before the next attempt raises.
      have hne : left ≠ 0 := by omega
      rw [if_pos hne, hbackoff]
      exact ⟨.error e', rfl, (fun r hr => by cases hr), fun _ _ => .inr ⟨e', rfl⟩⟩

omit [PyLib] in
/-- A child runner that does not look at the device sees no difference. -/
theorem bareRunner_congr (behaviour : ChildRunner) (actionId : String)
    {history history' : List BodyEvent} {inputs inputs' : Dict String Value}
    (hhistory : history'.map BodyEvent.bare = history.map BodyEvent.bare)
    (hinputs : inputs'.erase "device_id" = inputs.erase "device_id") :
    bareRunner behaviour history' actionId inputs' =
      bareRunner behaviour history actionId inputs := by
  unfold bareRunner
  rw [hhistory, hinputs]

/-- A step without a device of its own, in a loop over devices: its inputs are those of the other
loops, up to the device. -/
theorem readyStep_single {step : BodyStep} (hsingle : step.Single) {deviceId : String}
    (hid : strip deviceId = deviceId) {outputs locals inputs : Dict String Value}
    (hinputs : stepInputs step outputs locals = .ok inputs) {attempts : ℤ}
    (hattempts : step.attempts = .ok attempts) :
    readyStep step deviceId outputs locals =
        .ok (inputs.set "device_id" (.str deviceId), attempts.toNat, 1) ∧
      (inputs.set "device_id" (.str deviceId)).erase "device_id" = inputs.erase "device_id" := by
  have hdevice : "device_id" ∉ inputs.keys := by
    rw [mem_keys_resolveInputs hinputs]
    exact hsingle.device
  refine ⟨?_, erase_device hdevice _⟩
  unfold readyStep
  rw [hinputs, ok_bind, deviceInputs_of_not_mem hid hdevice, ok_bind, hattempts, ok_bind,
    hsingle.iterations, ok_bind]
  rfl

/-- `device.for_each` on a uniform body. -/
theorem deviceHistory_uniform (behaviour : ChildRunner) {deviceId : String}
    (hid : strip deviceId = deviceId) {locals locals' : Dict String Value} (h : Injects locals)
    (h' : Injects locals') (steps : List BodyStep) (hneutral : ∀ step ∈ steps, Neutral step)
    (huniform : Uniform steps) (q : Progress) (history history' : List BodyEvent)
    (hhistory : history'.map BodyEvent.bare = history.map BodyEvent.bare) :
    (deviceHistory (bareRunner behaviour) deviceId locals' steps q history').map BodyEvent.bare =
      (plainHistory (bareRunner behaviour) locals steps q history).map BodyEvent.bare := by
  induction steps generalizing q history history' with
  | nil => exact hhistory
  | cons step rest ih =>
    have hsingle := huniform.1 step List.mem_cons_self
    have hrest : Uniform rest := by
      refine ⟨fun s hs => huniform.1 s (List.mem_cons_of_mem _ hs), fun s hs => huniform.2 s ?_⟩
      cases rest with
      | nil => cases hs
      | cons next rest => exact List.mem_cons_of_mem _ hs
    obtain ⟨attempts, hattempts, hone⟩ := hsingle.attempts
    have hinputs := stepInputs_locals (hneutral step List.mem_cons_self) q.outputs h h'
    have hentered : (history' ++ [BodyEvent.entered step.id q.outputs]).map BodyEvent.bare =
        (history ++ [BodyEvent.entered step.id q.outputs]).map BodyEvent.bare := by
      rw [List.map_append, List.map_append, hhistory]
    rw [plainHistory_cons, deviceHistory_cons]
    cases hstep : stepInputs step q.outputs locals with
    | error e =>
      cases hstep' : stepInputs step q.outputs locals' with
      | error e' =>
        have hready : readyStep step deviceId q.outputs locals' = .error e' := by
          unfold readyStep
          rw [hstep']
          rfl
        rw [hready]
        exact hentered
      | ok inputs' => rw [hstep, hstep'] at hinputs; cases hinputs
    | ok inputs =>
      cases hstep' : stepInputs step q.outputs locals' with
      | error e' => rw [hstep, hstep'] at hinputs; cases hinputs
      | ok inputs' =>
        rw [hstep, hstep'] at hinputs
        obtain rfl := Option.some.inj hinputs
        obtain ⟨hready, herase⟩ := readyStep_single hsingle hid hstep' hattempts
        obtain ⟨answer, hrun, hok, herror⟩ := run_single hone (bareRunner behaviour)
          (inputs.set "device_id" (.str deviceId)) q.result
          (history' ++ [.entered step.id q.outputs])
        have hsame := bareRunner_congr behaviour step.actionId hentered herase
        have hcalled : (history' ++ [BodyEvent.entered step.id q.outputs] ++
              [BodyEvent.called step.actionId (inputs.set "device_id" (.str deviceId))]).map
              BodyEvent.bare =
            (history ++ [BodyEvent.entered step.id q.outputs] ++
              [BodyEvent.called step.actionId inputs]).map BodyEvent.bare := by
          simp only [List.map_append, List.map_cons, List.map_nil, hhistory, BodyEvent.bare, herase]
        rw [hready]
        dsimp only
        rw [hrun]
        cases hanswer : bareRunner behaviour (history ++ [.entered step.id q.outputs]) step.actionId
            inputs with
        | ok result =>
          rw [hok result (hsame.trans hanswer)]
          dsimp only
          cases rest with
          | nil => exact hcalled
          | cons next rest =>
            have hleads := huniform.2 step List.mem_cons_self
            have hvariable : (q.keep step result).recordVariable step = q.keep step result := by
              unfold Progress.recordVariable
              exact if_neg fun hset => hleads.variable_ hset.1
            rw [hvariable]
            exact ih (fun s hs => hneutral s (List.mem_cons_of_mem _ hs)) hrest _ _ _ hcalled
        | error e =>
          dsimp only
          cases answer with
          | error e' => exact hcalled
          | ok result =>
            -- The step continued after a failure, so it is the last one.
            cases rest with
            | nil => exact hcalled
            | cons next rest =>
              have hleads := huniform.2 step List.mem_cons_self
              rcases herror e (hsame.trans hanswer) with ⟨rfl, hcontinues⟩ | ⟨e', he'⟩
              · rw [hleads.stops hattempts] at hcontinues
                cases hcontinues
              · cases he'

omit [PyLib] in
theorem injects_itemLocals (item : Value) (index : ℕ) : Injects (itemLocals item index) := by
  intro name hname
  simp only [itemLocals, Dict.keys, List.map_cons, List.map_nil, List.mem_cons,
    List.not_mem_nil, or_false] at hname
  rcases hname with rfl | rfl
  · exact .inl (by decide)
  · exact .inl (by decide)

omit [PyLib] in
theorem injects_deviceLocals (fields : Dict String Value) (deviceId : String) (index : ℕ) :
    Injects (deviceLocals fields deviceId index) := by
  intro name hname
  simp only [deviceLocals, Dict.keys, List.map_cons, List.map_nil, List.mem_cons,
    List.not_mem_nil, or_false] at hname
  rcases hname with rfl | rfl | rfl
  · exact .inl (by decide)
  · exact .inl (by decide)
  · exact .inl (by decide)

/-- The loops do the same with a uniform body. -/
theorem agree_of_uniform {body : List BodyStep} (hneutral : ∀ step ∈ body, Neutral step)
    (h : Uniform body) : Agree body := by
  intro behaviour scope item index fields deviceId _ hid
  have hitem := injects_itemLocals item index
  have hdevice := injects_deviceLocals fields deviceId index
  have huntil : Injects untilLocals := by
    intro name hname
    simp only [untilLocals, Dict.keys, List.map_cons, List.map_nil, List.mem_cons,
      List.not_mem_nil, or_false] at hname
    rcases hname with rfl | rfl | rfl
    · exact .inl (by decide)
    · exact .inl (by decide)
    · exact .inr rfl
  unfold traceOf forEachRunSteps deviceRunSteps untilRunSteps
  rw [history_map, history_map, history_map]
  constructor
  · exact (deviceHistory_uniform behaviour hid hitem hdevice body hneutral h _ [] [] rfl).symm
  · exact congrArg (List.map BodyEvent.bare)
      (plainHistory_locals hitem huntil body hneutral { outputs := scope } [])

/-! ## A body whose references resolve -/

/-- There are values in which the inputs of all steps resolve. -/
theorem exists_rich (steps : List BodyStep) : ∃ names n, ∀ values, Rich names n (.ofDict values) →
    ∀ step ∈ steps, ∃ inputs, resolveInputs { values := values } step.actionInputs = .ok inputs := by
  induction steps with
  | nil => exact ⟨[], 0, fun _ _ step hstep => by cases hstep⟩
  | cons step rest ih =>
    obtain ⟨names, n, hfirst⟩ := resolves_resolveInputs step.actionInputs
    obtain ⟨names', n', hrest⟩ := ih
    refine ⟨names ++ names', max n n', fun values hrich s hs => ?_⟩
    rcases List.mem_cons.mp hs with rfl | hs
    · exact hfirst values (hrich.mono (List.subset_append_left _ _) (le_max_left _ _))
    · exact hrest values (hrich.mono (List.subset_append_right _ _) (le_max_right _ _)) s hs

omit [PyLib] in
/-- Some names with one value. -/
theorem get?_foldl_set (v : Value) (names : List String) (d : Dict String Value) (name : String) :
    (names.foldl (fun d name => d.set name v) d).get? name =
      if name ∈ names then some v else d.get? name := by
  induction names generalizing d with
  | nil => simp
  | cons first rest ih =>
    rw [List.foldl_cons, ih, Dict.get?_set]
    by_cases hrest : name ∈ rest
    · simp [hrest]
    · by_cases heq : name = first
      · simp [heq]
      · simp [hrest, heq]

/-- The inputs of a step resolve when the outputs are rich enough. -/
theorem stepInputs_rich {step : BodyStep} (hneutral : Neutral step) {names : List String} {n : ℕ}
    (hresolves : ∀ values, Rich names n (.ofDict values) →
      ∃ inputs, resolveInputs { values := values } step.actionInputs = .ok inputs)
    {outputs locals : Dict String Value} (hlocals : Injects locals)
    (hrich : Rich names n (.ofDict outputs)) :
    ∃ inputs, stepInputs step outputs locals = .ok inputs := by
  -- The names that the loop binds do not matter, so they may be rich as well.
  let values := injectedNames.foldl (fun d name => d.set name (richValue names n))
    (stepValues outputs locals)
  have hvalues (name : String) : values.get? name =
      if name ∈ injectedNames then some (richValue names n)
      else (stepValues outputs locals).get? name := get?_foldl_set _ _ _ _
  have hrich' : Rich names n (.ofDict values) := by
    cases n with
    | zero => trivial
    | succ n =>
      refine ⟨_, rfl, fun name hname => ?_⟩
      show ∃ w, values.get? name = some w ∧ _
      rw [hvalues]
      by_cases hinjected : name ∈ injectedNames
      · rw [if_pos hinjected]
        exact ⟨_, rfl, (rich_richValue names (n + 1)).mono (List.Subset.refl _) (Nat.le_succ n)⟩
      rw [if_neg hinjected, get?_stepValues hlocals hinjected]
      by_cases houtputs : name = "outputs"
      · rw [if_pos houtputs]
        exact ⟨_, rfl, hrich.mono (List.Subset.refl _) (Nat.le_succ n)⟩
      · rw [if_neg houtputs]
        obtain ⟨entries, hd, hentries⟩ := hrich
        obtain rfl : outputs.entries = entries := by injection hd
        exact hentries name hname
  obtain ⟨inputs, hinputs⟩ := hresolves values hrich'
  have hsame := hneutral values (stepValues outputs locals) fun name hname => by
    rw [hvalues, if_neg hname]
  rw [hinputs] at hsame
  cases hstep : stepInputs step outputs locals with
  | ok inputs' => exact ⟨inputs', rfl⟩
  | error e =>
    unfold stepInputs at hstep
    rw [hstep] at hsame
    cases hsame

/-! ## Histories grow -/

/-- The calls of a step come after what happened before. -/
theorem attemptCalls_grows (runner : ChildRunner) (step : BodyStep) (inputs : Dict String Value)
    (left : ℕ) (result : Dict String Value) (history : List BodyEvent) :
    ∃ tail, ((attemptCalls runner step inputs left result).run history).2 = history ++ tail := by
  induction left generalizing history with
  | zero => exact ⟨[], (List.append_nil _).symm⟩
  | succ left ih =>
    rw [run_attemptCalls]
    cases runner history step.actionId inputs with
    | ok r => exact ⟨_, rfl⟩
    | error e =>
      dsimp only
      by_cases hleft : left ≠ 0
      · rw [if_pos hleft]
        cases step.backoff with
        | error e' => exact ⟨_, rfl⟩
        | ok seconds =>
          obtain ⟨tail, htail⟩ := ih (history ++ [.called step.actionId inputs])
          exact ⟨[.called step.actionId inputs] ++ tail, by rw [← List.append_assoc]; exact htail⟩
      · rw [if_neg hleft]
        split
        · exact ⟨_, rfl⟩
        · exact ⟨_, rfl⟩

theorem iterateCalls_grows (runner : ChildRunner) (step : BodyStep) (inputs : Dict String Value)
    (attempts left : ℕ) (result : Dict String Value) (history : List BodyEvent) :
    ∃ tail, ((iterateCalls runner step inputs attempts left result).run history).2 =
      history ++ tail := by
  induction left generalizing result history with
  | zero => exact ⟨[], (List.append_nil _).symm⟩
  | succ left ih =>
    obtain ⟨tail, htail⟩ := attemptCalls_grows runner step inputs attempts result history
    rw [iterateCalls, run_bind]
    generalize (attemptCalls runner step inputs attempts result).run history = answer at htail
    obtain ⟨answer, after⟩ := answer
    dsimp only at htail
    rw [htail]
    cases answer with
    | error e => exact ⟨tail, rfl⟩
    | ok result =>
      obtain ⟨more, hmore⟩ := ih result (history ++ tail)
      exact ⟨tail ++ more, by rw [← List.append_assoc]; exact hmore⟩

/-- `device.for_each` reaches the next step first, if there is one. -/
theorem deviceHistory_next (runner : ChildRunner) (deviceId : String)
    (locals : Dict String Value) (steps : List BodyStep) (q : Progress)
    (history : List BodyEvent) : ∃ tail,
      deviceHistory runner deviceId locals steps q history = history ++ tail ∧
      (∀ step rest, steps = step :: rest → tail.head? = some (.entered step.id q.outputs)) ∧
      (steps = [] → tail = []) := by
  induction steps generalizing q history with
  | nil => exact ⟨[], (List.append_nil _).symm, (fun _ _ h => by cases h), fun _ => rfl⟩
  | cons step rest ih =>
    have htail : ∃ tail, deviceHistory runner deviceId locals (step :: rest) q history =
        history ++ [.entered step.id q.outputs] ++ tail := by
      rw [deviceHistory_cons]
      cases readyStep step deviceId q.outputs locals with
      | error e => exact ⟨[], (List.append_nil _).symm⟩
      | ok ready =>
        obtain ⟨inputs, attempts, iterations⟩ := ready
        obtain ⟨tail, htail⟩ := iterateCalls_grows runner step inputs attempts iterations q.result
          (history ++ [.entered step.id q.outputs])
        dsimp only
        generalize (iterateCalls runner step inputs attempts iterations q.result).run _ = answer
          at htail
        obtain ⟨answer, after⟩ := answer
        dsimp only at htail
        rw [htail]
        cases answer with
        | error e => exact ⟨tail, rfl⟩
        | ok result =>
          obtain ⟨more, hmore, -⟩ := ih ((q.keep step result).recordVariable step)
            (history ++ [.entered step.id q.outputs] ++ tail)
          exact ⟨tail ++ more, by rw [← List.append_assoc]; exact hmore⟩
    obtain ⟨tail, htail⟩ := htail
    refine ⟨.entered step.id q.outputs :: tail, by rw [htail, List.append_assoc]; rfl, ?_, ?_⟩
    · intro s r heq
      injection heq with hs _
      rw [hs]
      rfl
    · intro heq
      cases heq

/-- `loop.for_each` reaches the next step first, if there is one. -/
theorem plainHistory_next (runner : ChildRunner) (locals : Dict String Value)
    (steps : List BodyStep) (q : Progress) (history : List BodyEvent) : ∃ tail,
      plainHistory runner locals steps q history = history ++ tail ∧
      (∀ step rest, steps = step :: rest → tail.head? = some (.entered step.id q.outputs)) ∧
      (steps = [] → tail = []) := by
  induction steps generalizing q history with
  | nil => exact ⟨[], (List.append_nil _).symm, (fun _ _ h => by cases h), fun _ => rfl⟩
  | cons step rest ih =>
    have htail : ∃ tail, plainHistory runner locals (step :: rest) q history =
        history ++ [.entered step.id q.outputs] ++ tail := by
      rw [plainHistory_cons]
      cases stepInputs step q.outputs locals with
      | error e => exact ⟨[], (List.append_nil _).symm⟩
      | ok inputs =>
        dsimp only
        cases runner (history ++ [.entered step.id q.outputs]) step.actionId inputs with
        | error e => exact ⟨_, rfl⟩
        | ok result =>
          obtain ⟨more, hmore, -⟩ := ih (q.keep step result)
            (history ++ [.entered step.id q.outputs] ++ [.called step.actionId inputs])
          exact ⟨[.called step.actionId inputs] ++ more, by rw [← List.append_assoc]; exact hmore⟩
    obtain ⟨tail, htail⟩ := htail
    refine ⟨.entered step.id q.outputs :: tail, by rw [htail, List.append_assoc]; rfl, ?_, ?_⟩
    · intro s r heq
      injection heq with hs _
      rw [hs]
      rfl
    · intro heq
      cases heq

/-! ## Where the loops differ -/

/-- The outputs of a call under all of the names. -/
def richOutputs (names : List String) (n : ℕ) : Dict String Value :=
  ⟨names.map fun name => (name, richValue names n)⟩

omit [PyLib] in
theorem rich_richOutputs (names : List String) (n : ℕ) :
    Rich names n (.ofDict (richOutputs names n)) :=
  (rich_richValue names (n + 1)).mono (List.Subset.refl _) (Nat.le_succ n)

/-- A step was reached. -/
def BodyEvent.reaches : BodyEvent → Bool
  | entered _ _ => true
  | called _ _ => false

/-- A child runner that returns rich outputs for so many steps, and then something else. -/
def richUntil (names : List String) (n steps : ℕ) (answer : Except PyError (Dict String Value)) :
    ChildRunner := fun history _ _ =>
  if history.countP BodyEvent.reaches ≤ steps then .ok (richOutputs names n) else answer

omit [PyLib] in
theorem bareRunner_richUntil (names : List String) (n steps : ℕ)
    (answer : Except PyError (Dict String Value)) (history : List BodyEvent) (actionId : String)
    (inputs : Dict String Value) :
    bareRunner (richUntil names n steps answer) history actionId inputs =
      if history.countP BodyEvent.reaches ≤ steps then .ok (richOutputs names n) else answer := by
  have hcount : (history.map BodyEvent.bare).countP BodyEvent.reaches =
      history.countP BodyEvent.reaches := by
    rw [List.countP_map]
    congr 1
    funext event
    cases event with
    | entered stepId outputs => rfl
    | called actionId inputs => rfl
  unfold bareRunner richUntil
  rw [hcount]

/-- What a loop carries after some steps with rich outputs. -/
def afterRich (names : List String) (n : ℕ) (steps : List BodyStep) (q : Progress) : Progress :=
  steps.foldl (fun q step => q.keep step (richOutputs names n)) q

omit [PyLib] in
theorem rich_afterRich (names : List String) (n : ℕ) (steps : List BodyStep) (q : Progress)
    (h : Rich names n (.ofDict q.outputs)) :
    Rich names n (.ofDict (afterRich names n steps q).outputs) := by
  induction steps generalizing q with
  | nil => exact h
  | cons step rest ih => exact ih _ (h.set (rich_richOutputs names n) step.id)

/-- Two loops that have come through the same steps. -/
structure Abreast (steps : ℕ) (history history' : List BodyEvent) : Prop where
  same : history'.map BodyEvent.bare = history.map BodyEvent.bare
  reached : history.countP BodyEvent.reaches = steps
  reached' : history'.countP BodyEvent.reaches = steps

/-- Both loops come through steps that lead on, and whose inputs resolve. -/
theorem abreast_afterRich {names : List String} {n : ℕ} (m : ℕ)
    (answer : Except PyError (Dict String Value)) {deviceId : String}
    (hid : strip deviceId = deviceId) {locals locals' : Dict String Value} (h : Injects locals)
    (h' : Injects locals') (before rest : List BodyStep)
    (hneutral : ∀ step ∈ before, Neutral step) (hgood : ∀ step ∈ before, step.Single ∧ step.Leads)
    (hresolves : ∀ values, Rich names n (.ofDict values) → ∀ step ∈ before,
      ∃ inputs, resolveInputs { values := values } step.actionInputs = .ok inputs)
    (q : Progress) (hrich : Rich names n (.ofDict q.outputs)) {k : ℕ} (hk : k + before.length ≤ m)
    {history history' : List BodyEvent} (habreast : Abreast k history history') :
    ∃ after after', Abreast (k + before.length) after after' ∧
      plainHistory (bareRunner (richUntil names n m answer)) locals (before ++ rest) q history =
        plainHistory (bareRunner (richUntil names n m answer)) locals rest
          (afterRich names n before q) after ∧
      deviceHistory (bareRunner (richUntil names n m answer)) deviceId locals' (before ++ rest) q
          history' =
        deviceHistory (bareRunner (richUntil names n m answer)) deviceId locals' rest
          (afterRich names n before q) after' := by
  induction before generalizing q k history history' with
  | nil => exact ⟨history, history', habreast, rfl, rfl⟩
  | cons step before ih =>
    rw [List.length_cons] at hk
    obtain ⟨hsingle, hleads⟩ := hgood step List.mem_cons_self
    obtain ⟨attempts, hattempts, hone⟩ := hsingle.attempts
    have hstepNeutral := hneutral step List.mem_cons_self
    have hstepResolves := fun values hvalues => hresolves values hvalues step List.mem_cons_self
    obtain ⟨inputs, hinputs⟩ := stepInputs_rich hstepNeutral hstepResolves h hrich
    obtain ⟨inputs', hinputs'⟩ := stepInputs_rich hstepNeutral hstepResolves h' hrich
    have hsame := stepInputs_locals hstepNeutral q.outputs h h'
    rw [hinputs, hinputs'] at hsame
    obtain rfl := Option.some.inj hsame
    obtain ⟨hready, herase⟩ := readyStep_single hsingle hid hinputs' hattempts
    obtain ⟨answer', hrun, hok, -⟩ := run_single hone (bareRunner (richUntil names n m answer))
      (inputs.set "device_id" (.str deviceId)) q.result
      (history' ++ [.entered step.id q.outputs])
    have hcount (history : List BodyEvent) (hreached : history.countP BodyEvent.reaches = k) :
        (history ++ [BodyEvent.entered step.id q.outputs]).countP BodyEvent.reaches = k + 1 := by
      rw [List.countP_append, hreached]
      rfl
    have hrunner (history : List BodyEvent) (hreached : history.countP BodyEvent.reaches = k)
        (inputs : Dict String Value) : bareRunner (richUntil names n m answer)
          (history ++ [.entered step.id q.outputs]) step.actionId inputs =
            .ok (richOutputs names n) := by
      rw [bareRunner_richUntil, hcount history hreached]
      exact if_pos (by omega)
    have hvariable : (q.keep step (richOutputs names n)).recordVariable step =
        q.keep step (richOutputs names n) := by
      unfold Progress.recordVariable
      exact if_neg fun hset => hleads.variable_ hset.1
    have hnext : Abreast (k + 1)
        (history ++ [.entered step.id q.outputs] ++ [.called step.actionId inputs])
        (history' ++ [.entered step.id q.outputs] ++
          [.called step.actionId (inputs.set "device_id" (.str deviceId))]) := by
      constructor
      · simp only [List.map_append, List.map_cons, List.map_nil, habreast.same, BodyEvent.bare,
          herase]
      · rw [List.countP_append, hcount history habreast.reached]
        rfl
      · rw [List.countP_append, hcount history' habreast.reached']
        rfl
    obtain ⟨after, after', hafter, hplain, hdevice⟩ :=
      ih (fun s hs => hneutral s (List.mem_cons_of_mem _ hs))
        (fun s hs => hgood s (List.mem_cons_of_mem _ hs))
        (fun values hvalues s hs => hresolves values hvalues s (List.mem_cons_of_mem _ hs))
        (q.keep step (richOutputs names n)) (hrich.set (rich_richOutputs names n) step.id)
        (by omega) hnext
    refine ⟨after, after', ?_, ?_, ?_⟩
    · rw [List.length_cons, show k + (before.length + 1) = k + 1 + before.length by omega]
      exact hafter
    · rw [List.cons_append, plainHistory_cons, hinputs]
      dsimp only
      rw [hrunner history habreast.reached]
      exact hplain
    · rw [List.cons_append, deviceHistory_cons, hready]
      dsimp only
      rw [hrun, hok _ (hrunner history' habreast.reached' _)]
      dsimp only
      rw [hvariable]
      exact hdevice

/-- What a step that both loops reach, and whose inputs resolve, gets from `loop.for_each`: a call,
and then the next step if the call returns. -/
structure Compared (step : BodyStep) (after : List BodyStep) (q : Progress) (deviceId : String)
    (answer : Except PyError (Dict String Value)) (inputs : Dict String Value) : Prop where
  plain : stepInputs step q.outputs (itemLocals .none 0) = .ok inputs
  device : stepInputs step q.outputs (deviceLocals ∅ deviceId 0) = .ok inputs
  compared : ∃ runner history next,
    (∀ more actionId inputs,
      runner (history ++ [.entered step.id q.outputs] ++ more) actionId inputs = answer) ∧
    (∀ tail, deviceHistory runner deviceId (deviceLocals ∅ deviceId 0) (step :: after) q history =
        history ++ [.entered step.id q.outputs] ++ tail →
      tail.map BodyEvent.bare = (.called step.actionId inputs :: next).map BodyEvent.bare) ∧
    (∀ e, answer = .error e → next = []) ∧
    (∀ r, answer = .ok r → (∀ s rest, after = s :: rest →
      next.head? = some (.entered s.id (q.keep step r).outputs)) ∧ (after = [] → next = []))

/-- When the loops agree on a body, they do so at the step after steps that lead on. -/
theorem compared_of_agree {before after : List BodyStep} {step : BodyStep}
    (hagree : Agree (before ++ step :: after))
    (hneutral : ∀ s ∈ before ++ step :: after, Neutral s)
    (hgood : ∀ s ∈ before, s.Single ∧ s.Leads) :
    ∃ q : Progress, ∀ answer deviceId, deviceId ≠ "" → strip deviceId = deviceId →
      ∃ inputs, Compared step after q deviceId answer inputs := by
  obtain ⟨names, n, hresolves⟩ := exists_rich (before ++ step :: after)
  have hstart := rich_richOutputs names n
  refine ⟨afterRich names n before { outputs := richOutputs names n },
    fun answer deviceId hne hid => ?_⟩
  have hrich := rich_afterRich names n before { outputs := richOutputs names n } hstart
  have hitem := injects_itemLocals .none 0
  have hdevice := injects_deviceLocals ∅ deviceId 0
  have hnothing : Abreast 0 [] [] := ⟨rfl, rfl, rfl⟩
  obtain ⟨history, history', habreast, hplain, hdev⟩ := abreast_afterRich before.length answer
    hid hitem hdevice before (step :: after)
    (fun s hs => hneutral s (List.mem_append_left _ hs)) hgood
    (fun values hvalues s hs => hresolves values hvalues s (List.mem_append_left _ hs))
    { outputs := richOutputs names n } hstart (by omega) hnothing
  have hmem : step ∈ before ++ step :: after := List.mem_append_right _ List.mem_cons_self
  have hstepResolves := fun values hvalues => hresolves values hvalues step hmem
  generalize afterRich names n before { outputs := richOutputs names n } = q at *
  obtain ⟨inputs, hinputs⟩ := stepInputs_rich (hneutral step hmem) hstepResolves hitem hrich
  obtain ⟨inputs', hinputs'⟩ := stepInputs_rich (hneutral step hmem) hstepResolves hdevice hrich
  have hsame := stepInputs_locals (hneutral step hmem) q.outputs hitem hdevice
  rw [hinputs, hinputs'] at hsame
  obtain rfl := Option.some.inj hsame
  -- Both loops are past the steps with rich outputs.
  have hrunner {past : List BodyEvent} (hpast : past.countP BodyEvent.reaches = 0 + before.length)
      (more : List BodyEvent) (actionId : String) (inputs : Dict String Value) :
      bareRunner (richUntil names n before.length answer)
        (past ++ [.entered step.id q.outputs] ++ more) actionId inputs = answer := by
    rw [bareRunner_richUntil, List.countP_append, List.countP_append, hpast]
    refine if_neg ?_
    have hone : [BodyEvent.entered step.id q.outputs].countP BodyEvent.reaches = 1 := rfl
    omega
  have htraces := (hagree (richUntil names n before.length answer) (richOutputs names n) .none 0 ∅
    deviceId hne hid).1
  unfold traceOf forEachRunSteps deviceRunSteps at htraces
  rw [history_map, history_map] at htraces
  change (plainHistory _ _ (before ++ step :: after) _ []).map BodyEvent.bare =
    (deviceHistory _ _ _ (before ++ step :: after) _ []).map BodyEvent.bare at htraces
  rw [hplain, hdev, plainHistory_cons, hinputs] at htraces
  dsimp only at htraces
  have hcall := hrunner habreast.reached [] step.actionId inputs
  rw [List.append_nil] at hcall
  rw [hcall] at htraces
  -- What is left of the two histories once the common part is taken away.
  have hcancel {next tail : List BodyEvent}
      (heq : (history ++ [BodyEvent.entered step.id q.outputs] ++
          (BodyEvent.called step.actionId inputs :: next)).map BodyEvent.bare =
        (history' ++ [BodyEvent.entered step.id q.outputs] ++ tail).map BodyEvent.bare) :
      tail.map BodyEvent.bare = (.called step.actionId inputs :: next).map BodyEvent.bare := by
    rw [List.map_append, List.map_append, List.map_append, List.map_append, habreast.same] at heq
    exact (List.append_cancel_left heq).symm
  refine ⟨inputs, hinputs, hinputs', ?_⟩
  cases answer with
  | error e =>
    refine ⟨_, history', [], hrunner habreast.reached', fun tail htail => hcancel ?_, fun _ _ => rfl,
      fun r hr => by cases hr⟩
    rw [← htail]
    exact htraces
  | ok r =>
    obtain ⟨next, hnext, hhead, hnil⟩ := plainHistory_next
      (bareRunner (richUntil names n before.length (.ok r))) (itemLocals .none 0) after
      (q.keep step r) (history ++ [.entered step.id q.outputs] ++ [.called step.actionId inputs])
    dsimp only at htraces
    rw [hnext] at htraces
    refine ⟨_, history', next, hrunner habreast.reached', fun tail htail => hcancel ?_, (fun e he => by cases he),
      fun r' hr => ?_⟩
    · rw [← htail, ← htraces, List.append_assoc _ [_] next]
      rfl
    · obtain rfl := Except.ok.inj hr
      exact ⟨hhead, hnil⟩

variable {step : BodyStep} {after : List BodyStep} {q : Progress} {deviceId : String}
  {answer : Except PyError (Dict String Value)} {inputs : Dict String Value}

/-- `device.for_each` calls the child runner after the same history, and has computed what it needs
for that. -/
theorem Compared.ready (h : Compared step after q deviceId answer inputs) :
    ∃ deviceInputs_ attempts iterations,
      deviceInputs step deviceId inputs = .ok deviceInputs_ ∧
      step.attempts = .ok attempts ∧ step.iterations = .ok iterations ∧
      readyStep step deviceId q.outputs (deviceLocals ∅ deviceId 0) =
        .ok (deviceInputs_, attempts.toNat, iterations.toNat) := by
  obtain ⟨runner, history, next, -, hcompared, -⟩ := h.compared
  cases hready : readyStep step deviceId q.outputs (deviceLocals ∅ deviceId 0) with
  | error e =>
    have htail := hcompared [] (by rw [deviceHistory_cons, hready, List.append_nil])
    cases htail
  | ok ready =>
    unfold readyStep at hready
    rw [h.device, ok_bind, Except.bind_eq_ok] at hready
    obtain ⟨deviceInputs_, hinputs, hready⟩ := hready
    rw [Except.bind_eq_ok] at hready
    obtain ⟨attempts, hattempts, hready⟩ := hready
    rw [Except.bind_eq_ok] at hready
    obtain ⟨iterations, hiterations, hready⟩ := hready
    obtain rfl := Except.ok.inj hready
    exact ⟨deviceInputs_, attempts, iterations, hinputs, hattempts, hiterations, rfl⟩

omit [PyLib] in
/-- A step that names its device goes with that device only. -/
theorem deviceIdValue_of_deviceInputs {result : Dict String Value}
    (h : deviceInputs step deviceId inputs = .ok result) (hdevice : "device_id" ∈ inputs.keys) :
    deviceIdValue (entry inputs "device_id") = .ok deviceId := by
  have hdefault : inputs.setDefault "device_id" (.str deviceId) = inputs := by
    unfold Dict.setDefault
    rw [if_pos ((Dict.contains_iff_mem_keys _ _).mpr hdevice)]
  unfold deviceInputs at h
  dsimp only at h
  rw [hdefault, Except.bind_eq_ok] at h
  obtain ⟨target, htarget, h⟩ := h
  by_cases hne : target = deviceId
  · rw [htarget, hne]
  · rw [if_pos hne] at h
    cases h

/-- A step that both loops do the same with, on any device, names none. -/
theorem device_of_compared
    (h : ∀ answer deviceId, deviceId ≠ "" → strip deviceId = deviceId →
      ∃ inputs, Compared step after q deviceId answer inputs) :
    "device_id" ∉ step.actionInputs.keys := by
  intro hmem
  obtain ⟨inputs, ha⟩ := h (.ok ∅) "a" (by decide) (by decide)
  obtain ⟨inputs', hb⟩ := h (.ok ∅) "b" (by decide) (by decide)
  obtain rfl : inputs = inputs' := Except.ok.inj (ha.plain.symm.trans hb.plain)
  have hkeys : "device_id" ∈ inputs.keys := (mem_keys_resolveInputs ha.plain _).mpr hmem
  obtain ⟨r, -, -, hr, -⟩ := ha.ready
  obtain ⟨r', -, -, hr', -⟩ := hb.ready
  have heq := (deviceIdValue_of_deviceInputs hr hkeys).symm.trans
    (deviceIdValue_of_deviceInputs hr' hkeys)
  exact absurd (Except.ok.inj heq) (by decide)

/-- No attempt or no iteration makes no call. -/
theorem run_iterateCalls_none (runner : ChildRunner) (step : BodyStep)
    (inputs result : Dict String Value) {attempts left : ℕ} (hnone : attempts = 0 ∨ left = 0)
    (history : List BodyEvent) :
    (iterateCalls runner step inputs attempts left result).run history =
      (.ok result, history) := by
  induction left with
  | zero => rfl
  | succ left ih =>
    obtain rfl := hnone.resolve_right (Nat.succ_ne_zero left)
    rw [iterateCalls, run_bind]
    exact ih (.inl rfl)

/-- A call that returns ends the attempts of an iteration. -/
theorem run_iterateCalls_ok {runner : ChildRunner} {step : BodyStep}
    {inputs result r : Dict String Value} {attempts left : ℕ} {history : List BodyEvent}
    (hanswer : runner history step.actionId inputs = .ok r) :
    (iterateCalls runner step inputs (attempts + 1) (left + 1) result).run history =
      (iterateCalls runner step inputs (attempts + 1) left r).run
        (history ++ [.called step.actionId inputs]) := by
  rw [iterateCalls, run_bind, run_attemptCalls, hanswer]

/-- An attempt is a call. -/
theorem attemptCalls_called (runner : ChildRunner) (step : BodyStep)
    (inputs : Dict String Value) (left : ℕ) (result : Dict String Value)
    (history : List BodyEvent) :
    ∃ tail, ((attemptCalls runner step inputs (left + 1) result).run history).2 =
      history ++ [.called step.actionId inputs] ++ tail := by
  rw [run_attemptCalls]
  cases runner history step.actionId inputs with
  | ok r => exact ⟨[], (List.append_nil _).symm⟩
  | error e =>
    dsimp only
    by_cases hleft : left ≠ 0
    · rw [if_pos hleft]
      cases step.backoff with
      | error e' => exact ⟨[], (List.append_nil _).symm⟩
      | ok seconds => exact attemptCalls_grows runner step inputs left result _
    · rw [if_neg hleft]
      split
      · exact ⟨[], (List.append_nil _).symm⟩
      · exact ⟨[], (List.append_nil _).symm⟩

/-- The history of `device.for_each` after its calls for a step. -/
theorem deviceHistory_calls (after : List BodyStep) {attempts iterations : ℕ}
    (hready : readyStep step deviceId q.outputs (deviceLocals ∅ deviceId 0) =
      .ok (inputs, attempts, iterations)) (runner : ChildRunner) (history : List BodyEvent)
    {calls : List BodyEvent}
    (hcalls : ((iterateCalls runner step inputs attempts iterations q.result).run
      (history ++ [.entered step.id q.outputs])).2 =
        history ++ [.entered step.id q.outputs] ++ calls) :
    ∃ more, deviceHistory runner deviceId (deviceLocals ∅ deviceId 0) (step :: after) q history =
      history ++ [.entered step.id q.outputs] ++ (calls ++ more) := by
  rw [deviceHistory_cons, hready]
  dsimp only
  generalize (iterateCalls runner step inputs attempts iterations q.result).run _ = ran at hcalls
  obtain ⟨ran, past⟩ := ran
  dsimp only at hcalls
  rw [hcalls]
  cases ran with
  | error e => exact ⟨[], by rw [List.append_nil]⟩
  | ok result =>
    obtain ⟨more, hmore, -⟩ := deviceHistory_next runner deviceId (deviceLocals ∅ deviceId 0) after
      ((q.keep step result).recordVariable step) (history ++ [.entered step.id q.outputs] ++ calls)
    exact ⟨more, by rw [← List.append_assoc _ calls more]; exact hmore⟩

/-- The first thing that happens at a step that both loops do the same with is a call. -/
theorem Compared.calls (h : Compared step after q deviceId answer inputs) {attempts iterations : ℕ}
    {deviceInputs_ : Dict String Value}
    (hready : readyStep step deviceId q.outputs (deviceLocals ∅ deviceId 0) =
      .ok (deviceInputs_, attempts, iterations)) : attempts ≠ 0 ∧ iterations ≠ 0 := by
  obtain ⟨runner, history, next, -, htails, -⟩ := h.compared
  by_contra hnot
  have hnone : attempts = 0 ∨ iterations = 0 := by tauto
  have hrun := run_iterateCalls_none runner step deviceInputs_ q.result hnone
    (history ++ [.entered step.id q.outputs])
  obtain ⟨tail, htail, hentered, hempty⟩ := deviceHistory_next runner deviceId
    (deviceLocals ∅ deviceId 0) after ((q.keep step q.result).recordVariable step)
    (history ++ [.entered step.id q.outputs])
  have hsame := htails tail (by
    rw [deviceHistory_cons, hready]
    dsimp only
    rw [hrun]
    exact htail)
  cases after with
  | nil =>
    rw [hempty rfl] at hsame
    cases hsame
  | cons s rest =>
    have hfirst := congrArg List.head? hsame
    rw [List.head?_map, hentered s rest rfl] at hfirst
    cases hfirst

/-- After a call that returns comes the next step, so there is one iteration. -/
theorem Compared.one_iteration {r : Dict String Value}
    (h : Compared step after q deviceId (.ok r) inputs) {attempts iterations : ℕ}
    {deviceInputs_ : Dict String Value}
    (hready : readyStep step deviceId q.outputs (deviceLocals ∅ deviceId 0) =
      .ok (deviceInputs_, attempts, iterations)) : iterations = 1 := by
  obtain ⟨hattempts, hiterations⟩ := h.calls hready
  obtain ⟨runner, history, next, hrunner, htails, -, hnext⟩ := h.compared
  obtain ⟨hhead, hnil⟩ := hnext r rfl
  by_contra hmore
  obtain ⟨a, rfl⟩ := Nat.exists_eq_succ_of_ne_zero hattempts
  obtain ⟨k, rfl⟩ : ∃ k, iterations = k + 2 := ⟨iterations - 2, by omega⟩
  have hfirst := hrunner [] step.actionId deviceInputs_
  rw [List.append_nil] at hfirst
  have hsecond := hrunner [.called step.actionId deviceInputs_] step.actionId deviceInputs_
  obtain ⟨rest, hrest⟩ := iterateCalls_grows runner step deviceInputs_ (a + 1) k r
    (history ++ [.entered step.id q.outputs] ++ [.called step.actionId deviceInputs_] ++
      [.called step.actionId deviceInputs_])
  have hcalls : ((iterateCalls runner step deviceInputs_ (a + 1) (k + 2) q.result).run
      (history ++ [.entered step.id q.outputs])).2 = history ++ [.entered step.id q.outputs] ++
        (.called step.actionId deviceInputs_ :: .called step.actionId deviceInputs_ :: rest) := by
    rw [run_iterateCalls_ok hfirst, run_iterateCalls_ok hsecond, hrest]
    simp only [List.append_assoc, List.cons_append, List.nil_append]
  obtain ⟨more, htail⟩ := deviceHistory_calls after hready runner history hcalls
  have hsame := htails _ htail
  cases after with
  | nil =>
    rw [hnil rfl] at hsame
    have hlength := congrArg List.length hsame
    simp at hlength
  | cons s rest =>
    have hthird := congrArg (fun l => l.tail.head?) hsame
    simp only [List.map_cons, List.tail_cons, List.cons_append, List.head?_cons, List.head?_map,
      hhead s rest rfl, BodyEvent.bare, Option.map_some] at hthird
    cases hthird

/-- After a call that raises comes nothing, so there is no pause before a further attempt that does
not raise itself. -/
theorem Compared.one_attempt {e : PyError} (h : Compared step after q deviceId (.error e) inputs)
    {attempts : ℕ} {deviceInputs_ : Dict String Value}
    (hready : readyStep step deviceId q.outputs (deviceLocals ∅ deviceId 0) =
      .ok (deviceInputs_, attempts, 1)) (hmore : 1 < attempts) : ∃ e', step.backoff = .error e' := by
  obtain ⟨runner, history, next, hrunner, htails, hnext, -⟩ := h.compared
  cases hbackoff : step.backoff with
  | error e' => exact ⟨e', rfl⟩
  | ok seconds =>
    exfalso
    obtain ⟨a, rfl⟩ : ∃ a, attempts = a + 2 := ⟨attempts - 2, by omega⟩
    have hfirst := hrunner [] step.actionId deviceInputs_
    rw [List.append_nil] at hfirst
    obtain ⟨rest, hrest⟩ := attemptCalls_called runner step deviceInputs_ a q.result
      (history ++ [.entered step.id q.outputs] ++ [.called step.actionId deviceInputs_])
    have hcalls : ((iterateCalls runner step deviceInputs_ (a + 2) 1 q.result).run
        (history ++ [.entered step.id q.outputs])).2 = history ++ [.entered step.id q.outputs] ++
          (.called step.actionId deviceInputs_ :: .called step.actionId deviceInputs_ :: rest) := by
      rw [run_iterateCalls_one, run_attemptCalls, hfirst]
      dsimp only
      rw [if_pos (Nat.succ_ne_zero a), hbackoff]
      refine hrest.trans ?_
      simp only [List.append_assoc, List.cons_append, List.nil_append]
    obtain ⟨more, htail⟩ := deviceHistory_calls after hready runner history hcalls
    have hsame := htails _ htail
    rw [hnext e rfl] at hsame
    have hlength := congrArg List.length hsame
    simp at hlength

/-- A step that both loops do the same with makes one call. -/
theorem single_of_compared
    (h : ∀ answer deviceId, deviceId ≠ "" → strip deviceId = deviceId →
      ∃ inputs, Compared step after q deviceId answer inputs) : step.Single := by
  obtain ⟨inputs, hreturns⟩ := h (.ok ∅) "a" (by decide) (by decide)
  obtain ⟨inputs', hraises⟩ := h (.error .stopIteration) "a" (by decide) (by decide)
  obtain ⟨deviceInputs_, attempts, iterations, -, hattempts, hiterations, hready⟩ := hreturns.ready
  have hcalls := hreturns.calls hready
  have hone := hreturns.one_iteration hready
  refine ⟨?_, ⟨attempts, hattempts, ?_⟩, device_of_compared h⟩
  · have hint : iterations = 1 := by omega
    rw [hiterations, hint]
  · by_cases hatt : attempts = 1
    · exact .inl hatt
    · rw [hone] at hready
      exact .inr ⟨by omega, hraises.one_attempt hready (by omega)⟩

/-- A step that both loops do the same with, and that is not the last one, leads on. -/
theorem leads_of_compared {next : BodyStep} {rest : List BodyStep}
    (h : ∀ answer deviceId, deviceId ≠ "" → strip deviceId = deviceId →
      ∃ inputs, Compared step (next :: rest) q deviceId answer inputs) : step.Leads := by
  have hsingle := single_of_compared h
  obtain ⟨attempts, hattempts, hone⟩ := hsingle.attempts
  have hname : strip "a" = "a" := by decide
  have hready {answer : Except PyError (Dict String Value)} {inputs : Dict String Value}
      (hc : Compared step (next :: rest) q "a" answer inputs) :=
    (readyStep_single hsingle hname hc.device hattempts).1
  constructor
  · -- A variable under a new name is seen by the next step of one loop only.
    intro hset
    obtain ⟨fresh, hfresh⟩ : ∃ fresh : String, fresh ∉ "" :: step.id :: q.outputs.keys := by
      obtain ⟨fresh, hfresh⟩ :=
        Infinite.exists_notMem_finset ("" :: step.id :: q.outputs.keys).toFinset
      exact ⟨fresh, fun hmem => hfresh (List.mem_toFinset.mpr hmem)⟩
    simp only [List.mem_cons, not_or] at hfresh
    have hr : entry (⟨[("name", .str fresh)]⟩ : Dict String Value) "name" = .str fresh := rfl
    obtain ⟨inputs, hc⟩ := h (.ok ⟨[("name", .str fresh)]⟩) "a" (by decide) (by decide)
    obtain ⟨runner, history, past, hrunner, htails, -, hnext⟩ := hc.compared
    obtain ⟨ran, hrun, hok, -⟩ := run_single hone runner (inputs.set "device_id" (.str "a"))
      q.result (history ++ [.entered step.id q.outputs])
    have hanswer := hrunner [] step.actionId (inputs.set "device_id" (.str "a"))
    rw [List.append_nil] at hanswer
    rw [hok _ hanswer] at hrun
    obtain ⟨tail, htail, hentered, -⟩ := deviceHistory_next runner "a" (deviceLocals ∅ "a" 0)
      (next :: rest) ((q.keep step ⟨[("name", .str fresh)]⟩).recordVariable step)
      (history ++ [.entered step.id q.outputs] ++
        [.called step.actionId (inputs.set "device_id" (.str "a"))])
    have hsame := htails (.called step.actionId (inputs.set "device_id" (.str "a")) :: tail) (by
      rw [deviceHistory_cons, hready hc]
      dsimp only
      rw [hrun]
      dsimp only
      rw [htail, List.append_assoc _ [_] tail]
      rfl)
    have hsecond := congrArg (fun l => l.tail.head?) hsame
    simp only [List.map_cons, List.tail_cons, List.head?_map, hentered next rest rfl,
      (hnext _ rfl).1 next rest rfl, BodyEvent.bare, Option.map_some, Option.some_inj,
      BodyEvent.entered.injEq, true_and] at hsecond
    have hget := congrArg (fun d => Dict.get? d fresh) hsecond
    have hrecorded : (q.keep step ⟨[("name", .str fresh)]⟩).recordVariable step =
        { q.keep step ⟨[("name", .str fresh)]⟩ with
          outputs := (q.keep step ⟨[("name", .str fresh)]⟩).outputs.set fresh .none } := by
      unfold Progress.recordVariable
      have htruthy : (Value.str fresh).truthy = true := by
        show (fresh != "") = true
        exact bne_iff_ne.mpr hfresh.1
      exact if_pos ⟨hset, htruthy⟩
    rw [hrecorded] at hget
    dsimp only [Progress.keep] at hget
    rw [Dict.get?_set_self, Dict.get?_set_of_ne _ hfresh.2.1,
      (Dict.get?_eq_none_iff _ _).mpr hfresh.2.2] at hget
    cases hget
  · -- A failure after which one loop goes on ends the other.
    intro hatt
    by_contra hcontinues
    obtain ⟨inputs, hc⟩ := h (.error .stopIteration) "a" (by decide) (by decide)
    obtain ⟨runner, history, past, hrunner, htails, hlast, -⟩ := hc.compared
    have hanswer := hrunner [] step.actionId (inputs.set "device_id" (.str "a"))
    rw [List.append_nil] at hanswer
    obtain rfl : attempts = 1 := Except.ok.inj (hattempts.symm.trans hatt)
    obtain ⟨result, hrun⟩ : ∃ result, (iterateCalls runner step (inputs.set "device_id" (.str "a"))
        (1 : ℤ).toNat 1 q.result).run (history ++ [.entered step.id q.outputs]) =
          (.ok result, history ++ [.entered step.id q.outputs] ++
            [.called step.actionId (inputs.set "device_id" (.str "a"))]) := by
      rw [show (1 : ℤ).toNat = 0 + 1 from rfl, run_iterateCalls_one, run_attemptCalls, hanswer]
      dsimp only
      rw [if_neg (fun hne => hne rfl), if_pos (by simpa using hcontinues)]
      exact ⟨_, rfl⟩
    obtain ⟨tail, htail, hentered, -⟩ := deviceHistory_next runner "a" (deviceLocals ∅ "a" 0)
      (next :: rest) ((q.keep step result).recordVariable step)
      (history ++ [.entered step.id q.outputs] ++
        [.called step.actionId (inputs.set "device_id" (.str "a"))])
    have hsame := htails (.called step.actionId (inputs.set "device_id" (.str "a")) :: tail) (by
      rw [deviceHistory_cons, hready hc]
      dsimp only
      rw [hrun]
      dsimp only
      rw [htail, List.append_assoc _ [_] tail]
      rfl)
    rw [hlast _ rfl] at hsame
    have hnil : tail = [] := by
      have hlength := congrArg List.length hsame
      simpa using hlength
    have hhead := hentered next rest rfl
    rw [hnil] at hhead
    cases hhead

/-- The loops do the same with no other body. -/
theorem uniform_of_agree {body : List BodyStep} (hneutral : ∀ step ∈ body, Neutral step)
    (h : Agree body) : Uniform body := by
  -- The steps before some step are as they should be, by induction on how many they are.
  have hbefore : ∀ n, ∀ before after, before.length = n → body = before ++ after → after ≠ [] →
      ∀ s ∈ before, s.Single ∧ s.Leads := by
    intro n
    induction n with
    | zero =>
      intro before after hlength _ _ s hs
      rw [List.length_eq_zero_iff.mp hlength] at hs
      cases hs
    | succ n ih =>
      intro before after hlength hbody hafter s hs
      obtain ⟨first, last, rfl⟩ : ∃ first last, before = first ++ [last] := by
        rcases List.eq_nil_or_concat before with rfl | ⟨first, last, rfl⟩
        · cases hlength
        · exact ⟨first, last, List.concat_eq_append⟩
      rw [List.append_assoc, List.singleton_append] at hbody
      have hfirst := ih first (last :: after) (by simpa using hlength) hbody (by simp)
      rcases List.mem_append.mp hs with hs | hs
      · exact hfirst s hs
      · rw [List.mem_singleton] at hs
        subst hs
        rw [hbody] at h hneutral
        obtain ⟨q, hcompared⟩ := compared_of_agree h hneutral hfirst
        obtain ⟨next, rest, rfl⟩ := List.exists_cons_of_ne_nil hafter
        exact ⟨single_of_compared hcompared, leads_of_compared hcompared⟩
  constructor
  · intro step hstep
    obtain ⟨before, after, hbody⟩ := List.append_of_mem hstep
    have hgood := hbefore _ before (step :: after) rfl hbody (by simp)
    rw [hbody] at h hneutral
    obtain ⟨q, hcompared⟩ := compared_of_agree h hneutral hgood
    exact single_of_compared hcompared
  · intro step hstep
    rcases List.eq_nil_or_concat body with rfl | ⟨first, last, rfl⟩
    · cases hstep
    · rw [List.concat_eq_append, List.dropLast_concat] at hstep
      exact (hbefore _ first [last] rfl List.concat_eq_append (by simp) step hstep).2

/-- The three loops do the same with exactly the uniform bodies. -/
theorem agree_iff (body : List BodyStep) (hneutral : ∀ step ∈ body, Neutral step) :
    Agree body ↔ Uniform body :=
  ⟨uniform_of_agree hneutral, agree_of_uniform hneutral⟩

end

/-- A version is probed and checked. -/
def probeBody : List BodyStep :=
  [{ id := "probe", actionId := "command.query", actionInputs := ⟨[("port", .int 22)]⟩ },
    { id := "check", actionId := "command.check",
      actionInputs := ⟨[("version", .str "$\x7bprobe.version\x7d")]⟩ }]

theorem probeBody_neutral : ∀ step ∈ probeBody, @Neutral .atEpoch step := by
  intro step hstep
  rcases List.mem_pair.mp hstep with rfl | rfl
  · intro values values' hvalues
    rfl
  · have hsegments : segments "probe.version" = ["probe", "version"] := by decide +kernel
    exact @neutral_of_reference .atEpoch _ _ _ "probe.version" _ _ rfl (by decide)
      (by decide +kernel) hsegments (by decide)

theorem probeBody_agree : @Agree .atEpoch probeBody := by
  refine (@agree_iff .atEpoch probeBody probeBody_neutral).mpr ⟨?_, ?_⟩
  · intro step hstep
    rcases List.mem_pair.mp hstep with rfl | rfl
    · exact @BodyStep.Single.mk .atEpoch _ rfl ⟨1, rfl, .inl rfl⟩ (by decide)
    · exact @BodyStep.Single.mk .atEpoch _ rfl ⟨1, rfl, .inl rfl⟩ (by decide)
  · intro step hstep
    obtain rfl := List.mem_singleton.mp hstep
    exact @BodyStep.Leads.mk .atEpoch _ (by decide) fun _ => by decide

/-- A probe that may be attempted twice. -/
def retriedBody : List BodyStep :=
  [{ id := "probe", actionId := "command.query", retryPolicy := ⟨[("max_attempts", .int 2)]⟩ }]

/-- A variable that is set before a query. -/
def variableBody : List BodyStep :=
  [{ id := "name", actionId := "variable.set",
      actionInputs := ⟨[("name", .str "version"), ("value", .int 7)]⟩ },
    { id := "use", actionId := "command.query" }]

/-- How many outputs a step sees that is reached. -/
def BodyEvent.seen : BodyEvent → ℕ
  | entered _ outputs => outputs.keys.length
  | called _ _ => 0

/-- Only `device.for_each` attempts a step twice, and only there a step sees the variable that the
one before it has set. -/
theorem not_agree : ¬@Agree .atEpoch retriedBody ∧ ¬@Agree .atEpoch variableBody := by
  constructor
  · intro h
    have hlength := congrArg List.length
      (h (fun _ _ _ => .error .stopIteration) ∅ .none 0 ∅ "a" (by decide) (by decide)).1
    revert hlength
    decide +kernel
  · intro h
    have hseen := congrArg (List.map BodyEvent.seen)
      (h (fun _ _ inputs => .ok inputs) ∅ .none 0 ∅ "a" (by decide) (by decide)).1
    revert hseen
    decide +kernel

end DeviceShell.Activity.LoopBody
