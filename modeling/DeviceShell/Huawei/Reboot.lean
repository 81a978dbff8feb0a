import DeviceShell.Huawei.DeviceLog

/-!
# A reboot and its reconciliation

The reboot of an upgrade runs through the Activity path, whose facts name what was sent with the flat
keys of the device control. `HuaweiVrpReconcileProvider` reads the nested facts of another path
(`reconcileReboot`), which the Activity path never writes (`rebootResult_noSignals`): whatever an
attempt sent, the provider answers that the reboot was not started (`reconcileReboot_notStarted`).
So the promise that a reboot is not repeated unobserved holds of a history exactly when the provider
is never asked about a reboot that an attempt has sent (`rebootObserved_iff`); a process that dies
after the command breaks it (`not_rebootObserved`).
-/

namespace DeviceShell.Huawei

open Framework Activity

variable [PyLib]

/-! ## What the Activity path records of a reboot -/

/-- The result of the action `device.reboot`, on what the device control does. -/
def rebootResult (precondition : Option (Dict String Value)) (target : ActivityTarget)
    (response : Except DeviceException CommandResult) : ActionResult :=
  actionResult (executeActivity precondition (deviceActivity "device.reboot" target
    (response.bind fun result => executeReboot (controlReboot result))))

/-- The device control itself has no facts under the key `reboot`. -/
def NoSignals : Except DeviceException CommandResult → Prop
  | .ok result => result.data.get? "reboot" = none
  | .error (.workflow e) => e.details.get? "reboot" = none
  | .error (.other _) => True

omit [PyLib] in
theorem setDefault_signals (d : Dict String Value) {key : String} (hkey : "reboot" ≠ key)
    (value : Value) : (setDefault d key value).get? "reboot" = d.get? "reboot" := by
  unfold setDefault
  split
  · rfl
  · exact Dict.get?_set_of_ne _ hkey _

theorem normalizeOutputs_signals (outputs : Dict String Value) (operation : String)
    (target : ActivityTarget) (status : String) (error : Option (Dict String Value)) :
    (normalizeOutputs outputs operation target status error).get? "reboot" =
      outputs.get? "reboot" := by
  unfold normalizeOutputs normalizeCommandOutput
  simp [setDefault_signals, Dict.get?_set]

theorem executeReboot_signals {result : CommandResult} {data : Dict String Value}
    (hresult : result.data.get? "reboot" = none)
    (h : executeReboot (controlReboot result) = .ok data) : data.get? "reboot" = none := by
  have hcontrol : (controlReboot result).data.get? "reboot" = none := by
    simp [controlReboot, Dict.get?_set, hresult]
  unfold executeReboot at h
  split at h
  · obtain rfl := Except.ok.inj h
    simp [Dict.get?_set, hcontrol]
  · rw [Except.bind_eq_ok] at h
    obtain ⟨-, -, h⟩ := h
    obtain rfl := Except.ok.inj h
    exact hcontrol

/-- An error of the execution has no details of its own. -/
theorem executeReboot_error {result : CommandResult} {e : ExecutionError}
    (h : executeReboot (controlReboot result) = .error (.workflow e)) :
    e.details.get? "reboot" = none := by
  unfold executeReboot raiseForFailedResult at h
  dsimp only at h
  split at h
  · cases h
  · split at h
    · cases h
    · cases h
      rfl

theorem deviceActivity_noSignals (target : ActivityTarget)
    {response : Except DeviceException (Dict String Value)}
    (hdata : ∀ data, response = .ok data → data.get? "reboot" = none)
    (herror : ∀ e, response = .error (.workflow e) → e.details.get? "reboot" = none) :
    (deviceActivity "device.reboot" target response).outputs.get? "reboot" = none := by
  cases response with
  | error e =>
    cases e with
    | workflow e => exact (normalizeOutputs_signals _ _ _ _ _).trans (herror e rfl)
    | other message => exact normalizeOutputs_signals _ _ _ _ _
  | ok data =>
    have hnone := hdata data rfl
    unfold deviceActivity
    dsimp only
    split
    · simp [Dict.get?_set, normalizeOutputs_signals, hnone]
    · simp [Dict.get?_set, normalizeOutputs_signals, hnone]

/-- Whatever the device control does, the facts of a reboot have no nested signals. -/
theorem rebootResult_noSignals (precondition : Option (Dict String Value))
    (target : ActivityTarget) {response : Except DeviceException CommandResult}
    (h : NoSignals response) :
    (rebootResult precondition target response).facts.get? "reboot" = none := by
  have hhandled : (deviceActivity "device.reboot" target
      (response.bind fun result => executeReboot (controlReboot result))).outputs.get? "reboot" =
        none := by
    apply deviceActivity_noSignals
    · intro data hdata
      cases response with
      | error e => cases hdata
      | ok result => exact executeReboot_signals h hdata
    · intro e he
      cases response with
      | error e' =>
        cases he
        exact h
      | ok result => exact executeReboot_error he
  have hresult : (executeActivity precondition (deviceActivity "device.reboot" target
      (response.bind fun result => executeReboot (controlReboot result)))).outputs.get? "reboot" =
        none := by
    unfold executeActivity
    split
    · rfl
    · exact hhandled
  unfold rebootResult actionResult
  dsimp only
  split <;> split <;> split <;> simp [Dict.get?_set, setDefault_signals, hresult]

/-! ## What the provider answers -/

/-- The facts of the run name no signals of a reboot. -/
def Flat (run : WorkflowRun) : Prop := (actionFacts run "reboot").get? "reboot" = none

omit [PyLib] in
theorem flat_iff {run : WorkflowRun} : Flat run ↔
    (((run.context.get? (factsKey "reboot")).bind Value.asDict?).getD ∅).get? "reboot" = none :=
  Iff.rfl

omit [PyLib] in
/-- Without the nested facts the reboot is classified as not started, whatever was sent. -/
theorem reconcileReboot_notStarted {run : WorkflowRun} (h : Flat run)
    (evidence : List (Dict String Value)) :
    (reconcileReboot "reboot" run evidence).classification =
      ReconcileClassification.notStarted.value := by
  unfold reconcileReboot
  rw [h]
  rfl

/-! ## The promise -/

/-- The definition of an upgrade. -/
def IsUpgrade (d : WorkflowDefinition) : Prop := ∃ inputs, packageUpgrade inputs = .ok d

/-- The call is about the reboot of an upgrade. -/
def isReboot (c : Call) : Bool :=
  c.run.definitionKey == upgradeKey && c.action.operation == "device.reboot"

/-- No attempt of the action has sent its command. -/
def unsent (runId actionId : String) (log : List DeviceRecord) : Bool :=
  log.all fun record =>
    match record with
    | .sent run action _ => !(run == runId && action == actionId)
    | _ => true

/-- An attempt of the action has sent its command since the last decision of the run. -/
def sentSinceDecision (runId actionId : String) (log : List DeviceRecord) : Bool :=
  log.foldl (fun pending record =>
    match record with
    | .sent run action _ => pending || (run == runId && action == actionId)
    | .decided run => pending && !(run == runId)
    | _ => pending) false

omit [PyLib] in
theorem sentSinceDecision_of_unsent {runId actionId : String} {log : List DeviceRecord}
    (h : unsent runId actionId log = true) : sentSinceDecision runId actionId log = false := by
  unfold sentSinceDecision
  induction log with
  | nil => rfl
  | cons record log ih =>
    simp only [unsent, List.all_cons, Bool.and_eq_true] at h
    rw [List.foldl_cons]
    have hrest := ih h.2
    cases record with
    | sent run action attempt =>
      have hother : (run == runId && action == actionId) = false :=
        Bool.not_eq_true' _ |>.mp h.1
      simpa [hother] using hrest
    | read run output => exact hrest
    | moved run source target => exact hrest
    | decided run => simpa using hrest

section Machine

variable {ρ : Type} (coordinator : Option (ResourceCoordinator ρ)) (cfg : RuntimeConfig)

/-- What a history promises of its reboots, at every answer of a provider about one. -/
structure RebootObserved (resources : ρ) (inputs : List DeviceInput) : Prop where
  /-- The reboot is classified as not started only if no attempt sent the command. -/
  classified : ∀ before i after, inputs = before ++ i :: after → ∀ now call outcome c,
    i.input = (now, .reconciled call outcome) →
    (deviceReached coordinator cfg resources before).runtime.calls.get? call = some c →
    isReboot c = true → outcome.classification = ReconcileClassification.notStarted.value →
      unsent c.run.id c.action.id
        ((deviceReached coordinator cfg resources before).log ++ i.records) = true
  /-- The run is let into the reboot again, by a recovery or by the directive of the action, only if
  no attempt sent the command since the last decision. -/
  restarted : ∀ before i after, inputs = before ++ i :: after → ∀ now call outcome c r,
    i.input = (now, .reconciled call outcome) →
    (deviceReached coordinator cfg resources before).runtime.calls.get? call = some c →
    isReboot c = true →
    (deviceReached coordinator cfg resources (before ++ [i])).runtime.runs.get? c.run.id = some r →
    r.status = .running → r.currentState = c.state.id →
      sentSinceDecision c.run.id c.action.id
        ((deviceReached coordinator cfg resources before).log ++ i.records) = false

omit [PyLib] in
/-- The provider is asked about a reboot only if no attempt of it sent the command. -/
def AskedUnsent (st : DeviceState ρ) (i : DeviceInput) : Prop :=
  match i.input.2 with
  | .reconciled call _ => ∀ c, st.runtime.calls.get? call = some c → isReboot c = true →
      unsent c.run.id c.action.id (st.log ++ i.records) = true
  | _ => True

/-- The inputs of upgrades whose reboots run through the Activity path: definitions under the
upgrade's key are those that `build` returns, nobody hands in facts of a reboot, and the Huawei
provider answers for it. -/
def ActivityInput (st : RuntimeState ρ) : RuntimeInput → Prop
  | .start definition _ context runId =>
      (definition.key = upgradeKey → IsUpgrade definition) ∧
      (∀ id, runId = some id → id = "" ∨ id ∉ st.runs.keys) ∧
      context.get? (factsKey "reboot") = none
  | .registerDefinition definition => definition.key = upgradeKey → IsUpgrade definition
  | .resume _ context => factsKey "reboot" ∉ context.keys
  | .finish call (.result result) => ∀ c, st.calls.get? call = some c → isReboot c = true →
      ∃ precondition target response, NoSignals response ∧
        result = rebootResult precondition target response
  | .reconciled call outcome => ∀ c, st.calls.get? call = some c → isReboot c = true →
      ∃ package reason ports, huaweiReconcile c.action.reconcile.provider c.action package c.run
        reason ports = some outcome
  | _ => True

/-- The same, with what the devices did: a command is sent by an attempt whose handler runs. -/
def ThroughActivity (st : DeviceState ρ) (i : DeviceInput) : Prop :=
  (∀ record ∈ i.records, possible st.runtime record = true) ∧ ActivityInput st.runtime i.input.2

/-! ## The invariant -/

/-- A run of the upgrade has flat facts. -/
def rebootCharter : Charter where
  kind key d := key = upgradeKey → IsUpgrade d
  facts run := run.definitionKey = upgradeKey → Flat run
  facts_congr hkey hfacts h hr := by
    have hflat := h (hkey ▸ hr)
    rw [flat_iff] at hflat ⊢
    rw [hfacts "reboot"]
    exact hflat

/-- The action of a state of an upgrade that is called a reboot, or performs one, is the one of the
state `reboot`. -/
theorem reboot_state {state : StateNode} {action : ActionSpec}
    (h : StateOf (rebootCharter.kind upgradeKey) state) (haction : state.action = some action)
    (hreboot : action.id = "reboot" ∨ action.operation = "device.reboot") :
    state = rebootState := by
  obtain ⟨d, hd, hmem⟩ := h
  obtain ⟨inputs, hbuild⟩ := hd rfl
  obtain ⟨u, -, rfl⟩ := upgrade_of_packageUpgrade hbuild
  have hstates := mem_upgradeStates hmem
  simp only [List.mem_cons, List.not_mem_nil, or_false] at hstates
  rcases hstates with rfl | rfl | rfl | rfl | rfl | rfl | rfl | rfl | rfl | rfl | rfl | rfl | rfl
  case inr.inr.inr.inr.inr.inr.inr.inl => rfl
  all_goals
    first
      | cases haction; done
      | obtain rfl := Option.some.inj haction
        simp at hreboot

omit [PyLib] in
/-- The facts of another action change nothing, and those of a reboot are flat. -/
theorem flat_withActionFacts {run : WorkflowRun} (hrun : Flat run) {actionId : String}
    {facts : Dict String Value} (h : actionId = "reboot" → facts.get? "reboot" = none) :
    Flat (Runtime.withActionFacts run actionId facts) := by
  unfold Runtime.withActionFacts
  split
  · exact hrun
  · rw [flat_iff] at hrun ⊢
    dsimp only
    change (((run.context.set (factsKey actionId) (.ofDict facts)).get?
      (factsKey "reboot")).bind Value.asDict? |>.getD ∅).get? "reboot" = none
    rw [Dict.get?_set]
    split
    · rename_i hkey
      exact h (factsKey_injective hkey).symm
    · exact hrun

/-- The inputs keep the charter. -/
theorem permits_of_throughActivity {st : DeviceState ρ} {i : DeviceInput}
    (hst : st.runtime.OnCourse rebootCharter) (h : ThroughActivity st i) :
    rebootCharter.Permits st.runtime i.input.2 := by
  obtain ⟨-, h⟩ := h
  obtain ⟨⟨now, input⟩, records⟩ := i
  dsimp only at h ⊢
  cases input with
  | start definition deviceId context runId =>
    obtain ⟨hkind, hfresh, hcontext⟩ := h
    refine ⟨hkind, hfresh, fun r _ hr _ => ?_⟩
    rw [flat_iff, hr, hcontext]
    rfl
  | registerDefinition definition => exact h
  | resume runId context =>
    intro r hr hkey
    have hflat := (hst.runs runId r hr).2 hkey
    rw [flat_iff] at hflat ⊢
    dsimp only
    rw [Dict.get?_merge_of_not_mem _ _ h]
    exact hflat
  | finish call outcome =>
    intro snapshot state action attempt active events r hc hr hkey
    obtain ⟨⟨r', hr', hkey'⟩, hcourse, -⟩ := hst.calls call _ hc
    have heq : r' = r := Option.some.inj (hr'.symm.trans hr)
    subst heq
    have hplace : (Runtime.withActionFacts r' action.id outcome.toResult.facts).definitionKey =
        r'.definitionKey := by
      unfold Runtime.withActionFacts
      split <;> rfl
    rw [hplace] at hkey
    refine flat_withActionFacts ((hst.runs _ r' hr).2 hkey) fun haction => ?_
    cases outcome with
    | raised | invalid | timedOut => rfl
    | result result =>
      -- The action called a reboot is the reboot of the definition, which the Activity performs.
      have hsnapshot : snapshot.definitionKey = upgradeKey := hkey'.symm.trans hkey
      have hstate : state = rebootState :=
        reboot_state (hsnapshot ▸ hcourse.state) hcourse.action (.inl haction)
      have hoperation : action.operation = "device.reboot" := by
        have hsome : state.action = some action := hcourse.action
        rw [hstate] at hsome
        obtain rfl := Option.some.inj hsome
        rfl
      obtain ⟨precondition, target, response, hresponse, rfl⟩ := h _ hc (by
        simp [isReboot, Call.run, Call.action, hsnapshot, hoperation])
      exact rebootResult_noSignals precondition target hresponse
  | tick | reconcile | markInterrupted | recoverInflight | pause | cancel | applyDecision | emit
  | lateEmit | reconciled | abort | restart => trivial

/-- Asked about a reboot whose run has flat facts, the provider says that it was not started. -/
theorem answer_notStarted {st : RuntimeState ρ} (hst : st.OnCourse rebootCharter) {call : ℕ}
    {c : Call} (hc : st.calls.get? call = some c) (hreboot : isReboot c = true)
    {package reason : String} {ports : DevicePorts} {outcome : ReconcileResult}
    (h : huaweiReconcile c.action.reconcile.provider c.action package c.run reason ports =
      some outcome) :
    outcome.classification = ReconcileClassification.notStarted.value := by
  simp only [isReboot, Bool.and_eq_true, beq_iff_eq] at hreboot
  obtain ⟨hkey, hoperation⟩ := hreboot
  obtain ⟨-, hcourse, hfacts⟩ := hst.calls call c hc
  have hstate : c.state = rebootState :=
    reboot_state (hkey ▸ hcourse.state) hcourse.action (.inr hoperation)
  have hsome : rebootState.action = some c.action := hstate ▸ hcourse.action
  obtain heq := Option.some.inj hsome
  have hflat : Flat c.run := hfacts hkey
  unfold huaweiReconcile at h
  rw [if_neg, if_pos] at h
  · obtain rfl := Option.some.inj h
    rw [← heq]
    exact reconcileReboot_notStarted hflat _
  · rw [← heq]
    decide
  · rw [← heq]
    decide

variable {coordinator cfg}

/-- In a history through the Activity path, definitions, runs and calls keep the charter. -/
theorem onCourse_of_throughActivity {resources : ρ} {inputs : List DeviceInput}
    (h : Machine.Meets (deviceStep coordinator cfg) ThroughActivity
      { runtime := { resources := resources } } inputs) :
    (deviceReached coordinator cfg resources inputs).runtime.OnCourse rebootCharter := by
  refine h.invariant (I := fun st => st.runtime.OnCourse rebootCharter) (fun st i hst hi => ?_) ?_
  · exact (Runtime.step_conducts hst i.input (permits_of_throughActivity hst hi)).course
  · refine ⟨?_, ?_, ?_, ?_⟩
    · intro key d hd
      cases hd
    · intro id r hr
      cases hr
    · intro id r hr
      cases hr
    · intro n c hc
      cases hc

/-- Through the Activity path, a history keeps the promise exactly when no provider is asked about a
reboot that an attempt has sent. -/
theorem rebootObserved_iff (coordinator : Option (ResourceCoordinator ρ)) (cfg : RuntimeConfig)
    (resources : ρ) (inputs : List DeviceInput)
    (h : Machine.Meets (deviceStep coordinator cfg) ThroughActivity
      { runtime := { resources := resources } } inputs) :
    RebootObserved coordinator cfg resources inputs ↔
      Machine.Meets (deviceStep coordinator cfg) AskedUnsent
        { runtime := { resources := resources } } inputs := by
  constructor
  · intro hobserved
    refine Machine.meets_iff.2 fun before i after heq => ?_
    unfold AskedUnsent
    split
    · rename_i call outcome hinput
      intro c hc hreboot
      rw [heq, Machine.meets_append] at h
      obtain ⟨hbefore, hi, -⟩ := h
      have hanswer : ActivityInput _ i.input.2 := hi.2
      rw [hinput] at hanswer
      obtain ⟨package, reason, ports, hprovider⟩ := hanswer c hc hreboot
      have hclassified := answer_notStarted (onCourse_of_throughActivity hbefore) hc hreboot hprovider
      exact hobserved.classified before i after heq i.input.1 call outcome c
        (Prod.ext rfl hinput) hc hreboot hclassified
    · trivial
  · intro hasked
    have hunsent : ∀ before i after, inputs = before ++ i :: after → ∀ now call outcome c,
        i.input = (now, .reconciled call outcome) →
        (deviceReached coordinator cfg resources before).runtime.calls.get? call = some c →
        isReboot c = true → unsent c.run.id c.action.id
          ((deviceReached coordinator cfg resources before).log ++ i.records) = true := by
      intro before i after heq now call outcome c hinput hc hreboot
      have hi := Machine.meets_iff.1 hasked before i after heq
      unfold AskedUnsent at hi
      rw [hinput] at hi
      exact hi c hc hreboot
    refine ⟨?_, ?_⟩
    · intro before i after heq now call outcome c hinput hc hreboot _
      exact hunsent before i after heq now call outcome c hinput hc hreboot
    · intro before i after heq now call outcome c r hinput hc hreboot _ _ _
      exact sentSinceDecision_of_unsent
        (hunsent before i after heq now call outcome c hinput hc hreboot)

end Machine

/-! ## A process that dies in a reboot -/

/-- An upgrade from a package that is on the device. -/
def deviceUpgrade : UpgradeInputs where
  package := "v.cc"
  reboots := true
  autoReboot := true
  localTransfer := false
  topologyPolicy := "auto"
  hasValidation := false

/-- A runtime with the operations of the upgrade. -/
def upgradeRuntime : RuntimeConfig where
  actions := ["device.probe", "device.storage.cleanup", "device.verify_artifact",
    "device.storage.sync", "device.startup.configure", "device.reboot", "device.wait_online",
    "device.verify_version", "device.startup.rollback"]
  reconciliations := ["huawei.reconcile.reboot"]

/-- An input without records. -/
def plainly (input : RuntimeInput) : DeviceInput := { input := (0, input) }

/-- A handler succeeds with the given events. -/
def succeeds (call : ℕ) (events : List String) : DeviceInput :=
  plainly (.finish call (.result { status := .succeeded, events := events.map .named }))

/-- An upgrade up to the start of the reboot's handler. -/
def untilReboot : List DeviceInput :=
  [plainly (.start (upgradeDefinition deviceUpgrade) "d" ∅ (some "r")),
    plainly (.tick "r"), succeeds 0 ["huawei.cli.ready", "huawei.device.facts.collected"],
    plainly (.tick "r"), succeeds 1 ["huawei.storage.cleaned"],
    plainly (.tick "r"), succeeds 2 ["huawei.package.verified"],
    plainly (.tick "r"), succeeds 3 ["huawei.storage.synced"],
    plainly (.tick "r"), succeeds 4 ["framework.action.sent", "huawei.startup.command.completed",
      "huawei.startup.verified"],
    plainly (.tick "r")]

/-- The process dies during the reboot, and the run is recovered. -/
def recoveredReboot (sent : List DeviceRecord) : List DeviceInput :=
  untilReboot ++
    [{ input := (0, .restart), records := sent },
      plainly (.registerDefinition (upgradeDefinition deviceUpgrade)),
      plainly (.recoverInflight "restart" 1000), plainly (.resume "r" ∅), plainly (.tick "r")]

/-- The definition that an input registers. -/
def registers : RuntimeInput → Option WorkflowDefinition
  | .start definition .. => some definition
  | .registerDefinition definition => some definition
  | _ => none

/-- An input of which the Activity path promises nothing but that a device acts for a call. -/
def ordinary {ρ : Type} (st : DeviceState ρ) (i : DeviceInput) : Bool :=
  i.records.all (possible st.runtime) &&
    match i.input.2 with
    | .start _ _ context runId =>
      context.entries.isEmpty && (match runId with
        | some id => !st.runtime.runs.contains id
        | none => true)
    | .resume _ context => context.entries.isEmpty
    | .finish call _ | .reconciled call _ => !(st.runtime.calls.get? call).any isReboot
    | _ => true

theorem throughActivity_of_ordinary {ρ : Type} {st : DeviceState ρ} {i : DeviceInput}
    (h : ordinary st i = true) (hdef : ∀ d, registers i.input.2 = some d → IsUpgrade d) :
    ThroughActivity st i := by
  simp only [ordinary, Bool.and_eq_true] at h
  obtain ⟨hrecords, hinput⟩ := h
  refine ⟨List.all_eq_true.1 hrecords, ?_⟩
  obtain ⟨⟨now, input⟩, records⟩ := i
  dsimp only at hinput hdef ⊢
  have hempty : ∀ context : Dict String Value, context.entries.isEmpty = true → context = ∅ := by
    intro context hcontext
    exact congrArg Dict.mk (List.isEmpty_iff.1 hcontext)
  cases input with
  | start definition deviceId context runId =>
    rw [Bool.and_eq_true] at hinput
    refine ⟨fun _ => hdef definition rfl, fun id hid => .inr fun hmem => ?_, ?_⟩
    · subst hid
      have hcontains := (Dict.contains_iff_mem_keys st.runtime.runs id).2 hmem
      simp [hcontains] at hinput
    · rw [hempty context hinput.1]
      rfl
  | registerDefinition definition => exact fun _ => hdef definition rfl
  | resume runId context =>
    unfold ActivityInput
    rw [hempty context hinput]
    simp
  | finish call outcome =>
    cases outcome with
    | raised | invalid | timedOut => trivial
    | result result =>
      intro c hc hreboot
      simp [hc, hreboot] at hinput
  | reconciled call outcome =>
    intro c hc hreboot
    simp [hc, hreboot] at hinput
  | tick | reconcile | markInterrupted | recoverInflight | pause | cancel | applyDecision | emit
  | lateEmit | abort | restart => trivial

omit [PyLib] in
/-- A device that no probe reaches. -/
def offline : DevicePorts where
  openSession := .error .escaping
  probeCli := .error .escaping
  operation _ := .error .escaping
  displayStartup := .error .escaping

/-- What the provider answers to a suspended call. -/
def answerTo {ρ : Type} (st : DeviceState ρ) (call : ℕ) : ReconcileResult :=
  (((st.runtime.calls.get? call).bind fun c => huaweiReconcile c.action.reconcile.provider c.action
    "" c.run "restart" offline)).getD { classification := "" }

/-- The inputs of the upgrade. -/
def deviceUpgradeInputs : Dict String Value :=
  ⟨[("package_ref", .str "v.cc"), ("package_source", .str "device")]⟩

omit [PyLib] in
theorem readUpgradeInputs_deviceUpgrade :
    @readUpgradeInputs .atEpoch deviceUpgradeInputs = .ok deviceUpgrade := by
  let := PyLib.atEpoch
  have hread : (readUpgradeInputs deviceUpgradeInputs).toOption = some deviceUpgrade := by
    decide +kernel
  cases h : readUpgradeInputs deviceUpgradeInputs with
  | error e =>
    rw [h] at hread
    cases hread
  | ok u =>
    rw [h] at hread
    rw [Option.some.inj hread]

omit [PyLib] in
theorem isUpgrade_deviceUpgrade : @IsUpgrade .atEpoch (upgradeDefinition deviceUpgrade) := by
  let := PyLib.atEpoch
  refine ⟨deviceUpgradeInputs, ?_⟩
  rw [packageUpgrade, readUpgradeInputs_deviceUpgrade]
  rfl

/-- The recovery of a reboot whose process died, with the provider's answer. -/
def answeredReboot (sent : List DeviceRecord) : List DeviceInput :=
  recoveredReboot sent ++ [plainly (.reconciled 6 (@answerTo .atEpoch Unit
    (@deviceReached Unit .atEpoch none upgradeRuntime () (recoveredReboot sent)) 6))]

omit [PyLib] in
theorem throughActivity_answeredReboot {sent : List DeviceRecord}
    (hordinary : @Machine.Meets _ _ (@deviceStep Unit .atEpoch none upgradeRuntime)
      (fun st i => ordinary st i = true) { runtime := { resources := () } }
        (recoveredReboot sent))
    (hanswers : (@answerTo .atEpoch Unit
      (@deviceReached Unit .atEpoch none upgradeRuntime () (recoveredReboot sent)) 6).classification =
        "confirmed_not_started") :
    @Machine.Meets _ _ (@deviceStep Unit .atEpoch none upgradeRuntime) (@ThroughActivity .atEpoch Unit)
      { runtime := { resources := () } } (answeredReboot sent) := by
  let := PyLib.atEpoch
  refine Machine.meets_append.2 ⟨hordinary.imp fun st i hi h => ?_, ⟨?_, ?_⟩, trivial⟩
  · refine throughActivity_of_ordinary h fun d hd => ?_
    have hdefinition : d = upgradeDefinition deviceUpgrade := by
      simp only [recoveredReboot, untilReboot, plainly, succeeds, List.cons_append,
        List.nil_append, List.mem_cons, List.not_mem_nil, or_false] at hi
      rcases hi with rfl | rfl | rfl | rfl | rfl | rfl | rfl | rfl | rfl | rfl | rfl | rfl | rfl |
        rfl | rfl | rfl | rfl <;> simp_all [registers]
    rw [hdefinition]
    exact isUpgrade_deviceUpgrade
  · intro record hrecord
    cases hrecord
  · intro c hc hreboot
    refine ⟨"", "restart", offline, ?_⟩
    have hc' : (deviceReached none upgradeRuntime () (recoveredReboot sent)).runtime.calls.get? 6 =
        some c := hc
    unfold answerTo at hanswers ⊢
    rw [hc'] at hanswers ⊢
    dsimp only [Option.bind_some] at hanswers ⊢
    cases hanswer : huaweiReconcile c.action.reconcile.provider c.action "" c.run "restart"
        offline with
    | some outcome => rfl
    | none =>
      rw [hanswer] at hanswers
      simp at hanswers

omit [PyLib] in
/-- The process dies before the command is sent: the promise holds. -/
theorem rebootObserved_answeredReboot :
    @RebootObserved .atEpoch Unit none upgradeRuntime () (answeredReboot []) ↔
      @Machine.Meets _ _ (@deviceStep Unit .atEpoch none upgradeRuntime) AskedUnsent
        { runtime := { resources := () } } (answeredReboot []) :=
  @rebootObserved_iff .atEpoch Unit none upgradeRuntime () (answeredReboot [])
    (throughActivity_answeredReboot (by decide +kernel) (by decide +kernel))

omit [PyLib] in
/-- The process dies after the attempt has sent the command: the run is let into the reboot again,
without a decision. -/
theorem not_rebootObserved :
    let sent := [DeviceRecord.sent "r" "reboot" "uuuuuuuuuuuu"]
    @Machine.Meets _ _ (@deviceStep Unit .atEpoch none upgradeRuntime)
        (@ThroughActivity .atEpoch Unit) { runtime := { resources := () } } (answeredReboot sent) ∧
      ¬ @RebootObserved .atEpoch Unit none upgradeRuntime () (answeredReboot sent) := by
  let := PyLib.atEpoch
  refine ⟨throughActivity_answeredReboot (by decide +kernel) (by decide +kernel), fun h => ?_⟩
  let sent := [DeviceRecord.sent "r" "reboot" "uuuuuuuuuuuu"]
  have hcall : ((deviceReached (ρ := Unit) none upgradeRuntime ()
      (recoveredReboot sent)).runtime.calls.get? 6).map
        (fun c => (isReboot c, c.run.id, c.action.id, c.state.id)) =
          some (true, "r", "reboot", "reboot") := by decide +kernel
  have hrun : ((deviceReached (ρ := Unit) none upgradeRuntime ()
      (answeredReboot sent)).runtime.runs.get? "r").map (fun r => (r.status, r.currentState)) =
        some (.running, "reboot") := by decide +kernel
  have hsent : sentSinceDecision "r" "reboot"
      ((deviceReached (ρ := Unit) none upgradeRuntime () (recoveredReboot sent)).log ++ []) =
        true := by decide +kernel
  obtain ⟨c, hc, hcall⟩ := Option.map_eq_some_iff.1 hcall
  obtain ⟨r, hr, hrun⟩ := Option.map_eq_some_iff.1 hrun
  simp only [Prod.mk.injEq] at hcall hrun
  obtain ⟨hreboot, hid, haction, hstate⟩ := hcall
  obtain ⟨hstatus, hplace⟩ := hrun
  have hobserved := h.restarted (recoveredReboot sent) _ [] rfl 0 6 _ c r rfl hc hreboot
    (by rw [hid]; exact hr) hstatus (hplace.trans hstate.symm)
  rw [hid, haction] at hobserved
  exact absurd (hobserved.symm.trans hsent) (by decide)

end DeviceShell.Huawei
