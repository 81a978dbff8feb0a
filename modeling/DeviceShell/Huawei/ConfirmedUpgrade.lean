import DeviceShell.Huawei.Reboot

/-!
# A completed upgrade is a confirmed upgrade

An upgrade with a reboot and without validation commands completes from `verify_version` or from
`rollback`. The promise is that a `display startup` read in between names the target as the current
startup software, or, after the rollback, the package of before as the next one
(`ConfirmedUpgrades`).

`startup_uses_package` looks at the next startup software only, the Activity of the rollback reports
success without reading anything back, and the provider of the rollback looks for the previous
package anywhere in the output, whether or not the command was sent. The promise holds of every
sequential history in which none of these decides (`confirmedUpgrades_of_honest`), and fails in one
in which the device names the target for its next start alone (`not_confirmedUpgrades`).
-/

namespace DeviceShell.Huawei

open Framework Activity

variable [PyLib]

/-! ## What is confirmed -/

/-- The output names the package as the current startup software. -/
def namesCurrent (output package : String) : Bool :=
  packageBasename package ≠ "" ∧
    packageBasename (parseDisplayStartup output).currentSystem = packageBasename package

/-- The current startup software that the precheck recorded. -/
def previousSystem (run : WorkflowRun) : String :=
  Value.strOr ((previousStartup run).get? "current_system") ""

/-- After a record of the given kind, the device of the run answered with an output that is as
asked. -/
def ReadAfter (runId : String) (log : List DeviceRecord) (since : DeviceRecord → Prop)
    (asked : String → Prop) : Prop :=
  ∃ first record rest output, log = first ++ record :: rest ∧ since record ∧
    .read runId output ∈ rest ∧ asked output

/-- The run came to `verify_version` from `wait_online`. -/
def IsOnline (runId : String) (record : DeviceRecord) : Prop :=
  record = .moved runId "wait_online" "verify_version"

/-- An attempt of the rollback sent its command. -/
def IsRollback (runId : String) (record : DeviceRecord) : Prop :=
  ∃ attemptId, record = .sent runId "rollback" attemptId

section Promise

variable {ρ : Type} (coordinator : Option (ResourceCoordinator ρ)) (cfg : RuntimeConfig)

/-- The promise for upgrades to a package, of every input that completes one. -/
structure ConfirmedUpgrades (package : String) (resources : ρ) (inputs : List DeviceInput) :
    Prop where
  verified : ∀ before i after, inputs = before ++ i :: after → ∀ id r r',
    (deviceReached coordinator cfg resources before).runtime.runs.get? id = some r →
    r.definitionKey = upgradeKey →
    (deviceReached coordinator cfg resources (before ++ [i])).runtime.runs.get? id = some r' →
    r.currentState = "verify_version" → r'.currentState = "complete" →
      ReadAfter id (deviceReached coordinator cfg resources (before ++ [i])).log (IsOnline id)
        fun output => namesCurrent output package = true
  rolledBack : ∀ before i after, inputs = before ++ i :: after → ∀ id r r',
    (deviceReached coordinator cfg resources before).runtime.runs.get? id = some r →
    r.definitionKey = upgradeKey →
    (deviceReached coordinator cfg resources (before ++ [i])).runtime.runs.get? id = some r' →
    r.currentState = "rollback" → r'.currentState = "complete" →
      ReadAfter id (deviceReached coordinator cfg resources (before ++ [i])).log (IsRollback id)
        fun output => startupUsesPackage output (previousSystem r') = true

/-- A definition of an upgrade to the package, with a reboot and without validation commands. -/
def IsRebootUpgrade (package : String) (d : WorkflowDefinition) : Prop :=
  ∃ inputs u, readUpgradeInputs inputs = .ok u ∧ d = upgradeDefinition u ∧ u.package = package ∧
    u.reboots = true ∧ u.hasValidation = false

/-- The result of the action `device.verify_version`. -/
def verifyResult (package : String) (precondition : Option (Dict String Value))
    (target : ActivityTarget) (response : Except DeviceException CommandResult) : ActionResult :=
  actionResult (executeActivity precondition (deviceActivity "device.verify_version" target
    (response.bind (executeVerifyVersion "startup_package" package))))

/-- The result of the action `device.startup.rollback`, whose parameters name no command. -/
def rollbackResult (precondition : Option (Dict String Value)) (run : WorkflowRun)
    (terminal : Terminal) : ActionResult :=
  actionResult (executeActivity precondition (rollbackActivity "" run terminal))

/-- The inputs of such upgrades: the definitions are of the one upgrade, its verification and its
rollback are what the Activities make of the terminal, and the Huawei provider answers for the
rollback. What is read is recorded. -/
def UpgradeInput (package : String) (i : DeviceInput) (st : RuntimeState ρ) : RuntimeInput → Prop
  | .start definition .. | .registerDefinition definition =>
      definition.key = upgradeKey → IsRebootUpgrade package definition
  | .finish call (.result result) => ∀ c, st.calls.get? call = some c →
      c.run.definitionKey = upgradeKey →
        (c.action.operation = "device.verify_version" → ∃ precondition target response,
          result = verifyResult package precondition target response ∧
            ∀ r, response = .ok r → .read c.run.id r.output ∈ i.records) ∧
        (c.action.operation = "device.startup.rollback" → ∃ precondition terminal,
          result = rollbackResult precondition c.run terminal)
  | .reconciled call outcome => ∀ c, st.calls.get? call = some c →
      c.run.definitionKey = upgradeKey → c.action.operation = "device.startup.rollback" →
        ∃ reason ports, huaweiReconcile c.action.reconcile.provider c.action package c.run reason
          ports = some outcome ∧ ∀ data, ports.displayStartup = .ok data →
            .read c.run.id (Value.strOr (data.get? "output") "") ∈ i.records
  | _ => True

/-- A sequential history of such upgrades, one step. -/
def Upgrades (package : String) (st : DeviceState ρ) (i : DeviceInput) : Prop :=
  (∀ record ∈ i.records, possible st.runtime record = true) ∧
    Runtime.Sequential st.runtime i.input.2 ∧ UpgradeInput package i st.runtime i.input.2

/-- None of the three judgements that look at something else decides. A verified output that names
the target for the next start names it as current too; the rollback's own Activity does not succeed;
and a rollback is asked about on an output that contains the previous package's name only after its
command was sent, and the output names that package for the next start. -/
def Honest (package : String) (st : DeviceState ρ) (i : DeviceInput) : Prop :=
  match i.input.2 with
  | .finish call outcome => ∀ c, st.runtime.calls.get? call = some c →
      c.run.definitionKey = upgradeKey →
        (c.action.operation = "device.verify_version" → ∀ output,
          .read c.run.id output ∈ i.records → startupUsesPackage output package = true →
            namesCurrent output package = true) ∧
        (c.action.operation = "device.startup.rollback" → outcome.toResult.status ≠ .succeeded)
  | .reconciled call _ => ∀ c, st.runtime.calls.get? call = some c →
      c.run.definitionKey = upgradeKey → c.action.operation = "device.startup.rollback" →
        ∀ output, .read c.run.id output ∈ i.records →
          packageBasename (previousSystem c.run) ≠ "" →
          occursIn (packageBasename (previousSystem c.run)) (PyLib.casefold output) = true →
            (∃ record ∈ st.log, IsRollback c.run.id record) ∧
              startupUsesPackage output (previousSystem c.run) = true
  | _ => True

end Promise

/-! ## What a success rests on -/

omit [PyLib] in
theorem activity_succeeded {result : ActivityResult}
    (h : (actionResult result).status = .succeeded) : result.status = .succeeded := by
  unfold actionResult at h
  cases hstatus : result.status with
  | succeeded => rfl
  | failed | unknown | cancelled => simp [hstatus] at h

omit [PyLib] in
theorem handled_succeeded {precondition : Option (Dict String Value)} {handled : ActivityResult}
    (h : (executeActivity precondition handled).status = .succeeded) :
    handled.status = .succeeded := by
  unfold executeActivity at h
  split at h
  · cases h
  · exact h

theorem deviceActivity_succeeded {operation : String} {target : ActivityTarget}
    {response : Except DeviceException (Dict String Value)}
    (h : (deviceActivity operation target response).status = .succeeded) :
    ∃ data, response = .ok data := by
  cases response with
  | ok data => exact ⟨data, rfl⟩
  | error e =>
    have huncertain : (if uncertainOperations.contains operation then ActivityStatus.unknown
        else .failed) ≠ .succeeded := by
      split <;> simp
    cases e with
    | workflow e => exact absurd h huncertain
    | other message => exact absurd h huncertain

/-- A verification succeeds on an output whose next startup software is the package. -/
theorem verifyResult_succeeded {package : String} (hpackage : package ≠ "")
    {precondition : Option (Dict String Value)} {target : ActivityTarget}
    {response : Except DeviceException CommandResult}
    (h : (verifyResult package precondition target response).status = .succeeded) :
    ∃ r, response = .ok r ∧ startupUsesPackage r.output package = true := by
  obtain ⟨data, hdata⟩ := deviceActivity_succeeded (handled_succeeded (activity_succeeded h))
  cases response with
  | error e => cases hdata
  | ok r => exact ⟨r, rfl, startupUsesPackage_of_executeVerifyVersion hpackage hdata⟩

omit [PyLib] in
theorem indeterminate_ne_success : ReconcileClassification.indeterminate.value ≠
    ReconcileClassification.success.value := by decide

/-- The provider confirms a rollback on an output that contains the previous package's name. -/
theorem reconcile_rollback {action : ActionSpec} (haction : action.operation ≠ "device.wait_online")
    {package reason : String} {run : WorkflowRun} {ports : DevicePorts} {outcome : ReconcileResult}
    (h : huaweiReconcile "huawei.reconcile.rollback" action package run reason ports =
      some outcome)
    (hsuccess : outcome.classification = ReconcileClassification.success.value) :
    ∃ data, ports.displayStartup = .ok data ∧ packageBasename (previousSystem run) ≠ "" ∧
      occursIn (packageBasename (previousSystem run))
        (PyLib.casefold (Value.strOr (data.get? "output") "")) = true := by
  have hends : ∀ suffix ∈ ["online", "reboot", "transfer", "startup"],
      endsWith "huawei.reconcile.rollback" suffix = false := by decide
  have hrollback : endsWith "huawei.reconcile.rollback" "rollback" = true := by decide
  unfold huaweiReconcile at h
  simp only [hends "online" (by simp), hends "reboot" (by simp), hends "transfer" (by simp),
    hends "startup" (by simp), hrollback, haction, Bool.false_eq_true, or_self, if_false,
    if_true] at h
  unfold reconcileByStartup at h
  cases hport : ports.displayStartup with
  | error e =>
    rw [hport] at h
    cases e with
    | caught message code =>
      obtain rfl := Option.some.inj h
      exact absurd hsuccess indeterminate_ne_success
    | escaping => cases h
  | ok data =>
    rw [hport] at h
    dsimp only at h
    refine ⟨data, rfl, ?_⟩
    split at h
    · rename_i hmatched
      simp only [Bool.and_eq_true, decide_eq_true_eq] at hmatched
      exact hmatched
    · obtain rfl := Option.some.inj h
      exact absurd hsuccess indeterminate_ne_success

/-- An upgrade has a package. -/
theorem package_ne_empty {inputs : Dict String Value} {u : UpgradeInputs}
    (h : readUpgradeInputs inputs = .ok u) : u.package ≠ "" := by
  unfold readUpgradeInputs at h
  dsimp only at h
  split at h
  · cases h
  · rename_i hpackage
    iterate 6
      rw [Except.bind_eq_ok] at h
      obtain ⟨_, -, h⟩ := h
    obtain rfl := Except.ok.inj h
    exact hpackage

/-! ## The definition's edges -/

/-- Under the upgrade's key there are only such definitions. -/
def upgradeCharter (package : String) : Charter where
  kind key d := key = upgradeKey → IsRebootUpgrade package d
  facts _ := True
  facts_congr _ _ h := h

section Edges

variable {package : String}

/-- A state of such an upgrade. -/
theorem mem_rebootUpgrade {state : StateNode}
    (h : StateOf ((upgradeCharter package).kind upgradeKey) state) :
    ∃ u, u.reboots = true ∧ u.hasValidation = false ∧
      state ∈ [precheckState u, cleanupState u, transferState, verifyPackageState, syncStandbyState,
        configureStartupState u, rebootApprovalState, rebootState, waitOnlineState,
        verifyVersionState u, validationState, rollbackState, completeState] := by
  obtain ⟨d, hd, hmem⟩ := h
  obtain ⟨inputs, u, -, rfl, -, hreboots, hvalidation⟩ := hd rfl
  exact ⟨u, hreboots, hvalidation, mem_upgradeStates hmem⟩

theorem state_verify {state : StateNode}
    (h : StateOf ((upgradeCharter package).kind upgradeKey) state)
    (hid : state.id = "verify_version") : ∃ u, state = verifyVersionState u := by
  obtain ⟨u, -, -, hmem⟩ := mem_rebootUpgrade h
  refine ⟨u, ?_⟩
  simp only [List.mem_cons, List.not_mem_nil, or_false] at hmem
  rcases hmem with rfl | rfl | rfl | rfl | rfl | rfl | rfl | rfl | rfl | rfl | rfl | rfl | rfl
  case inr.inr.inr.inr.inr.inr.inr.inr.inr.inl => rfl
  all_goals simp [precheckState, cleanupState, transferState, verifyPackageState, syncStandbyState,
    configureStartupState, rebootApprovalState, rebootState, waitOnlineState, validationState,
    rollbackState, completeState] at hid

theorem state_rollback {state : StateNode}
    (h : StateOf ((upgradeCharter package).kind upgradeKey) state)
    (hid : state.id = "rollback") : state = rollbackState := by
  obtain ⟨u, -, -, hmem⟩ := mem_rebootUpgrade h
  simp only [List.mem_cons, List.not_mem_nil, or_false] at hmem
  rcases hmem with rfl | rfl | rfl | rfl | rfl | rfl | rfl | rfl | rfl | rfl | rfl | rfl | rfl
  case inr.inr.inr.inr.inr.inr.inr.inr.inr.inr.inr.inl => rfl
  all_goals simp [precheckState, cleanupState, transferState, verifyPackageState, syncStandbyState,
    configureStartupState, rebootApprovalState, rebootState, waitOnlineState, verifyVersionState,
    validationState, completeState] at hid

/-- The action of `verify_version`, which asks no provider. -/
theorem verify_action {state : StateNode} {action : ActionSpec}
    (h : StateOf ((upgradeCharter package).kind upgradeKey) state)
    (hid : state.id = "verify_version") (haction : state.action = some action) :
    action.operation = "device.verify_version" ∧ action.reconcile.provider = "" ∧
      action.reconcile.onClassification = ∅ := by
  obtain ⟨u, rfl⟩ := state_verify h hid
  obtain rfl := Option.some.inj haction
  exact ⟨rfl, rfl, rfl⟩

/-- The action of `rollback`. -/
theorem rollback_action {state : StateNode} {action : ActionSpec}
    (h : StateOf ((upgradeCharter package).kind upgradeKey) state)
    (hid : state.id = "rollback") (haction : state.action = some action) :
    action.operation = "device.startup.rollback" ∧
      action.reconcile.provider = "huawei.reconcile.rollback" ∧
      action.reconcile.onClassification = ⟨[("confirmed_success", "continue")]⟩ := by
  obtain rfl := state_rollback h hid
  obtain rfl := Option.some.inj haction
  exact ⟨rfl, rfl, rfl⟩

/-- The run comes to `verify_version` from `wait_online` alone. -/
theorem edge_verify {source : String}
    (h : Edge ((upgradeCharter package).kind upgradeKey) source "verify_version") :
    source = "wait_online" := by
  obtain ⟨state, hstate, rfl, htarget⟩ := h
  obtain ⟨u, hreboots, hvalidation, hmem⟩ := mem_rebootUpgrade hstate
  simp only [List.mem_cons, List.not_mem_nil, or_false] at hmem
  rcases hmem with rfl | rfl | rfl | rfl | rfl | rfl | rfl | rfl | rfl | rfl | rfl | rfl | rfl
  case inr.inr.inr.inr.inr.inr.inr.inr.inl => rfl
  all_goals
    simp only [precheckState, cleanupState, transferState, verifyPackageState, syncStandbyState,
      configureStartupState, rebootApprovalState, rebootState, verifyVersionState, validationState,
      rollbackState, completeState, hreboots, hvalidation, if_true, Dict.values,
      Bool.false_eq_true, if_false] at htarget
    first
      | exact absurd htarget (by decide)
      | split at htarget <;> exact absurd htarget (by decide)

/-- No option leads to `verify_version` or to `complete`. -/
theorem not_chosen {target : String} (htarget : target = "verify_version" ∨ target = "complete") :
    ¬ Chosen ((upgradeCharter package).kind upgradeKey) target := by
  rintro ⟨state, option, hstate, hoption, rfl⟩
  obtain ⟨u, -, -, hmem⟩ := mem_rebootUpgrade hstate
  have hnever : ∀ option ∈ state.decisionOptions,
      option.nextState ≠ "verify_version" ∧ option.nextState ≠ "complete" := by
    simp only [List.mem_cons, List.not_mem_nil, or_false] at hmem
    rcases hmem with rfl | rfl | rfl | rfl | rfl | rfl | rfl | rfl | rfl | rfl | rfl | rfl | rfl
    all_goals
      simp only [precheckState, cleanupState, transferState, verifyPackageState, syncStandbyState,
        configureStartupState, rebootApprovalState, rebootState, waitOnlineState,
        verifyVersionState, validationState, rollbackState, completeState, topologyOptions,
        startupOptions]
      first
        | decide
        | split <;> decide
  obtain ⟨hverify, hcomplete⟩ := hnever option hoption
  exact htarget.elim hverify hcomplete

end Edges

/-! ## Runs -/

omit [PyLib] in
/-- A run that changed its state is recorded. -/
theorem mem_movesBetween {before after : Dict String WorkflowRun} {id : String}
    {r r' : WorkflowRun} (hr : before.get? id = some r) (hr' : after.get? id = some r')
    (hmoved : r'.currentState ≠ r.currentState) :
    .moved id r.currentState r'.currentState ∈ movesBetween before after := by
  refine List.mem_filterMap.2 ⟨(id, r'), Dict.mem_of_get? hr', ?_⟩
  dsimp only
  rw [hr]
  dsimp only
  rw [if_neg (Ne.symm hmoved)]

section Runs

variable {ρ : Type} {coordinator : Option (ResourceCoordinator ρ)} {cfg : RuntimeConfig}
  {package : String} {st : DeviceState ρ} {i : DeviceInput}

/-- The invariant: in a run that is in `verify_version` the management plane came back before. -/
structure UpgradeInv (package : String) (st : DeviceState ρ) : Prop where
  aligned : st.runtime.Aligned
  course : st.runtime.OnCourse (upgradeCharter package)
  online : ∀ id r, st.runtime.runs.get? id = some r → r.definitionKey = upgradeKey →
    r.currentState = "verify_version" → .moved id "wait_online" "verify_version" ∈ st.log

theorem permits_of_upgrades (h : Upgrades package st i) :
    (upgradeCharter package).Permits st.runtime i.input.2 := by
  obtain ⟨-, hsequential, h⟩ := h
  obtain ⟨⟨now, input⟩, records⟩ := i
  dsimp only at h hsequential ⊢
  cases input with
  | start definition deviceId context runId =>
    refine ⟨h, fun id hid => ?_, fun _ _ _ => trivial⟩
    subst hid
    exact hsequential
  | registerDefinition definition => exact h
  | resume => exact fun _ _ => trivial
  | finish => exact fun _ _ _ _ _ _ _ _ _ => trivial
  | tick | reconcile | markInterrupted | recoverInflight | pause | cancel | applyDecision | emit
  | lateEmit | reconciled | abort | restart => trivial

theorem step_upgrade (h : UpgradeInv package st) (hi : Upgrades package st i) :
    RuntimeState.Conducts (upgradeCharter package) i.input.2 st.runtime
      (deviceStep coordinator cfg st i).runtime :=
  Runtime.step_conducts h.course i.input (permits_of_upgrades hi)

omit [PyLib] in
/-- The state of a call of a run in a sequential history. -/
theorem place_of_call (h : st.runtime.Aligned) {call : ℕ} {c : Call}
    (hc : st.runtime.calls.get? call = some c) {r : WorkflowRun}
    (hr : st.runtime.runs.get? c.run.id = some r) : c.state.id = r.currentState := by
  obtain ⟨r', hr', hplace⟩ := h.calls call c hc
  obtain rfl := Option.some.inj (hr'.symm.trans hr)
  cases c with
  | handler => exact hplace.2.1
  | reconcile | recover => exact hplace.2.1

/-- In a sequential history a run moves along a transition of its state, by a registered definition,
or to the target of an option. -/
theorem route (h : UpgradeInv package st) (hi : Upgrades package st i) {id : String}
    {r r' : WorkflowRun} (hr : st.runtime.runs.get? id = some r)
    (hr' : (deviceStep coordinator cfg st i).runtime.runs.get? id = some r')
    (hmoved : r'.currentState ≠ r.currentState) :
    Runtime.Leads ((upgradeCharter package).kind r.definitionKey) st.runtime.definitions r
        r.currentState r'.currentState ∨
      Chosen ((upgradeCharter package).kind r.definitionKey) r'.currentState := by
  have hid : r.id = id := h.aligned.keyed id r hr
  have hsteers := (step_upgrade h hi).moves id r r' hr hr' hmoved
  obtain ⟨⟨now, input⟩, records⟩ := i
  dsimp only at hsteers
  cases input with
  | tick => exact .inl hsteers
  | finish call outcome =>
    obtain ⟨c, hc, hcid, hleads⟩ := hsteers
    rw [place_of_call h.aligned hc (by rw [hcid, hid]; exact hr)] at hleads
    exact .inl hleads
  | reconciled call outcome =>
    obtain ⟨c, hc, hcid, hwaits, hfollows⟩ := hsteers
    have hplace := place_of_call h.aligned hc (by rw [hcid, hid]; exact hr)
    obtain ⟨q, hq, hin⟩ := h.aligned.calls call c hc
    rw [hcid, hid] at hq
    obtain rfl := Option.some.inj (hq.symm.trans hr)
    -- The snapshot of the call is in the state of the stored run.
    have hspot : c.run.currentState = q.currentState := by
      cases c with
      | handler => exact hwaits.elim
      | reconcile | recover => exact hin.1.place
    rcases hfollows.place with hsame | ⟨⟨d, hd⟩, hedge⟩
    · exact absurd (hsame.trans hspot) hmoved
    · rw [hplace] at hedge
      obtain ⟨⟨q', hq', hkey⟩, -⟩ := h.course.calls call c hc
      rw [hcid, hid] at hq'
      obtain rfl := Option.some.inj (hq'.symm.trans hr)
      exact .inl ⟨⟨d, (Runtime.definitionOf_congr hkey).trans hd⟩, hedge⟩
  | applyDecision => exact .inr hsteers
  | start | registerDefinition | reconcile | markInterrupted | recoverInflight | pause | resume
  | cancel | emit | lateEmit | abort | restart => exact hsteers.elim

/-- One step keeps the invariant. -/
theorem upgradeInv_step (h : UpgradeInv package st) (hi : Upgrades package st i) :
    UpgradeInv package (deviceStep coordinator cfg st i) := by
  have hconducts : RuntimeState.Conducts (upgradeCharter package) i.input.2 st.runtime
      (deviceStep coordinator cfg st i).runtime := step_upgrade h hi
  refine ⟨(Runtime.step_advances h.aligned i.input hi.2.1).aligned, hconducts.course, ?_⟩
  intro id r' hr' hkey' hplace
  cases hr : st.runtime.runs.get? id with
  | none =>
    obtain ⟨d, hd, hstart⟩ := hconducts.created id r' hr hr'
    obtain ⟨inputs, u, -, rfl, -⟩ := hd hkey'
    rw [hplace] at hstart
    exact absurd hstart (by simp [upgradeDefinition])
  | some r =>
    have hkey : r.definitionKey = upgradeKey := (hconducts.key id r r' hr hr').symm.trans hkey'
    by_cases hmoved : r'.currentState = r.currentState
    · have hold := h.online id r hr hkey (hmoved.symm.trans hplace)
      exact List.mem_append_left _ (List.mem_append_left _ (List.mem_append_left _ hold))
    · have hroute := route h hi hr hr' hmoved
      rw [hkey, hplace] at hroute
      rcases hroute with ⟨-, hedge⟩ | hchosen
      · have hmem := mem_movesBetween hr hr' hmoved
        rw [hplace, edge_verify hedge] at hmem
        exact List.mem_append_right _ hmem
      · exact absurd hchosen (not_chosen (.inl rfl))

theorem upgradeInv_reached {resources : ρ} {inputs : List DeviceInput}
    (h : Machine.Meets (deviceStep coordinator cfg) (Upgrades package)
      { runtime := { resources := resources } } inputs) :
    UpgradeInv package (deviceReached coordinator cfg resources inputs) := by
  refine h.invariant (I := UpgradeInv package) (fun st i hst hi => upgradeInv_step hst hi) ?_
  refine ⟨⟨?_, ?_, ?_⟩, ⟨?_, ?_, ?_, ?_⟩, ?_⟩
  · intro id r hr
    cases hr
  · intro n c hc
    cases hc
  · intro n c n' c' hc
    cases hc
  · intro key d hd
    cases hd
  · intro id r hr
    cases hr
  · intro id r hr
    cases hr
  · intro n c hc
    cases hc
  · intro id r hr
    cases hr

/-- A run that an upgrade completes had evidence, from the action of its state. -/
theorem evidence_of_complete (h : UpgradeInv package st) (hi : Upgrades package st i) {id : String}
    {r r' : WorkflowRun} (hr : st.runtime.runs.get? id = some r)
    (hr' : (deviceStep coordinator cfg st i).runtime.runs.get? id = some r')
    (hkey : r.definitionKey = upgradeKey)
    (hplace : r.currentState = "verify_version" ∨ r.currentState = "rollback")
    (hcomplete : r'.currentState = "complete") :
    Evidence st.runtime r r' i.input.2 := by
  have hmoved : r'.currentState ≠ r.currentState := by
    rw [hcomplete]
    rcases hplace with hplace | hplace <;> simp [hplace]
  have hroute := route h hi hr hr' hmoved
  rw [hkey, hcomplete] at hroute
  rcases hroute with ⟨⟨d, hd⟩, -⟩ | hchosen
  · obtain ⟨inputs, u, -, rfl, -, hreboots, hvalidation⟩ :=
      (hkey ▸ h.course.kind_of_definitionOf r d hd) rfl
    refine (Runtime.step_advances h.aligned i.input hi.2.1).evidence id r r' hr hr' (.inl hmoved) ?_
    rcases hplace with hplace | hplace
    · refine ⟨_, verifyVersionState u, _, hd, ?_, rfl, rfl⟩
      rw [hplace]
      cases hlocal : u.localTransfer <;>
        simp [WorkflowDefinition.state, upgradeDefinition, hreboots, hvalidation, hlocal,
          precheckState, cleanupState, transferState, verifyPackageState, syncStandbyState,
          configureStartupState, rebootApprovalState, rebootState, waitOnlineState,
          verifyVersionState]
    · refine ⟨_, rollbackState, _, hd, ?_, rfl, rfl⟩
      rw [hplace]
      cases hlocal : u.localTransfer <;>
        simp [WorkflowDefinition.state, upgradeDefinition, hreboots, hvalidation, hlocal,
          precheckState, cleanupState, transferState, verifyPackageState, syncStandbyState,
          configureStartupState, rebootApprovalState, rebootState, waitOnlineState,
          verifyVersionState, rollbackState]
  · exact absurd hchosen (not_chosen (.inr rfl))

omit [PyLib] in
/-- What an input brings comes after what was recorded before it. -/
theorem readAfter_records {log records rest : List DeviceRecord} {runId output : String}
    {since : DeviceRecord → Prop} {asked : String → Prop} (hsince : ∃ record ∈ log, since record)
    (hread : .read runId output ∈ records) (hasked : asked output) :
    ReadAfter runId (log ++ records ++ rest) since asked := by
  obtain ⟨record, hmem, hrecord⟩ := hsince
  obtain ⟨first, after, rfl⟩ := List.append_of_mem hmem
  refine ⟨first, record, after ++ records ++ rest, output, by simp, hrecord, ?_, hasked⟩
  exact List.mem_append_left _ (List.mem_append_right _ hread)

omit [PyLib] in
theorem log_deviceStep [PyLib] (coordinator : Option (ResourceCoordinator ρ)) (cfg : RuntimeConfig)
    (st : DeviceState ρ) (i : DeviceInput) :
    ∃ rest, (deviceStep coordinator cfg st i).log = st.log ++ i.records ++ rest :=
  ⟨_, List.append_assoc _ _ _⟩

/-- The call that an evidence is about belongs to an upgrade. -/
theorem call_of_upgrade (h : UpgradeInv package st) {call : ℕ} {c : Call}
    (hc : st.runtime.calls.get? call = some c) {id : String} {r : WorkflowRun}
    (hr : st.runtime.runs.get? id = some r) (hkey : r.definitionKey = upgradeKey)
    (hid : c.run.id = r.id) :
    c.run.id = id ∧ c.run.definitionKey = upgradeKey ∧
      StateOf ((upgradeCharter package).kind upgradeKey) c.state ∧ c.Asks := by
  obtain ⟨⟨q, hq, hqkey⟩, hcourse, -⟩ := h.course.calls call c hc
  have hrid : r.id = id := h.aligned.keyed id r hr
  rw [hid, hrid] at hq
  obtain rfl := Option.some.inj (hq.symm.trans hr)
  have hckey : c.run.definitionKey = upgradeKey := hqkey.symm.trans hkey
  rw [hckey] at hcourse
  exact ⟨hid.trans hrid, hckey, hcourse.state, hcourse.asks⟩

omit [PyLib] in
theorem result_of_succeeded {outcome : HandlerOutcome}
    (h : outcome.toResult.status = .succeeded) : ∃ result, outcome = .result result := by
  cases outcome with
  | result result => exact ⟨result, rfl⟩
  | raised | invalid | timedOut => cases h

/-- A run that completes from `verify_version` has read the target as its current software. -/
theorem verified_step (h : UpgradeInv package st) (hi : Upgrades package st i)
    (hhonest : Honest package st i) {id : String} {r r' : WorkflowRun}
    (hr : st.runtime.runs.get? id = some r)
    (hr' : (deviceStep coordinator cfg st i).runtime.runs.get? id = some r')
    (hkey : r.definitionKey = upgradeKey) (hplace : r.currentState = "verify_version")
    (hcomplete : r'.currentState = "complete") :
    ReadAfter id (deviceStep coordinator cfg st i).log (IsOnline id)
      fun output => namesCurrent output package = true := by
  have hevidence := evidence_of_complete h hi hr hr' hkey (.inl hplace) hcomplete
  have honline := h.online id r hr hkey hplace
  obtain ⟨rest, hlog⟩ := log_deviceStep coordinator cfg st i
  rw [hlog]
  obtain ⟨⟨now, input⟩, records⟩ := i
  obtain ⟨-, -, hinput⟩ := hi
  dsimp only at hevidence hinput ⊢
  cases hevidence with
  | @succeeded call outcome snapshot stored state action _ _ _ _ hcall hrun hstate haction _ _
      hstatus =>
    obtain ⟨hid, hckey, hof, -⟩ := call_of_upgrade h hcall hr hkey hrun
    obtain ⟨hoperation, -, -⟩ := verify_action hof (hstate.trans hplace) haction
    have hpackage : package ≠ "" := by
      obtain ⟨d, hd, -⟩ := hof
      obtain ⟨inputs, u, hread, -, rfl, -, -⟩ := hd rfl
      exact package_ne_empty hread
    obtain ⟨result, rfl⟩ := result_of_succeeded hstatus
    obtain ⟨precondition, target, response, rfl, hread⟩ := (hinput _ hcall hckey).1 hoperation
    obtain ⟨answer, hresponse, huses⟩ := verifyResult_succeeded hpackage hstatus
    have hmem := hread answer hresponse
    have hnames := (hhonest _ hcall hckey).1 hoperation answer.output hmem huses
    rw [hid] at hmem
    exact readAfter_records ⟨_, honline, rfl⟩ hmem hnames
  | @continued call outcome snapshot state action events hcall hrun hstate haction hcontinue =>
    obtain ⟨-, -, hof, -⟩ := call_of_upgrade h hcall hr hkey hrun
    obtain ⟨-, -, hmapping⟩ := verify_action hof (hstate.trans hplace) haction
    rw [hmapping] at hcontinue
    cases hcontinue
  | @confirmed call outcome snapshot state action recovery events hcall hrun hstate haction =>
    obtain ⟨-, -, hof, hasks⟩ := call_of_upgrade h hcall hr hkey hrun
    obtain ⟨-, hprovider, -⟩ := verify_action hof (hstate.trans hplace) haction
    exact absurd hprovider hasks
  | @decided submission option haccepted htarget =>
    obtain ⟨point, hpoint, -, hmem⟩ := DecisionEngine.validate_point haccepted
    obtain ⟨state, hstate, hoptions⟩ := (h.course.runs id r hr).1 point hpoint
    rw [hkey] at hstate
    refine absurd ⟨state, option, hstate, hoptions ▸ hmem, ?_⟩ (not_chosen (.inr rfl))
    rw [htarget, hcomplete]

/-- The precheck's record is part of the facts that a provider's answer leaves. -/
theorem previousSystem_of_follows {D : WorkflowDefinition → Prop} {goes : String → Prop}
    {s r : WorkflowRun} (h : Follows D goes s r) : previousSystem r = previousSystem s := by
  have hkey : factsKey "precheck" = "action.precheck.facts" := by decide
  have hfacts := h.facts "precheck"
  rw [hkey] at hfacts
  unfold previousSystem previousStartup
  rw [hfacts]

/-- A confirmed rollback was read after its command. -/
theorem confirmed_rollback (h : UpgradeInv package st) {now : ℚ} {records : List DeviceRecord}
    {call : ℕ} {outcome : ReconcileResult}
    (hi : Upgrades package st ⟨(now, .reconciled call outcome), records⟩)
    (hhonest : Honest package st ⟨(now, .reconciled call outcome), records⟩) {id : String}
    {r r' : WorkflowRun} (hr : st.runtime.runs.get? id = some r)
    (hr' : (deviceStep coordinator cfg st
      ⟨(now, .reconciled call outcome), records⟩).runtime.runs.get? id = some r')
    (hkey : r.definitionKey = upgradeKey) (hplace : r.currentState = "rollback")
    (hcomplete : r'.currentState = "complete") {c : Call}
    (hc : st.runtime.calls.get? call = some c) (hid : c.run.id = r.id)
    (hstate : c.state.id = r.currentState) (haction : c.state.action = some c.action)
    (hsuccess : outcome.classification = ReconcileClassification.success.value) :
    ReadAfter id (deviceStep coordinator cfg st ⟨(now, .reconciled call outcome), records⟩).log
      (IsRollback id) fun output => startupUsesPackage output (previousSystem r') = true := by
  have hmoved : r'.currentState ≠ r.currentState := by simp [hcomplete, hplace]
  obtain ⟨c', hc', -, -, hfollows⟩ := (step_upgrade h hi).moves id r r' hr hr' hmoved
  obtain rfl := Option.some.inj (hc'.symm.trans hc)
  obtain ⟨hcid, hckey, hof, -⟩ := call_of_upgrade h hc hr hkey hid
  obtain ⟨hoperation, hprovider, -⟩ := rollback_action hof (hstate.trans hplace) haction
  obtain ⟨reason, ports, hanswer, hread⟩ := hi.2.2 _ hc hckey hoperation
  rw [hprovider] at hanswer
  obtain ⟨data, hdata, hne, hoccurs⟩ := reconcile_rollback (by simp [hoperation]) hanswer hsuccess
  have hmem := hread data hdata
  obtain ⟨hsent, hnames⟩ := hhonest _ hc hckey hoperation _ hmem hne hoccurs
  rw [hcid] at hmem hsent
  rw [previousSystem_of_follows hfollows]
  obtain ⟨rest, hlog⟩ := log_deviceStep coordinator cfg st
    ⟨(now, .reconciled call outcome), records⟩
  rw [hlog]
  exact readAfter_records hsent hmem hnames

/-- A run that completes from `rollback` has read the previous package as its next software, after
the command. -/
theorem rolledBack_step (h : UpgradeInv package st) (hi : Upgrades package st i)
    (hhonest : Honest package st i) {id : String} {r r' : WorkflowRun}
    (hr : st.runtime.runs.get? id = some r)
    (hr' : (deviceStep coordinator cfg st i).runtime.runs.get? id = some r')
    (hkey : r.definitionKey = upgradeKey) (hplace : r.currentState = "rollback")
    (hcomplete : r'.currentState = "complete") :
    ReadAfter id (deviceStep coordinator cfg st i).log (IsRollback id)
      fun output => startupUsesPackage output (previousSystem r') = true := by
  have hevidence := evidence_of_complete h hi hr hr' hkey (.inr hplace) hcomplete
  obtain ⟨⟨now, input⟩, records⟩ := i
  dsimp only at hevidence
  cases hevidence with
  | @succeeded call outcome snapshot stored state action _ _ _ _ hcall hrun hstate haction _ _
      hstatus =>
    obtain ⟨-, hckey, hof, -⟩ := call_of_upgrade h hcall hr hkey hrun
    obtain ⟨hoperation, -, -⟩ := rollback_action hof (hstate.trans hplace) haction
    exact absurd hstatus ((hhonest _ hcall hckey).2 hoperation)
  | @continued call outcome snapshot state action events hcall hrun hstate haction hcontinue =>
    obtain ⟨-, -, hof, -⟩ := call_of_upgrade h hcall hr hkey hrun
    obtain ⟨-, -, hmapping⟩ := rollback_action hof (hstate.trans hplace) haction
    have hsuccess : outcome.classification = ReconcileClassification.success.value := by
      rw [hmapping] at hcontinue
      by_contra hne
      have hne' : "confirmed_success" ≠ outcome.classification := fun heq => hne heq.symm
      simp [Dict.get?, Dict.lookup, hne'] at hcontinue
    exact confirmed_rollback h hi hhonest hr hr' hkey hplace hcomplete hcall hrun hstate haction
      hsuccess
  | @confirmed call outcome snapshot state action recovery events hcall hrun hstate haction
      hsuccess =>
    exact confirmed_rollback h hi hhonest hr hr' hkey hplace hcomplete hcall hrun hstate haction
      hsuccess
  | @decided submission option haccepted htarget =>
    obtain ⟨point, hpoint, -, hmem⟩ := DecisionEngine.validate_point haccepted
    obtain ⟨state, hstate, hoptions⟩ := (h.course.runs id r hr).1 point hpoint
    rw [hkey] at hstate
    refine absurd ⟨state, option, hstate, hoptions ▸ hmem, ?_⟩ (not_chosen (.inr rfl))
    rw [htarget, hcomplete]

/-- In every sequential history of upgrades in which none of the three judgements decides, a
completed upgrade is a confirmed one. -/
theorem confirmedUpgrades_of_honest (coordinator : Option (ResourceCoordinator ρ))
    (cfg : RuntimeConfig) (package : String) (resources : ρ) (inputs : List DeviceInput)
    (h : Machine.Meets (deviceStep coordinator cfg) (Upgrades package)
      { runtime := { resources := resources } } inputs)
    (hhonest : Machine.Meets (deviceStep coordinator cfg) (Honest package)
      { runtime := { resources := resources } } inputs) :
    ConfirmedUpgrades coordinator cfg package resources inputs := by
  have hat : ∀ before i after, inputs = before ++ i :: after →
      UpgradeInv package (deviceReached coordinator cfg resources before) ∧
        Upgrades package (deviceReached coordinator cfg resources before) i ∧
        Honest package (deviceReached coordinator cfg resources before) i := by
    intro before i after heq
    rw [heq, Machine.meets_append] at h hhonest
    exact ⟨upgradeInv_reached h.1, h.2.1, hhonest.2.1⟩
  refine ⟨?_, ?_⟩
  · intro before i after heq id r r' hr hkey hr' hplace hcomplete
    obtain ⟨hinv, hi, hhonest⟩ := hat before i after heq
    rw [deviceReached_concat] at hr' ⊢
    exact verified_step hinv hi hhonest hr hr' hkey hplace hcomplete
  · intro before i after heq id r r' hr hkey hr' hplace hcomplete
    obtain ⟨hinv, hi, hhonest⟩ := hat before i after heq
    rw [deviceReached_concat] at hr' ⊢
    exact rolledBack_step hinv hi hhonest hr hr' hkey hplace hcomplete

end Runs

/-! ## A device that names the target for its next start -/

/-- The call is about an action whose outcome is judged. -/
def isJudged (c : Call) : Bool :=
  c.action.operation == "device.verify_version" || c.action.operation == "device.startup.rollback"

/-- An input of a sequential history that is about no such call. -/
def unjudged {ρ : Type} (st : DeviceState ρ) (i : DeviceInput) : Bool :=
  i.records.all (possible st.runtime) && decide (Runtime.Sequential st.runtime i.input.2) &&
    match i.input.2 with
    | .finish call _ | .reconciled call _ => !(st.runtime.calls.get? call).any isJudged
    | _ => true

theorem upgrades_of_unjudged {ρ : Type} {package : String} {st : DeviceState ρ} {i : DeviceInput}
    (h : unjudged st i = true)
    (hdef : ∀ d, registers i.input.2 = some d → IsRebootUpgrade package d) :
    Upgrades package st i ∧ Honest package st i := by
  simp only [unjudged, Bool.and_eq_true, decide_eq_true_eq] at h
  obtain ⟨⟨hrecords, hsequential⟩, hinput⟩ := h
  have hnot : ∀ {call : ℕ} {c : Call}, (!(st.runtime.calls.get? call).any isJudged) = true →
      st.runtime.calls.get? call = some c → c.action.operation ≠ "device.verify_version" ∧
        c.action.operation ≠ "device.startup.rollback" := by
    intro call c hcall hc
    rw [hc] at hcall
    simpa [isJudged] using hcall
  refine ⟨⟨List.all_eq_true.1 hrecords, hsequential, ?_⟩, ?_⟩
  · obtain ⟨⟨now, input⟩, records⟩ := i
    cases input with
    | start definition | registerDefinition definition => exact fun _ => hdef definition rfl
    | finish call outcome =>
      cases outcome with
      | raised | invalid | timedOut => trivial
      | result result =>
        intro c hc _
        obtain ⟨hverify, hrollback⟩ := hnot hinput hc
        exact ⟨fun h => absurd h hverify, fun h => absurd h hrollback⟩
    | reconciled call outcome =>
      intro c hc _ hrollback
      exact absurd hrollback (hnot hinput hc).2
    | tick | reconcile | markInterrupted | recoverInflight | pause | resume | cancel
    | applyDecision | emit | lateEmit | abort | restart => trivial
  · obtain ⟨⟨now, input⟩, records⟩ := i
    cases input with
    | finish call outcome =>
      intro c hc _
      obtain ⟨hverify, hrollback⟩ := hnot hinput hc
      exact ⟨fun h => absurd h hverify, fun h => absurd h hrollback⟩
    | reconciled call outcome =>
      intro c hc _ hrollback
      exact absurd hrollback (hnot hinput hc).2
    | start | registerDefinition | tick | reconcile | markInterrupted | recoverInflight | pause
    | resume | cancel | applyDecision | emit | lateEmit | abort | restart => trivial

/-- An upgrade up to the end of the verification's command. -/
def untilVerify : List DeviceInput :=
  untilReboot ++ [succeeds 5 ["huawei.reboot.started"], plainly (.tick "r"),
    succeeds 6 ["huawei.cli.ready"], plainly (.tick "r"),
    plainly (.emit 7 { type := "huawei.startup.package.match", runId := "r" })]

/-- The verification reads an output. -/
def verifiedBy (output : String) : List DeviceInput :=
  untilVerify ++ [{
    input := (0, .finish 7 (.result (@verifyResult .atEpoch "v.cc" none {}
      (.ok { status := "completed", output := output }))))
    records := [.read "r" output] }]

/-- The device starts from the target, and will again. -/
def bothName : String :=
  "Current startup system software: v.cc\nNext startup system software: v.cc"

/-- The device will start from the target. -/
def nextNames : String := "Next startup system software: v.cc"

omit [PyLib] in
theorem isRebootUpgrade_deviceUpgrade :
    @IsRebootUpgrade .atEpoch "v.cc" (upgradeDefinition deviceUpgrade) := by
  let := PyLib.atEpoch
  exact ⟨deviceUpgradeInputs, deviceUpgrade, readUpgradeInputs_deviceUpgrade, rfl, rfl, rfl, rfl⟩

omit [PyLib] in
/-- Up to the verification nothing is judged. -/
theorem meets_untilVerify :
    @Machine.Meets _ _ (@deviceStep Unit .atEpoch none upgradeRuntime)
      (fun st i => @Upgrades .atEpoch Unit "v.cc" st i ∧ @Honest .atEpoch Unit "v.cc" st i)
      { runtime := { resources := () } } untilVerify := by
  let := PyLib.atEpoch
  have hunjudged : Machine.Meets (deviceStep (ρ := Unit) none upgradeRuntime)
      (fun st i => unjudged st i = true) { runtime := { resources := () } } untilVerify := by
    decide +kernel
  refine hunjudged.imp fun st i hi h => upgrades_of_unjudged h fun d hd => ?_
  have hdefinition : d = upgradeDefinition deviceUpgrade := by
    simp only [untilVerify, untilReboot, plainly, succeeds, List.cons_append, List.nil_append,
      List.mem_cons, List.not_mem_nil, or_false] at hi
    rcases hi with rfl | rfl | rfl | rfl | rfl | rfl | rfl | rfl | rfl | rfl | rfl | rfl | rfl |
      rfl | rfl | rfl | rfl <;> simp_all [registers]
  rw [hdefinition]
  exact isRebootUpgrade_deviceUpgrade

omit [PyLib] in
/-- The verification that is judged on an output. -/
theorem upgrades_verifiedBy (output : String) :
    @Machine.Meets _ _ (@deviceStep Unit .atEpoch none upgradeRuntime)
      (@Upgrades .atEpoch Unit "v.cc") { runtime := { resources := () } } (verifiedBy output) := by
  let := PyLib.atEpoch
  refine Machine.meets_append.2 ⟨meets_untilVerify.imp fun st i _ h => h.1, ⟨?_, trivial, ?_⟩, trivial⟩
  · intro record hrecord
    obtain rfl := List.mem_singleton.1 hrecord
    have hsuspended : ((deviceReached (ρ := Unit) none upgradeRuntime ()
        untilVerify).runtime.calls.values.any fun c => c.run.id == "r") = true := by decide +kernel
    exact hsuspended
  · intro c hc _
    have hcall : ((deviceReached (ρ := Unit) none upgradeRuntime ()
        untilVerify).runtime.calls.get? 7).map (fun c => c.action.operation) =
          some "device.verify_version" := by decide +kernel
    obtain ⟨c', hc', hoperation⟩ := Option.map_eq_some_iff.1 hcall
    obtain rfl := Option.some.inj (hc'.symm.trans hc)
    refine ⟨fun _ => ⟨none, {}, _, rfl, fun r hr => ?_⟩, fun hrollback => ?_⟩
    · obtain rfl := Except.ok.inj hr
      have hid : ((deviceReached (ρ := Unit) none upgradeRuntime ()
          untilVerify).runtime.calls.get? 7).map (fun c => c.run.id) = some "r" := by
        decide +kernel
      rw [hc'] at hid
      have hrun : c'.run.id = "r" := Option.some.inj hid
      rw [hrun]
      exact List.mem_singleton.2 rfl
    · rw [hoperation] at hrollback
      exact absurd hrollback (by decide)

omit [PyLib] in
/-- A device that starts from the target confirms the upgrade. -/
theorem confirmedUpgrades_bothName :
    @ConfirmedUpgrades .atEpoch Unit none upgradeRuntime "v.cc" () (verifiedBy bothName) := by
  let := PyLib.atEpoch
  refine confirmedUpgrades_of_honest none upgradeRuntime "v.cc" () (verifiedBy bothName)
    (upgrades_verifiedBy bothName)
    (Machine.meets_append.2 ⟨meets_untilVerify.imp fun st i _ h => h.2, ?_, trivial⟩)
  intro c hc _
  refine ⟨fun _ output hread _ => ?_, fun hrollback => ?_⟩
  · obtain ⟨-, rfl⟩ := DeviceRecord.read.inj (List.mem_singleton.1 hread)
    decide +kernel
  · have hcall : ((deviceReached (ρ := Unit) none upgradeRuntime ()
        untilVerify).runtime.calls.get? 7).map (fun c => c.action.operation) =
          some "device.verify_version" := by decide +kernel
    obtain ⟨c', hc', hoperation⟩ := Option.map_eq_some_iff.1 hcall
    obtain rfl := Option.some.inj (hc'.symm.trans hc)
    rw [hoperation] at hrollback
    exact absurd hrollback (by decide)

omit [PyLib] in
/-- The upgrade completes on an output that does not say what the device started from. -/
theorem not_confirmedUpgrades :
    @Machine.Meets _ _ (@deviceStep Unit .atEpoch none upgradeRuntime)
        (@Upgrades .atEpoch Unit "v.cc") { runtime := { resources := () } }
        (verifiedBy nextNames) ∧
      ¬ @ConfirmedUpgrades .atEpoch Unit none upgradeRuntime "v.cc" () (verifiedBy nextNames) := by
  let := PyLib.atEpoch
  refine ⟨upgrades_verifiedBy nextNames, fun h => ?_⟩
  have hbefore : ((deviceReached (ρ := Unit) none upgradeRuntime ()
      untilVerify).runtime.runs.get? "r").map (fun r => (r.currentState, r.definitionKey)) =
        some ("verify_version", upgradeKey) := by decide +kernel
  have hafter : ((deviceReached (ρ := Unit) none upgradeRuntime ()
      (verifiedBy nextNames)).runtime.runs.get? "r").map (fun r => r.currentState) =
        some "complete" := by decide +kernel
  have hlog : ((deviceReached (ρ := Unit) none upgradeRuntime ()
      (verifiedBy nextNames)).log.all fun record =>
        match record with
        | .read _ output => !namesCurrent output "v.cc"
        | _ => true) = true := by decide +kernel
  obtain ⟨r, hr, hplace⟩ := Option.map_eq_some_iff.1 hbefore
  obtain ⟨r', hr', hcomplete⟩ := Option.map_eq_some_iff.1 hafter
  obtain ⟨hplace, hkey⟩ := Prod.mk.inj hplace
  obtain ⟨first, record, rest, output, heq, -, hread, hnames⟩ :=
    h.verified untilVerify _ [] rfl "r" r r' hr hkey hr' hplace hcomplete
  have hmem : DeviceRecord.read "r" output ∈ (deviceReached (ρ := Unit) none upgradeRuntime ()
      (verifiedBy nextNames)).log := by
    have hall : DeviceRecord.read "r" output ∈ first ++ record :: rest :=
      List.mem_append_right _ (List.mem_cons_of_mem _ hread)
    exact heq ▸ hall
  have hnot := List.all_eq_true.1 hlog _ hmem
  dsimp only at hnot
  rw [hnames] at hnot
  cases hnot

end DeviceShell.Huawei
