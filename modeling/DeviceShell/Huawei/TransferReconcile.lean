import DeviceShell.Huawei.Reconcile

/-!
# The reconciliation of a transfer, and its verification

After an attempt whose outcome is not known, `reconcile` looks up the operation that the attempts
name, and judges by its status; the transfer step itself judges by the status and the byte counts.
An attempt may have lost its operation, so that the operation that is looked up is an older one's.
-/

namespace DeviceShell.Huawei

open Framework

variable [PyLib]

/-! ## Operations -/

/-- `OperationView`, as far as a snapshot of it or the verification reads it. -/
structure OperationView where
  operationId : String
  kind : String
  status : String
  stage : String
  message : String
  errorCode : String := ""
  revision : ℤ := 0
  progressPercent : ℤ := 0
  bytesTransferred : ℤ := 0
  totalBytes : ℤ := 0
  bytesPerSecond : ℤ := 0
  etaSeconds : Option ℤ := none
  data : Dict String Value := ∅

/-- `get_resource` of an operation. -/
def OperationView.snapshot (view : OperationView) : Dict String Value :=
  ⟨[("operation_id", .str view.operationId), ("kind", .str view.kind), ("status", .str view.status),
    ("stage", .str view.stage), ("message", .str view.message), ("error_code", .str view.errorCode),
    ("revision", .int view.revision), ("progress_percent", .int view.progressPercent),
    ("bytes_transferred", .int view.bytesTransferred), ("total_bytes", .int view.totalBytes),
    ("bytes_per_second", .int view.bytesPerSecond),
    ("eta_seconds", (view.etaSeconds.map Value.int).getD .none), ("data", .ofDict view.data)]⟩

/-- Whether `TerminalTransferActivityAdapter.verify` accepts an operation, for the status that was
observed. -/
def verifyTransfer (observed : String) (view : OperationView) : Bool :=
  if observed ≠ "completed" then false
  else if view.status ≠ "completed" then false
  else !(view.totalBytes > 0 ∧ view.bytesTransferred ≠ view.totalBytes)

/-- The operations that can be looked up, and the other probes. -/
def DevicePorts.withOperations (ports : DevicePorts)
    (operations : String → Except ProbeError OperationView) : DevicePorts :=
  { ports with operation := fun id => (operations id).map OperationView.snapshot }

/-! ## Attempts -/

/-- What an attempt says of its operation. -/
def recordedOperation? (a : ActionAttempt) : Option String :=
  let direct := strip (Value.strOr (a.result.get? "operation_id") "")
  if direct ≠ "" then some direct
  else ((a.result.get? "data").bind Value.asDict?).map fun nested =>
    strip (Value.strOr (nested.get? "operation_id") "")

/-- The attempts of an action. -/
def attemptsOf (run : WorkflowRun) (actionId : String) : List ActionAttempt :=
  run.attempts.filter fun a => a.actionId == actionId

/-- The last attempt that says something of its operation. -/
def lastRecorded? (run : WorkflowRun) (actionId : String) : Option (ActionAttempt × String) :=
  (attemptsOf run actionId).reverse.findSome? fun a => (recordedOperation? a).map (a, ·)

/-- A history of attempts, with the operation that each of them started, if it did. An attempt may
have lost its operation, but it records no other; and two attempts start different ones. -/
structure TransferHistory (run : WorkflowRun) (actionId : String) where
  started : ActionAttempt → Option String
  recorded : ∀ a ∈ attemptsOf run actionId, ∀ id, recordedOperation? a = some id → id ≠ "" →
    started a = some id
  distinct : ∀ a ∈ attemptsOf run actionId, ∀ b ∈ attemptsOf run actionId, ∀ id,
    started a = some id → started b = some id → a = b

/-- A reconciliation of a transfer that agrees with its verification. -/
structure ReconcileAgrees (action : ActionSpec) (package : String) (run : WorkflowRun)
    (history : TransferHistory run action.id)
    (operations : String → Except ProbeError OperationView) : Prop where
  /-- Success is that of the operation that the latest attempt started: the evidence is about it, and
  the step's own verification accepts it. -/
  success : ∀ reason (ports : DevicePorts) result,
    huaweiReconcile "huawei.reconcile.transfer" action package run reason
        (ports.withOperations operations) = some result →
      result.classification = ReconcileClassification.success.value →
        ∃ a id view, (attemptsOf run action.id).getLast? = some a ∧ history.started a = some id ∧
          (∃ item ∈ result.evidence, item.get? "operation_id" = some (.str id)) ∧
          operations id = .ok view ∧ verifyTransfer "completed" view = true
  /-- Nothing is reported as not started, whatever still runs. -/
  running : ∀ reason (ports : DevicePorts) result,
    huaweiReconcile "huawei.reconcile.transfer" action package run reason
        (ports.withOperations operations) = some result →
      result.classification ≠ ReconcileClassification.notStarted.value

/-- The statuses that are read as success. -/
def readsAsSuccess (status : String) : Bool :=
  ["completed", "success", "succeeded"].contains (PyLib.casefold status)

/-! ## What is looked up -/

theorem lastOperationId_eq (run : WorkflowRun) (actionId : String) :
    lastOperationId run actionId = ((lastRecorded? run actionId).map Prod.snd).getD "" := by
  have hfind (l : List ActionAttempt) : l.findSome? recordedOperation? =
      (l.findSome? fun a => (recordedOperation? a).map (a, ·)).map Prod.snd := by
    induction l with
    | nil => rfl
    | cons a l ih =>
      rw [List.findSome?_cons, List.findSome?_cons]
      cases recordedOperation? a with
      | none => exact ih
      | some id => rfl
  unfold lastOperationId lastRecorded? attemptsOf
  rw [← hfind, List.filter_reverse]
  rfl

theorem recorded_of_lastRecorded {run : WorkflowRun} {actionId : String} {a : ActionAttempt}
    {id : String} (h : lastRecorded? run actionId = some (a, id)) :
    a ∈ attemptsOf run actionId ∧ recordedOperation? a = some id := by
  obtain ⟨b, hb, hrecorded⟩ := List.exists_of_findSome?_eq_some h
  obtain ⟨id', hid, hpair⟩ := Option.map_eq_some_iff.mp hrecorded
  cases hpair
  exact ⟨List.mem_reverse.mp hb, hid⟩

/-- The reconciliation of a transfer. -/
theorem huaweiReconcile_transfer {action : ActionSpec} (haction : action.operation ≠ "device.wait_online")
    (package : String) (run : WorkflowRun) (reason : String) (ports : DevicePorts) :
    huaweiReconcile "huawei.reconcile.transfer" action package run reason ports =
      reconcileTransfer action.id run
        [⟨[("reason", .str reason), ("provider", .str "huawei.reconcile.transfer")]⟩] ports := by
  have honline : endsWith "huawei.reconcile.transfer" "online" = false := by decide
  have hreboot : endsWith "huawei.reconcile.transfer" "reboot" = false := by decide
  have htransfer : endsWith "huawei.reconcile.transfer" "transfer" = true := by decide
  unfold huaweiReconcile
  dsimp only
  rw [honline, hreboot, htransfer, if_neg (by simpa using haction), if_neg Bool.false_ne_true,
    if_pos rfl]

omit [PyLib] in
theorem status_snapshot [PyLib] (view : OperationView) :
    Value.strOr (view.snapshot.get? "status") "" = view.status := by
  show (if (Value.str view.status).truthy then view.status else "") = view.status
  split_ifs with htruthy
  · rfl
  · have hempty : view.status = "" := by simpa [Value.truthy] using htruthy
    rw [hempty]

/-- The item of the evidence about an operation. -/
def operationEvidence (id status : String) : Dict String Value :=
  ⟨[("probe", .str "operation"), ("operation_id", .str id), ("status", .str status)]⟩

/-- What a transfer's reconciliation answers about an operation that is found. -/
theorem reconcileTransfer_found {actionId : String} {run : WorkflowRun}
    (evidence : List (Dict String Value)) (ports : DevicePorts)
    {operations : String → Except ProbeError OperationView} {view : OperationView}
    (hid : lastOperationId run actionId ≠ "")
    (hview : operations (lastOperationId run actionId) = .ok view) :
    ∃ result, reconcileTransfer actionId run evidence (ports.withOperations operations) =
        some result ∧
      result.evidence = evidence ++ [operationEvidence (lastOperationId run actionId)
        (PyLib.casefold view.status)] ∧
      (result.classification = ReconcileClassification.success.value ↔
        readsAsSuccess view.status = true) ∧
      result.classification ≠ ReconcileClassification.notStarted.value := by
  have hoperation : (ports.withOperations operations).operation (lastOperationId run actionId) =
      .ok view.snapshot := by
    show (operations _).map _ = _
    rw [hview]
    rfl
  have hstarted (c : ReconcileClassification) (hc : c ≠ .notStarted) :
      c.value ≠ ReconcileClassification.notStarted.value := by
    cases c <;> first | exact absurd rfl hc | decide
  have hother (c : ReconcileClassification) (hc : c ≠ .success)
      (hstatus : readsAsSuccess view.status ≠ true) :
      c.value = ReconcileClassification.success.value ↔ readsAsSuccess view.status = true := by
    cases c with
    | success => exact absurd rfl hc
    | notStarted | inProgress | failed | indeterminate =>
      constructor
      · intro h
        exact absurd h (by decide)
      · intro h
        exact absurd h hstatus
  unfold reconcileTransfer
  dsimp only
  rw [if_neg hid, hoperation]
  dsimp only
  rw [status_snapshot]
  split_ifs with hsuccess hrunning hfailed
  · exact ⟨_, rfl, rfl, ⟨fun _ => hsuccess, fun _ => rfl⟩, hstarted .success (by decide)⟩
  · exact ⟨_, rfl, rfl, hother .inProgress (by decide) hsuccess,
      hstarted .inProgress (by decide)⟩
  · exact ⟨_, rfl, rfl, hother .failed (by decide) hsuccess,
      hstarted .failed (by decide)⟩
  · exact ⟨_, rfl, rfl, hother .indeterminate (by decide) hsuccess,
      hstarted .indeterminate (by decide)⟩

/-- Without an operation that is found, nothing is confirmed. -/
theorem reconcileTransfer_missing {actionId : String} {run : WorkflowRun}
    {evidence : List (Dict String Value)} {ports : DevicePorts}
    {operations : String → Except ProbeError OperationView} {result : ReconcileResult}
    (h : lastOperationId run actionId = "" ∨
      ∃ e, operations (lastOperationId run actionId) = .error e)
    (hresult : reconcileTransfer actionId run evidence (ports.withOperations operations) =
      some result) :
    result.classification = ReconcileClassification.indeterminate.value := by
  unfold reconcileTransfer at hresult
  dsimp only at hresult
  split_ifs at hresult with hid
  · cases hresult
    rfl
  · obtain ⟨e, he⟩ := h.resolve_left hid
    have hoperation : (ports.withOperations operations).operation (lastOperationId run actionId) =
        .error e := by
      show (operations _).map _ = _
      rw [he]
      rfl
    rw [hoperation] at hresult
    cases e with
    | caught message code =>
      cases hresult
      rfl
    | escaping => cases hresult

/-! ## The theorem -/

/-- Probes that are not asked. -/
def DevicePorts.unused : DevicePorts where
  openSession := .error .escaping
  probeCli := .error .escaping
  operation _ := .error .escaping
  displayStartup := .error .escaping

/-- The reconciliation agrees with the verification where the operation that is named last, if it
reads as a success, is named by the latest attempt and has completed with all its bytes. -/
theorem reconcileAgrees_iff {action : ActionSpec} (haction : action.operation ≠ "device.wait_online")
    (package : String) (run : WorkflowRun) (history : TransferHistory run action.id)
    (operations : String → Except ProbeError OperationView) :
    ReconcileAgrees action package run history operations ↔
      ∀ a id view, lastRecorded? run action.id = some (a, id) → id ≠ "" →
        operations id = .ok view → readsAsSuccess view.status = true →
          (attemptsOf run action.id).getLast? = some a ∧ view.status = "completed" ∧
            (0 < view.totalBytes → view.bytesTransferred = view.totalBytes) := by
  have hverify (view : OperationView) : verifyTransfer "completed" view = true ↔
      view.status = "completed" ∧
        (0 < view.totalBytes → view.bytesTransferred = view.totalBytes) := by
    unfold verifyTransfer
    by_cases hstatus : view.status = "completed"
    · simp [hstatus, imp_iff_not_or]
    · simp [hstatus]
  constructor
  · intro h a id view hlast hid hview hsuccess
    obtain ⟨ha, hrecorded⟩ := recorded_of_lastRecorded hlast
    have hlookup : lastOperationId run action.id = id := by
      rw [lastOperationId_eq, hlast]
      rfl
    obtain ⟨result, hresult, hevidence, hiff, -⟩ := reconcileTransfer_found
      [⟨[("reason", .str ""), ("provider", .str "huawei.reconcile.transfer")]⟩]
      DevicePorts.unused (by rwa [hlookup]) (by rwa [hlookup])
    obtain ⟨b, id', view', hb, hstarted, ⟨item, hitem, hoperation⟩, hview', haccepted⟩ :=
      h.success "" DevicePorts.unused result
        ((huaweiReconcile_transfer haction package run "" _).trans hresult) (hiff.mpr hsuccess)
    -- The evidence names the operation that was looked up.
    obtain rfl : id = id' := by
      rw [hevidence, List.mem_append, List.mem_singleton, List.mem_singleton] at hitem
      rcases hitem with rfl | rfl
      · cases hoperation
      · have hsame : some (Value.str (lastOperationId run action.id)) = some (.str id') := hoperation
        rw [hlookup] at hsame
        cases hsame
        rfl
    obtain rfl : view = view' := Except.ok.inj (hview.symm.trans hview')
    have hmem : b ∈ attemptsOf run action.id := List.mem_of_getLast? hb
    obtain rfl : a = b :=
      history.distinct a ha b hmem id (history.recorded a ha id hrecorded hid) hstarted
    exact ⟨hb, (hverify view).mp haccepted⟩
  · intro h
    have hcases (reason : String) (ports : DevicePorts) (result : ReconcileResult)
        (hresult : huaweiReconcile "huawei.reconcile.transfer" action package run reason
          (ports.withOperations operations) = some result) :
        result.classification ≠ ReconcileClassification.notStarted.value ∧
          (result.classification = ReconcileClassification.success.value →
            ∃ a id view, lastRecorded? run action.id = some (a, id) ∧ id ≠ "" ∧
              operations id = .ok view ∧ readsAsSuccess view.status = true ∧
              operationEvidence id (PyLib.casefold view.status) ∈ result.evidence) := by
      rw [huaweiReconcile_transfer haction] at hresult
      by_cases hid : lastOperationId run action.id = ""
      · rw [reconcileTransfer_missing (.inl hid) hresult]
        exact ⟨by decide, fun hsuccess => absurd hsuccess (by decide)⟩
      · cases hview : operations (lastOperationId run action.id) with
        | error e =>
          rw [reconcileTransfer_missing (.inr ⟨e, hview⟩) hresult]
          exact ⟨by decide, fun hsuccess => absurd hsuccess (by decide)⟩
        | ok view =>
          obtain ⟨result', hfound, hevidence, hiff, hstarted⟩ :=
            reconcileTransfer_found _ ports hid hview
          obtain rfl : result' = result := Option.some.inj (hfound.symm.trans hresult)
          refine ⟨hstarted, fun hsuccess => ?_⟩
          cases hlast : lastRecorded? run action.id with
          | none =>
            rw [lastOperationId_eq, hlast] at hid
            exact absurd rfl hid
          | some recorded =>
            have hlookup : lastOperationId run action.id = recorded.2 := by
              rw [lastOperationId_eq, hlast]
              rfl
            rw [hlookup] at hid hview hevidence
            refine ⟨recorded.1, recorded.2, view, rfl, hid, hview, hiff.mp hsuccess, ?_⟩
            rw [hevidence]
            simp
    constructor
    · intro reason ports result hresult hsuccess
      obtain ⟨a, id, view, hlast, hid, hview, hreads, hitem⟩ :=
        (hcases reason ports result hresult).2 hsuccess
      obtain ⟨hlatest, haccepted⟩ := h a id view hlast hid hview hreads
      obtain ⟨ha, hrecorded⟩ := recorded_of_lastRecorded hlast
      exact ⟨a, id, view, hlatest, history.recorded a ha id hrecorded hid, ⟨_, hitem, rfl⟩, hview,
        (hverify view).mpr haccepted⟩
    · intro reason ports result hresult
      exact (hcases reason ports result hresult).1

/-! ## A transfer that was lost -/

/-- An attempt whose operation is recorded. -/
def recordedAttempt : ActionAttempt where
  id := "a1"
  actionId := "transfer"
  attempt := 1
  result := ⟨[("operation_id", .str "op-1")]⟩

/-- An attempt whose operation is lost. -/
def lostAttempt : ActionAttempt where
  id := "a2"
  actionId := "transfer"
  attempt := 2

/-- The run of a transfer that was attempted twice. -/
def retriedTransfer : WorkflowRun where
  id := "run"
  workflowId := "network.package_upgrade"
  workflowVersion := "1"
  deviceId := "device"
  attempts := [recordedAttempt, lostAttempt]

/-- The action. -/
def transferAction : ActionSpec where
  id := "transfer"
  operation := "device.transfer"

/-- The first operation has completed, the second still runs. -/
def retriedOperations (id : String) : Except ProbeError OperationView :=
  .ok {
    operationId := id
    kind := "transfer"
    status := if id = "op-1" then "completed" else "running"
    stage := ""
    message := "" }

omit [PyLib]

/-- Each attempt has started an operation of its own. -/
def retriedHistory : @TransferHistory PyLib.atEpoch retriedTransfer transferAction.id :=
  let := PyLib.atEpoch
  have hmem {a : ActionAttempt} (ha : a ∈ attemptsOf retriedTransfer transferAction.id) :
      a = recordedAttempt ∨ a = lostAttempt := by
    simpa [retriedTransfer] using (List.mem_filter.mp ha).1
  { started := fun a => if a.id = "a1" then some "op-1" else some "op-2"
    recorded := by
      intro a ha id hrecorded hne
      rcases hmem ha with rfl | rfl
      · have hfirst : recordedOperation? recordedAttempt = some "op-1" := by decide +kernel
        exact hfirst.symm.trans hrecorded
      · have hlost : recordedOperation? lostAttempt = none := by decide +kernel
        cases hlost.symm.trans hrecorded
    distinct := by
      intro a ha b hb id hstarted hstarted'
      have hne : ("op-1" : String) ≠ "op-2" := by decide
      rcases hmem ha with rfl | rfl <;> rcases hmem hb with rfl | rfl
      · rfl
      · exact absurd (Option.some.inj (hstarted.trans hstarted'.symm)) hne
      · exact absurd (Option.some.inj (hstarted'.trans hstarted.symm)) hne
      · rfl }

theorem reconcileAgrees_iff_retried :
    letI := PyLib.atEpoch
    ReconcileAgrees transferAction "" retriedTransfer retriedHistory retriedOperations ↔
      ∀ a id view, lastRecorded? retriedTransfer transferAction.id = some (a, id) → id ≠ "" →
        retriedOperations id = .ok view → readsAsSuccess view.status = true →
          (attemptsOf retriedTransfer transferAction.id).getLast? = some a ∧
            view.status = "completed" ∧
            (0 < view.totalBytes → view.bytesTransferred = view.totalBytes) :=
  letI := PyLib.atEpoch
  reconcileAgrees_iff (by decide) "" retriedTransfer retriedHistory retriedOperations

/-- The operation of the first attempt confirms the second, whose operation still runs. -/
theorem not_reconcileAgrees_retried :
    letI := PyLib.atEpoch
    ¬ReconcileAgrees transferAction "" retriedTransfer retriedHistory retriedOperations := by
  let := PyLib.atEpoch
  intro h
  have haction : transferAction.operation ≠ "device.wait_online" := by decide
  have hlookup : lastOperationId retriedTransfer transferAction.id = "op-1" := by decide +kernel
  have hfound : retriedOperations (lastOperationId retriedTransfer transferAction.id) = .ok _ := rfl
  obtain ⟨result, hresult, hevidence, hiff, -⟩ := reconcileTransfer_found
    [⟨[("reason", .str ""), ("provider", .str "huawei.reconcile.transfer")]⟩]
    DevicePorts.unused (by rw [hlookup]; decide) hfound
  have hreads : readsAsSuccess "completed" = true := by decide +kernel
  have hsuccess := hiff.mpr (by rw [hlookup]; exact hreads)
  obtain ⟨a, id, view, ha, hstarted, -, hview, haccepted⟩ := h.success "" DevicePorts.unused result
    ((huaweiReconcile_transfer haction "" retriedTransfer "" _).trans hresult) hsuccess
  have hlatest : (attemptsOf retriedTransfer transferAction.id).getLast? = some lostAttempt := rfl
  obtain rfl := Option.some.inj (hlatest.symm.trans ha)
  have hsecond : retriedHistory.started lostAttempt = some "op-2" := rfl
  obtain rfl := Option.some.inj (hsecond.symm.trans hstarted)
  cases hview
  have hrejected : verifyTransfer "completed" {
      operationId := "op-2", kind := "transfer", status := "running", stage := "",
      message := "" } = false := by decide
  exact absurd (hrejected.symm.trans haccepted) Bool.false_ne_true

end DeviceShell.Huawei
