import DeviceShell.Lib.Lending
import DeviceShell.Terminal.Coordinator
import DeviceShell.Terminal.RunnerProgress
import Mathlib.Data.Finset.Basic

/-!
# Who holds the lease of a session

`Exclusive` says what the leases of a coordinator are for: at most one execution per session runs,
and a session is leased while its execution runs or an external owner has acquired it. A refused
start or resume is to leave everything as it was.

`resume` does not keep this. The execution that it is asked for may be running, and hold its
session's lease; the runner refuses then, and the rollback takes that lease away, so that another
execution can start (`not_sessionExclusivity_resumeRunning`). `sessionExclusivity_of_allowed` shows
that every run keeps it whose operations are `Allowed`: no running execution is resumed, the ids of
executions and of external owners differ, and an external owner acquires one session at a time. The
proof reads the coordinator as a `Lending`, whose invariant each operation keeps.
-/

namespace DeviceShell.Terminal

open Method

/-! ## What is to hold -/

/-- A session that an external owner has acquired, with the owner. -/
abbrev Hold := String × String

/-- Leases and running executions agree. -/
structure Exclusive (c : Coordinator) (holds : Finset Hold) : Prop where
  /-- At most one execution per session is running. -/
  single : ∀ a b ra rb, c.executions.get? a = some ra → c.executions.get? b = some rb →
    ra.isRunning = true → rb.isRunning = true → ra.sessionId = rb.sessionId → a = b
  /-- A running execution has the lease of its session. -/
  leased : ∀ id r, c.executions.get? id = some r → r.isRunning = true →
    c.sessionLeases.get? r.sessionId = some id
  /-- Who has the lease of a session is its running execution or an external owner. -/
  held : ∀ sessionId holder, c.sessionLeases.get? sessionId = some holder →
    (∃ r, c.executions.get? holder = some r ∧ r.isRunning = true ∧ r.sessionId = sessionId) ∨
      (sessionId, holder) ∈ holds
  /-- A session that an external owner has acquired is leased. -/
  owned : ∀ sessionId ownerId, (sessionId, ownerId) ∈ holds →
    (c.sessionLeases.get? sessionId).isSome

/-- What an external owner has acquired after an operation on the coordinator: a takeover ends what
the owner has that holds the lease. -/
def Operation.holdsAfter (c : Coordinator) (result : Except ExecutionError Unit)
    (holds : Finset Hold) : Operation → Finset Hold
  | .acquireExternalLease sessionId ownerId _ =>
    if result.isOk then insert (sessionId, ownerId) holds else holds
  | .releaseExternalLease sessionId ownerId => holds.erase (sessionId, ownerId)
  | .cancelForUserInput sessionId => match c.sessionLeases.get? sessionId with
    | some holder =>
      if (c.executions.get? holder).isNone && c.externalLeaseCancellers.contains holder then
        holds.erase (sessionId, holder)
      else holds
    | none => holds
  | _ => holds

/-- Whether an operation starts or resumes an execution. -/
def Operation.starts : Operation → Bool
  | .start _ => true
  | .resume _ => true
  | _ => false

/-- A refusal, as the coordinator and the runner raise it. -/
def ExecutionError.IsRefusal : ExecutionError → Prop
  | .terminalPlan _ _ _ => True
  | .python _ => False

/-- Whether a start or a resume of an execution gets its steps armed: every timeout is a number of
milliseconds, every control has a payload, and a secret that is missing is raised as one. -/
structure Execution.Schedulable [PyLib] (x : Execution) : Prop where
  total : ∃ delay, milliseconds x.plan.totalTimeoutSeconds = .ok delay
  expect : ∀ step, .expect step ∈ x.plan.steps →
    ∃ delay, milliseconds step.timeoutSeconds = .ok delay
  waitState : ∀ step, .waitState step ∈ x.plan.steps →
    ∃ delay, milliseconds step.timeoutSeconds = .ok delay
  send : ∀ step, .send step ∈ x.plan.steps → step.control ≠ "" →
    ∃ payload, controlText.lookup step.control = some payload
  secret : ∀ secretRef e, x.resolveSecret secretRef = .error e →
    ∃ text, e = .keyError text ∨ e = .valueError text

section

variable [PyLib]

/-- An id that a new execution may get: it is not that of a running execution or of an external
owner. -/
def Coordinator.IsFresh (c : Coordinator) (id : String) : Prop :=
  id ≠ "" ∧ (∀ r, c.executions.get? id = some r → r.isRunning = false) ∧
    c.externalLeaseCancellers.get? id = none

/-- The operations that keep the leases. -/
def Allowed (c : Coordinator) (holds : Finset Hold) : Operation → Prop
  | .start request => request.existing c = none → ∀ parentId, request.parent c = .ok parentId →
    c.IsFresh request.runId
  | .resume executionId => ∀ r, c.executions.get? executionId = some r →
    c.sessionLeases.get? r.sessionId ≠ some executionId ∧
      (r.runner.status = .cancelledByUser → r.execution.Schedulable)
  | .acquireExternalLease sessionId ownerId _ =>
    (∀ holder, c.sessionLeases.get? sessionId = some holder → holder = ownerId) →
      ownerId ≠ "" ∧ c.executions.get? ownerId = none ∧
      (∀ other, (other, ownerId) ∈ holds → other = sessionId) ∧
      ∀ id r, c.executions.get? id = some r → c.runnerParentLeases.get? id = some ownerId →
        r.sessionId = sessionId
  | .releaseExternalLease sessionId ownerId =>
    (∀ other, (other, ownerId) ∈ holds → other = sessionId) ∧
      (c.sessionLeases.get? sessionId = some ownerId → (sessionId, ownerId) ∈ holds)
  | _ => True

variable [PyRe]

/-- The states that a coordinator reaches by operations that are admitted, with what external owners
have acquired. -/
inductive Coordinator.Reaches (services : Services)
    (admits : Coordinator → Finset Hold → Operation → Prop) : Coordinator → Finset Hold → Prop
  | created : Reaches services admits {} ∅
  | performed {c c' : Coordinator} {holds : Finset Hold} {fuel : ℕ} {operation : Operation}
      {result : Except ExecutionError Unit} (reached : Reaches services admits c holds)
      (admitted : admits c holds operation)
      (performs : (perform services fuel operation).run c = some (result, c')) :
      Reaches services admits c' (operation.holdsAfter c result holds)

/-- What the coordinator promises of every run whose operations are admitted. -/
structure SessionExclusivity (services : Services)
    (admits : Coordinator → Finset Hold → Operation → Prop) : Prop where
  exclusive : ∀ c holds, Coordinator.Reaches services admits c holds → Exclusive c holds
  /-- A refused start or resume leaves everything as it was. -/
  refused : ∀ c c' holds fuel operation e, Coordinator.Reaches services admits c holds →
    admits c holds operation → operation.starts = true →
    (perform services fuel operation).run c = some (.error e, c') → e.IsRefusal → c' = c

omit [PyRe]

/-! ## What a start raises -/

/-- What may be raised where an execution goes on: no refusal, and nothing at all where the
execution is schedulable. -/
def Execution.Fault (x : Execution) (e : ExecutionError) : Prop := ¬e.IsRefusal ∧ ¬x.Schedulable

variable {x : Execution}

theorem fault_of_python {e : PyError} (h : ¬x.Schedulable) : x.Fault (.python e) :=
  ⟨not_false, h⟩

theorem schedule_raises {seconds : PyFloat} (timer : Timer)
    (h : x.Schedulable → ∃ delay, milliseconds seconds = .ok delay) :
    RaisesOnly x.Fault (schedule seconds timer) := by
  unfold schedule
  cases hdelay : milliseconds seconds with
  | ok delay => exact raisesOnly_modify
  | error e =>
    refine raisesOnly_throw (fault_of_python fun hx => ?_)
    obtain ⟨delay, hok⟩ := h hx
    exact absurd (hdelay.symm.trans hok) (by simp)

theorem armWait_raises (kind : StepKind) (label : String) {seconds : PyFloat}
    (h : x.Schedulable → ∃ delay, milliseconds seconds = .ok delay) :
    RaisesOnly x.Fault (armWait x kind label seconds) := by
  unfold armWait
  exact raisesOnly_modify.bind fun _ => raisesOnly_get fun s => schedule_raises _ h s

theorem inputFor_raises (text secretRef secretPrefix secretSuffix : String) {control : String}
    (appendEnter : Bool) (h : x.Schedulable → control ≠ "" →
      ∃ payload, controlText.lookup control = some payload) :
    RaisesOnly (fun e => e.IsRefusal ∨ x.Fault e)
      (inputFor x text control secretRef secretPrefix secretSuffix appendEnter) := by
  unfold inputFor
  refine RaisesOnly.ite (fun hcontrol => ?_) fun _ => RaisesOnly.ite (fun _ => ?_) fun _ => ?_
  · cases hpayload : controlText.lookup control with
    | some payload => exact raisesOnly_pure
    | none =>
      refine raisesOnly_throw (.inr (fault_of_python fun hx => ?_))
      obtain ⟨payload, hsome⟩ := h hx hcontrol
      exact absurd (hpayload.symm.trans hsome) (by simp)
  · cases hvalue : x.resolveSecret secretRef with
    | ok value =>
      refine RaisesOnly.ite (fun _ => raisesOnly_throw (.inl trivial)) fun _ => ?_
      exact raisesOnly_modify.bind fun _ => raisesOnly_pure
    | error e =>
      have hpython : ∀ e', x.resolveSecret secretRef = .error e' →
          (∀ text, e' ≠ .keyError text) → (∀ text, e' ≠ .valueError text) →
          x.Fault (.python e') := by
        intro e' he' hkey hvalue'
        refine fault_of_python fun hx => ?_
        obtain ⟨text, hkey' | hvalue''⟩ := hx.secret secretRef e' he'
        · exact hkey text hkey'
        · exact hvalue' text hvalue''
      split
      · exact raisesOnly_throw (.inl trivial)
      · exact raisesOnly_throw (.inl trivial)
      · rename_i e' hkey hvalue' heq
        refine raisesOnly_throw (.inr (hpython e' ?_ hkey hvalue'))
        exact hvalue.trans heq
      · rename_i heq
        exact absurd heq (by simp)
  · exact raisesOnly_pure

theorem runSend_raises {step : SendStep} (hstep : .send step ∈ x.plan.steps) :
    RaisesOnly x.Fault (runSend x step) := by
  have hsend : ∀ nextIndex, RaisesOnly (fun e => e.IsRefusal ∨ x.Fault e)
      (sendStep x step nextIndex) := by
    intro nextIndex
    unfold sendStep
    refine (inputFor_raises _ _ _ _ _ fun hx hcontrol => hx.send step hstep hcontrol).bind ?_
    intro payload
    refine raisesOnly_modify.bind fun _ => ?_
    split
    · rename_i next hnext
      have harm : RaisesOnly x.Fault (armWait x .expect next.label next.timeoutSeconds) :=
        armWait_raises _ _ fun hx => hx.expect next (List.mem_of_getElem? hnext)
      have hweak : RaisesOnly (fun e => e.IsRefusal ∨ x.Fault e)
          (armWait x .expect next.label next.timeoutSeconds) := fun s =>
        (harm s).mono fun _ _ hr e he => .inr (hr e he)
      refine hweak.bind fun _ => raisesOnly_get fun s => ?_
      exact (raisesOnly_modify.bind fun _ => raisesOnly_get fun _ => raisesOnly_pure _) s
    · exact raisesOnly_modify.bind fun _ => raisesOnly_pure
  unfold runSend
  refine raisesOnly_modify.bind fun _ => raisesOnly_get fun s => ?_
  refine RaisesOnly.tryCatch (hsend _) (fun e he => ?_) s
  cases e with
  | terminalPlan code message details => exact raisesOnly_modify.bind fun _ => raisesOnly_pure
  | python e => exact raisesOnly_throw (he.resolve_left not_false)

theorem advance_raises (fuel : ℕ) : RaisesOnly x.Fault (advance x fuel) := by
  induction fuel with
  | zero => exact raisesOnly_exhausted
  | succ fuel ih =>
    refine raisesOnly_get fun s => ?_
    refine RaisesOnly.ite (fun _ => raisesOnly_pure) (fun _ => ?_) s
    split
    · exact raisesOnly_modify
    · rename_i step hstep
      refine (runSend_raises (List.mem_of_getElem? hstep)).bind fun armed => ?_
      exact RaisesOnly.ite (fun _ => raisesOnly_pure) fun _ => ih
    · rename_i step hstep
      exact armWait_raises _ _ fun hx => hx.expect step (List.mem_of_getElem? hstep)
    · rename_i step hstep
      exact armWait_raises _ _ fun hx => hx.waitState step (List.mem_of_getElem? hstep)

/-- A start raises no refusal. -/
theorem start_raises (fuel : ℕ) : RaisesOnly x.Fault (start x fuel) := by
  refine raisesOnly_get fun s => ?_
  refine RaisesOnly.ite (fun _ => raisesOnly_pure) (fun _ => ?_) s
  refine raisesOnly_modify.bind fun _ => ?_
  exact (schedule_raises _ fun hx => hx.total).bind fun _ => advance_raises fuel

/-- An execution that has been taken over is not refused to resume. -/
theorem resume_raises (fuel : ℕ) {s : Runner} (h : s.status = .cancelledByUser) :
    Ensures (resume x fuel) s fun r _ => ∀ e, r = .error e → x.Fault e := by
  refine ensures_get (Ensures.ite (fun hnot => absurd h hnot) fun _ => ?_)
  refine ensures_modify_bind ?_
  exact ((schedule_raises _ fun hx => hx.total).bind fun _ => advance_raises fuel) _

end

/-! ## The coordinator as a lending -/

namespace Coordinator

/-- The leases of the sessions, with the running executions as tenants and the owners that can be
cancelled as those that are known. -/
def lending (c : Coordinator) (holds : Finset Hold) : Lending String String where
  lease := c.sessionLeases.get?
  runs id := (c.executions.get? id).bind fun r => if r.isRunning then some r.sessionId else none
  lender := c.runnerParentLeases.get?
  known := {o | c.externalLeaseCancellers.contains o = true}
  holds := {hold | hold ∈ holds}

variable {c : Coordinator} {holds : Finset Hold}

theorem runs_eq_some {id sessionId : String} : (c.lending holds).runs id = some sessionId ↔
    ∃ r, c.executions.get? id = some r ∧ r.isRunning = true ∧ r.sessionId = sessionId := by
  simp only [lending, Option.bind_eq_some_iff]
  refine exists_congr fun r => and_congr_right fun _ => ?_
  cases hrunning : r.isRunning <;> simp

theorem runs_eq_none {id : String} : (c.lending holds).runs id = none ↔
    ∀ r, c.executions.get? id = some r → r.isRunning = false := by
  rw [Option.eq_none_iff_forall_ne_some]
  constructor
  · intro h r hr
    by_contra hrunning
    exact h r.sessionId (runs_eq_some.mpr ⟨r, hr, by simpa using hrunning, rfl⟩)
  · intro h sessionId hruns
    obtain ⟨r, hr, hrunning, -⟩ := runs_eq_some.mp hruns
    rw [h r hr] at hrunning
    exact absurd hrunning (by simp)

/-- Executions and external owners are told apart by their ids. -/
structure Named (c : Coordinator) : Prop where
  identified : ∀ id r, c.executions.get? id = some r → r.execution.executionId = id
  begun : ∀ id r, c.executions.get? id = some r → r.runner.status ≠ .pending
  /-- The empty text is no id. -/
  nonempty : c.executions.get? "" = none ∧ c.externalLeaseCancellers.get? "" = none
  /-- An external owner is no execution. -/
  apart : ∀ id, c.executions.get? id = none ∨ c.externalLeaseCancellers.get? id = none

/-- The coordinator and what external owners have acquired agree. -/
structure Consistent (c : Coordinator) (holds : Finset Hold) : Prop where
  named : c.Named
  sound : (c.lending holds).Sound

theorem Consistent.created : Consistent {} ∅ := by
  constructor
  · exact ⟨by simp, by simp, ⟨rfl, rfl⟩, fun _ => .inl rfl⟩
  · constructor <;> simp [lending, Dict.contains]

theorem not_known_of_get? {id : String} (h : c.externalLeaseCancellers.get? id = none) :
    id ∉ (c.lending holds).known := by
  simp [lending, Dict.contains, h]

theorem known_of_get? {id onCancel : String}
    (h : c.externalLeaseCancellers.get? id = some onCancel) : id ∈ (c.lending holds).known := by
  simp [lending, Dict.contains, h]

/-- What holds a lease is not the empty text. -/
theorem Consistent.lease_ne (h : Consistent c holds) {sessionId holder : String}
    (hlease : c.sessionLeases.get? sessionId = some holder) : holder ≠ "" := by
  rintro rfl
  rcases h.sound.held sessionId "" hlease with hruns | hmem
  · obtain ⟨r, hr, -⟩ := runs_eq_some.mp hruns
    rw [h.named.nonempty.1] at hr
    exact absurd hr (by simp)
  · have hknown := (h.sound.known "").mpr ⟨sessionId, hmem⟩
    exact not_known_of_get? h.named.nonempty.2 hknown

theorem Consistent.activeId (h : Consistent c holds) (sessionId : String) :
    c.activeId sessionId = c.sessionLeases.get? sessionId := by
  unfold Coordinator.activeId
  cases hlease : c.sessionLeases.get? sessionId with
  | none => rfl
  | some holder => simp [h.lease_ne hlease]

theorem Consistent.exclusive (h : Consistent c holds) : Exclusive c holds := by
  constructor
  · intro a b ra rb ha hb hrunning hrunning' hsession
    refine h.sound.exclusive (r := rb.sessionId) ?_ ?_
    · exact runs_eq_some.mpr ⟨ra, ha, hrunning, hsession⟩
    · exact runs_eq_some.mpr ⟨rb, hb, hrunning', rfl⟩
  · intro id r hr hrunning
    exact h.sound.leased id r.sessionId (runs_eq_some.mpr ⟨r, hr, hrunning, rfl⟩)
  · intro sessionId holder hlease
    exact (h.sound.held sessionId holder hlease).imp runs_eq_some.mp id
  · intro sessionId ownerId hmem
    exact (h.sound.leased_iff sessionId).mpr (.inr ⟨ownerId, hmem⟩)

/-! ## A change of a runner -/

/-- A runner changes. -/
def setRunner (c : Coordinator) (id : String) (r : Registered) : Coordinator :=
  { c with executions := c.executions.set id r }

theorem lending_setRunner (id : String) (r : Registered) :
    (c.setRunner id r).lending holds = { c.lending holds with
      runs := Function.update (c.lending holds).runs id
        (if r.isRunning then some r.sessionId else none) } := by
  refine Lending.ext rfl ?_ rfl rfl rfl
  funext id'
  simp only [lending, setRunner, Dict.get?_set, Function.update_apply]
  by_cases heq : id' = id <;> simp [heq]

variable {id : String} {r r' : Registered}

/-- An execution is registered, or changes. -/
theorem Named.setRunner (h : c.Named) (hne : id ≠ "")
    (hcanceller : c.externalLeaseCancellers.get? id = none) (hid : r'.execution.executionId = id)
    (hbegun : r'.runner.status ≠ .pending) : (c.setRunner id r').Named := by
  have hget : ∀ id', (c.setRunner id r').executions.get? id' =
      if id' = id then some r' else c.executions.get? id' := fun id' => Dict.get?_set _ _ _ _
  constructor
  · intro id' r'' hr''
    rw [hget] at hr''
    split at hr''
    · rename_i heq
      rw [← Option.some.inj hr'', hid, heq]
    · exact h.identified id' r'' hr''
  · intro id' r'' hr''
    rw [hget] at hr''
    split at hr''
    · rw [← Option.some.inj hr'']
      exact hbegun
    · exact h.begun id' r'' hr''
  · refine ⟨?_, h.nonempty.2⟩
    rw [hget, if_neg hne.symm]
    exact h.nonempty.1
  · intro id'
    rw [hget]
    split
    · rename_i heq
      exact .inr (heq ▸ hcanceller)
    · exact h.apart id'

theorem Named.ne_of_get? (h : c.Named) (hr : c.executions.get? id = some r) : id ≠ "" := by
  rintro rfl
  rw [h.nonempty.1] at hr
  exact absurd hr (by simp)

theorem Named.canceller_of_get? (h : c.Named) (hr : c.executions.get? id = some r) :
    c.externalLeaseCancellers.get? id = none := by
  refine (h.apart id).resolve_left ?_
  rw [hr]
  simp

/-- Only executions and callbacks matter. -/
theorem Named.of_eq {c' : Coordinator} (h : c.Named) (hexecutions : c'.executions = c.executions)
    (hcancellers : c'.externalLeaseCancellers = c.externalLeaseCancellers) : c'.Named := by
  obtain ⟨hidentified, hbegun, hnonempty, hapart⟩ := h
  rw [← hexecutions, ← hcancellers] at *
  exact ⟨hidentified, hbegun, hnonempty, hapart⟩

/-- An execution that has begun runs until it is terminal. -/
theorem isRunning_eq (hbegun : r.runner.status ≠ .pending) :
    r.isRunning = !r.runner.isTerminal := by
  unfold Registered.isRunning Runner.isTerminal
  cases hstatus : r.runner.status with
  | pending => exact absurd hstatus hbegun
  | running => rfl
  | completed | failed | timedOut | cancelled | cancelledByUser | disconnected => rfl

/-- What a change of a registered runner keeps. -/
theorem Consistent.setRunner (h : Consistent c holds) (hr : c.executions.get? id = some r)
    (hexecution : r'.execution = r.execution) (hrunning : r'.isRunning = r.isRunning)
    (hbegun : r'.runner.status ≠ .pending) : Consistent (c.setRunner id r') holds := by
  constructor
  · refine h.named.setRunner (h.named.ne_of_get? hr) (h.named.canceller_of_get? hr) ?_ hbegun
    rw [hexecution]
    exact h.named.identified id r hr
  · have hruns : (c.lending holds).runs id = if r'.isRunning then some r'.sessionId else none := by
      simp [lending, hr, hrunning, Registered.sessionId, hexecution]
    rw [lending_setRunner, ← hruns, Function.update_eq_self]
    exact h.sound

/-- When an execution finishes, its lease goes back to the owner that it has it from. -/
theorem lending_runnerFinished (h : Consistent c holds) (hr : c.executions.get? id = some r)
    (hrunning : r.isRunning = true) (hterminal : r'.isRunning = false) :
    ((c.setRunner id r').runnerFinished r.execution).lending holds =
      (c.lending holds).finish r.sessionId id := by
  have hid := h.named.identified id r hr
  have hlease : (c.setRunner id r').sessionLeases.get? r.execution.sessionId =
      some r.execution.executionId := by
    rw [hid]
    exact h.sound.leased id r.sessionId (runs_eq_some.mpr ⟨r, hr, hrunning, rfl⟩)
  unfold runnerFinished
  rw [if_pos hlease, hid]
  refine Lending.ext ?_ ?_ ?_ rfl rfl
  · cases hparent : c.runnerParentLeases.get? id with
    | none =>
      have hheir : (c.lending holds).heir id = none := by
        refine Lending.heir_of_not_known fun o ho => ?_
        exact absurd (hparent.symm.trans ho) (by simp)
      simp only [Lending.finish, hheir]
      simp [lending, Coordinator.setRunner, hparent, Dict.get?_erase_eq_update,
        Registered.sessionId]
    | some o =>
      by_cases hknown : c.externalLeaseCancellers.contains o = true
      · have hne : o ≠ "" := by
          rintro rfl
          exact absurd hknown (by simp [Dict.contains, h.named.nonempty.2])
        have hheir : (c.lending holds).heir id = some o := Lending.heir_of_known hparent hknown
        simp only [Lending.finish, hheir]
        simp [lending, Coordinator.setRunner, hparent, hknown, hne, Dict.get?_set_eq_update,
          Registered.sessionId]
      · have hheir : (c.lending holds).heir id = none := by
          refine Lending.heir_of_not_known fun o' ho' => ?_
          rw [← Option.some.inj (hparent.symm.trans ho')]
          exact hknown
        simp only [Lending.finish, hheir]
        simp [lending, Coordinator.setRunner, hparent, hknown, Dict.get?_erase_eq_update,
          Registered.sessionId]
  · have hset : ((c.setRunner id r').lending holds).runs = _ :=
      congrArg Lending.runs (lending_setRunner id r')
    rw [hterminal] at hset
    exact hset
  · exact Dict.get?_erase_eq_update _ _

/-- What a method of a registered runner keeps. -/
theorem Consistent.store (h : Consistent c holds) (hr : c.executions.get? id = some r) {t : Runner}
    (hprogress : Progress r.runner t) : Consistent (c.store r t) holds := by
  have hid := h.named.identified id r hr
  have hbegun := h.named.begun id r hr
  have hnotices := hprogress.notices
  let r' : Registered := ⟨r.execution, t⟩
  have hbegun' : r'.runner.status ≠ .pending := hprogress.begun hbegun
  have hrunning : r.isRunning = !r.runner.isTerminal := isRunning_eq hbegun
  have hrunning' : r'.isRunning = !t.isTerminal := isRunning_eq hbegun'
  have hnamed : (c.setRunner id r').Named :=
    h.named.setRunner (h.named.ne_of_get? hr) (h.named.canceller_of_get? hr) hid hbegun'
  have hstore : c.store r t = if r.runner.notices < t.notices then
      (c.setRunner id r').runnerFinished r.execution else c.setRunner id r' := by
    rw [← hid]
    rfl
  rw [hstore]
  by_cases hfinishes : (!r.runner.isTerminal && t.isTerminal) = true
  · rw [if_pos hfinishes] at hnotices
    rw [if_pos (by omega)]
    rw [Bool.and_eq_true] at hfinishes
    have hruns : r.isRunning = true := hrunning.trans hfinishes.1
    have hends : r'.isRunning = false := by
      rw [hrunning', hfinishes.2]
      rfl
    constructor
    · refine hnamed.of_eq ?_ ?_ <;> unfold runnerFinished <;> split <;> rfl
    · rw [lending_runnerFinished h hr hruns hends]
      exact h.sound.finish (runs_eq_some.mpr ⟨r, hr, hruns, rfl⟩)
  · rw [if_neg hfinishes] at hnotices
    rw [if_neg (by omega)]
    refine h.setRunner hr rfl ?_ hbegun'
    rw [hrunning, hrunning']
    by_cases hterminal : r.runner.isTerminal = true
    · rw [Runner.isTerminal, Runner.isTerminal, hprogress.frozen hterminal]
    · simp only [Bool.and_eq_true, Bool.not_eq_true', not_and, Bool.not_eq_true] at hfinishes
      rw [hfinishes (by simpa using hterminal), Bool.not_eq_true] at *
      rw [hterminal]

/-- A runner may be changed before a method of it is stored, where it calls nothing back. -/
theorem store_setRunner (r : Registered) {u t : Runner} (hnotices : u.notices = r.runner.notices) :
    (c.setRunner r.execution.executionId ⟨r.execution, u⟩).store ⟨r.execution, u⟩ t =
      c.store r t := by
  have hcount : u.effects.count .finished = r.runner.effects.count .finished := hnotices
  unfold Coordinator.store Coordinator.setRunner
  simp only [Dict.set_set, hcount]

/-- An execution begins: it is registered, has the lease of its session, and runs. -/
theorem Consistent.begin (h : Consistent c holds) {c' : Coordinator} {parentId : Option String}
    (hnamed : c'.Named) (hexecution : c'.executions.get? id = some r)
    (hother : ∀ id' ≠ id, c'.executions.get? id' = c.executions.get? id')
    (hrunning : r.isRunning = true)
    (hlease : c'.sessionLeases = c.sessionLeases.set r.sessionId id)
    (hparent : c'.runnerParentLeases.get? = Function.update c.runnerParentLeases.get? id parentId)
    (hcancellers : c'.externalLeaseCancellers = c.externalLeaseCancellers)
    (hfree : c.sessionLeases.get? r.sessionId = parentId)
    (hknown : ∀ o, parentId = some o → o ∈ (c.lending holds).known)
    (hidle : ∀ r, c.executions.get? id = some r → r.isRunning = false) :
    Consistent c' holds := by
  refine ⟨hnamed, ?_⟩
  have hlending : c'.lending holds = (c.lending holds).begin r.sessionId id parentId := by
    refine Lending.ext ?_ ?_ hparent ?_ rfl
    · have hset := Dict.get?_set_eq_update c.sessionLeases r.sessionId id
      rw [← hlease] at hset
      exact hset
    · funext id'
      simp only [lending, Lending.begin, Function.update_apply]
      by_cases heq : id' = id
      · subst heq
        simp [hexecution, hrunning]
      · rw [if_neg heq, hother id' heq]
    · simp only [lending, Lending.begin, hcancellers]
  rw [hlending]
  have hapart : c.externalLeaseCancellers.get? id = none := by
    rw [← hcancellers]
    exact hnamed.canceller_of_get? hexecution
  exact h.sound.begin hfree hknown (runs_eq_none.mpr hidle) (not_known_of_get? hapart)

/-- An execution that does not run has its lease from nobody. -/
theorem Consistent.lender_eq_none (h : Consistent c holds)
    (hidle : ∀ r, c.executions.get? id = some r → r.isRunning = false) :
    c.runnerParentLeases.get? id = none := by
  rw [Option.eq_none_iff_forall_ne_some]
  intro o hlender
  obtain ⟨sessionId, hruns, -⟩ := h.sound.lent id o hlender
  rw [runs_eq_none.mpr hidle] at hruns
  exact absurd hruns (by simp)

end Coordinator

section

variable [PyLib]

open Coordinator

variable {c : Coordinator} {holds : Finset Hold} {x : Execution}

omit [PyLib] in
/-- A method of a runner is stored. -/
theorem onRunner_ensures {α : Type} {r : Registered} {m : RunnerM α}
    {Q : Except ExecutionError α → Runner → Prop} (h : Ensures m r.runner Q) :
    Ensures (onRunner r m) c fun result c' => ∃ t, c' = c.store r t ∧ Q result t := by
  unfold onRunner
  cases hrun : m.run r.runner with
  | none => exact ensures_exhausted
  | some p =>
    obtain ⟨result, t⟩ := p
    exact ensures_modify_bind (ensures_lift ⟨t, rfl, h result t hrun⟩)

/-- What an operation is to keep. -/
def Operation.Keeps (c : Coordinator) (holds : Finset Hold) (operation : Operation)
    (result : Except ExecutionError Unit) (c' : Coordinator) : Prop :=
  Consistent c' (operation.holdsAfter c result holds) ∧
    (operation.starts = true → ∀ e, result = .error e → e.IsRefusal → c' = c)

omit [PyLib] in
/-- A request that is granted takes over the lease of its session from a known owner or nobody. -/
theorem parent_eq_ok (h : Consistent c holds) {request : StartRequest} {parentId : Option String}
    (hparent : request.parent c = .ok parentId) :
    c.sessionLeases.get? request.sessionId = parentId ∧
      ∀ o, parentId = some o → o ∈ (c.lending holds).known := by
  unfold StartRequest.parent at hparent
  rw [h.activeId] at hparent
  cases hlease : c.sessionLeases.get? request.sessionId with
  | none =>
    simp only [hlease] at hparent
    cases hparent
    exact ⟨rfl, by simp⟩
  | some activeId =>
    simp only [hlease, canUseParentLease, h.activeId] at hparent
    split at hparent
    · rename_i hcan
      cases hparent
      rw [Bool.and_eq_true, decide_eq_true_iff] at hcan
      refine ⟨rfl, fun o ho => ?_⟩
      have heq : activeId = o := Option.some.inj ho
      have heq' : activeId = request.leaseOwnerId := Option.some.inj hcan.1
      show c.externalLeaseCancellers.contains o = true
      rw [← heq, heq']
      exact hcan.2
    · exact absurd hparent (by simp)

variable (services : Services) [PyRe]

omit [PyRe] in
/-- A request that is granted registers an execution and starts it. -/
theorem Coordinator.register_kept (fuel : ℕ) (request : StartRequest) (h : Consistent c holds)
    {parentId : Option String} (hparent : request.parent c = .ok parentId)
    (hfresh : c.IsFresh request.runId) :
    Ensures (do
      let execution := services.execution request.sessionId request.deviceId request.plan
        request.runId
      modify fun c => c.register execution parentId request.idempotencyKey
      onRunner { execution := execution, runner := {} } (Terminal.start execution fuel)
      return request.runId : CoordinatorM String) c fun result c' =>
        Consistent c' holds ∧ ∀ e, result = .error e → e.IsRefusal → c' = c := by
  obtain ⟨hne, hidle, hcanceller⟩ := hfresh
  obtain ⟨hfree, hknown⟩ := parent_eq_ok h hparent
  let x := services.execution request.sessionId request.deviceId request.plan request.runId
  let fresh : Registered := ⟨x, {}⟩
  let u : Runner := (({} : Runner).begin x).recordEvent x { type := "started" }
  let c₁ := c.register x parentId request.idempotencyKey
  have hexecutions : (c₁.setRunner request.runId ⟨x, u⟩).executions =
      (c.setRunner request.runId ⟨x, u⟩).executions := Dict.set_set _ _ _ _
  have hbegun : u.status ≠ .pending := by
    simp [u, Runner.begin]
  have hnamed : (c₁.setRunner request.runId ⟨x, u⟩).Named :=
    (h.named.setRunner hne hcanceller rfl hbegun).of_eq hexecutions rfl
  have hconsistent : Consistent (c₁.setRunner request.runId ⟨x, u⟩) holds := by
    refine h.begin (r := ⟨x, u⟩) hnamed ?_ ?_ ?_ rfl ?_ rfl hfree hknown
      hidle
    · rw [hexecutions]
      exact Dict.get?_set_self _ _ _
    · intro id' hne'
      rw [hexecutions]
      exact Dict.get?_set_of_ne _ hne' _
    · simp [Registered.isRunning, u, Runner.begin]
    · cases parentId with
      | some o => exact Dict.get?_set_eq_update _ _ _
      | none =>
        have hnone := h.lender_eq_none hidle
        exact (Function.update_eq_self_iff.mpr hnone.symm).symm
  refine ensures_modify_bind ?_
  have hrun : Ensures (Terminal.start x fuel) fresh.runner fun r t =>
      Progress u t ∧ ∀ e, r = .error e → x.Fault e := by
    intro r t hr
    exact ⟨start_runs fuel rfl r t hr, start_raises fuel _ r t hr⟩
  have hstored : ∀ t, Progress u t → Consistent (c₁.store fresh t) holds := by
    intro t ht
    have hget : (c₁.setRunner request.runId ⟨x, u⟩).executions.get? request.runId =
        some ⟨x, u⟩ := Dict.get?_set_self _ _ _
    have hnotices : u.notices = fresh.runner.notices := Runner.recordEvent_notices _ _
    rw [← store_setRunner fresh hnotices]
    exact hconsistent.store hget ht
  refine (onRunner_ensures hrun).bind ?_ ?_
  · rintro _ c' ⟨t, rfl, ht, -⟩
    exact ensures_pure ⟨hstored t ht, fun e he => absurd he (by simp)⟩
  · rintro e c' ⟨t, rfl, ht, hfault⟩
    refine ⟨hstored t ht, fun e' he' hrefusal => ?_⟩
    rw [← Except.error.inj he'] at hrefusal
    exact absurd hrefusal (hfault e rfl).1

/-- A start registers an execution and runs it, or raises. -/
theorem Coordinator.start_kept (fuel : ℕ) (request : StartRequest) (h : Consistent c holds)
    (hallowed : Allowed c holds (.start request)) :
    Ensures (perform services fuel (.start request)) c
      fun result c' => (Operation.start request).Keeps c holds result c' := by
  have hstart : Ensures (Coordinator.start services fuel request) c fun result c' =>
      Consistent c' holds ∧ ∀ e, result = .error e → e.IsRefusal → c' = c := by
    unfold Coordinator.start
    apply ensures_get
    cases hexisting : request.existing c with
    | some existingId =>
      cases hfound : c.executions.get? existingId with
      | some r =>
        simp only [hfound]
        exact ensures_pure ⟨h, fun e he => absurd he (by simp)⟩
      | none =>
        simp only [hfound]
        exact ensures_throw ⟨h, fun e _ _ => rfl⟩
    | none =>
      cases hparent : request.parent c with
      | error activeId => exact ensures_throw ⟨h, fun e _ _ => rfl⟩
      | ok parentId =>
        have hfresh := hallowed hexisting parentId hparent
        exact register_kept services fuel request h hparent hfresh
  unfold perform
  refine hstart.bind ?_ ?_
  · intro _ c' hc'
    exact ensures_pure ⟨hc'.1, fun _ e he => absurd he (by simp)⟩
  · intro e c' hc'
    refine ⟨hc'.1, fun _ e' he' hrefusal => ?_⟩
    exact hc'.2 e rfl (Except.error.inj he' ▸ hrefusal)

omit [PyLib] [PyRe] in
/-- A method goes on with the execution of an id, or raises. -/
theorem find_bind {β : Type} {executionId : String} {f : Registered → CoordinatorM β}
    {R : Except ExecutionError β → Coordinator → Prop}
    (hfound : ∀ r, c.executions.get? executionId = some r → Ensures (f r) c R)
    (hmissing : ∀ e, R (.error e) c) : Ensures (Coordinator.find executionId >>= f) c R := by
  have hfind : Ensures (Coordinator.find executionId) c fun r c' =>
      c' = c ∧ ∀ found, r = .ok found → c.executions.get? executionId = some found := by
    refine ensures_get ?_
    cases hget : c.executions.get? executionId with
    | some r => exact ensures_pure ⟨rfl, fun found heq => congrArg some (Except.ok.inj heq)⟩
    | none => exact ensures_throw ⟨rfl, fun found heq => absurd heq (by simp)⟩
  refine hfind.bind ?_ ?_
  · rintro r _ ⟨rfl, hr⟩
    exact hfound r (hr r rfl)
  · rintro e _ ⟨rfl, -⟩
    exact hmissing e

/-- A method of a registered runner that resumes nothing keeps the leases. -/
theorem Coordinator.onRunner_kept (fuel : ℕ) {id : String} {r : Registered} (h : Consistent c holds)
    (hr : c.executions.get? id = some r) {stimulus : Stimulus}
    (hresumes : stimulus.resumes r.runner = false) :
    Ensures (onRunner r (handle r.execution fuel stimulus)) c fun _ c' => Consistent c' holds := by
  refine (onRunner_ensures (handle_progress fuel hresumes)).mono ?_
  rintro _ c' ⟨t, rfl, ht⟩
  exact h.store hr ht

theorem Coordinator.onExecution_kept (fuel : ℕ) (executionId : String) (h : Consistent c holds)
    {stimulus : Stimulus} (hresumes : ∀ s, stimulus.resumes s = false) :
    Ensures (onExecution fuel executionId stimulus) c fun _ c' => Consistent c' holds := by
  unfold onExecution
  exact find_bind (fun r hr => onRunner_kept fuel h hr (hresumes _)) fun _ => h

theorem Coordinator.onSession_kept (fuel : ℕ) (sessionId : String) (h : Consistent c holds)
    {stimulus : Stimulus} (hresumes : ∀ s, stimulus.resumes s = false) :
    Ensures (onSession fuel sessionId stimulus) c fun _ c' => Consistent c' holds := by
  refine ensures_get ?_
  cases hactive : c.activeForSession sessionId with
  | none => exact ensures_pure h
  | some r =>
    unfold activeForSession at hactive
    obtain ⟨id, -, hr⟩ := Option.bind_eq_some_iff.mp hactive
    exact onRunner_kept fuel h hr (hresumes _)

theorem Coordinator.cancel_kept (executionId : String) (byUser : Bool) (h : Consistent c holds) :
    Ensures (Coordinator.cancel executionId byUser) c fun _ c' => Consistent c' holds := by
  have hresumes : ∀ s, (Stimulus.cancel byUser).resumes s = false := fun _ => rfl
  exact onExecution_kept 0 executionId h hresumes

omit [PyLib] [PyRe] in
theorem store_self {id : String} {r : Registered} (hr : c.executions.get? id = some r)
    (hid : r.execution.executionId = id) : c.store r r.runner = c := by
  unfold Coordinator.store
  simp only [hid, lt_self_iff_false, if_false]
  rw [Dict.set_of_get? hr]

omit [PyRe] in
/-- A resume of an execution that does not hold its session's lease runs it, or changes nothing. -/
theorem Coordinator.resume_kept (fuel : ℕ) (executionId : String) (h : Consistent c holds)
    (hallowed : Allowed c holds (.resume executionId)) :
    Ensures (Coordinator.resume fuel executionId) c fun result c' =>
      Consistent c' holds ∧ ∀ e, result = .error e → c' = c := by
  unfold Coordinator.resume
  refine find_bind (fun r hr => ?_) fun e => ⟨h, fun _ _ => rfl⟩
  obtain ⟨hother, hschedulable⟩ := hallowed r hr
  have hid := h.named.identified executionId r hr
  refine ensures_get ?_
  cases hlease : c.sessionLeases.get? r.sessionId with
  | some holder =>
    have hne : holder ≠ executionId := by
      rintro rfl
      exact hother hlease
    have hactive : (c.activeId r.sessionId).filter (· ≠ executionId) = some holder := by
      rw [h.activeId, hlease]
      simp [hne]
    simp only [hactive]
    exact ensures_throw ⟨h, fun _ _ => rfl⟩
  | none =>
    have hactive : (c.activeId r.sessionId).filter (· ≠ executionId) = none := by
      rw [h.activeId, hlease]
      rfl
    simp only [hactive]
    let c₁ : Coordinator :=
      { c with sessionLeases := c.sessionLeases.set r.sessionId executionId }
    have hget : c₁.executions.get? executionId = some r := hr
    refine ensures_modify_bind ?_
    by_cases htaken : r.runner.status = .cancelledByUser
    · let u := (r.runner.reset r.execution).recordEvent r.execution { type := "resumed" }
      have hbegun : u.status ≠ .pending := by simp [u, Runner.reset]
      have hidle : ∀ r', c.executions.get? executionId = some r' → r'.isRunning = false := by
        intro r' hr'
        rw [← Option.some.inj (hr.symm.trans hr')]
        simp [Registered.isRunning, htaken]
      have hconsistent : Consistent (c₁.setRunner executionId ⟨r.execution, u⟩) holds := by
        have hset : (c.setRunner executionId ⟨r.execution, u⟩).Named :=
          h.named.setRunner (h.named.ne_of_get? hr) (h.named.canceller_of_get? hr) hid hbegun
        have hnamed : (c₁.setRunner executionId ⟨r.execution, u⟩).Named := hset.of_eq rfl rfl
        have hnone := h.lender_eq_none hidle
        refine h.begin (r := ⟨r.execution, u⟩) hnamed (Dict.get?_set_self _ _ _)
          (fun id' hne => Dict.get?_set_of_ne _ hne _) ?_ rfl ?_ rfl hlease (by simp) hidle
        · simp [Registered.isRunning, u, Runner.reset]
        · exact (Function.update_eq_self_iff.mpr hnone.symm).symm
      have hrun : Ensures (Terminal.resume r.execution fuel) r.runner fun result t =>
          Progress u t ∧ result = .ok () := by
        intro result t hresult
        rcases resume_progress fuel r.runner result t hresult with ⟨hnot, -⟩ | ⟨-, hprogress⟩
        · exact absurd htaken hnot
        · refine ⟨hprogress, ?_⟩
          cases result with
          | ok value => rfl
          | error e =>
            have hfault := resume_raises fuel htaken (.error e) t hresult e rfl
            exact absurd (hschedulable htaken) hfault.2
      refine (onRunner_ensures hrun).tryCatch ?_ ?_
      · rintro value c' ⟨t, rfl, ht, -⟩
        refine ⟨?_, fun e he => absurd he (by simp)⟩
        have hnotices : u.notices = r.runner.notices := Runner.recordEvent_notices _ _
        rw [← store_setRunner r hnotices, hid]
        exact hconsistent.store (Dict.get?_set_self _ _ _) ht
      · rintro e c' ⟨t, -, -, hok⟩
        exact absurd hok (by simp)
    · have hrun : Ensures (Terminal.resume r.execution fuel) r.runner fun result t =>
          t = r.runner ∧ result ≠ .ok () := by
        intro result t hresult
        rcases resume_progress fuel r.runner result t hresult with ⟨-, hsame, hraised⟩ | ⟨heq, -⟩
        · exact ⟨hsame, hraised⟩
        · exact absurd heq htaken
      refine (onRunner_ensures hrun).tryCatch ?_ ?_
      · rintro value c' ⟨t, -, -, hraised⟩
        exact absurd rfl hraised
      · rintro e c' ⟨t, rfl, rfl, -⟩
        rw [store_self hget hid]
        have hback : c₁.rollback r.execution executionId = c := by
          have hmine : c₁.sessionLeases.get? r.execution.sessionId = some executionId :=
            Dict.get?_set_self _ _ _
          have herase := Dict.erase_set_of_get? hlease executionId
          unfold rollback
          rw [if_pos hmine]
          show ({ c with sessionLeases := _ } : Coordinator) = c
          exact congrArg (fun leases => ({ c with sessionLeases := leases } : Coordinator)) herase
        refine ensures_modify_bind (ensures_throw ?_)
        rw [hback]
        exact ⟨h, fun _ _ => rfl⟩

omit [PyLib] [PyRe] in
/-- What an owner gives up. -/
theorem Coordinator.release_kept {sessionId ownerId : String} (h : Consistent c holds)
    (hsingle : ∀ other, (other, ownerId) ∈ holds → other = sessionId)
    (hheld : c.sessionLeases.get? sessionId = some ownerId → (sessionId, ownerId) ∈ holds)
    {c' : Coordinator} (hexecutions : c'.executions = c.executions)
    (hparents : c'.runnerParentLeases = c.runnerParentLeases)
    (hleases : c'.sessionLeases = if c.sessionLeases.get? sessionId = some ownerId then
      c.sessionLeases.erase sessionId else c.sessionLeases)
    (hcancellers : c'.externalLeaseCancellers = c.externalLeaseCancellers.erase ownerId) :
    Consistent c' (holds.erase (sessionId, ownerId)) := by
  have hget : ∀ id, c'.externalLeaseCancellers.get? id =
      if id = ownerId then none else c.externalLeaseCancellers.get? id := by
    intro id
    rw [hcancellers, Dict.get?_erase]
  constructor
  · refine ⟨?_, ?_, ⟨?_, ?_⟩, fun id => ?_⟩
    · rw [hexecutions]
      exact h.named.identified
    · rw [hexecutions]
      exact h.named.begun
    · rw [hexecutions]
      exact h.named.nonempty.1
    · rw [hget, h.named.nonempty.2, ite_self]
    · rw [hexecutions, hget]
      refine (h.named.apart id).imp_right fun hnone => ?_
      rw [hnone, ite_self]
  · have hlending : c'.lending (holds.erase (sessionId, ownerId)) =
        (c.lending holds).release sessionId ownerId := by
      refine Lending.ext ?_ ?_ ?_ ?_ ?_
      · simp only [lending, Lending.release, hleases]
        by_cases hmine : c.sessionLeases.get? sessionId = some ownerId
        · simp only [hmine, if_true]
          exact Dict.get?_erase_eq_update _ _
        · simp only [hmine, if_false]
      · simp only [lending, Lending.release, hexecutions]
      · simp only [lending, Lending.release, hparents]
      · ext id
        simp only [lending, Lending.release, Dict.contains, hget, Set.mem_ofPred_eq,
          Set.mem_sdiff, Set.mem_singleton_iff]
        by_cases heq : id = ownerId <;> simp [heq]
      · ext hold
        simp [lending, Lending.release, and_comm]
    rw [hlending]
    exact h.sound.release hsingle hheld

/-- A takeover cancels the execution that holds the lease of a session, or ends what an external
owner has. -/
theorem Coordinator.cancelForUserInput_kept (sessionId : String) (h : Consistent c holds)
    (result : Except ExecutionError Unit) :
    Ensures (Coordinator.cancelForUserInput sessionId) c fun _ c' =>
      Consistent c' ((Operation.cancelForUserInput sessionId).holdsAfter c result holds) := by
  unfold Coordinator.cancelForUserInput
  refine ensures_get ?_
  cases hlease : c.sessionLeases.get? sessionId with
  | none =>
    simp only [Option.getD_none, h.named.nonempty.1, h.named.nonempty.2]
    apply ensures_pure
    simpa [Operation.holdsAfter, hlease] using h
  | some holder =>
    cases hr : c.executions.get? holder with
    | some r =>
      have hsame : (Operation.cancelForUserInput sessionId).holdsAfter c result holds = holds := by
        simp [Operation.holdsAfter, hlease, hr]
      simp only [Option.getD_some, hr, hsame]
      exact (cancel_kept holder true h).bind (fun _ _ hc' => ensures_pure hc') fun _ _ hc' => hc'
    | none =>
      cases hcancel : c.externalLeaseCancellers.get? holder with
      | none =>
        have hsame :
            (Operation.cancelForUserInput sessionId).holdsAfter c result holds = holds := by
          simp [Operation.holdsAfter, hlease, Dict.contains, hcancel]
        simp only [Option.getD_some, hr, hcancel, hsame]
        exact ensures_pure h
      | some onCancel =>
        have herase : (Operation.cancelForUserInput sessionId).holdsAfter c result holds =
            holds.erase (sessionId, holder) := by
          simp [Operation.holdsAfter, hlease, hr, Dict.contains, hcancel]
        have hmem : (sessionId, holder) ∈ holds := h.sound.acquired hlease (known_of_get? hcancel)
        simp only [Option.getD_some, hr, hcancel, herase]
        refine ensures_modify_bind (ensures_pure ?_)
        refine release_kept h (fun other hother => h.sound.single _ _ _ hother hmem)
          (fun _ => hmem) rfl rfl ?_ rfl
        rw [if_pos hlease]

omit [PyRe] in
/-- An external owner acquires a session, or is refused. -/
theorem Coordinator.acquireExternalLease_kept (sessionId ownerId onCancel : String)
    (h : Consistent c holds)
    (hallowed : Allowed c holds (.acquireExternalLease sessionId ownerId onCancel)) :
    Ensures (Coordinator.acquireExternalLease sessionId ownerId onCancel) c fun result c' =>
      Consistent c' (if result.isOk then insert (sessionId, ownerId) holds else holds) := by
  unfold Coordinator.acquireExternalLease
  refine ensures_get ?_
  rw [h.activeId]
  cases hrefused : (c.sessionLeases.get? sessionId).filter (· ≠ ownerId) with
  | some activeId => exact ensures_throw h
  | none =>
    have hfree : ∀ holder, c.sessionLeases.get? sessionId = some holder → holder = ownerId := by
      intro holder hlease
      by_contra hne
      rw [hlease] at hrefused
      exact absurd hrefused (by simp [hne])
    obtain ⟨hne, hidle, hsingle, hlent⟩ := hallowed hfree
    have hruns : (c.lending holds).runs ownerId = none := by
      refine runs_eq_none.mpr fun r hr => ?_
      exact absurd (hidle.symm.trans hr) (by simp)
    refine ensures_modify ?_
    simp only [Except.isOk, Except.toBool, if_true]
    constructor
    · refine ⟨h.named.identified, h.named.begun, ⟨h.named.nonempty.1, ?_⟩, fun id => ?_⟩
      · rw [Dict.get?_set_of_ne _ hne.symm]
        exact h.named.nonempty.2
      · by_cases heq : id = ownerId
        · exact .inl (heq ▸ hidle)
        · rw [Dict.get?_set_of_ne _ heq]
          exact h.named.apart id
    · have hlending : ({ c with
            sessionLeases := c.sessionLeases.set sessionId ownerId
            externalLeaseCancellers := c.externalLeaseCancellers.set ownerId onCancel } :
              Coordinator).lending (insert (sessionId, ownerId) holds) =
          (c.lending holds).acquire sessionId ownerId := by
        refine Lending.ext ?_ rfl rfl ?_ ?_
        · exact Dict.get?_set_eq_update _ _ _
        · ext id
          simp only [lending, Lending.acquire, Dict.contains, Dict.get?_set, Set.mem_insert_iff,
            Set.mem_ofPred_eq]
          by_cases heq : id = ownerId <;> simp [heq]
        · ext hold
          simp [lending, Lending.acquire]
      rw [hlending]
      refine h.sound.acquire hfree hruns hsingle fun t other hlender ht => ?_
      obtain ⟨r, hr, -, hsession⟩ := runs_eq_some.mp ht
      rw [← hsession]
      exact hlent t r hr hlender

/-- Every operation that is allowed keeps the leases. -/
theorem Coordinator.perform_kept (fuel : ℕ) (operation : Operation) (h : Consistent c holds)
    (hallowed : Allowed c holds operation) :
    Ensures (perform services fuel operation) c fun result c' =>
      operation.Keeps c holds result c' := by
  have hplain : ∀ m : CoordinatorM Unit, Ensures m c (fun _ c' => Consistent c' holds) →
      operation.starts = false → (∀ result, operation.holdsAfter c result holds = holds) →
      Ensures m c fun result c' => operation.Keeps c holds result c' := by
    intro m hm hstarts hholds result c' hrun
    refine ⟨?_, fun hstarts' => absurd (hstarts.symm.trans hstarts') (by simp)⟩
    rw [hholds]
    exact hm result c' hrun
  cases operation with
  | start request => exact start_kept services fuel request h hallowed
  | cancel executionId byUser => exact hplain _ (cancel_kept _ _ h) rfl fun _ => rfl
  | resume executionId =>
    refine (resume_kept fuel executionId h hallowed).mono ?_
    intro result c' hc'
    exact ⟨hc'.1, fun _ e he _ => hc'.2 e he⟩
  | cancelForUserInput sessionId =>
    unfold perform
    refine Ensures.bind (Q := fun _ c' => ∀ result : Except ExecutionError Unit, Consistent c'
      ((Operation.cancelForUserInput sessionId).holdsAfter c result holds)) ?_ ?_ ?_
    · exact fun r c' hrun result => cancelForUserInput_kept sessionId h result r c' hrun
    · exact fun _ c' hc' => ensures_pure ⟨hc' _, fun hstarts => absurd hstarts Bool.false_ne_true⟩
    · exact fun e c' hc' => ⟨hc' _, fun hstarts => absurd hstarts Bool.false_ne_true⟩
  | acquireExternalLease sessionId ownerId onCancel =>
    refine (acquireExternalLease_kept sessionId ownerId onCancel h hallowed).mono ?_
    intro result c' hc'
    exact ⟨hc', fun hstarts => absurd hstarts (by simp [Operation.starts])⟩
  | releaseExternalLease sessionId ownerId =>
    refine ensures_modify ⟨?_, fun hstarts => absurd hstarts (by simp [Operation.starts])⟩
    exact release_kept h hallowed.1 hallowed.2 rfl rfl rfl rfl
  | output sessionId message =>
    exact hplain _ (onSession_kept fuel sessionId h fun _ => rfl) rfl fun _ => rfl
  | sessionState sessionId state =>
    exact hplain _ (onSession_kept fuel sessionId h fun _ => rfl) rfl fun _ => rfl
  | fires executionId timer =>
    exact hplain _ (onExecution_kept fuel executionId h fun _ => rfl) rfl fun _ => rfl
  | manualInput executionId text control secretRef appendEnter =>
    exact hplain _ (onExecution_kept fuel executionId h fun _ => rfl) rfl fun _ => rfl

/-- Operations one after the other, each with a bound. -/
def performAll (fuel : ℕ) : List Operation → Coordinator → Finset Hold →
    Option (Coordinator × Finset Hold)
  | [], c, holds => some (c, holds)
  | operation :: rest, c, holds => match (perform services fuel operation).run c with
    | some (result, c') => performAll fuel rest c' (operation.holdsAfter c result holds)
    | none => none

theorem reaches_performAll (fuel : ℕ) {c' : Coordinator} {holds' : Finset Hold} :
    ∀ (operations : List Operation) (c : Coordinator) (holds : Finset Hold),
      Coordinator.Reaches services (fun _ _ _ => True) c holds →
      performAll services fuel operations c holds = some (c', holds') →
      Coordinator.Reaches services (fun _ _ _ => True) c' holds'
  | [], c, holds, hreached, hall => by
    obtain ⟨rfl, rfl⟩ := Prod.mk.inj (Option.some.inj hall)
    exact hreached
  | operation :: rest, c, holds, hreached, hall => by
    unfold performAll at hall
    split at hall
    · rename_i result c₁ hrun
      exact reaches_performAll fuel rest c₁ _ (hreached.performed trivial hrun) hall
    · exact absurd hall (by simp)

end

/-- A plan with one step that waits for output. -/
def waitingPlan : TerminalExecutionPlan := ⟨[.expect {}], .finite 60⟩

/-- A coordinator without secrets, whose clock stands still. -/
def idleServices : Services where
  resolveSecret _ := .error (.keyError "")
  clock _ _ := 0

/-- A running execution is resumed, which is refused and takes its lease away, and another execution
of its session is started: both run. -/
def resumeRunning : List Operation :=
  [.start { sessionId := "s", deviceId := "d", plan := waitingPlan, uuid := "a" }, .resume "a",
    .start { sessionId := "s", deviceId := "d", plan := waitingPlan, uuid := "b" }]

end DeviceShell.Terminal
