import DeviceShell.Lib.AsyncLock
import DeviceShell.Lib.Machine
import Mathlib.Logic.Function.Basic

/-!
# The life of the file service

The coroutines of `ManagedTransferService` that start and stop the file service, on one event loop,
with the threads that `asyncio.to_thread` hands `controller.start` and `controller.stop` to. A
thread goes on when the coroutine that awaits it is cancelled, and the lifecycle lock is released by
the cancellation.

A coroutine is known by a number, and so is the thread that it hands work to: none of them hands out
work twice. The points of a coroutine are those where it suspends. What a coroutine reads and writes
between two of them happens at once; `is_running` and `config` are read together, since what a
thread does between the two might as well have come before or after them.
-/

namespace DeviceShell.Transfers

/-- The coroutines that use the lifecycle lock. -/
inductive Role where
  /-- `_stop_service_when_idle`. -/
  | idleStop
  /-- `start_service()`. -/
  | startService
  /-- `_ensure_service()` of a transfer, or of another caller. -/
  | ensureService (transfer : Option ℕ)
  /-- `stop_service()`. -/
  | stopService
deriving DecidableEq

/-- Where a coroutine is. -/
inductive Point where
  | absent
  /-- `await asyncio.sleep(...)`. -/
  | sleeping
  /-- It stands in the queue of the lifecycle lock. -/
  | waiting
  /-- It has the lock and runs. -/
  | inside
  /-- It has the lock and awaits the thread. -/
  | handed
  | done
deriving DecidableEq

/-- What a thread of `to_thread` is doing. -/
inductive Job where
  | absent
  /-- `controller.start`, before its `with self._lock`. -/
  | starting
  /-- The thread of the server runs, and the configuration is not set yet. -/
  | launched
  | started (succeeded : Bool)
  /-- `controller.stop`, before its `with self._lock`. -/
  | stopping
  /-- The server has been closed. -/
  | closing
  /-- The state has been cleared, and the thread of the server is joined. -/
  | joining
  | stopped
deriving DecidableEq

/-- A stop that has been handed to a thread and has not taken effect, or not all of it. -/
def Job.Stops (job : Job) : Prop := job = .stopping ∨ job = .closing

instance (job : Job) : Decidable job.Stops := inferInstanceAs (Decidable (_ ∨ _))

/-- `to_thread` has a result. -/
def Job.ended? : Job → Option Bool
  | .started succeeded => some succeeded
  | .stopped => some true
  | _ => none

structure Coroutine where
  role : Role := .stopService
  point : Point := .absent
  /-- `CancelledError` is on its way. -/
  cancelled : Bool := false
  job : Job := .absent

/-- A transfer, from the entry of its task into `_tasks` on. `served`: `_ensure_service` has
returned it a configuration. -/
inductive Stage where
  | absent
  | running (served : Bool)
  /-- It awaits `_ensure_service`. -/
  | ensuring (coroutine : ℕ) (served : Bool)
  /-- Its task is done, and still in `_tasks`. -/
  | ended
deriving DecidableEq

/-- The transfer has a configuration, and has not ended. -/
def Stage.served : Stage → Bool
  | .running served => served
  | .ensuring _ served => served
  | _ => false

/-- The service and its controller. -/
structure FileService (Config : Type) where
  coroutines : ℕ → Coroutine := fun _ => {}
  /-- The number of the next coroutine. -/
  next : ℕ := 0
  /-- `_service_lifecycle_lock`. -/
  lock : AsyncLock := {}
  /-- `_idle_stop_task`. -/
  idleStopTask : Option ℕ := none
  /-- The keys of `_tasks`. -/
  tasks : List ℕ := []
  stages : ℕ → Stage := fun _ => .absent
  /-- `controller._thread`. -/
  thread : Option ℕ := none
  alive : ℕ → Bool := fun _ => false
  /-- `controller._config`. -/
  config : Option Config := none
  /-- `controller._lock` is taken. -/
  controllerLocked : Bool := false
  /-- The transfers during which a stop took effect. -/
  stoppedUnder : List ℕ := []

/-- What can happen next. -/
inductive Action (Config : Type) where
  /-- `_enqueue`. -/
  | enqueue
  /-- The task of a transfer is created and put into `_tasks`. -/
  | begin (transfer : ℕ)
  /-- `start_service`, `_ensure_service` or `stop_service` is called. -/
  | call (role : Role)
  /-- `_schedule_idle_stop`. -/
  | scheduleIdleStop
  /-- The sleep of the idle stop is over. -/
  | timer (coroutine : ℕ)
  /-- The first of the queue of the lock is resumed. -/
  | resume (coroutine : ℕ)
  /-- The coroutine whose thread has ended is resumed. -/
  | wake (coroutine : ℕ)
  /-- The cancelled idle stop is resumed. -/
  | cancelled (coroutine : ℕ)
  /-- The caller of a coroutine is cancelled. -/
  | abort (coroutine : ℕ)
  /-- `controller.start` starts the thread of the server. -/
  | launch (coroutine server : ℕ)
  /-- `controller.start` returns. -/
  | started (coroutine : ℕ) (config : Config)
  /-- `controller.start` raises. -/
  | failed (coroutine : ℕ)
  /-- `controller.stop` closes the server. -/
  | close (coroutine : ℕ)
  /-- `controller.stop` clears the state. -/
  | clear (coroutine : ℕ)
  /-- `controller.stop` has waited for the thread of the server. -/
  | joined (coroutine : ℕ)
  /-- The thread of a server ends. -/
  | dies (server : ℕ)
  /-- The task of a transfer is done. -/
  | ends (transfer : ℕ)
  /-- The worker removes the transfer from `_tasks`. -/
  | pops (transfer : ℕ)

namespace FileService

variable {Config : Type}

/-- `controller.is_running`. -/
def isRunning (s : FileService Config) : Bool :=
  match s.thread with
  | some server => s.alive server
  | none => false

/-- A coroutine has changed. -/
def put (s : FileService Config) (t : ℕ) (c : Coroutine) : FileService Config :=
  { s with coroutines := Function.update s.coroutines t c }

/-- A coroutine has come to a point. -/
def move (s : FileService Config) (t : ℕ) (point : Point) : FileService Config :=
  s.put t { s.coroutines t with point := point }

/-- The thread of a coroutine has come further. -/
def work (s : FileService Config) (t : ℕ) (job : Job) : FileService Config :=
  s.put t { s.coroutines t with job := job }

/-- A transfer has changed. -/
def setStage (s : FileService Config) (x : ℕ) (stage : Stage) : FileService Config :=
  { s with stages := Function.update s.stages x stage }

/-- A coroutine is created. -/
def create (s : FileService Config) (role : Role) (point : Point) : FileService Config :=
  { s.put s.next { role := role, point := point } with next := s.next + 1 }

/-! ## The coroutines -/

/-- `_cancel_idle_stop`. -/
def cancelIdleStop (s : FileService Config) : FileService Config :=
  match s.idleStopTask with
  | none => s
  | some t =>
    let s : FileService Config := { s with idleStopTask := none }
    if (s.coroutines t).point = .done then s
    else s.put t { s.coroutines t with cancelled := true }

/-- `_schedule_idle_stop`. -/
def scheduleIdleStop (s : FileService Config) : FileService Config :=
  if s.tasks ≠ [] ∨ s.isRunning = false then s
  else if s.idleStopTask.any fun t => (s.coroutines t).point ≠ .done then s
  else { s.create .idleStop .sleeping with idleStopTask := some s.next }

/-- The lock is released. -/
def release (s : FileService Config) : FileService Config := { s with lock := s.lock.release }

/-- The transfer whose `_ensure_service` this is no longer awaits it. -/
def returned (s : FileService Config) (transfer : Option ℕ) (config : Option Config) :
    FileService Config :=
  match transfer with
  | none => s
  | some x => s.setStage x (.running ((s.stages x).served || config.isSome))

/-- `start_service` and `_ensure_service` after the lock: a configuration is returned if there is
one. -/
def finish (s : FileService Config) (t : ℕ) : FileService Config :=
  match (s.coroutines t).role with
  | .startService => s.scheduleIdleStop
  | .ensureService transfer => s.returned transfer s.config
  | _ => s

/-- What a coroutine that has the lock does up to its next suspension. -/
def enter (s : FileService Config) (t : ℕ) : FileService Config :=
  match (s.coroutines t).role with
  | .idleStop =>
    if s.tasks ≠ [] ∨ s.isRunning = false then s.release.move t .done
    else (s.work t .stopping).move t .handed
  | .stopService =>
    if s.isRunning then (s.work t .stopping).move t .handed else s.release.move t .done
  | .startService | .ensureService _ =>
    if s.isRunning then (s.release.move t .done).finish t
    else (s.work t .starting).move t .handed

/-- `async with self._service_lifecycle_lock` of a coroutine, up to its next suspension. -/
def enterLock (s : FileService Config) (t : ℕ) : FileService Config :=
  let (lock, taken) := s.lock.acquire t
  let s : FileService Config := { s with lock := lock }
  if taken then (s.move t .inside).enter t else s.move t .waiting

/-- A coroutine is called. -/
def call (s : FileService Config) (role : Role) : FileService Config :=
  match role with
  | .idleStop => s
  | .startService => (s.cancelIdleStop.create role .absent).enterLock s.next
  | .ensureService none => (s.cancelIdleStop.create role .absent).enterLock s.next
  | .ensureService (some x) => match s.stages x with
    | .running served =>
      ((s.cancelIdleStop.create role .absent).setStage x (.ensuring s.next served)).enterLock s.next
    | _ => s
  | .stopService =>
    -- Otherwise it raises: transfers are active.
    if s.tasks = [] then (s.cancelIdleStop.create role .absent).enterLock s.next else s

/-- A coroutine whose thread has ended goes on. -/
def wake (s : FileService Config) (t : ℕ) (succeeded : Bool) : FileService Config :=
  let free := s.release.move t .done
  match (s.coroutines t).role with
  | .idleStop => { free with idleStopTask := none }
  | .stopService => free
  | .startService => if succeeded then free.finish t else free
  | .ensureService transfer => if succeeded then free.finish t else free.returned transfer none

/-- `CancelledError` is raised where a coroutine is suspended. -/
def raiseCancelled (s : FileService Config) (t : ℕ) : FileService Config :=
  let left : FileService Config := match (s.coroutines t).point with
    | .sleeping => s.move t .done
    | .waiting => { s with lock := s.lock.cancel t }.move t .done
    | .handed => s.release.move t .done
    | _ => s
  match (s.coroutines t).role, (s.coroutines t).point with
  | .ensureService transfer, .waiting | .ensureService transfer, .handed =>
    left.returned transfer none
  | _, _ => left

/-! ## Steps -/

/-- The stop of a thread takes effect under these transfers. -/
def hit (s : FileService Config) : FileService Config :=
  { s with stoppedUnder := s.stoppedUnder ++ s.tasks.filter fun x => (s.stages x).served }

/-- A step of the event loop, of a thread or of the transfers. -/
def step (s : FileService Config) : Action Config → FileService Config
  | .enqueue => s.cancelIdleStop
  | .begin x => if s.stages x = .absent then
      { s.setStage x (.running false) with tasks := x :: s.tasks } else s
  | .call role => s.call role
  | .scheduleIdleStop => s.scheduleIdleStop
  | .timer t =>
    if (s.coroutines t).role = .idleStop ∧ (s.coroutines t).point = .sleeping ∧
        (s.coroutines t).cancelled = false then s.enterLock t
    else s
  | .resume t =>
    if (s.coroutines t).point = .waiting ∧ s.lock.Resumes t ∧
        (s.coroutines t).cancelled = false then
      ({ s with lock := s.lock.resume }.move t .inside).enter t
    else s
  | .wake t =>
    match (s.coroutines t).point, (s.coroutines t).cancelled, (s.coroutines t).job.ended? with
    | .handed, false, some succeeded => s.wake t succeeded
    | _, _, _ => s
  | .cancelled t => if (s.coroutines t).cancelled then s.raiseCancelled t else s
  | .abort t => if (s.coroutines t).role = .idleStop then s else s.raiseCancelled t
  | .launch t server =>
    if (s.coroutines t).job = .starting ∧ s.controllerLocked = false ∧ s.isRunning = false then
      { s.work t .launched with
        thread := some server
        alive := Function.update s.alive server true
        controllerLocked := true }
    else s
  | .started t config =>
    if (s.coroutines t).job = .launched then
      { s.work t (.started true) with config := some config, controllerLocked := false }
    else s
  | .failed t =>
    if (s.coroutines t).job = .starting ∧ s.controllerLocked = false then
      s.work t (.started false)
    else if (s.coroutines t).job = .launched then
      { s.work t (.started false) with thread := none, controllerLocked := false }
    else s
  | .close t =>
    if (s.coroutines t).job = .stopping ∧ s.controllerLocked = false then
      { s.hit.work t .closing with controllerLocked := true }
    else s
  | .clear t =>
    if (s.coroutines t).job = .closing then
      { s.hit.work t .joining with config := none, controllerLocked := false }
    else s
  | .joined t =>
    if (s.coroutines t).job = .joining then { s.work t .stopped with thread := none } else s
  | .dies server => { s with alive := Function.update s.alive server false }
  | .ends x => match s.stages x with
    | .running _ => s.setStage x .ended
    | _ => s
  | .pops x => if s.stages x = .ended then
      { s.setStage x .absent with tasks := s.tasks.filter (· ≠ x) } else s

/-- The idle stop has handed its stop to a thread, and the stop has not taken effect. -/
def IdleStopUnderWay (s : FileService Config) : Prop :=
  ∃ t, s.idleStopTask = some t ∧ (s.coroutines t).job.Stops

instance (s : FileService Config) : Decidable s.IdleStopUnderWay :=
  decidable_of_iff ((s.idleStopTask.any fun t => decide (s.coroutines t).job.Stops) = true)
    (by simp [IdleStopUnderWay, Option.any_eq_true])

/-- The action calls `_cancel_idle_stop`. -/
def CancelsIdleStop (s : FileService Config) : Action Config → Prop
  | .enqueue => True
  | .call .startService | .call (.ensureService none) => True
  | .call (.ensureService (some x)) => s.stages x = .running (s.stages x).served
  | .call .stopService => s.tasks = []
  | _ => False

instance (s : FileService Config) : ∀ a, Decidable (s.CancelsIdleStop a)
  | .enqueue => inferInstanceAs (Decidable True)
  | .call .startService => inferInstanceAs (Decidable True)
  | .call (.ensureService none) => inferInstanceAs (Decidable True)
  | .call (.ensureService (some _)) => inferInstanceAs (Decidable (_ = _))
  | .call .stopService => inferInstanceAs (Decidable (_ = _))
  | .call .idleStop => inferInstanceAs (Decidable False)
  | .begin _ | .scheduleIdleStop | .timer _ | .resume _ | .wake _ | .cancelled _ | .abort _
  | .launch .. | .started .. | .failed _ | .close _ | .clear _ | .joined _ | .dies _ | .ends _
  | .pops _ => inferInstanceAs (Decidable False)

/-- The action cancels a `stop_service` whose stop is under way. -/
def CancelsStop (s : FileService Config) : Action Config → Prop
  | .abort t => (s.coroutines t).role = .stopService ∧ (s.coroutines t).job.Stops
  | _ => False

instance (s : FileService Config) : ∀ a, Decidable (s.CancelsStop a)
  | .abort _ => inferInstanceAs (Decidable (_ ∧ _))
  | .enqueue | .call _ | .begin _ | .scheduleIdleStop | .timer _ | .resume _ | .wake _
  | .cancelled _ | .launch .. | .started .. | .failed _ | .close _ | .clear _ | .joined _ | .dies _
  | .ends _ | .pops _ => inferInstanceAs (Decidable False)

/-- No coroutine is cancelled whose stop is under way in a thread. -/
def Spares (s : FileService Config) (a : Action Config) : Prop :=
  ¬(s.CancelsIdleStop a ∧ s.IdleStopUnderWay) ∧ ¬s.CancelsStop a

instance (s : FileService Config) (a : Action Config) : Decidable (s.Spares a) :=
  inferInstanceAs (Decidable (_ ∧ _))

end FileService

end DeviceShell.Transfers
