import DeviceShell.Lib.Stateful
import DeviceShell.Framework.RuntimeMachine

/-!
# Leases on resources

`LeaseResourceCoordinator` of `framework/resources.py`, the `DeviceLeaseService` of
`application/device_control/lease.py` that may stand behind it, and the one other way to the service,
`DeviceControlService._validate_task_lease`. The coordinator counts how often the owner of a claim
has acquired it; the service keeps its own lease of each device, with its own expiry.

The clock is read anew wherever the source reads it, so that time passes within a call, and every
`uuid4()` is a text of its own (`Ambient`). `history` records the changes of the claims and, for
each `release` that a caller makes, the lease that it gives back; no method reads it.
-/

namespace DeviceShell.Framework

/-- `DeviceLease`. -/
structure DeviceLease where
  deviceId : String
  ownerId : String
  token : String
  expiresAt : String

/-- The key of a claim: the kind and the id of a resource. -/
abbrev ResourceKey := String × String

/-- The key of a claim on the resource of a lease. -/
def ResourceLease.key (lease : ResourceLease) : ResourceKey := (lease.kind, lease.resourceId)

/-- The key of a reference count. -/
def ResourceLease.ownerKey (lease : ResourceLease) : String × String × String :=
  (lease.kind, lease.resourceId, lease.ownerId)

/-- What happened to the claims, and which leases were given back. -/
inductive LeaseEvent where
  /-- `acquire` found no claim and made one. -/
  | created (key : ResourceKey) (ownerId : String)
  /-- `acquire` returned a lease. -/
  | acquired (lease : ResourceLease)
  /-- `release` was called with a lease. -/
  | returned (lease : ResourceLease)
  /-- `release` found the claim of the lease. -/
  | released (key : ResourceKey) (ownerId : String)
  /-- `_expire_locked` dropped a claim. -/
  | expired (key : ResourceKey)

/-- The tables of a coordinator and of the device leases behind it. -/
structure LeaseState where
  /-- `_claims`. -/
  claims : Dict ResourceKey ResourceLease := ∅
  /-- `_refs`. -/
  refs : Dict (String × String × String) ℕ := ∅
  /-- `DeviceLeaseService._leases`. -/
  leases : Dict String DeviceLease := ∅
  /-- How often the clock was read. -/
  reads : ℕ := 0
  /-- How many ids were drawn. -/
  issued : ℕ := 0
  /-- What happened, the last event first. -/
  history : List LeaseEvent := []

/-- The clock and the source of fresh ids. -/
structure Ambient where
  /-- The readings of the clock, in seconds. -/
  clock : ℕ → ℚ
  /-- What `str(uuid4())` returns, call by call. -/
  uuid : ℕ → String
  /-- No id is drawn twice. -/
  fresh : Function.Injective uuid

/-- How the coordinator is built. -/
structure LeaseConfig where
  /-- `default_ttl_seconds`. -/
  defaultTtlSeconds : ℤ := 900
  /-- The `ttl_seconds` of the `DeviceLeaseService`, if there is one. -/
  deviceLeases : Option ℤ := none

/-- A method of the coordinator or of the service. -/
abbrev Leasing := Stateful LeaseState

/-- `datetime.max`, in seconds. -/
def maxTime : ℚ := 253402300799999999 / 1000000

/-- `datetime.min`, in seconds. -/
def minTime : ℚ := -62135596800

section Methods

variable [PyLib] (src : Ambient)

omit [PyLib] in
/-- `self._clock()`. -/
def readClock : Leasing ℚ := do
  let s ← get
  set { s with reads := s.reads + 1 }
  return src.clock s.reads

omit [PyLib] in
/-- `str(uuid4())`. -/
def drawId : Leasing String := do
  let s ← get
  set { s with issued := s.issued + 1 }
  return src.uuid s.issued

/-- `(self._clock() + timedelta(seconds=seconds)).isoformat()`. -/
def expiresAt (seconds : ℤ) : Leasing String := do
  let now ← readClock src
  if now + seconds ≤ maxTime then return PyLib.isoformat (now + seconds)
  else throw (.overflowError "date value out of range")

namespace DeviceLeaseService

/-- `max(30, min(int(ttl_seconds), 86_400))`. -/
def ttl (ttlSeconds : ℤ) : ℤ := max 30 (min ttlSeconds 86400)

/-- `_parse`. -/
def parse (value : String) : Except PyError ℚ :=
  match PyLib.fromisoformat value with
  | some time => .ok time
  | none => .error (.valueError ("Invalid isoformat string: " ++ value))

/-- The ids of the leases that have run out, in `_expire_locked`. -/
def expiredIds (now : ℚ) : List (String × DeviceLease) → Except PyError (List String)
  | [] => .ok []
  | (deviceId, lease) :: rest => do
    let time ← parse lease.expiresAt
    let ids ← expiredIds now rest
    return if time ≤ now then deviceId :: ids else ids

/-- `_expire_locked`. -/
def expireLocked : Leasing Unit := do
  let now ← readClock src
  let s ← get
  let expired ← expiredIds now s.leases.entries
  set { s with leases := s.leases.filterKeys fun id => !expired.contains id }

/-- `self._leases[key] = DeviceLease(…, self._expires_at())`. -/
def store (ttlSeconds : ℤ) (key deviceId ownerId token : String) : Leasing DeviceLease := do
  let expiry ← expiresAt src (ttl ttlSeconds)
  let lease : DeviceLease := ⟨deviceId, ownerId, token, expiry⟩
  modify fun s => { s with leases := s.leases.set key lease }
  return lease

/-- `acquire`. -/
def acquire (ttlSeconds : ℤ) (deviceId ownerId : String) : Leasing DeviceLease := do
  let deviceId := strip deviceId
  let ownerId := strip ownerId
  if deviceId = "" ∨ ownerId = "" then throw (.valueError "device_id and owner_id are required")
  expireLocked src
  let s ← get
  match s.leases.get? deviceId with
  | some current =>
    if current.ownerId ≠ ownerId then throw (.resourceConflict "设备正在被另一个任务占用。")
    store src ttlSeconds deviceId deviceId ownerId current.token
  | none =>
    let token ← drawId src
    store src ttlSeconds deviceId deviceId ownerId token

/-- `_require_locked`. -/
def requireLocked (deviceId token : String) : Leasing DeviceLease := do
  expireLocked src
  let s ← get
  match s.leases.get? (strip deviceId) with
  | some lease =>
    if lease.token ≠ token then throw (.other "设备租约不存在或已过期。")
    return lease
  | none => throw (.other "设备租约不存在或已过期。")

/-- `renew`: the lease is stored under the id that was passed, unstripped. -/
def renew (ttlSeconds : ℤ) (deviceId token : String) : Leasing DeviceLease := do
  let lease ← requireLocked src deviceId token
  store src ttlSeconds deviceId lease.deviceId lease.ownerId lease.token

omit [PyLib] in
/-- `release`. -/
def release (deviceId token : String) : Leasing Bool := do
  let s ← get
  match s.leases.get? (strip deviceId) with
  | some lease =>
    if lease.token ≠ token then return false
    set { s with leases := s.leases.erase lease.deviceId }
    return true
  | none => return false

/-- `get`. -/
def get (deviceId : String) : Leasing (Option DeviceLease) := do
  expireLocked src
  let s ← MonadState.get
  return s.leases.get? (strip deviceId)

end DeviceLeaseService

/-- `DeviceTarget`. -/
structure DeviceTarget where
  deviceId : String := ""
  sessionId : String := ""

/-- `ControlContext`, as far as the lease is checked against it. -/
structure ControlContext where
  taskId : String := ""
  leaseToken : String := ""

/-- The device of a target: the one it names, or the device of its session among the open ones. -/
def targetDevice (sessions : Dict String String) (target : DeviceTarget) : Except PyError String :=
  if target.deviceId = "" ∧ target.sessionId ≠ "" then
    match sessions.get? target.sessionId with
    | some deviceId => .ok deviceId
    | none => .error (.other "session not found")
  else .ok target.deviceId

/-- `DeviceControlService._validate_task_lease`. -/
def DeviceControlService.validateTaskLease (ttlSeconds : ℤ) (sessions : Dict String String) (target : DeviceTarget)
    (context : Option ControlContext) : Leasing Unit := do
  let deviceId ← targetDevice sessions target
  if deviceId = "" then return ()
  let held := context.filter fun c => c.taskId != "" && c.leaseToken != ""
  match ← DeviceLeaseService.get src deviceId with
  | none =>
    match held with
    | some c => discard (DeviceLeaseService.renew src ttlSeconds deviceId c.leaseToken)
    | none => return ()
  | some _ =>
    match held with
    | some c => discard (DeviceLeaseService.renew src ttlSeconds deviceId c.leaseToken)
    | none => throw (.resourceConflict "设备正在由任务执行，当前操作已被策略拒绝。")

namespace LeaseResourceCoordinator

omit [PyLib] in
/-- `value.replace("Z", "+00:00")`. -/
def replaceZ (value : String) : String :=
  String.ofList (value.toList.flatMap fun c => if c = 'Z' then "+00:00".toList else [c])

/-- `_parse_time`: an unreadable time is in the past. -/
def parseTime (value : String) : ℚ := (PyLib.fromisoformat (replaceZ value)).getD minTime

/-- `backend_missing`, in `_expire_locked`. -/
def backendMissing (cfg : LeaseConfig) (lease : ResourceLease) : Leasing Bool :=
  if lease.kind = "device" ∧ cfg.deviceLeases.isSome then
    return (← DeviceLeaseService.get src lease.resourceId).isNone
  else return false

/-- The keys of the claims that `_expire_locked` drops. -/
def expiredKeys (cfg : LeaseConfig) (now : ℚ) :
    List (ResourceKey × ResourceLease) → Leasing (List ResourceKey)
  | [] => return []
  | (key, lease) :: rest => do
    let missing ← backendMissing src cfg lease
    let keys ← expiredKeys cfg now rest
    return if parseTime lease.expiresAt ≤ now ∨ missing = true then key :: keys else keys

omit [PyLib] in
/-- Drops an expired claim with its reference count. -/
def dropClaim (s : LeaseState) (key : ResourceKey) : LeaseState :=
  match s.claims.get? key with
  | some lease => { s with
      claims := s.claims.erase key
      refs := s.refs.erase lease.ownerKey
      history := .expired key :: s.history }
  | none => s

/-- `_expire_locked`. -/
def expireLocked (cfg : LeaseConfig) : Leasing Unit := do
  let now ← readClock src
  let s ← get
  let expired ← expiredKeys src cfg now s.claims.entries
  modify fun s => expired.foldl dropClaim s

omit [PyLib] in
/-- `self._claims[key] = lease` with one more reference. -/
def hold (lease : ResourceLease) (s : LeaseState) : LeaseState :=
  { s with
    claims := s.claims.set lease.key lease
    refs := s.refs.set lease.ownerKey ((s.refs.get? lease.ownerKey).getD 0 + 1)
    history := .acquired lease ::
      if s.claims.contains lease.key then s.history
      else .created lease.key lease.ownerId :: s.history }

/-- The token and the expiry of a claim on a resource, in `acquire`. -/
def grant (cfg : LeaseConfig) (kind resourceId ownerId token : String) (ttlSeconds : ℤ) :
    Leasing (String × String) := do
  match if kind = "device" then cfg.deviceLeases else none with
  | some backendTtl =>
    let backend ← DeviceLeaseService.acquire src backendTtl resourceId ownerId
    -- The default of `getattr` is computed whether or not it is used.
    let _ ← expiresAt src (max 1 ttlSeconds)
    return (backend.token, backend.expiresAt)
  | none => return (token, ← expiresAt src (max 1 ttlSeconds))

omit [PyLib] in
/-- `current.token if current is not None else str(uuid4())`. -/
def tokenOf : Option ResourceLease → Leasing String
  | some current => return current.token
  | none => drawId src

/-- `acquire`. -/
def acquire (cfg : LeaseConfig) (request : ResourceRequest) : Leasing ResourceLease := do
  let kind := strip request.kind
  let resourceId := strip request.resourceId
  let ownerId := strip request.ownerId
  expireLocked src cfg
  let s ← get
  let current := s.claims.get? (kind, resourceId)
  if (current.filter fun c => c.ownerId ≠ ownerId).isSome then
    throw (.resourceConflict "资源正在被另一个任务占用。")
  let token ← tokenOf src current
  let (token, expiry) ← grant src cfg kind resourceId ownerId token request.ttlSeconds
  let lease : ResourceLease := ⟨kind, resourceId, ownerId, token, expiry⟩
  modify (hold lease)
  return lease

/-- The claim of a lease is the current one. -/
def current (s : LeaseState) (lease : ResourceLease) : Bool :=
  match s.claims.get? lease.key with
  | some c => c.token == lease.token && c.ownerId == lease.ownerId
  | none => false

/-- The new expiry of a claim, in `renew`. -/
def renewedExpiry (cfg : LeaseConfig) (lease : ResourceLease) : Leasing String :=
  match if lease.kind = "device" then cfg.deviceLeases else none with
  | some backendTtl => do
    let backend ← DeviceLeaseService.renew src backendTtl lease.resourceId lease.token
    let _ ← expiresAt src (max 1 (max 1 cfg.defaultTtlSeconds))
    return backend.expiresAt
  | none => expiresAt src (max 1 (max 1 cfg.defaultTtlSeconds))

/-- `renew`. -/
def renew (cfg : LeaseConfig) (lease : ResourceLease) : Leasing ResourceLease := do
  expireLocked src cfg
  let s ← get
  if !current s lease then throw (.valueError "resource lease is no longer valid")
  let expiry ← renewedExpiry src cfg lease
  let renewed := { lease with expiresAt := expiry }
  modify fun s => { s with claims := s.claims.set lease.key renewed }
  return renewed

omit [PyLib] in
/-- `release`. -/
def release (cfg : LeaseConfig) (lease : ResourceLease) : Leasing Bool := do
  let s ← get
  if !current s lease then return false
  let refs := (s.refs.get? lease.ownerKey).getD 0
  let history := .released lease.key lease.ownerId :: s.history
  if 1 < refs then
    set { s with refs := s.refs.set lease.ownerKey (refs - 1), history := history }
    return true
  set { s with
    claims := s.claims.erase lease.key, refs := s.refs.erase lease.ownerKey, history := history }
  if lease.kind = "device" ∧ cfg.deviceLeases.isSome then
    DeviceLeaseService.release lease.resourceId lease.token
  else return true

omit [PyLib] in
/-- `while self.release(lease)`, in `release_owner`: the number of releases so far, or `none` where
the loop goes on after `fuel` rounds. -/
def releaseWhile (cfg : LeaseConfig) (lease : ResourceLease) : ℕ → ℕ → Leasing (Option ℕ)
  | 0, _ => return none
  | fuel + 1, released => do
    if ← release cfg lease then
      let s ← get
      if s.refs.contains lease.ownerKey then releaseWhile cfg lease fuel (released + 1)
      else return some (released + 1)
    else return some released

omit [PyLib] in
/-- `for lease in leases`, in `release_owner`. -/
def releaseEach (cfg : LeaseConfig) (fuel : ℕ) : List ResourceLease → ℕ → Leasing (Option ℕ)
  | [], released => return some released
  | lease :: rest, released => do
    match ← releaseWhile cfg lease fuel released with
    | some released => releaseEach cfg fuel rest released
    | none => return none

omit [PyLib] in
/-- `release_owner`. -/
def releaseOwner (cfg : LeaseConfig) (fuel : ℕ) (ownerId : String) : Leasing (Option ℕ) := do
  let ownerId := strip ownerId
  let s ← get
  releaseEach cfg fuel (s.claims.values.filter fun lease => lease.ownerId == ownerId) 0

end LeaseResourceCoordinator

/-! ## The machine -/

/-- A call of the coordinator, or of `_validate_task_lease`. -/
inductive LeaseInput where
  | acquire (request : ResourceRequest)
  | renew (lease : ResourceLease)
  | release (lease : ResourceLease)
  | releaseOwner (ownerId : String)
  | validateTaskLease (sessions : Dict String String) (target : DeviceTarget)
      (context : Option ControlContext)

omit [PyLib] in
/-- `ResourceRequest.__post_init__`. -/
def ResourceRequest.check (request : ResourceRequest) : Except PyError Unit :=
  if isBlank request.kind || isBlank request.resourceId || isBlank request.ownerId then
    .error (.valueError "resource kind, resource_id, and owner_id are required")
  else if request.ttlSeconds < 1 then
    .error (.valueError "resource ttl_seconds must be positive")
  else .ok ()

/-- As many rounds as `release_owner` can need: the loop of a claim ends with its references. -/
def LeaseState.references (s : LeaseState) : ℕ := s.refs.values.sum + 1

/-- The method that an input calls. -/
def LeaseInput.run (cfg : LeaseConfig) : LeaseInput → Leasing Unit
  | .acquire request => do
    request.check
    discard (LeaseResourceCoordinator.acquire src cfg request)
  | .renew lease => discard (LeaseResourceCoordinator.renew src cfg lease)
  | .release lease => do
    modify fun s => { s with history := .returned lease :: s.history }
    discard (LeaseResourceCoordinator.release cfg lease)
  | .releaseOwner ownerId => do
    let s ← get
    discard (LeaseResourceCoordinator.releaseOwner cfg s.references ownerId)
  | .validateTaskLease sessions target context =>
    match cfg.deviceLeases with
    | some ttlSeconds => DeviceControlService.validateTaskLease src ttlSeconds sessions target context
    | none => return ()

/-- One step: a call runs to its end. -/
def leaseStep (cfg : LeaseConfig) (s : LeaseState) (input : LeaseInput) : LeaseState :=
  ((input.run src cfg).run s).2

/-- The state that a list of calls leads to, from empty tables. -/
def leasesAfter (cfg : LeaseConfig) (inputs : List LeaseInput) : LeaseState :=
  Machine.run (leaseStep src cfg) {} inputs

end Methods

end DeviceShell.Framework
