import DeviceShell.Lib.AsyncLock
import DeviceShell.Lib.Machine
import DeviceShell.Lib.Operators
import DeviceShell.Lib.Text
import Mathlib.Algebra.BigOperators.Group.Finset.Basic
import Mathlib.Algebra.Order.BigOperators.Group.Finset

/-!
# Parallel batches

`AiApplicationService.execute_parallel_batches`: a task for each request, which takes one of a number
of permits and then the lock of its target before it runs the batch. The target is the text of the
request, a session or a device; the batch itself finds out which session that is. Two requests whose
targets differ may find the same session, and the locks do not keep them apart.
-/

namespace DeviceShell.Ai

variable [PyLib]

/-- The checks of `run_one`: the target of a request, or the error of its row. -/
def checkRequest (request : Value) : Except String String :=
  match request with
  | .dict entries =>
    let request : Dict String Value := ⟨entries⟩
    match request.get? "commands" with
    | some (.list (_ :: _)) =>
      let deviceId := strip (Value.strOr (request.get? "device_id") "")
      let sessionId := strip (Value.strOr (request.get? "session_id") "")
      let target := if sessionId ≠ "" then sessionId else deviceId
      if target = "" then .error "device_id or session_id is required" else .ok target
    | _ => .error "commands must be a non-empty list"
  | _ => .error "request must be an object"

/-- The result of a request. -/
structure Row where
  index : ℕ
  status : Value
  result : Option Value := none
  error : Option String := none

/-- How `execute_batch` ends. -/
inductive BatchEnd where
  | returned (result : Dict String Value)
  | raised (message : String)

/-- The row of a batch that has ended. -/
def BatchEnd.row (index : ℕ) : BatchEnd → Row
  | .returned result =>
    { index := index
      status := (result.get? "status").getD (.str "failed")
      result := some (.ofDict result) }
  | .raised message => { index := index, status := .str "failed", error := some message }

/-- Where the task of a request stands. -/
inductive Phase where
  | created
  /-- It waits for a permit. -/
  | queued (target : String)
  /-- With a permit, it waits for the lock of its target. -/
  | waiting (target : String)
  /-- With both, it runs the batch, which has no session yet. -/
  | resolving (target : String)
  /-- The batch executes on a session. -/
  | executing (target session : String)
  | done (row : Row)

/-- The lock that a task holds. -/
def Phase.held? : Phase → Option String
  | .resolving target | .executing target _ => some target
  | _ => none

/-- The lock that a task waits for. -/
def Phase.awaited? : Phase → Option String
  | .waiting target => some target
  | _ => none

/-- The permits that a task holds. -/
def Phase.permits : Phase → ℕ
  | .waiting _ | .resolving _ | .executing .. => 1
  | _ => 0

/-- The target of a task that has one. -/
def Phase.target? : Phase → Option String
  | .queued target | .waiting target | .resolving target | .executing target _ => some target
  | _ => none

/-- The session that a task executes on. -/
def Phase.session? : Phase → Option String
  | .executing _ session => some session
  | _ => none

/-- The result of a task that has ended. -/
def Phase.row? : Phase → Option Row
  | .done row => some row
  | _ => none

/-- What the tasks share, and where each of them stands. -/
structure Batches where
  phases : ℕ → Phase := fun _ => .created
  permits : ℕ
  /-- `target_locks`. -/
  locks : String → AsyncLock := fun _ => {}
  /-- The sessions that were found, with the index of the request. -/
  sessions : List (ℕ × String) := []

/-- What the event loop resumes, and what the batches come to. -/
inductive Step where
  | run (index : ℕ)
  | enter (index : ℕ)
  | resume (index : ℕ)
  | found (index : ℕ) (session : String)
  | ended (index : ℕ) (outcome : BatchEnd)

namespace Batches

/-- A task has come to a phase. -/
def move (s : Batches) (index : ℕ) (phase : Phase) : Batches :=
  { s with phases := Function.update s.phases index phase }

/-- A lock has changed. -/
def setLock (s : Batches) (target : String) (lock : AsyncLock) : Batches :=
  { s with locks := Function.update s.locks target lock }

/-- A step of a task, up to its next suspension. -/
def step (requests : List Value) (s : Batches) : Step → Batches
  | .run index => match s.phases index, requests[index]? with
    | .created, some request => match checkRequest request with
      | .error message =>
        s.move index (.done { index := index, status := .str "failed", error := some message })
      | .ok target => s.move index (.queued target)
    | _, _ => s
  | .enter index => match s.phases index with
    | .queued target =>
      if 0 < s.permits then
        let (lock, taken) := (s.locks target).acquire index
        { (s.setLock target lock).move index
            (if taken then .resolving target else .waiting target) with permits := s.permits - 1 }
      else s
    | _ => s
  | .resume index => match s.phases index with
    | .waiting target =>
      if (s.locks target).Resumes index then
        (s.setLock target (s.locks target).resume).move index (.resolving target)
      else s
    | _ => s
  | .found index session => match s.phases index with
    | .resolving target =>
      { s.move index (.executing target session) with sessions := (index, session) :: s.sessions }
    | _ => s
  | .ended index outcome => match s.phases index with
    | .resolving target | .executing target _ =>
      { (s.setLock target (s.locks target).release).move index (.done (outcome.row index)) with
        permits := s.permits + 1 }
    | _ => s

/-- The tasks before the first of them runs, for a `max_concurrency`. -/
def initial (maxConcurrency : ℤ) : Batches := { permits := (max 1 (min maxConcurrency 32)).toNat }

/-- What `execute_parallel_batches` stores and returns. -/
structure Payload where
  status : String
  requestCount : ℕ
  completedCount : ℕ
  failedCount : ℤ
  results : List Row

/-- The rows that the tasks return, in the order of the requests, once all have ended. -/
def gathered (requests : List Value) (s : Batches) : Option (List Row) :=
  (List.range requests.length).mapM fun index => (s.phases index).row?

/-- The end of `execute_parallel_batches`. -/
def payload (rows : List Row) : Payload :=
  let results := rows.insertionSort fun a b => a.index ≤ b.index
  let completed := (results.filter fun row => row.status.pyEq (.str "success")).length
  { status := if completed = results.length then "success"
      else if completed ≠ 0 then "partial" else "failed"
    requestCount := results.length
    completedCount := completed
    failedCount := results.length - completed
    results := results }

/-- A task executes on a session. -/
def ExecutesOn (s : Batches) (index : ℕ) (session : String) : Prop :=
  (s.phases index).session? = some session

instance (s : Batches) (index : ℕ) (session : String) : Decidable (s.ExecutesOn index session) :=
  inferInstanceAs (Decidable (_ = _))

/-- Some task can go on, if the batch that it runs does. -/
def CanGoOn (requests : List Value) (s : Batches) : Prop :=
  ∃ index < requests.length, match s.phases index with
    | .created | .resolving _ | .executing .. => True
    | .queued _ => 0 < s.permits
    | .waiting target => (s.locks target).Resumes index
    | .done _ => False

/-- What the parallel execution promises. -/
structure Correct (requests : List Value) (s : Batches) : Prop where
  /-- One result for each request, in their order. -/
  results : ∀ rows, s.gathered requests = some rows →
    (payload rows).results.map Row.index = List.range requests.length
  /-- The counts add up. -/
  counts : ∀ rows, s.gathered requests = some rows →
    (payload rows).requestCount = requests.length ∧
      (payload rows).completedCount + (payload rows).failedCount = requests.length
  /-- Until all the results are there, a task can go on. -/
  progress : (∃ rows, s.gathered requests = some rows) ∨ s.CanGoOn requests
  /-- No two requests execute on one session. -/
  exclusive : ∀ i j session, s.ExecutesOn i session → s.ExecutesOn j session → i = j

/-- The target of a request that is accepted. -/
def targetOf? (requests : List Value) (index : ℕ) : Option String :=
  (requests[index]?).bind fun request => (checkRequest request).toOption

/-- A session that a request finds has been found by requests with the same target only. -/
def SameTarget (requests : List Value) (s : Batches) : Step → Prop
  | .found index session => ∀ other ∈ s.sessions, other.2 = session →
      targetOf? requests other.1 = targetOf? requests index
  | _ => True

/-! ## Steps -/

omit [PyLib] in
@[simp] theorem phases_move (s : Batches) (i j : ℕ) (phase : Phase) :
    (s.move i phase).phases j = if j = i then phase else s.phases j := by
  simp [move, Function.update_apply]

/-- What a step can do. -/
inductive Moves (requests : List Value) (s : Batches) : Step → Batches → Prop
  | stays (e : Step) : Moves requests s e s
  | rejected (i : ℕ) (request : Value) (message : String) (hphase : s.phases i = .created)
      (hrequest : requests[i]? = some request) (hcheck : checkRequest request = .error message) :
      Moves requests s (.run i)
        (s.move i (.done { index := i, status := .str "failed", error := some message }))
  | queued (i : ℕ) (request : Value) (target : String) (hphase : s.phases i = .created)
      (hrequest : requests[i]? = some request) (hcheck : checkRequest request = .ok target) :
      Moves requests s (.run i) (s.move i (.queued target))
  | taken (i : ℕ) (target : String) (hphase : s.phases i = .queued target) (hfree : 0 < s.permits)
      (htaken : ((s.locks target).acquire i).2 = true) :
      Moves requests s (.enter i)
        { (s.setLock target ((s.locks target).acquire i).1).move i (.resolving target) with
          permits := s.permits - 1 }
  | waits (i : ℕ) (target : String) (hphase : s.phases i = .queued target) (hfree : 0 < s.permits)
      (htaken : ((s.locks target).acquire i).2 = false) :
      Moves requests s (.enter i)
        { (s.setLock target ((s.locks target).acquire i).1).move i (.waiting target) with
          permits := s.permits - 1 }
  | resumed (i : ℕ) (target : String) (hphase : s.phases i = .waiting target)
      (hresumes : (s.locks target).Resumes i) :
      Moves requests s (.resume i)
        ((s.setLock target (s.locks target).resume).move i (.resolving target))
  | found (i : ℕ) (target session : String) (hphase : s.phases i = .resolving target) :
      Moves requests s (.found i session)
        { s.move i (.executing target session) with sessions := (i, session) :: s.sessions }
  | ended (i : ℕ) (target : String) (outcome : BatchEnd) (hheld : (s.phases i).held? = some target) :
      Moves requests s (.ended i outcome)
        { (s.setLock target (s.locks target).release).move i (.done (outcome.row i)) with
          permits := s.permits + 1 }

theorem step_moves (requests : List Value) (s : Batches) (e : Step) :
    Moves requests s e (s.step requests e) := by
  cases e with
  | run i =>
    unfold step
    dsimp only
    split
    · rename_i request hphase hrequest
      split
      · exact .rejected i request _ hphase hrequest ‹_›
      · exact .queued i request _ hphase hrequest ‹_›
    · exact .stays _
  | enter i =>
    unfold step
    dsimp only
    split
    · rename_i target hphase
      split_ifs with hfree htaken
      · exact .taken i target hphase hfree htaken
      · exact .waits i target hphase hfree (by simpa using htaken)
      · exact .stays _
    · exact .stays _
  | resume i =>
    unfold step
    dsimp only
    split
    · rename_i target hphase
      split_ifs with hresumes
      · exact .resumed i target hphase hresumes
      · exact .stays _
    · exact .stays _
  | found i session =>
    unfold step
    dsimp only
    split
    · rename_i target hphase
      exact .found i target session hphase
    · exact .stays _
  | ended i outcome =>
    unfold step
    dsimp only
    split
    · rename_i target hphase
      exact .ended i target outcome (by rw [hphase]; rfl)
    · rename_i target session hphase
      exact .ended i target outcome (by rw [hphase]; rfl)
    · exact .stays _

/-! ## Invariant -/

variable {requests : List Value} {s : Batches} {i : ℕ}

/-- A phase that the task of a request can be in. -/
structure Fits (requests : List Value) (i : ℕ) (phase : Phase) : Prop where
  target : ∀ target, phase.target? = some target → targetOf? requests i = some target
  row : ∀ row, phase.row? = some row → row.index = i
  bound : phase = .created ∨ i < requests.length

/-- The tasks that hold the lock of a target, or wait for it, in one of two ways: `Phase.held?` or
`Phase.awaited?`. -/
def At (view : Phase → Option String) (s : Batches) (key : String) (i : ℕ) : Prop :=
  view (s.phases i) = some key

/-- What holds between any two steps. -/
structure Invariant (requests : List Value) (limit : ℕ) (s : Batches) : Prop where
  fits : ∀ i, Fits requests i (s.phases i)
  locked : ∀ key, (s.locks key).Guards (At Phase.held? s key) (At Phase.awaited? s key)
  /-- Every permit is free or with a task. -/
  permits : ∑ i ∈ Finset.range requests.length, (s.phases i).permits + s.permits = limit
  sessions : ∀ i session, s.ExecutesOn i session → (i, session) ∈ s.sessions

omit [PyLib] in
theorem executesOn_iff {session : String} :
    s.ExecutesOn i session ↔ ∃ target, s.phases i = .executing target session := by
  unfold ExecutesOn
  cases s.phases i <;> simp [Phase.session?]

omit [PyLib] in
theorem target?_of_held? {phase : Phase} {key : String} (h : phase.held? = some key) :
    phase.target? = some key := by
  cases phase <;> simp_all [Phase.held?, Phase.target?]

omit [PyLib] in
theorem target?_of_awaited? {phase : Phase} {key : String} (h : phase.awaited? = some key) :
    phase.target? = some key := by
  cases phase <;> simp_all [Phase.awaited?, Phase.target?]

/-- A task goes to a phase that fits it. -/
theorem fits_move (h : ∀ i, Fits requests i (s.phases i)) {phase : Phase}
    (hphase : Fits requests i phase) (j : ℕ) : Fits requests j ((s.move i phase).phases j) := by
  rw [phases_move]
  by_cases hj : j = i
  · rw [if_pos hj, hj]
    exact hphase
  · rw [if_neg hj]
    exact h j

omit [PyLib] in
/-- Where a task stands after it, or another one, went to another phase. -/
theorem at_move {view : Phase → Option String} {phase : Phase} {key : String} {j : ℕ} :
    At view (s.move i phase) key j ↔
      (j = i ∧ view phase = some key) ∨ (j ≠ i ∧ At view s key j) := by
  unfold At
  rw [phases_move]
  by_cases hj : j = i
  · simp [hj]
  · simp [hj]

omit [PyLib] in
/-- A task that has a target, before or after, uses the lock of this target only. -/
theorem guards_move
    (h : ∀ key, (s.locks key).Guards (At Phase.held? s key) (At Phase.awaited? s key))
    {target : String} {lock : AsyncLock} {phase : Phase}
    (hold : ∀ key, (s.phases i).target? = some key → key = target)
    (hnew : ∀ key, phase.target? = some key → key = target)
    (hguards : lock.Guards
      (fun j => (j = i ∧ phase.held? = some target) ∨ (j ≠ i ∧ At Phase.held? s target j))
      (fun j => (j = i ∧ phase.awaited? = some target) ∨ (j ≠ i ∧ At Phase.awaited? s target j)))
    (key : String) :
    (((s.setLock target lock).move i phase).locks key).Guards
      (At Phase.held? ((s.setLock target lock).move i phase) key)
      (At Phase.awaited? ((s.setLock target lock).move i phase) key) := by
  have hlock : ((s.setLock target lock).move i phase).locks key =
      if key = target then lock else s.locks key := by
    simp [setLock, move, Function.update_apply]
  -- The task has nothing to do with another lock, before or after.
  have hother {view : Phase → Option String}
      (hview : ∀ {ph k}, view ph = some k → ph.target? = some k) (hkey : key ≠ target) (j : ℕ) :
      At view ((s.setLock target lock).move i phase) key j ↔ At view s key j := by
    rw [at_move]
    constructor
    · rintro (⟨-, hj⟩ | ⟨-, hj⟩)
      · exact absurd (hnew key (hview hj)) hkey
      · exact hj
    · intro hj
      refine .inr ⟨fun heq => ?_, hj⟩
      rw [heq] at hj
      exact hkey (hold key (hview hj))
  rw [hlock]
  by_cases hkey : key = target
  · rw [if_pos hkey, hkey]
    exact hguards.congr (fun j => at_move) fun j => at_move
  · rw [if_neg hkey]
    exact (h key).congr (hother target?_of_held? hkey) (hother target?_of_awaited? hkey)

omit [PyLib] in
/-- A task that neither takes nor gives back a lock. -/
theorem guards_goto
    (h : ∀ key, (s.locks key).Guards (At Phase.held? s key) (At Phase.awaited? s key))
    {phase : Phase} (hheld : phase.held? = (s.phases i).held?)
    (hawaited : phase.awaited? = (s.phases i).awaited?) (key : String) :
    ((s.move i phase).locks key).Guards (At Phase.held? (s.move i phase) key)
      (At Phase.awaited? (s.move i phase) key) := by
  have hsame {view : Phase → Option String} (hview : view phase = view (s.phases i)) (j : ℕ) :
      At view (s.move i phase) key j ↔ At view s key j := by
    rw [at_move]
    by_cases hj : j = i
    · simp [hj, At, hview]
    · simp [hj]
  exact (h key).congr (hsame hheld) (hsame hawaited)

omit [PyLib] in
/-- What the tasks hold of the permits, after one of them went to another phase. -/
theorem sum_move {n : ℕ} (hi : i < n) (phase : Phase) :
    ∑ j ∈ Finset.range n, ((s.move i phase).phases j).permits + (s.phases i).permits =
      ∑ j ∈ Finset.range n, (s.phases j).permits + phase.permits := by
  have hmem : i ∈ Finset.range n := Finset.mem_range.mpr hi
  have hrest : ∑ j ∈ (Finset.range n).erase i, ((s.move i phase).phases j).permits =
      ∑ j ∈ (Finset.range n).erase i, (s.phases j).permits := by
    refine Finset.sum_congr rfl fun j hj => ?_
    rw [phases_move, if_neg (Finset.ne_of_mem_erase hj)]
  rw [← Finset.add_sum_erase _ _ hmem, hrest, ← Finset.add_sum_erase _ (fun j => (s.phases j).permits) hmem]
  simp only [phases_move, if_true]
  omega

omit [PyLib] in
/-- A task goes to a phase in which it executes on no session. -/
theorem sessions_move (h : ∀ j session, s.ExecutesOn j session → (j, session) ∈ s.sessions)
    {phase : Phase} (hphase : ∀ target session, phase ≠ .executing target session) (j : ℕ)
    (session : String) (hj : (s.move i phase).ExecutesOn j session) :
    (j, session) ∈ s.sessions := by
  obtain ⟨target, hj⟩ := executesOn_iff.mp hj
  rw [phases_move] at hj
  split_ifs at hj with heq
  · exact absurd hj (hphase target session)
  · exact h j session (executesOn_iff.mpr ⟨target, hj⟩)

/-- A phase with a target, of a task that has had this target. -/
theorem Fits.same {before phase : Phase} (h : Fits requests i before) {target : String}
    (hbefore : before.target? = some target) (hphase : phase.target? = some target) :
    Fits requests i phase where
  target key hkey := by
    rw [hphase] at hkey
    rw [← hkey]
    exact h.target target hbefore
  row row hrow := by
    cases phase <;> simp_all [Phase.row?, Phase.target?]
  bound := .inr <| by
    rcases h.bound with hcreated | hbound
    · rw [hcreated] at hbefore
      cases hbefore
    · exact hbound

/-- A task of a request has ended. -/
theorem Fits.done {row : Row} (hi : i < requests.length) (hrow : row.index = i) :
    Fits requests i (.done row) where
  target _ h := by cases h
  row _ h := by
    cases h
    exact hrow
  bound := .inr hi

variable {limit : ℕ}

/-- A task with a target changes the lock of this target, and what it holds of the permits. -/
theorem Invariant.update (h : Invariant requests limit s) {target : String} {lock : AsyncLock}
    {phase : Phase} {free : ℕ} (htarget : (s.phases i).target? = some target)
    (hfits : Fits requests i phase) (hnew : ∀ key, phase.target? = some key → key = target)
    (hnone : ∀ target session, phase ≠ .executing target session)
    (hfree : free + phase.permits = s.permits + (s.phases i).permits)
    (hguards : lock.Guards
      (fun j => (j = i ∧ phase.held? = some target) ∨ (j ≠ i ∧ At Phase.held? s target j))
      (fun j => (j = i ∧ phase.awaited? = some target) ∨ (j ≠ i ∧ At Phase.awaited? s target j))) :
    Invariant requests limit { (s.setLock target lock).move i phase with permits := free } where
  fits := fits_move h.fits hfits
  locked := by
    refine guards_move h.locked (fun key hkey => ?_) hnew hguards
    rw [htarget] at hkey
    exact (Option.some_inj.mp hkey).symm
  permits := by
    have hi : i < requests.length := by
      rcases (h.fits i).bound with hcreated | hbound
      · rw [hcreated] at htarget
        cases htarget
      · exact hbound
    have hsum := sum_move (s := s) hi phase
    have hlimit := h.permits
    show ∑ j ∈ Finset.range requests.length, ((s.move i phase).phases j).permits + free = limit
    omega
  sessions := sessions_move h.sessions hnone

/-- A task goes on without a lock or a permit. -/
theorem Invariant.goto (h : Invariant requests limit s) {phase : Phase}
    (hi : i < requests.length) (hcreated : s.phases i = .created) (hfits : Fits requests i phase)
    (hheld : phase.held? = none) (hawaited : phase.awaited? = none) (hpermits : phase.permits = 0)
    (hnone : ∀ target session, phase ≠ .executing target session) :
    Invariant requests limit (s.move i phase) where
  fits := fits_move h.fits hfits
  locked := guards_goto h.locked (by rw [hcreated, hheld]; rfl) (by rw [hcreated, hawaited]; rfl)
  permits := by
    have hsum := sum_move (s := s) hi phase
    have hlimit := h.permits
    have hzero : Phase.created.permits = 0 := rfl
    rw [hcreated, hpermits, hzero] at hsum
    show ∑ j ∈ Finset.range requests.length, ((s.move i phase).phases j).permits + s.permits = limit
    omega
  sessions := sessions_move h.sessions hnone

/-- What holds between two steps, whatever the next one is. -/
theorem Invariant.step (h : Invariant requests limit s) (e : Step) :
    Invariant requests limit (s.step requests e) := by
  have hmoves := step_moves requests s e
  revert hmoves
  generalize s.step requests e = s'
  intro hmoves
  cases hmoves with
  | stays => exact h
  | rejected i request message hphase hrequest hcheck =>
    have hi := (List.getElem?_eq_some_iff.mp hrequest).1
    exact h.goto hi hphase (.done hi rfl) rfl rfl rfl (by simp)
  | queued i request target hphase hrequest hcheck =>
    have hi := (List.getElem?_eq_some_iff.mp hrequest).1
    have hfits : Fits requests i (.queued target) :=
      { target := fun key hkey => by
          cases hkey
          simp [targetOf?, hrequest, hcheck, Except.toOption]
        row := fun _ hrow => by cases hrow
        bound := .inr hi }
    exact h.goto hi hphase hfits rfl rfl rfl (by simp)
  | taken i target hphase hfree htaken =>
    have htarget : (s.phases i).target? = some target := by rw [hphase]; rfl
    refine h.update htarget ((h.fits i).same htarget rfl) (fun _ hkey => by cases hkey; rfl)
      (by simp) ?_ ?_
    · rw [hphase]
      simp only [Phase.permits]
      omega
    · refine ((h.locked target).acquire_taken htaken).congr (fun j => ?_) fun j => ?_
      · by_cases hj : j = i
        · simp [hj, Phase.held?]
        · simp [hj]
      · by_cases hj : j = i
        · simp [hj, At, hphase, Phase.awaited?]
        · simp [hj]
  | waits i target hphase hfree htaken =>
    have htarget : (s.phases i).target? = some target := by rw [hphase]; rfl
    have hwaits : ¬ At Phase.awaited? s target i := by simp [At, hphase, Phase.awaited?]
    refine h.update htarget ((h.fits i).same htarget rfl) (fun _ hkey => by cases hkey; rfl)
      (by simp) ?_ ?_
    · rw [hphase]
      simp only [Phase.permits]
      omega
    · refine ((h.locked target).acquire_queued hwaits htaken).congr (fun j => ?_) fun j => ?_
      · by_cases hj : j = i
        · simp [hj, At, hphase, Phase.held?]
        · simp [hj]
      · by_cases hj : j = i
        · simp [hj, Phase.awaited?]
        · simp [hj]
  | resumed i target hphase hresumes =>
    have htarget : (s.phases i).target? = some target := by rw [hphase]; rfl
    show Invariant requests limit
      { (s.setLock target (s.locks target).resume).move i (.resolving target) with
        permits := s.permits }
    refine h.update htarget ((h.fits i).same htarget rfl) (fun _ hkey => by cases hkey; rfl)
      (by simp) ?_ ?_
    · rw [hphase]
      rfl
    · refine ((h.locked target).resume hresumes).congr (fun j => ?_) fun j => ?_
      · by_cases hj : j = i
        · simp [hj, Phase.held?]
        · simp [hj]
      · by_cases hj : j = i
        · simp [hj, Phase.awaited?]
        · simp [hj]
  | found i target session hphase =>
    have htarget : (s.phases i).target? = some target := by rw [hphase]; rfl
    have hi : i < requests.length := by
      rcases (h.fits i).bound with hcreated | hbound
      · rw [hcreated] at hphase
        cases hphase
      · exact hbound
    constructor
    · exact fits_move h.fits ((h.fits i).same htarget rfl)
    · exact guards_goto h.locked (by rw [hphase]; rfl) (by rw [hphase]; rfl)
    · have hsum := sum_move (s := s) hi (.executing target session)
      have hlimit := h.permits
      have hone : Phase.permits (.resolving target) = 1 := rfl
      have hone' : Phase.permits (.executing target session) = 1 := rfl
      rw [hphase, hone, hone'] at hsum
      show ∑ j ∈ Finset.range requests.length,
        ((s.move i (.executing target session)).phases j).permits + s.permits = limit
      omega
    · intro j session' hj
      obtain ⟨target', hj⟩ := executesOn_iff.mp hj
      rw [phases_move] at hj
      split_ifs at hj with heq
      · cases hj
        rw [heq]
        exact List.mem_cons_self
      · exact List.mem_cons_of_mem _ (h.sessions j session' (executesOn_iff.mpr ⟨target', hj⟩))
  | ended i target outcome hheld =>
    have htarget := target?_of_held? hheld
    have hi : i < requests.length := by
      rcases (h.fits i).bound with hcreated | hbound
      · rw [hcreated] at hheld
        cases hheld
      · exact hbound
    have hindex : (outcome.row i).index = i := by cases outcome <;> rfl
    have hone : (s.phases i).permits = 1 := by
      cases hphase : s.phases i <;> simp_all [Phase.held?, Phase.permits]
    have hwaits : ¬ At Phase.awaited? s target i := by
      unfold At
      cases hphase : s.phases i <;> simp_all [Phase.held?, Phase.awaited?]
    refine h.update htarget (.done hi hindex) (fun _ hkey => by cases hkey) (by simp) ?_ ?_
    · rw [hone]
      rfl
    · refine ((h.locked target).release hheld).congr (fun j => ?_) fun j => ?_
      · by_cases hj : j = i
        · simp [hj, Phase.held?]
        · simp [hj]
      · by_cases hj : j = i
        · simp only [hj, hwaits, Phase.awaited?]
          simp
        · simp [hj]

/-! ## Results -/

omit [PyLib] in
/-- The rows that are gathered are those of the tasks, in their order. -/
theorem gathered_eq_some {rows : List Row} : s.gathered requests = some rows ↔
    List.Forall₂ (fun index row => (s.phases index).row? = some row)
      (List.range requests.length) rows := by
  unfold gathered
  generalize List.range requests.length = indices
  induction indices generalizing rows with
  | nil => cases rows <;> simp
  | cons index indices ih =>
    cases rows with
    | nil => simp [Option.bind_eq_some_iff]
    | cons row rows => simp [Option.bind_eq_some_iff, ih]

omit [PyLib] in
/-- Once every task has ended, there are the results of all. -/
theorem gathered_of_done (h : ∀ index < requests.length, ∃ row, s.phases index = .done row) :
    ∃ rows, s.gathered requests = some rows := by
  have hrow : ∀ index ∈ List.range requests.length, ∃ row, (s.phases index).row? = some row := by
    intro index hindex
    obtain ⟨row, hrow⟩ := h index (List.mem_range.mp hindex)
    exact ⟨row, by rw [hrow]; rfl⟩
  have hall : ∃ rows, List.Forall₂ (fun index row => (s.phases index).row? = some row)
      (List.range requests.length) rows := by
    generalize List.range requests.length = indices at hrow
    induction indices with
    | nil => exact ⟨[], .nil⟩
    | cons index indices ih =>
      obtain ⟨row, hfirst⟩ := hrow index List.mem_cons_self
      obtain ⟨rows, hrest⟩ := ih fun j hj => hrow j (List.mem_cons_of_mem index hj)
      exact ⟨row :: rows, .cons hfirst hrest⟩
  obtain ⟨rows, hrows⟩ := hall
  exact ⟨rows, gathered_eq_some.mpr hrows⟩

/-- The results that are gathered have the indices of the requests. -/
theorem Invariant.indices (h : Invariant requests limit s) {rows : List Row}
    (hrows : s.gathered requests = some rows) :
    rows.map Row.index = List.range requests.length := by
  have hall := gathered_eq_some.mp hrows
  generalize List.range requests.length = indices at hall
  clear hrows
  induction hall with
  | nil => rfl
  | cons hrow _ ih => rw [List.map_cons, ih, (h.fits _).row _ hrow]

omit [PyLib] in
/-- Results in the order of the requests stay as they are. -/
theorem payload_results {rows : List Row} {n : ℕ} (h : rows.map Row.index = List.range n) :
    (payload rows).results = rows := by
  have hsorted : rows.Pairwise fun a b => a.index ≤ b.index := by
    have hrange : (List.range n).Pairwise (· ≤ ·) := List.pairwise_le_range
    rw [← h, List.pairwise_map] at hrange
    exact hrange
  exact List.Pairwise.insertionSort_eq hsorted

/-- As long as a task waits for a lock, one can go on. -/
theorem Invariant.canGoOn_of_waiting (h : Invariant requests limit s) {target : String}
    (hphase : s.phases i = .waiting target) : s.CanGoOn requests := by
  have hbound {j : ℕ} (hj : s.phases j ≠ .created) : j < requests.length :=
    (h.fits j).bound.resolve_left hj
  have hwaits : At Phase.awaited? s target i := by rw [At, hphase]; rfl
  rcases (h.locked target).runnable hwaits with ⟨j, hj⟩ | ⟨j, hresumes, hj⟩
  · have hcreated : s.phases j ≠ .created := by
      intro hcreated
      rw [At, hcreated] at hj
      cases hj
    refine ⟨j, hbound hcreated, ?_⟩
    unfold At at hj
    split <;> simp_all [Phase.held?]
  · have hphase' : s.phases j = .waiting target := by
      unfold At at hj
      cases hphase' : s.phases j <;> simp_all [Phase.awaited?]
    refine ⟨j, hbound (by simp [hphase']), ?_⟩
    rw [hphase']
    exact hresumes

/-- Until all the results are there, a task can go on. -/
theorem Invariant.progress (h : Invariant requests limit s) (hlimit : 0 < limit) :
    (∃ rows, s.gathered requests = some rows) ∨ s.CanGoOn requests := by
  by_cases hdone : ∀ index < requests.length, ∃ row, s.phases index = .done row
  · exact .inl (gathered_of_done hdone)
  · right
    push Not at hdone
    obtain ⟨index, hindex, hnot⟩ := hdone
    cases hphase : s.phases index with
    | created => exact ⟨index, hindex, by rw [hphase]; trivial⟩
    | resolving target => exact ⟨index, hindex, by rw [hphase]; trivial⟩
    | executing target session => exact ⟨index, hindex, by rw [hphase]; trivial⟩
    | waiting target => exact h.canGoOn_of_waiting hphase
    | done row => exact absurd hphase (hnot row)
    | queued target =>
      by_cases hfree : 0 < s.permits
      · exact ⟨index, hindex, by rw [hphase]; exact hfree⟩
      · -- No permit is free, so a task has one.
        have hsum := h.permits
        have htaken : ∑ j ∈ Finset.range requests.length, (s.phases j).permits ≠ 0 := by omega
        obtain ⟨j, hj, hpermits⟩ := Finset.exists_ne_zero_of_sum_ne_zero htaken
        have hj := Finset.mem_range.mp hj
        cases hphase' : s.phases j with
        | waiting target' => exact h.canGoOn_of_waiting hphase'
        | resolving target' => exact ⟨j, hj, by rw [hphase']; trivial⟩
        | executing target' session => exact ⟨j, hj, by rw [hphase']; trivial⟩
        | created | queued | done => simp [hphase', Phase.permits] at hpermits

/-- The sessions that were found, by requests with one target each. -/
def Apart (requests : List Value) (s : Batches) : Prop :=
  ∀ a ∈ s.sessions, ∀ b ∈ s.sessions, a.2 = b.2 →
    targetOf? requests a.1 = targetOf? requests b.1

/-- A session that is found under the condition keeps the targets apart. -/
theorem apart_step (h : Apart requests s) {e : Step} (he : SameTarget requests s e) :
    Apart requests (s.step requests e) := by
  have hmoves := step_moves requests s e
  revert hmoves
  generalize s.step requests e = s'
  intro hmoves
  cases hmoves with
  | found i target session hphase =>
    intro a ha b hb hab
    rcases List.mem_cons.mp ha with rfl | ha <;> rcases List.mem_cons.mp hb with rfl | hb
    · rfl
    · exact (he b hb hab.symm).symm
    · exact he a ha hab
    · exact h a ha b hb hab
  | stays | rejected | queued | taken | waits | resumed | ended => exact h

/-- While the targets are apart, no two requests execute on one session. -/
theorem Invariant.exclusive (h : Invariant requests limit s) (hapart : Apart requests s) {i j : ℕ}
    {session : String} (hi : s.ExecutesOn i session) (hj : s.ExecutesOn j session) : i = j := by
  have hsame := hapart _ (h.sessions i session hi) _ (h.sessions j session hj) rfl
  obtain ⟨target, hi⟩ := executesOn_iff.mp hi
  obtain ⟨target', hj⟩ := executesOn_iff.mp hj
  have htarget := (h.fits i).target target (by rw [hi]; rfl)
  have htarget' := (h.fits j).target target' (by rw [hj]; rfl)
  have heq : target = target' := by
    rw [htarget, htarget'] at hsame
    exact Option.some_inj.mp hsame
  -- Both hold the lock of the one target.
  exact (h.locked target).exclusive i j (by rw [At, hi]; rfl) (by rw [At, hj, heq]; rfl)

/-- With one permit, no two requests execute. -/
theorem Invariant.exclusive_of_one (h : Invariant requests 1 s) {i j : ℕ} {session : String}
    (hi : s.ExecutesOn i session) (hj : s.ExecutesOn j session) : i = j := by
  by_contra hne
  have hphase {k : ℕ} (hk : s.ExecutesOn k session) :
      k ∈ Finset.range requests.length ∧ (s.phases k).permits = 1 := by
    obtain ⟨target, hphase⟩ := executesOn_iff.mp hk
    have hcreated : s.phases k ≠ .created := by simp [hphase]
    exact ⟨Finset.mem_range.mpr ((h.fits k).bound.resolve_left hcreated), by rw [hphase]; rfl⟩
  obtain ⟨hmem, hone⟩ := hphase hi
  obtain ⟨hmem', hone'⟩ := hphase hj
  have hrest : (s.phases j).permits ≤
      ∑ k ∈ (Finset.range requests.length).erase i, (s.phases k).permits :=
    Finset.single_le_sum (f := fun k => (s.phases k).permits) (fun _ _ => Nat.zero_le _)
      (Finset.mem_erase.mpr ⟨fun heq => hne heq.symm, hmem'⟩)
  have hsum := h.permits
  rw [← Finset.add_sum_erase _ _ hmem] at hsum
  omega

theorem invariant_initial (requests : List Value) (maxConcurrency : ℤ) :
    Invariant requests (max 1 (min maxConcurrency 32)).toNat (initial maxConcurrency) where
  fits i :=
    { target := fun _ h => by cases h
      row := fun _ h => by cases h
      bound := .inl rfl }
  locked key := AsyncLock.guards_new (fun t ht => by cases ht) fun t ht => by cases ht
  permits := by simp [initial, Phase.permits]
  sessions _ _ h := by cases h

/-- The locks, the permits and the phases are in order in every run. -/
theorem invariant_run (requests : List Value) (maxConcurrency : ℤ) (steps : List Step) :
    Invariant requests (max 1 (min maxConcurrency 32)).toNat
      (Machine.run (step requests) (initial maxConcurrency) steps) := by
  have hmeets : Machine.Meets (step requests) (fun _ _ => True) (initial maxConcurrency) steps :=
    Machine.meets_of_forall (fun _ _ => trivial) _ steps
  exact hmeets.invariant (fun _ e hs _ => hs.step e) (invariant_initial requests maxConcurrency)

/-- The results, their counts and the progress of the tasks are right in every run; no two requests
execute on one session where there is one permit, or in the runs in which the requests that find a
session have one target. -/
theorem parallel_batches_correct (requests : List Value) (maxConcurrency : ℤ) (steps : List Step)
    (h : maxConcurrency ≤ 1 ∨
      Machine.Meets (step requests) (SameTarget requests) (initial maxConcurrency) steps) :
    Correct requests (Machine.run (step requests) (initial maxConcurrency) steps) := by
  have hinv := invariant_run requests maxConcurrency steps
  have hlimit : 0 < (max 1 (min maxConcurrency 32)).toNat := by omega
  constructor
  · intro rows hrows
    have hindices := hinv.indices hrows
    rw [payload_results hindices, hindices]
  · intro rows hrows
    have hindices := hinv.indices hrows
    have hlength : rows.length = requests.length := by
      have h := congrArg List.length hindices
      rwa [List.length_map, List.length_range] at h
    have hresults : rows.insertionSort (fun a b => a.index ≤ b.index) = rows :=
      payload_results hindices
    have hcount : (payload rows).requestCount = requests.length := by
      show (rows.insertionSort _).length = _
      rw [hresults, hlength]
    refine ⟨hcount, ?_⟩
    have hsum : (payload rows).completedCount + (payload rows).failedCount =
        (payload rows).requestCount := by
      unfold payload
      dsimp only
      omega
    rw [hsum, hcount]
  · exact hinv.progress hlimit
  · intro i j session hi hj
    rcases h with hone | hmeets
    · have heq : (max 1 (min maxConcurrency 32)).toNat = 1 := by omega
      rw [heq] at hinv
      exact hinv.exclusive_of_one hi hj
    · have hinitial : Apart requests (initial maxConcurrency) := fun a ha => by cases ha
      have hapart := hmeets.invariant (fun _ _ hs he => apart_step hs he) hinitial
      exact hinv.exclusive hapart hi hj

/-- A request with one command, for a session or for a device. -/
def requestFor (field target : String) : Value :=
  .dict [("commands", .list [.str "display version"]), (field, .str target)]

instance (requests : List Value) (s : Batches) : ∀ e, Decidable (SameTarget requests s e)
  | .found index session => inferInstanceAs (Decidable (∀ other ∈ s.sessions, other.2 = session →
      targetOf? requests other.1 = targetOf? requests index))
  | .run _ | .enter _ | .resume _ | .ended _ _ => inferInstanceAs (Decidable True)

/-- Two requests by the id of one session, and one that is malformed. -/
def sameSession : List Value :=
  [requestFor "session_id" "s1", .str "display version", requestFor "session_id" "s1"]

/-- The second of the two waits until the first has ended. -/
def sameSessionSteps : List Step :=
  [.run 0, .run 1, .run 2, .enter 0, .enter 2, .found 0 "s1",
    .ended 0 (.returned ⟨[("status", .str "success")]⟩), .resume 2, .found 2 "s1"]

omit [PyLib] in
theorem parallel_batches_correct_sameSession : letI := PyLib.decimal
    Correct sameSession (Machine.run (step sameSession) (initial 8) sameSessionSteps) := by
  exact @parallel_batches_correct PyLib.decimal sameSession 8 sameSessionSteps
    (.inr (by decide +kernel))

/-- A request by the id of a session, and one by the id of its device. -/
def sessionAndDevice : List Value :=
  [requestFor "session_id" "s1", requestFor "device_id" "d1"]

/-- Each takes the lock of its own target. -/
def sessionAndDeviceSteps : List Step :=
  [.run 0, .run 1, .enter 0, .enter 1, .found 0 "s1", .found 1 "s1"]

omit [PyLib] in
/-- Both requests find the session before one of them ends, and execute on it. -/
theorem not_parallel_batches_exclusive : letI := PyLib.decimal
    ¬∀ (requests : List Value) (maxConcurrency : ℤ) (steps : List Step),
      Correct requests (Machine.run (step requests) (initial maxConcurrency) steps) := by
  let := PyLib.decimal
  intro hall
  have hfirst : (Machine.run (step sessionAndDevice) (initial 8) sessionAndDeviceSteps).ExecutesOn
      0 "s1" := by
    decide +kernel
  have hsecond : (Machine.run (step sessionAndDevice) (initial 8) sessionAndDeviceSteps).ExecutesOn
      1 "s1" := by
    decide +kernel
  cases (hall sessionAndDevice 8 sessionAndDeviceSteps).exclusive 0 1 "s1" hfirst hsecond

end Batches

end DeviceShell.Ai
