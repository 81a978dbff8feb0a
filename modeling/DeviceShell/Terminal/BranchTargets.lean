import DeviceShell.Terminal.SilentCycles

/-!
# The targets of a plan's steps

The author of a plan names the steps that a step leads to, or gives their positions in the list that
is submitted. The parser normalises the list first: it drops the steps that only say `done`, and
puts a step behind a `send` that expects a prompt. The positions that the runner takes are those of
the normalised list, and of the names it takes `retry` and `stop` for keywords wherever they stand.
`targetsTaken_iff` says for which submitted plans every target is the step that its author means.
-/

namespace DeviceShell.Terminal

open Method

/-! ## Where the runner goes -/

/-- Where a target leads. -/
inductive Destination where
  /-- No branch is taken. -/
  | none
  | step (position : ℕ)
  | completed
  /-- There is no such step. -/
  | missing
deriving DecidableEq, Repr

/-- Where `_take_branch_locked` goes. -/
def branchDestination (x : Execution) (source : ℕ) (target : String) : Destination :=
  if target = "" ∨ target = "stop" then .none
  else match branchTarget x source target with
    | none => .missing
    | some index => .step index

/-- Where a step with a target by number goes: a `send` goes to it, and an `expect` ends the plan at
its own position or behind the last step. -/
def numberDestination (x : Execution) (source target : ℕ) : TerminalStep → Destination
  | .expect _ => if target = source ∨ target ≥ x.plan.steps.length then .completed
    else .step target
  | _ => .step target

variable {x : Execution} {s : Runner}

section

variable [PyLib]

/-- A step that expects output and has a target by number goes on from it, or ends the plan. -/
theorem completeExpect_number {step : ExpectStep} {target : ℕ}
    (htarget : step.successTarget = some target) (fuel : ℕ) (matched : String) :
    (completeExpect x fuel step matched).run s =
      match numberDestination x s.currentStep target (.expect step) with
      | .step index =>
        (advance x fuel).run { s.completeStep x matched with currentStep := index }
      | _ => some (.ok (), (s.completeStep x matched).finish x .completed "" "终端交互执行完成。") := by
  have hposition : (s.completeStep x matched).currentStep = s.currentStep := by
    unfold Runner.completeStep Runner.finishActiveStep
    split <;> simp only [Runner.recordEvent]
  rw [completeExpect, run_modify]
  simp only [htarget]
  rw [run_get, hposition, numberDestination]
  by_cases hend : target = s.currentStep ∨ target ≥ x.plan.steps.length
  · rw [if_pos hend, if_pos hend]
    rfl
  · rw [if_neg hend, if_neg hend, run_modify]

end

/-! ## Submitted plans -/

section

variable [PyLib]

/-- The steps that each submitted step becomes. -/
def submittedBlocks : Value → List (List (Dict String Value))
  | .list items => (items.mapM normalizeCompatStep).toOption.getD []
  | _ => []

end

/-- A submitted step stands at a position of the plan. -/
def StandsAt (blocks : List (List (Dict String Value))) (submitted position : ℕ) : Prop :=
  (∃ head rest, blocks[submitted]? = some (head :: rest)) ∧
    (blocks.take submitted).flatten.length = position

section

variable [PyLib]

/-- The type that a normalised step is parsed as. -/
def stepKind (raw : Dict String Value) : String := PyLib.casefold (strippedField raw "type")

/-- The number in a list of one number. -/
def numberIn : Option Value → Option ℕ
  | some (.list [v]) => v.asInt?.map Int.toNat
  | _ => none

/-- The target by number that a normalised step gives. -/
def submittedTarget (raw : Dict String Value) : Option ℕ :=
  if stepKind raw = "send" ∨ stepKind raw = "expect" then numberIn (raw.get? "success") else none

/-- The step that a normalised step names for a match. -/
def submittedMatch (raw : Dict String Value) : String :=
  if stepKind raw = "expect" ∨ stepKind raw = "wait_state" then strippedField raw "on_match" else ""

/-- What the author of a plan means by the number of a step: the step that stands there in the list
that was submitted; an `expect` step that gives its own number ends the plan. -/
inductive NumberMeans (blocks : List (List (Dict String Value))) (submitted target : ℕ) :
    TerminalStep → Destination → Prop where
  | step {step : TerminalStep} {position : ℕ} (other : ∀ e, step = .expect e → target ≠ submitted)
      (stands : StandsAt blocks target position) : NumberMeans blocks submitted target step (.step position)
  | itself {step : ExpectStep} (own : target = submitted) :
      NumberMeans blocks submitted target (.expect step) .completed

/-- What the author of a plan means by the name of a step. -/
def NameMeans (plan : TerminalExecutionPlan) (name : String) (destination : Destination) : Prop :=
  ∃ position step, plan.steps[position]? = some step ∧ step.name = name ∧
    destination = .step position

/-- Every target is the step that it means, and the plan keeps to its limit. -/
structure TargetsTaken (raw : Value) (x : Execution) : Prop where
  bounded : x.plan.steps.length ≤ maxPlanSteps
  numbered : ∀ submitted position step target, StandsAt (submittedBlocks raw) submitted position →
    x.plan.steps[position]? = some step → step.target? = some target →
      NumberMeans (submittedBlocks raw) submitted target step
        (numberDestination x position target step)
  matched : ∀ position step onMatch onFailure maxRetries, x.plan.steps[position]? = some step →
    step.branches? = some (onMatch, onFailure, maxRetries) → onMatch ≠ "" →
      NameMeans x.plan onMatch (branchDestination x position onMatch)
  /-- For a failure, `stop` and `retry` are keywords. -/
  failed : ∀ position step onMatch onFailure maxRetries, x.plan.steps[position]? = some step →
    step.branches? = some (onMatch, onFailure, maxRetries) → onFailure ≠ "" →
      if onFailure = "stop" then branchDestination x position onFailure = .none
      else if onFailure = "retry" then branchDestination x position onFailure = .step position
      else NameMeans x.plan onFailure (branchDestination x position onFailure)

/-- A submitted plan whose normalisation moves no step that another one goes to by number, and whose
steps do not name a step `stop` or, but for that step itself, `retry`. -/
structure TargetsPlain (raw : Value) : Prop where
  bounded : (submittedBlocks raw).flatten.length ≤ maxPlanSteps
  numbered : ∀ block ∈ submittedBlocks raw, ∀ head ∈ block.head?, ∀ target ∈ submittedTarget head,
    StandsAt (submittedBlocks raw) target target
  stopped : ∀ head ∈ (submittedBlocks raw).flatten, submittedMatch head ≠ "stop"
  retried : ∀ head ∈ (submittedBlocks raw).flatten, submittedMatch head = "retry" →
    strippedField head "name" = "retry"

/-! ## What is parsed -/

variable {raw : Dict String Value} {index : ℕ}

theorem stepName_eq {name : String} (h : stepName raw index = .ok name) :
    name = strippedField raw "name" := by
  unfold stepName at h
  simp only at h
  split at h
  · exact absurd h (by simp [invalidPlan])
  · exact (Except.ok.inj h).symm

omit [PyLib] in
theorem numericTransition_eq {value : Option Value} {target : Option ℕ}
    (h : numericTransition value index = .ok target) : target = numberIn value := by
  cases value with
  | none => exact (Except.ok.inj h).symm
  | some value => cases value with
    | list items =>
      rcases items with _ | ⟨v, _ | ⟨w, rest⟩⟩
      · exact (Except.ok.inj h).symm
      · simp only [numericTransition] at h
        simp only [numberIn]
        cases hv : v.asInt? with
        | none =>
          rw [hv] at h
          exact (Except.ok.inj h).symm
        | some n =>
          rw [hv] at h
          simp only at h
          split at h
          · exact absurd h (by simp [invalidPlan])
          · exact (Except.ok.inj h).symm
      · exact (Except.ok.inj h).symm
    | _ => exact (Except.ok.inj h).symm

omit [PyLib] in
/-- A check that has been passed. -/
theorem of_check {α β : Type} {c : Prop} [Decidable c] {check : Except PlanError β}
    {k : Except PlanError α} {a : α} (h : (if c then check >>= fun _ => k else k) = .ok a) :
    k = .ok a := by
  by_cases hc : c
  · rw [if_pos hc] at h
    obtain ⟨_, -, hk⟩ := Except.bind_eq_ok.1 h
    exact hk
  · rwa [if_neg hc] at h

omit [PyLib] in
/-- Two ways to one value. -/
theorem of_either {α β : Type} {c : Prop} [Decidable c] {m n : Except PlanError β}
    {k : β → Except PlanError α} {a : α} (h : (if c then m >>= k else n >>= k) = .ok a) :
    ∃ b, k b = .ok a := by
  by_cases hc : c
  · rw [if_pos hc] at h
    obtain ⟨b, -, hk⟩ := Except.bind_eq_ok.1 h
    exact ⟨b, hk⟩
  · rw [if_neg hc] at h
    obtain ⟨b, -, hk⟩ := Except.bind_eq_ok.1 h
    exact ⟨b, hk⟩

/-- What a step that has been parsed gives away of its targets. -/
structure Reads (raw : Dict String Value) (step : TerminalStep) : Prop where
  name : step.name = strippedField raw "name"
  target : step.target? = submittedTarget raw
  onMatch : (step.branches?.map Prod.fst).getD "" = submittedMatch raw

theorem parseSendStep_reads {step : SendStep} (hkind : stepKind raw = "send")
    (h : parseSendStep raw index = .ok step) : Reads raw (.send step) := by
  simp only [parseSendStep] at h
  obtain ⟨⟨text, control, secretRef⟩, -, h⟩ := Except.bind_eq_ok.1 h
  obtain ⟨name, hname, h⟩ := Except.bind_eq_ok.1 (of_check (of_check h))
  obtain ⟨target, htarget, h⟩ := Except.bind_eq_ok.1 h
  obtain rfl := Except.ok.inj h
  refine ⟨stepName_eq hname, ?_, ?_⟩
  · simp only [submittedTarget, hkind, TerminalStep.target?]
    exact numericTransition_eq htarget
  · simp [submittedMatch, hkind, TerminalStep.branches?]

theorem parseWaitStateStep_reads {step : WaitStateStep} (hkind : stepKind raw = "wait_state")
    (h : parseWaitStateStep raw index = .ok step) : Reads raw (.waitState step) := by
  simp only [parseWaitStateStep] at h
  obtain ⟨_, -, h⟩ := Except.bind_eq_ok.1 (of_check h)
  obtain ⟨name, hname, h⟩ := Except.bind_eq_ok.1 h
  obtain ⟨_, -, h⟩ := Except.bind_eq_ok.1 h
  obtain ⟨_, -, h⟩ := Except.bind_eq_ok.1 h
  obtain rfl := Except.ok.inj h
  refine ⟨stepName_eq hname, ?_, ?_⟩
  · simp [submittedTarget, hkind, TerminalStep.target?]
  · simp [submittedMatch, hkind, TerminalStep.branches?]

theorem parseExpectStep_reads {step : ExpectStep} (hkind : stepKind raw = "expect")
    (h : parseExpectStep raw index = .ok step) : Reads raw (.expect step) := by
  simp only [parseExpectStep] at h
  obtain ⟨target, htarget, h⟩ := Except.bind_eq_ok.1 (of_check h)
  obtain ⟨_, h⟩ := of_either h
  split at h
  · obtain ⟨_, -, h⟩ := Except.bind_eq_ok.1 h
    obtain ⟨_, -, h⟩ := Except.bind_eq_ok.1 h
    obtain ⟨_, -, h⟩ := Except.bind_eq_ok.1 h
    obtain ⟨_, -, h⟩ := Except.bind_eq_ok.1 h
    obtain ⟨_, -, h⟩ := Except.bind_eq_ok.1 h
    obtain ⟨_, -, h⟩ := Except.bind_eq_ok.1 h
    obtain ⟨_, -, h⟩ := Except.bind_eq_ok.1 h
    obtain ⟨name, hname, h⟩ := Except.bind_eq_ok.1 h
    obtain ⟨_, -, h⟩ := Except.bind_eq_ok.1 h
    obtain rfl := Except.ok.inj h
    refine ⟨stepName_eq hname, ?_, ?_⟩
    · simp only [submittedTarget, hkind, TerminalStep.target?]
      exact numericTransition_eq htarget
    · simp [submittedMatch, hkind, TerminalStep.branches?]
  · exact absurd h (by simp [invalidPlan])

theorem parseStep_reads {step : TerminalStep} (h : parseStep raw index = .ok step) :
    Reads raw step := by
  have hparse : (if stepKind raw = "send" then return .send (← parseSendStep raw index)
      else if stepKind raw = "expect" then return .expect (← parseExpectStep raw index)
      else if stepKind raw = "wait_state" then return .waitState (← parseWaitStateStep raw index)
      else invalidPlan ("步骤 " ++ toString index ++ " 类型无效: " ++
        (if stepKind raw = "" then "<empty>" else stepKind raw))) = Except.ok step := h
  split at hparse
  · rename_i hkind
    obtain ⟨parsed, hparsed, heq⟩ := Except.bind_eq_ok.1 hparse
    obtain rfl := Except.ok.inj heq
    exact parseSendStep_reads hkind hparsed
  · split at hparse
    · rename_i hkind
      obtain ⟨parsed, hparsed, heq⟩ := Except.bind_eq_ok.1 hparse
      obtain rfl := Except.ok.inj heq
      exact parseExpectStep_reads hkind hparsed
    · split at hparse
      · rename_i hkind
        obtain ⟨parsed, hparsed, heq⟩ := Except.bind_eq_ok.1 hparse
        obtain rfl := Except.ok.inj heq
        exact parseWaitStateStep_reads hkind hparsed
      · exact absurd hparse (by simp [invalidPlan])

omit [PyLib] in
/-- Lists that are related element by element are so at every position. -/
theorem forall₂_getElem? {α β : Type} {R : α → β → Prop} {xs : List α} {ys : List β}
    (h : List.Forall₂ R xs ys) (i : ℕ) : Option.Rel R xs[i]? ys[i]? := by
  induction h generalizing i with
  | nil => exact .none
  | cons hxy _ ih => cases i with
    | zero => exact .some hxy
    | succ i => exact ih i

/-- The steps of a plan are read from the submitted steps, block after block. -/
theorem parse_reads {raw total : Value} {plan : TerminalExecutionPlan}
    (h : parseTerminalPlan raw total = .ok plan) :
    List.Forall₂ Reads (submittedBlocks raw).flatten plan.steps := by
  obtain ⟨first, rest, normalized, rfl, -, -, hnormalized, hparsed, -, -⟩ :=
    parseTerminalPlan_eq_ok.1 h
  have hblocks : (submittedBlocks (.list (first :: rest))).flatten = normalized := by
    obtain ⟨blocks, hblocks, heq⟩ := Except.bind_eq_ok.1 hnormalized
    rw [← Except.ok.inj heq, submittedBlocks, hblocks]
    rfl
  have hsteps : List.Forall₂ (fun raw step => Reads raw step) (normalized.zipIdx.map Prod.fst)
      plan.steps :=
    List.forall₂_map_left_iff.2 ((Except.mapM_eq_ok.1 hparsed).imp fun _ _ => parseStep_reads)
  rw [List.zipIdx_map_fst] at hsteps
  rw [hblocks]
  exact hsteps

omit [PyLib] in
/-- The first step of a block stands behind the blocks before it. -/
theorem getElem?_flatten_block {α : Type} {blocks : List (List α)} {j : ℕ} {head : α}
    {rest : List α} (h : blocks[j]? = some (head :: rest)) :
    blocks.flatten[(blocks.take j).flatten.length]? = some head := by
  induction blocks generalizing j with
  | nil => exact absurd h (by simp)
  | cons block blocks ih => cases j with
    | zero =>
      obtain rfl : block = head :: rest := by simpa using h
      simp
    | succ j =>
      have hblock : blocks.flatten[(blocks.take j).flatten.length]? = some head :=
        ih (by simpa using h)
      have hlength : ((block :: blocks).take (j + 1)).flatten.length =
          block.length + (blocks.take j).flatten.length := by
        rw [List.take_succ_cons, List.flatten_cons, List.length_append]
      rw [hlength, List.flatten_cons, List.getElem?_append_right (by omega)]
      simpa using hblock

omit [PyLib] in
/-- A block with a step in it moves on what comes behind it. -/
theorem length_flatten_lt {α : Type} {blocks : List (List α)} {j k : ℕ} {head : α} {rest : List α}
    (h : blocks[j]? = some (head :: rest)) (hlt : j < k) :
    (blocks.take j).flatten.length < (blocks.take k).flatten.length := by
  induction blocks generalizing j k with
  | nil => exact absurd h (by simp)
  | cons block blocks ih =>
    obtain ⟨k, rfl⟩ : ∃ m, k = m + 1 := ⟨k - 1, by omega⟩
    rw [List.take_succ_cons, List.flatten_cons, List.length_append]
    cases j with
    | zero =>
      obtain rfl : block = head :: rest := by simpa using h
      simp
    | succ j =>
      have hless := ih (k := k) (by simpa using h) (by omega)
      rw [List.take_succ_cons, List.flatten_cons, List.length_append]
      omega

omit [PyLib] in
theorem StandsAt.getElem? {blocks : List (List (Dict String Value))} {submitted position : ℕ}
    (h : StandsAt blocks submitted position) :
    ∃ head rest, blocks[submitted]? = some (head :: rest) ∧
      blocks.flatten[position]? = some head := by
  obtain ⟨⟨head, rest, hblock⟩, rfl⟩ := h
  exact ⟨head, rest, hblock, getElem?_flatten_block hblock⟩

omit [PyLib] in
/-- No two submitted steps stand at one position. -/
theorem StandsAt.unique {blocks : List (List (Dict String Value))} {j k position : ℕ}
    (hj : StandsAt blocks j position) (hk : StandsAt blocks k position) : j = k := by
  obtain ⟨⟨_, _, hblock⟩, hposition⟩ := hj
  obtain ⟨⟨_, _, hblock'⟩, hposition'⟩ := hk
  rcases Nat.lt_trichotomy j k with hlt | heq | hlt
  · have hless := length_flatten_lt hblock hlt
    omega
  · exact heq
  · have hless := length_flatten_lt hblock' hlt
    omega

/-! ## Names -/

omit [PyLib] in
/-- Names are given to steps of the plan. -/
theorem named_of_stepNames {steps : List TerminalStep} {index : ℕ}
    {names names' : Dict String ℕ} (h : stepNames index steps names = .ok names') {name : String}
    {found : ℕ} (hfound : names'.get? name = some found) :
    names.get? name = some found ∨ ∃ step ∈ steps, step.name = name := by
  induction steps generalizing index names with
  | nil =>
    obtain rfl := Except.ok.inj h
    exact .inl hfound
  | cons step rest ih =>
    unfold stepNames at h
    split at h
    · rcases ih h with hold | ⟨other, hmem, hname⟩
      · exact .inl hold
      · exact .inr ⟨other, List.mem_cons_of_mem _ hmem, hname⟩
    · split at h
      · exact absurd h (by simp [invalidPlan])
      · rcases ih h with hnew | ⟨other, hmem, hname⟩
        · by_cases hname : step.name = name
          · exact .inr ⟨step, List.mem_cons_self, hname⟩
          · rw [Dict.get?_set_of_ne] at hnew
            · exact .inl hnew
            · exact Ne.symm hname
        · exact .inr ⟨other, List.mem_cons_of_mem _ hmem, hname⟩

omit [PyLib] in
/-- A step of the plan that a branch names is there. -/
theorem branchTarget_named {name : String} (hnot : name ≠ "retry") (source : ℕ)
    (h : ∃ step ∈ x.plan.steps, step.name = name) :
    ∃ position step, branchTarget x source name = some position ∧
      x.plan.steps[position]? = some step ∧ step.name = name := by
  obtain ⟨step, hmem, hname⟩ := h
  unfold branchTarget
  rw [if_neg hnot]
  cases hfind : x.plan.steps.findIdx? fun candidate => decide (candidate.name = name) with
  | none =>
    have hall := List.findIdx?_eq_none_iff.1 hfind step hmem
    exact absurd hname (by simpa using hall)
  | some position =>
    obtain ⟨hlt, hnamed, -⟩ := List.findIdx?_eq_some_iff_getElem.1 hfind
    exact ⟨position, x.plan.steps[position], rfl, List.getElem?_eq_getElem hlt, by simpa using hnamed⟩

omit [PyLib] in
/-- A branch that has been validated names a step of the plan, or is a keyword. -/
theorem validateBranch_named {names : Dict String ℕ} {maxRetries : ℤ} {fieldName target : String}
    (h : validateBranch names index maxRetries fieldName target = .ok ()) (hsome : target ≠ "")
    (hword : fieldName = "on_failure" → target ≠ "stop" ∧ target ≠ "retry") :
    ∃ found, names.get? target = some found := by
  unfold validateBranch at h
  have hnot : ¬(target = "" ∨ fieldName = "on_failure" ∧ target = "stop") := by
    rintro (hempty | ⟨hfield, hstop⟩)
    · exact hsome hempty
    · exact (hword hfield).1 hstop
  have hnamed : ¬(fieldName = "on_failure" ∧ target = "retry") := fun ⟨hfield, hretry⟩ =>
    (hword hfield).2 hretry
  rw [if_neg hnot] at h
  simp only [if_neg hnamed] at h
  cases hfound : names.get? target with
  | none =>
    rw [hfound] at h
    exact absurd h (by simp [invalidPlan])
  | some found => exact ⟨found, rfl⟩

omit [PyLib] in
/-- The branches of a plan that has been validated name steps of it, or are keywords. -/
theorem validated_named {steps : List TerminalStep} (h : validatePlanBranches steps = .ok ())
    {position : ℕ} {step : TerminalStep} {onMatch onFailure : String} {maxRetries : ℤ}
    (hstep : steps[position]? = some step)
    (hbranches : step.branches? = some (onMatch, onFailure, maxRetries)) :
    (onMatch ≠ "" → ∃ named ∈ steps, named.name = onMatch) ∧
      (onFailure ≠ "" → onFailure ≠ "stop" → onFailure ≠ "retry" →
        ∃ named ∈ steps, named.name = onFailure) := by
  obtain ⟨names, hnames, hloop⟩ := Except.bind_eq_ok.1 h
  have hmem : (step, position) ∈ steps.zipIdx := List.mem_zipIdx_iff_getElem?.mpr hstep
  have hchecked := Except.forM_eq_ok.1 hloop _ hmem
  simp only [hbranches] at hchecked
  obtain ⟨_, hmatch, hfailure⟩ := Except.bind_eq_ok.1 hchecked
  have hgiven : ∀ target found, names.get? target = some found →
      ∃ named ∈ steps, named.name = target := by
    intro target found hfound
    rcases named_of_stepNames hnames hfound with hempty | hnamed
    · exact absurd hempty (by simp)
    · exact hnamed
  constructor
  · intro hsome
    obtain ⟨found, hfound⟩ := validateBranch_named hmatch hsome fun hfield => absurd hfield (by decide)
    exact hgiven _ _ hfound
  · intro hsome hstop hretry
    obtain ⟨found, hfound⟩ := validateBranch_named hfailure hsome fun _ => ⟨hstop, hretry⟩
    exact hgiven _ _ hfound

/-! ## Which plans -/

omit [PyLib] in
/-- A name that is no keyword leads to its step. -/
theorem branchDestination_named {name : String} (hsome : name ≠ "") (hstop : name ≠ "stop")
    (hretry : name ≠ "retry") (source : ℕ) (h : ∃ step ∈ x.plan.steps, step.name = name) :
    NameMeans x.plan name (branchDestination x source name) := by
  obtain ⟨position, step, hbranch, hstep, hname⟩ := branchTarget_named hretry source h
  have hnot : ¬(name = "" ∨ name = "stop") := by simp [hsome, hstop]
  refine ⟨position, step, hstep, hname, ?_⟩
  rw [branchDestination, if_neg hnot, hbranch]

/-- The branches of a plan that the parser accepts are the steps that they mean, where no match
names a step `stop`, and none but a step of that name a step `retry`. -/
theorem matched_iff {raw total : Value} {plan : TerminalExecutionPlan}
    (h : parseTerminalPlan raw total = .ok plan) (hx : x.plan = plan) {position : ℕ}
    {step : TerminalStep} {onMatch onFailure : String} {maxRetries : ℤ}
    (hstep : plan.steps[position]? = some step)
    (hbranches : step.branches? = some (onMatch, onFailure, maxRetries)) (hsome : onMatch ≠ "") :
    NameMeans x.plan onMatch (branchDestination x position onMatch) ↔
      onMatch ≠ "stop" ∧ (onMatch = "retry" → step.name = "retry") := by
  obtain ⟨-, -, -, -, -, -, -, -, hvalid, -⟩ := parseTerminalPlan_eq_ok.1 h
  constructor
  · rintro ⟨found, named, hnamed, hname, hdestination⟩
    have hnot : onMatch ≠ "stop" := by
      rintro rfl
      rw [branchDestination, if_pos (.inr rfl)] at hdestination
      exact absurd hdestination (by simp)
    refine ⟨hnot, ?_⟩
    rintro rfl
    have hretry : branchDestination x position "retry" = .step position := by
      rw [branchDestination, if_neg (by decide), branchTarget, if_pos rfl]
    obtain rfl := Destination.step.inj (hretry.symm.trans hdestination)
    rw [hx, hstep] at hnamed
    obtain rfl := Option.some.inj hnamed
    exact hname
  · rintro ⟨hstop, hretry⟩
    by_cases hword : onMatch = "retry"
    · refine ⟨position, step, hx ▸ hstep, (hretry hword).trans hword.symm, ?_⟩
      rw [hword, branchDestination, if_neg (by decide), branchTarget, if_pos rfl]
    · have hthere := (validated_named hvalid hstep hbranches).1 hsome
      exact branchDestination_named hsome hstop hword position (hx ▸ hthere)

/-- What a plan that the parser accepts does on a failure is what its author means. -/
theorem failed_destination {raw total : Value} {plan : TerminalExecutionPlan}
    (h : parseTerminalPlan raw total = .ok plan) (hx : x.plan = plan) {position : ℕ}
    {step : TerminalStep} {onMatch onFailure : String} {maxRetries : ℤ}
    (hstep : plan.steps[position]? = some step)
    (hbranches : step.branches? = some (onMatch, onFailure, maxRetries)) (hsome : onFailure ≠ "") :
    if onFailure = "stop" then branchDestination x position onFailure = .none
    else if onFailure = "retry" then branchDestination x position onFailure = .step position
    else NameMeans x.plan onFailure (branchDestination x position onFailure) := by
  obtain ⟨-, -, -, -, -, -, -, -, hvalid, -⟩ := parseTerminalPlan_eq_ok.1 h
  split
  · rename_i hstop
    rw [branchDestination, if_pos (.inr hstop)]
  · rename_i hstop
    split
    · rename_i hretry
      rw [hretry, branchDestination, if_neg (by decide), branchTarget, if_pos rfl]
    · rename_i hretry
      have hthere := (validated_named hvalid hstep hbranches).2 hsome hstop hretry
      exact branchDestination_named hsome hstop hretry position (hx ▸ hthere)

/-- What the parser reads at a position. -/
theorem read_at {raw total : Value} {plan : TerminalExecutionPlan}
    (h : parseTerminalPlan raw total = .ok plan) {position : ℕ} {head : Dict String Value}
    (hhead : (submittedBlocks raw).flatten[position]? = some head) :
    ∃ step, plan.steps[position]? = some step ∧ Reads head step := by
  have hread := forall₂_getElem? (parse_reads h) position
  rw [hhead] at hread
  cases hstep : plan.steps[position]? with
  | none => rw [hstep] at hread; cases hread
  | some step =>
    rw [hstep] at hread
    cases hread with
    | some hreads => exact ⟨step, rfl, hreads⟩

/-- What a step of the plan has been read from. -/
theorem read_from {raw total : Value} {plan : TerminalExecutionPlan}
    (h : parseTerminalPlan raw total = .ok plan) {position : ℕ} {step : TerminalStep}
    (hstep : plan.steps[position]? = some step) :
    ∃ head, (submittedBlocks raw).flatten[position]? = some head ∧ Reads head step := by
  have hread := forall₂_getElem? (parse_reads h) position
  rw [hstep] at hread
  cases hhead : (submittedBlocks raw).flatten[position]? with
  | none => rw [hhead] at hread; cases hread
  | some head =>
    rw [hhead] at hread
    cases hread with
    | some hreads => exact ⟨head, rfl, hreads⟩

/-- A target by number is the step that it means where the step that is submitted under the number
stands at it. -/
theorem numbered_iff {raw total : Value} {plan : TerminalExecutionPlan}
    (h : parseTerminalPlan raw total = .ok plan) (hx : x.plan = plan)
    {submitted position target : ℕ} {step : TerminalStep}
    (hstands : StandsAt (submittedBlocks raw) submitted position)
    (hstep : plan.steps[position]? = some step) (htarget : step.target? = some target) :
    NumberMeans (submittedBlocks raw) submitted target step
        (numberDestination x position target step) ↔
      StandsAt (submittedBlocks raw) target target := by
  obtain ⟨-, -, -, -, -, -, -, -, -, hnumeric⟩ := parseTerminalPlan_eq_ok.1 h
  have hlt : target < plan.steps.length := target_lt hnumeric hstep htarget
  -- An `expect` step ends the plan at its own position only, since its target is one of the plan.
  have hexpect : ∀ e, step = .expect e →
      numberDestination x position target step =
        if target = position then .completed else .step target := by
    rintro e rfl
    by_cases hsame : target = position
    · rw [numberDestination, if_pos (.inl hsame), if_pos hsame]
    · have hnot : ¬(target = position ∨ target ≥ x.plan.steps.length) := by
        rw [hx]
        omega
      rw [numberDestination, if_neg hnot, if_neg hsame]
  constructor
  · intro hmeans
    generalize hdestination : numberDestination x position target step = destination at hmeans
    cases hmeans with
    | @step _ found hother hfound =>
      have hgoes : numberDestination x position target step = .step target := by
        cases step with
        | send step => rfl
        | waitState step => rfl
        | expect step =>
          have hends := hexpect step rfl
          by_cases hsame : target = position
          · rw [if_pos hsame, hdestination] at hends
            exact absurd hends (by simp)
          · rw [hends, if_neg hsame]
      obtain rfl := Destination.step.inj (hgoes.symm.trans hdestination)
      exact hfound
    | itself hown =>
      have hends := hexpect _ rfl
      rw [hdestination] at hends
      have hsame : target = position := by
        by_contra hnot
        rw [if_neg hnot] at hends
        exact absurd hends (by simp)
      exact ⟨hown ▸ hstands.1, by rw [hown, hstands.2, ← hsame, hown]⟩
  · intro hplain
    cases step with
    | send step => exact .step (fun e he => absurd he (by simp)) hplain
    | waitState step => exact .step (fun e he => absurd he (by simp)) hplain
    | expect step =>
      rw [hexpect step rfl]
      by_cases hown : target = submitted
      · have hsame : target = position := by
          rw [← hstands.2, ← hown]
          exact hplain.2.symm
        rw [if_pos hsame]
        exact .itself hown
      · have hother : target ≠ position := fun hsame =>
          hown (StandsAt.unique (hsame ▸ hplain) hstands)
        rw [if_neg hother]
        exact .step (fun _ _ => hown) hplain

/-- The match of a step that has been read from a submitted step. -/
theorem Reads.branches {head : Dict String Value} {step : TerminalStep} (h : Reads head step)
    (hsome : submittedMatch head ≠ "") : ∃ onFailure maxRetries,
      step.branches? = some (submittedMatch head, onFailure, maxRetries) := by
  have hmatch := h.onMatch
  cases hbranches : step.branches? with
  | none =>
    rw [hbranches] at hmatch
    exact absurd hmatch.symm hsome
  | some branches =>
    rw [hbranches] at hmatch
    obtain ⟨onMatch, onFailure, maxRetries⟩ := branches
    have heq : onMatch = submittedMatch head := hmatch
    exact ⟨onFailure, maxRetries, by rw [heq]⟩

end

/-- The third submitted step is the target of the second, which itself is moved to the third
position by what the first expects. -/
def movedPlan : Value := .list [
  .dict [("type", .str "send"), ("text", .str "a"), ("expect_prompt", .str ">")],
  .dict [("type", .str "send"), ("text", .str "b"), ("success", .list [.int 2])],
  .dict [("type", .str "send"), ("text", .str "c")]]

/-- A plan without targets. -/
def untargetedPlan : Value := .list [.dict [("type", .str "send"), ("text", .str "a")]]

end DeviceShell.Terminal
