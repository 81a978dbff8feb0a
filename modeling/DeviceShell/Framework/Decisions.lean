import DeviceShell.Framework.Models

/-!
# The decision boundary

`DecisionEngine.validate` of `framework/decisions.py`: a submission is accepted only for the pending
decision point, at the run's revision, with one of the point's options, by an allowed actor.
-/

namespace DeviceShell.Framework

/-- `DecisionSubmission`. -/
structure DecisionSubmission where
  decisionPointId : String
  expectedRevision : ℤ
  optionId : String
  actorType : String
  inputs : Dict String Value := ∅
  reason : String := ""

namespace DecisionEngine

/-- `definition["enum"]`, where `"enum" in definition` holds. -/
def enumOf (definition : Value) : Except PyError (Option Value) := do
  if ← definition.contains (.str "enum") then
    match definition.asDict? with
    | some d => return d.get? "enum"
    | none => throw (.typeError "indices must be integers")
  else return none

/-- `DecisionEngine._validate_inputs`. -/
def validateInputs (option : DecisionOption) (inputs : Dict String Value) :
    Except PyError Unit := do
  let schema := option.inputSchema
  let properties ← match schema.get? "properties" with
    | none => pure ∅
    | some (.dict entries) => pure (⟨entries⟩ : Dict String Value)
    | some _ => throw (.typeError "properties must be a mapping")
  let unknown := inputs.keys.filter fun name => !properties.contains name
  if !unknown.isEmpty then
    throw (.decisionValidation
      ("unsupported decision inputs: " ++ ", ".intercalate (unknown.insertionSort (· ≤ ·))))
  let required ← match schema.get? "required" with
    | none => pure []
    | some value => value.iter
  for name in required do
    match name with
    | .str name =>
      if !inputs.contains name then
        throw (.decisionValidation s!"decision input is required: {name}")
    | _ => throw (.decisionValidation "decision input is required")
  for (name, definition) in properties.entries do
    match inputs.get? name with
    | none => pure ()
    | some value =>
      match ← enumOf definition with
      | none => pure ()
      | some allowed =>
        if !(← allowed.contains value) then
          throw (.decisionValidation s!"invalid value for decision input: {name}")

/-- `DecisionEngine.validate`. -/
def validate (run : WorkflowRun) (submission : DecisionSubmission) :
    Except PyError DecisionOption :=
  match run.decisionPoint with
  | none => .error (.decisionValidation "decision point is not pending")
  | some point =>
    if point.id ≠ submission.decisionPointId then
      .error (.decisionValidation "decision point is not pending")
    else if submission.expectedRevision ≠ run.revision then
      .error (.decisionValidation "decision revision is stale")
    else match point.options.find? (·.id == submission.optionId) with
      | none => .error (.decisionValidation "option is not available")
      | some option =>
        if !option.allowedActors.contains submission.actorType then
          .error (.decisionValidation "actor is not allowed for this option")
        else if option.requiresReason && isBlank submission.reason then
          .error (.decisionValidation "reason is required for this option")
        else (validateInputs option submission.inputs).map fun _ => option

/-- An accepted submission names the run's pending decision point. -/
theorem validate_point {run : WorkflowRun} {submission : DecisionSubmission}
    {option : DecisionOption} (h : validate run submission = .ok option) :
    ∃ point, run.decisionPoint = some point ∧ point.id = submission.decisionPointId ∧
      option ∈ point.options := by
  unfold validate at h
  cases hp : run.decisionPoint with
  | none => simp [hp] at h
  | some point =>
    simp only [hp] at h
    by_cases hid : point.id = submission.decisionPointId
    · refine ⟨point, rfl, hid, ?_⟩
      rw [if_neg (not_not.2 hid)] at h
      split at h
      · cases h
      · cases ho : point.options.find? (·.id == submission.optionId) with
        | none => simp [ho] at h
        | some o =>
          simp only [ho] at h
          have hmem := List.mem_of_find?_eq_some ho
          split at h
          · cases h
          · split at h
            · cases h
            · cases hv : validateInputs o submission.inputs with
              | error e => simp [hv, Except.map] at h
              | ok u =>
                simp only [hv, Except.map, Except.ok.injEq] at h
                exact h ▸ hmem
    · rw [if_pos hid] at h
      cases h

/-- An accepted submission expects the revision that the run has. -/
theorem validate_revision {run : WorkflowRun} {submission : DecisionSubmission}
    {option : DecisionOption} (h : validate run submission = .ok option) :
    submission.expectedRevision = run.revision := by
  by_contra hne
  unfold validate at h
  split at h
  · cases h
  · split at h
    · cases h
    · cases h

end DecisionEngine

end DeviceShell.Framework
