import DeviceShell.Activity.LoopBodies
import DeviceShell.Framework.Passes

/-!
# The inputs of the steps of a loop

The inputs of a step of a loop body are resolved twice: by `_resolve_node_inputs` with the inputs of
the loop's node, where the references to what the loop binds are left, and by `_run_steps` for each
item. `ScannedOnce` says that the second resolution finds the references that were left and no
others, and gives the handler what one resolution would, in which every reference reads the values it
is meant for. A value that the first resolution puts in is data, but the second one looks at it like
at the template: `scannedOnce_iff` says which values it leaves alone.
-/

namespace DeviceShell

namespace Value

theorem keyed_of_lookup {entries : List (String × Value)} (h : (Value.dict entries).Keyed)
    {key : String} {v : Value} (hv : Dict.lookup key entries = some v) : v.Keyed :=
  entriesKeyed_iff.1 h.2 (key, v) (Dict.mem_of_get? (d := ⟨entries⟩) hv)

theorem keyed_of_getElem? {items : List Value} (h : (Value.list items).Keyed) {i : ℕ} {v : Value}
    (hv : items[i]? = some v) : v.Keyed := itemsKeyed_iff.1 h v (List.mem_of_getElem? hv)

/-- What a mapping holds is keyed, with a further value. -/
theorem Keyed.set {d : Dict String Value} (h : (ofDict d).Keyed) (key : String) {v : Value}
    (hv : v.Keyed) : (ofDict (d.set key v)).Keyed := by
  have hkeys : (d.set key v).keys.Nodup := Dict.nodup_keys_set h.1 key v
  refine ⟨hkeys, entriesKeyed_iff.2 fun e he => ?_⟩
  have hget : (d.set key v).get? e.1 = some e.2 := Dict.get?_of_mem hkeys he
  rw [Dict.get?_set] at hget
  by_cases hkey : e.1 = key
  · rw [if_pos hkey] at hget
    exact Option.some.inj hget ▸ hv
  · rw [if_neg hkey] at hget
    exact keyed_of_lookup h hget

/-- Two mappings with keyed values in one. -/
theorem Keyed.merge {d e : Dict String Value} (hd : (ofDict d).Keyed) (he : (ofDict e).Keyed) :
    (ofDict (d.merge e)).Keyed := by
  have hvalues := entriesKeyed_iff.1 he.2
  unfold Dict.merge
  revert hvalues
  generalize e.entries = entries
  intro hvalues
  induction entries generalizing d with
  | nil => exact hd
  | cons first rest ih =>
    have hfirst := hvalues first List.mem_cons_self
    exact ih (hd.set first.1 hfirst) fun other hother => hvalues other (List.mem_cons_of_mem _ hother)

variable {ε : Type} {f : List String → String → Except ε Value} {path : List String}

/-- What a traversal puts under a key. -/
theorem lookup_traverseEntries {entries out : List (String × Value)}
    (h : traverseEntries f path entries = .ok out) {key : String} {v : Value}
    (hv : Dict.lookup key entries = some v) :
    ∃ u, traverseTexts f (path ++ [key]) v = .ok u ∧ Dict.lookup key out = some u := by
  induction entries generalizing out with
  | nil => cases hv
  | cons e rest ih =>
    obtain ⟨own, first⟩ := e
    simp only [traverseEntries] at h
    obtain ⟨first', hfirst, h⟩ := Except.bind_eq_ok.1 h
    obtain ⟨rest', hrest, h⟩ := Except.bind_eq_ok.1 h
    cases h
    unfold Dict.lookup at hv ⊢
    by_cases hkey : own = key
    · rw [if_pos hkey] at hv ⊢
      rw [← Option.some.inj hv, ← hkey]
      exact ⟨first', hfirst, rfl⟩
    · rw [if_neg hkey] at hv ⊢
      exact ih hrest hv

/-- What a traversal puts in the place of an item. -/
theorem getElem?_traverseItems {items out : List Value} (h : traverseItems f path items = .ok out)
    {i : ℕ} {v : Value} (hv : items[i]? = some v) :
    ∃ u, traverseTexts f path v = .ok u ∧ out[i]? = some u := by
  induction items generalizing out i with
  | nil => cases hv
  | cons first rest ih =>
    simp only [traverseItems] at h
    obtain ⟨first', hfirst, h⟩ := Except.bind_eq_ok.1 h
    obtain ⟨rest', hrest, h⟩ := Except.bind_eq_ok.1 h
    cases h
    cases i with
    | zero =>
      rw [List.getElem?_cons_zero] at hv
      exact ⟨first', Option.some.inj hv ▸ hfirst, rfl⟩
    | succ i =>
      rw [List.getElem?_cons_succ] at hv
      exact ih hrest hv

end Value

namespace Activity.LoopBody

open Framework
open Value (traverseTexts traverseEntries traverseItems)

/-- The inputs of a step of a body, in the inputs of its node. -/
def actionInputsAt (inputs : Dict String Value) (index : ℕ) : Option Value :=
  match inputs.get? "action_steps" with
  | some (.list steps) => match steps[index]? with
    | some (.dict step) => Dict.lookup "action_inputs" step
    | _ => none
  | _ => none

theorem actionInputsAt_eq_some {inputs : Dict String Value} {index : ℕ} {v : Value} :
    actionInputsAt inputs index = some v ↔ ∃ steps step,
      inputs.get? "action_steps" = some (.list steps) ∧ steps[index]? = some (.dict step) ∧
        Dict.lookup "action_inputs" step = some v := by
  unfold actionInputsAt
  constructor
  · intro h
    split at h
    · rename_i steps hsteps
      split at h
      · rename_i step hstep
        exact ⟨steps, step, hsteps, hstep, h⟩
      · cases h
    · cases h
  · rintro ⟨steps, step, hsteps, hstep, h⟩
    simp only [hsteps, hstep, h]

section

variable [PyLib]

/-! ## What references read -/

/-- The reference reads a value among the given ones. -/
def readAt (values : Dict String Value) : Look := fun reference =>
  followReference (referenceText reference) (.ofDict values) [] (segments reference)

/-- The values that the references of a node read. -/
def parentValues (inputs outputs context : Dict String Value) : Dict String Value :=
  let currentDeviceId := match mapping? context "target" with
    | some target => strippedEntry target "device_id"
    | none => ""
  let values := inputs.merge outputs
  let values := match mapping? context "device" with
    | some device => values.set "device" (.ofDict device)
    | none => values
  (((values.set "device_id" (.str currentDeviceId)).set "inputs" (.ofDict inputs)).set
    "outputs" (.ofDict outputs)).set "context" (.ofDict context)

/-- The roots of the references that are left to the body of a node. -/
def laterRoots (node : WorkflowNode) : Except PyError (List String) := do
  let bodySteps := (node.inputMapping.get? "action_steps").getD (.list [])
  let bodyRoots ← (← bodySteps.iter).mapM bodyRoot
  return deferredReferenceRoots node ++ bodyRoots.flatten ++
    (if bodySteps.truthy then ["outputs"] else [])

omit [PyLib] in
/-- Whether a reference begins with one of the roots. -/
def beginsWith (roots : List String) (reference : String) : Bool :=
  roots.contains ((segments reference).headD "")

/-- What `_resolve_node_inputs` resolves the inputs of a node with. -/
def nodeResolution (roots : List String) (inputs outputs context : Dict String Value) :
    Resolution where
  values := parentValues inputs outputs context
  deferredRoots := roots
  deferredKeys := ["action_inputs"]

theorem resolveNodeInputs_eq {node : WorkflowNode} {inputs outputs context : Dict String Value}
    {roots : List String} (hroots : laterRoots node = .ok roots) :
    resolveNodeInputs node inputs outputs context =
      resolveInputs (nodeResolution roots inputs outputs context) node.inputMapping := by
  unfold laterRoots at hroots
  obtain ⟨steps, hsteps, hroots⟩ := Except.bind_eq_ok.1 hroots
  obtain ⟨bodyRoots, hbody, hroots⟩ := Except.bind_eq_ok.1 hroots
  cases hroots
  unfold resolveNodeInputs
  simp only [hsteps, hbody, bind, Except.bind]
  rfl

/-- What a reference reads in keyed values is keyed. -/
theorem keyed_of_follow {expression : String} {current v : Value} {resolved rest : List String}
    (hcurrent : current.Keyed) (h : followReference expression current resolved rest = .ok v) :
    v.Keyed := by
  induction rest generalizing current resolved with
  | nil =>
    simp only [followReference, Except.ok.injEq] at h
    exact h ▸ hcurrent
  | cons segment rest ih =>
    unfold followReference at h
    dsimp only at h
    split at h
    · rename_i entries
      split at h
      · rename_i inner hinner
        exact ih (Value.keyed_of_lookup hcurrent hinner) h
      · split at h
        · rename_i inner hinner
          obtain ⟨run, hrun, hget⟩ := Option.bind_eq_some_iff.1 hinner
          obtain ⟨w, hw, hdict⟩ := Option.bind_eq_some_iff.1 hrun
          have hwKeyed : w.Keyed := Value.keyed_of_lookup hcurrent hw
          cases w with
          | dict inside =>
            cases hdict
            exact ih (Value.keyed_of_lookup hwKeyed hget) h
          | _ => cases hdict
        · cases h
    · rename_i items
      split at h
      · rename_i inner hinner
        obtain ⟨n, -, hget⟩ := Option.bind_eq_some_iff.1 hinner
        exact ih (Value.keyed_of_getElem? hcurrent hget) h
      · cases h
    · cases h

/-- The values of a node are keyed when those of its task are. -/
theorem keyed_parentValues {inputs outputs context : Dict String Value}
    (hinputs : (Value.ofDict inputs).Keyed) (houtputs : (Value.ofDict outputs).Keyed)
    (hcontext : (Value.ofDict context).Keyed) :
    (Value.ofDict (parentValues inputs outputs context)).Keyed := by
  have hmerged := Value.Keyed.merge hinputs houtputs
  have htext : ∀ text : String, (Value.str text).Keyed := fun _ => trivial
  have hdevice : ∀ device, mapping? context "device" = some device →
      (Value.ofDict device).Keyed := by
    intro device hsome
    obtain ⟨w, hw, hdict⟩ := Option.bind_eq_some_iff.1 hsome
    have hwKeyed : w.Keyed := Value.keyed_of_lookup hcontext hw
    cases w with
    | dict inside =>
      cases hdict
      exact hwKeyed
    | _ => cases hdict
  unfold parentValues
  cases hsome : mapping? context "device" with
  | none => exact (((hmerged.set _ (htext _)).set _ hinputs).set _ houtputs).set _ hcontext
  | some device =>
    have hbound := hmerged.set "device" (hdevice device hsome)
    exact (((hbound.set _ (htext _)).set _ hinputs).set _ houtputs).set _ hcontext

/-! ## Where the inputs of a step stand -/

omit [PyLib] in
/-- The inputs of a step are treated alike in those of their node and by themselves. -/
theorem alike_actionInputs : Alike ["action_steps", "action_inputs"] [] := by
  intro more
  cases more with
  | nil => exact ⟨by decide, by decide⟩
  | cons key more =>
    have hlast : (["action_steps", "action_inputs"] ++ key :: more).getLast? =
        ([] ++ key :: more).getLast? := by simp
    rw [hlast]
    exact ⟨Iff.rfl, rfl⟩

/-! ## The two resolutions -/

/-- Under `action_inputs`, the first resolution leaves the references that begin with a root. -/
theorem resolveReference_firstLook (roots : List String) (inputs outputs context : Dict String Value)
    {path : List String} (hpath : "action_inputs" ∈ path) :
    (fun reference => resolveReference (nodeResolution roots inputs outputs context) reference path) =
      firstLook (beginsWith roots) (readAt (parentValues inputs outputs context)) := by
  have hkeys : (["action_inputs"].any fun key => path.contains key) = true := by simp [hpath]
  funext reference
  unfold resolveReference firstLook readAt beginsWith nodeResolution
  simp only [List.isEmpty_cons, Bool.false_or, hkeys, Bool.and_true]

/-- The second resolution leaves none. -/
theorem resolveText_readAt (values : Dict String Value) :
    resolveText { values := values } = fillText (readAt values) := by
  funext path text
  have hlook : (fun reference => resolveReference { values := values } reference path) =
      readAt values := by
    funext reference
    unfold resolveReference readAt
    simp only [List.contains_nil, Bool.false_and, Bool.false_eq_true, if_false]
  rw [resolveText_eq, hlook]

/-- The inputs of a step, after the first resolution: what one pass makes of them that leaves the
references that begin with a root. -/
theorem actionInputsAt_resolved [LawfulJson] {node : WorkflowNode}
    {inputs outputs context resolved : Dict String Value} {roots : List String}
    (hnode : (Value.ofDict node.inputMapping).Keyed) (hroots : laterRoots node = .ok roots)
    (h : resolveNodeInputs node inputs outputs context = .ok resolved) {index : ℕ} {template : Value}
    (htemplate : actionInputsAt node.inputMapping index = some template) :
    template.Keyed ∧ ∃ given, actionInputsAt resolved index = some given ∧
      traverseTexts (fillText (firstLook (beginsWith roots)
        (readAt (parentValues inputs outputs context)))) [] (documents [] template) = .ok given := by
  obtain ⟨steps, step, hsteps, hstep, hlookup⟩ := actionInputsAt_eq_some.1 htemplate
  have hstepsKeyed := Value.keyed_of_lookup hnode hsteps
  have hstepKeyed := Value.keyed_of_getElem? hstepsKeyed hstep
  have htemplateKeyed := Value.keyed_of_lookup hstepKeyed hlookup
  refine ⟨htemplateKeyed, ?_⟩
  rw [resolveNodeInputs_eq hroots, resolveInputs_eq_entries] at h
  obtain ⟨out, hout, h⟩ := Except.bind_eq_ok.1 h
  rw [resolveEntries_eq] at hout
  have hkeys : (out.map Prod.fst).Nodup := Value.keys_traverseEntries hout ▸ hnode.1
  have hentries : Value.ofDict resolved = .dict out := by
    rw [← Value.ofDict_foldl_set hkeys]
    exact congrArg Value.ofDict (Except.ok.inj h).symm
  -- The steps, the step, and its inputs.
  obtain ⟨steps', hsteps', houtSteps⟩ := Value.lookup_traverseEntries hout hsteps
  simp only [traverseTexts] at hsteps'
  obtain ⟨items, hitems, hlist⟩ := Except.bind_eq_ok.1 hsteps'
  obtain ⟨step', hstep', houtStep⟩ := Value.getElem?_traverseItems hitems hstep
  obtain ⟨entries, hentriesStep, hdict⟩ := (Value.traverse_dict_eq_ok hstepKeyed.1).1 hstep'
  obtain ⟨given, hgiven, houtGiven⟩ := Value.lookup_traverseEntries hentriesStep hlookup
  refine ⟨given, ?_, ?_⟩
  · refine actionInputsAt_eq_some.2 ⟨items, entries, ?_, hdict ▸ houtStep, houtGiven⟩
    have hresolved : resolved.entries = out := Value.dict.inj hentries
    have hsame : steps' = .list items := (Except.ok.inj hlist).symm
    unfold Dict.get?
    rw [hresolved, houtSteps, hsame]
  · have hwith : resolveWith (nodeResolution roots inputs outputs context)
        (fun text path parsed =>
          resolveParsed (nodeResolution roots inputs outputs context) text.length path parsed)
        ["action_steps", "action_inputs"] template = .ok given :=
      (resolveWith_eq _ _ _ template).trans hgiven
    rw [resolveWith_eq_traverse, alike_actionInputs.documents] at hwith
    rw [← hwith]
    refine (Value.traverse_move _ _ _ fun more text => ?_).symm
    have hmem : "action_inputs" ∈ ["action_steps", "action_inputs"] ++ more := by simp
    rw [resolveText_eq, resolveReference_firstLook roots inputs outputs context hmem]
    exact (alike_actionInputs.append more).fillText _ text

/-! ## Substitution in one pass -/

/-- What the loop makes of the inputs of a step, as its node's resolution gave them: it finds the
references that were left and no others, and what it calls the step with is what one resolution of
the template gives, in which these references read the values of the loop and the others those of
the task. -/
structure ScannedOnce (roots : List String) (values : Dict String Value) (template given : Value) :
    Prop where
  found : found [] given =
    (found [] (documents [] template)).filter (Finding.isLater (beginsWith roots))
  called (step : BodyStep) (outputs locals : Dict String Value)
    (h : given = .ofDict step.actionInputs) :
    (do return .ofDict (← stepInputs step outputs locals)) =
      traverseTexts (fillText (bothLook (beginsWith roots) (readAt values)
        (readAt (stepValues outputs locals)))) [] (documents [] template)

/-- No data that are put into the inputs of a step are looked at again: in the value of a reference
nothing is found, and a text with references has with their values just the references that are
left. -/
def DataStay (roots : List String) (values : Dict String Value) (template : Value) : Prop :=
  ∀ e ∈ (documents [] template).texts [], Sound (beginsWith roots) (readAt values) e.1 e.2

/-- A loop resolves what its node resolved as if there were one resolution, exactly if the data that
its node put in have nothing in them that a resolution finds. -/
theorem scannedOnce_iff [LawfulJson] {node : WorkflowNode}
    {inputs outputs context resolved : Dict String Value} {roots : List String}
    (hnode : (Value.ofDict node.inputMapping).Keyed) (hinputs : (Value.ofDict inputs).Keyed)
    (houtputs : (Value.ofDict outputs).Keyed) (hcontext : (Value.ofDict context).Keyed)
    (hroots : laterRoots node = .ok roots)
    (h : resolveNodeInputs node inputs outputs context = .ok resolved) :
    (∀ index template given, actionInputsAt node.inputMapping index = some template →
      actionInputsAt resolved index = some given →
      ScannedOnce roots (parentValues inputs outputs context) template given) ↔
    ∀ index template, actionInputsAt node.inputMapping index = some template →
      DataStay roots (parentValues inputs outputs context) template := by
  have hvalues := keyed_parentValues hinputs houtputs hcontext
  have hkeyed : ∀ reference v, readAt (parentValues inputs outputs context) reference = .ok v →
      v.Keyed := fun _ _ hread => keyed_of_follow hvalues hread
  constructor
  · intro hall index template htemplate
    obtain ⟨htemplateKeyed, given, hgiven, hpass⟩ :=
      actionInputsAt_resolved hnode hroots h htemplate
    have hfound := (hall index template given htemplate hgiven).found
    exact (passed_iff (plain_documents [] template) (keyed_documents [] htemplateKeyed) hkeyed
      hpass).1 hfound
  · intro hall index template given htemplate hgiven
    obtain ⟨htemplateKeyed, given', hgiven', hpass⟩ :=
      actionInputsAt_resolved hnode hroots h htemplate
    obtain rfl : given' = given := Option.some.inj (hgiven'.symm.trans hgiven)
    have hplain := plain_documents [] template
    have htemplateKeyed' := keyed_documents [] htemplateKeyed
    have hstay := hall index template htemplate
    have hfound := (passed_iff hplain htemplateKeyed' hkeyed hpass).2 hstay
    refine ⟨hfound, fun step stepOutputs locals hstep => ?_⟩
    -- What is left is no document, so that the loop parses nothing.
    have hgivenPlain : Plain [] given' := by
      refine plain_of_found fun text hmem => ?_
      rw [hfound] at hmem
      have hlater := (List.mem_filter.1 hmem).2
      cases hlater
    unfold stepInputs
    rw [resolveInputs_eq, resolveText_readAt, ← hstep, documents_of_plain hgivenPlain]
    exact traverse_of_sound hplain htemplateKeyed' hkeyed hpass hstay _

end

/-! ## Two notes -/

/-- A loop over items with one step, whose command shows a note of the task. -/
def noteNode : WorkflowNode where
  id := "loop"
  workflowId := "loop.for_each"
  inputMapping := ⟨[("action_steps", .list [.dict [("id", .str "show"), ("action_id", .str "exec"),
    ("action_inputs", .dict [("command", .str "echo $\x7bnote\x7d $\x7bitem\x7d")])]])]⟩

/-- The inputs of a task with the note. -/
def noteInputs (note : String) : Dict String Value := ⟨[("note", .str note)]⟩

/-- The inputs of the node, when the note was put into the command. -/
def noteResolved (command : String) : Dict String Value :=
  ⟨[("action_steps", .list [.dict [("id", .str "show"), ("action_id", .str "exec"),
    ("action_inputs", .dict [("command", .str command)])]])]⟩

theorem lawfulJson_atEpoch : @LawfulJson PyLib.atEpoch :=
  letI := PyLib.atEpoch
  { loads_empty := rfl
    readFrom := fun {text} {v} h => by
      have hnone : PyLib.jsonLoads text = none := rfl
      rw [hnone] at h
      cases h }

/-- A note without references. -/
theorem scannedOnce_iff_note : let _ := PyLib.atEpoch
    (∀ index template given, actionInputsAt noteNode.inputMapping index = some template →
      actionInputsAt (noteResolved "echo hello $\x7bitem\x7d") index = some given →
      ScannedOnce ["item", "index", "show", "outputs"] (parentValues (noteInputs "hello") ∅ ∅)
        template given) ↔
    ∀ index template, actionInputsAt noteNode.inputMapping index = some template →
      DataStay ["item", "index", "show", "outputs"] (parentValues (noteInputs "hello") ∅ ∅)
        template := by
  intro pyLib
  have hlawful : LawfulJson := lawfulJson_atEpoch
  have hnode : (Value.ofDict noteNode.inputMapping).Keyed := by
    simp [noteNode, Value.ofDict, Value.Keyed, Value.ItemsKeyed, Value.EntriesKeyed]
  have hinputs : (Value.ofDict (noteInputs "hello")).Keyed := by
    simp [noteInputs, Value.ofDict, Value.Keyed, Value.EntriesKeyed]
  have hempty : (Value.ofDict ∅).Keyed := ⟨List.nodup_nil, trivial⟩
  have hroots : laterRoots noteNode = .ok ["item", "index", "show", "outputs"] := rfl
  have hresolved : resolveNodeInputs noteNode (noteInputs "hello") ∅ ∅ =
      .ok (noteResolved "echo hello $\x7bitem\x7d") := rfl
  exact scannedOnce_iff hnode hinputs hempty hempty hroots hresolved

/-- The command that a step is called with. -/
def commandOf (inputs : Except PyError Value) : Option String :=
  match inputs with
  | .ok (.dict entries) => (Dict.lookup "command" entries).bind Value.asStr?
  | _ => none

/-- A note that is a reference to the item shows the item. -/
theorem not_scannedOnce_note : let _ := PyLib.atEpoch
    ¬∀ (node : WorkflowNode) (inputs outputs context resolved : Dict String Value)
      (roots : List String), laterRoots node = .ok roots →
      resolveNodeInputs node inputs outputs context = .ok resolved →
      ∀ index template given, actionInputsAt node.inputMapping index = some template →
        actionInputsAt resolved index = some given →
        ScannedOnce roots (parentValues inputs outputs context) template given := by
  intro pyLib h
  have hroots : laterRoots noteNode = .ok ["item", "index", "show", "outputs"] := rfl
  have hresolved : resolveNodeInputs noteNode (noteInputs "$\x7bitem\x7d") ∅ ∅ =
      .ok (noteResolved "echo $\x7bitem\x7d $\x7bitem\x7d") := rfl
  have honce := h noteNode (noteInputs "$\x7bitem\x7d") ∅ ∅ _ _ hroots hresolved 0 _ _ rfl rfl
  have hcalled := honce.called
    { id := "show", actionId := "exec"
      actionInputs := ⟨[("command", .str "echo $\x7bitem\x7d $\x7bitem\x7d")]⟩ }
    ∅ (itemLocals (.str "secret") 0) rfl
  have htext := congrArg commandOf hcalled
  revert htext
  decide +kernel

end Activity.LoopBody

end DeviceShell
