import DeviceShell.Lib.Operators
import DeviceShell.Lib.Fallible

/-!
# Workflow definitions

The drafts and the published versions of `application/workflow_studio/models.py`, with the
dictionaries that they are written to and read back from. What `__post_init__` settles about a
value is carried by the value (`primitive_ne`, `semantic_ne`). Reading back what was written gives
the same inputs, nodes and edges; an output loses its constraints and its hints, which its
dictionary does not hold (`WorkflowOutput.fromDict_toDict`), so that a draft is read back as it was
written exactly when its outputs have none (`WorkflowDraft.fromDict_toDict_iff`).
-/

namespace DeviceShell.Studio

/-! ## Reading dictionaries -/

/-- `payload.get(key, default)`. -/
def getOr (payload : Dict String Value) (key : String) (default : Value) : Value :=
  (payload.get? key).getD default

/-- `payload.get(key) or default`. -/
def getTruthy (payload : Dict String Value) (key : String) (default : Value) : Value :=
  if (getOr payload key .none).truthy then getOr payload key .none else default

/-- `str(payload.get(key, default))`. -/
def getStr [PyLib] (payload : Dict String Value) (key default : String) : String :=
  (getOr payload key (.str default)).pyStr

/-- `dict(payload.get(key) or {})`. -/
def getDict (payload : Dict String Value) (key : String) : Except PyError (Dict String Value) :=
  (getTruthy payload key (.dict [])).toDict

/-- The items of a value that are mappings. -/
def mappings (v : Value) : Except PyError (List (Dict String Value)) := do
  return (← v.iter).filterMap Value.asDict?

/-- `value is None`. -/
def isNone : Value → Bool
  | .none => true
  | _ => false

/-- `{key: value} if present else {}`. -/
def optional (key : String) (present : Prop) [Decidable present] (v : Value) :
    List (String × Value) :=
  if present then [(key, v)] else []

theorem lookup_append {α : Type} (k : String) (l l' : List (String × α)) :
    Dict.lookup k (l ++ l') = (Dict.lookup k l).or (Dict.lookup k l') := by
  induction l with
  | nil => simp [Dict.lookup]
  | cons e rest ih =>
    by_cases h : e.1 = k
    · simp [Dict.lookup, h]
    · simp [Dict.lookup, h, ih]

theorem lookup_optional (k key : String) (present : Prop) [Decidable present] (v : Value) :
    Dict.lookup k (optional key present v) = if present ∧ key = k then some v else none := by
  unfold optional
  by_cases hp : present
  · by_cases hk : key = k <;> simp [hp, hk, Dict.lookup]
  · simp [hp, Dict.lookup]

@[simp] theorem toDict_dict [PyLib] (entries : List (String × Value)) :
    (Value.dict entries).toDict = .ok ⟨entries⟩ := rfl

@[simp] theorem mappings_list (items : List (Dict String Value)) :
    mappings (.list (items.map Value.ofDict)) = .ok items := by
  have hback : (items.map Value.ofDict).filterMap Value.asDict? = items := by
    rw [List.filterMap_map]
    exact List.filterMap_some
  exact congrArg Except.ok hback

/-! ## Inputs -/

/-- `legacy_type.casefold()`, which leaves no text empty. -/
def foldType [PyLib] (s : String) : String :=
  if PyLib.casefold s = "" then s else PyLib.casefold s

/-- The primitive type of an input of a legacy type. -/
def legacyPrimitive (legacyType : String) : String :=
  if legacyType = "devices" then "array"
  else if legacyType = "file" ∨ legacyType = "device" then "string"
  else legacyType

/-- The semantic type of an input of a legacy type. -/
def legacySemantic (legacyType : String) : String :=
  if legacyType = "file" then "file"
  else if legacyType = "device" then "device"
  else if legacyType = "devices" then "device_list"
  else if legacyType = "string" then "text"
  else legacyType

/-- `WorkflowInput`. -/
structure WorkflowInput where
  name : String
  type : String
  required : Bool
  default : Value
  description : String
  source : String
  presentation : String
  multiple : Bool
  accept : String
  placeholder : String
  options : List String
  primitiveType : String
  semanticType : String
  scope : String
  constraints : Dict String Value
  uiHints : Dict String Value
  primitive_ne : primitiveType ≠ ""
  semantic_ne : semanticType ≠ ""

theorem foldType_ne [PyLib] {s : String} (h : s ≠ "") : foldType s ≠ "" := by
  unfold foldType
  split
  · exact h
  · assumption

theorem legacyPrimitive_ne {s : String} (h : s ≠ "") : legacyPrimitive s ≠ "" := by
  unfold legacyPrimitive
  split_ifs
  · decide
  · decide
  · exact h

theorem legacySemantic_ne {s : String} (h : s ≠ "") : legacySemantic s ≠ "" := by
  unfold legacySemantic
  split_ifs
  · decide
  · decide
  · decide
  · decide
  · exact h

/-- `value or default`, for texts. -/
def orText (value default : String) : String := if value ≠ "" then value else default

theorem orText_ne {value default : String} (h : default ≠ "") : orText value default ≠ "" := by
  unfold orText
  split <;> assumption

@[simp] theorem orText_of_ne {value default : String} (h : value ≠ "") :
    orText value default = value := if_pos h

/-- `WorkflowInput(...)`, with what `__post_init__` settles. -/
def WorkflowInput.make [PyLib] (name type : String) (required : Bool) (default : Value)
    (description source presentation : String) (multiple : Bool) (accept placeholder : String)
    (options : List String) (primitiveType semanticType scope : String)
    (constraints uiHints : Dict String Value) : WorkflowInput where
  name := name
  type := type
  required := required
  default := default
  description := description
  source := source
  presentation := presentation
  multiple := multiple
  accept := accept
  placeholder := placeholder
  options := options
  primitiveType := orText primitiveType (legacyPrimitive (foldType (orText type "string")))
  semanticType := orText semanticType (legacySemantic (foldType (orText type "string")))
  scope := scope
  constraints := constraints
  uiHints := uiHints
  primitive_ne := orText_ne (legacyPrimitive_ne (foldType_ne (orText_ne (by decide))))
  semantic_ne := orText_ne (legacySemantic_ne (foldType_ne (orText_ne (by decide))))

/-- `WorkflowInput.to_dict`. -/
def WorkflowInput.toDict (item : WorkflowInput) : Dict String Value :=
  ⟨[("name", .str item.name), ("type", .str item.type),
    ("primitiveType", .str (orText item.primitiveType (legacyPrimitive item.type))),
    ("semanticType", .str (orText item.semanticType (legacySemantic item.type))),
    ("scope", .str item.scope), ("required", .bool item.required), ("default", item.default),
    ("description", .str item.description), ("source", .str item.source),
    ("presentation", .str item.presentation), ("multiple", .bool item.multiple)] ++
    optional "accept" (item.accept ≠ "") (.str item.accept) ++
    optional "placeholder" (item.placeholder ≠ "") (.str item.placeholder) ++
    optional "options" (item.options ≠ []) (.list (item.options.map .str)) ++
    optional "constraints" (item.constraints.entries ≠ []) (.ofDict item.constraints) ++
    optional "uiHints" (item.uiHints.entries ≠ []) (.ofDict item.uiHints)⟩

/-- `WorkflowInput.from_dict`. -/
def WorkflowInput.fromDict [PyLib] (payload : Dict String Value) :
    Except PyError WorkflowInput := do
  let options ← (getTruthy payload "options" (.list [])).iter
  let legacyType := getStr payload "type" "string"
  let primitiveType := (getTruthy payload "primitiveType" (.str (legacyPrimitive legacyType))).pyStr
  let semanticType := (getTruthy payload "semanticType" (.str (legacySemantic legacyType))).pyStr
  let constraints ← getDict payload "constraints"
  let uiHints ← getDict payload "uiHints"
  return .make (getStr payload "name" "") legacyType (getOr payload "required" (.bool false)).truthy
    (getOr payload "default" .none) (getStr payload "description" "")
    (getStr payload "source" "runtime") (getStr payload "presentation" "")
    (getOr payload "multiple" (.bool false)).truthy (getStr payload "accept" "")
    (getStr payload "placeholder" "")
    ((options.filter fun v => !isNone v).map Value.pyStr)
    primitiveType semanticType (getStr payload "scope" "input") constraints uiHints

/-! ## Outputs -/

/-- `WorkflowOutput`. -/
structure WorkflowOutput where
  name : String
  value : Value
  type : String
  description : String
  presentation : String
  mimeType : String
  downloadName : String
  primitiveType : String
  semanticType : String
  scope : String
  constraints : Dict String Value
  uiHints : Dict String Value
  primitive_ne : primitiveType = "" → type = ""
  semantic_ne : semanticType ≠ ""

/-- `WorkflowOutput(...)`, with what `__post_init__` settles. -/
def WorkflowOutput.make (name : String) (value : Value)
    (type description presentation mimeType downloadName primitiveType semanticType scope : String)
    (constraints uiHints : Dict String Value) : WorkflowOutput where
  name := name
  value := value
  type := type
  description := description
  presentation := presentation
  mimeType := mimeType
  downloadName := downloadName
  primitiveType := orText primitiveType (if type ≠ "any" then type else "object")
  semanticType := orText semanticType
    (if presentation = "download" then "file" else if presentation = "json" then "json" else "text")
  scope := scope
  constraints := constraints
  uiHints := uiHints
  primitive_ne h := by
    unfold orText at h
    split_ifs at h with hp ht
    · exact absurd h hp
    · exact h
    · exact absurd h (by decide)
  semantic_ne := orText_ne (by split_ifs <;> decide)

/-- `WorkflowOutput.to_dict`. -/
def WorkflowOutput.toDict (item : WorkflowOutput) : Dict String Value :=
  ⟨[("name", .str item.name), ("value", item.value), ("type", .str item.type),
    ("description", .str item.description), ("presentation", .str item.presentation),
    ("mime_type", .str item.mimeType), ("download_name", .str item.downloadName),
    ("primitiveType", .str item.primitiveType), ("semanticType", .str item.semanticType),
    ("scope", .str item.scope), ("mimeType", .str item.mimeType),
    ("downloadName", .str item.downloadName)]⟩

/-- `WorkflowOutput.from_dict`. -/
def WorkflowOutput.fromDict [PyLib] (payload : Dict String Value) :
    Except PyError WorkflowOutput := do
  let constraints ← getDict payload "constraints"
  let uiHints ← getDict payload "uiHints"
  let download := (getOr payload "presentation" .none).pyEq (.str "download")
  return .make (getStr payload "name" "") (getOr payload "value" .none)
    (getStr payload "type" "any") (getStr payload "description" "")
    (getStr payload "presentation" "text")
    (getOr payload "mime_type" (getOr payload "mimeType" (.str ""))).pyStr
    (getOr payload "download_name" (getOr payload "downloadName" (.str ""))).pyStr
    (getOr payload "primitiveType" (getOr payload "type" (.str "any"))).pyStr
    (getStr payload "semanticType" (if download then "file" else "text"))
    (getStr payload "scope" "output") constraints uiHints

/-- An output whose dictionary holds all of it. -/
def WorkflowOutput.Plain (item : WorkflowOutput) : Prop :=
  item.constraints = ∅ ∧ item.uiHints = ∅

instance : DecidablePred WorkflowOutput.Plain := fun item =>
  decidable_of_iff (item.constraints.entries = [] ∧ item.uiHints.entries = []) (by
    obtain ⟨_, _, _, _, _, _, _, _, _, _, ⟨c⟩, ⟨u⟩, _, _⟩ := item
    exact ⟨fun h => ⟨congrArg Dict.mk h.1, congrArg Dict.mk h.2⟩,
      fun h => ⟨congrArg Dict.entries h.1, congrArg Dict.entries h.2⟩⟩)

/-! ## Nodes and edges -/

/-- `WorkflowNode` of a draft. -/
structure WorkflowNode where
  id : String
  actionId : String
  config : Dict String Value := ∅
  inputMapping : Dict String Value := ∅
  position : Dict String PyFloat := ∅

/-- `WorkflowNode.to_dict`. -/
def WorkflowNode.toDict (item : WorkflowNode) : Dict String Value :=
  ⟨[("id", .str item.id), ("action_id", .str item.actionId), ("config", .ofDict item.config),
    ("input_mapping", .ofDict item.inputMapping),
    ("position", .ofDict (item.position.mapValues .float))]⟩

/-- The value of a key, or else of another one, or else an empty dictionary. -/
def getDictOf (payload : Dict String Value) (key other : String) :
    Except PyError (Dict String Value) :=
  (getTruthy payload key (getTruthy payload other (.dict []))).toDict

/-- `WorkflowNode.from_dict`. -/
def WorkflowNode.fromDict [PyLib] (payload : Dict String Value) : Except PyError WorkflowNode := do
  let config ← getDictOf payload "config" "params"
  let inputMapping ← getDictOf payload "input_mapping" "inputs"
  let position ← getDict payload "position"
  let position ← position.entries.mapM fun e => do return (e.1, ← e.2.toFloat)
  return {
    id := getStr payload "id" ""
    actionId := (getOr payload "action_id" (getOr payload "action" (.str ""))).pyStr
    config := config
    inputMapping := inputMapping
    position := ⟨position⟩ }

/-- `WorkflowEdge` of a draft. -/
structure WorkflowEdge where
  source : String
  target : String
  condition : Value := .none
  sourceHandle : Value := .none

/-- `WorkflowEdge.to_dict`. -/
def WorkflowEdge.toDict (item : WorkflowEdge) : Dict String Value :=
  ⟨[("source", .str item.source), ("target", .str item.target)] ++
    optional "condition" (isNone item.condition = false) item.condition ++
    optional "source_handle" (isNone item.sourceHandle = false) item.sourceHandle⟩

/-- `WorkflowEdge.from_dict`. -/
def WorkflowEdge.fromDict [PyLib] (payload : Dict String Value) : WorkflowEdge where
  source := (getOr payload "source" (getOr payload "from" (.str ""))).pyStr
  target := (getOr payload "target" (getOr payload "to" (.str ""))).pyStr
  condition := getOr payload "condition" .none
  sourceHandle := getOr payload "source_handle" .none

/-! ## Drafts and versions -/

/-- `WorkflowDraft`. -/
structure WorkflowDraft where
  id : String
  name : String
  description : String := ""
  version : String := "draft"
  inputs : List WorkflowInput := []
  nodes : List WorkflowNode := []
  edges : List WorkflowEdge := []
  status : String := "draft"
  outputs : List WorkflowOutput := []
  canvasEdges : Option (List WorkflowEdge) := none

/-- `WorkflowVersion`. -/
structure WorkflowVersion where
  workflowId : String
  version : Value
  name : String
  inputs : List WorkflowInput := []
  nodes : List WorkflowNode := []
  edges : List WorkflowEdge := []
  publishedAt : Value := .none
  description : String := ""
  outputs : List WorkflowOutput := []
  canvasEdges : Option (List WorkflowEdge) := none

/-- `[item.to_dict() for item in items]`. -/
def dicts {α : Type} (toDict : α → Dict String Value) (items : List α) : Value :=
  .list ((items.map toDict).map .ofDict)

/-- `None if canvas_edges is None else [item.to_dict() for item in canvas_edges]`. -/
def canvasDicts : Option (List WorkflowEdge) → Value
  | none => .none
  | some edges => dicts WorkflowEdge.toDict edges

/-- `tuple(from_dict(v) for v in payload.get(key, ()) if isinstance(v, Mapping))`. -/
def readItems {α : Type} (payload : Dict String Value) (key : String)
    (fromDict : Dict String Value → Except PyError α) : Except PyError (List α) := do
  (← mappings (getOr payload key (.list []))).mapM fromDict

/-- The canvas edges of a payload. -/
def canvasEdgesOf [PyLib] (payload : Dict String Value) :
    Except PyError (Option (List WorkflowEdge)) :=
  match getOr payload "canvas_edges" .none with
  | .none => .ok none
  | raw => do return some ((← mappings raw).map WorkflowEdge.fromDict)

/-- `WorkflowDraft.to_dict`. -/
def WorkflowDraft.toDict (draft : WorkflowDraft) : Dict String Value :=
  ⟨[("id", .str draft.id), ("name", .str draft.name), ("description", .str draft.description),
    ("version", .str draft.version), ("inputs", dicts WorkflowInput.toDict draft.inputs),
    ("outputs", dicts WorkflowOutput.toDict draft.outputs),
    ("nodes", dicts WorkflowNode.toDict draft.nodes),
    ("edges", dicts WorkflowEdge.toDict draft.edges),
    ("canvas_edges", canvasDicts draft.canvasEdges), ("status", .str draft.status)]⟩

/-- `WorkflowDraft.from_dict`. -/
def WorkflowDraft.fromDict [PyLib] (payload : Dict String Value) :
    Except PyError WorkflowDraft := do
  let canvasEdges ← canvasEdgesOf payload
  let inputs ← readItems payload "inputs" WorkflowInput.fromDict
  let nodes ← readItems payload "nodes" WorkflowNode.fromDict
  let edges ← readItems payload "edges" fun v => .ok (WorkflowEdge.fromDict v)
  let outputs ← readItems payload "outputs" WorkflowOutput.fromDict
  return {
    id := getStr payload "id" ""
    name := getStr payload "name" ""
    description := getStr payload "description" ""
    version := getStr payload "version" "draft"
    inputs := inputs
    nodes := nodes
    edges := edges
    status := getStr payload "status" "draft"
    outputs := outputs
    canvasEdges := canvasEdges }

/-- `WorkflowVersion.to_dict`. -/
def WorkflowVersion.toDict (version : WorkflowVersion) : Dict String Value :=
  ⟨[("workflow_id", .str version.workflowId), ("version", version.version),
    ("name", .str version.name), ("inputs", dicts WorkflowInput.toDict version.inputs),
    ("outputs", dicts WorkflowOutput.toDict version.outputs),
    ("nodes", dicts WorkflowNode.toDict version.nodes),
    ("edges", dicts WorkflowEdge.toDict version.edges),
    ("canvas_edges", canvasDicts version.canvasEdges), ("published_at", version.publishedAt),
    ("description", .str version.description)]⟩

/-- `WorkflowVersion.from_dict`. -/
def WorkflowVersion.fromDict [PyLib] (payload : Dict String Value) :
    Except PyError WorkflowVersion := do
  let canvasEdges ← canvasEdgesOf payload
  let inputs ← readItems payload "inputs" WorkflowInput.fromDict
  let nodes ← readItems payload "nodes" WorkflowNode.fromDict
  let edges ← readItems payload "edges" fun v => .ok (WorkflowEdge.fromDict v)
  let outputs ← readItems payload "outputs" WorkflowOutput.fromDict
  return {
    workflowId := (getOr payload "workflow_id" (getOr payload "id" (.str ""))).pyStr
    version := getOr payload "version" (.int 1)
    name := getStr payload "name" ""
    inputs := inputs
    nodes := nodes
    edges := edges
    publishedAt := getOr payload "published_at" .none
    description := getStr payload "description" ""
    outputs := outputs
    canvasEdges := canvasEdges }

/-! ## What is written is read back -/

section RoundTrip

/-- Reading a key of a dictionary that is given by its entries. -/
theorem getOr_mk (entries : List (String × Value)) (key : String) (default : Value) :
    getOr ⟨entries⟩ key default = (Dict.lookup key entries).getD default := rfl

@[simp] theorem truthy_str (s : String) : (Value.str s).truthy = (s != "") := rfl

variable [PyLib]

@[simp] theorem pyStr_str (s : String) : (Value.str s).pyStr = s := rfl

theorem getStr_mk_optional {entries : List (String × Value)} {key s : String}
    (h : Dict.lookup key entries = if s ≠ "" then some (.str s) else none) :
    getStr ⟨entries⟩ key "" = s := by
  unfold getStr
  rw [getOr_mk, h]
  by_cases hs : s = "" <;> simp [hs]

omit [PyLib] in
theorem getDict_mk_optional {entries : List (String × Value)} {key : String}
    {d : Dict String Value}
    (h : Dict.lookup key entries = if d.entries ≠ [] then some (.ofDict d) else none) :
    getDict ⟨entries⟩ key = .ok d := by
  unfold getDict getTruthy
  rw [getOr_mk, h]
  obtain ⟨es⟩ := d
  cases es with
  | nil => rfl
  | cons e rest => rfl

/-- An input is read back as it was written. -/
theorem WorkflowInput.fromDict_toDict (item : WorkflowInput) :
    WorkflowInput.fromDict item.toDict = .ok item := by
  have hoptions : (getTruthy item.toDict "options" (.list [])).iter =
      .ok (item.options.map Value.str) := by
    unfold getTruthy WorkflowInput.toDict
    simp only [getOr_mk, lookup_append, lookup_optional]
    cases item.options with
    | nil => simp [Dict.lookup, Value.truthy, Value.iter]
    | cons o rest => simp [Dict.lookup, Value.truthy, Value.iter]
  have hconstraints : getDict item.toDict "constraints" = .ok item.constraints := by
    refine getDict_mk_optional ?_
    simp [lookup_append, lookup_optional, Dict.lookup]
  have hhints : getDict item.toDict "uiHints" = .ok item.uiHints := by
    refine getDict_mk_optional ?_
    simp [lookup_append, lookup_optional, Dict.lookup]
  have hprimitive := item.primitive_ne
  have hsemantic := item.semantic_ne
  unfold WorkflowInput.fromDict
  rw [hoptions, hconstraints, hhints]
  have haccept : getStr item.toDict "accept" "" = item.accept := by
    refine getStr_mk_optional ?_
    simp [lookup_append, lookup_optional, Dict.lookup]
  have hplaceholder : getStr item.toDict "placeholder" "" = item.placeholder := by
    refine getStr_mk_optional ?_
    simp [lookup_append, lookup_optional, Dict.lookup]
  have hnames : (item.options.map Value.str).filter (fun v => !isNone v) =
      item.options.map Value.str := by
    refine List.filter_eq_self.2 fun v hv => ?_
    obtain ⟨o, -, rfl⟩ := List.mem_map.1 hv
    rfl
  have htexts : (item.options.map Value.str).map Value.pyStr = item.options := by
    rw [List.map_map]
    exact List.map_id _
  have hread (key : String) (default v : Value) (h : Dict.lookup key item.toDict.entries = some v) :
      getOr item.toDict key default = v := by
    simp [getOr, Dict.get?, h]
  simp only [bind, Except.bind, pure, Except.pure, hnames, htexts, haccept, hplaceholder]
  unfold getTruthy getStr
  rw [hread "type" _ _ rfl, hread "primitiveType" _ _ rfl, hread "semanticType" _ _ rfl,
    hread "name" _ _ rfl, hread "required" _ _ rfl, hread "default" _ _ rfl,
    hread "description" _ _ rfl, hread "source" _ _ rfl, hread "presentation" _ _ rfl,
    hread "multiple" _ _ rfl, hread "scope" _ _ rfl]
  obtain ⟨name, type, required, default, description, source, presentation, multiple, accept,
    placeholder, options, primitiveType, semanticType, scope, constraints, uiHints, _, _⟩ := item
  simp [WorkflowInput.make, hprimitive, hsemantic, Value.truthy]

omit [PyLib] in
theorem getDict_of_get? {payload : Dict String Value} {key : String} {d : Dict String Value}
    (h : payload.get? key = some (.ofDict d)) : getDict payload key = .ok d := by
  unfold getDict getTruthy getOr
  rw [h]
  obtain ⟨es⟩ := d
  cases es with
  | nil => rfl
  | cons e rest => rfl

omit [PyLib] in
theorem getDict_of_none {payload : Dict String Value} {key : String}
    (h : payload.get? key = none) : getDict payload key = .ok ∅ := by
  unfold getDict getTruthy getOr
  rw [h]
  rfl

/-- What is read back of an output. -/
def WorkflowOutput.stripped (item : WorkflowOutput) : WorkflowOutput :=
  { item with constraints := ∅, uiHints := ∅ }

omit [PyLib] in
theorem WorkflowOutput.stripped_eq_iff (item : WorkflowOutput) :
    item.stripped = item ↔ item.Plain := by
  obtain ⟨_, _, _, _, _, _, _, _, _, _, constraints, uiHints, _, _⟩ := item
  simp [WorkflowOutput.stripped, WorkflowOutput.Plain, eq_comm]

/-- An output is read back without its constraints and hints. -/
theorem WorkflowOutput.fromDict_toDict (item : WorkflowOutput) :
    WorkflowOutput.fromDict item.toDict = .ok item.stripped := by
  have hconstraints : getDict item.toDict "constraints" = .ok ∅ := getDict_of_none rfl
  have hhints : getDict item.toDict "uiHints" = .ok ∅ := getDict_of_none rfl
  have hprimitive := item.primitive_ne
  have hsemantic := item.semantic_ne
  have hread (key : String) (default v : Value) (h : item.toDict.get? key = some v) :
      getOr item.toDict key default = v := by
    simp [getOr, h]
  unfold WorkflowOutput.fromDict getStr
  rw [hconstraints, hhints]
  simp only [bind, Except.bind, pure, Except.pure]
  rw [hread "name" _ _ rfl, hread "value" _ _ rfl, hread "type" (.str "any") _ rfl,
    hread "description" _ _ rfl, hread "presentation" (.str "text") _ rfl,
    hread "mime_type" _ _ rfl, hread "download_name" _ _ rfl, hread "primitiveType" _ _ rfl,
    hread "semanticType" _ _ rfl, hread "scope" _ _ rfl]
  obtain ⟨name, value, type, description, presentation, mimeType, downloadName, primitiveType,
    semanticType, scope, constraints, uiHints, _, _⟩ := item
  by_cases hp : primitiveType = ""
  · have ht := hprimitive hp
    simp_all [WorkflowOutput.make, WorkflowOutput.stripped, orText]
  · simp_all [WorkflowOutput.make, WorkflowOutput.stripped]

omit [PyLib] in
theorem getDictOf_of_get? {payload : Dict String Value} {key other : String}
    {d : Dict String Value} (h : payload.get? key = some (.ofDict d))
    (hother : payload.get? other = none) : getDictOf payload key other = .ok d := by
  have hempty : getTruthy payload other (.dict []) = .dict [] := by
    simp [getTruthy, getOr, hother, Value.truthy]
  unfold getDictOf
  rw [hempty]
  exact getDict_of_get? h

/-- A node is read back as it was written. -/
theorem WorkflowNode.fromDict_toDict (item : WorkflowNode) :
    WorkflowNode.fromDict item.toDict = .ok item := by
  have hconfig : getDictOf item.toDict "config" "params" = .ok item.config :=
    getDictOf_of_get? rfl rfl
  have hmapping : getDictOf item.toDict "input_mapping" "inputs" = .ok item.inputMapping :=
    getDictOf_of_get? rfl rfl
  have hposition : getDict item.toDict "position" = .ok (item.position.mapValues .float) :=
    getDict_of_get? rfl
  have hfloats : ((item.position.mapValues Value.float).entries.mapM fun e => do
      return (e.1, ← e.2.toFloat)) = .ok item.position.entries := by
    refine Except.mapM_eq_ok.2 ?_
    unfold Dict.mapValues
    generalize item.position.entries = entries
    induction entries with
    | nil => exact .nil
    | cons e rest ih => exact .cons rfl ih
  unfold WorkflowNode.fromDict
  rw [hconfig, hmapping, hposition]
  simp only [bind, Except.bind, pure, Except.pure] at hfloats ⊢
  rw [hfloats]
  rfl

/-- An edge is read back as it was written. -/
theorem WorkflowEdge.fromDict_toDict (item : WorkflowEdge) :
    WorkflowEdge.fromDict item.toDict = item := by
  obtain ⟨source, target, condition, sourceHandle⟩ := item
  have hcondition : getOr (WorkflowEdge.toDict ⟨source, target, condition, sourceHandle⟩)
      "condition" .none = condition := by
    unfold WorkflowEdge.toDict
    rw [getOr_mk, lookup_append, lookup_append, lookup_optional, lookup_optional]
    cases condition <;> simp [Dict.lookup, isNone]
  have hhandle : getOr (WorkflowEdge.toDict ⟨source, target, condition, sourceHandle⟩)
      "source_handle" .none = sourceHandle := by
    unfold WorkflowEdge.toDict
    rw [getOr_mk, lookup_append, lookup_append, lookup_optional, lookup_optional]
    cases sourceHandle <;> simp [Dict.lookup, isNone]
  unfold WorkflowEdge.fromDict
  rw [hcondition, hhandle]
  rfl

omit [PyLib] in
/-- The dictionaries of a list are read back one by one. -/
theorem readItems_of_get? {α : Type} {toDict : α → Dict String Value}
    {fromDict : Dict String Value → Except PyError α} {back : α → α}
    (hback : ∀ a, fromDict (toDict a) = .ok (back a)) {payload : Dict String Value} {key : String}
    {items : List α} (h : payload.get? key = some (dicts toDict items)) :
    readItems payload key fromDict = .ok (items.map back) := by
  have hread : (items.map toDict).mapM fromDict = .ok (items.map back) := by
    refine Except.mapM_eq_ok.2 ?_
    clear h
    induction items with
    | nil => exact .nil
    | cons a rest ih => exact .cons (hback a) ih
  unfold readItems getOr
  rw [h]
  show (mappings (dicts toDict items) >>= fun ds => ds.mapM fromDict) = _
  unfold dicts
  rw [mappings_list]
  exact hread

omit [PyLib] in
/-- A list whose items are read back as they were written. -/
theorem readItems_same {α : Type} {toDict : α → Dict String Value}
    {fromDict : Dict String Value → Except PyError α} (hback : ∀ a, fromDict (toDict a) = .ok a)
    {payload : Dict String Value} {key : String} {items : List α}
    (h : payload.get? key = some (dicts toDict items)) :
    readItems payload key fromDict = .ok items := by
  rw [readItems_of_get? hback h, List.map_id']

theorem readItems_edges {payload : Dict String Value} {key : String} {edges : List WorkflowEdge}
    (h : payload.get? key = some (dicts WorkflowEdge.toDict edges)) :
    readItems payload key (fun v => .ok (WorkflowEdge.fromDict v)) = .ok edges := by
  have hback : ∀ e : WorkflowEdge, (fun v => .ok (WorkflowEdge.fromDict v) :
      Dict String Value → Except PyError WorkflowEdge) e.toDict = .ok e := fun e =>
    congrArg Except.ok (WorkflowEdge.fromDict_toDict e)
  exact readItems_same hback h

theorem canvasEdgesOf_of_get? {payload : Dict String Value} {edges : Option (List WorkflowEdge)}
    (h : payload.get? "canvas_edges" = some (canvasDicts edges)) :
    canvasEdgesOf payload = .ok edges := by
  unfold canvasEdgesOf getOr
  rw [h]
  cases edges with
  | none => rfl
  | some edges =>
    have hread : mappings (dicts WorkflowEdge.toDict edges) =
        .ok (edges.map WorkflowEdge.toDict) := mappings_list _
    have hback : (edges.map WorkflowEdge.toDict).map WorkflowEdge.fromDict = edges := by
      rw [List.map_map]
      refine (List.map_congr_left fun e _ => ?_).trans (List.map_id edges)
      exact WorkflowEdge.fromDict_toDict e
    show (mappings (dicts WorkflowEdge.toDict edges) >>= fun ds =>
      pure (some (ds.map WorkflowEdge.fromDict))) = _
    rw [hread]
    exact congrArg (fun es => Except.ok (some es)) hback

/-- What is read back of a draft. -/
def WorkflowDraft.stripped (draft : WorkflowDraft) : WorkflowDraft :=
  { draft with outputs := draft.outputs.map WorkflowOutput.stripped }

/-- What is read back of a version. -/
def WorkflowVersion.stripped (version : WorkflowVersion) : WorkflowVersion :=
  { version with outputs := version.outputs.map WorkflowOutput.stripped }

/-- A draft is read back with its outputs stripped. -/
theorem WorkflowDraft.fromDict_toDict (draft : WorkflowDraft) :
    WorkflowDraft.fromDict draft.toDict = .ok draft.stripped := by
  have hcanvas : canvasEdgesOf draft.toDict = .ok draft.canvasEdges := canvasEdgesOf_of_get? rfl
  have hinputs : readItems draft.toDict "inputs" WorkflowInput.fromDict = .ok draft.inputs :=
    readItems_same WorkflowInput.fromDict_toDict rfl
  have hnodes : readItems draft.toDict "nodes" WorkflowNode.fromDict = .ok draft.nodes :=
    readItems_same WorkflowNode.fromDict_toDict rfl
  have hedges : readItems draft.toDict "edges" (fun v => .ok (WorkflowEdge.fromDict v)) =
      .ok draft.edges :=
    readItems_edges rfl
  have houtputs : readItems draft.toDict "outputs" WorkflowOutput.fromDict =
      .ok (draft.outputs.map WorkflowOutput.stripped) :=
    readItems_of_get? WorkflowOutput.fromDict_toDict rfl
  unfold WorkflowDraft.fromDict
  rw [hcanvas, hinputs, hnodes, hedges, houtputs]
  rfl

/-- A version is read back with its outputs stripped. -/
theorem WorkflowVersion.fromDict_toDict (version : WorkflowVersion) :
    WorkflowVersion.fromDict version.toDict = .ok version.stripped := by
  have hcanvas : canvasEdgesOf version.toDict = .ok version.canvasEdges :=
    canvasEdgesOf_of_get? rfl
  have hinputs : readItems version.toDict "inputs" WorkflowInput.fromDict = .ok version.inputs :=
    readItems_same WorkflowInput.fromDict_toDict rfl
  have hnodes : readItems version.toDict "nodes" WorkflowNode.fromDict = .ok version.nodes :=
    readItems_same WorkflowNode.fromDict_toDict rfl
  have hedges : readItems version.toDict "edges" (fun v => .ok (WorkflowEdge.fromDict v)) =
      .ok version.edges :=
    readItems_edges rfl
  have houtputs : readItems version.toDict "outputs" WorkflowOutput.fromDict =
      .ok (version.outputs.map WorkflowOutput.stripped) :=
    readItems_of_get? WorkflowOutput.fromDict_toDict rfl
  unfold WorkflowVersion.fromDict
  rw [hcanvas, hinputs, hnodes, hedges, houtputs]
  rfl

omit [PyLib] in
theorem map_stripped_eq_iff (outputs : List WorkflowOutput) :
    outputs.map WorkflowOutput.stripped = outputs ↔ ∀ item ∈ outputs, item.Plain := by
  induction outputs with
  | nil => simp
  | cons item rest ih => simp [ih, WorkflowOutput.stripped_eq_iff]

/-- A draft whose dictionary holds all of it. -/
def WorkflowDraft.Plain (draft : WorkflowDraft) : Prop := ∀ item ∈ draft.outputs, item.Plain

instance : DecidablePred WorkflowDraft.Plain := fun draft =>
  inferInstanceAs (Decidable (∀ item ∈ draft.outputs, item.Plain))

omit [PyLib] in
theorem WorkflowDraft.stripped_eq_iff (draft : WorkflowDraft) :
    draft.stripped = draft ↔ draft.Plain := by
  rw [WorkflowDraft.Plain, ← map_stripped_eq_iff]
  obtain ⟨_, _, _, _, _, _, _, _, _, _⟩ := draft
  simp [WorkflowDraft.stripped]

/-- A draft is read back as it was written exactly when its outputs have no constraints and no
hints. -/
theorem WorkflowDraft.fromDict_toDict_iff (draft : WorkflowDraft) :
    WorkflowDraft.fromDict draft.toDict = .ok draft ↔ draft.Plain := by
  rw [WorkflowDraft.fromDict_toDict, ← WorkflowDraft.stripped_eq_iff]
  constructor
  · exact Except.ok.inj
  · exact congrArg Except.ok

end RoundTrip

end DeviceShell.Studio
