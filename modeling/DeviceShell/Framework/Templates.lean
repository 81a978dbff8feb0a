import DeviceShell.Framework.JsonInputs

/-!
# Inputs as templates

`_resolve_inputs` does two things to the texts of a mapping: it parses those under the key
`input_json`, and again those of the documents that it reads, and it puts values in the place of
references. `documents` does the first alone, and `resolveWith_eq_traverse` says that the resolution
is the second on what `documents` gives. After it no text is left that would be parsed
(`plain_documents`).
-/

namespace DeviceShell

namespace Value

mutual

/-- A value that `json.loads` returned, by its texts. -/
theorem readFrom_iff (n : ℕ) : ∀ (path : List String) (v : Value),
    v.ReadFrom n ↔ v.Keyed ∧ ∀ e ∈ v.texts path, e.2.length < n
  | path, .str text => by simp [ReadFrom, Keyed, texts]
  | path, .list items => by
    have hitems := itemsReadFrom_iff n path items
    simpa only [ReadFrom, Keyed, texts] using hitems
  | path, .dict entries => by
    have hentries := entriesReadFrom_iff n path entries
    simp only [ReadFrom, Keyed, texts]
    rw [hentries, and_assoc]
  | _, .none => by simp [ReadFrom, Keyed, texts]
  | _, .bool _ => by simp [ReadFrom, Keyed, texts]
  | _, .int _ => by simp [ReadFrom, Keyed, texts]
  | _, .float _ => by simp [ReadFrom, Keyed, texts]
termination_by structural _ v => v

/-- `readFrom_iff` for the items of a list. -/
theorem itemsReadFrom_iff (n : ℕ) : ∀ (path : List String) (items : List Value),
    ItemsReadFrom n items ↔ ItemsKeyed items ∧ ∀ e ∈ itemTexts path items, e.2.length < n
  | _, [] => by simp [ItemsReadFrom, ItemsKeyed, itemTexts]
  | path, v :: rest => by
    have hv := readFrom_iff n path v
    have hrest := itemsReadFrom_iff n path rest
    simp only [ItemsReadFrom, ItemsKeyed, itemTexts, List.forall_mem_append]
    rw [hv, hrest]
    tauto
termination_by structural _ items => items

/-- `readFrom_iff` for the entries of a dictionary. -/
theorem entriesReadFrom_iff (n : ℕ) : ∀ (path : List String) (entries : List (String × Value)),
    EntriesReadFrom n entries ↔
      EntriesKeyed entries ∧ ∀ e ∈ entryTexts path entries, e.2.length < n
  | _, [] => by simp [EntriesReadFrom, EntriesKeyed, entryTexts]
  | path, (key, v) :: rest => by
    have hv := readFrom_iff n (path ++ [key]) v
    have hrest := entriesReadFrom_iff n path rest
    simp only [EntriesReadFrom, EntriesKeyed, entryTexts, List.forall_mem_append]
    rw [hv, hrest]
    tauto
termination_by structural _ entries => entries

end

theorem ReadFrom.mono {n m : ℕ} {v : Value} (h : v.ReadFrom n) (hle : n ≤ m) : v.ReadFrom m := by
  obtain ⟨hkeyed, hshort⟩ := (readFrom_iff n [] v).1 h
  refine (readFrom_iff m [] v).2 ⟨hkeyed, fun e he => ?_⟩
  have hlength := hshort e he
  omega

theorem ReadFrom.keyed {n : ℕ} {v : Value} (h : v.ReadFrom n) : v.Keyed :=
  ((readFrom_iff n [] v).1 h).1

end Value

namespace Framework

open Value (texts mapTexts mapTexts_congr mapTexts_self texts_mapTexts traverseTexts traverseItems
  traverseEntries traverse_congr traverse_mapTexts traverse_self readFrom_iff)

variable [PyLib]

/-! ## Documents -/

/-- The document that a text at the given place is, where the resolution parses it. -/
def parsed? (path : List String) (text : String) : Option Value :=
  if path.getLast? = some "input_json" then PyLib.jsonLoads text else none

/-- A text with the documents in it parsed, at most so deep. -/
def documentWithin : ℕ → List String → String → Value
  | 0, _, text => .str text
  | n + 1, path, text => match parsed? path text with
    | some parsed => mapTexts (documentWithin n) path parsed
    | none => .str text

/-- A text with the documents in it parsed. -/
def document (path : List String) (text : String) : Value := documentWithin text.length path text

/-- A value with the documents in it parsed. -/
def documents (path : List String) (v : Value) : Value := mapTexts document path v

/-- Nothing of a value is parsed. -/
def Plain (path : List String) (v : Value) : Prop := ∀ e ∈ v.texts path, parsed? e.1 e.2 = none

theorem length_of_parsed [LawfulJson] {path : List String} {text : String} {v : Value}
    (h : parsed? path text = some v) : v.ReadFrom text.length := by
  unfold parsed? at h
  split at h
  · exact LawfulJson.readFrom h
  · cases h

theorem parsed?_empty [LawfulJson] (path : List String) : parsed? path "" = none := by
  unfold parsed?
  split
  · exact LawfulJson.loads_empty
  · rfl

/-- A bound that is at least the length of the text adds nothing. -/
theorem documentWithin_of_le [LawfulJson] (n : ℕ) (path : List String) (text : String)
    (h : text.length ≤ n) : documentWithin n path text = document path text := by
  unfold document
  -- Two bounds that are large enough give the same, by induction on the first one.
  have hsame : ∀ (n m : ℕ) (path : List String) (text : String), text.length ≤ n →
      text.length ≤ m → documentWithin n path text = documentWithin m path text := by
    intro n
    induction n with
    | zero =>
      intro m path text hn _
      have hempty : text = "" := by
        have hlength : text.length = 0 := by omega
        simpa using hlength
      subst hempty
      cases m with
      | zero => rfl
      | succ m => simp only [documentWithin, parsed?_empty]
    | succ n ih =>
      intro m path text hn hm
      cases m with
      | zero =>
        have hempty : text = "" := by
          have hlength : text.length = 0 := by omega
          simpa using hlength
        subst hempty
        simp only [documentWithin, parsed?_empty]
      | succ m =>
        unfold documentWithin
        cases hparsed : parsed? path text with
        | none => rfl
        | some v =>
          have hshort := ((readFrom_iff text.length path v).1 (length_of_parsed hparsed)).2
          refine mapTexts_congr path v fun e he => ?_
          have hlength := hshort e he
          exact ih m e.1 e.2 (by omega) (by omega)
  exact hsame n text.length path text h le_rfl

/-- A text is the document that it spells, with the documents in it parsed. -/
theorem document_eq [LawfulJson] (path : List String) (text : String) :
    document path text = (parsed? path text).elim (.str text) (documents path) := by
  have hstep : document path text = documentWithin (text.length + 1) path text :=
    (documentWithin_of_le _ path text (by omega)).symm
  rw [hstep]
  unfold documentWithin documents
  cases hparsed : parsed? path text with
  | none => rfl
  | some v =>
    have hshort := ((readFrom_iff text.length path v).1 (length_of_parsed hparsed)).2
    refine mapTexts_congr path v fun e he => ?_
    have hlength := hshort e he
    exact documentWithin_of_le _ e.1 e.2 (by omega)

/-- A value of which nothing is parsed. -/
theorem documents_of_plain [LawfulJson] {path : List String} {v : Value} (h : Plain path v) :
    documents path v = v := by
  have hself : mapTexts document path v = mapTexts (fun _ text => .str text) path v :=
    mapTexts_congr path v fun e he => by
      rw [document_eq, h e he]
      rfl
  exact hself.trans (mapTexts_self path v)

/-- Parsing the documents of a text leaves no text to be parsed, and dictionaries with distinct
keys. -/
theorem plain_document [LawfulJson] (path : List String) (text : String) :
    Plain path (document path text) ∧ (document path text).Keyed := by
  induction hn : text.length using Nat.strong_induction_on generalizing path text with
  | _ n ih =>
    subst hn
    rw [document_eq]
    cases hparsed : parsed? path text with
    | none =>
      refine ⟨fun e he => ?_, trivial⟩
      have he : e ∈ (Value.str text).texts path := he
      obtain rfl : e = (path, text) := by simpa only [texts, List.mem_singleton] using he
      exact hparsed
    | some v =>
      obtain ⟨hkeyed, hshort⟩ :=
        (readFrom_iff text.length path v).1 (length_of_parsed hparsed)
      have hinner : ∀ e ∈ v.texts path, Plain e.1 (document e.1 e.2) ∧ (document e.1 e.2).Keyed :=
        fun e he => ih e.2.length (hshort e he) e.1 e.2 rfl
      refine ⟨fun e he => ?_, hkeyed.mapTexts path v fun e he => (hinner e he).2⟩
      have he : e ∈ (mapTexts document path v).texts path := he
      rw [texts_mapTexts] at he
      obtain ⟨e', he', hmem⟩ := List.mem_flatMap.1 he
      exact (hinner e' he').1 e hmem

theorem plain_documents [LawfulJson] (path : List String) (v : Value) :
    Plain path (documents path v) := by
  intro e he
  have he : e ∈ (mapTexts document path v).texts path := he
  rw [texts_mapTexts] at he
  obtain ⟨e', -, hmem⟩ := List.mem_flatMap.1 he
  exact (plain_document e'.1 e'.2).1 e hmem

theorem keyed_documents [LawfulJson] (path : List String) {v : Value} (hv : v.Keyed) :
    (documents path v).Keyed :=
  hv.mapTexts path v fun e _ => (plain_document e.1 e.2).2

/-! ## Places -/

omit [PyLib] in
/-- Texts are treated alike at both places and below: only the last key decides whether a text is
parsed and whether it is a template. -/
def Alike (path other : List String) : Prop :=
  ∀ more : List String,
    ((path ++ more).getLast? = some "input_json" ↔ (other ++ more).getLast? = some "input_json") ∧
      templateKeys.contains (((path ++ more).getLast?).getD "") =
        templateKeys.contains (((other ++ more).getLast?).getD "")

omit [PyLib] in
theorem Alike.append {path other : List String} (h : Alike path other) (more : List String) :
    Alike (path ++ more) (other ++ more) := by
  intro further
  rw [List.append_assoc, List.append_assoc]
  exact h (more ++ further)

theorem Alike.parsed? {path other : List String} (h : Alike path other) (text : String) :
    parsed? path text = parsed? other text := by
  have hiff := (h []).1
  rw [List.append_nil, List.append_nil] at hiff
  simp only [Framework.parsed?, hiff]

theorem Alike.document {path other : List String} (h : Alike path other) (text : String) :
    document path text = document other text := by
  have hwithin : ∀ (n : ℕ) (path other : List String) (text : String), Alike path other →
      documentWithin n path text = documentWithin n other text := by
    intro n
    induction n with
    | zero => exact fun _ _ _ _ => rfl
    | succ n ih =>
      intro path other text halike
      unfold documentWithin
      rw [halike.parsed?]
      cases Framework.parsed? other text with
      | none => rfl
      | some v =>
        exact Value.mapTexts_move path other v fun more text => ih _ _ text (halike.append more)
  exact hwithin _ path other text h

theorem Alike.documents {path other : List String} (h : Alike path other) (v : Value) :
    documents path v = documents other v :=
  Value.mapTexts_move path other v fun more text => (h.append more).document text

/-! ## The resolution as a substitution -/

/-- What the resolution puts in the place of a text. -/
def resolvedText (r : Resolution) (json : String → List String → Value → Except PyError Value)
    (path : List String) (text : String) : Except PyError Value :=
  match parsed? path text with
  | some parsed => json text path parsed
  | none => resolveText r path text

mutual

/-- The resolution puts a value in the place of every text. -/
theorem resolveWith_eq (r : Resolution) (json : String → List String → Value → Except PyError Value) :
    ∀ (path : List String) (v : Value),
      resolveWith r json path v = traverseTexts (resolvedText r json) path v
  | path, .str text => by
    by_cases hpath : path.getLast? = some "input_json"
    · have hbeq : (path.getLast? == some "input_json") = true := by simp [hpath]
      cases hload : PyLib.jsonLoads text <;>
        simp only [resolveWith, traverseTexts, resolvedText, parsed?, if_pos hpath, hbeq, hload]
    · have hbeq : (path.getLast? == some "input_json") = false := by simp [hpath]
      simp only [resolveWith, traverseTexts, resolvedText, parsed?, if_neg hpath, hbeq]
  | path, .list items => by
    simp only [resolveWith, traverseTexts, resolveItems_eq r json path items]
  | path, .dict entries => by
    simp only [resolveWith, traverseTexts, resolveEntries_eq r json path entries]
  | _, .none => rfl
  | _, .bool _ => rfl
  | _, .int _ => rfl
  | _, .float _ => rfl
termination_by structural _ v => v

/-- `resolveWith_eq` for the items of a list. -/
theorem resolveItems_eq (r : Resolution)
    (json : String → List String → Value → Except PyError Value) :
    ∀ (path : List String) (items : List Value),
      resolveItems r json path items = traverseItems (resolvedText r json) path items
  | _, [] => rfl
  | path, v :: rest => by
    simp only [resolveItems, traverseItems, resolveWith_eq r json path v,
      resolveItems_eq r json path rest]
termination_by structural _ items => items

/-- `resolveWith_eq` for the entries of a dictionary. -/
theorem resolveEntries_eq (r : Resolution)
    (json : String → List String → Value → Except PyError Value) :
    ∀ (path : List String) (entries : List (String × Value)),
      resolveEntries r json path entries = traverseEntries (resolvedText r json) path entries
  | _, [] => rfl
  | path, (key, v) :: rest => by
    simp only [resolveEntries, traverseEntries, resolveWith_eq r json (path ++ [key]) v,
      resolveEntries_eq r json path rest]
termination_by structural _ entries => entries

end

/-- A document that was read is resolved as what its documents parse to. -/
theorem resolveParsed_eq [LawfulJson] (r : Resolution) (n : ℕ) (path : List String) (v : Value)
    (hv : v.ReadFrom n) :
    resolveParsed r n path v = traverseTexts (resolveText r) path (documents path v) := by
  induction n generalizing path v with
  | zero =>
    -- There is no text in it.
    obtain ⟨hkeyed, hshort⟩ := (readFrom_iff 0 path v).1 hv
    have hnone : ∀ e ∈ v.texts path, False := fun e he => by
      have hlength := hshort e he
      omega
    rw [documents_of_plain fun e he => (hnone e he).elim,
      traverse_self hkeyed fun e he => (hnone e he).elim]
    rfl
  | succ n ih =>
    have hshort := ((readFrom_iff (n + 1) path v).1 hv).2
    have hone : resolveParsed r (n + 1) path v =
        traverseTexts (resolvedText r fun _ path parsed => resolveParsed r n path parsed) path v :=
      resolveWith_eq r _ path v
    unfold documents
    rw [hone, traverse_mapTexts]
    refine traverse_congr path v fun e he => ?_
    have hlength := hshort e he
    rw [document_eq]
    unfold resolvedText
    cases hparsed : parsed? e.1 e.2 with
    | none => rfl
    | some parsed => exact ih e.1 parsed ((length_of_parsed hparsed).mono (by omega))

/-- The resolution parses the documents, and then puts values in the place of references. -/
theorem resolveWith_eq_traverse [LawfulJson] (r : Resolution) (path : List String) (v : Value) :
    resolveWith r (fun text path parsed => resolveParsed r text.length path parsed) path v =
      traverseTexts (resolveText r) path (documents path v) := by
  unfold documents
  rw [resolveWith_eq, traverse_mapTexts]
  refine traverse_congr path v fun e _ => ?_
  rw [document_eq]
  unfold resolvedText
  cases hparsed : parsed? e.1 e.2 with
  | none => rfl
  | some parsed => exact resolveParsed_eq r _ e.1 parsed (length_of_parsed hparsed)

/-- The entries of a mapping are resolved as those of a dictionary at the root. -/
theorem resolveInputs_eq_entries (r : Resolution) (mapping : Dict String Value) :
    resolveInputs r mapping = do
      let entries ← resolveEntries r
        (fun text path parsed => resolveParsed r text.length path parsed) [] mapping.entries
      return entries.foldl (fun d e => d.set e.1 e.2) ∅ := by
  unfold resolveInputs
  have hentries : ∀ entries : List (String × Value),
      (entries.mapM fun e => do
        let v ← resolveWith r (fun text path parsed => resolveParsed r text.length path parsed)
          [e.1] e.2
        return (e.1, v)) =
      resolveEntries r (fun text path parsed => resolveParsed r text.length path parsed) []
        entries := by
    intro entries
    induction entries with
    | nil => rfl
    | cons e rest ih =>
      rw [List.mapM_cons, ih]
      simp only [resolveEntries, List.nil_append, bind_assoc, pure_bind]
  rw [hentries]

/-- A mapping is resolved as a dictionary at the root. -/
theorem resolveInputs_eq [LawfulJson] (r : Resolution) (mapping : Dict String Value) :
    (do return .ofDict (← resolveInputs r mapping)) =
      traverseTexts (resolveText r) [] (documents [] (.ofDict mapping)) := by
  have hroot := resolveWith_eq_traverse r [] (.ofDict mapping)
  rw [← hroot, resolveInputs_eq_entries]
  simp only [bind_assoc, pure_bind]
  rfl

end Framework

end DeviceShell
