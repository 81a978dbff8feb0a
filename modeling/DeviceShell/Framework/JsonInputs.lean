import DeviceShell.Framework.TaskInputs
import DeviceShell.Lib.ValueTexts

/-!
# JSON inputs

`_resolve_inputs` parses a text under the key `input_json` and resolves what it reads like the
inputs themselves, with the path of the text. The strings of the document are looked at again there: one
that is read under the key `input_json` is parsed in its turn, and one that is a reference is
replaced. `DocumentStays` says of a document which of its strings come out of this as they are, and
`jsonSurvives_iff` that the document survives exactly then.
-/

namespace DeviceShell

namespace Value

mutual

/-- A value as `json.loads` returns it for a text of the given length: its texts are shorter, and
the keys of its dictionaries are distinct. -/
def ReadFrom (n : ℕ) : Value → Prop
  | .str s => s.length < n
  | .list items => ItemsReadFrom n items
  | .dict entries => (entries.map Prod.fst).Nodup ∧ EntriesReadFrom n entries
  | _ => True
termination_by structural v => v

/-- `ReadFrom` of every item. -/
def ItemsReadFrom (n : ℕ) : List Value → Prop
  | [] => True
  | v :: rest => v.ReadFrom n ∧ ItemsReadFrom n rest
termination_by structural items => items

/-- `ReadFrom` of the value of every entry. -/
def EntriesReadFrom (n : ℕ) : List (String × Value) → Prop
  | [] => True
  | (_, v) :: rest => v.ReadFrom n ∧ EntriesReadFrom n rest
termination_by structural entries => entries

end

end Value

/-- `json.loads` as its documentation has it: an empty text is no document, a string of a document
stands between quotation marks in the text, and a later key of an object replaces an equal one
before it. -/
class LawfulJson [PyLib] : Prop where
  loads_empty : PyLib.jsonLoads "" = none
  readFrom {text : String} {v : Value} (h : PyLib.jsonLoads text = some v) :
    v.ReadFrom text.length

namespace Framework

section

variable [PyLib]

/-! ## Which documents stay -/

/-- The text that is left when a JSON string is parsed, what it holds is parsed again, and so on. -/
def Unwraps : String → String → Prop :=
  Relation.ReflTransGen fun s t => PyLib.jsonLoads s = some (.str t)

/-- `reference_pattern.sub` of the resolver makes the second text of the first. -/
def Rewrites (r : Resolution) (containerPath : List String) (s t : String) : Prop :=
  substitute matchReference
    (fun path => do return (← resolveReference r path containerPath).pyStr) s = .ok t

/-- The text stays at the given path: nothing in it is replaced, or what replaces it is the text
itself. -/
def TextStays (r : Resolution) (containerPath : List String) (s : String) : Prop :=
  if containerPath.getLast? = some "input_json" then
    (PyLib.jsonLoads s = none ∧ exactReference s = none) ∨
      ∃ t path, Unwraps s t ∧ PyLib.jsonLoads t = none ∧ exactReference t = some path ∧
        resolveReference r path containerPath = .ok (.str s)
  else match exactReference s with
    | some path => resolveReference r path containerPath = .ok (.str s)
    | none => templateKeys.contains (containerPath.getLast?.getD "") = false ∨ references s = [] ∨
        Rewrites r containerPath s s

mutual

/-- Every text of the value stays. -/
def DocumentStays (r : Resolution) (containerPath : List String) : Value → Prop
  | .str s => TextStays r containerPath s
  | .list items => ItemsStay r containerPath items
  | .dict entries => EntriesStay r containerPath entries
  | _ => True
termination_by structural v => v

/-- `DocumentStays` of every item: it has the path of the list. -/
def ItemsStay (r : Resolution) (containerPath : List String) : List Value → Prop
  | [] => True
  | v :: rest => DocumentStays r containerPath v ∧ ItemsStay r containerPath rest
termination_by structural items => items

/-- `DocumentStays` of the value of every entry: its key ends its path. -/
def EntriesStay (r : Resolution) (containerPath : List String) : List (String × Value) → Prop
  | [] => True
  | (key, v) :: rest =>
    DocumentStays r (containerPath ++ [key]) v ∧ EntriesStay r containerPath rest
termination_by structural entries => entries

end

/-! ## Texts -/

/-- What is not a text does not become one. -/
theorem resolveParsed_ne_str (r : Resolution) (n : ℕ) (containerPath : List String) {v : Value}
    (hv : ∀ s, v ≠ .str s) (s : String) : resolveParsed r n containerPath v ≠ .ok (.str s) := by
  intro h
  cases n with
  | zero =>
    simp only [resolveParsed, Except.ok.injEq] at h
    exact hv s h
  | succ n =>
    cases v with
    | str text => exact hv text rfl
    | list items =>
      simp only [resolveParsed, resolveWith] at h
      obtain ⟨items', -, hout⟩ := Except.bind_eq_ok.1 h
      cases hout
    | dict entries =>
      simp only [resolveParsed, resolveWith] at h
      obtain ⟨entries', -, hout⟩ := Except.bind_eq_ok.1 h
      cases hout
    | none => simp [resolveParsed, resolveWith] at h
    | bool b => simp [resolveParsed, resolveWith] at h
    | int k => simp [resolveParsed, resolveWith] at h
    | float x => simp [resolveParsed, resolveWith] at h

/-- A text under the key `input_json` becomes what the text that it unwraps to becomes. -/
theorem resolveParsed_jsonText [LawfulJson] (r : Resolution) (containerPath : List String)
    (hpath : containerPath.getLast? = some "input_json") (u : String) (n : ℕ) (s : String)
    (hs : s.length < n) :
    resolveParsed r n containerPath (.str s) = .ok (.str u) ↔
      ∃ t, Unwraps s t ∧ PyLib.jsonLoads t = none ∧
        resolveText r containerPath t = .ok (.str u) := by
  induction n generalizing s with
  | zero => omega
  | succ n ih =>
    have hbeq : (containerPath.getLast? == some "input_json") = true := by simp [hpath]
    have hfirst (t : String) : Unwraps s t ↔
        t = s ∨ ∃ m, PyLib.jsonLoads s = some (.str m) ∧ Unwraps m t := by
      unfold Unwraps
      rw [Relation.ReflTransGen.cases_head_iff, eq_comm]
    cases hload : PyLib.jsonLoads s with
    | none =>
      have hone : resolveParsed r (n + 1) containerPath (.str s) =
          resolveText r containerPath s := by
        simp only [resolveParsed, resolveWith, hbeq, hload]
      rw [hone]
      constructor
      · intro h
        exact ⟨s, Relation.ReflTransGen.refl, hload, h⟩
      · rintro ⟨t, ht, -, h⟩
        rw [hfirst] at ht
        rcases ht with rfl | ⟨m, hm, -⟩
        · exact h
        · simp [hload] at hm
    | some w =>
      have hone : resolveParsed r (n + 1) containerPath (.str s) =
          resolveParsed r n containerPath w := by
        simp only [resolveParsed, resolveWith, hbeq, hload]
      rw [hone]
      by_cases hw : ∃ m, w = .str m
      · obtain ⟨m, rfl⟩ := hw
        have hm : m.length < s.length := LawfulJson.readFrom hload
        rw [ih m (by omega)]
        constructor
        · rintro ⟨t, ht, h⟩
          exact ⟨t, (hfirst t).2 (.inr ⟨m, hload, ht⟩), h⟩
        · rintro ⟨t, ht, hnone, h⟩
          rcases (hfirst t).1 ht with rfl | ⟨m', hm', ht'⟩
          · simp [hload] at hnone
          · simp only [hload, Option.some.injEq, Value.str.injEq] at hm'
            exact ⟨t, hm' ▸ ht', hnone, h⟩
      · -- A document that is no string is not replaced by one.
        have hno : ∀ m, w ≠ .str m := fun m h => hw ⟨m, h⟩
        constructor
        · intro h
          exact absurd h (resolveParsed_ne_str r n containerPath hno u)
        · rintro ⟨t, ht, hnone, h⟩
          rcases (hfirst t).1 ht with rfl | ⟨m, hm, -⟩
          · simp [hload] at hnone
          · simp only [hload, Option.some.injEq] at hm
            exact absurd hm (hno m)

/-- A text that is not parsed. -/
theorem resolveText_eq_ok_iff (r : Resolution) (containerPath : List String) (s t : String) :
    resolveText r containerPath s = .ok (.str t) ↔
      (∃ path, exactReference s = some path ∧
          resolveReference r path containerPath = .ok (.str t)) ∨
        (exactReference s = none ∧
          if containerPath.getLast?.getD "" ∈ templateKeys ∧ references s ≠ [] then
            Rewrites r containerPath s t
          else s = t) := by
  unfold resolveText Rewrites
  cases exactReference s with
  | some path => simp
  | none =>
    by_cases htemplate : containerPath.getLast?.getD "" ∈ templateKeys ∧ references s ≠ []
    · have htest : (templateKeys.contains (containerPath.getLast?.getD "") &&
          !(references s).isEmpty) = true := by simpa using htemplate
      simp only [htest, if_true, if_pos htemplate]
      rw [Except.bind_eq_ok]
      simp [pure, Except.pure]
    · have htest : ¬(templateKeys.contains (containerPath.getLast?.getD "") &&
          !(references s).isEmpty) = true := by simpa using htemplate
      simp only [if_neg htest, if_neg htemplate, Except.ok.injEq, Value.str.injEq, true_and]
      simp

/-- A text comes out of the resolution as it is exactly if it stays. -/
theorem resolveParsed_text_iff [LawfulJson] (r : Resolution) (containerPath : List String) (n : ℕ)
    (s : String) (hs : s.length < n + 1) :
    resolveParsed r (n + 1) containerPath (.str s) = .ok (.str s) ↔
      TextStays r containerPath s := by
  unfold TextStays
  by_cases hpath : containerPath.getLast? = some "input_json"
  · have hplain : ¬(containerPath.getLast?.getD "" ∈ templateKeys) := by
      rw [hpath]
      decide
    rw [if_pos hpath, resolveParsed_jsonText r containerPath hpath s (n + 1) s hs]
    constructor
    · rintro ⟨t, ht, hnone, h⟩
      rw [resolveText_eq_ok_iff] at h
      rcases h with ⟨path, hexact, href⟩ | ⟨hexact, h⟩
      · exact .inr ⟨t, path, ht, hnone, hexact, href⟩
      · rw [if_neg fun hboth => hplain hboth.1] at h
        subst h
        exact .inl ⟨hnone, hexact⟩
    · rintro (⟨hnone, hexact⟩ | ⟨t, path, ht, hnone, hexact, href⟩)
      · have hsame : resolveText r containerPath s = .ok (.str s) := by
          rw [resolveText_eq_ok_iff, if_neg fun hboth => hplain hboth.1]
          exact .inr ⟨hexact, rfl⟩
        exact ⟨s, Relation.ReflTransGen.refl, hnone, hsame⟩
      · exact ⟨t, ht, hnone, (resolveText_eq_ok_iff r containerPath t s).2
          (.inl ⟨path, hexact, href⟩)⟩
  · have hbeq : (containerPath.getLast? == some "input_json") = false := by simp [hpath]
    have hone : resolveParsed r (n + 1) containerPath (.str s) = resolveText r containerPath s := by
      simp only [resolveParsed, resolveWith, hbeq]
    rw [if_neg hpath, hone, resolveText_eq_ok_iff]
    cases hexact : exactReference s with
    | some path => simp
    | none =>
      by_cases htemplate : containerPath.getLast?.getD "" ∈ templateKeys
      · by_cases href : references s = [] <;> simp [htemplate, href]
      · simp [htemplate]

/-! ## Documents -/

/-- The values of a dictionary are resolved each under its key. -/
theorem keys_resolveEntries (r : Resolution)
    (json : String → List String → Value → Except PyError Value) (containerPath : List String)
    {entries out : List (String × Value)}
    (h : resolveEntries r json containerPath entries = .ok out) :
    out.map Prod.fst = entries.map Prod.fst := by
  induction entries generalizing out with
  | nil =>
    simp only [resolveEntries, Except.ok.injEq] at h
    simp [← h]
  | cons e rest ih =>
    obtain ⟨key, v⟩ := e
    simp only [resolveEntries] at h
    obtain ⟨v', -, h⟩ := Except.bind_eq_ok.1 h
    obtain ⟨rest', hrest, h⟩ := Except.bind_eq_ok.1 h
    cases h
    simp [ih hrest]

mutual

/-- A document whose texts are short enough comes out of the resolution as it is exactly if all
its texts stay. -/
theorem resolveParsed_iff [LawfulJson] (r : Resolution) (n : ℕ) :
    ∀ (containerPath : List String) (v : Value), v.ReadFrom (n + 1) →
      (resolveParsed r (n + 1) containerPath v = .ok v ↔ DocumentStays r containerPath v)
  | containerPath, .str s, hv => by
    simpa only [DocumentStays] using resolveParsed_text_iff r containerPath n s hv
  | containerPath, .list items, hv => by
    have hitems := resolveItems_iff r n containerPath items hv
    simp only [resolveParsed, resolveWith, DocumentStays]
    rw [← hitems, Except.bind_eq_ok]
    simp [pure, Except.pure]
  | containerPath, .dict entries, hv => by
    obtain ⟨hkeys, hread⟩ := hv
    have hentries := resolveEntries_iff r n containerPath entries hread
    simp only [resolveParsed, resolveWith, DocumentStays]
    rw [← hentries, Except.bind_eq_ok]
    constructor
    · rintro ⟨out, hout, h⟩
      have hdistinct : (out.map Prod.fst).Nodup :=
        keys_resolveEntries r _ containerPath hout ▸ hkeys
      have hsame : Value.dict out = Value.dict entries := by
        rw [← Value.ofDict_foldl_set hdistinct]
        exact Except.ok.inj h
      cases hsame
      exact hout
    · intro h
      exact ⟨entries, h, congrArg Except.ok (Value.ofDict_foldl_set hkeys)⟩
  | _, .none, _ => by simp [resolveParsed, resolveWith, DocumentStays]
  | _, .bool _, _ => by simp [resolveParsed, resolveWith, DocumentStays]
  | _, .int _, _ => by simp [resolveParsed, resolveWith, DocumentStays]
  | _, .float _, _ => by simp [resolveParsed, resolveWith, DocumentStays]
termination_by structural _ v => v

/-- `resolveParsed_iff` of the items of a list. -/
theorem resolveItems_iff [LawfulJson] (r : Resolution) (n : ℕ) :
    ∀ (containerPath : List String) (items : List Value), Value.ItemsReadFrom (n + 1) items →
      (resolveItems r (fun _ path parsed => resolveParsed r n path parsed) containerPath items =
        .ok items ↔ ItemsStay r containerPath items)
  | _, [], _ => by simp [resolveItems, ItemsStay]
  | containerPath, v :: rest, hitems => by
    have hv := resolveParsed_iff r n containerPath v hitems.1
    have hrest := resolveItems_iff r n containerPath rest hitems.2
    simp only [resolveParsed] at hv
    simp only [resolveItems, ItemsStay]
    rw [← hv, ← hrest, Except.bind_eq_ok]
    simp [Except.bind_eq_ok, pure, Except.pure]
termination_by structural _ items => items

/-- `resolveParsed_iff` of the values of a dictionary. -/
theorem resolveEntries_iff [LawfulJson] (r : Resolution) (n : ℕ) :
    ∀ (containerPath : List String) (entries : List (String × Value)),
      Value.EntriesReadFrom (n + 1) entries →
      (resolveEntries r (fun _ path parsed => resolveParsed r n path parsed) containerPath entries =
        .ok entries ↔ EntriesStay r containerPath entries)
  | _, [], _ => by simp [resolveEntries, EntriesStay]
  | containerPath, (key, v) :: rest, hentries => by
    have hv := resolveParsed_iff r n (containerPath ++ [key]) v hentries.1
    have hrest := resolveEntries_iff r n containerPath rest hentries.2
    simp only [resolveParsed] at hv
    simp only [resolveEntries, EntriesStay]
    rw [← hv, ← hrest, Except.bind_eq_ok]
    simp [Except.bind_eq_ok, pure, Except.pure]
termination_by structural _ entries => entries

end

/-! ## The inputs of a node -/

/-- What `_resolve_inputs` makes of one entry of a mapping. -/
def resolveEntry (r : Resolution) (e : String × Value) : Except PyError Value :=
  resolveWith r (fun text path parsed => resolveParsed r text.length path parsed) [e.1] e.2

/-- With the given document under `input_json`, and the other inputs of the mapping resolved, the
input is the document. -/
def JsonSurvives (r : Resolution) (text : String) (v : Value) : Prop :=
  ∀ mapping : Dict String Value, mapping.keys.Nodup →
    mapping.get? "input_json" = some (.str text) →
    (∀ e ∈ mapping.entries, e.1 ≠ "input_json" → ∃ w, resolveEntry r e = .ok w) →
    ∃ out, resolveInputs r mapping = .ok out ∧ out.get? "input_json" = some v

/-- The inputs are resolved entry by entry. -/
theorem resolveInputs_eq_ok (r : Resolution) (mapping : Dict String Value)
    (hkeys : mapping.keys.Nodup) (f : String × Value → Value)
    (hf : ∀ e ∈ mapping.entries, resolveEntry r e = .ok (f e)) :
    resolveInputs r mapping = .ok ⟨mapping.entries.map fun e => (e.1, f e)⟩ := by
  have hmap : (mapping.entries.mapM fun e => do
      let v ← resolveEntry r e
      return (e.1, v)) = .ok (mapping.entries.map fun e => (e.1, f e)) :=
    Except.mapM_eq_map fun e he => by
      rw [hf e he]
      rfl
  have hdistinct : ((mapping.entries.map fun e => (e.1, f e)).map Prod.fst).Nodup := by
    simpa [Dict.keys, Function.comp_def] using hkeys
  have hset := Dict.entries_foldl_set Prod.fst Prod.snd _ hdistinct (∅ : Dict String Value)
    fun _ _ => by simp
  have hnil : (∅ : Dict String Value).entries = [] := rfl
  unfold resolveInputs
  rw [Except.bind_eq_ok]
  refine ⟨_, hmap, congrArg Except.ok (congrArg Dict.mk ?_)⟩
  rw [hset, hnil]
  simp

/-- A JSON input survives the resolution exactly if every text of its document stays. -/
theorem jsonSurvives_iff [LawfulJson] (r : Resolution) {text : String} {v : Value}
    (hload : PyLib.jsonLoads text = some v) :
    JsonSurvives r text v ↔ DocumentStays r ["input_json"] v := by
  obtain ⟨n, hn⟩ : ∃ n, text.length = n + 1 := by
    cases hlength : text.length with
    | zero =>
      have hempty : text = "" := by simpa using hlength
      simp [hempty, LawfulJson.loads_empty] at hload
    | succ n => exact ⟨n, rfl⟩
  have hread : v.ReadFrom (n + 1) := hn ▸ LawfulJson.readFrom hload
  have hentry : resolveEntry r ("input_json", .str text) =
      resolveParsed r (n + 1) ["input_json"] v := by
    have hbeq : ((["input_json"] : List String).getLast? == some "input_json") = true := by simp
    simp only [resolveEntry, resolveWith, hbeq, hload, hn]
  rw [← resolveParsed_iff r n ["input_json"] v hread, ← hentry]
  constructor
  · -- The mapping with this entry alone.
    intro h
    obtain ⟨out, hout, hv⟩ := h ⟨[("input_json", .str text)]⟩ (by simp [Dict.keys]) rfl (by simp)
    obtain ⟨entries, hentries, -⟩ := Except.bind_eq_ok.1 hout
    obtain ⟨_, hstep⟩ := Except.ok_of_mem_mapM hentries List.mem_cons_self
    obtain ⟨w, hw, -⟩ := Except.bind_eq_ok.1 hstep
    have hone : resolveInputs r ⟨[("input_json", .str text)]⟩ = .ok ⟨[("input_json", w)]⟩ :=
      resolveInputs_eq_ok r ⟨[("input_json", .str text)]⟩ (by simp [Dict.keys]) (fun _ => w)
        fun e he => by
          rw [List.mem_singleton.1 he]
          exact hw
    rw [hone] at hout
    cases hout
    have hvalue : some w = some v := hv
    exact hw.trans (congrArg Except.ok (Option.some.inj hvalue))
  · intro h mapping hkeys hget hothers
    have hsome : ∀ e ∈ mapping.entries, ∃ w, resolveEntry r e = .ok w := by
      intro e he
      by_cases hkey : e.1 = "input_json"
      · have htext : mapping.get? e.1 = some e.2 := Dict.get?_of_mem hkeys he
        rw [hkey, hget] at htext
        have hsame : e = ("input_json", .str text) := Prod.ext hkey (Option.some.inj htext).symm
        exact ⟨v, hsame ▸ h⟩
      · exact hothers e he hkey
    choose! f hf using hsome
    refine ⟨_, resolveInputs_eq_ok r mapping hkeys f hf, ?_⟩
    have hmem : ("input_json", Value.str text) ∈ mapping.entries := Dict.mem_of_get? hget
    have hvalue : f ("input_json", .str text) = v :=
      Except.ok.inj ((hf _ hmem).symm.trans h)
    refine Dict.get?_of_mem ?_ ?_
    · simpa [Dict.keys, Function.comp_def] using hkeys
    · exact List.mem_map.2 ⟨_, hmem, by rw [hvalue]⟩

end

/-! ## Two documents -/

/-- A library that reads three documents as Python does, among them `["1"]` and its string. -/
@[reducible] def sampleJson : PyLib :=
  { PyLib.atEpoch with
    jsonLoads := fun text =>
      if text = "[\"1\"]" then some (.list [.str "1"])
      else if text = "1" then some (.int 1)
      else if text = "\x7b\"a\": [\"1\"]\x7d" then some (.dict [("a", .list [.str "1"])])
      else none }

theorem lawfulJson_sampleJson : @LawfulJson sampleJson :=
  letI := sampleJson
  { loads_empty := by decide
    readFrom := fun {text} {v} h => by
      have h : (if text = "[\"1\"]" then some (.list [.str "1"])
        else if text = "1" then some (.int 1)
        else if text = "\x7b\"a\": [\"1\"]\x7d" then some (.dict [("a", .list [.str "1"])])
        else none) = some v := h
      split_ifs at h with hlist hnumber hobject
      · cases h
        have hshort : "1".length < "[\"1\"]".length := by decide
        simpa only [hlist, Value.ReadFrom, Value.ItemsReadFrom, and_true] using hshort
      · cases h
        simp [Value.ReadFrom]
      · cases h
        have hshort : "1".length < "\x7b\"a\": [\"1\"]\x7d".length := by decide
        simpa [hobject, Value.ReadFrom, Value.ItemsReadFrom, Value.EntriesReadFrom] using hshort }

/-- The string of an object that is not under `input_json` stays. -/
theorem jsonSurvives_iff_object :
    letI := sampleJson
    JsonSurvives { values := ∅ } "\x7b\"a\": [\"1\"]\x7d" (.dict [("a", .list [.str "1"])]) :=
  letI := sampleJson
  letI := lawfulJson_sampleJson
  have hload : PyLib.jsonLoads "\x7b\"a\": [\"1\"]\x7d" =
      some (.dict [("a", .list [.str "1"])]) := rfl
  have hexact : exactReference "1" = none := by decide
  (jsonSurvives_iff { values := ∅ } hload).2 <| by
    simp [DocumentStays, EntriesStay, ItemsStay, TextStays, hexact, templateKeys]

/-- The string of the array `["1"]` is read as the number it spells. -/
theorem not_jsonSurvives_array :
    letI := sampleJson
    ¬∀ (r : Resolution) (text : String) (v : Value), references text = [] →
      PyLib.jsonLoads text = some v → JsonSurvives r text v := by
  intro h
  have hdocument : @PyLib.jsonLoads sampleJson "[\"1\"]" = some (.list [.str "1"]) := rfl
  obtain ⟨out, hout, hvalue⟩ := h { values := ∅ } "[\"1\"]" _ (by decide) hdocument
    ⟨[("input_json", .str "[\"1\"]")]⟩ (by decide) rfl (by simp)
  have hnumber : @resolveInputs sampleJson { values := ∅ } ⟨[("input_json", .str "[\"1\"]")]⟩ =
      .ok ⟨[("input_json", .list [.int 1])]⟩ := rfl
  rw [hnumber] at hout
  cases hout
  have hlist : some (Value.list [.int 1]) = some (.list [.str "1"]) := hvalue
  simp at hlist

end Framework

end DeviceShell
