import DeviceShell.Lib.Value
import DeviceShell.Lib.Fallible

/-!
# The texts of a value

A value is a tree whose leaves may be texts. `mapTexts` puts a value in the place of each, and
`traverseTexts` does so with a function that may fail; both see where a text stands, by the keys that
lead to it (an item of a list stands where the list does). They obey the laws of substitution:
putting in twice is putting in once (`traverse_mapTexts`), and putting every text in its own place
changes nothing (`mapTexts_self`, `traverse_self`). A dictionary that is built anew has the entries
it had only if its keys are distinct, which is what `Keyed` says of all dictionaries of a value.
-/

namespace DeviceShell.Value

variable {ε : Type}

mutual

/-- The texts of a value that stands under the given keys, with the keys that lead to them. -/
def texts (path : List String) : Value → List (List String × String)
  | .str text => [(path, text)]
  | .list items => itemTexts path items
  | .dict entries => entryTexts path entries
  | _ => []
termination_by structural v => v

/-- The texts of the items of a list. -/
def itemTexts (path : List String) : List Value → List (List String × String)
  | [] => []
  | v :: rest => v.texts path ++ itemTexts path rest
termination_by structural items => items

/-- The texts of the entries of a dictionary. -/
def entryTexts (path : List String) : List (String × Value) → List (List String × String)
  | [] => []
  | (key, v) :: rest => v.texts (path ++ [key]) ++ entryTexts path rest
termination_by structural entries => entries

end

mutual

/-- A value is put in the place of every text. -/
def mapTexts (f : List String → String → Value) (path : List String) : Value → Value
  | .str text => f path text
  | .list items => .list (mapItems f path items)
  | .dict entries => .dict (mapEntries f path entries)
  | v => v
termination_by structural v => v

/-- `mapTexts` of the items of a list. -/
def mapItems (f : List String → String → Value) (path : List String) : List Value → List Value
  | [] => []
  | v :: rest => mapTexts f path v :: mapItems f path rest
termination_by structural items => items

/-- `mapTexts` of the entries of a dictionary. -/
def mapEntries (f : List String → String → Value) (path : List String) :
    List (String × Value) → List (String × Value)
  | [] => []
  | (key, v) :: rest => (key, mapTexts f (path ++ [key]) v) :: mapEntries f path rest
termination_by structural entries => entries

end

mutual

/-- A value is put in the place of every text, if there is one for each. -/
def traverseTexts (f : List String → String → Except ε Value) (path : List String) :
    Value → Except ε Value
  | .str text => f path text
  | .list items => do return .list (← traverseItems f path items)
  | .dict entries => do
    return .ofDict ((← traverseEntries f path entries).foldl (fun d e => d.set e.1 e.2) ∅)
  | v => .ok v
termination_by structural v => v

/-- `traverseTexts` of the items of a list. -/
def traverseItems (f : List String → String → Except ε Value) (path : List String) :
    List Value → Except ε (List Value)
  | [] => .ok []
  | v :: rest => do
    let v ← traverseTexts f path v
    return v :: (← traverseItems f path rest)
termination_by structural items => items

/-- `traverseTexts` of the entries of a dictionary. -/
def traverseEntries (f : List String → String → Except ε Value) (path : List String) :
    List (String × Value) → Except ε (List (String × Value))
  | [] => .ok []
  | (key, v) :: rest => do
    let v ← traverseTexts f (path ++ [key]) v
    return (key, v) :: (← traverseEntries f path rest)
termination_by structural entries => entries

end

mutual

/-- The keys of every dictionary are distinct. -/
def Keyed : Value → Prop
  | .list items => ItemsKeyed items
  | .dict entries => (entries.map Prod.fst).Nodup ∧ EntriesKeyed entries
  | _ => True
termination_by structural v => v

/-- `Keyed` of every item. -/
def ItemsKeyed : List Value → Prop
  | [] => True
  | v :: rest => v.Keyed ∧ ItemsKeyed rest
termination_by structural items => items

/-- `Keyed` of the value of every entry. -/
def EntriesKeyed : List (String × Value) → Prop
  | [] => True
  | (_, v) :: rest => v.Keyed ∧ EntriesKeyed rest
termination_by structural entries => entries

end

theorem itemsKeyed_iff {items : List Value} : ItemsKeyed items ↔ ∀ v ∈ items, v.Keyed := by
  induction items with
  | nil => simp [ItemsKeyed]
  | cons v rest ih => simp [ItemsKeyed, ih]

theorem entriesKeyed_iff {entries : List (String × Value)} :
    EntriesKeyed entries ↔ ∀ e ∈ entries, e.2.Keyed := by
  induction entries with
  | nil => simp [EntriesKeyed]
  | cons e rest ih => simp [EntriesKeyed, ih]

/-- A dictionary built from entries with distinct keys has just these. -/
theorem ofDict_foldl_set {entries : List (String × Value)}
    (hkeys : (entries.map Prod.fst).Nodup) :
    ofDict (entries.foldl (fun d e => d.set e.1 e.2) ∅) = .dict entries := by
  have hset := Dict.entries_foldl_set Prod.fst Prod.snd entries hkeys (∅ : Dict String Value)
    fun _ _ => by simp
  have hnil : (∅ : Dict String Value).entries = [] := rfl
  unfold ofDict
  rw [hset, hnil]
  simp

/-- The values of a dictionary are put each under its key. -/
theorem keys_traverseEntries {f : List String → String → Except ε Value} {path : List String}
    {entries out : List (String × Value)} (h : traverseEntries f path entries = .ok out) :
    out.map Prod.fst = entries.map Prod.fst := by
  induction entries generalizing out with
  | nil =>
    simp only [traverseEntries, Except.ok.injEq] at h
    simp [← h]
  | cons e rest ih =>
    obtain ⟨key, v⟩ := e
    simp only [traverseEntries] at h
    obtain ⟨v', -, h⟩ := Except.bind_eq_ok.1 h
    obtain ⟨rest', hrest, h⟩ := Except.bind_eq_ok.1 h
    cases h
    simp [ih hrest]

/-- What a dictionary with distinct keys becomes. -/
theorem traverse_dict_eq_ok {f : List String → String → Except ε Value} {path : List String}
    {entries : List (String × Value)} (hkeys : (entries.map Prod.fst).Nodup) {w : Value} :
    traverseTexts f path (.dict entries) = .ok w ↔
      ∃ out, traverseEntries f path entries = .ok out ∧ w = .dict out := by
  simp only [traverseTexts]
  rw [Except.bind_eq_ok]
  constructor
  · rintro ⟨out, hout, h⟩
    have hdistinct : (out.map Prod.fst).Nodup := keys_traverseEntries hout ▸ hkeys
    refine ⟨out, hout, ?_⟩
    rw [← ofDict_foldl_set hdistinct]
    exact (Except.ok.inj h).symm
  · rintro ⟨out, hout, rfl⟩
    have hdistinct : (out.map Prod.fst).Nodup := keys_traverseEntries hout ▸ hkeys
    exact ⟨out, hout, congrArg Except.ok (ofDict_foldl_set hdistinct)⟩

/-! ## Texts that are treated alike -/

mutual

/-- Only what becomes of the texts of a value matters. -/
theorem traverse_congr {f g : List String → String → Except ε Value} :
    ∀ (path : List String) (v : Value), (∀ e ∈ v.texts path, f e.1 e.2 = g e.1 e.2) →
      traverseTexts f path v = traverseTexts g path v
  | path, .str text, h => by
    have htext := h (path, text) (by simp [texts])
    simpa only [traverseTexts] using htext
  | path, .list items, h => by
    have hitems := traverseItems_congr path items (by simpa only [texts] using h)
    simp only [traverseTexts, hitems]
  | path, .dict entries, h => by
    have hentries := traverseEntries_congr path entries (by simpa only [texts] using h)
    simp only [traverseTexts, hentries]
  | _, .none, _ => rfl
  | _, .bool _, _ => rfl
  | _, .int _, _ => rfl
  | _, .float _, _ => rfl
termination_by structural _ v => v

/-- `traverse_congr` for the items of a list. -/
theorem traverseItems_congr {f g : List String → String → Except ε Value} :
    ∀ (path : List String) (items : List Value),
      (∀ e ∈ itemTexts path items, f e.1 e.2 = g e.1 e.2) →
      traverseItems f path items = traverseItems g path items
  | _, [], _ => rfl
  | path, v :: rest, h => by
    simp only [itemTexts, List.mem_append] at h
    have hv := traverse_congr path v fun e he => h e (.inl he)
    have hrest := traverseItems_congr path rest fun e he => h e (.inr he)
    simp only [traverseItems, hv, hrest]
termination_by structural _ items => items

/-- `traverse_congr` for the entries of a dictionary. -/
theorem traverseEntries_congr {f g : List String → String → Except ε Value} :
    ∀ (path : List String) (entries : List (String × Value)),
      (∀ e ∈ entryTexts path entries, f e.1 e.2 = g e.1 e.2) →
      traverseEntries f path entries = traverseEntries g path entries
  | _, [], _ => rfl
  | path, (key, v) :: rest, h => by
    simp only [entryTexts, List.mem_append] at h
    have hv := traverse_congr (path ++ [key]) v fun e he => h e (.inl he)
    have hrest := traverseEntries_congr path rest fun e he => h e (.inr he)
    simp only [traverseEntries, hv, hrest]
termination_by structural _ entries => entries

end

mutual

/-- Only what becomes of the texts of a value matters. -/
theorem mapTexts_congr {f g : List String → String → Value} :
    ∀ (path : List String) (v : Value), (∀ e ∈ v.texts path, f e.1 e.2 = g e.1 e.2) →
      mapTexts f path v = mapTexts g path v
  | path, .str text, h => by
    have htext := h (path, text) (by simp [texts])
    simpa only [mapTexts] using htext
  | path, .list items, h => by
    have hitems := mapItems_congr path items (by simpa only [texts] using h)
    simp only [mapTexts, hitems]
  | path, .dict entries, h => by
    have hentries := mapEntries_congr path entries (by simpa only [texts] using h)
    simp only [mapTexts, hentries]
  | _, .none, _ => rfl
  | _, .bool _, _ => rfl
  | _, .int _, _ => rfl
  | _, .float _, _ => rfl
termination_by structural _ v => v

/-- `mapTexts_congr` for the items of a list. -/
theorem mapItems_congr {f g : List String → String → Value} :
    ∀ (path : List String) (items : List Value),
      (∀ e ∈ itemTexts path items, f e.1 e.2 = g e.1 e.2) →
      mapItems f path items = mapItems g path items
  | _, [], _ => rfl
  | path, v :: rest, h => by
    simp only [itemTexts, List.mem_append] at h
    have hv := mapTexts_congr path v fun e he => h e (.inl he)
    have hrest := mapItems_congr path rest fun e he => h e (.inr he)
    simp only [mapItems, hv, hrest]
termination_by structural _ items => items

/-- `mapTexts_congr` for the entries of a dictionary. -/
theorem mapEntries_congr {f g : List String → String → Value} :
    ∀ (path : List String) (entries : List (String × Value)),
      (∀ e ∈ entryTexts path entries, f e.1 e.2 = g e.1 e.2) →
      mapEntries f path entries = mapEntries g path entries
  | _, [], _ => rfl
  | path, (key, v) :: rest, h => by
    simp only [entryTexts, List.mem_append] at h
    have hv := mapTexts_congr (path ++ [key]) v fun e he => h e (.inl he)
    have hrest := mapEntries_congr path rest fun e he => h e (.inr he)
    simp only [mapEntries, hv, hrest]
termination_by structural _ entries => entries

end

mutual

/-- A value may stand under other keys, if its texts become the same there. -/
theorem traverse_move {f g : List String → String → Except ε Value} :
    ∀ (path other : List String) (v : Value),
      (∀ more text, f (path ++ more) text = g (other ++ more) text) →
      traverseTexts f path v = traverseTexts g other v
  | path, other, .str text, h => by
    have htext := h [] text
    rw [List.append_nil, List.append_nil] at htext
    simpa only [traverseTexts] using htext
  | path, other, .list items, h => by
    have hitems := traverseItems_move path other items h
    simp only [traverseTexts, hitems]
  | path, other, .dict entries, h => by
    have hentries := traverseEntries_move path other entries fun key more text => by
      simpa using h (key :: more) text
    simp only [traverseTexts, hentries]
  | _, _, .none, _ => rfl
  | _, _, .bool _, _ => rfl
  | _, _, .int _, _ => rfl
  | _, _, .float _, _ => rfl
termination_by structural _ _ v => v

/-- `traverse_move` for the items of a list. -/
theorem traverseItems_move {f g : List String → String → Except ε Value} :
    ∀ (path other : List String) (items : List Value),
      (∀ more text, f (path ++ more) text = g (other ++ more) text) →
      traverseItems f path items = traverseItems g other items
  | _, _, [], _ => rfl
  | path, other, v :: rest, h => by
    have hv := traverse_move path other v h
    have hrest := traverseItems_move path other rest h
    simp only [traverseItems, hv, hrest]
termination_by structural _ _ items => items

/-- `traverse_move` for the entries of a dictionary: their texts stand under a further key. -/
theorem traverseEntries_move {f g : List String → String → Except ε Value} :
    ∀ (path other : List String) (entries : List (String × Value)),
      (∀ key more text, f (path ++ key :: more) text = g (other ++ key :: more) text) →
      traverseEntries f path entries = traverseEntries g other entries
  | _, _, [], _ => rfl
  | path, other, (key, v) :: rest, h => by
    have hv := traverse_move (path ++ [key]) (other ++ [key]) v fun more text => by
      simpa using h key more text
    have hrest := traverseEntries_move path other rest h
    simp only [traverseEntries, hv, hrest]
termination_by structural _ _ entries => entries

end

mutual

/-- A value may stand under other keys, if its texts become the same there. -/
theorem mapTexts_move {f g : List String → String → Value} :
    ∀ (path other : List String) (v : Value),
      (∀ more text, f (path ++ more) text = g (other ++ more) text) →
      mapTexts f path v = mapTexts g other v
  | path, other, .str text, h => by
    have htext := h [] text
    rw [List.append_nil, List.append_nil] at htext
    simpa only [mapTexts] using htext
  | path, other, .list items, h => by
    have hitems := mapItems_move path other items h
    simp only [mapTexts, hitems]
  | path, other, .dict entries, h => by
    have hentries := mapEntries_move path other entries fun key more text => by
      simpa using h (key :: more) text
    simp only [mapTexts, hentries]
  | _, _, .none, _ => rfl
  | _, _, .bool _, _ => rfl
  | _, _, .int _, _ => rfl
  | _, _, .float _, _ => rfl
termination_by structural _ _ v => v

/-- `mapTexts_move` for the items of a list. -/
theorem mapItems_move {f g : List String → String → Value} :
    ∀ (path other : List String) (items : List Value),
      (∀ more text, f (path ++ more) text = g (other ++ more) text) →
      mapItems f path items = mapItems g other items
  | _, _, [], _ => rfl
  | path, other, v :: rest, h => by
    have hv := mapTexts_move path other v h
    have hrest := mapItems_move path other rest h
    simp only [mapItems, hv, hrest]
termination_by structural _ _ items => items

/-- `mapTexts_move` for the entries of a dictionary. -/
theorem mapEntries_move {f g : List String → String → Value} :
    ∀ (path other : List String) (entries : List (String × Value)),
      (∀ key more text, f (path ++ key :: more) text = g (other ++ key :: more) text) →
      mapEntries f path entries = mapEntries g other entries
  | _, _, [], _ => rfl
  | path, other, (key, v) :: rest, h => by
    have hv := mapTexts_move (path ++ [key]) (other ++ [key]) v fun more text => by
      simpa using h key more text
    have hrest := mapEntries_move path other rest h
    simp only [mapEntries, hv, hrest]
termination_by structural _ _ entries => entries

end

/-! ## Putting in twice -/

mutual

/-- What is put in may hold texts for which something is put in. -/
theorem traverse_mapTexts (g : List String → String → Except ε Value)
    (f : List String → String → Value) : ∀ (path : List String) (v : Value),
      traverseTexts g path (mapTexts f path v) =
        traverseTexts (fun p text => traverseTexts g p (f p text)) path v
  | path, .str text => by simp only [mapTexts, traverseTexts]
  | path, .list items => by
    simp only [mapTexts, traverseTexts, traverseItems_mapItems g f path items]
  | path, .dict entries => by
    simp only [mapTexts, traverseTexts, traverseEntries_mapEntries g f path entries]
  | _, .none => rfl
  | _, .bool _ => rfl
  | _, .int _ => rfl
  | _, .float _ => rfl
termination_by structural _ v => v

/-- `traverse_mapTexts` for the items of a list. -/
theorem traverseItems_mapItems (g : List String → String → Except ε Value)
    (f : List String → String → Value) : ∀ (path : List String) (items : List Value),
      traverseItems g path (mapItems f path items) =
        traverseItems (fun p text => traverseTexts g p (f p text)) path items
  | _, [] => rfl
  | path, v :: rest => by
    simp only [mapItems, traverseItems, traverse_mapTexts g f path v,
      traverseItems_mapItems g f path rest]
termination_by structural _ items => items

/-- `traverse_mapTexts` for the entries of a dictionary. -/
theorem traverseEntries_mapEntries (g : List String → String → Except ε Value)
    (f : List String → String → Value) : ∀ (path : List String) (entries : List (String × Value)),
      traverseEntries g path (mapEntries f path entries) =
        traverseEntries (fun p text => traverseTexts g p (f p text)) path entries
  | _, [] => rfl
  | path, (key, v) :: rest => by
    simp only [mapEntries, traverseEntries, traverse_mapTexts g f (path ++ [key]) v,
      traverseEntries_mapEntries g f path rest]
termination_by structural _ entries => entries

end

mutual

/-- The texts of what was put in. -/
theorem texts_mapTexts (f : List String → String → Value) : ∀ (path : List String) (v : Value),
    (mapTexts f path v).texts path = (v.texts path).flatMap fun e => (f e.1 e.2).texts e.1
  | path, .str text => by simp only [mapTexts, texts, List.flatMap_cons, List.flatMap_nil,
      List.append_nil]
  | path, .list items => by
    have hitems := itemTexts_mapItems f path items
    simp only [mapTexts, texts, hitems]
  | path, .dict entries => by
    have hentries := entryTexts_mapEntries f path entries
    simp only [mapTexts, texts, hentries]
  | _, .none => rfl
  | _, .bool _ => rfl
  | _, .int _ => rfl
  | _, .float _ => rfl
termination_by structural _ v => v

/-- `texts_mapTexts` for the items of a list. -/
theorem itemTexts_mapItems (f : List String → String → Value) :
    ∀ (path : List String) (items : List Value),
      itemTexts path (mapItems f path items) =
        (itemTexts path items).flatMap fun e => (f e.1 e.2).texts e.1
  | _, [] => rfl
  | path, v :: rest => by
    have hv := texts_mapTexts f path v
    have hrest := itemTexts_mapItems f path rest
    simp only [mapItems, itemTexts, List.flatMap_append, hv, hrest]
termination_by structural _ items => items

/-- `texts_mapTexts` for the entries of a dictionary. -/
theorem entryTexts_mapEntries (f : List String → String → Value) :
    ∀ (path : List String) (entries : List (String × Value)),
      entryTexts path (mapEntries f path entries) =
        (entryTexts path entries).flatMap fun e => (f e.1 e.2).texts e.1
  | _, [] => rfl
  | path, (key, v) :: rest => by
    have hv := texts_mapTexts f (path ++ [key]) v
    have hrest := entryTexts_mapEntries f path rest
    simp only [mapEntries, entryTexts, List.flatMap_append, hv, hrest]
termination_by structural _ entries => entries

end

theorem keys_mapEntries (f : List String → String → Value) (path : List String)
    (entries : List (String × Value)) :
    (mapEntries f path entries).map Prod.fst = entries.map Prod.fst := by
  induction entries with
  | nil => rfl
  | cons e rest ih => simp [mapEntries, ih]

mutual

/-- A value stays keyed when keyed values are put in. -/
theorem Keyed.mapTexts {f : List String → String → Value} : ∀ (path : List String) (v : Value),
    v.Keyed → (∀ e ∈ v.texts path, (f e.1 e.2).Keyed) → (v.mapTexts f path).Keyed
  | path, .str text, _, h => by
    have htext := h (path, text) (by simp [texts])
    simpa only [Value.mapTexts] using htext
  | path, .list items, hv, h => by
    have hitems := ItemsKeyed.mapItems path items hv (by simpa only [texts] using h)
    simpa only [Value.mapTexts, Keyed] using hitems
  | path, .dict entries, hv, h => by
    have hentries := EntriesKeyed.mapEntries path entries hv.2 (by simpa only [texts] using h)
    have hkeys : ((mapEntries f path entries).map Prod.fst).Nodup :=
      keys_mapEntries f path entries ▸ hv.1
    simpa only [Value.mapTexts, Keyed] using ⟨hkeys, hentries⟩
  | _, .none, _, _ => trivial
  | _, .bool _, _, _ => trivial
  | _, .int _, _, _ => trivial
  | _, .float _, _, _ => trivial
termination_by structural _ v => v

/-- `Keyed.mapTexts` for the items of a list. -/
theorem ItemsKeyed.mapItems {f : List String → String → Value} :
    ∀ (path : List String) (items : List Value), ItemsKeyed items →
      (∀ e ∈ itemTexts path items, (f e.1 e.2).Keyed) → ItemsKeyed (Value.mapItems f path items)
  | _, [], _, _ => trivial
  | path, v :: rest, hitems, h => by
    simp only [itemTexts, List.mem_append] at h
    have hv := Keyed.mapTexts path v hitems.1 fun e he => h e (.inl he)
    have hrest := ItemsKeyed.mapItems path rest hitems.2 fun e he => h e (.inr he)
    simpa only [Value.mapItems, ItemsKeyed] using ⟨hv, hrest⟩
termination_by structural _ items => items

/-- `Keyed.mapTexts` for the entries of a dictionary. -/
theorem EntriesKeyed.mapEntries {f : List String → String → Value} :
    ∀ (path : List String) (entries : List (String × Value)), EntriesKeyed entries →
      (∀ e ∈ entryTexts path entries, (f e.1 e.2).Keyed) →
      EntriesKeyed (Value.mapEntries f path entries)
  | _, [], _, _ => trivial
  | path, (key, v) :: rest, hentries, h => by
    simp only [entryTexts, List.mem_append] at h
    have hv := Keyed.mapTexts (path ++ [key]) v hentries.1 fun e he => h e (.inl he)
    have hrest := EntriesKeyed.mapEntries path rest hentries.2 fun e he => h e (.inr he)
    simpa only [Value.mapEntries, EntriesKeyed] using ⟨hv, hrest⟩
termination_by structural _ entries => entries

end

/-! ## Putting in what is there -/

mutual

/-- Every text in its own place. -/
theorem mapTexts_self : ∀ (path : List String) (v : Value),
    mapTexts (fun _ text => .str text) path v = v
  | _, .str _ => rfl
  | path, .list items => by simp only [mapTexts, mapItems_self path items]
  | path, .dict entries => by simp only [mapTexts, mapEntries_self path entries]
  | _, .none => rfl
  | _, .bool _ => rfl
  | _, .int _ => rfl
  | _, .float _ => rfl
termination_by structural _ v => v

/-- `mapTexts_self` for the items of a list. -/
theorem mapItems_self : ∀ (path : List String) (items : List Value),
    mapItems (fun _ text => .str text) path items = items
  | _, [] => rfl
  | path, v :: rest => by simp only [mapItems, mapTexts_self path v, mapItems_self path rest]
termination_by structural _ items => items

/-- `mapTexts_self` for the entries of a dictionary. -/
theorem mapEntries_self : ∀ (path : List String) (entries : List (String × Value)),
    mapEntries (fun _ text => .str text) path entries = entries
  | _, [] => rfl
  | path, (key, v) :: rest => by
    simp only [mapEntries, mapTexts_self (path ++ [key]) v, mapEntries_self path rest]
termination_by structural _ entries => entries

end

mutual

/-- A function that never fails. -/
theorem traverse_ok (f : List String → String → Value) : ∀ (path : List String) (v : Value),
    v.Keyed → traverseTexts (fun p text => (.ok (f p text) : Except ε Value)) path v =
      .ok (mapTexts f path v)
  | _, .str _, _ => rfl
  | path, .list items, hv => by
    simp only [traverseTexts, mapTexts, traverseItems_ok f path items hv, bind, Except.bind, pure,
      Except.pure]
  | path, .dict entries, hv => by
    exact (traverse_dict_eq_ok hv.1).2 ⟨_, traverseEntries_ok f path entries hv.2, rfl⟩
  | _, .none, _ => rfl
  | _, .bool _, _ => rfl
  | _, .int _, _ => rfl
  | _, .float _, _ => rfl
termination_by structural _ v => v

/-- `traverse_ok` for the items of a list. -/
theorem traverseItems_ok (f : List String → String → Value) :
    ∀ (path : List String) (items : List Value), ItemsKeyed items →
      traverseItems (fun p text => (.ok (f p text) : Except ε Value)) path items =
        .ok (mapItems f path items)
  | _, [], _ => rfl
  | path, v :: rest, hitems => by
    simp only [traverseItems, mapItems, traverse_ok f path v hitems.1,
      traverseItems_ok f path rest hitems.2, bind, Except.bind, pure, Except.pure]
termination_by structural _ items => items

/-- `traverse_ok` for the entries of a dictionary. -/
theorem traverseEntries_ok (f : List String → String → Value) :
    ∀ (path : List String) (entries : List (String × Value)), EntriesKeyed entries →
      traverseEntries (fun p text => (.ok (f p text) : Except ε Value)) path entries =
        .ok (mapEntries f path entries)
  | _, [], _ => rfl
  | path, (key, v) :: rest, hentries => by
    simp only [traverseEntries, mapEntries, traverse_ok f (path ++ [key]) v hentries.1,
      traverseEntries_ok f path rest hentries.2, bind, Except.bind, pure, Except.pure]
termination_by structural _ entries => entries

end

mutual

/-- When something was put in for every text, the function returned for each. -/
theorem ok_of_traverse {f : List String → String → Except ε Value} :
    ∀ (path : List String) (v w : Value), traverseTexts f path v = .ok w →
      ∀ e ∈ v.texts path, ∃ u, f e.1 e.2 = .ok u
  | path, .str text, w, h, e, he => by
    obtain rfl : e = (path, text) := by simpa only [texts, List.mem_singleton] using he
    exact ⟨w, h⟩
  | path, .list items, w, h, e, he => by
    simp only [traverseTexts] at h
    obtain ⟨out, hout, -⟩ := Except.bind_eq_ok.1 h
    exact ok_of_traverseItems path items out hout e he
  | path, .dict entries, w, h, e, he => by
    simp only [traverseTexts] at h
    obtain ⟨out, hout, -⟩ := Except.bind_eq_ok.1 h
    exact ok_of_traverseEntries path entries out hout e he
  | _, .none, _, _, _, he => by cases he
  | _, .bool _, _, _, _, he => by cases he
  | _, .int _, _, _, _, he => by cases he
  | _, .float _, _, _, _, he => by cases he
termination_by structural _ v => v

/-- `ok_of_traverse` for the items of a list. -/
theorem ok_of_traverseItems {f : List String → String → Except ε Value} :
    ∀ (path : List String) (items out : List Value), traverseItems f path items = .ok out →
      ∀ e ∈ itemTexts path items, ∃ u, f e.1 e.2 = .ok u
  | _, [], _, _, _, he => by cases he
  | path, v :: rest, out, h, e, he => by
    simp only [traverseItems] at h
    obtain ⟨v', hv, h⟩ := Except.bind_eq_ok.1 h
    obtain ⟨rest', hrest, -⟩ := Except.bind_eq_ok.1 h
    simp only [itemTexts, List.mem_append] at he
    rcases he with he | he
    · exact ok_of_traverse path v v' hv e he
    · exact ok_of_traverseItems path rest rest' hrest e he
termination_by structural _ items => items

/-- `ok_of_traverse` for the entries of a dictionary. -/
theorem ok_of_traverseEntries {f : List String → String → Except ε Value} :
    ∀ (path : List String) (entries out : List (String × Value)),
      traverseEntries f path entries = .ok out →
      ∀ e ∈ entryTexts path entries, ∃ u, f e.1 e.2 = .ok u
  | _, [], _, _, _, he => by cases he
  | path, (key, v) :: rest, out, h, e, he => by
    simp only [traverseEntries] at h
    obtain ⟨v', hv, h⟩ := Except.bind_eq_ok.1 h
    obtain ⟨rest', hrest, -⟩ := Except.bind_eq_ok.1 h
    simp only [entryTexts, List.mem_append] at he
    rcases he with he | he
    · exact ok_of_traverse (path ++ [key]) v v' hv e he
    · exact ok_of_traverseEntries path rest rest' hrest e he
termination_by structural _ entries => entries

end

/-- The value that is put in, where there is one. -/
def put (f : List String → String → Except ε Value) (path : List String) (text : String) : Value :=
  match f path text with
  | .ok v => v
  | .error _ => .none

theorem put_of_ok {f : List String → String → Except ε Value} {path : List String} {text : String}
    {v : Value} (h : f path text = .ok v) : put f path text = v := by
  unfold put
  rw [h]

/-- A traversal that returns puts in what its function returns. -/
theorem traverse_eq_mapTexts {f : List String → String → Except ε Value} {path : List String}
    {v w : Value} (hv : v.Keyed) (h : traverseTexts f path v = .ok w) : w = mapTexts (put f) path v := by
  have hsame : traverseTexts f path v = traverseTexts (fun p text => .ok (put f p text)) path v :=
    traverse_congr path v fun e he => by
      obtain ⟨u, hu⟩ := ok_of_traverse path v w h e he
      rw [put_of_ok hu, hu]
  rw [hsame, traverse_ok _ path v hv] at h
  exact (Except.ok.inj h).symm

/-- A value of which every text is put in its own place. -/
theorem traverse_self {f : List String → String → Except ε Value} {path : List String} {v : Value}
    (hv : v.Keyed) (h : ∀ e ∈ v.texts path, f e.1 e.2 = .ok (.str e.2)) :
    traverseTexts f path v = .ok v := by
  have hsame : traverseTexts f path v = traverseTexts (fun _ text => .ok (.str text)) path v :=
    traverse_congr path v h
  rw [hsame, traverse_ok (fun _ text => .str text) path v hv, mapTexts_self]

end DeviceShell.Value
