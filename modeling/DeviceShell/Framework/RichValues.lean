import DeviceShell.Framework.TaskInputs

/-!
# Values in which references resolve

Whatever references a mapping of inputs holds, there are values in which all of them resolve.
`Rich names n` says that a value is a dictionary under all of the names, to the depth `n`; a
reference whose segments are among the names, and are at most `n`, leads somewhere in it
(`followReference_rich`). `Resolves` says of a computation on values that it returns on all values
that are rich enough for it; it holds of the resolution of every mapping (`resolves_resolveInputs`),
by recursion on the mapping.
-/

namespace DeviceShell.Framework

/-- A dictionary under the names, whose values are so too, to a depth. -/
def Rich (names : List String) : ℕ → Value → Prop
  | 0, _ => True
  | n + 1, v => ∃ entries, v = .dict entries ∧
      ∀ name ∈ names, ∃ w, Dict.lookup name entries = some w ∧ Rich names n w

/-- A rich value of a depth. -/
def richValue (names : List String) : ℕ → Value
  | 0 => .none
  | n + 1 => .dict (names.map fun name => (name, richValue names n))

theorem lookup_map_names {names : List String} {name : String} (h : name ∈ names) (v : Value) :
    Dict.lookup name (names.map fun name => (name, v)) = some v := by
  induction names with
  | nil => cases h
  | cons first rest ih =>
    rw [List.map_cons, Dict.lookup]
    by_cases heq : first = name
    · rw [if_pos heq]
    · rw [if_neg heq]
      exact ih ((List.mem_cons.mp h).resolve_left fun hfirst => heq hfirst.symm)

theorem rich_richValue (names : List String) (n : ℕ) : Rich names n (richValue names n) := by
  induction n with
  | zero => trivial
  | succ n ih => exact ⟨_, rfl, fun name hname => ⟨_, lookup_map_names hname _, ih⟩⟩

/-- What is rich is rich under fewer names and to a smaller depth. -/
theorem Rich.mono {names names' : List String} {n n' : ℕ} {v : Value} (h : Rich names' n' v)
    (hnames : names ⊆ names') (hn : n ≤ n') : Rich names n v := by
  induction n generalizing n' v with
  | zero => trivial
  | succ n ih =>
    obtain ⟨m, rfl⟩ : ∃ m, n' = m + 1 := ⟨n' - 1, by omega⟩
    obtain ⟨entries, rfl, hentries⟩ := h
    refine ⟨entries, rfl, fun name hname => ?_⟩
    obtain ⟨w, hw, hrich⟩ := hentries name (hnames hname)
    exact ⟨w, hw, ih hrich (by omega)⟩

/-- A rich dictionary stays so with a further rich value. -/
theorem Rich.set {names : List String} {n : ℕ} {d : Dict String Value}
    (h : Rich names n (.ofDict d)) {v : Value} (hv : Rich names n v) (name : String) :
    Rich names n (.ofDict (d.set name v)) := by
  cases n with
  | zero => trivial
  | succ n =>
    obtain ⟨entries, hd, hentries⟩ := h
    obtain rfl : d.entries = entries := by injection hd
    refine ⟨_, rfl, fun other hother => ?_⟩
    show ∃ w, (d.set name v).get? other = some w ∧ _
    rw [Dict.get?_set]
    by_cases heq : other = name
    · exact ⟨v, if_pos heq, hv.mono (List.Subset.refl _) (Nat.le_succ n)⟩
    · rw [if_neg heq]
      exact hentries other hother

/-- A computation returns on values that are rich enough. -/
def Resolves {α : Type} (m : Dict String Value → Except PyError α) : Prop :=
  ∃ names n, ∀ values, Rich names n (.ofDict values) → ∃ a, m values = .ok a

theorem resolves_ok {α : Type} (a : α) : Resolves fun _ => .ok a := ⟨[], 0, fun _ _ => ⟨a, rfl⟩⟩

/-- Two computations return on values that are rich enough for both. -/
theorem Resolves.both {α β : Type} {m : Dict String Value → Except PyError α}
    {m' : Dict String Value → Except PyError β} (h : Resolves m) (h' : Resolves m') :
    ∃ names n, ∀ values, Rich names n (.ofDict values) →
      (∃ a, m values = .ok a) ∧ ∃ b, m' values = .ok b := by
  obtain ⟨names, n, hm⟩ := h
  obtain ⟨names', n', hm'⟩ := h'
  refine ⟨names ++ names', max n n', fun values hrich => ⟨?_, ?_⟩⟩
  · exact hm values (hrich.mono (List.subset_append_left _ _) (le_max_left _ _))
  · exact hm' values (hrich.mono (List.subset_append_right _ _) (le_max_right _ _))

/-- One computation after another that does not depend on it. -/
theorem Resolves.seq {α β γ : Type} {m : Dict String Value → Except PyError α}
    {m' : Dict String Value → Except PyError β} (h : Resolves m) (h' : Resolves m')
    (f : α → β → γ) : Resolves fun values => do
      let a ← m values
      let b ← m' values
      return f a b := by
  obtain ⟨names, n, hboth⟩ := h.both h'
  refine ⟨names, n, fun values hrich => ?_⟩
  obtain ⟨⟨a, ha⟩, b, hb⟩ := hboth values hrich
  exact ⟨f a b, by dsimp only; rw [ha, hb]; rfl⟩

/-- A computation and what is made of its result. -/
theorem Resolves.map {α β : Type} {m : Dict String Value → Except PyError α} (h : Resolves m)
    (f : α → β) : Resolves fun values => do return f (← m values) := by
  obtain ⟨names, n, hm⟩ := h
  refine ⟨names, n, fun values hrich => ?_⟩
  obtain ⟨a, ha⟩ := hm values hrich
  exact ⟨f a, by dsimp only; rw [ha]; rfl⟩

/-- The same computation on each item of a list. -/
theorem resolves_mapM {α β : Type} {m : Dict String Value → α → Except PyError β} (items : List α)
    (h : ∀ a ∈ items, Resolves fun values => m values a) :
    Resolves fun values => items.mapM (m values) := by
  induction items with
  | nil => exact resolves_ok []
  | cons first rest ih =>
    have hrest := ih fun a ha => h a (List.mem_cons_of_mem _ ha)
    simp only [List.mapM_cons]
    exact (h first List.mem_cons_self).seq hrest fun b bs => b :: bs

section

variable [PyLib]

/-- A reference leads somewhere in a value that is rich enough. -/
theorem followReference_rich {names : List String} (expression : String) (segments : List String)
    (hsegments : segments ⊆ names) {n : ℕ} (hn : segments.length ≤ n) {v : Value}
    (h : Rich names n v) (resolved : List String) :
    ∃ w, followReference expression v resolved segments = .ok w := by
  induction segments generalizing n v resolved with
  | nil => exact ⟨v, by rw [followReference]⟩
  | cons segment rest ih =>
    obtain ⟨m, rfl⟩ : ∃ m, n = m + 1 := ⟨n - 1, by rw [List.length_cons] at hn; omega⟩
    obtain ⟨entries, rfl, hentries⟩ := h
    obtain ⟨w, hw, hrich⟩ := hentries segment (hsegments List.mem_cons_self)
    obtain ⟨hrest, hlength⟩ : rest ⊆ names ∧ rest.length ≤ m := by
      refine ⟨fun s hs => hsegments (List.mem_cons_of_mem _ hs), ?_⟩
      rw [List.length_cons] at hn
      omega
    obtain ⟨end_, hend⟩ := ih hrest hlength hrich (resolved ++ [segment])
    refine ⟨end_, ?_⟩
    rw [followReference]
    dsimp only
    rw [hw]
    exact hend

theorem resolves_reference (path : String) (containerPath : List String) :
    Resolves fun values => resolveReference { values := values } path containerPath := by
  refine ⟨segments path, (segments path).length, fun values hrich => ?_⟩
  exact followReference_rich _ _ (List.Subset.refl _) le_rfl hrich []

theorem resolves_text (containerPath : List String) (text : String) :
    Resolves fun values => resolveText { values := values } containerPath text := by
  unfold resolveText
  cases exactReference text with
  | some path => exact resolves_reference path containerPath
  | none =>
    dsimp only
    by_cases htemplate : (templateKeys.contains ((containerPath.getLast?).getD "") &&
        !(references text).isEmpty) = true
    · simp only [if_pos htemplate]
      refine Resolves.map ?_ Value.str
      unfold substitute
      refine Resolves.map (resolves_mapM _ fun part _ => ?_) String.join
      cases part with
      | inl c => exact resolves_ok _
      | inr path => exact (resolves_reference (String.ofList path) containerPath).map _
    · simp only [if_neg htemplate]
      exact resolves_ok _

mutual

/-- The resolution of a value, when that of a text that is parsed returns on rich values. -/
theorem resolves_resolveWith {json : Dict String Value → String → List String → Value →
      Except PyError Value}
    (hjson : ∀ text path v, Resolves fun values => json values text path v) :
    ∀ (containerPath : List String) (v : Value),
      Resolves fun values => resolveWith { values := values } (json values) containerPath v
  | containerPath, .dict entries => by
    simp only [resolveWith]
    exact (resolves_resolveEntries hjson containerPath entries).map _
  | containerPath, .list items => by
    simp only [resolveWith]
    exact (resolves_resolveItems hjson containerPath items).map _
  | containerPath, .str text => by
    simp only [resolveWith]
    cases containerPath.getLast? == some "input_json" with
    | false => exact resolves_text containerPath text
    | true =>
      cases PyLib.jsonLoads text with
      | none => exact resolves_text containerPath text
      | some parsed => exact hjson text containerPath parsed
  | _, .none => resolves_ok _
  | _, .bool b => resolves_ok _
  | _, .int n => resolves_ok _
  | _, .float x => resolves_ok _
termination_by structural _ v => v

theorem resolves_resolveItems {json : Dict String Value → String → List String → Value →
      Except PyError Value}
    (hjson : ∀ text path v, Resolves fun values => json values text path v) :
    ∀ (containerPath : List String) (items : List Value),
      Resolves fun values => resolveItems { values := values } (json values) containerPath items
  | _, [] => resolves_ok _
  | containerPath, v :: rest => by
    simp only [resolveItems]
    exact (resolves_resolveWith hjson containerPath v).seq
      (resolves_resolveItems hjson containerPath rest) _
termination_by structural _ items => items

theorem resolves_resolveEntries {json : Dict String Value → String → List String → Value →
      Except PyError Value}
    (hjson : ∀ text path v, Resolves fun values => json values text path v) :
    ∀ (containerPath : List String) (entries : List (String × Value)),
      Resolves fun values =>
        resolveEntries { values := values } (json values) containerPath entries
  | _, [] => resolves_ok _
  | containerPath, (key, v) :: rest => by
    simp only [resolveEntries]
    exact (resolves_resolveWith hjson (containerPath ++ [key]) v).seq
      (resolves_resolveEntries hjson containerPath rest) _
termination_by structural _ entries => entries

end

theorem resolves_resolveParsed (n : ℕ) (containerPath : List String) (v : Value) :
    Resolves fun values => resolveParsed { values := values } n containerPath v := by
  induction n generalizing containerPath v with
  | zero => exact resolves_ok v
  | succ n ih =>
    simp only [resolveParsed]
    exact resolves_resolveWith (fun _ path v => ih path v) containerPath v

/-- Every mapping resolves in values that are rich enough. -/
theorem resolves_resolveInputs (mapping : Dict String Value) :
    Resolves fun values => resolveInputs { values := values } mapping := by
  unfold resolveInputs
  refine Resolves.map (resolves_mapM _ fun e _ => ?_) _
  refine Resolves.map ?_ _
  exact resolves_resolveWith (fun text path v => resolves_resolveParsed text.length path v) _ _

end

end DeviceShell.Framework
