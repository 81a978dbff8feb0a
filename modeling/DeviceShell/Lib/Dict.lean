import Mathlib.Data.List.Basic
import Mathlib.Logic.Function.Basic

/-!
# Dictionaries that remember insertion order

A dictionary as Python has it: iteration follows the order in which the keys were first inserted,
and an assignment to a present key keeps that key's place. Every operation is described by what
`get?` reads afterwards (`get?_set`, `get?_erase`, `get?_merge_of_not_mem`), so that a user of the
library never unfolds the list of entries.
-/

namespace DeviceShell

/-- A dictionary, as the list of its entries in insertion order. -/
structure Dict (κ α : Type) where
  /-- The entries, oldest key first. -/
  entries : List (κ × α)
deriving DecidableEq, Repr

namespace Dict

variable {κ α β : Type} [DecidableEq κ]

/-- The dictionary without entries. -/
def empty : Dict κ α := ⟨[]⟩

instance : EmptyCollection (Dict κ α) := ⟨empty⟩

instance : Inhabited (Dict κ α) := ⟨empty⟩

/-- The value of the first entry at a key. -/
def lookup (k : κ) : List (κ × α) → Option α
  | [] => none
  | (k', v) :: rest => if k' = k then some v else lookup k rest

/-- `d.get(k)`. -/
def get? (d : Dict κ α) (k : κ) : Option α := lookup k d.entries

/-- Assignment on the list of entries: in place for a present key, at the end for a new one. -/
def insert (k : κ) (v : α) : List (κ × α) → List (κ × α)
  | [] => [(k, v)]
  | (k', v') :: rest => if k' = k then (k, v) :: rest else (k', v') :: insert k v rest

/-- `d[k] = v`. -/
def set (d : Dict κ α) (k : κ) (v : α) : Dict κ α := ⟨insert k v d.entries⟩

/-- The dictionary of the entries whose key satisfies `p`. -/
def filterKeys (d : Dict κ α) (p : κ → Bool) : Dict κ α := ⟨d.entries.filter fun e => p e.1⟩

/-- `d.pop(k, None)`. -/
def erase (d : Dict κ α) (k : κ) : Dict κ α := d.filterKeys (· ≠ k)

/-- `{**d, **e}`. -/
def merge (d e : Dict κ α) : Dict κ α := e.entries.foldl (fun acc p => acc.set p.1 p.2) d

/-- `list(d)`: the keys in insertion order. -/
def keys (d : Dict κ α) : List κ := d.entries.map Prod.fst

/-- `list(d.values())`. -/
def values (d : Dict κ α) : List α := d.entries.map Prod.snd

/-- `k in d`. -/
def contains (d : Dict κ α) (k : κ) : Bool := (d.get? k).isSome

/-- `d.setdefault(k, v)`. -/
def setDefault (d : Dict κ α) (k : κ) (v : α) : Dict κ α := if d.contains k then d else d.set k v

/-- The dictionary of the same keys with every value mapped. -/
def mapValues (d : Dict κ α) (f : α → β) : Dict κ β := ⟨d.entries.map fun e => (e.1, f e.2)⟩

@[simp] theorem get?_empty (k : κ) : (∅ : Dict κ α).get? k = none := rfl

omit [DecidableEq κ] in
@[simp] theorem keys_empty : (∅ : Dict κ α).keys = [] := rfl

@[simp] theorem lookup_insert_self (k : κ) (v : α) (l : List (κ × α)) :
    lookup k (insert k v l) = some v := by
  induction l with
  | nil => simp [insert, lookup]
  | cons e rest ih =>
    obtain ⟨k', v'⟩ := e
    by_cases h : k' = k <;> simp [insert, lookup, h, ih]

theorem lookup_insert_of_ne {k k' : κ} (h : k' ≠ k) (v : α) (l : List (κ × α)) :
    lookup k' (insert k v l) = lookup k' l := by
  induction l with
  | nil => simp [insert, lookup, h.symm]
  | cons e rest ih =>
    obtain ⟨k'', v''⟩ := e
    by_cases hk : k'' = k
    · subst hk
      simp [insert, lookup, h.symm]
    · simp only [insert, hk, if_false, lookup, ih]

/-- An assignment changes exactly the value at its key. -/
theorem get?_set (d : Dict κ α) (k k' : κ) (v : α) :
    (d.set k v).get? k' = if k' = k then some v else d.get? k' := by
  by_cases h : k' = k
  · subst h
    simp [set, get?]
  · simp only [set, get?, h, if_false]
    exact lookup_insert_of_ne h v d.entries

@[simp] theorem get?_set_self (d : Dict κ α) (k : κ) (v : α) : (d.set k v).get? k = some v := by
  rw [get?_set, if_pos rfl]

theorem get?_set_of_ne (d : Dict κ α) {k k' : κ} (h : k' ≠ k) (v : α) :
    (d.set k v).get? k' = d.get? k' := by
  rw [get?_set, if_neg h]

/-- Filtering the keys keeps the values of the keys that pass. -/
theorem get?_filterKeys (d : Dict κ α) (p : κ → Bool) (k : κ) :
    (d.filterKeys p).get? k = if p k then d.get? k else none := by
  unfold filterKeys get?
  induction d.entries with
  | nil => simp [lookup]
  | cons e rest ih =>
    obtain ⟨k', v⟩ := e
    by_cases hp : p k' = true
    · by_cases hk : k' = k
      · subst hk
        simp [lookup, hp]
      · simp only [List.filter_cons, hp, if_true, lookup, hk, if_false, ih]
    · by_cases hk : k' = k
      · subst hk
        simp [ih, hp]
      · simp only [List.filter_cons, hp, lookup, hk, if_false, ih, Bool.false_eq_true]

/-- Erasing a key removes exactly its value. -/
theorem get?_erase (d : Dict κ α) (k k' : κ) :
    (d.erase k).get? k' = if k' = k then none else d.get? k' := by
  rw [erase, get?_filterKeys]
  by_cases h : k' = k <;> simp [h]

/-- Erasing a key that is not there. -/
theorem erase_of_not_mem {d : Dict κ α} {k : κ} (h : k ∉ d.keys) : d.erase k = d := by
  obtain ⟨entries⟩ := d
  have hkeep : entries.filter (fun e => decide (e.1 ≠ k)) = entries := by
    refine List.filter_eq_self.2 fun e he => ?_
    have hne : e.1 ≠ k := by
      rintro rfl
      exact h (List.mem_map_of_mem he)
    exact decide_eq_true hne
  exact congrArg Dict.mk hkeep

/-- The values after an assignment, as an update of a function. -/
theorem get?_set_eq_update (d : Dict κ α) (k : κ) (v : α) :
    (d.set k v).get? = Function.update d.get? k (some v) := by
  funext k'
  rw [get?_set, Function.update_apply]

/-- The values after a key is erased, as an update of a function. -/
theorem get?_erase_eq_update (d : Dict κ α) (k : κ) :
    (d.erase k).get? = Function.update d.get? k none := by
  funext k'
  rw [get?_erase, Function.update_apply]

/-- Of two assignments to one key the second counts. -/
theorem set_set (d : Dict κ α) (k : κ) (v v' : α) : (d.set k v).set k v' = d.set k v' := by
  have hinsert : ∀ entries : List (κ × α),
      insert k v' (insert k v entries) = insert k v' entries := by
    intro entries
    induction entries with
    | nil => simp [insert]
    | cons e rest ih =>
      obtain ⟨k'', v''⟩ := e
      by_cases hk : k'' = k <;> simp [insert, hk, ih]
  exact congrArg Dict.mk (hinsert d.entries)

/-- Assigning the value that is there changes nothing. -/
theorem set_of_get? {d : Dict κ α} {k : κ} {v : α} (h : d.get? k = some v) : d.set k v = d := by
  have hinsert : ∀ entries : List (κ × α), lookup k entries = some v →
      insert k v entries = entries := by
    intro entries
    induction entries with
    | nil => simp [lookup]
    | cons e rest ih =>
      obtain ⟨k'', v''⟩ := e
      by_cases hk : k'' = k
      · simp [insert, lookup, hk, eq_comm]
      · simpa [insert, lookup, hk] using ih
  exact congrArg Dict.mk (hinsert d.entries h)

/-- Erasing a key takes an assignment to it back, where the key was not there. -/
theorem erase_set_of_get? {d : Dict κ α} {k : κ} (h : d.get? k = none) (v : α) :
    (d.set k v).erase k = d := by
  have hfilter : ∀ entries : List (κ × α), lookup k entries = none →
      (insert k v entries).filter (fun e => decide (e.1 ≠ k)) = entries := by
    intro entries
    induction entries with
    | nil => simp [insert]
    | cons e rest ih =>
      obtain ⟨k'', v''⟩ := e
      by_cases hk : k'' = k
      · simp [lookup, hk]
      · simpa [insert, lookup, hk] using ih
  exact congrArg Dict.mk (hfilter d.entries h)

/-- Merging a dictionary that lacks a key keeps the value at that key. -/
theorem get?_merge_of_not_mem (d e : Dict κ α) {k : κ} (h : k ∉ e.keys) :
    (d.merge e).get? k = d.get? k := by
  obtain ⟨l⟩ := e
  unfold merge
  unfold keys at h
  induction l generalizing d with
  | nil => rfl
  | cons p rest ih =>
    simp only [List.map_cons, List.mem_cons, not_or] at h
    simp only [List.foldl_cons]
    rw [ih (d.set p.1 p.2) h.2, get?_set_of_ne d h.1]

/-- Merging a dictionary that has a key takes its value. -/
theorem get?_merge_of_get? (d : Dict κ α) {e : Dict κ α} (hnodup : e.keys.Nodup) {k : κ} {v : α}
    (h : e.get? k = some v) : (d.merge e).get? k = some v := by
  obtain ⟨l⟩ := e
  unfold merge
  unfold keys at hnodup
  induction l generalizing d with
  | nil => cases h
  | cons p rest ih =>
    simp only [List.map_cons, List.nodup_cons] at hnodup
    simp only [List.foldl_cons]
    by_cases hk : p.1 = k
    · subst hk
      have hfirst : p.2 = v := by simpa [get?, lookup] using h
      have hrest := get?_merge_of_not_mem (d.set p.1 p.2) (⟨rest⟩ : Dict κ α) hnodup.1
      unfold merge at hrest
      rw [hrest, get?_set_self, hfirst]
    · have hrest : (⟨rest⟩ : Dict κ α).get? k = some v := by simpa [get?, lookup, hk] using h
      exact ih (d.set p.1 p.2) hnodup.2 hrest

theorem mem_keys_iff (d : Dict κ α) (k : κ) : k ∈ d.keys ↔ ∃ v, d.get? k = some v := by
  unfold keys get?
  induction d.entries with
  | nil => simp [lookup]
  | cons e rest ih =>
    obtain ⟨k', v⟩ := e
    by_cases hk : k' = k
    · subst hk
      simp [lookup]
    · simp only [List.map_cons, List.mem_cons, lookup, hk, if_false, ← ih]
      constructor
      · rintro (h | h)
        · exact absurd h.symm hk
        · exact h
      · exact Or.inr

theorem contains_iff_mem_keys (d : Dict κ α) (k : κ) : d.contains k = true ↔ k ∈ d.keys := by
  rw [mem_keys_iff, contains, Option.isSome_iff_exists]

/-- A key that is read is among the keys. -/
theorem mem_keys_of_get? {d : Dict κ α} {k : κ} {v : α} (h : d.get? k = some v) : k ∈ d.keys :=
  (d.mem_keys_iff k).2 ⟨v, h⟩

theorem mem_values_of_get? {d : Dict κ α} {k : κ} {v : α} (h : d.get? k = some v) :
    v ∈ d.values := by
  obtain ⟨l⟩ := d
  unfold get? at h
  unfold values
  induction l with
  | nil => cases h
  | cons e rest ih =>
    obtain ⟨k', v'⟩ := e
    by_cases hk : k' = k
    · simp only [lookup, hk, if_true, Option.some.injEq] at h
      simp [h]
    · simp only [lookup, hk, if_false] at h
      exact List.mem_cons_of_mem _ (ih h)

theorem get?_eq_none_iff (d : Dict κ α) (k : κ) : d.get? k = none ↔ k ∉ d.keys := by
  rw [mem_keys_iff]
  cases d.get? k <;> simp

theorem mem_keys_set (d : Dict κ α) (k k' : κ) (v : α) :
    k' ∈ (d.set k v).keys ↔ k' = k ∨ k' ∈ d.keys := by
  rw [mem_keys_iff, get?_set, mem_keys_iff]
  by_cases h : k' = k <;> simp [h]

@[simp] theorem get?_mapValues (d : Dict κ α) (f : α → β) (k : κ) :
    (d.mapValues f).get? k = (d.get? k).map f := by
  unfold mapValues get?
  induction d.entries with
  | nil => rfl
  | cons e rest ih =>
    obtain ⟨k', v⟩ := e
    by_cases hk : k' = k <;> simp [lookup, hk, ih]

/-! ## Distinct keys -/

theorem mem_keys_insert (k : κ) (v : α) (l : List (κ × α)) (k' : κ) :
    k' ∈ (insert k v l).map Prod.fst ↔ k' = k ∨ k' ∈ l.map Prod.fst :=
  mem_keys_set ⟨l⟩ k k' v

/-- An assignment keeps the keys distinct. -/
theorem nodup_keys_set {d : Dict κ α} (h : d.keys.Nodup) (k : κ) (v : α) :
    (d.set k v).keys.Nodup := by
  obtain ⟨l⟩ := d
  unfold keys at h
  unfold set keys
  induction l with
  | nil => simp [insert]
  | cons e rest ih =>
    obtain ⟨k', v'⟩ := e
    simp only [List.map_cons, List.nodup_cons] at h
    by_cases hk : k' = k
    · subst hk
      simpa [insert] using h
    · have hne : k' ∉ (insert k v rest).map Prod.fst := by
        rw [mem_keys_insert]
        rintro (hk' | hk')
        · exact hk hk'
        · exact h.1 hk'
      simp only [insert, hk, if_false, List.map_cons, List.nodup_cons]
      exact ⟨hne, ih h.2⟩

omit [DecidableEq κ] in
/-- Filtering the keys keeps them distinct. -/
theorem nodup_keys_filterKeys {d : Dict κ α} (h : d.keys.Nodup) (p : κ → Bool) :
    (d.filterKeys p).keys.Nodup :=
  (List.Sublist.map Prod.fst List.filter_sublist).nodup h

/-- With distinct keys, an entry is what its key reads. -/
theorem get?_of_mem {d : Dict κ α} (h : d.keys.Nodup) {k : κ} {v : α} (hm : (k, v) ∈ d.entries) :
    d.get? k = some v := by
  obtain ⟨l⟩ := d
  unfold keys at h
  unfold get?
  dsimp only at hm ⊢
  induction l with
  | nil => cases hm
  | cons e rest ih =>
    obtain ⟨k', v'⟩ := e
    simp only [List.map_cons, List.nodup_cons] at h
    rcases List.mem_cons.1 hm with hm | hm
    · cases hm
      simp [lookup]
    · have hk : k' ≠ k := fun hk => h.1 (hk ▸ List.mem_map_of_mem hm)
      simp only [lookup, hk, if_false]
      exact ih h.2 hm

theorem mem_of_get? {d : Dict κ α} {k : κ} {v : α} (h : d.get? k = some v) :
    (k, v) ∈ d.entries := by
  obtain ⟨l⟩ := d
  unfold get? at h
  dsimp only at h ⊢
  induction l with
  | nil => cases h
  | cons e rest ih =>
    obtain ⟨k', v'⟩ := e
    by_cases hk : k' = k
    · simp only [lookup, hk, if_true, Option.some.injEq] at h
      simp [hk, h]
    · simp only [lookup, hk, if_false] at h
      exact List.mem_cons_of_mem _ (ih h)

theorem get?_setDefault_of_ne (d : Dict κ α) {k k' : κ} (h : k' ≠ k) (v : α) :
    (d.setDefault k v).get? k' = d.get? k' := by
  unfold setDefault
  split_ifs
  · rfl
  · exact get?_set_of_ne d h v

/-- A new key goes to the end. -/
theorem entries_set_of_not_mem {d : Dict κ α} {k : κ} (h : k ∉ d.keys) (v : α) :
    (d.set k v).entries = d.entries ++ [(k, v)] := by
  obtain ⟨entries⟩ := d
  unfold set
  induction entries with
  | nil => rfl
  | cons e rest ih =>
    have hne : e.1 ≠ k := fun heq => h (by simp [keys, heq])
    have hrest := ih fun hmem => h (by simpa [keys] using Or.inr (by simpa [keys] using hmem))
    simp only [insert, hne, if_false, List.cons_append]
    exact congrArg (e :: ·) hrest

/-- `{key(x): value(x) for x in xs}`, with distinct keys. -/
theorem entries_foldl_set (key : β → κ) (value : β → α) (xs : List β)
    (hnodup : (xs.map key).Nodup) (d : Dict κ α) (hnew : ∀ x ∈ xs, key x ∉ d.keys) :
    (xs.foldl (fun d x => d.set (key x) (value x)) d).entries =
      d.entries ++ xs.map fun x => (key x, value x) := by
  induction xs generalizing d with
  | nil => simp
  | cons x rest ih =>
    rw [List.map_cons, List.nodup_cons] at hnodup
    have hkeys : (d.set (key x) (value x)).keys = d.keys ++ [key x] := by
      unfold keys
      rw [entries_set_of_not_mem (hnew x List.mem_cons_self)]
      simp
    rw [List.foldl_cons, ih hnodup.2]
    · rw [entries_set_of_not_mem (hnew x List.mem_cons_self)]
      simp
    · intro y hy hmem
      rw [hkeys, List.mem_append, List.mem_singleton] at hmem
      rcases hmem with hmem | heq
      · exact hnew y (List.mem_cons_of_mem x hy) hmem
      · exact hnodup.1 (heq ▸ List.mem_map_of_mem hy)

end Dict

end DeviceShell
