import Mathlib.Data.Finset.Card
import Mathlib.Data.List.Basic
import Mathlib.Data.List.Nodup

/-!
# The most recently used items

A list of items with distinct keys, the least recently used one first. Looking an item up moves it to
the end (`use`), a new one is put there (`put`), and at most a given number of items is kept. An item
stays as long as fewer keys than that number are used after it: `Holds key x S xs` says that `xs`
holds `x` and that only keys of `S` were used since, and every operation on a key of `S` keeps it
(`Holds.use`, `Holds.put`).
-/

namespace DeviceShell.RecentlyUsed

variable {κ β : Type} [DecidableEq κ] (key : β → κ)

/-- The item of a key. -/
def itemOf (k : κ) (xs : List β) : Option β := xs.find? fun x => key x = k

/-- The items of all other keys. -/
def remove (k : κ) (xs : List β) : List β := xs.filter fun x => key x ≠ k

/-- The item of a key becomes the most recently used one. -/
def use (k : κ) (xs : List β) : List β :=
  (itemOf key k xs).elim xs fun x => remove key k xs ++ [x]

/-- The last `n` items. -/
def keep (n : ℕ) (xs : List β) : List β := xs.drop (xs.length - n)

/-- A new item, and at most `n` in all. -/
def put (n : ℕ) (x : β) (xs : List β) : List β := keep n (xs ++ [x])

variable {key} {xs : List β} {k : κ} {x : β}

theorem itemOf_eq_some (hnodup : (xs.map key).Nodup) :
    itemOf key k xs = some x ↔ x ∈ xs ∧ key x = k := by
  constructor
  · intro h
    exact ⟨List.mem_of_find?_eq_some h, by simpa using List.find?_some h⟩
  · rintro ⟨hmem, rfl⟩
    have hsome : (itemOf key (key x) xs).isSome := by
      rw [itemOf, List.find?_isSome]
      exact ⟨x, hmem, by simp⟩
    obtain ⟨y, hy⟩ := Option.isSome_iff_exists.1 hsome
    have hkey : key y = key x := by simpa using List.find?_some hy
    have heq : y = x := List.inj_on_of_nodup_map hnodup (List.mem_of_find?_eq_some hy) hmem hkey
    rw [hy, heq]

theorem itemOf_eq_none : itemOf key k xs = none ↔ k ∉ xs.map key := by
  simp [itemOf, List.find?_eq_none]

theorem itemOf_remove (k' : κ) :
    itemOf key k' (remove key k xs) = if k' = k then none else itemOf key k' xs := by
  unfold itemOf remove
  rw [List.find?_filter]
  by_cases h : k' = k
  · subst h
    rw [if_pos rfl, List.find?_eq_none]
    simp
  · rw [if_neg h]
    congr 1
    funext x
    by_cases hx : key x = k' <;> simp_all

theorem itemOf_append_singleton (k' : κ) (hnew : key x ∉ xs.map key) :
    itemOf key k' (xs ++ [x]) = if k' = key x then some x else itemOf key k' xs := by
  unfold itemOf
  rw [List.find?_append]
  by_cases h : k' = key x
  · subst h
    have hnone : xs.find? (fun y => key y = key x) = none := itemOf_eq_none.2 hnew
    rw [hnone, if_pos rfl]
    simp
  · rw [if_neg h, List.find?_singleton]
    simp [Ne.symm h]

theorem map_remove (hnodup : (xs.map key).Nodup) :
    (remove key k xs).map key = (xs.map key).erase k := by
  rw [hnodup.erase_eq_filter, remove, List.filter_map]
  congr 1
  refine List.filter_congr fun x _ => ?_
  simp [bne, beq_eq_decide]

theorem mem_use (hnodup : (xs.map key).Nodup) {y : β} : y ∈ use key k xs ↔ y ∈ xs := by
  unfold use
  cases hfind : itemOf key k xs with
  | none => rfl
  | some x =>
    obtain ⟨hx, rfl⟩ := (itemOf_eq_some hnodup).1 hfind
    simp only [Option.elim, remove, List.mem_append, List.mem_filter, List.mem_singleton,
      decide_eq_true_eq]
    constructor
    · rintro (h | rfl)
      · exact h.1
      · exact hx
    · intro hy
      by_cases hk : key y = key x
      · exact .inr (List.inj_on_of_nodup_map hnodup hy hx hk)
      · exact .inl ⟨hy, hk⟩

theorem nodup_remove (hnodup : (xs.map key).Nodup) : ((remove key k xs).map key).Nodup :=
  (List.filter_sublist.map key).nodup hnodup

omit [DecidableEq κ] in
theorem nodup_append_singleton (hnodup : (xs.map key).Nodup) (hnew : key x ∉ xs.map key) :
    ((xs ++ [x]).map key).Nodup := by
  rw [List.map_append, List.map_singleton]
  exact List.nodup_append.2 ⟨hnodup, List.nodup_singleton _, fun a ha b hb hab =>
    hnew (List.mem_singleton.1 hb ▸ hab ▸ ha)⟩

theorem nodup_use (hnodup : (xs.map key).Nodup) : ((use key k xs).map key).Nodup := by
  unfold use
  cases hfind : itemOf key k xs with
  | none => exact hnodup
  | some x =>
    obtain ⟨-, rfl⟩ := (itemOf_eq_some hnodup).1 hfind
    exact nodup_append_singleton (nodup_remove hnodup) (by simp [remove])

omit [DecidableEq κ] in
theorem nodup_put {n : ℕ} (hnodup : (xs.map key).Nodup) (hnew : key x ∉ xs.map key) :
    ((put n x xs).map key).Nodup :=
  ((List.drop_sublist _ _).map key).nodup (nodup_append_singleton hnodup hnew)

theorem mem_of_mem_put {n : ℕ} {y : β} (h : y ∈ put n x xs) : y ∈ xs ∨ y = x := by
  have hmem : y ∈ xs ++ [x] := List.mem_of_mem_drop h
  simpa using hmem

theorem length_use_le (hnodup : (xs.map key).Nodup) : (use key k xs).length ≤ xs.length := by
  have hsub : use key k xs ⊆ xs := fun y hy => (mem_use hnodup).1 hy
  have hdistinct : (use key k xs).Nodup := List.Nodup.of_map key (nodup_use hnodup)
  exact (List.subperm_of_subset hdistinct hsub).length_le

theorem length_put_le (n : ℕ) (x : β) (xs : List β) : (put n x xs).length ≤ n := by
  rw [put, keep, List.length_drop]
  omega

/-! ## How long an item stays -/

/-- The list holds the item, and only keys of `S` were used after it. -/
def Holds (key : β → κ) (x : β) (S : Finset κ) (xs : List β) : Prop :=
  ∃ older newer, xs = older ++ x :: newer ∧ ∀ y ∈ newer, key y ∈ S

omit [DecidableEq κ] in
theorem Holds.mem {S : Finset κ} (h : Holds key x S xs) : x ∈ xs := by
  obtain ⟨older, newer, rfl, -⟩ := h
  simp

omit [DecidableEq κ] in
theorem Holds.filter {S : Finset κ} (h : Holds key x S xs) {p : β → Bool} (hp : p x = true) :
    Holds key x S (xs.filter p) := by
  obtain ⟨older, newer, rfl, hnewer⟩ := h
  refine ⟨older.filter p, newer.filter p, by simp [hp], fun y hy => ?_⟩
  exact hnewer y (List.mem_of_mem_filter hy)

omit [DecidableEq κ] in
/-- Another item of `S` is used. -/
theorem Holds.append {S : Finset κ} (h : Holds key x S xs) {y : β} (hy : key y ∈ S) :
    Holds key x S (xs ++ [y]) := by
  obtain ⟨older, newer, rfl, hnewer⟩ := h
  refine ⟨older, newer ++ [y], by simp, fun z hz => ?_⟩
  rcases List.mem_append.1 hz with hz | hz
  · exact hnewer z hz
  · rw [List.mem_singleton.1 hz]
    exact hy

omit [DecidableEq κ] in
/-- The item itself is used. -/
theorem holds_last (S : Finset κ) (x : β) (xs : List β) : Holds key x S (xs ++ [x]) :=
  ⟨xs, [], rfl, fun _ hy => absurd hy List.not_mem_nil⟩

theorem Holds.use {S : Finset κ} (h : Holds key x S xs) (hnodup : (xs.map key).Nodup)
    (hk : k ∈ S ∨ k = key x) : Holds key x S (use key k xs) := by
  unfold RecentlyUsed.use
  cases hfind : itemOf key k xs with
  | none => exact h
  | some y =>
    obtain ⟨hy, rfl⟩ := (itemOf_eq_some hnodup).1 hfind
    by_cases hsame : key y = key x
    · have heq : y = x := List.inj_on_of_nodup_map hnodup hy h.mem hsame
      rw [heq]
      exact holds_last S x _
    · have hother := h.filter (p := fun z => decide (key z ≠ key y)) (by simpa using Ne.symm hsame)
      exact hother.append (hk.resolve_right hsame)

/-- A new item comes after fewer than `n` keys. -/
theorem Holds.put {S : Finset κ} (h : Holds key x S xs) (hnodup : (xs.map key).Nodup) {n : ℕ}
    (hcard : S.card < n) {y : β} (hy : key y ∈ S) (hnew : key y ∉ xs.map key) :
    Holds key x S (put n y xs) := by
  obtain ⟨older, newer, hsplit, hnewer⟩ := h.append hy
  have hdistinct : ((older ++ x :: newer).map key).Nodup :=
    hsplit ▸ nodup_append_singleton hnodup hnew
  have hnodup' : (newer.map key).Nodup := by
    simp only [List.map_append, List.map_cons, List.nodup_append, List.nodup_cons] at hdistinct
    exact hdistinct.2.1.2
  have hsub : (newer.map key).toFinset ⊆ S := by
    intro k hk
    obtain ⟨z, hz, rfl⟩ := List.mem_map.1 (List.mem_toFinset.1 hk)
    exact hnewer z hz
  have hlen : newer.length ≤ S.card := by
    rw [← List.length_map key, ← List.toFinset_card_of_nodup hnodup']
    exact Finset.card_le_card hsub
  -- So the items that are dropped stand before `x`.
  have hdrop : (older ++ x :: newer).length - n ≤ older.length := by
    simp only [List.length_append, List.length_cons]
    omega
  refine ⟨older.drop ((older ++ x :: newer).length - n), newer, ?_, hnewer⟩
  rw [RecentlyUsed.put, keep, hsplit, List.drop_append_of_le_length hdrop]

omit [DecidableEq κ] in
/-- The new item is there. -/
theorem holds_put (S : Finset κ) (x : β) (xs : List β) {n : ℕ} (hn : 1 ≤ n) :
    Holds key x S (RecentlyUsed.put n x xs) := by
  refine ⟨xs.drop ((xs ++ [x]).length - n), [], ?_, fun _ hy => absurd hy List.not_mem_nil⟩
  have hdrop : (xs ++ [x]).length - n ≤ xs.length := by
    simp only [List.length_append, List.length_singleton]
    omega
  rw [RecentlyUsed.put, keep, List.drop_append_of_le_length hdrop]

end DeviceShell.RecentlyUsed
