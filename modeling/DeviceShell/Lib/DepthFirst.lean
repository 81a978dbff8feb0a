import Mathlib.Data.List.Nodup
import Mathlib.Logic.Relation

/-!
# Gathering the keys that are reached

A graph whose nodes are looked up by keys, where a lookup may fail. `gather` follows the keys of
some nodes depth first, and passes over a key that it has seen. It gives the keys in the order in
which it finds them, or the failure of a lookup. The recursion is bounded by a depth; it is not used
up when it exceeds the number of keys that can be looked up (`gather_isSome`), whatever cycles the
graph has. What is gathered is what is reached, each key once (`gather_spec`, `mem_gather_iff`).
-/

namespace DeviceShell

/-- A graph of nodes behind keys. -/
structure KeyedGraph (κ ν ε : Type) where
  resolve : κ → Except ε ν
  calls : ν → List κ

namespace KeyedGraph

variable {κ ν ε : Type} [DecidableEq κ] (g : KeyedGraph κ ν ε)

/-- The keys that some keys lead to, in addition to those seen, where `below` goes further down. -/
def gatherEach (below : List κ → List κ → Option (Except ε (List κ))) :
    List κ → List κ → Option (Except ε (List κ))
  | [], seen => some (.ok seen)
  | key :: rest, seen =>
    if key ∈ seen then gatherEach below rest seen
    else match g.resolve key with
      | .error e => some (.error e)
      | .ok node => match below (g.calls node) (seen ++ [key]) with
        | none => none
        | some (.error e) => some (.error e)
        | some (.ok seen) => gatherEach below rest seen

/-- The keys that some keys lead to, in addition to those seen. -/
def gather : ℕ → List κ → List κ → Option (Except ε (List κ))
  | 0 => fun _ _ => none
  | depth + 1 => g.gatherEach (gather depth)

/-- The node behind a key calls another key. -/
def Calls (a b : κ) : Prop := ∃ node, g.resolve a = .ok node ∧ b ∈ g.calls node

/-- A key that some keys lead to. -/
def Reached (keys : List κ) (x : κ) : Prop := ∃ key ∈ keys, Relation.ReflTransGen g.Calls key x

/-- What gathering from some keys comes to. -/
structure Gathered (keys seen found : List κ) : Prop where
  grown : seen ⊆ found
  nodup : seen.Nodup → found.Nodup
  roots : keys ⊆ found
  sound : ∀ x ∈ found, x ∈ seen ∨ g.Reached keys x
  closed : ∀ x ∈ found, x ∉ seen → ∃ node, g.resolve x = .ok node ∧ g.calls node ⊆ found

variable {g}

omit [DecidableEq κ] in
/-- What more keys reach. -/
theorem Reached.mono {keys keys' : List κ} (h : keys ⊆ keys') {x : κ} (hx : g.Reached keys x) :
    g.Reached keys' x := by
  obtain ⟨key, hkey, hpath⟩ := hx
  exact ⟨key, h hkey, hpath⟩

omit [DecidableEq κ] in
/-- What the calls of a node reach, its key reaches. -/
theorem Reached.of_calls {keys : List κ} {key : κ} {node : ν} (hkey : key ∈ keys)
    (hnode : g.resolve key = .ok node) {x : κ} (hx : g.Reached (g.calls node) x) :
    g.Reached keys x := by
  obtain ⟨called, hcalled, hpath⟩ := hx
  exact ⟨key, hkey, .head ⟨node, hnode, hcalled⟩ hpath⟩

omit [DecidableEq κ] in
/-- A key that was seen adds nothing. -/
theorem Gathered.skip {key : κ} {rest seen found : List κ} (hkey : key ∈ seen)
    (h : g.Gathered rest seen found) : g.Gathered (key :: rest) seen found where
  grown := h.grown
  nodup := h.nodup
  roots := List.cons_subset.mpr ⟨h.grown hkey, h.roots⟩
  sound x hx := (h.sound x hx).imp_right (Reached.mono (List.subset_cons_self key rest))
  closed := h.closed

/-- A new key adds what its node leads to. -/
theorem Gathered.step {key : κ} {node : ν} {rest seen mid found : List κ} (hkey : key ∉ seen)
    (hnode : g.resolve key = .ok node) (hbelow : g.Gathered (g.calls node) (seen ++ [key]) mid)
    (h : g.Gathered rest mid found) : g.Gathered (key :: rest) seen found where
  grown x hx := h.grown (hbelow.grown (List.mem_append_left _ hx))
  nodup hseen := by
    refine h.nodup (hbelow.nodup (List.nodup_append.mpr ⟨hseen, List.nodup_singleton key, ?_⟩))
    intro a ha b hb
    rw [List.mem_singleton.mp hb]
    exact fun hab => hkey (hab ▸ ha)
  roots := List.cons_subset.mpr
    ⟨h.grown (hbelow.grown (List.mem_append_right _ List.mem_cons_self)), h.roots⟩
  sound x hx := by
    rcases h.sound x hx with hmid | hreached
    · rcases hbelow.sound x hmid with hseen | hreached
      · rcases List.mem_append.mp hseen with hseen | hx
        · exact .inl hseen
        · exact .inr ⟨key, List.mem_cons_self, List.mem_singleton.mp hx ▸ .refl⟩
      · exact .inr (Reached.of_calls List.mem_cons_self hnode hreached)
    · exact .inr (hreached.mono (List.subset_cons_self key rest))
  closed x hx hxseen := by
    by_cases hmid : x ∈ mid
    · by_cases hxkey : x = key
      · -- The node of the key itself: its calls are the roots of what is below.
        exact ⟨node, hxkey ▸ hnode, fun y hy => h.grown (hbelow.roots hy)⟩
      · have hnew : x ∉ seen ++ [key] := by simp [hxseen, hxkey]
        obtain ⟨node', hnode', hcalls⟩ := hbelow.closed x hmid hnew
        exact ⟨node', hnode', fun y hy => h.grown (hcalls hy)⟩
    · exact h.closed x hx hmid

/-- What is gathered at one level, given what is gathered below. -/
theorem gatherEach_spec {below : List κ → List κ → Option (Except ε (List κ))}
    (hbelow : ∀ {keys seen found}, below keys seen = some (.ok found) → g.Gathered keys seen found)
    {keys seen found : List κ} (h : g.gatherEach below keys seen = some (.ok found)) :
    g.Gathered keys seen found := by
  induction keys generalizing seen with
  | nil =>
    cases h
    exact ⟨List.Subset.refl _, id, List.nil_subset _, fun x hx => .inl hx,
      fun x hx hnot => absurd hx hnot⟩
  | cons key rest ih =>
    unfold gatherEach at h
    split_ifs at h with hkey
    · exact (ih h).skip hkey
    · split at h
      · cases h
      · rename_i node hnode
        split at h
        · cases h
        · cases h
        · rename_i mid hmid
          exact .step hkey hnode (hbelow hmid) (ih h)

/-- What is gathered: what was seen, and what the keys lead to. -/
theorem gather_spec (depth : ℕ) {keys seen found : List κ}
    (h : g.gather depth keys seen = some (.ok found)) : g.Gathered keys seen found := by
  induction depth generalizing keys seen found with
  | zero => cases h
  | succ depth ih => exact gatherEach_spec ih h

/-- What is gathered from the start is what is reached. -/
theorem mem_gather_iff {depth : ℕ} {keys found : List κ}
    (h : g.gather depth keys [] = some (.ok found)) (x : κ) : x ∈ found ↔ g.Reached keys x := by
  have hspec := gather_spec depth h
  constructor
  · intro hx
    rcases hspec.sound x hx with hnil | hreached
    · cases hnil
    · exact hreached
  · rintro ⟨key, hkey, hpath⟩
    induction hpath with
    | refl => exact hspec.roots hkey
    | tail _ hstep ih =>
      obtain ⟨node, hnode, hcalls⟩ := hspec.closed _ ih List.not_mem_nil
      obtain ⟨node', hnode', hmem⟩ := hstep
      rw [hnode] at hnode'
      cases hnode'
      exact hcalls hmem

/-- A failure at one level is that of a key that is reached. -/
theorem gatherEach_error {below : List κ → List κ → Option (Except ε (List κ))} {e : ε}
    (hbelow : ∀ {keys seen}, below keys seen = some (.error e) →
      ∃ x, g.Reached keys x ∧ g.resolve x = .error e)
    {keys seen : List κ} (h : g.gatherEach below keys seen = some (.error e)) :
    ∃ x, g.Reached keys x ∧ g.resolve x = .error e := by
  induction keys generalizing seen with
  | nil => cases h
  | cons key rest ih =>
    have hlater {seen : List κ} (h : g.gatherEach below rest seen = some (.error e)) :
        ∃ x, g.Reached (key :: rest) x ∧ g.resolve x = .error e := by
      obtain ⟨x, hx, herror⟩ := ih h
      exact ⟨x, hx.mono (List.subset_cons_self key rest), herror⟩
    unfold gatherEach at h
    split_ifs at h with hkey
    · exact hlater h
    · split at h
      · rename_i herror
        cases h
        exact ⟨key, ⟨key, List.mem_cons_self, .refl⟩, herror⟩
      · rename_i node hnode
        split at h
        · cases h
        · rename_i hmid
          cases h
          obtain ⟨x, hx, herror⟩ := hbelow hmid
          exact ⟨x, .of_calls List.mem_cons_self hnode hx, herror⟩
        · exact hlater h

/-- A failure is that of a key that is reached. -/
theorem gather_error (depth : ℕ) {keys seen : List κ} {e : ε}
    (h : g.gather depth keys seen = some (.error e)) :
    ∃ x, g.Reached keys x ∧ g.resolve x = .error e := by
  induction depth generalizing keys seen with
  | zero => cases h
  | succ depth ih => exact gatherEach_error ih h

/-- The keys that can be looked up and were not seen. -/
def unseen (known seen : List κ) : List κ := known.filter fun key => key ∉ seen

omit [DecidableEq κ] in
/-- Filtering by less keeps no more. -/
theorem length_filter_le_of_imp {p q : κ → Bool} (l : List κ) (h : ∀ x ∈ l, p x = true → q x = true) :
    (l.filter p).length ≤ (l.filter q).length := by
  rw [← List.countP_eq_length_filter, ← List.countP_eq_length_filter]
  exact List.countP_mono_left h

/-- A key that is seen is not unseen any more. -/
theorem length_unseen_lt {known seen : List κ} {key : κ} (hknown : key ∈ known)
    (hseen : key ∉ seen) : (unseen known (seen ++ [key])).length < (unseen known seen).length := by
  have hsplit : unseen known (seen ++ [key]) = (unseen known seen).filter fun x => x ≠ key := by
    unfold unseen
    rw [List.filter_filter]
    refine List.filter_congr fun x _ => ?_
    simp [not_or, and_comm]
  have hmem : key ∈ unseen known seen := List.mem_filter.mpr ⟨hknown, by simpa using hseen⟩
  rw [hsplit]
  refine Nat.lt_of_le_of_ne (List.length_filter_le _ _) fun heq => ?_
  have hall := List.length_filter_eq_length_iff.mp heq key hmem
  simp at hall

/-- Seeing more leaves no more unseen. -/
theorem length_unseen_le {known seen seen' : List κ} (h : seen ⊆ seen') :
    (unseen known seen').length ≤ (unseen known seen).length := by
  refine length_filter_le_of_imp known fun x _ hx => ?_
  simp only [decide_eq_true_eq] at hx ⊢
  exact fun hmem => hx (h hmem)

/-- A depth above the number of keys that are reached and can be looked up is not used up. -/
theorem gather_isSome_within {known : List κ} {within : κ → Prop}
    (hknown : ∀ {key node}, within key → g.resolve key = .ok node →
      key ∈ known ∧ ∀ called ∈ g.calls node, within called)
    (depth : ℕ) (keys seen : List κ) (hkeys : ∀ key ∈ keys, within key)
    (hdepth : (unseen known seen).length < depth) : (g.gather depth keys seen).isSome := by
  induction depth generalizing keys seen with
  | zero => omega
  | succ depth ih =>
    show (g.gatherEach (g.gather depth) keys seen).isSome
    induction keys generalizing seen with
    | nil => rfl
    | cons key rest ihrest =>
      have hrest : ∀ key ∈ rest, within key := fun key hkey => hkeys key (List.mem_cons_of_mem _ hkey)
      unfold gatherEach
      split_ifs with hkey
      · exact ihrest seen hrest hdepth
      · split
        · rfl
        · rename_i node hnode
          obtain ⟨hmem, hcalls⟩ := hknown (hkeys key List.mem_cons_self) hnode
          have hless := length_unseen_lt hmem hkey
          have hbelow := ih (g.calls node) (seen ++ [key]) hcalls (by omega)
          obtain ⟨result, hresult⟩ := Option.isSome_iff_exists.mp hbelow
          rw [hresult]
          rcases result with e | mid
          · rfl
          · have hgrown := (gather_spec depth hresult).grown
            have hseen : seen ⊆ mid := fun x hx => hgrown (List.mem_append_left _ hx)
            have hmono : (unseen known mid).length ≤ (unseen known seen).length :=
              length_unseen_le hseen
            exact ihrest mid hrest (by omega)

/-- A depth above the number of keys that can be looked up is not used up. -/
theorem gather_isSome {known : List κ} (hknown : ∀ {key node}, g.resolve key = .ok node → key ∈ known)
    (depth : ℕ) (keys seen : List κ) (hdepth : (unseen known seen).length < depth) :
    (g.gather depth keys seen).isSome :=
  by
  refine gather_isSome_within (fun {_ _} _ hnode => ?_) depth keys seen (fun _ _ => trivial) hdepth
  exact ⟨hknown hnode, fun _ _ => trivial⟩

end KeyedGraph

end DeviceShell
