import Mathlib.Data.Finset.Card
import Mathlib.Data.List.Nodup
import Mathlib.Logic.Relation

/-!
# Searching for cycles

A depth-first search that keeps apart the vertices being visited and those that have been visited, and
notes each vertex at which it comes back to one being visited. It notes none exactly if no vertex that
it starts from leads to a cycle (`search_eq_nil_iff`). Without a note the visited vertices are left in
an order in which each is followed by all that it leads to (`Settled`). The recursion is bounded by a
depth, which is not used up where the vertices are fewer (`depth_pos`).
-/

namespace DeviceShell.CycleSearch

open Relation

variable {V : Type} [DecidableEq V] (next : V → List V)

/-- The search from some vertices in turn, while others are being visited: the vertices that have been
visited and those at which a cycle is closed. -/
def searchEach (below : List V → List V → List V → List V × List V) (visiting : List V) :
    List V → List V → List V × List V
  | [], visited => (visited, [])
  | id :: rest, visited =>
    if id ∈ visiting then
      let after := searchEach below visiting rest visited
      (after.1, id :: after.2)
    else if id ∈ visited then searchEach below visiting rest visited
    else
      let inside := below (id :: visiting) (next id) visited
      let after := searchEach below visiting rest (id :: inside.1)
      (after.1, inside.2 ++ after.2)

/-- The search, which goes no deeper than the number. -/
def search : ℕ → List V → List V → List V → List V × List V
  | 0 => fun _ _ visited => (visited, [])
  | depth + 1 => searchEach next (search depth)

/-- One vertex leads to another. -/
def Next (a b : V) : Prop := b ∈ next a

/-- Each vertex is followed by all that it leads to. -/
inductive Settled : List V → Prop
  | nil : Settled []
  | cons {id : V} {rest : List V} (hid : id ∉ rest) (hnext : next id ⊆ rest) (h : Settled rest) :
      Settled (id :: rest)

variable {next}

omit [DecidableEq V] in
/-- Settled vertices lead to settled vertices. -/
theorem Settled.closed {ids : List V} (h : Settled next ids) {a b : V} (ha : a ∈ ids)
    (hab : TransGen (Next next) a b) : b ∈ ids := by
  have hstep : ∀ x ∈ ids, ∀ y, Next next x y → y ∈ ids := by
    clear ha hab
    induction h with
    | nil => exact fun x hx => absurd hx List.not_mem_nil
    | @cons id rest _ hnext _ ih =>
      intro x hx y hxy
      rcases List.mem_cons.1 hx with rfl | hx
      · exact List.mem_cons_of_mem _ (hnext hxy)
      · exact List.mem_cons_of_mem _ (ih x hx y hxy)
  induction hab with
  | single hxy => exact hstep _ ha _ hxy
  | tail _ hxy ih => exact hstep _ ih _ hxy

omit [DecidableEq V] in
/-- No cycle goes through a settled vertex. -/
theorem Settled.acyclic {ids : List V} (h : Settled next ids) {a : V} (ha : a ∈ ids) :
    ¬ TransGen (Next next) a a := by
  induction h with
  | nil => exact absurd ha List.not_mem_nil
  | @cons id rest hid hnext hrest ih =>
    rcases List.mem_cons.1 ha with rfl | ha
    · -- The first vertex is left for the rest, which does not lead back.
      intro hcycle
      obtain ⟨b, hab, hba⟩ := TransGen.head'_iff.1 hcycle
      rcases reflTransGen_iff_eq_or_transGen.1 hba with heq | hpath
      · exact hid (heq ▸ hnext hab)
      · exact hid (hrest.closed (hnext hab) hpath)
    · exact ih ha

/-! ## A search that notes nothing -/

/-- What a search without a note leaves: a settled list of what was visited before, of where it
started, and of nothing that is being visited. -/
structure Searched (next : V → List V) (visiting keys visited found : List V) : Prop where
  settled : Settled next found
  grown : visited ⊆ found
  keys : keys ⊆ found
  apart : ∀ x ∈ found, x ∈ visited ∨ x ∉ visiting

/-- What is needed of the vertices for the depth not to be used up. -/
structure Bounded (next : V → List V) (vertices visiting keys : List V) (depth : ℕ) : Prop where
  closed : ∀ x ∈ vertices, next x ⊆ vertices
  nodup : visiting.Nodup
  above : visiting ⊆ vertices
  starts : keys ⊆ vertices
  depth : vertices.length < visiting.length + depth

omit [DecidableEq V] in
theorem Bounded.depth_pos {vertices visiting keys : List V} {depth : ℕ}
    (h : Bounded next vertices visiting keys depth) : 0 < depth := by
  have hle : visiting.length ≤ vertices.length := (h.nodup.subperm h.above).length_le
  have hdepth := h.depth
  omega

omit [DecidableEq V] in
theorem Bounded.tail {vertices visiting rest : List V} {id : V} {depth : ℕ}
    (h : Bounded next vertices visiting (id :: rest) depth) :
    Bounded next vertices visiting rest depth :=
  { h with starts := (List.cons_subset.1 h.starts).2 }

omit [DecidableEq V] in
theorem Bounded.inside {vertices visiting rest : List V} {id : V} {depth : ℕ}
    (h : Bounded next vertices visiting (id :: rest) (depth + 1)) (hid : id ∉ visiting) :
    Bounded next vertices (id :: visiting) (next id) depth where
  closed := h.closed
  nodup := List.nodup_cons.2 ⟨hid, h.nodup⟩
  above := List.cons_subset.2 ⟨(List.cons_subset.1 h.starts).1, h.above⟩
  starts := h.closed id (List.cons_subset.1 h.starts).1
  depth := by
    have hdepth := h.depth
    rw [List.length_cons]
    omega

/-- A search that notes nothing has settled where it started. -/
theorem searched_of_eq_nil {vertices : List V} {depth : ℕ} {visiting keys visited : List V}
    (hbounded : Bounded next vertices visiting keys depth) (hvisited : Settled next visited)
    (h : (search next depth visiting keys visited).2 = []) :
    Searched next visiting keys visited (search next depth visiting keys visited).1 := by
  induction depth generalizing visiting keys visited with
  | zero => exact absurd hbounded.depth_pos (Nat.lt_irrefl 0)
  | succ depth ih =>
    change (searchEach next (search next depth) visiting keys visited).2 = [] at h
    change Searched next visiting keys visited
      (searchEach next (search next depth) visiting keys visited).1
    induction keys generalizing visited with
    | nil =>
      exact ⟨hvisited, List.Subset.refl _, List.nil_subset _, fun x hx => .inl hx⟩
    | cons id rest ihrest =>
      rw [searchEach] at h ⊢
      split at h
      · exact absurd h (List.cons_ne_nil _ _)
      · next hvisiting =>
        rw [if_neg hvisiting]
        split at h
        · next hseen =>
          rw [if_pos hseen]
          have hrest := ihrest hbounded.tail hvisited h
          exact { hrest with keys := List.cons_subset.2 ⟨hrest.grown hseen, hrest.keys⟩ }
        · next hnew =>
          rw [if_neg hnew]
          obtain ⟨hinside, hafter⟩ := List.append_eq_nil_iff.1 h
          have hin := ih (hbounded.inside hvisiting) hvisited hinside
          have hid : id ∉ (search next depth (id :: visiting) (next id) visited).1 := by
            intro hmem
            rcases hin.apart id hmem with hmem | hmem
            · exact hnew hmem
            · exact hmem List.mem_cons_self
          have hrest := ihrest hbounded.tail (.cons hid hin.keys hin.settled) hafter
          refine ⟨hrest.settled, ?_, ?_, ?_⟩
          · exact fun x hx => hrest.grown (List.mem_cons_of_mem _ (hin.grown hx))
          · exact List.cons_subset.2 ⟨hrest.grown List.mem_cons_self, hrest.keys⟩
          · intro x hx
            rcases hrest.apart x hx with hx | hx
            · rcases List.mem_cons.1 hx with rfl | hx
              · exact .inr hvisiting
              · exact (hin.apart x hx).imp_right fun hx hmem => hx (List.mem_cons_of_mem _ hmem)
            · exact .inr hx

/-! ## A search without cycles -/

/-- A search notes nothing where no vertex that it starts from leads to a cycle. -/
theorem eq_nil_of_acyclic {depth : ℕ} {visiting keys visited : List V}
    (hpath : ∀ v ∈ visiting, ∀ k ∈ keys, TransGen (Next next) v k)
    (hacyclic : ∀ k ∈ keys, ∀ x, ReflTransGen (Next next) k x → ¬ TransGen (Next next) x x) :
    (search next depth visiting keys visited).2 = [] := by
  induction depth generalizing visiting keys visited with
  | zero => rfl
  | succ depth ih =>
    change (searchEach next (search next depth) visiting keys visited).2 = []
    induction keys generalizing visited with
    | nil => rfl
    | cons id rest ihrest =>
      have hlater : ∀ {visited : List V},
          (searchEach next (search next depth) visiting rest visited).2 = [] := fun {visited} =>
        ihrest (fun v hv k hk => hpath v hv k (List.mem_cons_of_mem _ hk))
          fun k hk => hacyclic k (List.mem_cons_of_mem _ hk)
      rw [searchEach]
      split_ifs with hvisiting hseen
      · -- A vertex that is being visited leads to itself here.
        have hcycle := hpath id hvisiting id List.mem_cons_self
        exact absurd hcycle (hacyclic id List.mem_cons_self id .refl)
      · exact hlater
      · have hinside : (search next depth (id :: visiting) (next id) visited).2 = [] := by
          refine ih ?_ ?_
          · intro v hv k hk
            rcases List.mem_cons.1 hv with rfl | hv
            · exact .single hk
            · exact (hpath v hv id List.mem_cons_self).tail hk
          · exact fun k hk x hx => hacyclic id List.mem_cons_self x (.head hk hx)
        exact List.append_eq_nil_iff.2 ⟨hinside, hlater⟩

/-- The search from all vertices notes nothing exactly if there is no cycle. -/
theorem search_eq_nil_iff {vertices : List V} (hclosed : ∀ x ∈ vertices, next x ⊆ vertices)
    {depth : ℕ} (hdepth : vertices.length < depth) :
    (search next depth [] vertices []).2 = [] ↔ ∀ x ∈ vertices, ¬ TransGen (Next next) x x := by
  constructor
  · intro h x hx
    have hbounded : Bounded next vertices [] vertices depth :=
      ⟨hclosed, List.nodup_nil, List.nil_subset _, List.Subset.refl _, by simpa using hdepth⟩
    have hsearched := searched_of_eq_nil hbounded .nil h
    exact hsearched.settled.acyclic (hsearched.keys hx)
  · intro hacyclic
    refine eq_nil_of_acyclic (fun v hv => absurd hv List.not_mem_nil) fun k hk x hx => ?_
    have hmem : x ∈ vertices := by
      induction hx with
      | refl => exact hk
      | tail _ hstep ih => exact hclosed _ ih hstep
    exact hacyclic x hmem

end DeviceShell.CycleSearch
