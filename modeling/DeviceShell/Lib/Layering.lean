import DeviceShell.Lib.GraphSplice

/-!
# Nodes taken in batches

Nodes that wait for other nodes are taken away in batches, each of nodes that wait for nothing that is
left (`Drains`). Whatever the batches are, together they are the nodes, each once (`Drains.perm`), and
every node comes in a later batch than what it waits for (`Drains.before`). Nodes can be taken away
completely only if none waits for itself (`Drains.acyclic`), and if none does there is always one that
can be taken (`exists_ready`).
-/

namespace DeviceShell.Layering

open Relation List

variable {α κ : Type} [DecidableEq κ] (key : α → κ) (needs : α → List κ)

/-- A node waits for nothing but what is done. -/
def Ready (done : List κ) (x : α) : Prop := ∀ d ∈ needs x, d ∈ done

/-- A node with the second key waits for the first. -/
def Precedes (nodes : List α) (a b : κ) : Prop := ∃ x ∈ nodes, key x = b ∧ a ∈ needs x

/-- The nodes that are left when a batch is taken. -/
def rest (nodes batch : List α) : List α := nodes.filter fun x => !(batch.map key).contains (key x)

/-- The batches take the nodes away, after what is done. -/
inductive Drains : List α → List κ → List (List α) → Prop
  | nil {done : List κ} : Drains [] done []
  | cons {nodes batch : List α} {done : List κ} {batches : List (List α)}
      (hbatch : batch.Subperm nodes) (hready : ∀ x ∈ batch, Ready needs done x)
      (hrest : Drains (rest key nodes batch) (done ++ batch.map key) batches) :
      Drains nodes done (batch :: batches)

variable {key needs} {nodes batch : List α} {done : List κ} {batches : List (List α)}

theorem mem_rest {x : α} : x ∈ rest key nodes batch ↔ x ∈ nodes ∧ key x ∉ batch.map key := by
  unfold rest
  rw [List.mem_filter, List.contains_eq_mem]
  simp

theorem rest_sublist : (rest key nodes batch).Sublist nodes := List.filter_sublist

theorem nodup_rest (hnodup : (nodes.map key).Nodup) : ((rest key nodes batch).map key).Nodup :=
  hnodup.sublist (rest_sublist.map key)

omit [DecidableEq κ] in
/-- Nodes are told apart by their keys. -/
theorem eq_of_key (hnodup : (nodes.map key).Nodup) {x y : α} (hx : x ∈ nodes) (hy : y ∈ nodes)
    (h : key x = key y) : x = y :=
  List.inj_on_of_nodup_map hnodup hx hy h

/-- A batch and what it leaves are the nodes. -/
theorem perm_append_rest (hnodup : (nodes.map key).Nodup) (hbatch : batch.Subperm nodes) :
    (batch ++ rest key nodes batch).Perm nodes := by
  have hnodes : nodes.Nodup := hnodup.of_map
  have hbatchNodup : batch.Nodup := by
    obtain ⟨taken, hperm, hsub⟩ := hbatch
    exact hperm.nodup_iff.1 (hnodes.sublist hsub)
  have hdisjoint : batch.Disjoint (rest key nodes batch) := by
    intro x hx hrest
    exact (mem_rest.1 hrest).2 (List.mem_map_of_mem hx)
  have happend : (batch ++ rest key nodes batch).Nodup :=
    List.nodup_append'.2 ⟨hbatchNodup, hnodes.sublist rest_sublist, hdisjoint⟩
  rw [List.perm_ext_iff_of_nodup happend hnodes]
  intro x
  rw [List.mem_append, mem_rest]
  constructor
  · rintro (hx | hx)
    · exact hbatch.subset hx
    · exact hx.1
  · intro hx
    by_cases hkey : key x ∈ batch.map key
    · obtain ⟨y, hy, heq⟩ := List.mem_map.1 hkey
      have hsame : y = x := eq_of_key hnodup (hbatch.subset hy) hx heq
      exact .inl (hsame ▸ hy)
    · exact .inr ⟨hx, hkey⟩

/-- Together the batches are the nodes. -/
theorem Drains.perm (h : Drains key needs nodes done batches) (hnodup : (nodes.map key).Nodup) :
    batches.flatten.Perm nodes := by
  induction h with
  | nil => exact .refl []
  | @cons nodes batch done batches hbatch hready hrest ih =>
    have htail : batches.flatten.Perm (rest key nodes batch) := ih (nodup_rest hnodup)
    calc (batch :: batches).flatten
      _ = batch ++ batches.flatten := List.flatten_cons
      _ ~ batch ++ rest key nodes batch := htail.append_left batch
      _ ~ nodes := perm_append_rest hnodup hbatch

/-- What a node waits for is done or in an earlier batch. -/
theorem Drains.before (h : Drains key needs nodes done batches) {pre post : List (List α)}
    (hsplit : batches = pre ++ batch :: post) {x : α} (hx : x ∈ batch) {d : κ} (hd : d ∈ needs x) :
    d ∈ done ∨ d ∈ pre.flatten.map key := by
  induction h generalizing pre with
  | nil =>
    have hlength := congrArg List.length hsplit
    simp at hlength
  | @cons nodes first done batches hbatch hready hrest ih =>
    cases pre with
    | nil =>
      rw [List.nil_append] at hsplit
      injection hsplit with hfirst hbatches
      exact .inl (hready x (hfirst ▸ hx) d hd)
    | cons p pre =>
      rw [List.cons_append] at hsplit
      injection hsplit with hfirst hbatches
      have hlater := ih hbatches
      rw [List.mem_append] at hlater
      rw [List.flatten_cons, List.map_append, List.mem_append, ← hfirst]
      tauto

/-- What a node waits for is done or earlier in the batches put one after the other. -/
theorem Drains.before_flatten (h : Drains key needs nodes done batches) {pre post : List α} {x : α}
    (hsplit : batches.flatten = pre ++ x :: post) {d : κ} (hd : d ∈ needs x) :
    d ∈ done ∨ d ∈ pre.map key := by
  induction h generalizing pre with
  | nil =>
    have hlength := congrArg List.length hsplit
    simp at hlength
  | @cons nodes batch done batches hbatch hready hrest ih =>
    rw [List.flatten_cons] at hsplit
    rcases List.append_eq_append_iff.1 hsplit with ⟨later, hpre, hlater⟩ | ⟨inner, hbatchEq, hinner⟩
    · have hearlier := ih hlater
      rw [List.mem_append] at hearlier
      rw [hpre, List.map_append, List.mem_append]
      tauto
    · cases inner with
      | nil =>
        rw [List.append_nil] at hbatchEq
        have hearlier : d ∈ done ++ batch.map key ∨ d ∈ ([] : List α).map key := ih hinner.symm
        rw [List.mem_append] at hearlier
        rw [← hbatchEq]
        simpa using hearlier
      | cons y inner =>
        rw [List.cons_append] at hinner
        injection hinner with hxy
        have hx : x ∈ batch := by
          rw [hbatchEq, hxy]
          exact List.mem_append_right pre List.mem_cons_self
        exact .inl (hready x hx d hd)

/-! ## Nodes that wait for each other -/

omit [DecidableEq κ] in
/-- A path leads to the key of a node. -/
theorem key_of_precedes {a b : κ} (h : TransGen (Precedes key needs nodes) a b) :
    b ∈ nodes.map key := by
  obtain ⟨c, -, x, hx, hkey, -⟩ := TransGen.tail'_iff.1 h
  exact List.mem_map.2 ⟨x, hx, hkey⟩

theorem Precedes.of_rest {a b : κ} (h : Precedes key needs (rest key nodes batch) a b) :
    Precedes key needs nodes a b := by
  obtain ⟨x, hx, hkey, ha⟩ := h
  exact ⟨x, (mem_rest.1 hx).1, hkey, ha⟩

/-- A path from a node that is left does not lead through the batch. -/
theorem transGen_rest (hnodup : (nodes.map key).Nodup) (hbatch : batch.Subperm nodes)
    (hready : ∀ x ∈ batch, Ready needs done x) (happart : ∀ x ∈ nodes, key x ∉ done) {a b : κ}
    (ha : a ∈ nodes.map key) (h : TransGen (Precedes key needs nodes) a b) :
    TransGen (Precedes key needs (rest key nodes batch)) a b := by
  have hstep {c d : κ} (hc : c ∈ nodes.map key) (hcd : Precedes key needs nodes c d) :
      Precedes key needs (rest key nodes batch) c d := by
    obtain ⟨x, hx, hkey, hneeds⟩ := hcd
    have hleft : key x ∉ batch.map key := by
      intro htaken
      obtain ⟨y, hy, heq⟩ := List.mem_map.1 htaken
      have hsame : y = x := eq_of_key hnodup (hbatch.subset hy) hx heq
      have hdone : c ∈ done := hready y hy c (hsame ▸ hneeds)
      obtain ⟨z, hz, rfl⟩ := List.mem_map.1 hc
      exact happart z hz hdone
    exact ⟨x, mem_rest.2 ⟨hx, hleft⟩, hkey, hneeds⟩
  induction h with
  | single hab => exact .single (hstep ha hab)
  | tail hpath hab ih => exact .tail ih (hstep (key_of_precedes hpath) hab)

/-- What is left after a batch is apart from what is then done. -/
theorem apart_rest (happart : ∀ x ∈ nodes, key x ∉ done) :
    ∀ x ∈ rest key nodes batch, key x ∉ done ++ batch.map key := by
  intro x hx hin
  rw [List.mem_append] at hin
  rcases hin with hin | hin
  · exact happart x (mem_rest.1 hx).1 hin
  · exact (mem_rest.1 hx).2 hin

/-- Nodes that are taken away completely do not wait for themselves. -/
theorem Drains.acyclic (h : Drains key needs nodes done batches) (hnodup : (nodes.map key).Nodup)
    (happart : ∀ x ∈ nodes, key x ∉ done) : GraphSplice.Acyclic (Precedes key needs nodes) := by
  induction h with
  | nil =>
    intro a hcycle
    exact absurd (key_of_precedes hcycle) List.not_mem_nil
  | @cons nodes batch done batches hbatch hready hrest ih =>
    intro a hcycle
    have hleft : TransGen (Precedes key needs (rest key nodes batch)) a a :=
      transGen_rest hnodup hbatch hready happart (key_of_precedes hcycle) hcycle
    exact ih (nodup_rest hnodup) (apart_rest happart) a hleft

/-- Everything that the nodes wait for is done or among them. -/
def Closed (key : α → κ) (needs : α → List κ) (nodes : List α) (done : List κ) : Prop :=
  ∀ x ∈ nodes, ∀ d ∈ needs x, d ∈ done ∨ d ∈ nodes.map key

theorem Closed.rest (h : Closed key needs nodes done) :
    Closed key needs (rest key nodes batch) (done ++ batch.map key) := by
  intro x hx d hd
  rw [List.mem_append]
  rcases h x (mem_rest.1 hx).1 d hd with hdone | hnode
  · exact .inl (.inl hdone)
  · by_cases htaken : d ∈ batch.map key
    · exact .inl (.inr htaken)
    · obtain ⟨y, hy, rfl⟩ := List.mem_map.1 hnode
      exact .inr (List.mem_map_of_mem (mem_rest.2 ⟨hy, htaken⟩))

theorem acyclic_rest (h : GraphSplice.Acyclic (Precedes key needs nodes)) :
    GraphSplice.Acyclic (Precedes key needs (rest key nodes batch)) :=
  fun a hcycle => h a (TransGen.mono (fun _ _ => Precedes.of_rest) _ _ hcycle)

omit [DecidableEq κ] in
/-- Of nodes that do not wait for themselves one waits for nothing that is left. -/
theorem exists_ready (hclosed : Closed key needs nodes done)
    (hacyclic : GraphSplice.Acyclic (Precedes key needs nodes)) (hnodes : nodes ≠ []) :
    ∃ x ∈ nodes, Ready needs done x := by
  let M : Set κ := {a | a ∈ nodes.map key}
  let E (a b : κ) : Prop := a ∈ M ∧ Precedes key needs nodes a b
  have hfin : M.Finite := (nodes.map key).finite_toSet
  have hwithin : GraphSplice.Within M E := by
    rintro a b ⟨ha, x, hx, rfl, -⟩
    exact ⟨ha, List.mem_map_of_mem hx⟩
  have hE : GraphSplice.Acyclic E := fun a hcycle =>
    hacyclic a (TransGen.mono (fun _ _ h => h.2) _ _ hcycle)
  obtain ⟨first, hfirst⟩ := List.exists_mem_of_ne_nil nodes hnodes
  obtain ⟨r, ⟨hr, hroot⟩, -⟩ :=
    GraphSplice.exists_root hfin hwithin hE (m := key first) (List.mem_map_of_mem hfirst)
  obtain ⟨x, hx, rfl⟩ := List.mem_map.1 hr
  refine ⟨x, hx, fun d hd => ?_⟩
  exact (hclosed x hx d hd).resolve_right fun hnode => hroot d ⟨hnode, x, hx, rfl, hd⟩

/-- A batch makes the nodes fewer. -/
theorem length_rest_lt {x : α} (hx : x ∈ nodes) (hbatch : x ∈ batch) :
    (rest key nodes batch).length < nodes.length := by
  have hle : (rest key nodes batch).length ≤ nodes.length := rest_sublist.length_le
  have hne : (rest key nodes batch).length ≠ nodes.length := by
    intro heq
    have hall := List.length_filter_eq_length_iff.1 heq x hx
    simp only [List.contains_eq_mem, Bool.not_eq_true', decide_eq_false_iff_not] at hall
    exact hall (List.mem_map_of_mem hbatch)
  omega

end DeviceShell.Layering
