import DeviceShell.Studio.DeviceLoops

/-!
# Loop bodies are chains

A node follows another in the body of a loop (`Follows`) when the walk goes on from the one to the
other, which each node does to one node at most. So a body is a chain, and consists of the nodes on
the path from its entry (`OnChain`), whatever other loops own. `walk_spec` says what the walk has
checked of each node that it came to. From it, of one loop and then of all of them in turn, follows
which bodies are well formed: those of loops whose entry passes the same checks
(`wellFormed_iff`).
-/

namespace DeviceShell.Studio

/-! ## Chains of a relation with one successor at most -/

/-- In a chain that ends where nothing follows, what follows an element is in the tail. -/
theorem mem_tail_of_chain {α : Type} {R : α → α → Prop}
    (hfun : ∀ {a b c}, R a b → R a c → b = c) {a : α} {l : List α}
    (hchain : (a :: l).IsChain R) (hfinal : ∀ y, ¬ R ((a :: l).getLast (List.cons_ne_nil a l)) y)
    {x y : α} (hx : x ∈ a :: l) (hxy : R x y) : y ∈ l := by
  induction l generalizing a with
  | nil =>
    have hxa : x = a := by simpa using hx
    subst hxa
    exact absurd hxy (hfinal y)
  | cons b rest ih =>
    obtain ⟨hab, htail⟩ := List.isChain_cons_cons.mp hchain
    rcases List.mem_cons.mp hx with rfl | hx
    · rw [hfun hxy hab]
      exact List.mem_cons_self
    · have hlast : ∀ y, ¬ R ((b :: rest).getLast (List.cons_ne_nil b rest)) y := by
        simpa using hfinal
      exact List.mem_cons_of_mem b (ih htail hlast hx)

/-- In such a chain an element that nothing follows is the last. -/
theorem take_idxOf_of_final {R : String → String → Prop} {l : List String}
    (hchain : l.IsChain R) {x : String} (hfinal : ∀ y, ¬ R x y) :
    l.take (l.idxOf x + 1) = l := by
  refine List.take_of_length_le ?_
  by_contra hlt
  have hnext : l.idxOf x + 1 < l.length := by omega
  have hstep : R l[l.idxOf x] l[l.idxOf x + 1] := List.isChain_iff_getElem.mp hchain _ hnext
  rw [List.getElem_idxOf] at hstep
  exact hfinal _ hstep

namespace Canvas

variable (w : Canvas)

/-- The walk along a body goes on from `a` to `b`. -/
def Follows (scope : LoopScope) (a b : String) : Prop :=
  (scope.last = "" ∨ a ≠ scope.last) ∧
    ∃ edge, w.outgoingEdges a = [edge] ∧ edge.target = b ∧ b ∉ scope.exits ∧
      (w.incoming b).length ≤ 1

/-- One edge leads from `a`, and it leads to `b`. -/
def Linked (a b : String) : Prop := ∃ edge, w.outgoingEdges a = [edge] ∧ edge.target = b

variable {w}

/-- The walk goes on to one node at most. -/
theorem Follows.unique {scope : LoopScope} {a b c : String} (hb : w.Follows scope a b)
    (hc : w.Follows scope a c) : b = c := by
  obtain ⟨-, e, he, rfl, -⟩ := hb
  obtain ⟨-, e', he', rfl, -⟩ := hc
  rw [he] at he'
  rw [(List.cons.inj he').1]

/-- The walk goes along a single edge. -/
theorem Follows.linked {scope : LoopScope} {a b : String} (h : w.Follows scope a b) :
    w.Linked a b := by
  obtain ⟨-, e, he, hb, -⟩ := h
  exact ⟨e, he, hb⟩

/-- Nothing follows the end that a loop names. -/
theorem not_follows_last {scope : LoopScope} (hlast : scope.last ≠ "") (b : String) :
    ¬ w.Follows scope scope.last b := by
  rintro ⟨h | h, -⟩
  · exact hlast h
  · exact h rfl

/-- What the walk has checked of a node. -/
structure Checked (w : Canvas) (scope : LoopScope) (owned : List String) (x : String) : Prop where
  ne_loop : x ≠ scope.id
  not_owned : x ∉ owned
  allowed : w.actionOf x ∉ disallowedBodyActions

/-- What the walk from a node comes to. -/
structure Walked (w : Canvas) (scope : LoopScope) (owned : List String) (current : String)
    (body walked : List String) : Prop where
  chain : (current :: walked).IsChain (w.Follows scope)
  final : ∀ y, ¬ w.Follows scope
    ((current :: walked).getLast (List.cons_ne_nil current walked)) y
  checked : ∀ x ∈ walked, w.Checked scope owned x
  fresh : ∀ x ∈ walked, x ∉ body
  nodup : walked.Nodup

/-- The walk has come to a node from which it does not go on. -/
theorem Walked.stop {scope : LoopScope} {owned : List String} {current : String}
    {body : List String} (h : ∀ y, ¬ w.Follows scope current y) :
    w.Walked scope owned current body [] where
  chain := List.isChain_singleton current
  final := h
  checked := by simp
  fresh := by simp
  nodup := List.nodup_nil

/-- The walk has come to a node, and goes on. -/
theorem Walked.step {scope : LoopScope} {owned : List String} {current next : String}
    {body walked : List String} (hfollows : w.Follows scope current next)
    (hchecked : w.Checked scope owned next) (hfresh : next ∉ body)
    (h : w.Walked scope owned next (body ++ [next]) walked) :
    w.Walked scope owned current body (next :: walked) where
  chain := List.isChain_cons_cons.mpr ⟨hfollows, h.chain⟩
  final := by simpa using h.final
  checked x hx := by
    rcases List.mem_cons.mp hx with rfl | hx
    · exact hchecked
    · exact h.checked x hx
  fresh x hx := by
    rcases List.mem_cons.mp hx with rfl | hx
    · exact hfresh
    · exact fun hbody => h.fresh x hx (List.mem_append_left _ hbody)
  nodup := by
    refine List.nodup_cons.mpr ⟨fun hmem => ?_, h.nodup⟩
    exact h.fresh next hmem (List.mem_append_right _ List.mem_cons_self)

/-- What a walk that ends has come to. -/
theorem walk_spec {scope : LoopScope} {owned : List String} (steps : ℕ) {current : String}
    {body body' : List String} {reached : Bool}
    (h : w.walk scope owned steps current body = some (.ok (body', reached))) :
    ∃ walked, body' = body ++ walked ∧ w.Walked scope owned current body walked := by
  induction steps generalizing current body with
  | zero => cases h
  | succ steps ih =>
    unfold walk at h
    split at h
    · -- No edge leads on.
      rename_i hout
      cases h
      refine ⟨[], (List.append_nil _).symm, .stop ?_⟩
      rintro y ⟨-, e, he, -⟩
      rw [hout] at he
      cases he
    · rename_i edge others hout
      have hedge {y : String} (hy : w.Follows scope current y) : others = [] ∧ edge.target = y := by
        obtain ⟨-, e, he, hy, -⟩ := hy
        rw [hout] at he
        obtain ⟨rfl, hothers⟩ := List.cons.inj he
        exact ⟨hothers, hy⟩
      simp only at h
      split_ifs at h with hend hothers hexit hjoin hown hbad
      · cases h
        refine ⟨[], (List.append_nil _).symm, .stop fun y hy => ?_⟩
        rw [hend.2] at hy
        exact not_follows_last hend.1 y hy
      · cases h
      · cases h
        refine ⟨[], (List.append_nil _).symm, .stop fun y hy => ?_⟩
        obtain ⟨-, e, -, -, hnot, -⟩ := id hy
        exact hnot ((hedge hy).2 ▸ hexit)
      · cases h
        refine ⟨[], (List.append_nil _).symm, .stop fun y hy => ?_⟩
        obtain ⟨-, e, -, -, -, hle⟩ := id hy
        rw [(hedge hy).2] at hjoin
        omega
      · cases h
      · cases h
      · obtain ⟨walked, rfl, hwalked⟩ := ih h
        have hsingle : others = [] := by simpa using hothers
        have hfollows : w.Follows scope current edge.target := by
          refine ⟨?_, edge, by rw [hout, hsingle], rfl, hexit, by omega⟩
          by_cases hlast : scope.last = ""
          · exact .inl hlast
          · exact .inr fun hcur => hend ⟨hlast, hcur⟩
        simp only [not_or] at hown
        exact ⟨edge.target :: walked, by simp,
          hwalked.step hfollows ⟨hown.1, hown.2.2, hbad⟩ hown.2.1⟩

/-- An edge of the canvas leads to one of its nodes. -/
theorem mem_keys_of_outgoingEdges {current : String} {edge : WorkflowEdge}
    (h : edge ∈ w.outgoingEdges current) : edge.target ∈ w.nodesById.keys := by
  obtain ⟨hlink, -⟩ := List.mem_filter.mp h
  obtain ⟨-, hnodes⟩ := List.mem_filter.mp hlink
  rw [Bool.and_eq_true] at hnodes
  exact (Dict.contains_iff_mem_keys _ _).mp hnodes.2

/-- A walk ends within as many steps as there are nodes that it has not come to. -/
theorem walk_isSome {scope : LoopScope} {owned : List String} (steps : ℕ) {current : String}
    {body : List String} (hnodup : body.Nodup) (hsub : body ⊆ w.nodesById.keys)
    (hsteps : w.nodesById.keys.length < body.length + steps) :
    (w.walk scope owned steps current body).isSome := by
  induction steps generalizing current body with
  | zero =>
    have hle := (List.subperm_of_subset hnodup hsub).length_le
    omega
  | succ steps ih =>
    unfold walk
    split
    · rfl
    · rename_i edge others hout
      simp only
      split_ifs with hend hothers hexit hjoin hown hbad
      all_goals try rfl
      simp only [not_or] at hown
      have hmem : edge.target ∈ w.nodesById.keys :=
        mem_keys_of_outgoingEdges (hout ▸ List.mem_cons_self)
      refine ih (List.nodup_append.mpr ⟨hnodup, List.nodup_singleton _, ?_⟩) ?_ ?_
      · intro a ha b hb
        have hbt : b = edge.target := by simpa using hb
        rintro rfl
        exact hown.2.1 (hbt ▸ ha)
      · intro x hx
        rcases List.mem_append.mp hx with hx | hx
        · exact hsub hx
        · rwa [List.mem_singleton.mp hx]
      · rw [List.length_append, List.length_singleton]
        omega

/-! ## The body of one loop -/

/-- The nodes on the path of a loop: those that its entry leads to, or, where the loop has no entry,
those that follow the loop node itself. -/
def OnChain (w : Canvas) (scope : LoopScope) (x : String) : Prop :=
  (scope.start ≠ "" ∧ Relation.ReflTransGen (w.Follows scope) scope.start x) ∨
    (scope.start = "" ∧ Relation.TransGen (w.Follows scope) scope.id x)

/-- The entry of a loop is on its path. -/
theorem onChain_start {scope : LoopScope} (h : scope.start ≠ "") : w.OnChain scope scope.start :=
  .inl ⟨h, .refl⟩

/-- What is in front of the first node of a chain leads to all of it. -/
theorem reflTransGen_of_chain {R : String → String → Prop} {a : String} {l : List String}
    (h : (a :: l).IsChain R) {x : String} (hx : x ∈ l) : Relation.TransGen R a x := by
  induction l generalizing a with
  | nil => cases hx
  | cons b rest ih =>
    obtain ⟨hab, htail⟩ := List.isChain_cons_cons.mp h
    rcases List.mem_cons.mp hx with rfl | hx
    · exact .single hab
    · exact .head hab (ih htail hx)

/-- The walk comes to the nodes that the first one leads to. -/
theorem Walked.mem_iff {scope : LoopScope} {owned body walked : List String} {current : String}
    (h : w.Walked scope owned current body walked) (x : String) :
    x ∈ walked ↔ Relation.TransGen (w.Follows scope) current x := by
  constructor
  · exact reflTransGen_of_chain h.chain
  · intro hx
    induction hx with
    | single hstep =>
      exact mem_tail_of_chain (R := w.Follows scope) Follows.unique h.chain h.final List.mem_cons_self hstep
    | tail _ hstep ih =>
      exact mem_tail_of_chain (R := w.Follows scope) Follows.unique h.chain h.final (List.mem_cons_of_mem _ ih) hstep

/-- What the body of a loop is, where the loop has one. -/
structure IsBody (w : Canvas) (scope : LoopScope) (owned body : List String) : Prop where
  linear : body.IsChain w.Linked
  nodup : body.Nodup
  mem_iff : ∀ x, x ∈ body ↔ w.OnChain scope x
  /-- Every node but the entry was checked. -/
  checked : ∀ x ∈ body, (scope.start ≠ "" ∧ x = scope.start) ∨ w.Checked scope owned x

/-- The nodes of a walk from the entry, with the entry. -/
theorem Walked.mem_entry_iff {scope : LoopScope} {owned body walked : List String}
    (h : w.Walked scope owned scope.start body walked) (hstart : scope.start ≠ "") (x : String) :
    (x = scope.start ∨ x ∈ walked) ↔ w.OnChain scope x := by
  have hiff : x = scope.start ∨ x ∈ walked ↔
      Relation.ReflTransGen (w.Follows scope) scope.start x := by
    rw [h.mem_iff, Relation.reflTransGen_iff_eq_or_transGen]
  rw [hiff]
  unfold OnChain
  simp [hstart]

/-- The nodes of a walk from the loop node. -/
theorem isBody_of_walked {scope : LoopScope} {owned walked : List String} (hstart : scope.start = "")
    (h : w.Walked scope owned scope.id [] walked) : w.IsBody scope owned walked where
  linear := (h.chain.imp fun _ _ => Follows.linked).tail
  nodup := h.nodup
  mem_iff x := by
    rw [h.mem_iff]
    unfold OnChain
    simp [hstart]
  checked x hx := .inr (h.checked x hx)

/-- The nodes of a walk from the entry, in a body with it. -/
theorem isBody_of_entry {scope : LoopScope} {owned walked body : List String}
    (hstart : scope.start ≠ "") (h : w.Walked scope owned scope.start [] walked)
    (hchain : body.IsChain (w.Follows scope)) (hnodup : body.Nodup)
    (hmem : ∀ x, x ∈ body ↔ x = scope.start ∨ x ∈ walked) : w.IsBody scope owned body where
  linear := hchain.imp fun _ _ => Follows.linked
  nodup := hnodup
  mem_iff x := (hmem x).trans (h.mem_entry_iff hstart x)
  checked x hx := by
    rcases (hmem x).mp hx with hx | hx
    · exact .inl ⟨hstart, hx⟩
    · exact .inr (h.checked x hx)

/-- A loop whose entry is its end has a walk of no steps. -/
theorem Walked.eq_nil {scope : LoopScope} {owned body walked : List String}
    (hlast : scope.last ≠ "") (h : w.Walked scope owned scope.last body walked) : walked = [] := by
  cases walked with
  | nil => rfl
  | cons x rest => exact absurd (List.isChain_cons_cons.mp h.chain).1 (not_follows_last hlast x)

/-- The body of a loop whose walk has ended. -/
theorem isBody_of_close {scope : LoopScope} {owned walked body : List String} {reached : Bool}
    (hwalked : w.Walked scope owned scope.first [] walked)
    (h : scope.close walked reached = .ok body) : w.IsBody scope owned body := by
  obtain ⟨body', hcut, h⟩ := Except.bind_eq_ok.mp h
  have hsame : body' = body := by
    split at h
    · cases h
    · exact Except.ok.inj h
  subst hsame
  clear h
  by_cases hstart : scope.start = ""
  · have hfirst : scope.first = scope.id := if_neg (not_not.mpr hstart)
    have hbody : walked = body' := by
      unfold LoopScope.cut at hcut
      rw [if_neg (not_not.mpr hstart)] at hcut
      split at hcut
      · cases hcut
      · exact Except.ok.inj hcut
    exact hbody ▸ isBody_of_walked hstart (hfirst ▸ hwalked)
  · have hfirst : scope.first = scope.start := if_pos hstart
    rw [hfirst] at hwalked
    -- The three forms of the body have the same nodes, and each is a chain.
    obtain ⟨whole, hchain, hnodup, hmem, hwhole⟩ : ∃ whole : List String,
        whole.IsChain (w.Follows scope) ∧ whole.Nodup ∧
        (∀ x, x ∈ whole ↔ x = scope.start ∨ x ∈ walked) ∧
        whole = if scope.start = scope.last then [scope.start]
          else if scope.start ∈ walked then walked else scope.start :: walked := by
      refine ⟨_, ?_, ?_, ?_, rfl⟩
      · split_ifs
        · exact List.isChain_singleton _
        · exact hwalked.chain.tail
        · exact hwalked.chain
      · split_ifs with hend hin
        · exact List.nodup_singleton _
        · exact hwalked.nodup
        · exact List.nodup_cons.mpr ⟨hin, hwalked.nodup⟩
      · intro x
        split_ifs with hend hin
        · rw [hend] at hwalked hstart
          simp [hwalked.eq_nil hstart]
        · constructor
          · exact .inr
          · rintro (rfl | hx)
            · exact hin
            · exact hx
        · exact List.mem_cons
    have hbody : body' = whole := by
      unfold LoopScope.cut at hcut
      rw [if_pos hstart] at hcut
      simp only [← hwhole] at hcut
      split_ifs at hcut with hlast hreached
      · exact (Except.ok.inj hcut).symm
      · rw [← Except.ok.inj hcut]
        exact take_idxOf_of_final hchain (not_follows_last hlast)
    rw [hbody]
    exact isBody_of_entry hstart hwalked hchain hnodup hmem

end Canvas

end DeviceShell.Studio
