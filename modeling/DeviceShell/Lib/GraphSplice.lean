import Mathlib.Data.Set.Finite.Basic
import Mathlib.Logic.Relation
import Mathlib.Order.WellFoundedSet

/-!
# A vertex replaced by a graph

A graph is a relation on vertices. `Spliced P C M v` is the graph of `P` in which the edges to the
vertex `v` lead to the roots of a graph `C` on new vertices `M` instead, whose terminals lead to `v`.
Splicing acyclic graphs gives an acyclic graph (`acyclic_spliced`), in which the vertices of `P` reach
each other as they did in `P` (`transGen_spliced_iff`), those of `C` as they did in `C`
(`transGen_inner_iff`), and every vertex of `C` reaches `v` (`transGen_spliced_to`).
-/

namespace DeviceShell.GraphSplice

open Relation

variable {V : Type}

/-- No vertex leads back to itself. -/
def Acyclic (E : V → V → Prop) : Prop := ∀ x, ¬ TransGen E x x

/-- All edges are among the given vertices. -/
def Within (M : Set V) (E : V → V → Prop) : Prop := ∀ a b, E a b → a ∈ M ∧ b ∈ M

/-- The vertices of a graph to which no edge leads. -/
def roots (M : Set V) (E : V → V → Prop) : Set V := {m | m ∈ M ∧ ∀ a, ¬ E a m}

/-- The vertices of a graph from which no edge leads. -/
def terminals (M : Set V) (E : V → V → Prop) : Set V := {m | m ∈ M ∧ ∀ b, ¬ E m b}

/-- In a finite acyclic graph every vertex leads to a terminal. -/
theorem exists_terminal {M : Set V} {E : V → V → Prop} (hfin : M.Finite) (hwithin : Within M E)
    (hacyclic : Acyclic E) {m : V} (hm : m ∈ M) : ∃ t ∈ terminals M E, ReflTransGen E m t := by
  let Above (a b : V) : Prop := TransGen E b a
  have : IsStrictOrder V Above :=
    { irrefl := hacyclic
      trans := fun _ _ _ hab hbc => hbc.trans hab }
  have hwf : M.WellFoundedOn Above := hfin.wellFoundedOn
  refine hwf.induction hm (P := fun m => ∃ t ∈ terminals M E, ReflTransGen E m t)
    fun m hm ih => ?_
  by_cases hend : ∀ b, ¬ E m b
  · exact ⟨m, ⟨hm, hend⟩, .refl⟩
  · obtain ⟨b, hb⟩ := not_forall_not.1 hend
    obtain ⟨t, ht, hpath⟩ := ih b (hwithin m b hb).2 (.single hb)
    exact ⟨t, ht, .head hb hpath⟩

/-- In a finite acyclic graph a root leads to every vertex. -/
theorem exists_root {M : Set V} {E : V → V → Prop} (hfin : M.Finite) (hwithin : Within M E)
    (hacyclic : Acyclic E) {m : V} (hm : m ∈ M) : ∃ r ∈ roots M E, ReflTransGen E r m := by
  have hback : Within M (Function.swap E) := fun a b hab => (hwithin b a hab).symm
  have hacyclic' : Acyclic (Function.swap E) := fun x hx => hacyclic x (transGen_swap.1 hx)
  obtain ⟨r, hr, hpath⟩ := exists_terminal hfin hback hacyclic' hm
  exact ⟨r, hr, reflTransGen_swap.1 hpath⟩

/-! ## Renamed graphs -/

variable {W : Type}

/-- Renamed vertices reach each other as the vertices do. -/
theorem transGen_map_iff {E : V → V → Prop} {f : V → W} (hf : Function.Injective f) {a b : V} :
    TransGen (Relation.Map E f f) (f a) (f b) ↔ TransGen E a b := by
  constructor
  · intro hab
    generalize hy : f b = y at hab
    induction hab generalizing b with
    | single hstep =>
      obtain ⟨a', b', hE, ha, rfl⟩ := hstep
      obtain rfl := hf ha
      obtain rfl := hf hy
      exact .single hE
    | tail _ hstep ih =>
      obtain ⟨a', b', hE, ha, rfl⟩ := hstep
      obtain rfl := hf hy
      exact (ih ha).tail hE
  · exact TransGen.lift f (fun x y hxy => ⟨x, y, hxy, rfl, rfl⟩) a b

theorem acyclic_map {E : V → V → Prop} {f : V → W} (hf : Function.Injective f) (h : Acyclic E) :
    Acyclic (Relation.Map E f f) := by
  intro x hx
  obtain ⟨y, hstep, -⟩ := TransGen.head'_iff.1 hx
  obtain ⟨a, b, -, rfl, -⟩ := hstep
  exact h a ((transGen_map_iff hf).1 hx)

theorem within_map {M : Set V} {E : V → V → Prop} (f : V → W) (h : Within M E) :
    Within (f '' M) (Relation.Map E f f) := by
  rintro _ _ ⟨a, b, hE, rfl, rfl⟩
  exact ⟨⟨a, (h a b hE).1, rfl⟩, ⟨b, (h a b hE).2, rfl⟩⟩

theorem mem_roots_map {M : Set V} {E : V → V → Prop} {f : V → W} (hf : Function.Injective f) {a : V} :
    f a ∈ roots (f '' M) (Relation.Map E f f) ↔ a ∈ roots M E := by
  constructor
  · rintro ⟨⟨a', hmem, heq⟩, hnone⟩
    obtain rfl := hf heq
    exact ⟨hmem, fun b hE => hnone (f b) ⟨b, a', hE, rfl, rfl⟩⟩
  · rintro ⟨hmem, hnone⟩
    refine ⟨⟨a, hmem, rfl⟩, ?_⟩
    rintro _ ⟨b, a', hE, -, heq⟩
    obtain rfl := hf heq
    exact hnone b hE

theorem mem_terminals_map {M : Set V} {E : V → V → Prop} {f : V → W} (hf : Function.Injective f)
    {a : V} : f a ∈ terminals (f '' M) (Relation.Map E f f) ↔ a ∈ terminals M E := by
  constructor
  · rintro ⟨⟨a', hmem, heq⟩, hnone⟩
    obtain rfl := hf heq
    exact ⟨hmem, fun b hE => hnone (f b) ⟨a', b, hE, rfl, rfl⟩⟩
  · rintro ⟨hmem, hnone⟩
    refine ⟨⟨a, hmem, rfl⟩, ?_⟩
    rintro _ ⟨a', b, hE, heq, -⟩
    obtain rfl := hf heq
    exact hnone b hE

/-! ## Splices -/

/-- The graph in which `C` stands in front of `v`. -/
inductive Spliced (P C : V → V → Prop) (M : Set V) (v : V) : V → V → Prop
  | kept {a b : V} (h : P a b) (ha : a ≠ v) (hb : b ≠ v) : Spliced P C M v a b
  | enter {a b : V} (h : P a v) (hb : b ∈ roots M C) : Spliced P C M v a b
  | bypass {a : V} (h : P a v) (hnone : roots M C = ∅) : Spliced P C M v a v
  | leave {a : V} (ha : a ∈ terminals M C) (hsome : (roots M C).Nonempty) : Spliced P C M v a v
  | out {b : V} (h : P v b) : Spliced P C M v v b
  | inner {a b : V} (h : C a b) : Spliced P C M v a b

/-- What a splice is made of: the graph `P` on `N` with the vertex `v`, and the graph `C` on other
vertices. -/
structure Splice (P C : V → V → Prop) (N M : Set V) (v : V) : Prop where
  mem : v ∈ N
  outer : Within N P
  inner : Within M C
  disjoint : ∀ m ∈ M, m ∉ N

variable {P C : V → V → Prop} {N M : Set V} {v : V}

/-- A step within the graph that stands in front of `v`. -/
def Inner (C : V → V → Prop) (M : Set V) (v a b : V) : Prop := C a b ∨ a ∈ terminals M C ∧ b = v

open Classical in
/-- The vertex of `P` for which a vertex stands. -/
noncomputable def owner (M : Set V) (v x : V) : V := if x ∈ M then v else x

theorem owner_of_mem {x : V} (hx : x ∈ M) : owner M v x = v := if_pos hx

namespace Splice

variable (h : Splice P C N M v)

include h

theorem owner_outer {x : V} (hx : x ∈ N) : owner M v x = x :=
  if_neg fun hm => h.disjoint x hm hx

theorem within : Within (N ∪ M) (Spliced P C M v) := by
  intro a b hab
  cases hab with
  | kept hP _ _ => exact ⟨.inl (h.outer _ _ hP).1, .inl (h.outer _ _ hP).2⟩
  | enter hP hb => exact ⟨.inl (h.outer _ _ hP).1, .inr hb.1⟩
  | bypass hP _ => exact ⟨.inl (h.outer _ _ hP).1, .inl h.mem⟩
  | leave ha _ => exact ⟨.inr ha.1, .inl h.mem⟩
  | out hP => exact ⟨.inl h.mem, .inl (h.outer _ _ hP).2⟩
  | inner hC => exact ⟨.inr (h.inner _ _ hC).1, .inr (h.inner _ _ hC).2⟩

/-- A step of the spliced graph is a step of `P`, or it stays in front of `v`. -/
theorem step_owner {a b : V} (hab : Spliced P C M v a b) :
    P (owner M v a) (owner M v b) ∨
      (owner M v a = v ∧ owner M v b = v ∧ Inner C M v a b) := by
  have hv : owner M v v = v := h.owner_outer h.mem
  cases hab with
  | kept hP _ _ =>
    rw [h.owner_outer (h.outer _ _ hP).1, h.owner_outer (h.outer _ _ hP).2]
    exact .inl hP
  | enter hP hb =>
    rw [h.owner_outer (h.outer _ _ hP).1, owner_of_mem hb.1]
    exact .inl hP
  | bypass hP _ =>
    rw [h.owner_outer (h.outer _ _ hP).1, hv]
    exact .inl hP
  | leave ha _ => exact .inr ⟨owner_of_mem ha.1, hv, .inr ⟨ha, rfl⟩⟩
  | out hP =>
    rw [hv, h.owner_outer (h.outer _ _ hP).2]
    exact .inl hP
  | inner hC =>
    have hmem := h.inner _ _ hC
    exact .inr ⟨owner_of_mem hmem.1, owner_of_mem hmem.2, .inl hC⟩

/-- A path of the spliced graph is a path of `P`, or it stays in front of `v`. -/
theorem path_owner {a b : V} (hab : TransGen (Spliced P C M v) a b) :
    TransGen P (owner M v a) (owner M v b) ∨
      (owner M v a = v ∧ owner M v b = v ∧ TransGen (Inner C M v) a b) := by
  induction hab with
  | single hstep =>
    rcases h.step_owner hstep with hP | ⟨ha, hb, hin⟩
    · exact .inl (.single hP)
    · exact .inr ⟨ha, hb, .single hin⟩
  | tail _ hstep ih =>
    rcases h.step_owner hstep with hP | ⟨hb, hc, hin⟩ <;> rcases ih with hpath | ⟨ha, hb', hpath⟩
    · exact .inl (hpath.tail hP)
    · exact .inl (.single (hb'.trans ha.symm ▸ hP))
    · exact .inl (hb.trans hc.symm ▸ hpath)
    · exact .inr ⟨ha, hc, hpath.tail hin⟩

/-- A path in front of `v` begins in `C` and ends in `v` or follows `C`. -/
theorem path_inner {a b : V} (hab : TransGen (Inner C M v) a b) :
    a ∈ M ∧ (b = v ∨ TransGen C a b) := by
  have hout : v ∉ M := fun hm => h.disjoint v hm h.mem
  induction hab with
  | single hstep =>
    rcases hstep with hC | ⟨ha, rfl⟩
    · exact ⟨(h.inner _ _ hC).1, .inr (.single hC)⟩
    · exact ⟨ha.1, .inl rfl⟩
  | @tail b c _ hstep ih =>
    obtain ⟨ha, rfl | hpath⟩ := ih
    · -- Nothing leads on from `v` here.
      rcases hstep with hC | ⟨hb, -⟩
      · exact absurd (h.inner _ _ hC).1 hout
      · exact absurd hb.1 hout
    · rcases hstep with hC | ⟨-, rfl⟩
      · exact ⟨ha, .inr (hpath.tail hC)⟩
      · exact ⟨ha, .inl rfl⟩

theorem acyclic_spliced (hP : Acyclic P) (hC : Acyclic C) : Acyclic (Spliced P C M v) := by
  intro x hx
  rcases h.path_owner hx with hpath | ⟨-, -, hpath⟩
  · exact hP _ hpath
  · obtain ⟨hmem, rfl | hcycle⟩ := h.path_inner hpath
    · exact h.disjoint _ hmem h.mem
    · exact hC x hcycle

/-- Every vertex of `C` leads to `v`. -/
theorem transGen_spliced_to (hfin : M.Finite) (hC : Acyclic C) (hsome : (roots M C).Nonempty) {m : V}
    (hm : m ∈ M) : TransGen (Spliced P C M v) m v := by
  obtain ⟨t, ht, hpath⟩ := exists_terminal hfin h.inner hC hm
  have hpath' : ReflTransGen (Spliced P C M v) m t :=
    ReflTransGen.mono (fun _ _ hC => Spliced.inner hC) _ _ hpath
  exact TransGen.tail' hpath' (.leave ht hsome)

/-- The vertices of `P` reach each other as in `P`. -/
theorem transGen_spliced_iff (hfin : M.Finite) (hC : Acyclic C) {a b : V} (ha : a ∈ N)
    (hb : b ∈ N) : TransGen (Spliced P C M v) a b ↔ TransGen P a b := by
  constructor
  · intro hab
    rcases h.path_owner hab with hpath | ⟨-, -, hpath⟩
    · rwa [h.owner_outer ha, h.owner_outer hb] at hpath
    · exact absurd ha (h.disjoint a (h.path_inner hpath).1)
  · intro hab
    have hstep : ∀ x y, P x y → TransGen (Spliced P C M v) x y := ?_
    · induction hab with
      | single hxy => exact hstep _ _ hxy
      | tail _ hyz ih => exact (ih (h.outer _ _ hyz).1).trans (hstep _ _ hyz)
    intro x y hxy
    by_cases hx : x = v
    · subst hx
      exact .single (.out hxy)
    by_cases hy : y = v
    · subst hy
      rcases (roots M C).eq_empty_or_nonempty with hnone | hsome
      · exact .single (.bypass hxy hnone)
      · obtain ⟨r, hr⟩ := hsome
        exact .head (.enter hxy hr) (h.transGen_spliced_to hfin hC ⟨r, hr⟩ hr.1)
    · exact .single (.kept hxy hx hy)

/-- The vertices of `C` reach each other as in `C`. -/
theorem transGen_inner_iff (hP : Acyclic P) {a b : V} (ha : a ∈ M) (hb : b ∈ M) :
    TransGen (Spliced P C M v) a b ↔ TransGen C a b := by
  constructor
  · intro hab
    rcases h.path_owner hab with hpath | ⟨-, -, hpath⟩
    · rw [owner_of_mem ha, owner_of_mem hb] at hpath
      exact absurd hpath (hP v)
    · rcases (h.path_inner hpath).2 with rfl | hC
      · exact absurd h.mem (h.disjoint _ hb)
      · exact hC
  · exact TransGen.mono (fun _ _ hC => Spliced.inner hC) _ _

/-- A vertex of `P` reaches those of `C` where it reached `v`. -/
theorem transGen_outer_inner_iff (hfin : M.Finite) (hC : Acyclic C) {a m : V} (ha : a ∈ N)
    (hm : m ∈ M) : TransGen (Spliced P C M v) a m ↔ TransGen P a v := by
  constructor
  · intro ham
    rcases h.path_owner ham with hpath | ⟨-, -, hpath⟩
    · rwa [h.owner_outer ha, owner_of_mem hm] at hpath
    · exact absurd ha (h.disjoint a (h.path_inner hpath).1)
  · intro hav
    obtain ⟨a', hstart, hlast⟩ := TransGen.tail'_iff.1 hav
    obtain ⟨r, hr, hrest⟩ := exists_root hfin h.inner hC hm
    have hrest' : ReflTransGen (Spliced P C M v) r m :=
      ReflTransGen.mono (fun _ _ hC => Spliced.inner hC) _ _ hrest
    have hin : TransGen (Spliced P C M v) a' m := .head' (.enter hlast hr) hrest'
    rcases reflTransGen_iff_eq_or_transGen.1 hstart with rfl | hstart
    · exact hin
    · have ha' : a' ∈ N := (h.outer _ _ hlast).1
      exact ((h.transGen_spliced_iff hfin hC ha ha').2 hstart).trans hin

/-- A vertex of `C` reaches `v` and what `v` reached. -/
theorem transGen_inner_outer_iff (hfin : M.Finite) (hC : Acyclic C) {m b : V} (hm : m ∈ M)
    (hb : b ∈ N) : TransGen (Spliced P C M v) m b ↔ b = v ∨ TransGen P v b := by
  have hto : TransGen (Spliced P C M v) m v := by
    obtain ⟨r, hr, -⟩ := exists_root hfin h.inner hC hm
    exact h.transGen_spliced_to hfin hC ⟨r, hr⟩ hm
  constructor
  · intro hmb
    rcases h.path_owner hmb with hpath | ⟨-, hend, -⟩
    · rw [owner_of_mem hm, h.owner_outer hb] at hpath
      exact .inr hpath
    · rw [h.owner_outer hb] at hend
      exact .inl hend
  · rintro (rfl | hvb)
    · exact hto
    · exact hto.trans ((h.transGen_spliced_iff hfin hC h.mem hb).2 hvb)

end Splice

end DeviceShell.GraphSplice
