import Mathlib.Data.Set.Insert
import Mathlib.Logic.Function.Basic

/-!
# Leases that are lent

A lease gives a resource to one party at a time: to a tenant while it runs, or to an owner. An owner
may lend its lease to a tenant, and gets it back when the tenant ends, if the owner is still known
then. `Lending.Sound` says that leases, tenants and owners agree; each operation keeps it, under the
conditions that its lemma names.
-/

namespace DeviceShell

/-- Leases on resources in `ρ`, for tenants and owners in `η`. -/
@[ext]
structure Lending (ρ η : Type) where
  /-- Who has the lease of a resource. -/
  lease : ρ → Option η
  /-- The resource on which a tenant runs. -/
  runs : η → Option ρ
  /-- The owner that a tenant has its lease from. -/
  lender : η → Option η
  /-- The owners that get their lease back. -/
  known : Set η
  /-- The resources that owners have acquired and not given up. -/
  holds : Set (ρ × η)

namespace Lending

open Function

variable {ρ η : Type} [DecidableEq ρ] [DecidableEq η]

/-! ## Operations -/

/-- A tenant begins on a resource, under the lease of an owner or of nobody. -/
def begin (s : Lending ρ η) (r : ρ) (t : η) (lender : Option η) : Lending ρ η :=
  { s with
    lease := update s.lease r (some t)
    runs := update s.runs t (some r)
    lender := update s.lender t lender }

open Classical in
/-- Who has the lease of a tenant's resource after the tenant has ended. -/
noncomputable def heir (s : Lending ρ η) (t : η) : Option η :=
  (s.lender t).filter fun o => o ∈ s.known

omit [DecidableEq ρ] [DecidableEq η] in
theorem heir_of_known {s : Lending ρ η} {t o : η} (hlender : s.lender t = some o)
    (ho : o ∈ s.known) : s.heir t = some o := by
  simp [heir, hlender, ho]

omit [DecidableEq ρ] [DecidableEq η] in
theorem heir_of_not_known {s : Lending ρ η} {t : η} (h : ∀ o, s.lender t = some o → o ∉ s.known) :
    s.heir t = none := by
  cases hlender : s.lender t with
  | none => simp [heir, hlender]
  | some o => simp [heir, hlender, h o hlender]

/-- A tenant ends, and its lease goes back. -/
noncomputable def finish (s : Lending ρ η) (r : ρ) (t : η) : Lending ρ η :=
  { s with
    lease := update s.lease r (s.heir t)
    runs := update s.runs t none
    lender := update s.lender t none }

/-- An owner acquires the lease of a resource. -/
def acquire (s : Lending ρ η) (r : ρ) (o : η) : Lending ρ η :=
  { s with
    lease := update s.lease r (some o)
    known := insert o s.known
    holds := insert (r, o) s.holds }

/-- An owner gives up a resource, whose lease may be with a tenant. -/
def release (s : Lending ρ η) (r : ρ) (o : η) : Lending ρ η :=
  { s with
    lease := if s.lease r = some o then update s.lease r none else s.lease
    known := s.known \ {o}
    holds := s.holds \ {(r, o)} }

/-! ## The invariant -/

/-- Leases, tenants and owners agree. -/
structure Sound (s : Lending ρ η) : Prop where
  /-- A tenant has the lease of the resource on which it runs. -/
  leased : ∀ t r, s.runs t = some r → s.lease r = some t
  /-- Who has a lease runs on the resource or has acquired it. -/
  held : ∀ r h, s.lease r = some h → s.runs h = some r ∨ (r, h) ∈ s.holds
  /-- What an owner has acquired is leased to it or lent by it. -/
  owned : ∀ r o, (r, o) ∈ s.holds →
    s.lease r = some o ∨ ∃ t, s.runs t = some r ∧ s.lender t = some o
  /-- The owners that are known are those that have acquired something. -/
  known : ∀ o, o ∈ s.known ↔ ∃ r, (r, o) ∈ s.holds
  /-- A tenant that has its lease from an owner runs, on what the owner has acquired. -/
  lent : ∀ t o, s.lender t = some o → ∃ r, s.runs t = some r ∧ (o ∈ s.known → (r, o) ∈ s.holds)
  /-- An owner acquires one resource at a time. -/
  single : ∀ r r' o, (r, o) ∈ s.holds → (r', o) ∈ s.holds → r = r'
  /-- An owner does not run. -/
  apart : ∀ o ∈ s.known, s.runs o = none

variable {s : Lending ρ η} {r : ρ} {t o : η}

namespace Sound

omit [DecidableEq ρ] [DecidableEq η] in
/-- Two tenants do not run on one resource. -/
theorem exclusive (h : Sound s) {t t' : η} (ht : s.runs t = some r) (ht' : s.runs t' = some r) :
    t = t' := by
  have hlease := h.leased t r ht
  rw [h.leased t' r ht'] at hlease
  exact (Option.some.inj hlease).symm

omit [DecidableEq ρ] [DecidableEq η] in
/-- A resource is leased while a tenant runs on it or an owner has acquired it, and only then. -/
theorem leased_iff (h : Sound s) (r : ρ) :
    (s.lease r).isSome ↔ (∃ t, s.runs t = some r) ∨ ∃ o, (r, o) ∈ s.holds := by
  constructor
  · intro hsome
    obtain ⟨holder, hholder⟩ := Option.isSome_iff_exists.mp hsome
    exact (h.held r holder hholder).imp (fun hruns => ⟨holder, hruns⟩) fun hmem => ⟨holder, hmem⟩
  · rintro (⟨t, ht⟩ | ⟨o, ho⟩)
    · rw [h.leased t r ht]
      rfl
    · rcases h.owned r o ho with hlease | ⟨t, ht, -⟩
      · rw [hlease]
        rfl
      · rw [h.leased t r ht]
        rfl

omit [DecidableEq ρ] [DecidableEq η] in
/-- An owner that has the lease of a resource has acquired it. -/
theorem acquired (h : Sound s) (hlease : s.lease r = some o) (ho : o ∈ s.known) :
    (r, o) ∈ s.holds := by
  rcases h.held r o hlease with hruns | hmem
  · rw [h.apart o ho] at hruns
    exact absurd hruns (by simp)
  · exact hmem

/-- A tenant that does not run may begin on a resource that nobody uses, or under the lease of an
owner. -/
theorem begin (h : Sound s) {lender : Option η} (hlease : s.lease r = lender)
    (hlender : ∀ o, lender = some o → o ∈ s.known) (hidle : s.runs t = none)
    (hapart : t ∉ s.known) : Sound (s.begin r t lender) := by
  have hother : ∀ t' r', s.runs t' = some r' → t' ≠ t := by
    rintro t' r' hruns rfl
    rw [hidle] at hruns
    exact absurd hruns (by simp)
  have hfree : ∀ t', s.runs t' ≠ some r := by
    intro t' hruns
    have hsome := h.leased t' r hruns
    rw [hlease] at hsome
    have hnone := h.apart t' (hlender t' hsome)
    rw [hruns] at hnone
    exact absurd hnone (by simp)
  constructor
  · intro t' r' hruns
    by_cases heq : t' = t
    · subst heq
      have hr : r = r' := by simpa [Lending.begin] using hruns
      simp [Lending.begin, hr]
    · have hruns' : s.runs t' = some r' := by simpa [Lending.begin, heq] using hruns
      have hne : r' ≠ r := fun hr => hfree t' (hr ▸ hruns')
      simpa [Lending.begin, hne] using h.leased t' r' hruns'
  · intro r' holder hholder
    by_cases hr : r' = r
    · subst hr
      have heq : t = holder := by simpa [Lending.begin] using hholder
      exact .inl (by simp [Lending.begin, heq])
    · have hholder' : s.lease r' = some holder := by simpa [Lending.begin, hr] using hholder
      rcases h.held r' holder hholder' with hruns | hmem
      · exact .inl (by simpa [Lending.begin, hother _ _ hruns] using hruns)
      · exact .inr hmem
  · intro r' o hmem
    have howned := h.owned r' o hmem
    by_cases hr : r' = r
    · subst hr
      right
      refine ⟨t, by simp [Lending.begin], ?_⟩
      have hlent : s.lease r' = some o :=
        howned.resolve_right fun hlent => hlent.elim fun t' ht' => hfree t' ht'.1
      simp [Lending.begin, ← hlease, hlent]
    · rcases howned with hlease' | ⟨t', ht', hlender'⟩
      · exact .inl (by simpa [Lending.begin, hr] using hlease')
      · refine .inr ⟨t', ?_, ?_⟩ <;> simpa [Lending.begin, hother _ _ ht']
  · exact h.known
  · intro t' o hlender'
    by_cases heq : t' = t
    · subst heq
      have ho : lender = some o := by simpa [Lending.begin] using hlender'
      exact ⟨r, by simp [Lending.begin], fun hknown => h.acquired (hlease.trans ho) hknown⟩
    · have hlender'' : s.lender t' = some o := by simpa [Lending.begin, heq] using hlender'
      obtain ⟨r', hruns, hmem⟩ := h.lent t' o hlender''
      exact ⟨r', by simpa [Lending.begin, heq] using hruns, hmem⟩
  · exact h.single
  · intro o ho
    have hne : o ≠ t := fun heq => hapart (heq ▸ ho)
    simpa [Lending.begin, hne] using h.apart o ho

/-- A tenant that runs may end. -/
theorem finish (h : Sound s) (hruns : s.runs t = some r) : Sound (s.finish r t) := by
  have hother : ∀ t' r', s.runs t' = some r' → t' ≠ t → r' ≠ r := by
    rintro t' r' hruns' hne rfl
    exact hne (h.exclusive hruns' hruns)
  have hheir : ∀ o, s.heir t = some o ↔ s.lender t = some o ∧ o ∈ s.known := by
    intro o
    simp [heir, Option.filter_eq_some_iff]
  constructor
  · intro t' r' hruns'
    have hne : t' ≠ t := by
      rintro rfl
      exact absurd hruns' (by simp [Lending.finish])
    have hruns'' : s.runs t' = some r' := by simpa [Lending.finish, hne] using hruns'
    simpa [Lending.finish, hother t' r' hruns'' hne] using h.leased t' r' hruns''
  · intro r' holder hholder
    by_cases hr : r' = r
    · subst hr
      have hheld : s.heir t = some holder := by simpa [Lending.finish] using hholder
      obtain ⟨hlender, hknown⟩ := (hheir holder).mp hheld
      obtain ⟨r'', hruns', hmem⟩ := h.lent t holder hlender
      have heq : r' = r'' := Option.some.inj (hruns.symm.trans hruns')
      exact .inr (heq ▸ hmem hknown)
    · have hholder' : s.lease r' = some holder := by simpa [Lending.finish, hr] using hholder
      rcases h.held r' holder hholder' with hruns' | hmem
      · have hne : holder ≠ t := by
          rintro rfl
          exact hr (Option.some.inj (hruns'.symm.trans hruns))
        exact .inl (by simpa [Lending.finish, hne] using hruns')
      · exact .inr hmem
  · intro r' o hmem
    have hknown : o ∈ s.known := (h.known o).mpr ⟨r', hmem⟩
    by_cases hr : r' = r
    · subst hr
      left
      have hlender : s.lender t = some o := by
        rcases h.owned r' o hmem with hlease | ⟨t', ht', hlender⟩
        · have heq := hlease.symm.trans (h.leased t r' hruns)
          have hnone := h.apart o hknown
          rw [Option.some.inj heq, hruns] at hnone
          exact absurd hnone (by simp)
        · rwa [h.exclusive hruns ht']
      simpa [Lending.finish] using (hheir o).mpr ⟨hlender, hknown⟩
    · rcases h.owned r' o hmem with hlease | ⟨t', ht', hlender⟩
      · exact .inl (by simpa [Lending.finish, hr] using hlease)
      · have hne : t' ≠ t := by
          rintro rfl
          exact hr (Option.some.inj (ht'.symm.trans hruns))
        refine .inr ⟨t', ?_, ?_⟩ <;> simpa [Lending.finish, hne]
  · exact h.known
  · intro t' o hlender
    have hne : t' ≠ t := by
      rintro rfl
      exact absurd hlender (by simp [Lending.finish])
    obtain ⟨r', hruns', hmem⟩ := h.lent t' o (by simpa [Lending.finish, hne] using hlender)
    exact ⟨r', by simpa [Lending.finish, hne] using hruns', hmem⟩
  · exact h.single
  · intro o ho
    by_cases heq : o = t
    · simp [Lending.finish, heq]
    · simpa [Lending.finish, heq] using h.apart o ho

omit [DecidableEq η] in
/-- An owner may acquire a resource that nobody else uses, if it has acquired no other one and no
tenant on another one has its lease from it. -/
theorem acquire (h : Sound s) (hfree : ∀ holder, s.lease r = some holder → holder = o)
    (hidle : s.runs o = none) (hsingle : ∀ r', (r', o) ∈ s.holds → r' = r)
    (hlent : ∀ t r', s.lender t = some o → s.runs t = some r' → r' = r) :
    Sound (s.acquire r o) := by
  have hvacant : ∀ t, s.runs t ≠ some r := by
    intro t hruns
    have heq := hfree t (h.leased t r hruns)
    rw [heq, hidle] at hruns
    exact absurd hruns (by simp)
  constructor
  · intro t' r' hruns
    have hne : r' ≠ r := fun hr => hvacant t' (hr ▸ hruns)
    simpa [Lending.acquire, hne] using h.leased t' r' hruns
  · intro r' holder hholder
    by_cases hr : r' = r
    · subst hr
      have heq : o = holder := by simpa [Lending.acquire] using hholder
      exact .inr (by simp [Lending.acquire, heq])
    · have hholder' : s.lease r' = some holder := by simpa [Lending.acquire, hr] using hholder
      exact (h.held r' holder hholder').imp id fun hmem => Set.mem_insert_of_mem _ hmem
  · intro r' o' hmem
    by_cases hr : r' = r
    · subst hr
      rcases hmem with heq | hmem
      · have ho : o' = o := (Prod.mk.inj heq).2
        exact .inl (by simp [Lending.acquire, ho])
      · rcases h.owned r' o' hmem with hlease | ⟨t', ht', -⟩
        · exact .inl (by simp [Lending.acquire, hfree o' hlease])
        · exact absurd ht' (hvacant t')
    · rcases hmem with heq | hmem
      · exact absurd (Prod.mk.inj heq).1 hr
      · exact (h.owned r' o' hmem).imp (fun hlease => by simpa [Lending.acquire, hr]) id
  · intro o'
    constructor
    · rintro (rfl | ho')
      · exact ⟨r, Set.mem_insert _ _⟩
      · obtain ⟨r', hmem⟩ := (h.known o').mp ho'
        exact ⟨r', Set.mem_insert_of_mem _ hmem⟩
    · rintro ⟨r', heq | hmem⟩
      · exact .inl (Prod.mk.inj heq).2
      · exact .inr ((h.known o').mpr ⟨r', hmem⟩)
  · intro t' o' hlender
    obtain ⟨r', hruns, hmem⟩ := h.lent t' o' hlender
    refine ⟨r', hruns, ?_⟩
    rintro (rfl | ho')
    · exact absurd (hlent t' r' hlender hruns ▸ hruns) (hvacant t')
    · exact Set.mem_insert_of_mem _ (hmem ho')
  · rintro r₁ r₂ o' (heq₁ | hmem₁) (heq₂ | hmem₂)
    · exact (Prod.mk.inj heq₁).1.trans (Prod.mk.inj heq₂).1.symm
    · obtain ⟨rfl, rfl⟩ := Prod.mk.inj heq₁
      exact (hsingle r₂ hmem₂).symm
    · obtain ⟨rfl, rfl⟩ := Prod.mk.inj heq₂
      exact hsingle r₁ hmem₁
    · exact h.single r₁ r₂ o' hmem₁ hmem₂
  · rintro o' (rfl | ho')
    · exact hidle
    · exact h.apart o' ho'

/-- An owner may give up a resource, if it has acquired no other one and, where it has the lease,
has acquired this one. -/
theorem release (h : Sound s) (hsingle : ∀ r', (r', o) ∈ s.holds → r' = r)
    (hheld : s.lease r = some o → (r, o) ∈ s.holds) : Sound (s.release r o) := by
  have hknown : ∀ o', o' ∈ (s.release r o).known ↔ o' ∈ s.known ∧ o' ≠ o := by
    intro o'
    simp [Lending.release]
  have hholds : ∀ r' o', (r', o') ∈ (s.release r o).holds ↔ (r', o') ∈ s.holds ∧ o' ≠ o := by
    intro r' o'
    simp only [Lending.release, Set.mem_sdiff, Set.mem_singleton_iff, Prod.mk.injEq]
    constructor
    · rintro ⟨hmem, hne⟩
      refine ⟨hmem, ?_⟩
      rintro rfl
      exact hne ⟨hsingle r' hmem, rfl⟩
    · rintro ⟨hmem, hne⟩
      exact ⟨hmem, fun heq => hne heq.2⟩
  have hlease : ∀ r' holder, (s.release r o).lease r' = some holder ↔
      s.lease r' = some holder ∧ ¬(r' = r ∧ holder = o) := by
    intro r' holder
    by_cases hmine : s.lease r = some o
    · by_cases hr : r' = r
      · subst hr
        simp [Lending.release, hmine, eq_comm]
      · simp [Lending.release, hmine, hr]
    · simp only [Lending.release, if_neg hmine]
      refine ⟨fun heq => ⟨heq, ?_⟩, And.left⟩
      rintro ⟨rfl, rfl⟩
      exact hmine heq
  constructor
  · intro t' r' hruns
    have hlease' := h.leased t' r' hruns
    refine (hlease r' t').mpr ⟨hlease', ?_⟩
    rintro ⟨rfl, rfl⟩
    have hnone := h.apart t' ((h.known t').mpr ⟨r', hheld hlease'⟩)
    have hruns' : s.runs t' = some r' := hruns
    rw [hruns'] at hnone
    exact absurd hnone (by simp)
  · intro r' holder hholder
    obtain ⟨hholder', hne⟩ := (hlease r' holder).mp hholder
    rcases h.held r' holder hholder' with hruns | hmem
    · exact .inl hruns
    · refine .inr ((hholds r' holder).mpr ⟨hmem, ?_⟩)
      rintro rfl
      exact hne ⟨hsingle r' hmem, rfl⟩
  · intro r' o' hmem
    obtain ⟨hmem', hne⟩ := (hholds r' o').mp hmem
    exact (h.owned r' o' hmem').imp (fun heq => (hlease r' o').mpr ⟨heq, fun heq => hne heq.2⟩) id
  · intro o'
    rw [hknown, h.known]
    constructor
    · rintro ⟨⟨r', hmem⟩, hne⟩
      exact ⟨r', (hholds r' o').mpr ⟨hmem, hne⟩⟩
    · rintro ⟨r', hmem⟩
      obtain ⟨hmem', hne⟩ := (hholds r' o').mp hmem
      exact ⟨⟨r', hmem'⟩, hne⟩
  · intro t' o' hlender
    obtain ⟨r', hruns, hmem⟩ := h.lent t' o' hlender
    refine ⟨r', hruns, fun hmem' => ?_⟩
    obtain ⟨hmem'', hne⟩ := (hknown o').mp hmem'
    exact (hholds r' o').mpr ⟨hmem hmem'', hne⟩
  · intro r₁ r₂ o' hmem₁ hmem₂
    exact h.single r₁ r₂ o' ((hholds r₁ o').mp hmem₁).1 ((hholds r₂ o').mp hmem₂).1
  · intro o' ho'
    exact h.apart o' ((hknown o').mp ho').1

end Sound

end Lending

end DeviceShell
