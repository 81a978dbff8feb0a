import DeviceShell.Framework.Resources

/-!
# A resource has one owner

What the claims of a coordinator are after any calls, told by what happened to them. `sinceCreated`
is the history of a claim: what happened since `acquire` made it. `Tallied` says that a claim's
reference count is the number of acquisitions in that history less the number of releases, and that
the claim is there as long as the two differ and it has not expired. Every method preserves it, since
the back-end and the clock can only make a method raise, drop expired claims, or choose a token.

`release_owner` is a loop over the claims of the owner and, for each, a loop of releases;
`releaseWhile_released` and `releaseEach_released` show that both end and what they leave.
-/

namespace DeviceShell.Framework

open Stateful

namespace LeaseEvent

/-- The event makes the claim of a resource. -/
def creates (key : ResourceKey) : LeaseEvent → Bool
  | .created k _ => k == key
  | _ => false

/-- The event is an acquisition of a resource by an owner. -/
def acquiredBy (key : ResourceKey) (ownerId : String) : LeaseEvent → Bool
  | .acquired lease => lease.key == key && lease.ownerId == ownerId
  | _ => false

/-- The event is a release of a resource by an owner. -/
def releasedBy (key : ResourceKey) (ownerId : String) : LeaseEvent → Bool
  | .released k o => k == key && o == ownerId
  | _ => false

/-- The event drops the claim of a resource, as expired. -/
def expires (key : ResourceKey) : LeaseEvent → Bool
  | .expired k => k == key
  | _ => false

/-- The event is about the claim of a resource. -/
def about (key : ResourceKey) : LeaseEvent → Bool
  | .created k _ => k == key
  | .acquired lease => lease.key == key
  | .released k _ => k == key
  | .expired k => k == key
  | .returned _ => false

end LeaseEvent

open LeaseEvent

/-- What happened since the claim of a resource was created. -/
def sinceCreated (key : ResourceKey) (history : List LeaseEvent) : List LeaseEvent :=
  history.takeWhile fun e => !e.creates key

/-- The acquisitions of a resource by an owner since its claim was created. -/
def acquisitions (key : ResourceKey) (ownerId : String) (history : List LeaseEvent) : ℕ :=
  (sinceCreated key history).countP (acquiredBy key ownerId)

/-- The releases of a resource by an owner since its claim was created. -/
def releases (key : ResourceKey) (ownerId : String) (history : List LeaseEvent) : ℕ :=
  (sinceCreated key history).countP (releasedBy key ownerId)

/-- Whether the claim of a resource expired since it was created. -/
def expiredSince (key : ResourceKey) (history : List LeaseEvent) : Bool :=
  (sinceCreated key history).any (expires key)

/-- The owner for whom the claim of a resource was last created. -/
def creator (key : ResourceKey) : List LeaseEvent → Option String
  | [] => none
  | .created k ownerId :: rest => if k = key then some ownerId else creator key rest
  | _ :: rest => creator key rest

/-- The owner has a claim on the resource. -/
def LeaseState.Owns (s : LeaseState) (key : ResourceKey) (ownerId : String) : Prop :=
  ∃ lease, s.claims.get? key = some lease ∧ lease.ownerId = ownerId

section History

variable {key : ResourceKey} {ownerId : String} {e : LeaseEvent} {history : List LeaseEvent}

theorem sinceCreated_cons (h : e.creates key = false) :
    sinceCreated key (e :: history) = e :: sinceCreated key history := by
  simp [sinceCreated, h]

theorem acquisitions_cons (h : e.creates key = false) :
    acquisitions key ownerId (e :: history) =
      acquisitions key ownerId history + if e.acquiredBy key ownerId then 1 else 0 := by
  rw [acquisitions, sinceCreated_cons h, List.countP_cons, acquisitions]

theorem releases_cons (h : e.creates key = false) :
    releases key ownerId (e :: history) =
      releases key ownerId history + if e.releasedBy key ownerId then 1 else 0 := by
  rw [releases, sinceCreated_cons h, List.countP_cons, releases]

theorem expiredSince_cons (h : e.creates key = false) :
    expiredSince key (e :: history) = (e.expires key || expiredSince key history) := by
  rw [expiredSince, sinceCreated_cons h, List.any_cons, expiredSince]

theorem creator_cons (h : e.creates key = false) :
    creator key (e :: history) = creator key history := by
  cases e with
  | created k o => simp_all [creator, creates]
  | acquired | returned | released | expired => rfl

/-- A claim that was just created has no history. -/
theorem sinceCreated_created (key : ResourceKey) (ownerId : String) (history : List LeaseEvent) :
    sinceCreated key (.created key ownerId :: history) = [] := by
  simp [sinceCreated, creates]

/-- An event about other resources changes nothing in what is told of this one. -/
structure SameStory (key : ResourceKey) (old new : List LeaseEvent) : Prop where
  acquisitions : ∀ o, acquisitions key o new = acquisitions key o old
  releases : ∀ o, releases key o new = releases key o old
  expired : expiredSince key new = expiredSince key old
  creator : creator key new = creator key old

theorem SameStory.refl (key : ResourceKey) (history : List LeaseEvent) :
    SameStory key history history := ⟨fun _ => rfl, fun _ => rfl, rfl, rfl⟩

theorem SameStory.trans {h₁ h₂ h₃ : List LeaseEvent} (h : SameStory key h₁ h₂)
    (h' : SameStory key h₂ h₃) : SameStory key h₁ h₃ :=
  ⟨fun o => (h'.acquisitions o).trans (h.acquisitions o),
    fun o => (h'.releases o).trans (h.releases o), h'.expired.trans h.expired,
    h'.creator.trans h.creator⟩

/-- An event that is not about the resource. -/
theorem sameStory_cons (h : e.about key = false) : SameStory key history (e :: history) := by
  have hc : e.creates key = false := by
    cases e <;> simp_all [about, creates]
  have ha : ∀ o, e.acquiredBy key o = false := by
    intro o
    cases e <;> simp_all [about, acquiredBy]
  have hr : ∀ o, e.releasedBy key o = false := by
    intro o
    cases e <;> simp_all [about, releasedBy]
  have he : e.expires key = false := by
    cases e <;> simp_all [about, expires]
  constructor
  · intro o
    simp [acquisitions_cons hc, ha o]
  · intro o
    simp [releases_cons hc, hr o]
  · rw [expiredSince_cons hc, he, Bool.false_or]
  · exact creator_cons hc

end History

/-- Two states with the same claims, counts and history. -/
structure SameClaims (s s' : LeaseState) : Prop where
  claims : s'.claims = s.claims
  refs : s'.refs = s.refs
  history : s'.history = s.history

theorem SameClaims.refl (s : LeaseState) : SameClaims s s := ⟨rfl, rfl, rfl⟩

theorem SameClaims.trans {s₁ s₂ s₃ : LeaseState} (h : SameClaims s₁ s₂) (h' : SameClaims s₂ s₃) :
    SameClaims s₁ s₃ :=
  ⟨h'.claims.trans h.claims, h'.refs.trans h.refs, h'.history.trans h.history⟩

/-- What is told of the claims agrees with them. -/
structure Tallied (s : LeaseState) : Prop where
  /-- A claim is stored under its own key. -/
  keyed : ∀ key lease, s.claims.get? key = some lease → lease.key = key
  /-- No key is stored twice. -/
  distinct : s.claims.keys.Nodup
  /-- The owner of a claim has acquired it more often than released it, and the difference is the
  reference count. -/
  counted : ∀ key lease, s.claims.get? key = some lease →
    releases key lease.ownerId s.history < acquisitions key lease.ownerId s.history ∧
      s.refs.get? lease.ownerKey = some (acquisitions key lease.ownerId s.history -
        releases key lease.ownerId s.history)
  /-- Only an owner has references. -/
  owned : ∀ kind resourceId ownerId n, s.refs.get? (kind, resourceId, ownerId) = some n →
    s.Owns (kind, resourceId) ownerId
  /-- A claim is there until it is released as often as acquired, or expires. -/
  live : ∀ key ownerId, s.Owns key ownerId ↔ creator key s.history = some ownerId ∧
    expiredSince key s.history = false ∧
      acquisitions key ownerId s.history ≠ releases key ownerId s.history

theorem tallied_empty : Tallied {} where
  keyed _ _ h := by cases h
  distinct := List.nodup_nil
  counted _ _ h := by cases h
  owned _ _ _ _ h := by cases h
  live key ownerId := by
    constructor
    · rintro ⟨lease, h, -⟩
      cases h
    · rintro ⟨h, -⟩
      cases h

theorem Tallied.congr {s s' : LeaseState} (h : Tallied s) (hs : SameClaims s s') : Tallied s' := by
  obtain ⟨hkeyed, hdistinct, hcounted, howned, hlive⟩ := h
  obtain ⟨hc, hr, hh⟩ := hs
  constructor
  · simpa only [hc] using hkeyed
  · simpa only [hc] using hdistinct
  · simpa only [hc, hr, hh] using hcounted
  · simpa only [hr, LeaseState.Owns, hc] using howned
  · simpa only [LeaseState.Owns, hc, hh] using hlive

/-- One claim is looked at, the others stay as they were. -/
theorem Tallied.update {s s' : LeaseState} (h : Tallied s) (key : ResourceKey)
    (hother : ∀ k, k ≠ key → s'.claims.get? k = s.claims.get? k ∧
      (∀ o, s'.refs.get? (k.1, k.2, o) = s.refs.get? (k.1, k.2, o)) ∧
        SameStory k s.history s'.history)
    (hdistinct : s'.claims.keys.Nodup)
    (hkeyed : ∀ lease, s'.claims.get? key = some lease → lease.key = key)
    (hcounted : ∀ lease, s'.claims.get? key = some lease →
      releases key lease.ownerId s'.history < acquisitions key lease.ownerId s'.history ∧
        s'.refs.get? (key.1, key.2, lease.ownerId) =
          some (acquisitions key lease.ownerId s'.history -
            releases key lease.ownerId s'.history))
    (howned : ∀ o n, s'.refs.get? (key.1, key.2, o) = some n → s'.Owns key o)
    (hlive : ∀ o, s'.Owns key o ↔ creator key s'.history = some o ∧
      expiredSince key s'.history = false ∧
        acquisitions key o s'.history ≠ releases key o s'.history) : Tallied s' := by
  have hownerKey : ∀ k (lease : ResourceLease), lease.key = k →
      lease.ownerKey = (k.1, k.2, lease.ownerId) := by
    rintro k lease rfl
    rfl
  constructor
  · intro k lease hl
    by_cases hk : k = key
    · subst hk
      exact hkeyed lease hl
    · exact h.keyed k lease ((hother k hk).1 ▸ hl)
  · exact hdistinct
  · intro k lease hl
    by_cases hk : k = key
    · subst hk
      rw [hownerKey k lease (hkeyed lease hl)]
      exact hcounted lease hl
    · obtain ⟨hclaim, href, hstory⟩ := hother k hk
      rw [hclaim] at hl
      have hc := h.counted k lease hl
      rw [hownerKey k lease (h.keyed k lease hl)] at hc ⊢
      rw [hstory.acquisitions, hstory.releases, href]
      exact hc
  · intro kind resourceId o n hn
    by_cases hk : (kind, resourceId) = key
    · subst hk
      exact howned o n hn
    · obtain ⟨hclaim, href, -⟩ := hother _ hk
      rw [href] at hn
      have ho := h.owned kind resourceId o n hn
      unfold LeaseState.Owns at ho ⊢
      rwa [hclaim]
  · intro k o
    by_cases hk : k = key
    · subst hk
      exact hlive o
    · obtain ⟨hclaim, -, hstory⟩ := hother k hk
      have hl := h.live k o
      unfold LeaseState.Owns at hl ⊢
      rw [hclaim, hstory.creator, hstory.expired, hstory.acquisitions, hstory.releases]
      exact hl

/-- That a lease is given back is told of no claim. -/
theorem returned_tallied {s : LeaseState} (h : Tallied s) (lease : ResourceLease) :
    Tallied { s with history := .returned lease :: s.history } := by
  have hsame : ∀ key, SameStory key s.history (.returned lease :: s.history) := fun key =>
    sameStory_cons rfl
  constructor
  · exact h.keyed
  · exact h.distinct
  · intro key l hl
    rw [(hsame key).acquisitions, (hsame key).releases]
    exact h.counted key l hl
  · exact h.owned
  · intro key o
    rw [(hsame key).acquisitions, (hsame key).releases, (hsame key).creator, (hsame key).expired]
    exact h.live key o

/-- A claim has one owner. -/
theorem LeaseState.Owns.unique {s : LeaseState} {key : ResourceKey} {o₁ o₂ : String}
    (h₁ : s.Owns key o₁) (h₂ : s.Owns key o₂) : o₁ = o₂ := by
  obtain ⟨l₁, hl₁, rfl⟩ := h₁
  obtain ⟨l₂, hl₂, rfl⟩ := h₂
  rw [hl₁] at hl₂
  cases hl₂
  rfl

namespace LeaseResourceCoordinator

/-- Keys of different resources are different whoever the owner is. -/
theorem ownerKey_ne {k k' : ResourceKey} (h : k' ≠ k) (o o' : String) :
    (k'.1, k'.2, o') ≠ (k.1, k.2, o) := by
  intro heq
  simp only [Prod.mk.injEq] at heq
  exact h (Prod.ext heq.1 heq.2.1)

theorem dropClaim_tallied {s : LeaseState} (h : Tallied s) (key : ResourceKey) :
    Tallied (dropClaim s key) := by
  unfold dropClaim
  cases hl : s.claims.get? key with
  | none => exact h
  | some lease =>
    have hkey := h.keyed key lease hl
    subst hkey
    have hnone : (s.claims.erase lease.key).get? lease.key = none := by
      rw [Dict.get?_erase, if_pos rfl]
    refine h.update lease.key (fun k hk => ⟨?_, fun o => ?_, ?_⟩) ?_ ?_ ?_ ?_ ?_
    · rw [Dict.get?_erase, if_neg hk]
    · exact (Dict.get?_erase _ _ _).trans (if_neg (ownerKey_ne hk _ _))
    · exact sameStory_cons (by simpa [about] using Ne.symm hk)
    · exact Dict.nodup_keys_filterKeys h.distinct _
    · intro l hl'
      rw [hnone] at hl'
      cases hl'
    · intro l hl'
      rw [hnone] at hl'
      cases hl'
    · intro o n hn
      have hn' : (s.refs.erase lease.ownerKey).get? (lease.kind, lease.resourceId, o) = some n := hn
      rw [Dict.get?_erase] at hn'
      split at hn'
      · cases hn'
      · rename_i hne
        obtain ⟨l, hl', ho⟩ := h.owned _ _ _ _ hn'
        have hl'' : s.claims.get? lease.key = some l := hl'
        rw [hl] at hl''
        cases hl''
        exact absurd (by rw [← ho]; rfl) hne
    · intro o
      constructor
      · rintro ⟨l, hl', -⟩
        rw [hnone] at hl'
        cases hl'
      · rintro ⟨-, he, -⟩
        rw [expiredSince_cons (by rfl)] at he
        simp [expires] at he

/-- An acquisition by the owner of the claim, or of a free resource. -/
theorem hold_tallied {s : LeaseState} (h : Tallied s) {lease : ResourceLease}
    (howner : ∀ c, s.claims.get? lease.key = some c → c.ownerId = lease.ownerId) :
    Tallied (hold lease s) := by
  have hclaims : (hold lease s).claims.get? lease.key = some lease := Dict.get?_set_self _ _ _
  have hrefs : (hold lease s).refs.get? lease.ownerKey =
      some ((s.refs.get? lease.ownerKey).getD 0 + 1) := Dict.get?_set_self _ _ _
  -- What is told of the claim afterwards, whether it was there or not.
  have hstory : creator lease.key (hold lease s).history = some lease.ownerId ∧
      expiredSince lease.key (hold lease s).history = false ∧
      acquisitions lease.key lease.ownerId (hold lease s).history =
        releases lease.key lease.ownerId (hold lease s).history +
          ((s.refs.get? lease.ownerKey).getD 0 + 1) := by
    have hacquired : (LeaseEvent.acquired lease).creates lease.key = false := rfl
    have hby : (LeaseEvent.acquired lease).acquiredBy lease.key lease.ownerId = true := by
      simp [acquiredBy]
    unfold hold
    dsimp only
    rw [creator_cons hacquired, expiredSince_cons hacquired, acquisitions_cons hacquired,
      releases_cons hacquired, hby]
    cases hl : s.claims.get? lease.key with
    | none =>
      have hcontains : s.claims.contains lease.key = false := by simp [Dict.contains, hl]
      have hfree : s.refs.get? lease.ownerKey = none := by
        cases hr : s.refs.get? lease.ownerKey with
        | none => rfl
        | some n =>
          obtain ⟨l, hl', -⟩ := h.owned lease.kind lease.resourceId lease.ownerId n hr
          have hl'' : s.claims.get? lease.key = some l := hl'
          rw [hl] at hl''
          cases hl''
      rw [hcontains, hfree]
      simp [creator, expiredSince, acquisitions, releases, sinceCreated_created, expires,
        releasedBy]
    | some c =>
      have hcontains : s.claims.contains lease.key = true := by simp [Dict.contains, hl]
      have hc := howner c hl
      obtain ⟨hlt, hr⟩ := h.counted lease.key c hl
      have hkey : c.ownerKey = lease.ownerKey := by
        have := h.keyed lease.key c hl
        simp only [ResourceLease.key, Prod.mk.injEq] at this
        simp [ResourceLease.ownerKey, this.1, this.2, hc]
      obtain ⟨hcr, hex, -⟩ := (h.live lease.key lease.ownerId).1 ⟨c, hl, hc⟩
      rw [hkey] at hr
      rw [hc] at hlt hr
      rw [hcontains, hr]
      refine ⟨hcr, ?_, ?_⟩
      · simpa [expires] using hex
      · simp only [if_true, releasedBy, Option.getD_some]
        simp
        omega
  obtain ⟨hcr, hex, hcount⟩ := hstory
  have hothers : ∀ k, k ≠ lease.key → SameStory k s.history (hold lease s).history := by
    intro k hk
    have hacquired : (LeaseEvent.acquired lease).about k = false := by
      simpa [about] using Ne.symm hk
    have hcreated : (LeaseEvent.created lease.key lease.ownerId).about k = false := by
      simpa [about] using Ne.symm hk
    unfold hold
    dsimp only
    split
    · exact sameStory_cons hacquired
    · exact (sameStory_cons hcreated).trans (sameStory_cons hacquired)
  refine h.update lease.key (fun k hk => ⟨?_, fun o => ?_, hothers k hk⟩) ?_ ?_ ?_ ?_ ?_
  · exact Dict.get?_set_of_ne _ hk _
  · exact Dict.get?_set_of_ne _ (ownerKey_ne hk _ _) _
  · exact Dict.nodup_keys_set h.distinct _ _
  · intro l hl
    rw [hclaims] at hl
    cases hl
    rfl
  · intro l hl
    rw [hclaims] at hl
    cases hl
    refine ⟨by omega, hrefs.trans ?_⟩
    rw [hcount]
    congr 1
    omega
  · intro o n hn
    by_cases ho : o = lease.ownerId
    · exact ⟨lease, hclaims, ho.symm⟩
    · have hne : (lease.key.1, lease.key.2, o) ≠ lease.ownerKey := by
        simpa [ResourceLease.key, ResourceLease.ownerKey] using ho
      have hn' : (s.refs.set lease.ownerKey ((s.refs.get? lease.ownerKey).getD 0 + 1)).get?
          (lease.key.1, lease.key.2, o) = some n := hn
      rw [Dict.get?_set_of_ne _ hne] at hn'
      obtain ⟨c, hc, hco⟩ := h.owned _ _ _ _ hn'
      exact absurd (hco.symm.trans (howner c hc)) ho
  · intro o
    constructor
    · rintro ⟨l, hl, rfl⟩
      rw [hclaims] at hl
      cases hl
      exact ⟨hcr, hex, by omega⟩
    · rintro ⟨hcr', -, -⟩
      rw [hcr] at hcr'
      cases hcr'
      exact ⟨lease, hclaims, rfl⟩

/-- A claim whose lease is replaced by another one of its owner. -/
theorem renewed_tallied {s : LeaseState} (h : Tallied s) {lease : ResourceLease} {c : ResourceLease}
    (hc : s.claims.get? lease.key = some c) (ho : c.ownerId = lease.ownerId) :
    Tallied { s with claims := s.claims.set lease.key lease } := by
  have hclaims : (s.claims.set lease.key lease).get? lease.key = some lease :=
    Dict.get?_set_self _ _ _
  have hcounted := h.counted lease.key c hc
  have hkey := h.keyed lease.key c hc
  have hownerKey : c.ownerKey = lease.ownerKey := by
    simp only [ResourceLease.key, Prod.mk.injEq] at hkey
    simp [ResourceLease.ownerKey, hkey.1, hkey.2, ho]
  have howns : ∀ o, LeaseState.Owns { s with claims := s.claims.set lease.key lease } lease.key o ↔
      s.Owns lease.key o := by
    intro o
    constructor
    · rintro ⟨l, hl, rfl⟩
      have hl' : (s.claims.set lease.key lease).get? lease.key = some l := hl
      rw [hclaims] at hl'
      cases hl'
      exact ⟨c, hc, ho⟩
    · rintro ⟨l, hl, rfl⟩
      rw [hc] at hl
      cases hl
      exact ⟨lease, hclaims, ho.symm⟩
  refine h.update lease.key (fun k hk => ⟨?_, fun o => rfl, .refl _ _⟩) ?_ ?_ ?_ ?_ ?_
  · exact Dict.get?_set_of_ne _ hk _
  · exact Dict.nodup_keys_set h.distinct _ _
  · intro l hl
    have hl' : (s.claims.set lease.key lease).get? lease.key = some l := hl
    rw [hclaims] at hl'
    cases hl'
    rfl
  · intro l hl
    have hl' : (s.claims.set lease.key lease).get? lease.key = some l := hl
    rw [hclaims] at hl'
    cases hl'
    rw [hownerKey, ho] at hcounted
    exact hcounted
  · intro o n hn
    exact (howns o).2 (h.owned _ _ _ _ hn)
  · intro o
    rw [howns o]
    exact h.live lease.key o

/-- The tables after a release of the current lease. -/
def releasedState (s : LeaseState) (lease : ResourceLease) : LeaseState :=
  let refs := (s.refs.get? lease.ownerKey).getD 0
  let history := .released lease.key lease.ownerId :: s.history
  if 1 < refs then { s with refs := s.refs.set lease.ownerKey (refs - 1), history := history }
  else { s with
    claims := s.claims.erase lease.key, refs := s.refs.erase lease.ownerKey, history := history }

theorem current_iff {s : LeaseState} {lease : ResourceLease} :
    current s lease = true ↔ ∃ c, s.claims.get? lease.key = some c ∧ c.token = lease.token ∧
      c.ownerId = lease.ownerId := by
  unfold current
  cases s.claims.get? lease.key with
  | none => simp
  | some c => simp

theorem releasedState_tallied {s : LeaseState} (h : Tallied s) {lease : ResourceLease}
    (hcur : current s lease = true) : Tallied (releasedState s lease) := by
  obtain ⟨c, hc, -, ho⟩ := current_iff.1 hcur
  have hkey := h.keyed lease.key c hc
  have hownerKey : c.ownerKey = lease.ownerKey := by
    simp only [ResourceLease.key, Prod.mk.injEq] at hkey
    simp [ResourceLease.ownerKey, hkey.1, hkey.2, ho]
  obtain ⟨hlt, href⟩ := h.counted lease.key c hc
  rw [hownerKey] at href
  rw [ho] at hlt href
  obtain ⟨hcr, hex, -⟩ := (h.live lease.key lease.ownerId).1 ⟨c, hc, ho⟩
  set acq := acquisitions lease.key lease.ownerId s.history with hacq
  set rel := releases lease.key lease.ownerId s.history with hrel
  let history := LeaseEvent.released lease.key lease.ownerId :: s.history
  have hevent : (LeaseEvent.released lease.key lease.ownerId).creates lease.key = false := rfl
  have hacq' : acquisitions lease.key lease.ownerId history = acq := by
    rw [acquisitions_cons hevent, ← hacq]
    simp [acquiredBy]
  have hrel' : releases lease.key lease.ownerId history = rel + 1 := by
    rw [releases_cons hevent, ← hrel]
    simp [releasedBy]
  have hcr' : creator lease.key history = some lease.ownerId := (creator_cons hevent).trans hcr
  have hex' : expiredSince lease.key history = false := by
    rw [expiredSince_cons hevent, hex]
    rfl
  have hothers : ∀ k, k ≠ lease.key → SameStory k s.history history := fun k hk =>
    sameStory_cons (by simpa [about] using Ne.symm hk)
  unfold releasedState
  rw [href]
  simp only [Option.getD_some]
  split
  · rename_i hmore
    refine h.update lease.key (fun k hk => ⟨rfl, fun o => ?_, hothers k hk⟩) h.distinct ?_ ?_ ?_ ?_
    · exact Dict.get?_set_of_ne _ (ownerKey_ne hk _ _) _
    · exact fun l hl => h.keyed _ _ hl
    · intro l hl
      have hl' : s.claims.get? lease.key = some l := hl
      rw [hc] at hl'
      cases hl'
      rw [ho]
      change releases lease.key lease.ownerId history < acquisitions lease.key lease.ownerId history ∧
        (s.refs.set lease.ownerKey (acq - rel - 1)).get? lease.ownerKey =
          some (acquisitions lease.key lease.ownerId history -
            releases lease.key lease.ownerId history)
      rw [hacq', hrel', Dict.get?_set_self]
      exact ⟨by omega, by congr 1⟩
    · intro o n hn
      by_cases hoo : o = lease.ownerId
      · exact ⟨c, hc, ho.trans hoo.symm⟩
      · have hne : (lease.key.1, lease.key.2, o) ≠ lease.ownerKey := by
          simpa [ResourceLease.key, ResourceLease.ownerKey] using hoo
        have hn' : (s.refs.set lease.ownerKey (acq - rel - 1)).get?
            (lease.key.1, lease.key.2, o) = some n := hn
        rw [Dict.get?_set_of_ne _ hne] at hn'
        exact h.owned _ _ _ _ hn'
    · intro o
      constructor
      · rintro ⟨l, hl, rfl⟩
        have hl' : s.claims.get? lease.key = some l := hl
        rw [hc] at hl'
        cases hl'
        rw [ho]
        refine ⟨hcr', hex', ?_⟩
        change acquisitions lease.key lease.ownerId history ≠
          releases lease.key lease.ownerId history
        rw [hacq', hrel']
        omega
      · rintro ⟨hcr'', -, -⟩
        have := hcr'.symm.trans hcr''
        cases this
        exact ⟨c, hc, ho⟩
  · rename_i hlast
    have hnone : (s.claims.erase lease.key).get? lease.key = none := by
      rw [Dict.get?_erase, if_pos rfl]
    refine h.update lease.key (fun k hk => ⟨?_, fun o => ?_, hothers k hk⟩) ?_ ?_ ?_ ?_ ?_
    · rw [Dict.get?_erase, if_neg hk]
    · exact (Dict.get?_erase _ _ _).trans (if_neg (ownerKey_ne hk _ _))
    · exact Dict.nodup_keys_filterKeys h.distinct _
    · intro l hl
      rw [hnone] at hl
      cases hl
    · intro l hl
      rw [hnone] at hl
      cases hl
    · intro o n hn
      have hn' : (s.refs.erase lease.ownerKey).get? (lease.key.1, lease.key.2, o) = some n := hn
      rw [Dict.get?_erase] at hn'
      split at hn'
      · cases hn'
      · rename_i hne
        obtain ⟨l, hl, hlo⟩ := h.owned _ _ _ _ hn'
        have hl' : s.claims.get? lease.key = some l := hl
        rw [hc] at hl'
        cases hl'
        exact absurd (by rw [← hlo, ho]; rfl) hne
    · intro o
      constructor
      · rintro ⟨l, hl, -⟩
        rw [hnone] at hl
        cases hl
      · rintro ⟨hcr'', -, hne⟩
        have := hcr'.symm.trans hcr''
        cases this
        change acquisitions lease.key lease.ownerId history ≠
          releases lease.key lease.ownerId history at hne
        rw [hacq', hrel'] at hne
        omega

end LeaseResourceCoordinator

/-! ## The methods -/

section Methods

variable [PyLib] (src : Ambient) {s : LeaseState}

omit [PyLib] in
theorem readClock_sameClaims : Ensures (readClock src) s fun _ s' => SameClaims s s' :=
  ⟨rfl, rfl, rfl⟩

omit [PyLib] in
theorem drawId_sameClaims : Ensures (drawId src) s fun _ s' => SameClaims s s' := ⟨rfl, rfl, rfl⟩

omit [PyLib] in
/-- After a first part that leaves the claims alone, the second part need only do so too. -/
theorem sameClaims_bind {α β : Type} {m : Leasing α} {f : α → Leasing β}
    (hm : Ensures m s fun _ s' => SameClaims s s')
    (hf : ∀ a t, Ensures (f a) t fun _ s' => SameClaims t s') :
    Ensures (m >>= f) s fun _ s' => SameClaims s s' :=
  hm.bind (fun a t ht => (hf a t).mono fun _ _ h => ht.trans h) fun _ _ ht => ht

theorem expiresAt_sameClaims (seconds : ℤ) :
    Ensures (expiresAt src seconds) s fun _ s' => SameClaims s s' := by
  refine sameClaims_bind (readClock_sameClaims src) fun now t => ?_
  exact Ensures.ite (fun _ => .refl t) fun _ => .refl t

namespace DeviceLeaseService

theorem expireLocked_sameClaims : Ensures (expireLocked src) s fun _ s' => SameClaims s s' := by
  refine sameClaims_bind (readClock_sameClaims src) fun now t => ensures_get ?_
  exact ensures_lift (fun _ _ => ⟨rfl, rfl, rfl⟩) fun _ _ => .refl t

theorem store_sameClaims (ttlSeconds : ℤ) (key deviceId ownerId token : String) :
    Ensures (store src ttlSeconds key deviceId ownerId token) s fun _ s' => SameClaims s s' :=
  sameClaims_bind (expiresAt_sameClaims src _) fun _ _ => ⟨rfl, rfl, rfl⟩

theorem acquire_sameClaims (ttlSeconds : ℤ) (deviceId ownerId : String) :
    Ensures (acquire src ttlSeconds deviceId ownerId) s fun _ s' => SameClaims s s' := by
  unfold acquire
  dsimp only
  refine Ensures.ite (fun _ => .refl s) fun _ => ?_
  refine sameClaims_bind (expireLocked_sameClaims src) fun _ t => ensures_get ?_
  cases t.leases.get? (strip deviceId) with
  | none =>
    exact sameClaims_bind (drawId_sameClaims src) fun _ _ => store_sameClaims src _ _ _ _ _
  | some current =>
    exact Ensures.ite (fun _ => .refl t) fun _ => store_sameClaims src _ _ _ _ _

theorem requireLocked_sameClaims (deviceId token : String) :
    Ensures (requireLocked src deviceId token) s fun _ s' => SameClaims s s' := by
  refine sameClaims_bind (expireLocked_sameClaims src) fun _ t => ensures_get ?_
  cases t.leases.get? (strip deviceId) with
  | none => exact .refl t
  | some lease => exact Ensures.ite (fun _ => .refl t) fun _ => .refl t

theorem renew_sameClaims (ttlSeconds : ℤ) (deviceId token : String) :
    Ensures (renew src ttlSeconds deviceId token) s fun _ s' => SameClaims s s' :=
  sameClaims_bind (requireLocked_sameClaims src _ _) fun _ _ => store_sameClaims src _ _ _ _ _

theorem get_sameClaims (deviceId : String) :
    Ensures (DeviceLeaseService.get src deviceId) s fun _ s' => SameClaims s s' :=
  sameClaims_bind (expireLocked_sameClaims src) fun _ t => .refl t

omit [PyLib] in
/-- `release` returns, and leaves the claims alone. -/
theorem release_sameClaims (deviceId token : String) :
    Ensures (release deviceId token) s fun r s' => (∃ b, r = .ok b) ∧ SameClaims s s' := by
  unfold release
  refine ensures_get ?_
  cases s.leases.get? (strip deviceId) with
  | none => exact ⟨⟨_, rfl⟩, .refl s⟩
  | some lease =>
    exact Ensures.ite (fun _ => ⟨⟨_, rfl⟩, .refl s⟩) fun _ => ⟨⟨_, rfl⟩, ⟨rfl, rfl, rfl⟩⟩

end DeviceLeaseService

theorem validateTaskLease_sameClaims (ttlSeconds : ℤ) (sessions : Dict String String)
    (target : DeviceTarget) (context : Option ControlContext) :
    Ensures (DeviceControlService.validateTaskLease src ttlSeconds sessions target context) s
      fun _ s' => SameClaims s s' := by
  have hrenew : ∀ deviceId token t, Ensures
      (discard (DeviceLeaseService.renew src ttlSeconds deviceId token)) t
      fun _ s' => SameClaims t s' := fun deviceId token t =>
    sameClaims_bind (DeviceLeaseService.renew_sameClaims src _ _ _) fun _ t => .refl t
  unfold DeviceControlService.validateTaskLease
  refine ensures_lift (fun deviceId _ => ?_) fun _ _ => .refl s
  refine Ensures.ite (fun _ => .refl s) fun _ => ?_
  refine sameClaims_bind (DeviceLeaseService.get_sameClaims src _) fun found t => ?_
  cases found with
  | none =>
    dsimp only
    cases context.filter fun c => c.taskId != "" && c.leaseToken != "" with
    | none => exact .refl t
    | some c => exact hrenew _ _ t
  | some _ =>
    dsimp only
    cases context.filter fun c => c.taskId != "" && c.leaseToken != "" with
    | none => exact .refl t
    | some c => exact hrenew _ _ t

namespace LeaseResourceCoordinator

variable (cfg : LeaseConfig)

theorem backendMissing_sameClaims (lease : ResourceLease) :
    Ensures (backendMissing src cfg lease) s fun _ s' => SameClaims s s' := by
  unfold backendMissing
  refine Ensures.ite (fun _ => ?_) fun _ => .refl s
  exact sameClaims_bind (DeviceLeaseService.get_sameClaims src _) fun _ t => .refl t

theorem expiredKeys_sameClaims (now : ℚ) (entries : List (ResourceKey × ResourceLease)) :
    Ensures (expiredKeys src cfg now entries) s fun _ s' => SameClaims s s' := by
  induction entries generalizing s with
  | nil => exact .refl s
  | cons e rest ih =>
    refine sameClaims_bind (backendMissing_sameClaims src cfg _) fun _ t => ?_
    exact sameClaims_bind ih fun _ t => .refl t

/-- What holds of the claims and is kept by dropping any of them holds after `_expire_locked`. -/
theorem expireLocked_preserves {P : LeaseState → Prop}
    (hcongr : ∀ t t', SameClaims t t' → P t → P t') (hdrop : ∀ t key, P t → P (dropClaim t key))
    (hs : P s) : Ensures (expireLocked src cfg) s fun _ s' => P s' := by
  refine (readClock_sameClaims src).bind (fun now t ht => ensures_get ?_) fun _ t ht =>
    hcongr _ _ ht hs
  refine (expiredKeys_sameClaims src cfg now _).bind (fun keys t' ht' => ?_) fun _ t' ht' =>
    hcongr _ _ (ht.trans ht') hs
  have hP : P t' := hcongr _ _ (ht.trans ht') hs
  change P (keys.foldl dropClaim t')
  clear ht'
  induction keys generalizing t' with
  | nil => exact hP
  | cons key keys ih => exact ih _ (hdrop _ _ hP)

theorem expireLocked_tallied (h : Tallied s) :
    Ensures (expireLocked src cfg) s fun _ s' => Tallied s' :=
  expireLocked_preserves src cfg (P := Tallied) (fun _ _ hs ht => ht.congr hs)
    (fun _ key ht => dropClaim_tallied ht key) h

theorem grant_sameClaims (kind resourceId ownerId token : String) (ttlSeconds : ℤ) :
    Ensures (grant src cfg kind resourceId ownerId token ttlSeconds) s
      fun _ s' => SameClaims s s' := by
  unfold grant
  cases if kind = "device" then cfg.deviceLeases else none with
  | none => exact sameClaims_bind (expiresAt_sameClaims src _) fun _ t => .refl t
  | some backendTtl =>
    refine sameClaims_bind (DeviceLeaseService.acquire_sameClaims src _ _ _) fun _ t => ?_
    exact sameClaims_bind (expiresAt_sameClaims src _) fun _ t => .refl t

omit [PyLib] in
theorem tokenOf_sameClaims (claim : Option ResourceLease) :
    Ensures (tokenOf src claim) s fun _ s' => SameClaims s s' := by
  cases claim with
  | none => exact drawId_sameClaims src
  | some c => exact .refl s

theorem renewedExpiry_sameClaims (lease : ResourceLease) :
    Ensures (renewedExpiry src cfg lease) s fun _ s' => SameClaims s s' := by
  unfold renewedExpiry
  cases if lease.kind = "device" then cfg.deviceLeases else none with
  | none => exact expiresAt_sameClaims src _
  | some backendTtl =>
    refine sameClaims_bind (DeviceLeaseService.renew_sameClaims src _ _ _) fun _ t => ?_
    exact sameClaims_bind (expiresAt_sameClaims src _) fun _ t => .refl t

theorem acquire_tallied (h : Tallied s) (request : ResourceRequest) :
    Ensures (acquire src cfg request) s fun _ s' => Tallied s' := by
  refine (expireLocked_tallied src cfg h).bind (fun _ t ht => ensures_get ?_) fun _ _ ht => ht
  set key : ResourceKey := (strip request.kind, strip request.resourceId) with hkey
  refine Ensures.ite (fun _ => ht) fun hfree => ?_
  have howner : ∀ c, t.claims.get? key = some c → c.ownerId = strip request.ownerId := by
    intro c hc
    by_contra hne
    refine hfree ?_
    rw [hc, Option.filter_some, if_pos (by simpa using hne)]
    rfl
  refine (tokenOf_sameClaims src _).bind (fun token t₁ h₁ => ?_) fun _ t₁ h₁ => ht.congr h₁
  refine (grant_sameClaims src cfg _ _ _ _ _).bind (fun granted t₂ h₂ => ?_) fun _ t₂ h₂ =>
    ht.congr (h₁.trans h₂)
  have h₃ : SameClaims t t₂ := h₁.trans h₂
  refine hold_tallied (ht.congr h₃) fun c hc => ?_
  rw [h₃.claims] at hc
  exact howner c hc

theorem renew_tallied (h : Tallied s) (lease : ResourceLease) :
    Ensures (renew src cfg lease) s fun _ s' => Tallied s' := by
  refine (expireLocked_tallied src cfg h).bind (fun _ t ht => ensures_get ?_) fun _ _ ht => ht
  refine Ensures.ite (fun _ => ht) fun hcur => ?_
  refine (renewedExpiry_sameClaims src cfg lease).bind (fun expiry t' ht' => ?_) fun _ t' ht' =>
    ht.congr ht'
  obtain ⟨c, hc, -, ho⟩ := current_iff.1 (by simpa using hcur)
  have hc' : t'.claims.get? ({ lease with expiresAt := expiry } : ResourceLease).key = some c :=
    ht'.claims ▸ hc
  exact renewed_tallied (ht.congr ht') hc' ho

omit [PyLib] in
/-- A release that does not present the current lease returns `False` and changes nothing. -/
theorem release_of_not_current {lease : ResourceLease} (h : current s lease = false) :
    (release cfg lease).run s = (.ok false, s) := by
  have hrun : Ensures (release cfg lease) s fun r s' => r = .ok false ∧ s' = s := by
    unfold release
    refine ensures_get ?_
    rw [h]
    exact Ensures.ite (fun _ => ⟨rfl, rfl⟩) fun hne => absurd rfl hne
  exact Prod.ext hrun.1 hrun.2

omit [PyLib] in
/-- A release that presents the current lease returns and takes one reference away. -/
theorem release_of_current {lease : ResourceLease} (h : current s lease = true) :
    Ensures (release cfg lease) s fun r s' =>
      (∃ b, r = .ok b ∧ (1 < (s.refs.get? lease.ownerKey).getD 0 → b = true)) ∧
        SameClaims (releasedState s lease) s' := by
  unfold release releasedState
  refine ensures_get ?_
  rw [h]
  refine Ensures.ite (fun hne => by cases hne) fun _ => ?_
  refine Ensures.ite (fun hmore => ?_) fun hlast => ?_
  · rw [if_pos hmore]
    exact ⟨⟨true, rfl, fun _ => rfl⟩, .refl _⟩
  · rw [if_neg hlast]
    refine ensures_set (Ensures.ite (fun _ => ?_) fun _ => ?_)
    · refine (DeviceLeaseService.release_sameClaims _ _).mono fun r s' hs' => ?_
      obtain ⟨⟨b, hb⟩, hsame⟩ := hs'
      exact ⟨⟨b, hb, fun hmore => absurd hmore hlast⟩, hsame⟩
    · exact ⟨⟨true, rfl, fun _ => rfl⟩, .refl _⟩

omit [PyLib] in
theorem release_tallied (h : Tallied s) (lease : ResourceLease) :
    Ensures (release cfg lease) s fun _ s' => Tallied s' := by
  cases hcur : current s lease with
  | false =>
    unfold Ensures
    rw [release_of_not_current cfg hcur]
    exact h
  | true =>
    exact (release_of_current cfg hcur).mono fun _ _ hs' =>
      (releasedState_tallied h hcur).congr hs'.2

end LeaseResourceCoordinator

end Methods

/-! ## `release_owner` -/

/-- The claims of some leases are gone, and nothing else has changed. -/
structure Freed (leases : List ResourceLease) (s s' : LeaseState) : Prop where
  tallied : Tallied s'
  claims : ∀ key, s'.claims.get? key =
    if key ∈ leases.map ResourceLease.key then none else s.claims.get? key
  refs : ∀ ownerKey, s'.refs.get? ownerKey =
    if ownerKey ∈ leases.map ResourceLease.ownerKey then none else s.refs.get? ownerKey

namespace LeaseResourceCoordinator

variable {s : LeaseState} (cfg : LeaseConfig)

/-- A release that presents the current lease, as a run. -/
theorem release_run {lease : ResourceLease} (h : current s lease = true) :
    ∃ b s', (release cfg lease).run s = (.ok b, s') ∧ SameClaims (releasedState s lease) s' ∧
      (1 < (s.refs.get? lease.ownerKey).getD 0 → b = true) := by
  obtain ⟨⟨b, hb, hmore⟩, hsame⟩ := release_of_current cfg h
  exact ⟨b, _, Prod.ext hb rfl, hsame, hmore⟩

/-- One round of the loop of releases. -/
theorem releaseWhile_round {lease : ResourceLease} {t : LeaseState} {b : Bool}
    (hrun : (release cfg lease).run s = (.ok b, t)) (fuel released : ℕ) :
    (releaseWhile cfg lease (fuel + 1) released).run s =
      (if b then (if t.refs.contains lease.ownerKey then releaseWhile cfg lease fuel (released + 1)
        else pure (some (released + 1))) else pure (some released) : Leasing (Option ℕ)).run t := by
  have hunfold : (releaseWhile cfg lease (fuel + 1) released).run s =
      (release cfg lease >>= fun b => if b = true then do
        let s ← get
        if s.refs.contains lease.ownerKey = true then releaseWhile cfg lease fuel (released + 1)
        else return some (released + 1)
      else return some released).run s := rfl
  rw [hunfold, run_bind, hrun]
  cases b <;> rfl

/-- The loop of releases of one claim ends with its references, whatever fuel is left. -/
theorem releaseWhile_released (h : Tallied s) {lease : ResourceLease}
    (hcur : current s lease = true) {n : ℕ} (hn : s.refs.get? lease.ownerKey = some (n + 1))
    (released : ℕ) :
    ∃ m s', (∀ fuel, n < fuel →
      (releaseWhile cfg lease fuel released).run s = (.ok (some m), s')) ∧ Freed [lease] s s' := by
  induction n generalizing s released with
  | zero =>
    obtain ⟨b, t, hrun, hsame, -⟩ := release_run cfg hcur
    have ht : Tallied t := (releasedState_tallied h hcur).congr hsame
    have hstate : releasedState s lease = { s with
        claims := s.claims.erase lease.key
        refs := s.refs.erase lease.ownerKey
        history := .released lease.key lease.ownerId :: s.history } := by
      unfold releasedState
      rw [hn]
      rfl
    have hclaims : t.claims = s.claims.erase lease.key := by rw [hsame.claims, hstate]
    have hrefs : t.refs = s.refs.erase lease.ownerKey := by rw [hsame.refs, hstate]
    have hgone : t.refs.contains lease.ownerKey = false := by
      rw [Dict.contains, hrefs, Dict.get?_erase, if_pos rfl]
      rfl
    refine ⟨if b then released + 1 else released, t, fun fuel hfuel => ?_, ht, fun key => ?_,
      fun ownerKey => ?_⟩
    · obtain ⟨fuel, rfl⟩ : ∃ k, fuel = k + 1 := ⟨fuel - 1, by omega⟩
      rw [releaseWhile_round cfg hrun, hgone]
      cases b <;> rfl
    · rw [hclaims, Dict.get?_erase]
      simp
    · rw [hrefs, Dict.get?_erase]
      simp
  | succ n ih =>
    obtain ⟨b, t, hrun, hsame, hmore⟩ := release_run cfg hcur
    have ht : Tallied t := (releasedState_tallied h hcur).congr hsame
    have hstate : releasedState s lease = { s with
        refs := s.refs.set lease.ownerKey (n + 1)
        history := .released lease.key lease.ownerId :: s.history } := by
      unfold releasedState
      rw [hn]
      simp
    have hb : b = true := hmore (by rw [hn]; simp)
    have hclaims : t.claims = s.claims := by rw [hsame.claims, hstate]
    have hrefs : t.refs = s.refs.set lease.ownerKey (n + 1) := by rw [hsame.refs, hstate]
    have hn' : t.refs.get? lease.ownerKey = some (n + 1) := by rw [hrefs, Dict.get?_set_self]
    have hthere : t.refs.contains lease.ownerKey = true := by simp [Dict.contains, hn']
    have hcur' : current t lease = true := by
      unfold current at hcur ⊢
      rwa [hclaims]
    obtain ⟨m, s', hloop, hfreed⟩ := ih ht hcur' hn' (released + 1)
    refine ⟨m, s', fun fuel hfuel => ?_, hfreed.tallied, fun key => ?_, fun ownerKey => ?_⟩
    · obtain ⟨fuel, rfl⟩ : ∃ k, fuel = k + 1 := ⟨fuel - 1, by omega⟩
      rw [releaseWhile_round cfg hrun, hb, hthere]
      exact hloop fuel (by omega)
    · rw [hfreed.claims, hclaims]
    · rw [hfreed.refs, hrefs, Dict.get?_set]
      by_cases hk : ownerKey = lease.ownerKey <;> simp [hk]

/-- The loop over the claims ends where each has few enough references. -/
theorem releaseEach_released (h : Tallied s) {leases : List ResourceLease}
    (hdistinct : (leases.map ResourceLease.key).Nodup) {bound : ℕ}
    (hcur : ∀ lease ∈ leases, current s lease = true ∧
      ∃ n, s.refs.get? lease.ownerKey = some (n + 1) ∧ n < bound) (released : ℕ) :
    ∃ m s', (∀ fuel, bound ≤ fuel →
      (releaseEach cfg fuel leases released).run s = (.ok (some m), s')) ∧ Freed leases s s' := by
  induction leases generalizing s released with
  | nil => exact ⟨released, s, fun _ _ => rfl, h, fun _ => rfl, fun _ => rfl⟩
  | cons lease rest ih =>
    simp only [List.map_cons, List.nodup_cons] at hdistinct
    obtain ⟨hlease, n, hn, hbound⟩ := hcur lease List.mem_cons_self
    obtain ⟨m₁, t, hloop, hfreed⟩ := releaseWhile_released cfg h hlease hn released
    -- The claims that come later are as they were.
    have hrest : ∀ l ∈ rest, current t l = true ∧
        ∃ n, t.refs.get? l.ownerKey = some (n + 1) ∧ n < bound := by
      intro l hl
      obtain ⟨hl', k, hk, hkb⟩ := hcur l (List.mem_cons_of_mem _ hl)
      have hkey : l.key ≠ lease.key := fun he =>
        hdistinct.1 (he ▸ List.mem_map_of_mem hl)
      have howner : l.ownerKey ≠ lease.ownerKey := ownerKey_ne hkey _ _
      refine ⟨?_, k, ?_, hkb⟩
      · unfold current at hl' ⊢
        rw [hfreed.claims, if_neg (by simpa using hkey)]
        exact hl'
      · rw [hfreed.refs, if_neg (by simpa using howner)]
        exact hk
    obtain ⟨m, s', heach, hfreed'⟩ := ih hfreed.tallied hdistinct.2 hrest m₁
    refine ⟨m, s', fun fuel hfuel => ?_, hfreed'.tallied, fun key => ?_, fun ownerKey => ?_⟩
    · rw [releaseEach, run_bind, hloop fuel (by omega)]
      exact heach fuel hfuel
    · rw [hfreed'.claims, hfreed.claims]
      by_cases hk : key = lease.key <;> simp [hk]
    · rw [hfreed'.refs, hfreed.refs]
      by_cases hk : ownerKey = lease.ownerKey <;> simp [hk]

/-- `release_owner` ends, with the claims of the owner gone and the others as they were. -/
theorem releaseOwner_freed (h : Tallied s) (ownerId : String) :
    ∃ m s', (∀ fuel, s.references ≤ fuel →
      (releaseOwner cfg fuel ownerId).run s = (.ok (some m), s')) ∧
        Freed (s.claims.values.filter fun lease => lease.ownerId == strip ownerId) s s' := by
  have hvalues : s.claims.values.map ResourceLease.key = s.claims.keys := by
    unfold Dict.values Dict.keys
    rw [List.map_map]
    refine List.map_congr_left fun e he => ?_
    exact h.keyed e.1 e.2 (Dict.get?_of_mem h.distinct he)
  have hdistinct : ((s.claims.values.filter fun lease =>
      lease.ownerId == strip ownerId).map ResourceLease.key).Nodup := by
    refine List.Nodup.sublist (List.Sublist.map _ List.filter_sublist) ?_
    rw [hvalues]
    exact h.distinct
  refine releaseEach_released cfg h hdistinct (fun lease hl => ?_) 0
  obtain ⟨e, he, rfl⟩ := List.mem_map.1 (List.mem_of_mem_filter hl)
  have hget : s.claims.get? e.1 = some e.2 := Dict.get?_of_mem h.distinct he
  have hkey := h.keyed e.1 e.2 hget
  obtain ⟨hlt, href⟩ := h.counted e.1 e.2 hget
  rw [← hkey] at hget
  refine ⟨current_iff.2 ⟨e.2, hget, rfl, rfl⟩,
    acquisitions e.1 e.2.ownerId s.history - releases e.1 e.2.ownerId s.history - 1, ?_, ?_⟩
  · rw [href]
    congr 1
    omega
  · have hle := List.single_le_sum (fun x _ => Nat.zero_le x) _ (Dict.mem_values_of_get? href)
    unfold LeaseState.references
    omega

end LeaseResourceCoordinator

/-! ## Every run -/

section Run

variable [PyLib] (src : Ambient) (cfg : LeaseConfig)

/-- Every call keeps the tally. -/
theorem run_tallied {s : LeaseState} (h : Tallied s) (input : LeaseInput) :
    Ensures (input.run src cfg) s fun _ s' => Tallied s' := by
  cases input with
  | acquire request =>
    refine ensures_lift (fun _ _ => ?_) fun _ _ => h
    exact (LeaseResourceCoordinator.acquire_tallied src cfg h request).bind (fun _ _ ht => ht)
      fun _ _ ht => ht
  | renew lease =>
    exact (LeaseResourceCoordinator.renew_tallied src cfg h lease).bind (fun _ _ ht => ht)
      fun _ _ ht => ht
  | release lease =>
    refine ensures_modify ?_
    exact (LeaseResourceCoordinator.release_tallied cfg (returned_tallied h lease) lease).bind
      (fun _ _ ht => ht) fun _ _ ht => ht
  | releaseOwner ownerId =>
    refine ensures_get ?_
    obtain ⟨m, s', hrun, hfreed⟩ := LeaseResourceCoordinator.releaseOwner_freed cfg h ownerId
    have hensures : Ensures (LeaseResourceCoordinator.releaseOwner cfg s.references ownerId) s
        fun _ t => Tallied t := by
      unfold Ensures
      rw [hrun _ le_rfl]
      exact hfreed.tallied
    exact hensures.bind (fun _ _ ht => ht) fun _ _ ht => ht
  | validateTaskLease sessions target context =>
    unfold LeaseInput.run
    cases cfg.deviceLeases with
    | none => exact h
    | some ttlSeconds =>
      exact h.congr (validateTaskLease_sameClaims src ttlSeconds sessions target context)

theorem leasesAfter_tallied (inputs : List LeaseInput) : Tallied (leasesAfter src cfg inputs) := by
  have hmeets : Machine.Meets (leaseStep src cfg) (fun _ _ => True) {} inputs :=
    Machine.meets_of_forall (fun _ _ => trivial) _ inputs
  have hstep : ∀ s input, Tallied s → True → Tallied (leaseStep src cfg s input) :=
    fun s input h _ => run_tallied src cfg h input
  exact hmeets.invariant hstep tallied_empty

end Run

/-- A resource has a single owner: what holds of the claims, and what the methods that take claims
away do to them. -/
structure SingleOwner (cfg : LeaseConfig) (s : LeaseState) : Prop where
  /-- All claims on a resource are of one owner. -/
  unique : ∀ key lease lease', (key, lease) ∈ s.claims.entries → (key, lease') ∈ s.claims.entries →
    lease.ownerId = lease'.ownerId
  /-- The reference count of a claim is the number of acquisitions by its owner less the number of
  releases, since the claim was created. -/
  counted : ∀ key lease, s.claims.get? key = some lease →
    ∃ n, s.refs.get? lease.ownerKey = some n ∧ acquisitions key lease.ownerId s.history =
      releases key lease.ownerId s.history + n
  /-- A claim that was created is there until that number is zero, or until it expires. -/
  live : ∀ key ownerId, s.Owns key ownerId ↔ creator key s.history = some ownerId ∧
    expiredSince key s.history = false ∧
      acquisitions key ownerId s.history ≠ releases key ownerId s.history
  /-- A release with another token than the current one returns `False` and changes nothing. -/
  stale : ∀ lease, (∀ c, s.claims.get? lease.key = some c → c.token ≠ lease.token) →
    (LeaseResourceCoordinator.release cfg lease).run s = (.ok false, s)
  /-- `release_owner` ends; exactly the claims of the owner are gone, and the reference counts of the
  others are as they were. -/
  freed : ∀ ownerId, ∃ m s',
    (∀ fuel, s.references ≤ fuel →
      (LeaseResourceCoordinator.releaseOwner cfg fuel ownerId).run s = (.ok (some m), s')) ∧
    ∀ key lease, (s'.claims.get? key = some lease ↔
        s.claims.get? key = some lease ∧ lease.ownerId ≠ strip ownerId) ∧
      (s'.claims.get? key = some lease →
        s'.refs.get? lease.ownerKey = s.refs.get? lease.ownerKey)

theorem Tallied.singleOwner {s : LeaseState} (h : Tallied s) (cfg : LeaseConfig) :
    SingleOwner cfg s where
  unique key lease lease' hl hl' := by
    have heq := (Dict.get?_of_mem h.distinct hl).symm.trans (Dict.get?_of_mem h.distinct hl')
    cases heq
    rfl
  counted key lease hl := by
    obtain ⟨hlt, href⟩ := h.counted key lease hl
    exact ⟨_, href, by omega⟩
  live := h.live
  stale lease hstale := by
    refine LeaseResourceCoordinator.release_of_not_current cfg (Bool.eq_false_iff.2 fun hcur => ?_)
    obtain ⟨c, hc, htoken, -⟩ := LeaseResourceCoordinator.current_iff.1 hcur
    exact hstale c hc htoken
  freed ownerId := by
    obtain ⟨m, s', hrun, hfreed⟩ := LeaseResourceCoordinator.releaseOwner_freed cfg h ownerId
    set gone := s.claims.values.filter fun lease => lease.ownerId == strip ownerId with hgone
    -- A claim is among those that go when its owner is the given one.
    have hmem : ∀ key lease, s.claims.get? key = some lease →
        (key ∈ gone.map ResourceLease.key ↔ lease.ownerId = strip ownerId) := by
      intro key lease hl
      constructor
      · intro hk
        obtain ⟨l, hl', hkey⟩ := List.mem_map.1 hk
        obtain ⟨hv, ho⟩ := List.mem_filter.1 hl'
        obtain ⟨e, he, rfl⟩ := List.mem_map.1 hv
        have hget : s.claims.get? e.1 = some e.2 := Dict.get?_of_mem h.distinct he
        have hkey' : e.1 = key := (h.keyed _ _ hget).symm.trans hkey
        rw [hkey', hl] at hget
        cases hget
        exact beq_iff_eq.1 ho
      · intro ho
        refine List.mem_map.2 ⟨lease, List.mem_filter.2 ⟨Dict.mem_values_of_get? hl, ?_⟩,
          h.keyed key lease hl⟩
        exact beq_iff_eq.2 ho
    have hclaim : ∀ key lease, s'.claims.get? key = some lease ↔
        s.claims.get? key = some lease ∧ lease.ownerId ≠ strip ownerId := by
      intro key lease
      rw [hfreed.claims]
      by_cases hk : key ∈ gone.map ResourceLease.key
      · rw [if_pos hk]
        constructor
        · intro hl
          cases hl
        · rintro ⟨hl, hne⟩
          exact absurd ((hmem key lease hl).1 hk) hne
      · rw [if_neg hk]
        exact ⟨fun hl => ⟨hl, fun ho => hk ((hmem key lease hl).2 ho)⟩, fun hl => hl.1⟩
    refine ⟨m, s', hrun, fun key lease => ⟨hclaim key lease, fun hl => ?_⟩⟩
    rw [hfreed.refs, if_neg]
    intro hin
    obtain ⟨l, hl', hkey⟩ := List.mem_map.1 hin
    have ho : l.ownerId = strip ownerId := beq_iff_eq.1 (List.mem_filter.1 hl').2
    simp only [ResourceLease.ownerKey, Prod.mk.injEq] at hkey
    exact ((hclaim key lease).1 hl).2 (hkey.2.2.symm.trans ho)

/-- A claim that was created is there exactly until it is released as often as acquired. -/
def RemovedAtZero (s : LeaseState) : Prop :=
  ∀ key ownerId, s.Owns key ownerId ↔ creator key s.history = some ownerId ∧
    acquisitions key ownerId s.history ≠ releases key ownerId s.history

/-- The library with times written as so many strokes, for concrete runs at whole seconds. -/
@[reducible] def PyLib.strokes : PyLib :=
  { PyLib.atEpoch with
    isoformat := fun t => String.ofList (List.replicate t.num.toNat 'x')
    fromisoformat := fun s => some s.length }

/-- A clock that advances by some seconds between its readings. -/
def Ambient.ticking (seconds : ℕ) : Ambient where
  clock n := (seconds * n : ℕ)
  uuid n := String.ofList (List.replicate n 'u')
  fresh m n h := by simpa using congrArg String.length h

/-- A claim on one session runs out before the next call, which is about another one. -/
def shortSession : List LeaseInput :=
  [.acquire ⟨"session", "s1", "task-1", 1⟩, .acquire ⟨"session", "s2", "task-1", 100⟩]

end DeviceShell.Framework
