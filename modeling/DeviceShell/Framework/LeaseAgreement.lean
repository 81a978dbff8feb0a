import DeviceShell.Framework.ResourceOwners

/-!
# The coordinator and the device leases agree

The device leases have their own expiry, which `_validate_task_lease` extends without the coordinator
knowing. A claim can then run out in the coordinator while the device lease lives on, and the holders
of the claim are forgotten. `RunsOutTogether` says that a call does not meet such a claim; in every
run of such calls the two tables describe the same holders (`Agreed`), so the device lease is
released with the last of them and not before.

`holders` counts, from the history, how many acquisitions of a lease were not given back yet.
-/

namespace DeviceShell.Framework

open Stateful

/-- Two leases of one claim: they differ in the expiry at most. -/
def ResourceLease.same (a b : ResourceLease) : Bool := a.ownerKey == b.ownerKey && a.token == b.token

theorem ResourceLease.same_iff {a b : ResourceLease} :
    a.same b = true ↔ a.ownerKey = b.ownerKey ∧ a.token = b.token := by
  simp [ResourceLease.same]

/-- How many holders of a lease acquired it and have not called `release` with it. -/
def holders (lease : ResourceLease) : List LeaseEvent → ℕ
  | [] => 0
  | .acquired l :: rest => holders lease rest + if l.same lease then 1 else 0
  | .returned l :: rest => holders lease rest - if l.same lease then 1 else 0
  | _ :: rest => holders lease rest

/-- A lease that is held was acquired. -/
theorem exists_acquired {lease : ResourceLease} {history : List LeaseEvent}
    (h : 0 < holders lease history) : ∃ l, .acquired l ∈ history ∧ l.same lease = true := by
  induction history with
  | nil => cases h
  | cons e rest ih =>
    have hrest : 0 < holders lease rest → ∃ l, .acquired l ∈ e :: rest ∧ l.same lease = true := by
      intro h'
      obtain ⟨l, hl, hs⟩ := ih h'
      exact ⟨l, List.mem_cons_of_mem _ hl, hs⟩
    cases e with
    | acquired l =>
      by_cases hl : l.same lease = true
      · exact ⟨l, List.mem_cons_self, hl⟩
      · simp only [holders, hl, Bool.false_eq_true, if_false, Nat.add_zero] at h
        exact hrest h
    | returned l =>
      simp only [holders] at h
      exact hrest (by omega)
    | created | released | expired => exact hrest h

/-- The leases of one claim have the same holders. -/
theorem holders_congr {a b : ResourceLease} (hkey : a.ownerKey = b.ownerKey)
    (htoken : a.token = b.token) (history : List LeaseEvent) :
    holders a history = holders b history := by
  have hsame : ∀ l : ResourceLease, l.same a = l.same b := by
    intro l
    unfold ResourceLease.same
    rw [hkey, htoken]
  induction history with
  | nil => rfl
  | cons e rest ih => cases e <;> simp only [holders, ih, hsame]

/-- A device lease has not run out at a given time, or its expiry cannot be read. -/
def DeviceLease.alive [PyLib] (now : ℚ) (lease : DeviceLease) : Bool :=
  match DeviceLeaseService.parse lease.expiresAt with
  | .ok time => decide (now < time)
  | .error _ => true

/-- What the two tables and the history have to do with each other. -/
structure Agreed (src : Ambient) (cfg : LeaseConfig) (s : LeaseState) : Prop where
  tallied : Tallied s
  /-- The ids under which claims are stored are stripped. -/
  stripped : ∀ key lease, s.claims.get? key = some lease → strip key.2 = key.2
  /-- The tokens of the claims were drawn. -/
  drawn : ∀ key lease, s.claims.get? key = some lease → ∃ i < s.issued, lease.token = src.uuid i
  /-- The leases that were acquired have stripped ids and drawn tokens. -/
  acquired : ∀ lease, .acquired lease ∈ s.history →
    strip lease.resourceId = lease.resourceId ∧ ∃ i < s.issued, lease.token = src.uuid i
  /-- The reference count of a claim is the number of its holders. -/
  counted : ∀ key lease, s.claims.get? key = some lease →
    s.refs.get? lease.ownerKey = some (holders lease s.history)
  /-- Without a back-end there are no device leases. -/
  detached : cfg.deviceLeases = none → ∀ deviceId, s.leases.get? deviceId = none
  leaseIds : s.leases.keys.Nodup
  /-- Device leases have drawn tokens, and know their device. -/
  leases : ∀ deviceId e, s.leases.get? deviceId = some e → e.deviceId = strip deviceId ∧
    ∃ i < s.issued, e.token = src.uuid i
  /-- The device lease of a claimed device is that of the claim. -/
  backed : ∀ deviceId lease e, s.claims.get? ("device", deviceId) = some lease →
    s.leases.get? deviceId = some e → e.token = lease.token ∧ e.ownerId = lease.ownerId
  /-- The holders of a device lease have the claim. -/
  claimed : ∀ lease e, lease.kind = "device" → 0 < holders lease s.history →
    s.leases.get? lease.resourceId = some e → e.token = lease.token →
      LeaseResourceCoordinator.current s lease = true

theorem agreed_empty (src : Ambient) (cfg : LeaseConfig) : Agreed src cfg {} where
  tallied := tallied_empty
  stripped _ _ h := by cases h
  drawn _ _ h := by cases h
  acquired _ h := by cases h
  counted _ _ h := by cases h
  detached _ _ := rfl
  leaseIds := List.nodup_nil
  leases _ _ h := by cases h
  backed _ _ _ h := by cases h
  claimed _ _ _ h := by cases h

/-! ## Time passes -/

/-- Device leases ran out and ids were drawn, and nothing else happened. -/
structure Fades (s s' : LeaseState) : Prop where
  same : SameClaims s s'
  issued : s.issued ≤ s'.issued
  leaseIds : s.leases.keys.Nodup → s'.leases.keys.Nodup
  leases : ∀ deviceId e, s'.leases.get? deviceId = some e → s.leases.get? deviceId = some e

theorem Fades.refl (s : LeaseState) : Fades s s := ⟨.refl s, le_rfl, id, fun _ _ h => h⟩

theorem Fades.trans {s₁ s₂ s₃ : LeaseState} (h : Fades s₁ s₂) (h' : Fades s₂ s₃) : Fades s₁ s₃ :=
  ⟨h.same.trans h'.same, h.issued.trans h'.issued, h'.leaseIds ∘ h.leaseIds,
    fun d e he => h.leases d e (h'.leases d e he)⟩

/-- Claims were dropped, device leases ran out, and nothing else happened. -/
structure Shrinks (s s' : LeaseState) : Prop where
  tallied : Tallied s'
  issued : s.issued ≤ s'.issued
  claims : ∀ key lease, s'.claims.get? key = some lease → s.claims.get? key = some lease
  refs : ∀ key lease, s'.claims.get? key = some lease →
    s'.refs.get? lease.ownerKey = s.refs.get? lease.ownerKey
  leaseIds : s.leases.keys.Nodup → s'.leases.keys.Nodup
  leases : ∀ deviceId e, s'.leases.get? deviceId = some e → s.leases.get? deviceId = some e
  holders : ∀ lease, holders lease s'.history = holders lease s.history
  acquired : ∀ lease, .acquired lease ∈ s'.history → .acquired lease ∈ s.history

theorem Shrinks.trans {s₁ s₂ s₃ : LeaseState} (h : Shrinks s₁ s₂) (h' : Shrinks s₂ s₃) :
    Shrinks s₁ s₃ where
  tallied := h'.tallied
  issued := h.issued.trans h'.issued
  claims key lease hl := h.claims key lease (h'.claims key lease hl)
  refs key lease hl := (h'.refs key lease hl).trans (h.refs key lease (h'.claims key lease hl))
  leaseIds := h'.leaseIds ∘ h.leaseIds
  leases d e he := h.leases d e (h'.leases d e he)
  holders lease := (h'.holders lease).trans (h.holders lease)
  acquired lease hl := h.acquired lease (h'.acquired lease hl)

theorem Fades.shrinks {s s' : LeaseState} (h : Fades s s') (hs : Tallied s) : Shrinks s s' where
  tallied := hs.congr h.same
  issued := h.issued
  claims key lease hl := h.same.claims ▸ hl
  refs _ _ _ := by rw [h.same.refs]
  leaseIds := h.leaseIds
  leases := h.leases
  holders lease := by rw [h.same.history]
  acquired lease hl := h.same.history ▸ hl

theorem dropClaim_shrinks {s : LeaseState} (h : Tallied s) (key : ResourceKey) :
    Shrinks s (LeaseResourceCoordinator.dropClaim s key) := by
  have htallied := LeaseResourceCoordinator.dropClaim_tallied h key
  unfold LeaseResourceCoordinator.dropClaim at htallied ⊢
  cases hl : s.claims.get? key with
  | none => exact (Fades.refl s).shrinks h
  | some lease =>
    rw [hl] at htallied
    have hkept : ∀ k l, (s.claims.erase key).get? k = some l → k ≠ key ∧
        s.claims.get? k = some l := by
      intro k l hk
      rw [Dict.get?_erase] at hk
      split at hk
      · cases hk
      · exact ⟨‹_›, hk⟩
    refine ⟨htallied, le_rfl, fun k l hk => (hkept k l hk).2, fun k l hk => ?_, id,
      fun _ _ he => he, fun _ => rfl, fun l hm => ?_⟩
    · obtain ⟨hne, hget⟩ := hkept k l hk
      have hkey : l.key ≠ lease.key := by
        rw [h.keyed k l hget, h.keyed key lease hl]
        exact hne
      exact (Dict.get?_erase _ _ _).trans
        (if_neg (LeaseResourceCoordinator.ownerKey_ne hkey _ _))
    · rcases List.mem_cons.1 hm with hm | hm
      · cases hm
      · exact hm

/-- Every device claim that was dropped was dropped with its device lease. -/
def DropsTogether (s s' : LeaseState) : Prop :=
  ∀ key ∈ s.claims.keys, key.1 = "device" → s'.claims.get? key = none →
    s'.leases.get? key.2 = none

/-- Dropping claims together with their device leases keeps the agreement. -/
theorem Agreed.shrinks {src : Ambient} {cfg : LeaseConfig} {s s' : LeaseState}
    (h : Agreed src cfg s) (hs : Shrinks s s') (hd : DropsTogether s s') : Agreed src cfg s' where
  tallied := hs.tallied
  stripped key lease hl := h.stripped key lease (hs.claims key lease hl)
  drawn key lease hl := by
    obtain ⟨i, hi, ht⟩ := h.drawn key lease (hs.claims key lease hl)
    exact ⟨i, by have := hs.issued; omega, ht⟩
  acquired lease hl := by
    obtain ⟨hstrip, i, hi, ht⟩ := h.acquired lease (hs.acquired lease hl)
    exact ⟨hstrip, i, by have := hs.issued; omega, ht⟩
  counted key lease hl := by
    rw [hs.refs key lease hl, hs.holders]
    exact h.counted key lease (hs.claims key lease hl)
  detached hc d := by
    cases he : s'.leases.get? d with
    | none => rfl
    | some e =>
      have := hs.leases d e he
      rw [h.detached hc d] at this
      cases this
  leaseIds := hs.leaseIds h.leaseIds
  leases d e he := by
    obtain ⟨hid, i, hi, ht⟩ := h.leases d e (hs.leases d e he)
    exact ⟨hid, i, by have := hs.issued; omega, ht⟩
  backed d lease e hl he := h.backed d lease e (hs.claims _ lease hl) (hs.leases d e he)
  claimed lease e hkind hheld he ht := by
    rw [hs.holders] at hheld
    have hcur := h.claimed lease e hkind hheld (hs.leases _ e he) ht
    obtain ⟨c, hc, htoken, howner⟩ := LeaseResourceCoordinator.current_iff.1 hcur
    cases hc' : s'.claims.get? lease.key with
    | none =>
      have hkey : lease.key.1 = "device" := hkind
      have hgone := hd lease.key (Dict.mem_keys_of_get? hc) hkey hc'
      have he' : s'.leases.get? lease.key.2 = some e := he
      rw [hgone] at he'
      cases he'
    | some c' =>
      have hsame := hs.claims _ c' hc'
      rw [hc] at hsame
      cases hsame
      exact LeaseResourceCoordinator.current_iff.2 ⟨c, hc', htoken, howner⟩

/-- Nothing was dropped. -/
theorem dropsTogether_of_same {s s' : LeaseState} (h : s'.claims = s.claims) :
    DropsTogether s s' := by
  intro key hk _ hnone
  obtain ⟨lease, hl⟩ := (Dict.mem_keys_iff _ _).1 hk
  rw [h, hl] at hnone
  cases hnone

theorem Agreed.fades {src : Ambient} {cfg : LeaseConfig} {s s' : LeaseState}
    (h : Agreed src cfg s) (hs : Fades s s') : Agreed src cfg s' :=
  h.shrinks (hs.shrinks h.tallied) (dropsTogether_of_same hs.same.claims)

/-! ## The device leases -/

/-- A device lease was stored, with the token of the one that was there or with a fresh one. -/
structure Leased (src : Ambient) (s s' : LeaseState) (deviceId ownerId token : String) : Prop where
  same : SameClaims s s'
  issued : s.issued ≤ s'.issued
  leaseIds : s.leases.keys.Nodup → s'.leases.keys.Nodup
  others : ∀ d e, d ≠ deviceId → s'.leases.get? d = some e → s.leases.get? d = some e
  stored : ∃ e, s'.leases.get? deviceId = some e ∧ e.deviceId = strip deviceId ∧
    e.ownerId = ownerId ∧ e.token = token
  token : (∃ e, s.leases.get? (strip deviceId) = some e ∧ e.ownerId = ownerId ∧ e.token = token) ∨
    ∃ i, s.issued ≤ i ∧ i < s'.issued ∧ token = src.uuid i

theorem Agreed.leased {src : Ambient} {cfg : LeaseConfig} {s s' : LeaseState}
    (h : Agreed src cfg s) {deviceId ownerId token : String}
    (hs : Leased src s s' deviceId ownerId token) (hbackend : cfg.deviceLeases ≠ none)
    (hclaim : ∀ c, s.claims.get? ("device", deviceId) = some c →
      token = c.token ∧ ownerId = c.ownerId) : Agreed src cfg s' := by
  obtain ⟨e₀, he₀, hid₀, howner₀, htoken₀⟩ := hs.stored
  have hissued := hs.issued
  -- The token of the new lease was drawn, now or before.
  have hdrawn : ∃ i < s'.issued, token = src.uuid i := by
    rcases hs.token with ⟨e, he, -, ht⟩ | ⟨i, -, hi, ht⟩
    · obtain ⟨-, i, hi, hti⟩ := h.leases _ e he
      exact ⟨i, by omega, ht.symm.trans hti⟩
    · exact ⟨i, hi, ht⟩
  constructor
  · exact h.tallied.congr hs.same
  · intro key lease hl
    exact h.stripped key lease (hs.same.claims ▸ hl)
  · intro key lease hl
    obtain ⟨i, hi, ht⟩ := h.drawn key lease (hs.same.claims ▸ hl)
    exact ⟨i, by omega, ht⟩
  · intro lease hl
    obtain ⟨hstrip, i, hi, ht⟩ := h.acquired lease (hs.same.history ▸ hl)
    exact ⟨hstrip, i, by omega, ht⟩
  · intro key lease hl
    rw [hs.same.refs, hs.same.history]
    exact h.counted key lease (hs.same.claims ▸ hl)
  · exact fun hnone => absurd hnone hbackend
  · exact hs.leaseIds h.leaseIds
  · intro d e he
    by_cases hd : d = deviceId
    · subst hd
      rw [he₀] at he
      cases he
      rw [htoken₀]
      exact ⟨hid₀, hdrawn⟩
    · obtain ⟨hid, i, hi, ht⟩ := h.leases d e (hs.others d e hd he)
      exact ⟨hid, i, by omega, ht⟩
  · intro d lease e hl he
    rw [hs.same.claims] at hl
    by_cases hd : d = deviceId
    · subst hd
      rw [he₀] at he
      cases he
      rw [htoken₀, howner₀]
      exact hclaim lease hl
    · exact h.backed d lease e hl (hs.others d e hd he)
  · intro lease e hkind hheld he ht
    rw [hs.same.history] at hheld
    have hcurrent : LeaseResourceCoordinator.current s lease = true := by
      by_cases hd : lease.resourceId = deviceId
      · rw [hd, he₀] at he
        cases he
        obtain ⟨l, hl, hsame⟩ := exists_acquired hheld
        obtain ⟨hkeys, htokens⟩ := ResourceLease.same_iff.1 hsame
        simp only [ResourceLease.ownerKey, Prod.mk.injEq] at hkeys
        obtain ⟨hstrip, i, hi, hti⟩ := h.acquired l hl
        rw [hkeys.2.1, hd] at hstrip
        rcases hs.token with ⟨e', he', -, ht'⟩ | ⟨j, hj, -, ht'⟩
        · rw [hstrip, ← hd] at he'
          exact h.claimed lease e' hkind hheld he' (by rw [ht', ← htoken₀, ht])
        · -- A fresh token is held by nobody.
          have huuid : src.uuid i = src.uuid j := by
            rw [← hti, htokens, ← ht, htoken₀, ht']
          have := src.fresh huuid
          omega
      · exact h.claimed lease e hkind hheld (hs.others _ e hd he) ht
    unfold LeaseResourceCoordinator.current at hcurrent ⊢
    rwa [hs.same.claims]

section Methods

variable [PyLib] (src : Ambient) {s : LeaseState}

omit [PyLib] in
theorem readClock_fades :
    Ensures (readClock src) s fun r s' => r = .ok (src.clock s.reads) ∧
      s' = { s with reads := s.reads + 1 } := ⟨rfl, rfl⟩

omit [PyLib] in
theorem fades_read (s : LeaseState) (reads : ℕ) : Fades s { s with reads := reads } :=
  ⟨⟨rfl, rfl, rfl⟩, le_rfl, id, fun _ _ h => h⟩

theorem expiresAt_fades (seconds : ℤ) :
    Ensures (expiresAt src seconds) s fun _ s' => Fades s s' ∧ s'.leases = s.leases ∧
      s'.issued = s.issued := by
  have hread : Fades s { s with reads := s.reads + 1 } := fades_read s _
  refine (readClock_fades src).bind (fun now t ht => ?_) fun e t ht => by cases ht.1
  obtain ⟨-, rfl⟩ := ht
  exact Ensures.ite (fun _ => ⟨hread, rfl, rfl⟩) fun _ => ⟨hread, rfl, rfl⟩

namespace DeviceLeaseService

/-- An id is among the expired ones because of a lease of it that has run out. -/
theorem mem_expiredIds {now : ℚ} {entries : List (String × DeviceLease)} {ids : List String}
    (h : expiredIds now entries = .ok ids) {deviceId : String} (hm : deviceId ∈ ids) :
    ∃ lease, (deviceId, lease) ∈ entries ∧ lease.alive now = false := by
  induction entries generalizing ids with
  | nil =>
    cases h
    cases hm
  | cons e rest ih =>
    obtain ⟨d, lease⟩ := e
    unfold expiredIds at h
    cases htime : parse lease.expiresAt with
    | error err =>
      rw [htime] at h
      cases h
    | ok time =>
      cases hrest : expiredIds now rest with
      | error err =>
        rw [htime, hrest] at h
        cases h
      | ok rest' =>
        rw [htime, hrest] at h
        have hids : ids = if time ≤ now then d :: rest' else rest' := by
          cases h
          rfl
        have htail : deviceId ∈ rest' →
            ∃ l, (deviceId, l) ∈ (d, lease) :: rest ∧ l.alive now = false := by
          intro hm'
          obtain ⟨l, hl, ha⟩ := ih hrest hm'
          exact ⟨l, List.mem_cons_of_mem _ hl, ha⟩
        rw [hids] at hm
        split at hm
        · rename_i hle
          rcases List.mem_cons.1 hm with rfl | hm
          · refine ⟨lease, List.mem_cons_self, ?_⟩
            unfold DeviceLease.alive
            rw [htime]
            simpa using hle
          · exact htail hm
        · exact htail hm

/-- `_expire_locked` drops leases, and none that is alive at its reading of the clock. -/
theorem expireLocked_fades (hids : s.leases.keys.Nodup) :
    Ensures (expireLocked src) s fun _ s' => Fades s s' ∧ s'.issued = s.issued ∧
      ∀ d e, s.leases.get? d = some e → e.alive (src.clock s.reads) = true →
        s'.leases.get? d = some e := by
  have hread : Fades s { s with reads := s.reads + 1 } := fades_read s _
  refine (readClock_fades src).bind (fun now t ht => ensures_get ?_) fun e t ht => by cases ht.1
  obtain ⟨hnow, rfl⟩ := ht
  cases hnow
  refine ensures_lift (fun ids hok => ?_) fun _ _ => ⟨hread, rfl, fun _ _ he _ => he⟩
  have hget : ∀ d, (s.leases.filterKeys fun id => !ids.contains id).get? d =
      if ids.contains d then none else s.leases.get? d := by
    intro d
    rw [Dict.get?_filterKeys]
    cases ids.contains d <;> rfl
  refine ⟨⟨⟨rfl, rfl, rfl⟩, le_rfl, fun h => Dict.nodup_keys_filterKeys h _, fun d e he => ?_⟩,
    rfl, fun d e he halive => ?_⟩
  · have he' : (s.leases.filterKeys fun id => !ids.contains id).get? d = some e := he
    rw [hget] at he'
    split at he'
    · cases he'
    · exact he'
  · change (s.leases.filterKeys fun id => !ids.contains id).get? d = some e
    rw [hget, if_neg]
    · exact he
    · intro hd
      obtain ⟨l, hl, hdead⟩ := mem_expiredIds hok (List.contains_iff_mem.1 hd)
      have heq := (Dict.get?_of_mem hids hl).symm.trans he
      cases heq
      rw [halive] at hdead
      cases hdead

/-- What storing a lease does. -/
theorem store_ensures (ttlSeconds : ℤ) (key deviceId ownerId token : String) :
    Ensures (store src ttlSeconds key deviceId ownerId token) s fun r s' =>
      (∀ e, r = .error e → Fades s s') ∧ ∀ lease, r = .ok lease →
        lease.deviceId = deviceId ∧ lease.ownerId = ownerId ∧ lease.token = token ∧
          ∃ t, Fades s t ∧ t.leases = s.leases ∧ t.issued = s.issued ∧
            s' = { t with leases := t.leases.set key lease } := by
  refine (expiresAt_fades src _).bind (fun expiry t ht => ?_) fun e t ht =>
    ⟨fun _ _ => ht.1, fun _ h => by cases h⟩
  constructor
  · intro e he
    cases he
  · intro lease hl
    cases hl
    exact ⟨rfl, rfl, rfl, t, ht.1, ht.2.1, ht.2.2, rfl⟩

omit [PyLib] in
/-- A lease that was stored over the one that was there, or with a fresh token. -/
theorem leased_of_store {s₀ t : LeaseState} {key ownerId token : String}
    (ht : Fades s₀ s) (hst : Fades s t) (hleases : t.leases = s.leases)
    (hissued : t.issued = s.issued) {lease : DeviceLease} (hid : lease.deviceId = strip key)
    (howner : lease.ownerId = ownerId) (htoken : lease.token = token)
    (hfrom : (∃ e, s₀.leases.get? (strip key) = some e ∧ e.ownerId = ownerId ∧ e.token = token) ∨
      ∃ i, s₀.issued ≤ i ∧ i < s.issued ∧ token = src.uuid i) :
    Leased src s₀ { t with leases := t.leases.set key lease } key ownerId token where
  same := ht.same.trans ⟨hst.same.claims, hst.same.refs, hst.same.history⟩
  issued := ht.issued.trans hst.issued
  leaseIds h := Dict.nodup_keys_set (hst.leaseIds (ht.leaseIds h)) _ _
  others d e hd he := by
    have he' : (t.leases.set key lease).get? d = some e := he
    rw [Dict.get?_set_of_ne _ hd, hleases] at he'
    exact ht.leases d e he'
  stored := ⟨lease, Dict.get?_set_self _ _ _, hid, howner, htoken⟩
  token := by
    rw [← hissued] at hfrom
    exact hfrom

/-- `acquire` stores a lease of the device for the owner, and keeps the token of a lease that is
still alive. -/
theorem acquire_ensures (hids : s.leases.keys.Nodup) (ttlSeconds : ℤ) {deviceId ownerId : String}
    (hdevice : strip deviceId = deviceId) (howner : strip ownerId = ownerId) :
    Ensures (acquire src ttlSeconds deviceId ownerId) s fun r s' =>
      (∀ e, r = .error e → Fades s s') ∧ ∀ lease, r = .ok lease →
        Leased src s s' deviceId ownerId lease.token ∧
          ∀ e, s.leases.get? deviceId = some e → e.alive (src.clock s.reads) = true →
            e.token = lease.token := by
  unfold acquire
  dsimp only
  rw [hdevice, howner]
  refine Ensures.ite (fun _ => ⟨fun _ _ => .refl s, fun _ h => by cases h⟩) fun _ => ?_
  refine (expireLocked_fades src hids).bind (fun _ t ht => ensures_get ?_) fun e t ht =>
    ⟨fun _ _ => ht.1, fun _ h => by cases h⟩
  obtain ⟨hfades, hissued, halive⟩ := ht
  cases hcurrent : t.leases.get? deviceId with
  | some current =>
    refine Ensures.ite (fun _ => ⟨fun _ _ => hfades, fun _ h => by cases h⟩) fun hsame => ?_
    refine (store_ensures src _ _ _ _ _).mono fun _ s' hs => ⟨fun e he => ?_, fun lease hl => ?_⟩
    · exact hfades.trans (hs.1 e he)
    · obtain ⟨hid, ho, htoken, u, hu, hul, hui, rfl⟩ := hs.2 lease hl
      refine ⟨leased_of_store src hfades hu hul hui (hid.trans hdevice.symm) ho rfl (.inl ?_),
        fun e he ha => ?_⟩
      · refine ⟨current, ?_, not_not.1 hsame, htoken.symm⟩
        rw [hdevice]
        exact hfades.leases _ _ hcurrent
      · have := halive _ _ he ha
        rw [hcurrent] at this
        cases this
        exact htoken.symm
  | none =>
    have hdraw : Ensures (drawId src) t fun r s' => r = .ok (src.uuid t.issued) ∧
        s' = { t with issued := t.issued + 1 } := ⟨rfl, rfl⟩
    refine hdraw.bind (fun token t' ht' => ?_) fun e t' ht' => by cases ht'.1
    obtain ⟨htok, rfl⟩ := ht'
    cases htok
    have hfades' : Fades s { t with issued := t.issued + 1 } :=
      hfades.trans ⟨⟨rfl, rfl, rfl⟩, Nat.le_succ _, id, fun _ _ h => h⟩
    refine (store_ensures src _ _ _ _ _).mono fun _ s' hs => ⟨fun e he => ?_, fun lease hl => ?_⟩
    · exact hfades'.trans (hs.1 e he)
    · obtain ⟨hid, ho, htoken, u, hu, hul, hui, rfl⟩ := hs.2 lease hl
      refine ⟨leased_of_store src hfades' hu hul hui (hid.trans hdevice.symm) ho rfl (.inr ?_),
        fun e he ha => ?_⟩
      · exact ⟨t.issued, hissued.ge, Nat.lt_succ_self _, htoken⟩
      · have := halive _ _ he ha
        rw [hcurrent] at this
        cases this

/-- `renew` stores a lease over one with the given token. -/
theorem renew_ensures (hids : s.leases.keys.Nodup)
    (hknown : ∀ d e, s.leases.get? d = some e → e.deviceId = strip d) (ttlSeconds : ℤ)
    (deviceId token : String) :
    Ensures (renew src ttlSeconds deviceId token) s fun _ s' =>
      Fades s s' ∨ ∃ e, s.leases.get? (strip deviceId) = some e ∧ e.token = token ∧
        Leased src s s' deviceId e.ownerId token := by
  have hrequire : Ensures (requireLocked src deviceId token) s fun r t => Fades s t ∧
      ∀ e, r = .ok e → s.leases.get? (strip deviceId) = some e ∧ e.token = token := by
    refine (expireLocked_fades src hids).bind (fun _ t ht => ensures_get ?_) fun e t ht =>
      ⟨ht.1, fun _ h => by cases h⟩
    cases hcurrent : t.leases.get? (strip deviceId) with
    | none => exact ⟨ht.1, fun _ h => by cases h⟩
    | some lease =>
      refine Ensures.ite (fun _ => ⟨ht.1, fun _ h => by cases h⟩) fun htoken => ?_
      refine ⟨ht.1, fun e he => ?_⟩
      cases he
      exact ⟨ht.1.leases _ _ hcurrent, not_not.1 htoken⟩
  refine hrequire.bind (fun e t ht => ?_) fun e t ht => .inl ht.1
  obtain ⟨hfades, hfound⟩ := ht
  obtain ⟨hget, htoken⟩ := hfound e rfl
  refine (store_ensures src _ _ _ _ _).mono fun r _ hs => ?_
  cases r with
  | error err => exact .inl (hfades.trans (hs.1 err rfl))
  | ok lease =>
    obtain ⟨hid, ho, ht, u, hu, hul, hui, rfl⟩ := hs.2 lease rfl
    have hstrip : lease.deviceId = strip deviceId := by
      rw [hid, hknown _ _ hget, strip_strip]
    exact .inr ⟨e, hget, htoken, leased_of_store src hfades hu hul hui hstrip ho
      (ht.trans htoken) (.inl ⟨e, hget, rfl, htoken⟩)⟩

theorem get_fades (hids : s.leases.keys.Nodup) (deviceId : String) :
    Ensures (DeviceLeaseService.get src deviceId) s fun _ s' => Fades s s' := by
  refine (expireLocked_fades src hids).bind (fun _ t ht => ensures_get ?_) fun _ t ht => ht.1
  exact ht.1

end DeviceLeaseService

/-! ## The coordinator -/

namespace LeaseResourceCoordinator

variable (cfg : LeaseConfig)

theorem backendMissing_fades (hids : s.leases.keys.Nodup) (lease : ResourceLease) :
    Ensures (backendMissing src cfg lease) s fun _ s' => Fades s s' := by
  unfold backendMissing
  refine Ensures.ite (fun _ => ?_) fun _ => .refl s
  exact (DeviceLeaseService.get_fades src hids _).bind (fun _ _ ht => ht) fun _ _ ht => ht

theorem expiredKeys_fades (hids : s.leases.keys.Nodup) (now : ℚ)
    (entries : List (ResourceKey × ResourceLease)) :
    Ensures (expiredKeys src cfg now entries) s fun _ s' => Fades s s' := by
  induction entries generalizing s with
  | nil => exact .refl s
  | cons e rest ih =>
    refine (backendMissing_fades src cfg hids _).bind (fun _ t ht => ?_) fun _ _ ht => ht
    refine (ih (ht.leaseIds hids)).bind (fun _ t' ht' => ?_) fun _ t' ht' => ht.trans ht'
    exact ht.trans ht'

theorem expireLocked_shrinks (h : Tallied s) (hids : s.leases.keys.Nodup) :
    Ensures (expireLocked src cfg) s fun _ s' => Shrinks s s' := by
  have hread : Fades s { s with reads := s.reads + 1 } := fades_read s _
  refine (readClock_fades src).bind (fun now t ht => ensures_get ?_) fun e t ht => by cases ht.1
  obtain ⟨-, rfl⟩ := ht
  refine (expiredKeys_fades src cfg (hread.leaseIds hids) _ _).bind (fun keys t' ht' => ?_)
    fun _ t' ht' => (hread.trans ht').shrinks h
  have hshrinks : Shrinks s t' := (hread.trans ht').shrinks h
  change Shrinks s (keys.foldl dropClaim t')
  clear ht'
  induction keys generalizing t' with
  | nil => exact hshrinks
  | cons key keys ih => exact ih _ (hshrinks.trans (dropClaim_shrinks hshrinks.tallied key))

/-- The state after the `_expire_locked` of a call. -/
def afterExpiry (s : LeaseState) : LeaseState := ((expireLocked src cfg).run s).2

/-- A claim that was kept has a device lease that is alive when the back-end looks. -/
def KeptAlive (key : ResourceKey) (s : LeaseState) : Prop :=
  key.1 = "device" → cfg.deviceLeases ≠ none → s.claims.contains key = true →
    ∃ e ∈ s.leases.get? key.2, e.alive (src.clock s.reads) = true

omit [PyLib] in
/-- An acquisition, seen from the tables it is made on. -/
theorem hold_agreed (h : Agreed src cfg s) {lease : ResourceLease}
    (hstrip : strip lease.resourceId = lease.resourceId)
    (hdrawn : ∃ i < s.issued, lease.token = src.uuid i)
    (hthere : ∀ c, s.claims.get? lease.key = some c →
      c.token = lease.token ∧ c.ownerId = lease.ownerId)
    (hfree : s.claims.get? lease.key = none → holders lease s.history = 0)
    (hbacked : lease.kind = "device" → ∀ e, s.leases.get? lease.resourceId = some e →
      e.token = lease.token ∧ e.ownerId = lease.ownerId) : Agreed src cfg (hold lease s) := by
  have hclaims : (hold lease s).claims.get? lease.key = some lease := Dict.get?_set_self _ _ _
  have hothers : ∀ key, key ≠ lease.key →
      (hold lease s).claims.get? key = s.claims.get? key := fun key hk =>
    Dict.get?_set_of_ne _ hk _
  have hholders : ∀ l, holders l (hold lease s).history =
      holders l s.history + if lease.same l then 1 else 0 := by
    intro l
    unfold hold
    dsimp only
    split <;> rfl
  have hself : lease.same lease = true := ResourceLease.same_iff.2 ⟨rfl, rfl⟩
  constructor
  · exact hold_tallied h.tallied fun c hc => (hthere c hc).2
  · intro key l hl
    by_cases hk : key = lease.key
    · rw [hk]
      exact hstrip
    · exact h.stripped key l (hothers key hk ▸ hl)
  · intro key l hl
    by_cases hk : key = lease.key
    · rw [hk, hclaims] at hl
      cases hl
      exact hdrawn
    · exact h.drawn key l (hothers key hk ▸ hl)
  · intro l hl
    have hl' : l = lease ∨ .acquired l ∈ s.history := by
      unfold hold at hl
      dsimp only at hl
      rcases List.mem_cons.1 hl with hl | hl
      · cases hl
        exact .inl rfl
      · split at hl
        · exact .inr hl
        · rcases List.mem_cons.1 hl with hl | hl
          · cases hl
          · exact .inr hl
    rcases hl' with rfl | hl'
    · exact ⟨hstrip, hdrawn⟩
    · exact h.acquired l hl'
  · intro key l hl
    by_cases hk : key = lease.key
    · rw [hk, hclaims] at hl
      cases hl
      rw [hholders, hself, if_pos rfl]
      refine (Dict.get?_set_self _ _ _).trans ?_
      congr 1
      cases hc : s.claims.get? lease.key with
      | none =>
        have hnone : s.refs.get? lease.ownerKey = none := by
          cases hr : s.refs.get? lease.ownerKey with
          | none => rfl
          | some n =>
            obtain ⟨l, hl', -⟩ := h.tallied.owned lease.kind lease.resourceId lease.ownerId n hr
            have hl'' : s.claims.get? lease.key = some l := hl'
            rw [hc] at hl''
            cases hl''
        rw [hnone, hfree hc]
        rfl
      | some c =>
        obtain ⟨htoken, howner⟩ := hthere c hc
        have hkey := h.tallied.keyed lease.key c hc
        have hownerKey : c.ownerKey = lease.ownerKey := by
          simp only [ResourceLease.key, Prod.mk.injEq] at hkey
          simp [ResourceLease.ownerKey, hkey.1, hkey.2, howner]
        have hcount := h.counted lease.key c hc
        have hsame : holders c s.history = holders lease s.history :=
          holders_congr hownerKey htoken s.history
        rw [hownerKey, hsame] at hcount
        rw [hcount]
        rfl
    · have hl' := hothers key hk ▸ hl
      have hne : l.key ≠ lease.key := by
        rw [h.tallied.keyed key l hl']
        exact hk
      have hdiff : lease.same l = false := by
        refine Bool.eq_false_iff.2 fun hs => hne ?_
        have hkeys := (ResourceLease.same_iff.1 hs).1
        simp only [ResourceLease.ownerKey, Prod.mk.injEq] at hkeys
        simp [ResourceLease.key, hkeys.1, hkeys.2.1]
      rw [hholders, hdiff]
      refine (Dict.get?_set_of_ne _ (ownerKey_ne hne _ _) _).trans ?_
      exact h.counted key l hl'
  · exact h.detached
  · exact h.leaseIds
  · exact h.leases
  · intro d l e hl he
    by_cases hk : (("device", d) : ResourceKey) = lease.key
    · rw [hk, hclaims] at hl
      cases hl
      simp only [ResourceLease.key, Prod.mk.injEq] at hk
      have he' : s.leases.get? lease.resourceId = some e := hk.2 ▸ he
      exact hbacked hk.1.symm e he'
    · exact h.backed d l e (hothers _ hk ▸ hl) he
  · intro l e hkind hheld he ht
    by_cases hs : lease.same l = true
    · obtain ⟨hkeys, htokens⟩ := ResourceLease.same_iff.1 hs
      simp only [ResourceLease.ownerKey, Prod.mk.injEq] at hkeys
      have hkey : l.key = lease.key := by
        simp [ResourceLease.key, hkeys.1, hkeys.2.1]
      exact current_iff.2 ⟨lease, hkey ▸ hclaims, htokens, hkeys.2.2⟩
    · rw [hholders, if_neg hs, Nat.add_zero] at hheld
      obtain ⟨c, hc, htoken, howner⟩ := current_iff.1 (h.claimed l e hkind hheld he ht)
      by_cases hk : l.key = lease.key
      · rw [hk] at hc
        obtain ⟨htoken', howner'⟩ := hthere c hc
        exact current_iff.2 ⟨lease, hk ▸ hclaims, htoken'.symm.trans htoken,
          howner'.symm.trans howner⟩
      · exact current_iff.2 ⟨c, (hothers _ hk).trans hc, htoken, howner⟩

omit [PyLib] in
/-- The token of a claim, or a fresh one that nobody holds. -/
theorem tokenOf_ensures (h : Agreed src cfg s) (key : ResourceKey) :
    Ensures (tokenOf src (s.claims.get? key)) s fun r s' => Fades s s' ∧ s'.reads = s.reads ∧
      s'.leases = s.leases ∧ ∀ token, r = .ok token → (∃ i < s'.issued, token = src.uuid i) ∧
        (∀ c, s.claims.get? key = some c → c.token = token) ∧
          (s.claims.get? key = none → ∀ lease, lease.token = token →
            holders lease s.history = 0) := by
  cases hc : s.claims.get? key with
  | some c =>
    refine ⟨.refl s, rfl, rfl, fun token ht => ?_⟩
    cases ht
    refine ⟨h.drawn key c hc, fun c' hc' => ?_, fun hnone => ?_⟩
    · cases hc'
      rfl
    · cases hnone
  | none =>
    refine ⟨⟨⟨rfl, rfl, rfl⟩, Nat.le_succ _, id, fun _ _ h => h⟩, rfl, rfl, fun token ht => ?_⟩
    cases ht
    refine ⟨⟨s.issued, Nat.lt_succ_self _, rfl⟩, fun _ hc' => (by cases hc'), fun _ lease hl => ?_⟩
    by_contra hne
    obtain ⟨l, hl', hsame⟩ := exists_acquired (Nat.pos_of_ne_zero hne)
    obtain ⟨-, i, hi, ht⟩ := h.acquired l hl'
    have huuid : src.uuid i = src.uuid s.issued := by
      rw [← ht, (ResourceLease.same_iff.1 hsame).2, hl]
    have := src.fresh huuid
    omega

/-- What an acquisition is granted agrees with the claim that is there. -/
structure Granted (kind resourceId ownerId token : String) (t s' : LeaseState) : Prop where
  agreed : Agreed src cfg s'
  same : SameClaims t s'
  drawn : ∃ i < s'.issued, token = src.uuid i
  there : ∀ c, t.claims.get? (kind, resourceId) = some c → c.token = token
  free : t.claims.get? (kind, resourceId) = none → ∀ lease : ResourceLease,
    lease.ownerKey = (kind, resourceId, ownerId) → lease.token = token →
      holders lease t.history = 0
  backed : kind = "device" → ∀ e, s'.leases.get? resourceId = some e →
    e.token = token ∧ e.ownerId = ownerId

theorem grant_agreed (h : Agreed src cfg s) {kind resourceId ownerId token : String}
    (hresource : strip resourceId = resourceId) (howner : strip ownerId = ownerId)
    (hsame : ∀ c, s.claims.get? (kind, resourceId) = some c → c.ownerId = ownerId)
    (halive : KeptAlive src cfg (kind, resourceId) s)
    (hdrawn : ∃ i < s.issued, token = src.uuid i)
    (hthere : ∀ c, s.claims.get? (kind, resourceId) = some c → c.token = token)
    (hfree : s.claims.get? (kind, resourceId) = none → ∀ lease, lease.token = token →
      holders lease s.history = 0) (ttlSeconds : ℤ) :
    Ensures (grant src cfg kind resourceId ownerId token ttlSeconds) s fun r s' =>
      (∀ e, r = .error e → Agreed src cfg s') ∧ ∀ token expiry, r = .ok (token, expiry) →
        Granted src cfg kind resourceId ownerId token s s' := by
  unfold grant
  cases hbackend : if kind = "device" then cfg.deviceLeases else none with
  | none =>
    refine (expiresAt_fades src _).bind (fun expiry t ht => ?_) fun e t ht =>
      ⟨fun _ _ => h.fades ht.1, fun _ _ h => by cases h⟩
    refine ensures_pure ⟨fun _ he => (by cases he), fun token' expiry' ht' => ?_⟩
    cases ht'
    obtain ⟨hfades, hleases, hissued⟩ := ht
    refine ⟨h.fades hfades, hfades.same, hissued ▸ hdrawn, hthere,
      fun hnone lease _ hl => hfree hnone lease hl, fun hkind e he => ?_⟩
    rw [if_pos hkind] at hbackend
    rw [hleases, h.detached hbackend] at he
    cases he
  | some backendTtl =>
    have hkind : kind = "device" := by
      by_contra hne
      rw [if_neg hne] at hbackend
      cases hbackend
    have hsome : cfg.deviceLeases ≠ none := by
      rw [if_pos hkind] at hbackend
      rw [hbackend]
      exact Option.some_ne_none _
    subst hkind
    refine (DeviceLeaseService.acquire_ensures src h.leaseIds backendTtl hresource howner).bind
      (fun lease t ht => ?_) fun e t ht => ⟨fun _ _ => h.fades (ht.1 e rfl), fun _ _ h => by cases h⟩
    obtain ⟨hleased, hkept⟩ := ht.2 lease rfl
    -- The token of the claim is the one that the back-end kept.
    have htoken : ∀ c, s.claims.get? ("device", resourceId) = some c →
        lease.token = c.token ∧ ownerId = c.ownerId := by
      intro c hc
      have hcontains : s.claims.contains ("device", resourceId) = true := by
        simp [Dict.contains, hc]
      obtain ⟨e, he, hea⟩ := halive rfl hsome hcontains
      exact ⟨(hkept e he hea).symm.trans (h.backed resourceId c e hc he).1, (hsame c hc).symm⟩
    have hagreed : Agreed src cfg t := h.leased hleased hsome htoken
    obtain ⟨e₀, he₀, -, howner₀, htoken₀⟩ := hleased.stored
    refine (expiresAt_fades src _).bind (fun _ u hu => ?_) fun e u hu =>
      ⟨fun _ _ => hagreed.fades hu.1, fun _ _ h => by cases h⟩
    refine ensures_pure ⟨fun _ he => (by cases he), fun token' expiry' ht' => ?_⟩
    cases ht'
    obtain ⟨hfades, hleases, hissued⟩ := hu
    have hsc : SameClaims s u := hleased.same.trans hfades.same
    refine ⟨hagreed.fades hfades, hsc, ?_, fun c hc => (htoken c hc).1.symm,
      fun hnone l hkey hl => ?_, fun _ e he => ?_⟩
    · obtain ⟨-, i, hi, hti⟩ := hagreed.leases _ e₀ he₀
      exact ⟨i, by omega, htoken₀.symm.trans hti⟩
    · by_contra hne
      simp only [ResourceLease.ownerKey, Prod.mk.injEq] at hkey
      have hheld : 0 < holders l t.history := by
        rw [hleased.same.history]
        exact Nat.pos_of_ne_zero hne
      have he₀' : t.leases.get? l.resourceId = some e₀ := by rw [hkey.2.1, he₀]
      obtain ⟨c, hc, -, -⟩ := current_iff.1
        (hagreed.claimed l e₀ hkey.1 hheld he₀' (htoken₀.trans hl.symm))
      have hlkey : l.key = ("device", resourceId) := by
        simp [ResourceLease.key, hkey.1, hkey.2.1]
      rw [hleased.same.claims, hlkey, hnone] at hc
      cases hc
    · rw [hleases, he₀] at he
      cases he
      exact ⟨htoken₀, howner₀⟩

theorem acquire_agreed (h : Agreed src cfg s) (request : ResourceRequest)
    (hd : DropsTogether s (afterExpiry src cfg s))
    (halive : KeptAlive src cfg (strip request.kind, strip request.resourceId)
      (afterExpiry src cfg s)) :
    Ensures (acquire src cfg request) s fun _ s' => Agreed src cfg s' := by
  have hexpire : Ensures (expireLocked src cfg) s fun _ t => t = afterExpiry src cfg s ∧
      Agreed src cfg t :=
    ⟨rfl, h.shrinks (expireLocked_shrinks src cfg h.tallied h.leaseIds) hd⟩
  refine hexpire.bind (fun _ t ht => ensures_get ?_) fun _ _ ht => ht.2
  obtain ⟨rfl, hagreed⟩ := ht
  set t := afterExpiry src cfg s with ht
  set key : ResourceKey := (strip request.kind, strip request.resourceId) with hkey
  refine Ensures.ite (fun _ => hagreed) fun hfree => ?_
  have howner : ∀ c, t.claims.get? key = some c → c.ownerId = strip request.ownerId := by
    intro c hc
    by_contra hne
    refine hfree ?_
    rw [hc, Option.filter_some, if_pos (by simpa using hne)]
    rfl
  refine (tokenOf_ensures src cfg hagreed key).bind (fun token u hu => ?_)
    fun _ u hu => hagreed.fades hu.1
  obtain ⟨hfades, hreads, hleases, htoken⟩ := hu
  obtain ⟨hdrawn, hthere, hzero⟩ := htoken token rfl
  have halive' : KeptAlive src cfg key u := by
    unfold KeptAlive at halive ⊢
    rw [hfades.same.claims, hleases, hreads]
    exact halive
  have hgrant := grant_agreed src cfg (hagreed.fades hfades)
    (strip_strip request.resourceId) (strip_strip request.ownerId)
    (fun c hc => howner c (hfades.same.claims ▸ hc)) halive' hdrawn
    (fun c hc => hthere c (hfades.same.claims ▸ hc))
    (fun hnone => by
      rw [hfades.same.history]
      exact hzero (hfades.same.claims ▸ hnone)) request.ttlSeconds
  refine hgrant.bind (fun granted v hv => ?_) fun e v hv => hv.1 e rfl
  obtain ⟨token', expiry⟩ := granted
  have hg := hv.2 token' expiry rfl
  change Agreed src cfg (hold ⟨strip request.kind, strip request.resourceId,
    strip request.ownerId, token', expiry⟩ v)
  refine hold_agreed src cfg hg.agreed (strip_strip _) hg.drawn (fun c hc => ?_) (fun hnone => ?_)
    hg.backed
  · have hc' : u.claims.get? key = some c := hg.same.claims ▸ hc
    exact ⟨hg.there c hc', howner c (hfades.same.claims ▸ hc')⟩
  · rw [hg.same.history]
    exact hg.free (hg.same.claims ▸ hnone) _ rfl rfl

/-- A renewal in the back-end. -/
theorem backendRenew_agreed (h : Agreed src cfg s) (hbackend : cfg.deviceLeases ≠ none)
    (ttlSeconds : ℤ) (deviceId token : String) :
    Ensures (DeviceLeaseService.renew src ttlSeconds deviceId token) s fun _ s' =>
      Agreed src cfg s' ∧ SameClaims s s' := by
  refine (DeviceLeaseService.renew_ensures src h.leaseIds (fun d e he => (h.leases d e he).1)
    ttlSeconds deviceId token).mono fun _ s' hs => ?_
  rcases hs with hfades | ⟨e, he, htoken, hleased⟩
  · exact ⟨h.fades hfades, hfades.same⟩
  · refine ⟨h.leased hleased hbackend fun c hc => ?_, hleased.same⟩
    have hstrip : strip deviceId = deviceId := h.stripped ("device", deviceId) c hc
    rw [hstrip] at he
    obtain ⟨ht, ho⟩ := h.backed deviceId c e hc he
    exact ⟨htoken.symm.trans ht, ho⟩

omit [PyLib] in
/-- A claim is stored with another expiry. -/
theorem renewed_agreed (h : Agreed src cfg s) {lease renewed : ResourceLease}
    (hcur : current s lease = true) (hkey : renewed.ownerKey = lease.ownerKey)
    (htoken : renewed.token = lease.token) :
    Agreed src cfg { s with claims := s.claims.set lease.key renewed } := by
  obtain ⟨c, hc, hct, hco⟩ := current_iff.1 hcur
  simp only [ResourceLease.ownerKey, Prod.mk.injEq] at hkey
  obtain ⟨hkind, hresource, howner⟩ := hkey
  have hrkey : renewed.key = lease.key := by simp [ResourceLease.key, hkind, hresource]
  have hckey := h.tallied.keyed lease.key c hc
  have hownerKey : c.ownerKey = renewed.ownerKey := by
    simp only [ResourceLease.key, Prod.mk.injEq] at hckey
    simp [ResourceLease.ownerKey, hckey.1, hckey.2, hco, hkind, hresource, howner]
  have hset : (s.claims.set lease.key renewed).get? lease.key = some renewed :=
    Dict.get?_set_self _ _ _
  have hothers : ∀ key, key ≠ lease.key →
      (s.claims.set lease.key renewed).get? key = s.claims.get? key := fun key hk =>
    Dict.get?_set_of_ne _ hk _
  constructor
  · rw [← hrkey] at hc ⊢
    exact renewed_tallied h.tallied hc (hco.trans howner.symm)
  · intro key l hl
    by_cases hk : key = lease.key
    · rw [hk]
      exact h.stripped lease.key c hc
    · exact h.stripped key l ((hothers key hk).symm.trans hl)
  · intro key l hl
    by_cases hk : key = lease.key
    · have hl' : (s.claims.set lease.key renewed).get? lease.key = some l := hk ▸ hl
      rw [hset] at hl'
      cases hl'
      rw [htoken, ← hct]
      exact h.drawn lease.key c hc
    · exact h.drawn key l ((hothers key hk).symm.trans hl)
  · exact h.acquired
  · intro key l hl
    by_cases hk : key = lease.key
    · have hl' : (s.claims.set lease.key renewed).get? lease.key = some l := hk ▸ hl
      rw [hset] at hl'
      cases hl'
      have hcount := h.counted lease.key c hc
      rw [hownerKey, holders_congr hownerKey (hct.trans htoken.symm)] at hcount
      exact hcount
    · exact h.counted key l ((hothers key hk).symm.trans hl)
  · exact h.detached
  · exact h.leaseIds
  · exact h.leases
  · intro d l e hl he
    by_cases hk : (("device", d) : ResourceKey) = lease.key
    · have hl' : (s.claims.set lease.key renewed).get? lease.key = some l := hk ▸ hl
      rw [hset] at hl'
      cases hl'
      obtain ⟨ht, ho⟩ := h.backed d c e (hk ▸ hc) he
      exact ⟨ht.trans (hct.trans htoken.symm), ho.trans (hco.trans howner.symm)⟩
    · exact h.backed d l e ((hothers _ hk).symm.trans hl) he
  · intro l e hkind' hheld he ht
    obtain ⟨c', hc', ht', ho'⟩ := current_iff.1 (h.claimed l e hkind' hheld he ht)
    by_cases hk : l.key = lease.key
    · rw [hk, hc] at hc'
      cases hc'
      refine current_iff.2 ⟨renewed, ?_, ?_, ?_⟩
      · change (s.claims.set lease.key renewed).get? l.key = some renewed
        rw [hk, hset]
      · exact htoken.trans (hct.symm.trans ht')
      · exact howner.trans (hco.symm.trans ho')
    · exact current_iff.2 ⟨c', (hothers _ hk).trans hc', ht', ho'⟩

theorem renew_agreed (h : Agreed src cfg s) (lease : ResourceLease)
    (hd : DropsTogether s (afterExpiry src cfg s)) :
    Ensures (renew src cfg lease) s fun _ s' => Agreed src cfg s' := by
  have hexpire : Ensures (expireLocked src cfg) s fun _ t => Agreed src cfg t :=
    h.shrinks (expireLocked_shrinks src cfg h.tallied h.leaseIds) hd
  refine hexpire.bind (fun _ t ht => ensures_get ?_) fun _ _ ht => ht
  refine Ensures.ite (fun _ => ht) fun hcur => ?_
  have hexpiry : Ensures (renewedExpiry src cfg lease) t fun _ u =>
      Agreed src cfg u ∧ SameClaims t u := by
    unfold renewedExpiry
    cases hbackend : if lease.kind = "device" then cfg.deviceLeases else none with
    | none =>
      exact (expiresAt_fades src _).mono fun _ u hu => ⟨ht.fades hu.1, hu.1.same⟩
    | some backendTtl =>
      have hsome : cfg.deviceLeases ≠ none := by
        intro hnone
        rw [hnone, ite_self] at hbackend
        cases hbackend
      refine (backendRenew_agreed src cfg ht hsome _ _ _).bind (fun _ u hu => ?_) fun _ _ hu => hu
      refine (expiresAt_fades src _).bind (fun _ v hv => ?_) fun _ v hv =>
        ⟨hu.1.fades hv.1, hu.2.trans hv.1.same⟩
      exact ensures_pure ⟨hu.1.fades hv.1, hu.2.trans hv.1.same⟩
  refine hexpiry.bind (fun expiry u hu => ?_) fun _ _ hu => hu.1
  have hcur' : current u lease = true := by
    unfold current at hcur ⊢
    rw [hu.2.claims]
    simpa using hcur
  have hkey : ({ lease with expiresAt := expiry } : ResourceLease).ownerKey = lease.ownerKey := rfl
  exact renewed_agreed src cfg hu.1 hcur' hkey rfl

omit [PyLib] in
/-- The device leases after a release in the back-end. -/
theorem backendRelease_ensures (deviceId token : String) :
    Ensures (DeviceLeaseService.release deviceId token) s fun _ s' => s'.issued = s.issued ∧
      (s'.leases = s.leases ∧ (∀ e, s.leases.get? (strip deviceId) = some e → e.token ≠ token) ∨
        ∃ e, s.leases.get? (strip deviceId) = some e ∧ e.token = token ∧
          s'.leases = s.leases.erase e.deviceId) := by
  unfold DeviceLeaseService.release
  refine ensures_get ?_
  cases he : s.leases.get? (strip deviceId) with
  | none => exact ensures_pure ⟨rfl, .inl ⟨rfl, fun _ h => by cases h⟩⟩
  | some e =>
    refine Ensures.ite (fun hne => ensures_pure ⟨rfl, .inl ⟨rfl, fun e' he' => ?_⟩⟩) fun htoken => ?_
    · cases he'
      exact hne
    · exact ⟨rfl, .inr ⟨e, rfl, not_not.1 htoken, rfl⟩⟩

omit [PyLib] in
/-- The device leases after the release of a claim: they are touched with the last reference only. -/
theorem release_leases {lease : ResourceLease} (hcur : current s lease = true) :
    Ensures (release cfg lease) s fun _ s' => s'.issued = s.issued ∧
      (s'.leases = s.leases ∧
        ((s.refs.get? lease.ownerKey).getD 0 ≤ 1 → lease.kind = "device" →
          cfg.deviceLeases ≠ none → ∀ e, s.leases.get? (strip lease.resourceId) = some e →
            e.token ≠ lease.token) ∨
        (s.refs.get? lease.ownerKey).getD 0 ≤ 1 ∧
          ∃ e, s.leases.get? (strip lease.resourceId) = some e ∧ e.token = lease.token ∧
            lease.kind = "device" ∧ s'.leases = s.leases.erase e.deviceId) := by
  unfold release
  refine ensures_get ?_
  rw [hcur]
  refine Ensures.ite (fun hne => by cases hne) fun _ => ?_
  refine Ensures.ite (fun hmore => ⟨rfl, .inl ⟨rfl, fun hle => absurd hmore (by omega)⟩⟩)
    fun hlast => ensures_set ?_
  have hle : (s.refs.get? lease.ownerKey).getD 0 ≤ 1 := by omega
  refine Ensures.ite (fun hdevice => ?_) fun hother => ?_
  · refine (backendRelease_ensures _ _).mono fun _ s' hs => ⟨hs.1, ?_⟩
    rcases hs.2 with ⟨hsame, hnone⟩ | ⟨e, he, ht, herase⟩
    · exact .inl ⟨hsame, fun _ _ _ => hnone⟩
    · exact .inr ⟨hle, e, he, ht, hdevice.1, herase⟩
  · refine ensures_pure ⟨rfl, .inl ⟨rfl, fun _ hkind hsome => ?_⟩⟩
    exact absurd ⟨hkind, Option.isSome_iff_ne_none.2 hsome⟩ hother

/-- What one release does to tables that agree. -/
structure ReleaseAgrees (src : Ambient) (cfg : LeaseConfig) (lease : ResourceLease)
    (s s' : LeaseState) : Prop where
  agreed : Agreed src cfg s'
  /-- With the last holder of a claim the device lease is gone. -/
  freed : lease.kind = "device" → holders lease s.history = 1 →
    (current s lease = true → s'.leases.get? lease.resourceId = none) ∧
      ∀ e, s'.leases.get? lease.resourceId = some e → e.token ≠ lease.token
  /-- A device lease that is gone has no holder left. -/
  kept : ∀ d e, s.leases.get? d = some e → s'.leases.get? d = none → ∀ l : ResourceLease,
    l.ownerKey = ("device", d, e.ownerId) → l.token = e.token → holders l s'.history = 0

omit [PyLib] in
/-- A lease that is given back without being the current one. -/
theorem returned_agrees (h : Agreed src cfg s) {lease : ResourceLease}
    (hcur : current s lease = false) :
    ReleaseAgrees src cfg lease s { s with history := .returned lease :: s.history } := by
  have hle : ∀ l, holders l (.returned lease :: s.history) ≤ holders l s.history := fun l =>
    Nat.sub_le _ _
  refine ⟨?_, fun hkind hone => ?_, fun d e he hnone => ?_⟩
  · constructor
    · exact returned_tallied h.tallied lease
    · exact h.stripped
    · exact h.drawn
    · intro l hl
      rcases List.mem_cons.1 hl with hl | hl
      · cases hl
      · exact h.acquired l hl
    · intro key l hl
      have hdiff : lease.same l = false := by
        refine Bool.eq_false_iff.2 fun hs => ?_
        obtain ⟨hkeys, htoken⟩ := ResourceLease.same_iff.1 hs
        simp only [ResourceLease.ownerKey, Prod.mk.injEq] at hkeys
        have hkey : lease.key = key := by
          rw [← h.tallied.keyed key l hl]
          simp [ResourceLease.key, hkeys.1, hkeys.2.1]
        rw [current_iff.2 ⟨l, hkey ▸ hl, htoken.symm, hkeys.2.2.symm⟩] at hcur
        cases hcur
      have hsame : holders l (.returned lease :: s.history) = holders l s.history := by
        simp [holders, hdiff]
      rw [hsame]
      exact h.counted key l hl
    · exact h.detached
    · exact h.leaseIds
    · exact h.leases
    · exact h.backed
    · exact fun l e hkind hheld he ht =>
        h.claimed l e hkind (lt_of_lt_of_le hheld (hle l)) he ht
  · refine ⟨fun hcur' => ?_, fun e he ht => ?_⟩
    · rw [hcur] at hcur'
      cases hcur'
    · have hcur' := h.claimed lease e hkind (by omega) he ht
      rw [hcur] at hcur'
      cases hcur'
  · have he' : s.leases.get? d = none := hnone
    rw [he] at he'
    cases he'

omit [PyLib] in
/-- A lease that is given back as the current one. -/
theorem released_agrees (h : Agreed src cfg s) {lease : ResourceLease}
    (hcur : current s lease = true) :
    Ensures (release cfg lease) { s with history := .returned lease :: s.history } fun _ s' =>
      ReleaseAgrees src cfg lease s s' := by
  set s₁ : LeaseState := { s with history := .returned lease :: s.history } with hs₁
  have hcur₁ : current s₁ lease = true := hcur
  obtain ⟨c, hc, hct, hco⟩ := current_iff.1 hcur
  have hckey := h.tallied.keyed lease.key c hc
  have hownerKey : c.ownerKey = lease.ownerKey := by
    simp only [ResourceLease.key, Prod.mk.injEq] at hckey
    simp [ResourceLease.ownerKey, hckey.1, hckey.2, hco]
  have hstrip : strip lease.resourceId = lease.resourceId := h.stripped lease.key c hc
  -- The reference count is the number of holders before the release.
  have href : s.refs.get? lease.ownerKey = some (holders lease s.history) := by
    have hcount := h.counted lease.key c hc
    rwa [hownerKey, holders_congr hownerKey hct] at hcount
  have href₁ : (s₁.refs.get? lease.ownerKey).getD 0 = holders lease s.history := by
    change (s.refs.get? lease.ownerKey).getD 0 = _
    rw [href]
    rfl
  have hboth : Ensures (release cfg lease) s₁ fun _ t =>
      SameClaims (releasedState s₁ lease) t ∧ t.issued = s.issued ∧
        (t.leases = s.leases ∧ (holders lease s.history ≤ 1 → lease.kind = "device" →
          cfg.deviceLeases ≠ none → ∀ e, s.leases.get? lease.resourceId = some e →
            e.token ≠ lease.token) ∨
        holders lease s.history ≤ 1 ∧ ∃ e, s.leases.get? lease.resourceId = some e ∧
          e.token = lease.token ∧ lease.kind = "device" ∧
            t.leases = s.leases.erase e.deviceId) := by
    have hleases := release_leases cfg hcur₁
    rw [href₁, hstrip] at hleases
    exact ⟨(release_of_current cfg hcur₁).2, hleases⟩
  refine hboth.mono fun _ t ht => ?_
  obtain ⟨hsame, hissued, hleases⟩ := ht
  have htallied : Tallied t :=
    (releasedState_tallied (returned_tallied h.tallied lease) hcur₁).congr hsame
  have hhistory : ∀ l, holders l t.history =
      holders l s.history - if lease.same l then 1 else 0 := by
    intro l
    rw [hsame.history]
    unfold releasedState
    dsimp only
    split <;> rfl
  have hacquired : ∀ l, .acquired l ∈ t.history → .acquired l ∈ s.history := by
    intro l hl
    have hl' : .acquired l ∈ LeaseEvent.released lease.key lease.ownerId ::
        .returned lease :: s.history := by
      rw [hsame.history] at hl
      unfold releasedState at hl
      dsimp only at hl
      split at hl <;> exact hl
    simpa using hl'
  -- The claims: that of the lease is there as long as somebody else holds it.
  have hclaims : t.claims = if 1 < holders lease s.history then s.claims
      else s.claims.erase lease.key := by
    rw [hsame.claims]
    unfold releasedState
    rw [href₁]
    dsimp only
    split <;> rfl
  have hrefs : t.refs = if 1 < holders lease s.history then
      s.refs.set lease.ownerKey (holders lease s.history - 1)
        else s.refs.erase lease.ownerKey := by
    rw [hsame.refs]
    unfold releasedState
    rw [href₁]
    dsimp only
    split <;> rfl
  have hkept : ∀ key l, t.claims.get? key = some l → s.claims.get? key = some l ∧
      (key = lease.key → 1 < holders lease s.history) := by
    intro key l hl
    rw [hclaims] at hl
    split at hl
    · exact ⟨hl, fun _ => ‹_›⟩
    · rw [Dict.get?_erase] at hl
      split at hl
      · cases hl
      · exact ⟨hl, fun hk => absurd hk ‹_›⟩
  have hsub : ∀ d e, t.leases.get? d = some e → s.leases.get? d = some e := by
    intro d e he
    rcases hleases with ⟨hl, -⟩ | ⟨-, e', -, -, -, hl⟩
    · rwa [hl] at he
    · rw [hl, Dict.get?_erase] at he
      split at he
      · cases he
      · exact he
  have hgone : lease.kind = "device" → holders lease s.history ≤ 1 →
      t.leases.get? lease.resourceId = none := by
    intro hkind hle
    cases he : t.leases.get? lease.resourceId with
    | none => rfl
    | some e =>
      exfalso
      have he' := hsub _ e he
      have hclaim : s.claims.get? ("device", lease.resourceId) = some c := by
        rw [← hkind]
        exact hc
      have htoken := (h.backed lease.resourceId c e hclaim he').1.trans hct
      rcases hleases with ⟨-, hnone⟩ | ⟨-, e', he'', -, -, hl⟩
      · by_cases hsome : cfg.deviceLeases = none
        · rw [h.detached hsome] at he'
          cases he'
        · exact hnone hle hkind hsome e he' htoken
      · have hid : e'.deviceId = lease.resourceId := by
          rw [(h.leases _ e' he'').1, hstrip]
        rw [hl, hid, Dict.get?_erase, if_pos rfl] at he
        cases he
  refine ⟨?_, fun hkind hone => ⟨fun _ => hgone hkind hone.le, fun e he => ?_⟩,
    fun d e he hnone l hlkey hltoken => ?_⟩
  · constructor
    · exact htallied
    · exact fun key l hl => h.stripped key l (hkept key l hl).1
    · intro key l hl
      rw [hissued]
      exact h.drawn key l (hkept key l hl).1
    · intro l hl
      rw [hissued]
      exact h.acquired l (hacquired l hl)
    · intro key l hl
      obtain ⟨hl', hmore⟩ := hkept key l hl
      rw [hhistory]
      by_cases hk : key = lease.key
      · have hn := hmore hk
        rw [hk, hc] at hl'
        cases hl'
        have hself : lease.same c = true :=
          ResourceLease.same_iff.2 ⟨hownerKey.symm, hct.symm⟩
        rw [hself, if_pos rfl, hownerKey, hrefs, if_pos hn, Dict.get?_set_self,
          holders_congr hownerKey hct]
      · have hlkey := h.tallied.keyed key l hl'
        have hne : l.key ≠ lease.key := by
          rw [hlkey]
          exact hk
        have hdiff : lease.same l = false := by
          refine Bool.eq_false_iff.2 fun hs => hne ?_
          have hkeys := (ResourceLease.same_iff.1 hs).1
          simp only [ResourceLease.ownerKey, Prod.mk.injEq] at hkeys
          simp [ResourceLease.key, hkeys.1, hkeys.2.1]
        have hneo : l.ownerKey ≠ lease.ownerKey := ownerKey_ne hne _ _
        have hcount := h.counted key l hl'
        rw [hdiff, hrefs]
        split
        · rw [Dict.get?_set_of_ne _ hneo]
          exact hcount
        · rw [Dict.get?_erase, if_neg hneo]
          exact hcount
    · intro hnone d
      cases he : t.leases.get? d with
      | none => rfl
      | some e =>
        have he' := hsub d e he
        rw [h.detached hnone] at he'
        cases he'
    · rcases hleases with ⟨hl, -⟩ | ⟨-, e, -, -, -, hl⟩
      · rw [hl]
        exact h.leaseIds
      · rw [hl]
        exact Dict.nodup_keys_filterKeys h.leaseIds _
    · intro d e he
      rw [hissued]
      exact h.leases d e (hsub d e he)
    · exact fun d l e hl he => h.backed d l e (hkept _ l hl).1 (hsub d e he)
    · intro l e hkind hheld he ht
      have hheld' : 0 < holders l s.history := by
        rw [hhistory] at hheld
        omega
      obtain ⟨c', hc', ht', ho'⟩ := current_iff.1 (h.claimed l e hkind hheld' (hsub _ e he) ht)
      refine current_iff.2 ⟨c', ?_, ht', ho'⟩
      rw [hclaims]
      by_cases hk : l.key = lease.key
      · rw [hk, hc] at hc'
        cases hc'
        have hlk := hk
        simp only [ResourceLease.key, Prod.mk.injEq] at hlk
        have hlowner : lease.ownerKey = l.ownerKey := by
          simp [ResourceLease.ownerKey, hlk.1, hlk.2, ← hco, ho']
        have hltoken : lease.token = l.token := hct.symm.trans ht'
        rw [hhistory, ResourceLease.same_iff.2 ⟨hlowner, hltoken⟩, if_pos rfl,
          ← holders_congr hlowner hltoken] at hheld
        rw [if_pos (by omega), hk]
        exact hc
      · split
        · exact hc'
        · rw [Dict.get?_erase, if_neg hk]
          exact hc'
  · rw [hgone hkind hone.le] at he
    cases he
  · rcases hleases with ⟨hl, -⟩ | ⟨hle, e', he', ht', hkind, hl⟩
    · rw [hl, he] at hnone
      cases hnone
    · have hid : e'.deviceId = lease.resourceId := by
        rw [(h.leases _ e' he').1, hstrip]
      have hd : d = lease.resourceId := by
        by_contra hne
        rw [hl, hid, Dict.get?_erase, if_neg hne, he] at hnone
        cases hnone
      have hee : e' = e := by
        rw [hd, he'] at he
        exact Option.some.inj he
      subst hee
      have hclaim : s.claims.get? ("device", lease.resourceId) = some c := by
        rw [← hkind]
        exact hc
      have howner := (h.backed lease.resourceId c e' hclaim he').2.trans hco
      have hkeys : lease.ownerKey = l.ownerKey := by
        rw [hlkey, howner, hd, ← hkind]
        rfl
      have htokens : lease.token = l.token := by rw [hltoken, ht']
      rw [hhistory, ResourceLease.same_iff.2 ⟨hkeys, htokens⟩, if_pos rfl,
        ← holders_congr hkeys htokens]
      omega

end LeaseResourceCoordinator

end Methods

/-! ## Every run -/

section Run

variable [PyLib] (src : Ambient) (cfg : LeaseConfig)

open LeaseResourceCoordinator

/-- The call meets no device claim that has run out before its device lease: `_expire_locked` drops
claims only together with their device leases, and a device lease that it leaves behind a claim does
not run out before the back-end looks at it in the same call. `release_owner` takes the claims of
all holders at once and is left out. -/
def RunsOutTogether (s : LeaseState) : LeaseInput → Prop
  | .acquire request => request.check.isOk = true →
    DropsTogether s (afterExpiry src cfg s) ∧
      KeptAlive src cfg (strip request.kind, strip request.resourceId) (afterExpiry src cfg s)
  | .renew _ => DropsTogether s (afterExpiry src cfg s)
  | .releaseOwner _ => False
  | .release _ => True
  | .validateTaskLease .. => True

instance (s : LeaseState) (input : LeaseInput) : Decidable (RunsOutTogether src cfg s input) :=
  match input with
  | .acquire request => inferInstanceAs (Decidable (request.check.isOk = true →
      (∀ key ∈ s.claims.keys, key.1 = "device" → (afterExpiry src cfg s).claims.get? key = none →
        (afterExpiry src cfg s).leases.get? key.2 = none) ∧
      ((strip request.kind, strip request.resourceId).1 = "device" → cfg.deviceLeases ≠ none →
        (afterExpiry src cfg s).claims.contains
          (strip request.kind, strip request.resourceId) = true →
        ∃ e ∈ (afterExpiry src cfg s).leases.get? (strip request.kind, strip request.resourceId).2,
          e.alive (src.clock (afterExpiry src cfg s).reads) = true)))
  | .renew _ => inferInstanceAs (Decidable (∀ key ∈ s.claims.keys, key.1 = "device" →
      (afterExpiry src cfg s).claims.get? key = none →
        (afterExpiry src cfg s).leases.get? key.2 = none))
  | .releaseOwner _ => inferInstanceAs (Decidable False)
  | .release _ => inferInstanceAs (Decidable True)
  | .validateTaskLease .. => inferInstanceAs (Decidable True)

theorem release_agrees {s : LeaseState} (h : Agreed src cfg s) (lease : ResourceLease) :
    ReleaseAgrees src cfg lease s (leaseStep src cfg s (.release lease)) := by
  have hrelease : Ensures (release cfg lease)
      { s with history := .returned lease :: s.history } fun _ s' =>
        ReleaseAgrees src cfg lease s s' := by
    cases hcur : current s lease with
    | true => exact released_agrees src cfg h hcur
    | false =>
      unfold Ensures
      rw [release_of_not_current cfg (by exact hcur)]
      exact returned_agrees src cfg h hcur
  have hrun : Ensures ((LeaseInput.release lease).run src cfg) s fun _ s' =>
      ReleaseAgrees src cfg lease s s' :=
    ensures_modify (hrelease.bind (fun _ _ ht => ht) fun _ _ ht => ht)
  exact hrun

theorem validateTaskLease_agreed {s : LeaseState} (h : Agreed src cfg s)
    (hbackend : cfg.deviceLeases ≠ none) (ttlSeconds : ℤ) (sessions : Dict String String)
    (target : DeviceTarget) (context : Option ControlContext) :
    Ensures (DeviceControlService.validateTaskLease src ttlSeconds sessions target context) s
      fun _ s' => Agreed src cfg s' := by
  have hrenew : ∀ deviceId token t, Agreed src cfg t → Ensures
      (discard (DeviceLeaseService.renew src ttlSeconds deviceId token)) t
      fun _ s' => Agreed src cfg s' := fun deviceId token t ht =>
    (backendRenew_agreed src cfg ht hbackend _ _ _).bind (fun _ _ hu => hu.1) fun _ _ hu => hu.1
  unfold DeviceControlService.validateTaskLease
  refine ensures_lift (fun deviceId _ => ?_) fun _ _ => h
  refine Ensures.ite (fun _ => h) fun _ => ?_
  refine (DeviceLeaseService.get_fades src h.leaseIds _).bind (fun found t ht => ?_)
    fun _ t ht => h.fades ht
  have hagreed := h.fades ht
  cases found with
  | none =>
    dsimp only
    cases context.filter fun c => c.taskId != "" && c.leaseToken != "" with
    | none => exact hagreed
    | some c => exact hrenew _ _ t hagreed
  | some _ =>
    dsimp only
    cases context.filter fun c => c.taskId != "" && c.leaseToken != "" with
    | none => exact hagreed
    | some c => exact hrenew _ _ t hagreed

/-- A call that meets no such claim keeps the agreement. -/
theorem leaseStep_agreed {s : LeaseState} (input : LeaseInput) (h : Agreed src cfg s)
    (hok : RunsOutTogether src cfg s input) : Agreed src cfg (leaseStep src cfg s input) := by
  cases input with
  | acquire request =>
    have hrun : Ensures ((LeaseInput.acquire request).run src cfg) s fun _ s' =>
        Agreed src cfg s' := by
      refine ensures_lift (fun _ hcheck => ?_) fun _ _ => h
      obtain ⟨hd, halive⟩ := hok (by rw [hcheck]; rfl)
      exact (acquire_agreed src cfg h request hd halive).bind (fun _ _ ht => ht) fun _ _ ht => ht
    exact hrun
  | renew lease =>
    have hrun : Ensures ((LeaseInput.renew lease).run src cfg) s fun _ s' =>
        Agreed src cfg s' :=
      (renew_agreed src cfg h lease hok).bind (fun _ _ ht => ht) fun _ _ ht => ht
    exact hrun
  | release lease => exact (release_agrees src cfg h lease).agreed
  | releaseOwner ownerId => exact absurd hok id
  | validateTaskLease sessions target context =>
    have hrun : Ensures ((LeaseInput.validateTaskLease sessions target context).run src cfg) s
        fun _ s' => Agreed src cfg s' := by
      unfold LeaseInput.run
      cases hbackend : cfg.deviceLeases with
      | none => exact h
      | some ttlSeconds =>
        exact validateTaskLease_agreed src cfg h (by simp [hbackend]) _ _ _ _
    exact hrun

/-- The device leases are released with the last holder and not before. -/
structure ReleasedWithLast (s : LeaseState) : Prop where
  /-- When the last holder of a device claim releases it, the back-end no longer holds the device. -/
  freed : ∀ lease, lease.kind = "device" → holders lease s.history = 1 →
    (current s lease = true →
      (leaseStep src cfg s (.release lease)).leases.get? lease.resourceId = none) ∧
    ∀ e, (leaseStep src cfg s (.release lease)).leases.get? lease.resourceId = some e →
      e.token ≠ lease.token
  /-- A device lease that a release takes away has no holder left. -/
  kept : ∀ lease d e, s.leases.get? d = some e →
    (leaseStep src cfg s (.release lease)).leases.get? d = none → ∀ l : ResourceLease,
      l.ownerKey = ("device", d, e.ownerId) → l.token = e.token →
        holders l (leaseStep src cfg s (.release lease)).history = 0

theorem releasedWithLast_of_runsOutTogether {inputs : List LeaseInput}
    (h : Machine.Meets (leaseStep src cfg) (RunsOutTogether src cfg) {} inputs) :
    ReleasedWithLast src cfg (leasesAfter src cfg inputs) := by
  have hagreed : Agreed src cfg (leasesAfter src cfg inputs) :=
    h.invariant (fun s input hs hok => leaseStep_agreed src cfg input hs hok)
      (agreed_empty src cfg)
  exact ⟨fun lease => (release_agrees src cfg hagreed lease).freed,
    fun lease => (release_agrees src cfg hagreed lease).kept⟩

end Run

/-- A coordinator over device leases of half a minute. -/
def halfMinuteLeases : LeaseConfig where
  deviceLeases := some 30

/-- A task acquires a device. -/
def acquireDevice : LeaseInput := .acquire ⟨"device", "d1", "task-1", 900⟩

/-- A device operation of the task renews the device lease with the first token. -/
def renewDirectly : LeaseInput :=
  .validateTaskLease ∅ ⟨"d1", ""⟩ (some ⟨"task-1", (Ambient.ticking 1).uuid 1⟩)

/-- The task acquires its device twice and renews the device lease in between. -/
def renewedInTime : List LeaseInput := [acquireDevice, renewDirectly, acquireDevice]

/-- With a clock that advances a second between readings no claim runs out before its lease. -/
theorem releasedWithLast_renewedInTime :
    @ReleasedWithLast PyLib.strokes (Ambient.ticking 1) halfMinuteLeases
      (@leasesAfter PyLib.strokes (Ambient.ticking 1) halfMinuteLeases renewedInTime) :=
  @releasedWithLast_of_runsOutTogether PyLib.strokes (Ambient.ticking 1) halfMinuteLeases
    renewedInTime (by decide +kernel)

/-- The device lease was renewed beyond the claim, and the claim ran out before the second holder
came. -/
def renewedBeyond : List LeaseInput :=
  [acquireDevice, renewDirectly, renewDirectly, acquireDevice]

/-- The second holder then releases the device lease of the first. -/
theorem not_releasedWithLast_renewedBeyond :
    ¬ @ReleasedWithLast PyLib.strokes (Ambient.ticking 5) halfMinuteLeases
      (@leasesAfter PyLib.strokes (Ambient.ticking 5) halfMinuteLeases renewedBeyond) := by
  let := PyLib.strokes
  intro h
  let lease : ResourceLease := ⟨"device", "d1", "task-1", (Ambient.ticking 5).uuid 1, ""⟩
  have hfound : ((@leasesAfter PyLib.strokes (Ambient.ticking 5) halfMinuteLeases
      renewedBeyond).leases.get? "d1").map (fun e => (e.ownerId, e.token)) =
        some ("task-1", lease.token) := by decide +kernel
  have hgone : (@leaseStep PyLib.strokes (Ambient.ticking 5) halfMinuteLeases
      (@leasesAfter PyLib.strokes (Ambient.ticking 5) halfMinuteLeases renewedBeyond)
        (.release lease)).leases.get? "d1" = none := by decide +kernel
  have hheld : holders lease (@leaseStep PyLib.strokes (Ambient.ticking 5) halfMinuteLeases
      (@leasesAfter PyLib.strokes (Ambient.ticking 5) halfMinuteLeases renewedBeyond)
        (.release lease)).history = 1 := by decide +kernel
  obtain ⟨e, he, heq⟩ := Option.map_eq_some_iff.1 hfound
  simp only [Prod.mk.injEq] at heq
  have hzero := h.kept lease "d1" e he hgone lease (by rw [heq.1]; rfl) heq.2.symm
  rw [hheld] at hzero
  cases hzero

end DeviceShell.Framework
