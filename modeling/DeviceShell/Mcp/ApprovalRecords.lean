import DeviceShell.Mcp.Approvals

/-!
# The records of approvals over a run

A record that is in the store stays there, and nothing about it changes but its status and its token:
the status goes forward from pending over approved to consumed, or ends in rejected or expired
(`ApprovalRecord.Follows`). Only an approved record has a token, and no two pending records are for
the same source and fingerprint (`Orderly`). `Moves` states both for a step of the store, every
operation is shown to be one, and so is every run (`records_run`).
-/

namespace DeviceShell.Mcp

/-- A status that a record can have later, and does not have now. -/
def ApprovalStatus.Leads : ApprovalStatus → ApprovalStatus → Prop
  | .pending, later => later ≠ .pending
  | .approved, later => later = .consumed ∨ later = .expired
  | _, _ => False

theorem ApprovalStatus.Leads.trans {s t u : ApprovalStatus} (hst : s.Leads t) (htu : t.Leads u) :
    s.Leads u := by
  cases s <;> cases t <;> cases u <;> simp_all [Leads]

namespace ApprovalRecord

/-- The record is as it was, or only its status went on and its token changed. -/
def Follows (r r' : ApprovalRecord) : Prop :=
  r' = r ∨ r' = { r with status := r'.status, token := r'.token } ∧ r.status.Leads r'.status

theorem Follows.trans {r r' r'' : ApprovalRecord} (h : r.Follows r') (h' : r'.Follows r'') :
    r.Follows r'' := by
  rcases h' with rfl | ⟨heq', hs'⟩
  · exact h
  rcases h with rfl | ⟨heq, hs⟩
  · exact .inr ⟨heq', hs'⟩
  · refine .inr ⟨?_, hs.trans hs'⟩
    rw [heq', heq]

theorem follows_expire (r : ApprovalRecord) (now : ℚ) : r.Follows (r.expire now) := by
  unfold expire
  split
  · next h =>
    refine .inr ⟨rfl, ?_⟩
    rcases h.1 with hp | ha
    · rw [hp]
      exact ApprovalStatus.noConfusion
    · rw [ha]
      exact .inr rfl
  · exact .inl rfl

/-- A record that is pending once the clock was read has not changed. -/
theorem expire_of_pending {r : ApprovalRecord} {now : ℚ} (h : (r.expire now).status = .pending) :
    r.expire now = r := by
  unfold expire at h ⊢
  split at h
  · cases h
  · next hopen => exact if_neg hopen

end ApprovalRecord

/-- Every record of `t` is in `t'`, as it was or further on. -/
def Advances (t t' : Rows ApprovalRecord.id) : Prop :=
  ∀ id r, t.rows.get? id = some r → ∃ r', t'.rows.get? id = some r' ∧ r.Follows r'

section

variable [PyLib] [ActionDigest]

/-- Only approved records have tokens, and a pending record is the only one for its source and
fingerprint. -/
structure Orderly (t : Rows ApprovalRecord.id) : Prop where
  token : ∀ id r, t.rows.get? id = some r → r.token ≠ "" → r.status = .approved
  pending : ∀ id r id' r', t.rows.get? id = some r → t.rows.get? id' = some r' →
    r.status = .pending → r'.status = .pending → r.source = r'.source →
    fingerprint r.action = fingerprint r'.action → r = r'

/-- A step of the store. -/
structure Moves (t t' : Rows ApprovalRecord.id) : Prop where
  advances : Advances t t'
  orderly : Orderly t → Orderly t'

namespace Moves

variable {t t' t'' : Rows ApprovalRecord.id}

theorem refl (t : Rows ApprovalRecord.id) : Moves t t :=
  ⟨fun _ r hr => ⟨r, hr, .inl rfl⟩, id⟩

theorem trans (h : Moves t t') (h' : Moves t' t'') : Moves t t'' where
  advances id r hr := by
    obtain ⟨r', hr', hf⟩ := h.advances id r hr
    obtain ⟨r'', hr'', hf'⟩ := h'.advances id r' hr'
    exact ⟨r'', hr'', hf.trans hf'⟩
  orderly ho := h'.orderly (h.orderly ho)

/-- The clock is read. -/
theorem expire (t : Rows ApprovalRecord.id) (now : ℚ) :
    Moves t (t.map (·.expire now) (ApprovalRecord.expire_id now)) where
  advances id r hr := ⟨r.expire now, by simp [Rows.map, hr], r.follows_expire now⟩
  orderly ho := by
    have hread : ∀ id r, (t.map (·.expire now) (ApprovalRecord.expire_id now)).rows.get? id = some r →
        ∃ r₀, t.rows.get? id = some r₀ ∧ r₀.expire now = r := by
      intro id r hr
      rw [Rows.map, Dict.get?_mapValues, Option.map_eq_some_iff] at hr
      exact hr
    constructor
    · intro id r hr htok
      obtain ⟨r₀, hr₀, rfl⟩ := hread id r hr
      unfold ApprovalRecord.expire at htok ⊢
      split at htok
      · exact absurd rfl htok
      · next hopen =>
        rw [if_neg hopen]
        exact ho.token id r₀ hr₀ htok
    · intro id r id' r' hr hr' hp hp' hs hf
      obtain ⟨r₀, hr₀, rfl⟩ := hread id r hr
      obtain ⟨r₀', hr₀', rfl⟩ := hread id' r' hr'
      have hsame := ApprovalRecord.expire_of_pending hp
      have hsame' := ApprovalRecord.expire_of_pending hp'
      rw [hsame] at hp hs hf ⊢
      rw [hsame'] at hp' hs hf ⊢
      exact ho.pending id r₀ id' r₀' hr₀ hr₀' hp hp' hs hf

/-- A record goes on to a status other than pending. -/
theorem put {r r' : ApprovalRecord} (hget : t.rows.get? r.id = some r) (hf : r.Follows r')
    (hid : r'.id = r.id) (hp : r'.status ≠ .pending)
    (htok : r'.token ≠ "" → r'.status = .approved ∨ r'.token = r.token ∧ r.status = .pending) :
    Moves t (t.put r') where
  advances id r₀ hr₀ := by
    rw [Rows.get?_put, hid]
    by_cases heq : id = r.id
    · obtain rfl : r₀ = r := Option.some.inj (hr₀.symm.trans (heq ▸ hget))
      exact ⟨r', if_pos heq, hf⟩
    · exact ⟨r₀, by rw [if_neg heq, hr₀], .inl rfl⟩
  orderly ho := by
    constructor
    · intro id r₀ hr₀ hne
      rcases Rows.put_cases hr₀ with rfl | hold
      · rcases htok hne with ha | ⟨heq, hpend⟩
        · exact ha
        -- A pending record has no token.
        · have ha := ho.token r.id r hget (heq ▸ hne)
          exact absurd (hpend.symm.trans ha) (by decide)
      · exact ho.token id r₀ hold hne
    · intro id r₁ id' r₂ h₁ h₂ hp₁ hp₂ hs hfp
      rcases Rows.put_cases h₁ with rfl | hold₁
      · exact absurd hp₁ hp
      rcases Rows.put_cases h₂ with rfl | hold₂
      · exact absurd hp₂ hp
      · exact ho.pending id r₁ id' r₂ hold₁ hold₂ hp₁ hp₂ hs hfp

/-- A new pending record, when there is none for its source and fingerprint. -/
theorem put_new {r : ApprovalRecord} (hid : r.id ∉ t.rows.keys) (htok : r.token = "")
    (hnone : ∀ r' ∈ t.rows.values, r'.status = .pending → r'.source = r.source →
      fingerprint r'.action ≠ fingerprint r.action) :
    Moves t (t.put r) where
  advances id r₀ hr₀ := by
    have hne : id ≠ r.id := fun heq => hid (heq ▸ Dict.mem_keys_of_get? hr₀)
    exact ⟨r₀, by rw [Rows.get?_put, if_neg hne, hr₀], .inl rfl⟩
  orderly ho := by
    constructor
    · intro id r₀ hr₀ hne
      rcases Rows.put_cases hr₀ with rfl | hold
      · exact absurd htok hne
      · exact ho.token id r₀ hold hne
    · intro id r₁ id' r₂ h₁ h₂ hp₁ hp₂ hs hf
      rcases Rows.put_cases h₁ with rfl | hold₁ <;> rcases Rows.put_cases h₂ with rfl | hold₂
      · rfl
      · exact absurd hf.symm (hnone r₂ (Dict.mem_values_of_get? hold₂) hp₂ hs.symm)
      · exact absurd hf (hnone r₁ (Dict.mem_values_of_get? hold₁) hp₁ hs)
      · exact ho.pending id r₁ id' r₂ hold₁ hold₂ hp₁ hp₂ hs hf

/-- `request`. -/
theorem request (a : ApprovalStore) (now : ℚ) (action : DeviceAction) (source reason : String)
    {fresh : String} (hfresh : fresh ∉ a.records.rows.keys) :
    Moves a.records (a.request now action source reason fresh).2.records := by
  have hexp : Moves a.records (a.expireLocked now).records := expire a.records now
  rcases a.request_cases now action source reason fresh with
    ⟨r, -, -, -, -, heq⟩ | ⟨r, rfl, hnone, heq⟩ <;> rw [heq]
  · exact hexp
  · have hid : fresh ∉ (a.expireLocked now).records.rows.keys := by
      rw [← Dict.get?_eq_none_iff]
      simp [ApprovalStore.expireLocked, Rows.map, (Dict.get?_eq_none_iff _ _).2 hfresh]
    exact hexp.trans (put_new hid rfl hnone)

/-- `consume`. -/
theorem consume (a : ApprovalStore) (now : ℚ) (token : String) (action : DeviceAction) :
    Moves a.records (a.consume now token action).2.records := by
  have hexp : Moves a.records (a.expireLocked now).records := expire a.records now
  rcases a.consume_cases now token action with ⟨e, heq⟩ | ⟨e, heq⟩ | ⟨r, hget, hs, -, -, heq⟩ <;>
    rw [heq]
  · exact refl a.records
  · exact hexp
  · have hused : r.Follows { r with status := .consumed, token := "" } :=
      .inr ⟨rfl, hs ▸ .inl rfl⟩
    exact hexp.trans (put hget hused rfl (by simp) (absurd rfl))

/-- `approve` and `reject`. -/
theorem decided (a : ApprovalStore) (now : ℚ) (id : String) {f : ApprovalRecord → ApprovalRecord}
    (hf : ∀ r, r.status = .pending → r.Follows (f r) ∧ (f r).id = r.id ∧ (f r).status ≠ .pending ∧
      ((f r).status = .approved ∨ (f r).token = r.token)) :
    Moves a.records (a.decided now id f).2.records := by
  have hexp : Moves a.records (a.expireLocked now).records := expire a.records now
  rcases a.decided_cases now id f with ⟨e, heq⟩ | ⟨r, hget, hs, heq⟩ <;> rw [heq]
  · exact hexp
  · obtain ⟨hfol, hid, hp, htok⟩ := hf r hs
    have hr : (a.expireLocked now).records.rows.get? r.id = some r := by
      rw [(a.expireLocked now).records.keyed id r hget]
      exact hget
    exact hexp.trans (put hr hfol hid hp fun _ => htok.imp_right fun h => ⟨h, hs⟩)

end Moves

/-! ## Runs -/

namespace ControlService

/-- One input. -/
theorem moves_step (s : ControlService) (input : Input) (hfresh : s.FreshId input) :
    Moves s.approvals.records (s.step input).approvals.records := by
  cases input with
  | arrive call =>
    rw [step]
    split <;> exact Moves.refl _
  | gate index now fresh =>
    rw [step]
    split
    · exact Moves.refl _
    · next call _ =>
      unfold atGate
      split
      · split
        · exact Moves.request s.approvals now call.action call.source call.reason hfresh
        · have hmoves := Moves.consume s.approvals now call.approvalToken call.action
          rcases hconsume : s.approvals.consume now call.approvalToken call.action with
            ⟨_ | r, approvals⟩ <;> rw [hconsume] at hmoves <;> exact hmoves
      · exact Moves.refl _
  | finish index outcome now fresh =>
    rw [step]
    split
    · exact Moves.refl _
    · next call _ =>
      unfold finished
      cases outcome with
      | raised => exact Moves.refl _
      | succeeded data =>
        dsimp only
        split <;> exact Moves.refl _
      | failed approvalRequired action reason =>
        dsimp only
        split
        · have hmoves := Moves.request s.approvals now action "app-action" reason hfresh
          split <;> exact hmoves
        · split <;> exact Moves.refl _
  | approve approvalId token now =>
    have hmoves := Moves.decided s.approvals now approvalId
      (f := fun r => { r with status := .approved, token := token }) fun r hp =>
        ⟨.inr ⟨rfl, hp ▸ ApprovalStatus.noConfusion⟩, rfl, by simp, .inl rfl⟩
    rw [step]
    split <;> next heq => exact (congrArg (·.2.records) heq) ▸ hmoves
  | reject approvalId now =>
    have hmoves := Moves.decided s.approvals now approvalId
      (f := fun r => { r with status := .rejected }) fun r hp =>
        ⟨.inr ⟨rfl, hp ▸ ApprovalStatus.noConfusion⟩, rfl, by simp, .inr rfl⟩
    rw [step]
    split <;> next heq => exact (congrArg (·.2.records) heq) ▸ hmoves
  | get approvalId now =>
    have hget : (s.approvals.get now approvalId).2 = s.approvals.expireLocked now := by
      unfold ApprovalStore.get
      dsimp only
      split <;> rfl
    rw [step, hget]
    exact Moves.expire s.approvals.records now
  | pending now => exact Moves.expire s.approvals.records now

/-- In every run with new ids, a record stays in the store with its status only going forward, only
approved records have tokens, and pending records differ in their source or fingerprint. -/
theorem records_run (ttlSeconds : ℚ) (requiresApproval : Bool) (before after : List Input)
    (hfresh : Machine.Meets step FreshId (start ttlSeconds requiresApproval) (before ++ after)) :
    let s := Machine.run step (start ttlSeconds requiresApproval) before
    let s' := Machine.run step (start ttlSeconds requiresApproval) (before ++ after)
    Advances s.approvals.records s'.approvals.records ∧ Orderly s'.approvals.records := by
  intro s s'
  have hparts := Machine.meets_append.1 hfresh
  have hfrom : ∀ t : ControlService, ∀ inputs, Machine.Meets step FreshId t inputs →
      Moves t.approvals.records (Machine.run step t inputs).approvals.records := by
    intro t inputs hmeets
    refine hmeets.invariant (I := fun u => Moves t.approvals.records u.approvals.records)
      (fun u i hu hi => hu.trans (u.moves_step i hi)) (Moves.refl _)
  have hstart : Orderly (start ttlSeconds requiresApproval).approvals.records :=
    ⟨fun _ _ hr => (by cases hr), fun _ _ _ _ hr => (by cases hr)⟩
  have hlast : s' = Machine.run step s after := Machine.run_append step _ before after
  have hafter := hfrom s after hparts.2
  exact ⟨hlast ▸ hafter.advances,
    hlast ▸ hafter.orderly ((hfrom _ before hparts.1).orderly hstart)⟩

end ControlService

end

/-- The record of an approval that two calls come with. -/
theorem ControlService.records_overtaking :
    letI := PyLib.atEpoch
    letI := joinedDigest
    let s := Machine.run ControlService.step (start 300 true) (overtaking.take 2)
    let s' := Machine.run ControlService.step (start 300 true)
      (overtaking.take 2 ++ overtaking.drop 2)
    (s.approvals.records.rows.get? "a1").isSome ∧
      Advances s.approvals.records s'.approvals.records ∧ Orderly s'.approvals.records := by
  let _ := PyLib.atEpoch
  let _ := joinedDigest
  have hmeets : Machine.Meets ControlService.step FreshId (start 300 true)
      (overtaking.take 2 ++ overtaking.drop 2) := by
    decide +kernel
  exact ⟨by decide +kernel,
    records_run 300 true (overtaking.take 2) (overtaking.drop 2) hmeets⟩

end DeviceShell.Mcp
