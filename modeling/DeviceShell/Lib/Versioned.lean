import Mathlib.Data.List.Pairwise
import DeviceShell.Lib.Dict

/-!
# Stores of versioned records

A store that keeps, under each key, the last record saved under it, and the log of its saves. The
saves of a log `Raise` the versions of a store when each one has a higher version than the record
that it overwrites. A log raises the versions of the empty store exactly when the versions saved
under each key increase strictly (`raise_empty_iff`), and then a version identifies the record saved
with it (`eq_of_version_eq`).
-/

namespace DeviceShell.Versioned

variable {κ α : Type} [DecidableEq κ] (key : α → κ) (version : α → ℕ)

/-- The store after the saves of a log. -/
def stored (store : Dict κ α) (log : List α) : Dict κ α :=
  log.foldl (fun store r => store.set (key r) r) store

/-- Every save of the log has a higher version than the record that it overwrites. -/
def Raise : Dict κ α → List α → Prop
  | _, [] => True
  | store, r :: log =>
    (∀ s ∈ store.get? (key r), version s < version r) ∧ Raise (store.set (key r) r) log

/-- The versions saved under each key increase strictly. -/
def Increasing (log : List α) : Prop :=
  log.Pairwise fun q r => key q = key r → version q < version r

instance (log : List α) : Decidable (Increasing key version log) :=
  inferInstanceAs (Decidable (log.Pairwise _))

variable {key version} {store : Dict κ α} {log : List α}

@[simp] theorem stored_nil : stored key store [] = store := rfl

@[simp] theorem stored_cons (r : α) :
    stored key store (r :: log) = stored key (store.set (key r) r) log := rfl

theorem stored_append (first rest : List α) :
    stored key store (first ++ rest) = stored key (stored key store first) rest :=
  List.foldl_append

/-- A log in two parts raises the versions when both parts do. -/
theorem raise_append {first rest : List α} :
    Raise key version store (first ++ rest) ↔
      Raise key version store first ∧ Raise key version (stored key store first) rest := by
  induction first generalizing store with
  | nil => simp [Raise]
  | cons r first ih => simp [Raise, ih, and_assoc]

/-- What a log stores is one of its records, or was stored before. -/
theorem get?_stored {k : κ} {r : α} (h : (stored key store log).get? k = some r) :
    (r ∈ log ∧ key r = k) ∨ store.get? k = some r := by
  induction log generalizing store with
  | nil => exact .inr h
  | cons q log ih =>
    rcases ih h with ⟨hmem, hkey⟩ | hold
    · exact .inl ⟨List.mem_cons_of_mem _ hmem, hkey⟩
    · rw [Dict.get?_set] at hold
      split at hold
      · obtain rfl := Option.some.inj hold
        exact .inl ⟨List.mem_cons_self, (‹k = key _›).symm⟩
      · exact .inr hold

/-- Saves keep the keys of a store distinct. -/
theorem nodup_keys_stored (h : store.keys.Nodup) : (stored key store log).keys.Nodup := by
  induction log generalizing store with
  | nil => exact h
  | cons r log ih => exact ih (Dict.nodup_keys_set h _ _)

omit [DecidableEq κ] in
theorem increasing_cons {q : α} :
    Increasing key version (q :: log) ↔
      (∀ r ∈ log, key q = key r → version q < version r) ∧ Increasing key version log :=
  List.pairwise_cons

/-- The records of a log exceed a store with one more record. -/
theorem exceeds_set (q : α) :
    (∀ r ∈ log, ∀ s ∈ (store.set (key q) q).get? (key r), version s < version r) ↔
      (∀ r ∈ log, key q = key r → version q < version r) ∧
        ∀ r ∈ log, key q ≠ key r → ∀ s ∈ store.get? (key r), version s < version r := by
  constructor
  · intro h
    refine ⟨fun r hr hkey => ?_, fun r hr hne s hs => ?_⟩
    · have hq : q ∈ (store.set (key q) q).get? (key r) := by simp [hkey]
      exact h r hr q hq
    · have hs' : s ∈ (store.set (key q) q).get? (key r) := by
        rw [Dict.get?_set, if_neg hne.symm]
        exact hs
      exact h r hr s hs'
  · rintro ⟨heq, hne⟩ r hr s hs
    rw [Dict.get?_set] at hs
    split at hs
    · obtain rfl := Option.some.inj hs
      exact heq r hr (‹key r = key _›).symm
    · exact hne r hr (fun h => ‹¬key r = key q› h.symm) s hs

/-- A log raises the versions of a store when it exceeds each of them and increases strictly. -/
theorem raise_iff :
    Raise key version store log ↔
      (∀ r ∈ log, ∀ s ∈ store.get? (key r), version s < version r) ∧
        Increasing key version log := by
  induction log generalizing store with
  | nil => simp [Raise, Increasing]
  | cons q log ih =>
    rw [Raise, ih, exceeds_set, increasing_cons]
    constructor
    · rintro ⟨hq, ⟨heq, hne⟩, hlog⟩
      refine ⟨fun r hr s hs => ?_, heq, hlog⟩
      rcases List.mem_cons.1 hr with rfl | hr
      · exact hq s hs
      · by_cases hkey : key q = key r
        · have hsq : version s < version q := hq s (hkey ▸ hs)
          have hqr : version q < version r := heq r hr hkey
          omega
        · exact hne r hr hkey s hs
    · rintro ⟨hq, heq, hlog⟩
      have hold : ∀ r ∈ log, key q ≠ key r → ∀ s ∈ store.get? (key r), version s < version r :=
        fun r hr _ => hq r (List.mem_cons_of_mem _ hr)
      exact ⟨hq q List.mem_cons_self, ⟨heq, hold⟩, hlog⟩

/-- Over the empty store, the saves raise the versions exactly when those of each key increase. -/
theorem raise_empty_iff : Raise key version ∅ log ↔ Increasing key version log := by
  rw [raise_iff]
  exact and_iff_right fun r _ s hs => by cases hs

omit [DecidableEq κ] in
/-- In a log whose versions increase, a version identifies the record saved with it. -/
theorem eq_of_version_eq (h : Increasing key version log) {q r : α} (hq : q ∈ log) (hr : r ∈ log)
    (hkey : key q = key r) (hversion : version q = version r) : q = r := by
  have hone : log.Pairwise fun q r => key q = key r → version q = version r → q = r :=
    h.imp fun hlt hk hv => absurd hv (Nat.ne_of_lt (hlt hk))
  have hother : log.Pairwise (flip fun q r => key q = key r → version q = version r → q = r) :=
    h.imp fun hlt hk hv => absurd hv (Nat.ne_of_gt (hlt hk.symm))
  exact hone.forall_of_forall_of_flip (fun _ _ _ _ => rfl) hother hq hr hkey hversion

end DeviceShell.Versioned
