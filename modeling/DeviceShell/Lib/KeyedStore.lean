import Mathlib.Data.List.Perm.Basic
import DeviceShell.Lib.Dict

/-!
# Keyed stores and bounded sweeps

A store that saves records under their keys and lists some of them, up to a limit (`KeyedStore`).
A store over a table of rows with distinct keys is lawful, whatever order it lists them in
(`ofRows_lawful`). A sweep saves a new record for each listed record that a test chooses;
`get_sweep` says what it leaves: the chosen records among the listed ones are replaced, all others
stay. It is complete, when no chosen record is left, exactly when each one was listed
(`sweep_complete_iff`).
-/

namespace DeviceShell

/-- The operations of a store of records `α` under keys `κ`, on states `σ`. -/
structure KeyedStore (κ α σ : Type) where
  get : σ → κ → Option α
  save : σ → α → σ
  /-- At most the given number of records. -/
  list : σ → ℕ → List α

/-- A table of rows with distinct keys, each row under its own key. -/
structure Rows {κ β : Type} [DecidableEq κ] (key : β → κ) where
  /-- The rows, oldest first. -/
  rows : Dict κ β
  nodup : rows.keys.Nodup
  keyed : ∀ k b, rows.get? k = some b → key b = k

namespace Rows

variable {κ β : Type} [DecidableEq κ] {key : β → κ}

/-- The table without rows. -/
def empty : Rows key := ⟨∅, List.nodup_nil, fun _ _ h => by cases h⟩

/-- Inserts a row, or writes over the row with its key. -/
def put (t : Rows key) (b : β) : Rows key where
  rows := t.rows.set (key b) b
  nodup := Dict.nodup_keys_set t.nodup _ _
  keyed k c h := by
    rw [Dict.get?_set] at h
    split at h
    · obtain rfl := Option.some.inj h
      exact (‹k = key b›).symm
    · exact t.keyed k c h

theorem get?_put (t : Rows key) (b : β) (k : κ) :
    (t.put b).rows.get? k = if k = key b then some b else t.rows.get? k := Dict.get?_set _ _ _ _

/-- What is read after a row was put is this row, or was there before. -/
theorem put_cases {t : Rows key} {b c : β} {k : κ} (h : (t.put b).rows.get? k = some c) :
    c = b ∨ t.rows.get? k = some c := by
  rw [get?_put] at h
  split at h
  · exact .inl (Option.some.inj h).symm
  · exact .inr h

/-- Writing a row over itself changes nothing. -/
theorem put_of_get? {t : Rows key} {b : β} (h : t.rows.get? (key b) = some b) : t.put b = t := by
  have hrows : (t.put b).rows = t.rows := Dict.set_of_get? h
  cases t
  simpa [put] using hrows

/-- Replaces every row by one with the same key. -/
def map (t : Rows key) (f : β → β) (hf : ∀ b, key (f b) = key b) : Rows key where
  rows := t.rows.mapValues f
  nodup := by
    have hkeys : (t.rows.mapValues f).keys = t.rows.keys := by
      simp [Dict.keys, Dict.mapValues]
    exact hkeys ▸ t.nodup
  keyed k b h := by
    rw [Dict.get?_mapValues, Option.map_eq_some_iff] at h
    obtain ⟨c, hc, rfl⟩ := h
    exact (hf c).trans (t.keyed k c hc)

/-- A row of the table is what its key reads. -/
theorem get?_of_mem {t : Rows key} {b : β} (h : b ∈ t.rows.values) :
    t.rows.get? (key b) = some b := by
  obtain ⟨⟨k, b'⟩, hmem, rfl⟩ := List.mem_map.1 h
  have hget : t.rows.get? k = some b' := Dict.get?_of_mem t.nodup hmem
  rw [t.keyed k b' hget]
  exact hget

/-- The keys of the rows are the keys of the table. -/
theorem map_key_values (t : Rows key) : t.rows.values.map key = t.rows.keys := by
  rw [Dict.values, Dict.keys, List.map_map]
  refine List.map_congr_left fun e he => ?_
  have hget : t.rows.get? e.1 = some e.2 := Dict.get?_of_mem t.nodup he
  exact t.keyed e.1 e.2 hget

end Rows

namespace KeyedStore

variable {κ α β σ τ : Type} [DecidableEq κ]

/-- What a store owes to its users. -/
structure Lawful (S : KeyedStore κ α σ) (key : α → κ) : Prop where
  get_key : ∀ s k r, S.get s k = some r → key r = k
  get_save : ∀ s r k, S.get (S.save s r) k = if k = key r then some r else S.get s k
  get_of_listed : ∀ s n, ∀ r ∈ S.list s n, S.get s (key r) = some r
  listed_once : ∀ s n, ((S.list s n).map key).Nodup

/-- A store over a table of rows that carry the records, which it lists in an order of its own. -/
def ofRows (key : α → κ) (payload : β → α) (write : Option β → α → β)
    (arrange : List β → List β) :
    KeyedStore κ α (Rows fun b => key (payload b)) where
  get t k := (t.rows.get? k).map payload
  save t r := t.put (write (t.rows.get? (key r)) r)
  list t n := ((arrange t.rows.values).take n).map payload

theorem ofRows_lawful {key : α → κ} {payload : β → α} {write : Option β → α → β}
    {arrange : List β → List β} (hwrite : ∀ old r, payload (write old r) = r)
    (harrange : ∀ l, (arrange l).Perm l) : (ofRows key payload write arrange).Lawful key where
  get_key t k r h := by
    obtain ⟨b, hb, rfl⟩ := Option.map_eq_some_iff.1 h
    exact t.keyed k b hb
  get_save t r k := by
    have hkey : key (payload (write (t.rows.get? (key r)) r)) = key r := by rw [hwrite]
    simp only [ofRows, Rows.get?_put, hkey]
    split
    · rw [Option.map_some, hwrite]
    · rfl
  get_of_listed t n r h := by
    obtain ⟨b, hb, rfl⟩ := List.mem_map.1 h
    have hmem : b ∈ t.rows.values := (harrange _).mem_iff.1 (List.mem_of_mem_take hb)
    simp only [ofRows, Rows.get?_of_mem hmem, Option.map_some]
  listed_once t n := by
    have hkeys : (t.rows.values.map fun b => key (payload b)).Nodup := by
      rw [t.map_key_values]
      exact t.nodup
    have harranged : ((arrange t.rows.values).map fun b => key (payload b)).Nodup :=
      (((harrange _).map _).nodup_iff).2 hkeys
    simp only [ofRows, List.map_map]
    exact (List.Sublist.map _ (List.take_sublist _ _)).nodup harranged

/-- Two stores side by side: a state is a state of one of them. -/
def either (S : KeyedStore κ α σ) (T : KeyedStore κ α τ) : KeyedStore κ α (σ ⊕ τ) where
  get s k := s.elim (S.get · k) (T.get · k)
  save s r := s.map (S.save · r) (T.save · r)
  list s n := s.elim (S.list · n) (T.list · n)

theorem either_lawful {key : α → κ} {S : KeyedStore κ α σ} {T : KeyedStore κ α τ}
    (hS : S.Lawful key) (hT : T.Lawful key) : (S.either T).Lawful key where
  get_key s := by
    cases s with
    | inl s => exact hS.get_key s
    | inr t => exact hT.get_key t
  get_save s := by
    cases s with
    | inl s => exact hS.get_save s
    | inr t => exact hT.get_save t
  get_of_listed s := by
    cases s with
    | inl s => exact hS.get_of_listed s
    | inr t => exact hT.get_of_listed t
  listed_once s := by
    cases s with
    | inl s => exact hS.listed_once s
    | inr t => exact hT.listed_once t

/-! ## Sweeps -/

section Sweep

variable (S : KeyedStore κ α σ) (chosen : α → Bool) (change : α → α)

/-- Saves a new record for each chosen one of a list. -/
def rewrite (s : σ) (records : List α) : σ :=
  records.foldl (fun s r => if chosen r then S.save s (change r) else s) s

/-- Saves a new record for each chosen one among those that the store lists. -/
def sweep (s : σ) (limit : ℕ) : σ := S.rewrite chosen change s (S.list s limit)

variable {S chosen change} {key : α → κ}

/-- A rewrite leaves the records of other keys. -/
theorem get_rewrite_of_not_mem (h : S.Lawful key) (hchange : ∀ r, key (change r) = key r) {s : σ}
    {records : List α} {k : κ} (hk : ∀ r ∈ records, chosen r = true → key r ≠ k) :
    S.get (S.rewrite chosen change s records) k = S.get s k := by
  induction records generalizing s with
  | nil => rfl
  | cons r records ih =>
    have hrest := ih (s := if chosen r then S.save s (change r) else s) fun q hq =>
      hk q (List.mem_cons_of_mem _ hq)
    refine hrest.trans ?_
    split
    · have hne : key r ≠ k := hk r List.mem_cons_self ‹_›
      rw [h.get_save, hchange, if_neg hne.symm]
    · rfl

/-- A rewrite replaces the chosen records of its list. -/
theorem get_rewrite_of_mem (h : S.Lawful key) (hchange : ∀ r, key (change r) = key r) {s : σ}
    {records : List α} (hnodup : (records.map key).Nodup) {r : α} (hr : r ∈ records)
    (hchosen : chosen r = true) :
    S.get (S.rewrite chosen change s records) (key r) = some (change r) := by
  induction records generalizing s with
  | nil => cases hr
  | cons q records ih =>
    obtain ⟨hq, hrest⟩ := List.nodup_cons.1 hnodup
    rcases List.mem_cons.1 hr with rfl | hr
    · have hother : ∀ p ∈ records, chosen p = true → key p ≠ key r := fun p hp _ hkey =>
        hq (hkey ▸ List.mem_map_of_mem hp)
      refine (get_rewrite_of_not_mem h hchange hother).trans ?_
      dsimp only
      rw [if_pos hchosen, h.get_save, hchange, if_pos rfl]
    · exact ih hrest hr

variable (chosen) in
/-- What a sweep leaves: the records that it chose from the listing are replaced, the others
stay. -/
theorem get_sweep (h : S.Lawful key) (hchange : ∀ r, key (change r) = key r) (s : σ) (limit : ℕ)
    (k : κ) :
    (∀ r ∈ S.get s k, chosen r = true → r ∈ S.list s limit →
        S.get (S.sweep chosen change s limit) k = some (change r)) ∧
      (∀ r ∈ S.get s k, (chosen r = true → r ∉ S.list s limit) →
        S.get (S.sweep chosen change s limit) k = some r) ∧
      (S.get s k = none → S.get (S.sweep chosen change s limit) k = none) := by
  refine ⟨fun r hr hchosen hlisted => ?_, fun r hr hskip => ?_, fun hnone => ?_⟩
  · rw [← h.get_key s k r hr]
    exact get_rewrite_of_mem h hchange (h.listed_once s limit) hlisted hchosen
  · refine (get_rewrite_of_not_mem h hchange fun q hq hchosen hkey => ?_).trans hr
    have hget : S.get s k = some q := hkey ▸ h.get_of_listed s limit q hq
    obtain rfl : q = r := Option.some.inj (hget.symm.trans hr)
    exact hskip hchosen hq
  · refine (get_rewrite_of_not_mem h hchange fun q hq _ hkey => ?_).trans hnone
    have hget : S.get s k = some q := hkey ▸ h.get_of_listed s limit q hq
    rw [hnone] at hget
    cases hget

variable (chosen) in
/-- A sweep leaves no chosen record exactly when every one was listed. -/
theorem sweep_complete_iff (h : S.Lawful key) (hchange : ∀ r, key (change r) = key r)
    (hdone : ∀ r, chosen (change r) = false) (s : σ) (limit : ℕ) :
    (∀ k, ∀ r ∈ S.get (S.sweep chosen change s limit) k, chosen r = false) ↔
      ∀ k, ∀ r ∈ S.get s k, chosen r = true → r ∈ S.list s limit := by
  constructor
  · intro hleft k r hr hchosen
    by_contra hlisted
    have hstays := (get_sweep chosen h hchange s limit k).2.1 r hr fun _ => hlisted
    have hfalse := hleft k r hstays
    rw [hchosen] at hfalse
    cases hfalse
  · intro hall k r hr
    obtain ⟨hreplaced, hstays, hnone⟩ := get_sweep chosen h hchange s limit k
    cases hget : S.get s k with
    | none =>
      rw [hnone hget] at hr
      cases hr
    | some q =>
      cases hq : chosen q with
      | true =>
        rw [hreplaced q hget hq (hall k q hget hq)] at hr
        obtain rfl := Option.some.inj hr
        exact hdone q
      | false =>
        rw [hstays q hget fun htrue => by rw [hq] at htrue; cases htrue] at hr
        obtain rfl := Option.some.inj hr
        exact hq

end Sweep

end KeyedStore

end DeviceShell
