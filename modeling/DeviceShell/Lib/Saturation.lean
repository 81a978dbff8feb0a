import Mathlib.Data.List.Perm.Subperm
import Mathlib.Data.List.Nodup

/-!
# Growing a list until it is stable

A pass adds elements to a list; passes are repeated until one adds nothing. What every pass preserves
the result has (`saturate_induction`), and if the passes keep the list without duplicates within a
finite ground, the size of the ground is enough of them (`saturate_stable`).
-/

namespace DeviceShell

variable {α : Type}

/-- Passes over a list, up to a number of them, until one adds nothing. -/
def saturate (pass : List α → List α) : ℕ → List α → List α
  | 0, l => l
  | n + 1, l => if (pass l).length = l.length then l else saturate pass n (pass l)

/-- What a pass preserves holds of the result. -/
theorem saturate_induction {pass : List α → List α} {P : List α → Prop}
    (hpass : ∀ l, P l → P (pass l)) (n : ℕ) {l : List α} (hl : P l) : P (saturate pass n l) := by
  induction n generalizing l with
  | zero => exact hl
  | succ n ih =>
    unfold saturate
    split_ifs
    · exact hl
    · exact ih (hpass l hl)

/-- A list without duplicates within a ground. -/
structure NodupWithin (ground l : List α) : Prop where
  nodup : l.Nodup
  subset : l ⊆ ground

/-- More passes than the ground has elements come to a list that is stable. -/
theorem saturate_stable {pass : List α → List α} {ground : List α}
    (hpass : ∀ l, NodupWithin ground l → NodupWithin ground (pass l))
    (hgrow : ∀ l, NodupWithin ground l → l.length ≤ (pass l).length) (n : ℕ) {l : List α}
    (hl : NodupWithin ground l) (hn : ground.length < l.length + n) :
    (pass (saturate pass n l)).length = (saturate pass n l).length := by
  induction n generalizing l with
  | zero =>
    have hle := (List.subperm_of_subset hl.nodup hl.subset).length_le
    omega
  | succ n ih =>
    unfold saturate
    split_ifs with hstable
    · exact hstable
    · have hless := hgrow l hl
      exact ih (hpass l hl) (by omega)

end DeviceShell
