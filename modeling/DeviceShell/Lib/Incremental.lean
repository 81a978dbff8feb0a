import Mathlib.Tactic.Common
import Mathlib.Data.List.Basic

/-!
# Incremental readers

A `Reader` takes one item at a time from the front of what has arrived, as soon as there is enough
of it: what it has taken does not change when more arrives. What is left is read again with the next
read. `Reader.feed_reads` says that the items do not depend on where the input was cut into reads.
-/

namespace DeviceShell

/-- A reader of items of type `β` from a list: `next` is the first item and what follows it. -/
structure Reader (α β : Type) where
  next : List α → Option (β × List α)
  /-- An item is not empty. -/
  shrinks : ∀ {xs item rest}, next xs = some (item, rest) → rest.length < xs.length
  /-- What arrives later does not change an item. -/
  stable : ∀ {xs item rest}, next xs = some (item, rest) → ∀ more,
    next (xs ++ more) = some (item, rest ++ more)

namespace Reader

variable {α β : Type} (r : Reader α β)

/-- The items and what is left. The number bounds the length. -/
def readFrom : ℕ → List α → List β × List α
  | 0, xs => ([], xs)
  | n + 1, xs => match r.next xs with
    | none => ([], xs)
    | some (item, rest) =>
      let (items, left) := readFrom n rest
      (item :: items, left)

/-- The items and what is left. -/
def read (xs : List α) : List β × List α := r.readFrom xs.length xs

/-- No item is empty. -/
theorem next_nil : r.next [] = none := by
  cases h : r.next [] with
  | none => rfl
  | some item =>
    obtain ⟨item, rest⟩ := item
    exact absurd (r.shrinks h) (by simp)

/-- Any bound that covers the length will do. -/
theorem readFrom_eq_read (n : ℕ) (xs : List α) (hn : xs.length ≤ n) :
    r.readFrom n xs = r.read xs := by
  have hany : ∀ (m n : ℕ) (xs : List α), xs.length ≤ m → xs.length ≤ n →
      r.readFrom m xs = r.readFrom n xs := by
    intro m
    induction m with
    | zero =>
      intro n xs hm _
      obtain rfl : xs = [] := List.length_eq_zero_iff.1 (by omega)
      cases n <;> simp [readFrom, r.next_nil]
    | succ m ih =>
      intro n xs hm hn
      cases n with
      | zero =>
        obtain rfl : xs = [] := List.length_eq_zero_iff.1 (by omega)
        simp [readFrom, r.next_nil]
      | succ n =>
        cases hnext : r.next xs with
        | none => simp only [readFrom, hnext]
        | some item =>
          obtain ⟨item, rest⟩ := item
          have hshort := r.shrinks hnext
          have hrest := ih n rest (by omega) (by omega)
          simp only [readFrom, hnext, hrest]
  exact hany n xs.length xs hn (Nat.le_refl _)

theorem read_of_none {xs : List α} (h : r.next xs = none) : r.read xs = ([], xs) := by
  unfold read
  cases xs.length with
  | zero => rfl
  | succ n => simp only [readFrom, h]

theorem read_of_some {xs rest : List α} {item : β} (h : r.next xs = some (item, rest)) :
    r.read xs = (item :: (r.read rest).1, (r.read rest).2) := by
  have hshort := r.shrinks h
  obtain ⟨n, hn⟩ : ∃ n, xs.length = n + 1 := ⟨xs.length - 1, by omega⟩
  have hrest := r.readFrom_eq_read n rest (by omega)
  unfold read at hrest ⊢
  rw [hn]
  simp only [readFrom, h, hrest]

/-- What is left holds no further item. -/
theorem next_left (xs : List α) : r.next (r.read xs).2 = none := by
  induction h : xs.length using Nat.strongRecOn generalizing xs with
  | _ n ih =>
    cases hnext : r.next xs with
    | none => rwa [r.read_of_none hnext]
    | some item =>
      obtain ⟨item, rest⟩ := item
      have hshort := r.shrinks hnext
      rw [r.read_of_some hnext]
      exact ih rest.length (h ▸ hshort) rest rfl

/-- Reading goes on with what was left. -/
theorem read_append (xs ys : List α) : r.read (xs ++ ys) =
    ((r.read xs).1 ++ (r.read ((r.read xs).2 ++ ys)).1, (r.read ((r.read xs).2 ++ ys)).2) := by
  induction h : xs.length using Nat.strongRecOn generalizing xs with
  | _ n ih =>
    cases hnext : r.next xs with
    | none => simp [r.read_of_none hnext]
    | some item =>
      obtain ⟨item, rest⟩ := item
      have hshort := r.shrinks hnext
      have hmore := r.stable hnext ys
      rw [r.read_of_some hnext, r.read_of_some hmore, ih rest.length (h ▸ hshort) rest rfl]
      simp

/-- The items of each read, one after the other, and what is left after the last. -/
def feed : List α → List (List α) → List (List β) × List α
  | left, [] => ([], left)
  | left, chunk :: rest =>
    let (items, left) := r.read (left ++ chunk)
    let (later, left) := feed left rest
    (items :: later, left)

/-- The items do not depend on where the input is cut into reads. -/
theorem feed_reads (chunks : List (List α)) : ∀ {left : List α}, r.next left = none →
    ((r.feed left chunks).1.flatten, (r.feed left chunks).2) =
      r.read (left ++ chunks.flatten) := by
  induction chunks with
  | nil =>
    intro left h
    simp [feed, r.read_of_none h]
  | cons chunk rest ih =>
    intro left _
    have hleft := r.next_left (left ++ chunk)
    have hrest := ih hleft
    have hall := r.read_append (left ++ chunk) rest.flatten
    rw [List.append_assoc, ← hrest] at hall
    simp only [feed, List.flatten_cons, hall]

end Reader

end DeviceShell
