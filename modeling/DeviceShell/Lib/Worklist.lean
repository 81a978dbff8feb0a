import Mathlib.Data.List.Nodup
import Mathlib.Data.List.Perm.Subperm
import Mathlib.Logic.Relation

/-!
# A worklist

Keys are followed from a start key: the last key that was found is followed first, a key that is known
already is passed over, and following ends with the first key that has no list of further keys. The
number bounds how many keys are followed. If the lists lead to finitely many keys it is not used up
when it is as large as their number (`explore_isSome`), and what is found is what the start key leads
to (`explore_ok`).
-/

namespace DeviceShell.Worklist

open Relation

variable {κ : Type} [DecidableEq κ] (next : κ → Option (List κ))

/-- A key that is not known is kept, to be followed first. -/
def add (s : List κ × List κ) (key : κ) : List κ × List κ :=
  if key ∈ s.1 then s else (s.1 ++ [key], key :: s.2)

/-- The keys that are found, or the key that cannot be followed. The lists are what is known, and
what of it is left to follow. -/
def explore : ℕ → List κ → List κ → Option (Except κ (List κ))
  | _, seen, [] => some (.ok seen)
  | 0, _, _ :: _ => none
  | n + 1, seen, key :: pending => match next key with
    | none => some (.error key)
    | some keys => explore n (keys.foldl add (seen, pending)).1 (keys.foldl add (seen, pending)).2

/-- One key leads to another. -/
def Leads (a b : κ) : Prop := ∃ keys, next a = some keys ∧ b ∈ keys

/-- What is known on the way from the start key. -/
structure Exploring (start : κ) (seen pending : List κ) : Prop where
  nodup : seen.Nodup
  start_mem : start ∈ seen
  pending_sub : pending ⊆ seen
  sound : ∀ x ∈ seen, ReflTransGen (Leads next) start x
  closed : ∀ x ∈ seen, x ∉ pending → ∃ keys, next x = some keys ∧ keys ⊆ seen

variable {next} {start key : κ} {seen pending keys found : List κ} {n : ℕ}

omit [DecidableEq κ] in
theorem exploring_start : Exploring next start [start] [start] where
  nodup := List.nodup_singleton start
  start_mem := List.mem_singleton_self start
  pending_sub := List.Subset.refl _
  sound := fun _ hx => List.mem_singleton.1 hx ▸ .refl
  closed := fun _ hx hnot => absurd hx hnot

/-- What keys add to what is known. -/
theorem foldl_add (keys seen pending : List κ) : ∃ fresh : List κ,
    keys.foldl add (seen, pending) = (seen ++ fresh, fresh.reverse ++ pending) ∧ fresh.Nodup ∧
      (∀ x ∈ fresh, x ∈ keys ∧ x ∉ seen) ∧ keys ⊆ seen ++ fresh := by
  induction keys generalizing seen pending with
  | nil => exact ⟨[], by simp, List.nodup_nil, by simp, by simp⟩
  | cons key keys ih =>
    rw [List.foldl_cons]
    by_cases hkey : key ∈ seen
    · have hadd : add (seen, pending) key = (seen, pending) := if_pos hkey
      obtain ⟨fresh, hfold, hnodup, hfresh, hkeys⟩ := ih seen pending
      refine ⟨fresh, by rw [hadd, hfold], hnodup, fun x hx => ?_, ?_⟩
      · exact ⟨List.mem_cons_of_mem key (hfresh x hx).1, (hfresh x hx).2⟩
      · exact List.cons_subset.2 ⟨List.mem_append_left fresh hkey, hkeys⟩
    · have hadd : add (seen, pending) key = (seen ++ [key], key :: pending) := if_neg hkey
      obtain ⟨fresh, hfold, hnodup, hfresh, hkeys⟩ := ih (seen ++ [key]) (key :: pending)
      have hnew : key ∉ fresh := by
        intro hin
        exact (hfresh key hin).2 (List.mem_append_right seen (List.mem_singleton_self key))
      refine ⟨key :: fresh, ?_, List.nodup_cons.2 ⟨hnew, hnodup⟩, fun x hx => ?_, ?_⟩
      · rw [hadd, hfold]
        simp
      · rcases List.mem_cons.1 hx with rfl | hx
        · exact ⟨List.mem_cons_self, hkey⟩
        · have hx' := hfresh x hx
          exact ⟨List.mem_cons_of_mem key hx'.1, fun hin => hx'.2 (List.mem_append_left _ hin)⟩
      · have hsplit : seen ++ key :: fresh = seen ++ [key] ++ fresh := by simp
        rw [hsplit]
        refine List.cons_subset.2 ⟨?_, hkeys⟩
        exact List.mem_append_left fresh (List.mem_append_right seen (List.mem_singleton_self key))

/-- Following a key keeps what is known. -/
theorem Exploring.step (h : Exploring next start seen (key :: pending))
    (hnext : next key = some keys) : Exploring next start (keys.foldl add (seen, pending)).1
      (keys.foldl add (seen, pending)).2 := by
  obtain ⟨fresh, hfold, hnodup, hfresh, hkeys⟩ := foldl_add keys seen pending
  rw [hfold]
  have hkey : key ∈ seen := h.pending_sub List.mem_cons_self
  exact
    { nodup := List.nodup_append'.2 ⟨h.nodup, hnodup, fun x hx hin => (hfresh x hin).2 hx⟩
      start_mem := List.mem_append_left fresh h.start_mem
      pending_sub := by
        intro x hx
        rcases List.mem_append.1 hx with hx | hx
        · exact List.mem_append_right seen (List.mem_reverse.1 hx)
        · exact List.mem_append_left fresh (h.pending_sub (List.mem_cons_of_mem key hx))
      sound := by
        intro x hx
        rcases List.mem_append.1 hx with hx | hx
        · exact h.sound x hx
        · exact (h.sound key hkey).tail ⟨keys, hnext, (hfresh x hx).1⟩
      closed := by
        intro x hx hnot
        rw [List.mem_append, not_or, List.mem_reverse] at hnot
        by_cases hxkey : x = key
        · exact ⟨keys, hxkey ▸ hnext, hkeys⟩
        · have hseen : x ∈ seen := (List.mem_append.1 hx).resolve_right hnot.1
          have hleft : x ∉ key :: pending := by
            rw [List.mem_cons, not_or]
            exact ⟨hxkey, hnot.2⟩
          obtain ⟨further, hfurther, hsub⟩ := h.closed x hseen hleft
          exact ⟨further, hfurther, List.Subset.trans hsub (List.subset_append_left seen fresh)⟩ }

/-- What is found is what the start key leads to. -/
theorem explore_ok (h : Exploring next start seen pending)
    (hfound : explore next n seen pending = some (.ok found)) (x : κ) :
    x ∈ found ↔ ReflTransGen (Leads next) start x := by
  induction n generalizing seen pending with
  | zero =>
    cases pending with
    | nil =>
      injection hfound with hfound
      injection hfound with hfound
      subst hfound
      refine ⟨h.sound x, fun hpath => ?_⟩
      induction hpath with
      | refl => exact h.start_mem
      | tail _ hlast ih =>
        obtain ⟨keys, hkeys, hin⟩ := hlast
        obtain ⟨keys', hkeys', hsub⟩ := h.closed _ ih List.not_mem_nil
        rw [hkeys] at hkeys'
        injection hkeys' with hsame
        exact hsub (hsame ▸ hin)
    | cons key pending => cases hfound
  | succ n ih =>
    cases pending with
    | nil => exact ih h (by cases n <;> exact hfound)
    | cons key pending =>
      unfold explore at hfound
      cases hnext : next key with
      | none =>
        simp only [hnext] at hfound
        injection hfound with hfound
        cases hfound
      | some keys =>
        simp only [hnext] at hfound
        exact ih (h.step hnext) hfound

/-- The key that cannot be followed is one that the start key leads to. -/
theorem explore_error (h : Exploring next start seen pending)
    (hfound : explore next n seen pending = some (.error key)) :
    ReflTransGen (Leads next) start key ∧ next key = none := by
  induction n generalizing seen pending with
  | zero =>
    cases pending with
    | nil =>
      injection hfound with hfound
      cases hfound
    | cons key pending => cases hfound
  | succ n ih =>
    cases pending with
    | nil => exact ih h (by cases n <;> exact hfound)
    | cons first pending =>
      unfold explore at hfound
      cases hnext : next first with
      | none =>
        simp only [hnext] at hfound
        injection hfound with hfound
        injection hfound with hfound
        subst hfound
        exact ⟨h.sound _ (h.pending_sub List.mem_cons_self), hnext⟩
      | some keys =>
        simp only [hnext] at hfound
        exact ih (h.step hnext) hfound

/-- Where the keys stay within a finite ground, following them comes to an end. -/
theorem explore_isSome {ground : List κ} (hground : ∀ x ∈ ground, ∀ keys, next x = some keys →
      keys ⊆ ground) (h : Exploring next start seen pending) (hseen : seen ⊆ ground)
    (hn : pending.length + (ground.length - seen.length) ≤ n) :
    (explore next n seen pending).isSome := by
  induction n generalizing seen pending with
  | zero =>
    have hnil : pending = [] := List.length_eq_zero_iff.1 (by omega)
    rw [hnil]
    rfl
  | succ n ih =>
    cases pending with
    | nil => rfl
    | cons key pending =>
      unfold explore
      cases hnext : next key with
      | none => rfl
      | some keys =>
        have hstep := h.step hnext
        obtain ⟨fresh, hfold, hnodup, hfresh, -⟩ := foldl_add keys seen pending
        have hsub : seen ++ fresh ⊆ ground := by
          intro x hx
          rcases List.mem_append.1 hx with hx | hx
          · exact hseen hx
          · exact hground key (hseen (h.pending_sub List.mem_cons_self)) keys hnext (hfresh x hx).1
        rw [hfold] at hstep
        have hle : (seen ++ fresh).length ≤ ground.length :=
          (List.subperm_of_subset hstep.nodup hsub).length_le
        simp only [hfold]
        refine ih hstep hsub ?_
        rw [List.length_append] at hle ⊢
        rw [List.length_append, List.length_reverse]
        rw [List.length_cons] at hn
        omega

end DeviceShell.Worklist
