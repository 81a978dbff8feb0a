import DeviceShell.Lib.PyLib

/-!
# Methods on a state

A method that never awaits runs at once on a state: it reads and changes the state, and returns a
value or raises; what it changed before it raises stays changed. `Stateful.Ensures` states what a
method does from a given state, and the rules below follow the structure of a program.
-/

namespace DeviceShell

/-- A method on a state `σ`. -/
abbrev Stateful (σ α : Type) := ExceptT PyError (StateM σ) α

namespace Stateful

variable {σ α β : Type}

/-- What a method ensures from the state `s`. -/
def Ensures (m : Stateful σ α) (s : σ) (Q : Except PyError α → σ → Prop) : Prop :=
  Q (m.run s).1 (m.run s).2

variable {s : σ} {Q Q' : Except PyError α → σ → Prop} {R : Except PyError β → σ → Prop}

theorem ensures_pure {a : α} (h : Q (.ok a) s) : Ensures (pure a : Stateful σ α) s Q := h

theorem ensures_throw {e : PyError} (h : Q (.error e) s) :
    Ensures (throw e : Stateful σ α) s Q := h

/-- A method reads the state. -/
theorem ensures_get {f : σ → Stateful σ β} (h : Ensures (f s) s R) :
    Ensures (get >>= f) s R := h

/-- A method changes the state. -/
theorem ensures_modify {g : σ → σ} {f : PUnit → Stateful σ β} (h : Ensures (f ()) (g s) R) :
    Ensures (modify g >>= f) s R := h

/-- A method replaces the state. -/
theorem ensures_set {s' : σ} {f : PUnit → Stateful σ β} (h : Ensures (f ()) s' R) :
    Ensures (set s' >>= f) s R := h

/-- The rule of consequence. -/
theorem Ensures.mono {m : Stateful σ α} (h : Ensures m s Q) (hQ : ∀ r s', Q r s' → Q' r s') :
    Ensures m s Q' := hQ _ _ h

/-- A method in two parts. -/
theorem run_bind (m : Stateful σ α) (f : α → Stateful σ β) (s : σ) :
    (m >>= f).run s = match m.run s with
      | (.ok a, s') => (f a).run s'
      | (.error e, s') => (.error e, s') := by
  have hbind : (m >>= f).run s = ExceptT.bindCont f (m.run s).1 (m.run s).2 := rfl
  rw [hbind]
  generalize m.run s = result
  obtain ⟨result, s'⟩ := result
  cases result with
  | ok a => rfl
  | error e => rfl

/-- A method with an exception handler. -/
theorem run_tryCatch (m : Stateful σ α) (f : PyError → Stateful σ α) (s : σ) :
    (tryCatch m f).run s = match m.run s with
      | (.ok a, s') => (.ok a, s')
      | (.error e, s') => (f e).run s' := by
  have hcatch : tryCatch m f = ExceptT.tryCatch m f := rfl
  rw [hcatch]
  cases hm : m.run s with
  | mk result s' =>
    have hrun : m s = (result, s') := hm
    simp only [ExceptT.tryCatch, ExceptT.run, ExceptT.mk, bind, StateT.bind, hrun]
    cases result with
    | ok a => rfl
    | error e => rfl

/-- The rule of sequencing. -/
theorem Ensures.bind {m : Stateful σ α} {f : α → Stateful σ β} (hm : Ensures m s Q)
    (hok : ∀ a s', Q (.ok a) s' → Ensures (f a) s' R)
    (herr : ∀ e s', Q (.error e) s' → R (.error e) s') : Ensures (m >>= f) s R := by
  unfold Ensures at hm ⊢
  rw [run_bind]
  generalize m.run s = result at hm
  obtain ⟨result, s'⟩ := result
  cases result with
  | ok a => exact hok a s' hm
  | error e => exact herr e s' hm

/-- A computation that only computes. -/
theorem ensures_lift {x : Except PyError α} {f : α → Stateful σ β}
    (hok : ∀ a, x = .ok a → Ensures (f a) s R) (herr : ∀ e, x = .error e → R (.error e) s) :
    Ensures (liftM x >>= f) s R := by
  cases x with
  | ok a => exact hok a rfl
  | error e => exact herr e rfl

/-- A conditional ensures what its branches do. -/
theorem Ensures.ite {c : Prop} [Decidable c] {m n : Stateful σ α} (hm : c → Ensures m s Q)
    (hn : ¬c → Ensures n s Q) : Ensures (if c then m else n) s Q := by
  by_cases hc : c
  · rw [if_pos hc]
    exact hm hc
  · rw [if_neg hc]
    exact hn hc

end Stateful

end DeviceShell
