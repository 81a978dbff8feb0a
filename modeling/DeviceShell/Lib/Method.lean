import Mathlib.Control.Monad.Basic
import Mathlib.Order.Defs.Unbundled

/-!
# Methods that may not return

A method runs at once on a state: it returns a value or raises, what it changed before it raises
stays changed, and a loop in it may go on for ever. A loop takes a bound on its iterations, and with
too small a bound there is no result: a method returns when some bound gives it one.

`Ensures` says what holds of the result, if there is one; `Returns` says that there is one. Both
follow the structure of a program by the rules below.
-/

namespace DeviceShell

/-- A method on a state `σ` that raises exceptions in `ε`. -/
abbrev Method (ε σ α : Type) := ExceptT ε (StateT σ Option) α

namespace Method

variable {ε σ α β : Type}

/-- What holds of the result and the state after a method, if it returns or raises. -/
def Ensures (m : Method ε σ α) (s : σ) (Q : Except ε α → σ → Prop) : Prop :=
  ∀ r s', m.run s = some (r, s') → Q r s'

/-- A method returns or raises from the state. -/
def Returns (m : Method ε σ α) (s : σ) : Prop := ∃ r s', m.run s = some (r, s')

/-- An operation that only computes. -/
def lift (x : Except ε α) : Method ε σ α := ExceptT.mk (pure x)

/-- A loop whose bound is exhausted. -/
def exhausted : Method ε σ α := ExceptT.mk fun _ => none

variable {s : σ} {Q Q' : Except ε α → σ → Prop} {R : Except ε β → σ → Prop}

/-- A method in two parts. -/
theorem run_bind (m : Method ε σ α) (f : α → Method ε σ β) (s : σ) :
    (m >>= f).run s = match m.run s with
      | none => none
      | some (.ok a, s') => (f a).run s'
      | some (.error e, s') => some (.error e, s') := by
  have hbind : (m >>= f).run s = (m.run s).bind fun p => ExceptT.bindCont f p.1 p.2 := rfl
  rw [hbind]
  generalize m.run s = result
  cases result with
  | none => rfl
  | some p =>
    obtain ⟨r, s'⟩ := p
    cases r with
    | ok a => rfl
    | error e => rfl

/-- A method with an exception handler. -/
theorem run_tryCatch (m : Method ε σ α) (f : ε → Method ε σ α) (s : σ) :
    (tryCatch m f).run s = match m.run s with
      | some (.error e, s') => (f e).run s'
      | result => result := by
  have hcatch : (tryCatch m f).run s = (m.run s).bind fun p =>
      (match p.1 with
        | .ok a => pure (.ok a)
        | .error e => (f e).run : StateT σ Option (Except ε α)) p.2 := rfl
  rw [hcatch]
  generalize m.run s = result
  cases result with
  | none => rfl
  | some p =>
    obtain ⟨r, s'⟩ := p
    cases r with
    | ok a => rfl
    | error e => rfl

/-- What only computes leaves the state. -/
theorem run_lift (x : Except ε α) (s : σ) : (lift x : Method ε σ α).run s = some (x, s) := rfl

/-- A method that reads the state first. -/
theorem run_get (f : σ → Method ε σ β) (s : σ) : (get >>= f).run s = (f s).run s := rfl

/-- A method that changes the state first. -/
theorem run_modify (g : σ → σ) (f : PUnit → Method ε σ β) (s : σ) :
    (modify g >>= f).run s = (f ()).run (g s) := rfl

/-- A method in two parts, of which the first returns. -/
theorem run_bind_ok {m : Method ε σ α} {f : α → Method ε σ β} {s s' : σ} {a : α}
    (h : m.run s = some (.ok a, s')) : (m >>= f).run s = (f a).run s' := by
  rw [run_bind, h]

/-- A method in two parts, of which the first raises. -/
theorem run_bind_error {m : Method ε σ α} {f : α → Method ε σ β} {s s' : σ} {e : ε}
    (h : m.run s = some (.error e, s')) : (m >>= f).run s = some (.error e, s') := by
  rw [run_bind, h]

/-! ## What a method ensures -/

/-- The rule of consequence. -/
theorem Ensures.mono {m : Method ε σ α} (h : Ensures m s Q) (hQ : ∀ r s', Q r s' → Q' r s') :
    Ensures m s Q' := fun r s' hr => hQ r s' (h r s' hr)

theorem ensures_pure {a : α} (h : Q (.ok a) s) : Ensures (pure a : Method ε σ α) s Q := by
  intro r s' hr
  have heq : (Except.ok a, s) = (r, s') := Option.some.inj hr
  cases heq
  exact h

theorem ensures_throw {e : ε} (h : Q (.error e) s) :
    Ensures (throw e : Method ε σ α) s Q := by
  intro r s' hr
  have heq : (Except.error e, s) = (r, s') := Option.some.inj hr
  cases heq
  exact h

theorem ensures_lift {x : Except ε α} (h : Q x s) : Ensures (lift x) s Q := by
  intro r s' hr
  have heq : (x, s) = (r, s') := Option.some.inj hr
  cases heq
  exact h

/-- Nothing is ensured by a loop that has not ended. -/
theorem ensures_exhausted : Ensures (exhausted : Method ε σ α) s Q := by
  intro r s' hr
  exact absurd hr (by simp [exhausted, ExceptT.run, ExceptT.mk])

/-- A method reads the state. -/
theorem ensures_get {f : σ → Method ε σ β} (h : Ensures (f s) s R) :
    Ensures (get >>= f) s R := h

/-- A method changes the state. -/
theorem ensures_modify {g : σ → σ} {Q : Except ε PUnit → σ → Prop} (h : Q (.ok ()) (g s)) :
    Ensures (modify g : Method ε σ PUnit) s Q := by
  intro r s' hr
  have heq : (Except.ok (), g s) = (r, s') := Option.some.inj hr
  cases heq
  exact h

/-- A method changes the state and goes on. -/
theorem ensures_modify_bind {g : σ → σ} {f : PUnit → Method ε σ β} (h : Ensures (f ()) (g s) R) :
    Ensures (modify g >>= f) s R := h

/-- A method replaces the state and goes on. -/
theorem ensures_set_bind {t : σ} {f : PUnit → Method ε σ β} (h : Ensures (f ()) t R) :
    Ensures (set t >>= f) s R := h

/-- A part that is known to return goes on. -/
theorem ensures_bind_ok {m : Method ε σ α} {f : α → Method ε σ β} {a : α} {t : σ}
    (hm : m.run s = some (.ok a, t)) (h : Ensures (f a) t R) : Ensures (m >>= f) s R := by
  intro r s' hr
  rw [run_bind_ok hm] at hr
  exact h r s' hr

/-- The rule of sequencing. -/
theorem Ensures.bind {m : Method ε σ α} {f : α → Method ε σ β} (hm : Ensures m s Q)
    (hok : ∀ a s', Q (.ok a) s' → Ensures (f a) s' R)
    (herr : ∀ e s', Q (.error e) s' → R (.error e) s') : Ensures (m >>= f) s R := by
  intro r s' hr
  rw [run_bind] at hr
  cases hrun : m.run s with
  | none =>
    rw [hrun] at hr
    exact absurd hr (by simp)
  | some p =>
    obtain ⟨first, t⟩ := p
    have hfirst := hm first t hrun
    rw [hrun] at hr
    cases first with
    | ok a => exact hok a t hfirst r s' hr
    | error e =>
      have heq : (Except.error e, t) = (r, s') := Option.some.inj hr
      cases heq
      exact herr e _ hfirst

/-- The rule for an exception handler. -/
theorem Ensures.tryCatch {m : Method ε σ α} {f : ε → Method ε σ α} (hm : Ensures m s Q)
    (hok : ∀ a s', Q (.ok a) s' → Q' (.ok a) s')
    (herr : ∀ e s', Q (.error e) s' → Ensures (f e) s' Q') :
    Ensures (MonadExcept.tryCatch m f) s Q' := by
  intro r s' hr
  rw [run_tryCatch] at hr
  cases hrun : m.run s with
  | none =>
    rw [hrun] at hr
    exact absurd hr (by simp)
  | some p =>
    obtain ⟨first, t⟩ := p
    have hfirst := hm first t hrun
    rw [hrun] at hr
    cases first with
    | ok a =>
      have heq : (Except.ok a, t) = (r, s') := Option.some.inj hr
      cases heq
      exact hok a _ hfirst
    | error e => exact herr e t hfirst r s' hr

/-- A conditional ensures what its branches do. -/
theorem Ensures.ite {c : Prop} [Decidable c] {m n : Method ε σ α} (hm : c → Ensures m s Q)
    (hn : ¬c → Ensures n s Q) : Ensures (if c then m else n) s Q := by
  by_cases hc : c
  · rw [if_pos hc]
    exact hm hc
  · rw [if_neg hc]
    exact hn hc

/-! ## Relations that methods keep -/

/-- A relation holds between the states before and after a method, from whatever state. -/
def Within (R : σ → σ → Prop) (m : Method ε σ α) : Prop := ∀ s, Ensures m s fun _ t => R s t

section

variable {P : σ → σ → Prop} [IsPreorder σ P]

theorem within_pure {a : α} : Within P (pure a : Method ε σ α) := fun s =>
  ensures_pure (refl_of P s)

theorem within_throw {e : ε} : Within P (throw e : Method ε σ α) := fun s =>
  ensures_throw (refl_of P s)

theorem within_lift {x : Except ε α} : Within P (lift x : Method ε σ α) := fun s =>
  ensures_lift (refl_of P s)

omit [IsPreorder σ P] in
theorem within_exhausted : Within P (exhausted : Method ε σ α) := fun _ => ensures_exhausted

omit [IsPreorder σ P] in
theorem within_modify {g : σ → σ} (h : ∀ s, P s (g s)) :
    Within P (modify g : Method ε σ PUnit) := fun s => ensures_modify (h s)

omit [IsPreorder σ P] in
theorem within_get {f : σ → Method ε σ β} (h : ∀ s, Ensures (f s) s fun _ t => P s t) :
    Within P (get >>= f) := fun s => ensures_get (h s)

/-- A method changes the state and goes on. -/
theorem within_modify_bind {g : σ → σ} {f : PUnit → Method ε σ β} (h : ∀ s, P s (g s))
    (hf : Within P (f ())) : Within P (modify g >>= f) := by
  intro s
  refine ensures_modify_bind ((hf (g s)).mono fun _ t ht => ?_)
  exact trans_of P (h s) ht

/-- Two parts keep a relation that can be composed. -/
theorem Within.bind {m : Method ε σ α} {f : α → Method ε σ β} (hm : Within P m)
    (hf : ∀ a, Within P (f a)) : Within P (m >>= f) := by
  intro s
  refine (hm s).bind ?_ fun _ _ h => h
  intro a t ht
  exact (hf a t).mono fun _ u hu => trans_of P ht hu

theorem Within.tryCatch {m : Method ε σ α} {f : ε → Method ε σ α} (hm : Within P m)
    (hf : ∀ e, Within P (f e)) : Within P (MonadExcept.tryCatch m f) := by
  intro s
  refine (hm s).tryCatch (fun _ _ h => h) ?_
  intro e t ht
  exact (hf e t).mono fun _ u hu => trans_of P ht hu

omit [IsPreorder σ P] in
theorem Within.ite {c : Prop} [Decidable c] {m n : Method ε σ α} (hm : Within P m)
    (hn : Within P n) : Within P (if c then m else n) := fun s =>
  Ensures.ite (fun _ => hm s) fun _ => hn s

end

/-! ## What methods raise -/

/-- A method raises nothing but what satisfies a predicate, from whatever state. -/
def RaisesOnly (P : ε → Prop) (m : Method ε σ α) : Prop :=
  ∀ s, Ensures m s fun r _ => ∀ e, r = .error e → P e

section

variable {P : ε → Prop}

theorem raisesOnly_pure {a : α} : RaisesOnly P (pure a : Method ε σ α) := fun _ =>
  ensures_pure fun _ h => absurd h (by simp)

theorem raisesOnly_throw {e : ε} (h : P e) : RaisesOnly P (throw e : Method ε σ α) := fun _ =>
  ensures_throw fun _ heq => Except.error.inj heq ▸ h

theorem raisesOnly_exhausted : RaisesOnly P (exhausted : Method ε σ α) := fun _ => ensures_exhausted

theorem raisesOnly_modify {g : σ → σ} : RaisesOnly P (modify g : Method ε σ PUnit) := fun _ =>
  ensures_modify fun _ h => absurd h (by simp)

theorem raisesOnly_get {f : σ → Method ε σ β}
    (h : ∀ s, Ensures (f s) s fun r _ => ∀ e, r = .error e → P e) :
    RaisesOnly P (get >>= f) := fun s => ensures_get (h s)

theorem RaisesOnly.bind {m : Method ε σ α} {f : α → Method ε σ β} (hm : RaisesOnly P m)
    (hf : ∀ a, RaisesOnly P (f a)) : RaisesOnly P (m >>= f) := fun s =>
  (hm s).bind (fun a t _ => hf a t) fun e _ h _ heq => Except.error.inj heq ▸ h e rfl

/-- A handler sees what the method raises. -/
theorem RaisesOnly.tryCatch {Q : ε → Prop} {m : Method ε σ α} {f : ε → Method ε σ α}
    (hm : RaisesOnly Q m) (hf : ∀ e, Q e → RaisesOnly P (f e)) :
    RaisesOnly P (MonadExcept.tryCatch m f) := fun s =>
  (hm s).tryCatch (fun _ _ _ _ h => absurd h (by simp)) fun e t h => hf e (h e rfl) t

theorem RaisesOnly.ite {c : Prop} [Decidable c] {m n : Method ε σ α} (hm : c → RaisesOnly P m)
    (hn : ¬c → RaisesOnly P n) : RaisesOnly P (if c then m else n) := fun s =>
  Ensures.ite (fun hc => hm hc s) fun hc => hn hc s

end

/-! ## Methods that return -/

theorem returns_pure {a : α} : Returns (pure a : Method ε σ α) s := ⟨.ok a, s, rfl⟩

theorem returns_throw {e : ε} : Returns (throw e : Method ε σ α) s := ⟨.error e, s, rfl⟩

theorem returns_lift {x : Except ε α} : Returns (lift x : Method ε σ α) s := ⟨x, s, rfl⟩

theorem returns_modify {g : σ → σ} : Returns (modify g : Method ε σ PUnit) s := ⟨.ok (), g s, rfl⟩

theorem returns_set {t : σ} : Returns (set t : Method ε σ PUnit) s := ⟨.ok (), t, rfl⟩

theorem returns_get {f : σ → Method ε σ β} (h : Returns (f s) s) : Returns (get >>= f) s := h

/-- Two parts return when the first does and the second does from what the first ensures. -/
theorem Returns.bind_of {m : Method ε σ α} {f : α → Method ε σ β} (hm : Returns m s)
    (hQ : Ensures m s Q) (hf : ∀ a s', Q (.ok a) s' → Returns (f a) s') :
    Returns (m >>= f) s := by
  obtain ⟨r, t, hrun⟩ := hm
  cases r with
  | ok a =>
    obtain ⟨r', s', hrest⟩ := hf a t (hQ _ _ hrun)
    exact ⟨r', s', by rw [run_bind, hrun]; exact hrest⟩
  | error e => exact ⟨.error e, t, by rw [run_bind, hrun]⟩

/-- Two parts return when the first does and the second does from every state. -/
theorem Returns.bind {m : Method ε σ α} {f : α → Method ε σ β} (hm : Returns m s)
    (hf : ∀ a s', Returns (f a) s') : Returns (m >>= f) s :=
  hm.bind_of (Q := fun _ _ => True) (fun _ _ _ => trivial) fun a s' _ => hf a s'

theorem Returns.tryCatch {m : Method ε σ α} {f : ε → Method ε σ α} (hm : Returns m s)
    (hf : ∀ e s', Returns (f e) s') : Returns (MonadExcept.tryCatch m f) s := by
  obtain ⟨r, t, hrun⟩ := hm
  cases r with
  | ok a => exact ⟨.ok a, t, by rw [run_tryCatch, hrun]⟩
  | error e =>
    obtain ⟨r', s', hrest⟩ := hf e t
    exact ⟨r', s', by rw [run_tryCatch, hrun]; exact hrest⟩

theorem Returns.ite {c : Prop} [Decidable c] {m n : Method ε σ α} (hm : c → Returns m s)
    (hn : ¬c → Returns n s) : Returns (if c then m else n) s := by
  by_cases hc : c
  · rw [if_pos hc]
    exact hm hc
  · rw [if_neg hc]
    exact hn hc

end Method

end DeviceShell
