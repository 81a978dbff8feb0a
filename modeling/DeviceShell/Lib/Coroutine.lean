import Mathlib

/-!
# Coroutines over a shared state

A coroutine `Co σ ω ρ ε α` reads and writes a shared state `σ` without interruption until it awaits
something, described by a `w : ω`; it is resumed with a `ρ w`, possibly much later and in another
state, and ends with an `α` or raises an `ε`. `Co.section_` runs one to its next suspension.

`Co.Holds` states what a coroutine guarantees: every write is allowed by `G`, its end satisfies `Q`
or, if it raises, `E`, and at every `await` the continuation guarantees the same for whatever the
environment may do meanwhile, which is the parameter `A`: `A w P s` says that, awaiting `w` in the
state `s`, every resumption satisfies `P`. The rules follow the structure of a program.
`Holds.section_` turns a guarantee into facts about one uninterrupted section.
-/

namespace DeviceShell

/-- A coroutine. -/
inductive Co (σ ω : Type) (ρ : ω → Type) (ε α : Type) where
  /-- It returns or raises. -/
  | done (result : Except ε α)
  /-- It reads the shared state. -/
  | get (k : σ → Co σ ω ρ ε α)
  /-- It writes the shared state. -/
  | set (s : σ) (k : Co σ ω ρ ε α)
  /-- It awaits. -/
  | await (w : ω) (k : ρ w → Co σ ω ρ ε α)

namespace Co

variable {σ ω : Type} {ρ : ω → Type} {ε ε' α β : Type}

/-- Sequencing. -/
def andThen (m : Co σ ω ρ ε α) (f : α → Co σ ω ρ ε β) : Co σ ω ρ ε β :=
  match m with
  | .done (.ok a) => f a
  | .done (.error e) => .done (.error e)
  | .get k => .get fun s => (k s).andThen f
  | .set s k => .set s (k.andThen f)
  | .await w k => .await w fun r => (k r).andThen f

instance : Monad (Co σ ω ρ ε) where
  pure a := .done (.ok a)
  bind := andThen

/-- A coroutine in three parts. -/
theorem bind_assoc {γ : Type} (m : Co σ ω ρ ε α) (f : α → Co σ ω ρ ε β) (g : β → Co σ ω ρ ε γ) :
    m >>= f >>= g = m >>= fun a => f a >>= g := by
  change (m.andThen f).andThen g = m.andThen fun a => (f a).andThen g
  induction m with
  | done r =>
    cases r with
    | ok a => rfl
    | error e => rfl
  | get k ih => exact congrArg Co.get (funext fun s => ih s)
  | set s k ih => exact congrArg (Co.set s) ih
  | await w k ih => exact congrArg (Co.await w) (funext fun r => ih r)

/-- Raises. -/
def raise (e : ε) : Co σ ω ρ ε α := .done (.error e)

/-- Reads from the shared state. -/
def read (f : σ → α) : Co σ ω ρ ε α := .get fun s => .done (.ok (f s))

/-- Changes the shared state. -/
def modify (f : σ → σ) : Co σ ω ρ ε Unit := .get fun s => .set (f s) (.done (.ok ()))

/-- Awaits. -/
def awaiting (w : ω) : Co σ ω ρ ε (ρ w) := .await w fun r => .done (.ok r)

/-- A computation that only computes. -/
def lift (x : Except ε α) : Co σ ω ρ ε α := .done x

/-- `try: ... except: ...`. -/
def tryCatch (m : Co σ ω ρ ε α) (h : ε → Co σ ω ρ ε' α) : Co σ ω ρ ε' α :=
  match m with
  | .done (.ok a) => .done (.ok a)
  | .done (.error e) => h e
  | .get k => .get fun s => (k s).tryCatch h
  | .set s k => .set s (k.tryCatch h)
  | .await w k => .await w fun r => (k r).tryCatch h

/-- How a section ends. -/
inductive Stop (σ ω : Type) (ρ : ω → Type) (ε α : Type) where
  | done (result : Except ε α)
  | await (w : ω) (k : ρ w → Co σ ω ρ ε α)

/-- Runs a coroutine to its end or to its next `await`. -/
def section_ : Co σ ω ρ ε α → σ → σ × Stop σ ω ρ ε α
  | .done r, s => (s, .done r)
  | .get k, s => (k s).section_ s
  | .set s k, _ => k.section_ s
  | .await w k, s => (s, .await w k)

/-- What a coroutine guarantees from the state `s`. -/
def Holds (G : σ → σ → Prop) (A : (w : ω) → (ρ w → σ → Prop) → σ → Prop) (Q : α → σ → Prop)
    (E : ε → σ → Prop) : Co σ ω ρ ε α → σ → Prop
  | .done (.ok a), s => Q a s
  | .done (.error e), s => E e s
  | .get k, s => Holds G A Q E (k s) s
  | .set s' k, s => G s s' ∧ Holds G A Q E k s'
  | .await w k, s => A w (fun r s' => Holds G A Q E (k r) s') s

/-- A larger set of resumptions satisfies a weaker condition. -/
def Monotone (A : (w : ω) → (ρ w → σ → Prop) → σ → Prop) : Prop :=
  ∀ w P P' s, (∀ r s', P r s' → P' r s') → A w P s → A w P' s

section Rules

variable {G : σ → σ → Prop} {A : (w : ω) → (ρ w → σ → Prop) → σ → Prop} {Q Q' : α → σ → Prop}
  {E E' : ε → σ → Prop} {R : β → σ → Prop} {s : σ}

theorem Holds.pure {a : α} (h : Q a s) : Holds G A Q E (Pure.pure a : Co σ ω ρ ε α) s := h

theorem Holds.raise {e : ε} (h : E e s) : Holds G A Q E (Co.raise e : Co σ ω ρ ε α) s := h

theorem Holds.read {f : σ → α} (h : Q (f s) s) : Holds G A Q E (Co.read f : Co σ ω ρ ε α) s := h

theorem Holds.modify {f : σ → σ} {Q : Unit → σ → Prop} (hG : G s (f s)) (h : Q () (f s)) :
    Holds G A Q E (Co.modify f : Co σ ω ρ ε Unit) s := ⟨hG, h⟩

theorem Holds.lift {x : Except ε α} (hok : ∀ a, x = .ok a → Q a s)
    (herr : ∀ e, x = .error e → E e s) : Holds G A Q E (Co.lift x : Co σ ω ρ ε α) s := by
  cases x with
  | ok a => exact hok a rfl
  | error e => exact herr e rfl

theorem Holds.awaiting {w : ω} {Q : ρ w → σ → Prop} (h : A w Q s) :
    Holds G A Q E (Co.awaiting w : Co σ ω ρ ε (ρ w)) s := h

/-- The rule of consequence. -/
theorem Holds.mono (hA : Monotone A) (hQ : ∀ a s, Q a s → Q' a s) (hE : ∀ e s, E e s → E' e s)
    {m : Co σ ω ρ ε α} (h : Holds G A Q E m s) : Holds G A Q' E' m s := by
  induction m generalizing s with
  | done r =>
    cases r with
    | ok a => exact hQ a s h
    | error e => exact hE e s h
  | get k ih => exact ih s h
  | set s' k ih => exact ⟨h.1, ih h.2⟩
  | await w k ih => exact hA w _ _ s (fun r s' hr => ih r hr) h

/-- The rule of sequencing. -/
theorem Holds.bind (hA : Monotone A) {m : Co σ ω ρ ε α} {f : α → Co σ ω ρ ε β}
    (hm : Holds G A (fun a t => Holds G A R E (f a) t) E m s) : Holds G A R E (m >>= f) s := by
  change Holds G A R E (m.andThen f) s
  induction m generalizing s with
  | done r =>
    cases r with
    | ok a => exact hm
    | error e => exact hm
  | get k ih => exact ih s hm
  | set s' k ih => exact ⟨hm.1, ih hm.2⟩
  | await w k ih => exact hA w _ _ s (fun r s' hr => ih r hr) hm

/-- The rule of `try`. -/
theorem Holds.tryCatch (hA : Monotone A) {m : Co σ ω ρ ε α} {h : ε → Co σ ω ρ ε' α}
    {E' : ε' → σ → Prop} (hm : Holds G A Q (fun e t => Holds G A Q E' (h e) t) m s) :
    Holds G A Q E' (m.tryCatch h) s := by
  induction m generalizing s with
  | done r =>
    cases r with
    | ok a => exact hm
    | error e => exact hm
  | get k ih => exact ih s hm
  | set s' k ih => exact ⟨hm.1, ih hm.2⟩
  | await w k ih => exact hA w _ _ s (fun r s' hr => ih r hr) hm

theorem Holds.ite {c : Prop} [Decidable c] {m n : Co σ ω ρ ε α} (hm : c → Holds G A Q E m s)
    (hn : ¬c → Holds G A Q E n s) : Holds G A Q E (if c then m else n) s := by
  by_cases hc : c
  · rw [if_pos hc]
    exact hm hc
  · rw [if_neg hc]
    exact hn hc

/-- What the guarantee says about the way a section ends. -/
def StopHolds (G : σ → σ → Prop) (A : (w : ω) → (ρ w → σ → Prop) → σ → Prop) (Q : α → σ → Prop)
    (E : ε → σ → Prop) : Stop σ ω ρ ε α → σ → Prop
  | .done (.ok a), s => Q a s
  | .done (.error e), s => E e s
  | .await w k, s => A w (fun r s' => Holds G A Q E (k r) s') s

/-- One section: its writes are allowed, one after the other, and its end keeps the guarantee. -/
theorem Holds.section_ {m : Co σ ω ρ ε α} (h : Holds G A Q E m s) :
    Relation.ReflTransGen G s (m.section_ s).1 ∧
      StopHolds G A Q E (m.section_ s).2 (m.section_ s).1 := by
  induction m generalizing s with
  | done r =>
    refine ⟨.refl, ?_⟩
    cases r with
    | ok a => exact h
    | error e => exact h
  | get k ih => exact ih s h
  | set s' k ih =>
    obtain ⟨hsteps, hstop⟩ := ih h.2
    exact ⟨Relation.ReflTransGen.head h.1 hsteps, hstop⟩
  | await w k ih => exact ⟨.refl, h⟩

end Rules

end Co

end DeviceShell
