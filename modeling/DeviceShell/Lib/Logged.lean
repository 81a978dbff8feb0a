import DeviceShell.Lib.PyLib

/-!
# Computations that write records and may raise

`Logged ω α` is a computation that writes records of type `ω` in order and then returns a value or
raises; what was written before an exception stays written. The records change a state `σ`, by
`upd`. `Guarantees` states what a computation does to that state: each record it writes is allowed
by `G` in the state in which it is written, and a value it returns satisfies `Q` together with the
state it leaves. The rules below follow the structure of a program, so a program's guarantee is
proved by applying the rule of each of its steps, and `Steps.invariant` turns the guarantee of a
program into an invariant of the state, also where the program raises.
-/

namespace DeviceShell

/-- The records written by a computation and how it ended. -/
structure Logged (ω α : Type) where
  /-- The records, in the order of writing. -/
  written : List ω
  /-- The value returned or the exception raised. -/
  result : Except PyError α

namespace Logged

variable {ω α β : Type}

/-- Writes one record. -/
def write (w : ω) : Logged ω Unit := ⟨[w], .ok ()⟩

/-- Raises. -/
def raise (e : PyError) : Logged ω α := ⟨[], .error e⟩

/-- Sequencing: an exception of the first part skips the second. -/
def andThen (m : Logged ω α) (f : α → Logged ω β) : Logged ω β :=
  match m.result with
  | .ok a => ⟨m.written ++ (f a).written, (f a).result⟩
  | .error e => ⟨m.written, .error e⟩

instance : Monad (Logged ω) where
  pure a := ⟨[], .ok a⟩
  bind := andThen

/-- A computation that writes nothing. -/
def lift (x : Except PyError α) : Logged ω α := ⟨[], x⟩

instance : MonadLift (Except PyError) (Logged ω) := ⟨lift⟩

/-- A computation goes on with what it computed. -/
theorem ok_bind (a : α) (f : α → Logged ω β) : (liftM (Except.ok a : Except PyError α) >>= f) = f a :=
  rfl

/-- An exception ends it. -/
theorem error_bind (e : PyError) (f : α → Logged ω β) :
    (liftM (Except.error e : Except PyError α) >>= f) = raise e := rfl

/-- Every record is allowed by `G` in the state in which it is written. -/
def Steps {σ : Type} (G : σ → ω → Prop) (upd : σ → ω → σ) : σ → List ω → Prop
  | _, [] => True
  | s, w :: ws => G s w ∧ Steps G upd (upd s w) ws

/-- What a computation guarantees from the state `s`. -/
structure Guarantees {σ : Type} (G : σ → ω → Prop) (upd : σ → ω → σ) (s : σ) (m : Logged ω α)
    (Q : α → σ → Prop) : Prop where
  /-- Every record is allowed where it is written. -/
  steps : Steps G upd s m.written
  /-- A value that is returned satisfies `Q` with the state then. -/
  returned : ∀ a, m.result = .ok a → Q a (m.written.foldl upd s)

section Rules

variable {σ : Type} {G : σ → ω → Prop} {upd : σ → ω → σ}

theorem steps_append {s : σ} {first rest : List ω} :
    Steps G upd s (first ++ rest) ↔
      Steps G upd s first ∧ Steps G upd (first.foldl upd s) rest := by
  induction first generalizing s with
  | nil => simp [Steps]
  | cons w first ih => simp [Steps, ih, and_assoc]

/-- An invariant that every allowed record preserves holds after all of them. -/
theorem Steps.invariant {I : σ → Prop} (hI : ∀ s w, I s → G s w → I (upd s w)) {s : σ}
    {ws : List ω} (h : Steps G upd s ws) (hs : I s) : I (ws.foldl upd s) := by
  induction ws generalizing s with
  | nil => exact hs
  | cons w ws ih => exact ih h.2 (hI s w hs h.1)

/-- For a condition on the records alone, the state does not matter. -/
theorem steps_forall {G : ω → Prop} {s : σ} {ws : List ω} :
    Steps (fun _ w => G w) upd s ws ↔ ∀ w ∈ ws, G w := by
  induction ws generalizing s with
  | nil => simp [Steps]
  | cons w ws ih => simp [Steps, ih]

/-- Records that are allowed by `G` are allowed by `G'` where an invariant of theirs gives that. -/
theorem Steps.imp {G' : σ → ω → Prop} {I : σ → Prop}
    (hI : ∀ s w, I s → G s w → G' s w ∧ I (upd s w)) {s : σ} {ws : List ω}
    (h : Steps G upd s ws) (hs : I s) : Steps G' upd s ws := by
  induction ws generalizing s with
  | nil => trivial
  | cons w ws ih =>
    obtain ⟨hw, hs'⟩ := hI s w hs h.1
    exact ⟨hw, ih h.2 hs'⟩

variable {s : σ} {Q Q' : α → σ → Prop} {R : β → σ → Prop}

theorem Guarantees.pure {a : α} (h : Q a s) :
    Guarantees G upd s (Pure.pure a : Logged ω α) Q where
  steps := trivial
  returned b hb := by
    cases hb
    exact h

theorem Guarantees.raise (e : PyError) : Guarantees G upd s (Logged.raise e : Logged ω α) Q where
  steps := trivial
  returned b hb := by cases hb

theorem Guarantees.lift {x : Except PyError α} :
    Guarantees G upd s (Logged.lift x : Logged ω α) (fun a t => x = .ok a ∧ t = s) where
  steps := trivial
  returned _ h := ⟨h, rfl⟩

theorem Guarantees.write {w : ω} (h : G s w) :
    Guarantees G upd s (Logged.write w) (fun _ t => t = upd s w) where
  steps := ⟨h, trivial⟩
  returned _ _ := rfl

/-- The rule of sequencing. -/
theorem Guarantees.bind {m : Logged ω α} {f : α → Logged ω β} (hm : Guarantees G upd s m Q)
    (hf : ∀ a t, Q a t → Guarantees G upd t (f a) R) : Guarantees G upd s (m >>= f) R := by
  change Guarantees G upd s (andThen m f) R
  unfold andThen
  cases hr : m.result with
  | ok a =>
    have ha := hf a _ (hm.returned a hr)
    refine ⟨steps_append.2 ⟨hm.steps, ha.steps⟩, fun b hb => ?_⟩
    simp only [List.foldl_append]
    exact ha.returned b hb
  | error e => exact ⟨hm.steps, fun b hb => by cases hb⟩

/-- The rule of consequence. -/
theorem Guarantees.mono {m : Logged ω α} (h : Guarantees G upd s m Q) (hQ : ∀ a t, Q a t → Q' a t) :
    Guarantees G upd s m Q' :=
  ⟨h.steps, fun a ha => hQ a _ (h.returned a ha)⟩

/-- What is returned is the result. -/
theorem Guarantees.with_result {m : Logged ω α} (h : Guarantees G upd s m Q) :
    Guarantees G upd s m (fun a t => m.result = .ok a ∧ Q a t) :=
  ⟨h.steps, fun a ha => ⟨ha, h.returned a ha⟩⟩

/-- A guarantee about some records is one about others where an invariant gives that. -/
theorem Guarantees.imp {G' : σ → ω → Prop} {I : σ → Prop} {m : Logged ω α}
    (h : Guarantees G upd s m Q) (hI : ∀ s w, I s → G s w → G' s w ∧ I (upd s w)) (hs : I s) :
    Guarantees G' upd s m Q :=
  ⟨h.steps.imp hI hs, h.returned⟩

/-- A guarantee holds of a conditional when it holds of its branches. -/
theorem Guarantees.ite {c : Prop} [Decidable c] {m n : Logged ω α}
    (hm : c → Guarantees G upd s m Q) (hn : ¬c → Guarantees G upd s n Q) :
    Guarantees G upd s (if c then m else n) Q := by
  by_cases hc : c
  · rw [if_pos hc]
    exact hm hc
  · rw [if_neg hc]
    exact hn hc

end Rules

end Logged

end DeviceShell
