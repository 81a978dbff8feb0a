import Mathlib.Data.List.Basic

/-!
# Runs of a state machine

A machine is a total step function on states and inputs. A run is the fold of the step over a list
of inputs. `Meets` says that every input of a run satisfies a condition in the state it is given
in; an invariant that each such step preserves then holds at the end of every run that meets the
condition (`Meets.invariant`).
-/

namespace DeviceShell.Machine

variable {σ ι : Type}

/-- The state after a list of inputs. -/
def run (step : σ → ι → σ) (s : σ) (inputs : List ι) : σ := inputs.foldl step s

/-- Every input of the run satisfies `ok` in the state in which it arrives. -/
def Meets (step : σ → ι → σ) (ok : σ → ι → Prop) : σ → List ι → Prop
  | _, [] => True
  | s, i :: rest => ok s i ∧ Meets step ok (step s i) rest

instance decidableMeets (step : σ → ι → σ) (ok : σ → ι → Prop) [∀ s i, Decidable (ok s i)] :
    ∀ s inputs, Decidable (Meets step ok s inputs)
  | _, [] => inferInstanceAs (Decidable True)
  | s, i :: rest =>
    haveI : Decidable (Meets step ok (step s i) rest) := decidableMeets step ok (step s i) rest
    inferInstanceAs (Decidable (ok s i ∧ Meets step ok (step s i) rest))

@[simp] theorem run_nil (step : σ → ι → σ) (s : σ) : run step s [] = s := rfl

@[simp] theorem run_cons (step : σ → ι → σ) (s : σ) (i : ι) (rest : List ι) :
    run step s (i :: rest) = run step (step s i) rest := rfl

/-- A run in two parts. -/
theorem run_append (step : σ → ι → σ) (s : σ) (first rest : List ι) :
    run step s (first ++ rest) = run step (run step s first) rest := by
  simp [run, List.foldl_append]

/-- A condition that every input satisfies everywhere is met by every run. -/
theorem meets_of_forall {step : σ → ι → σ} {ok : σ → ι → Prop} (h : ∀ s i, ok s i) (s : σ)
    (inputs : List ι) : Meets step ok s inputs := by
  induction inputs generalizing s with
  | nil => trivial
  | cons i rest ih => exact ⟨h s i, ih (step s i)⟩

/-- A run in two parts meets a condition when both parts do. -/
theorem meets_append {step : σ → ι → σ} {ok : σ → ι → Prop} {s : σ} {first rest : List ι} :
    Meets step ok s (first ++ rest) ↔
      Meets step ok s first ∧ Meets step ok (run step s first) rest := by
  induction first generalizing s with
  | nil => simp [Meets]
  | cons i first ih => simp [Meets, ih, and_assoc]

/-- A run meets a condition when every input does in the state that the ones before it reach. -/
theorem meets_iff {step : σ → ι → σ} {ok : σ → ι → Prop} {s : σ} {inputs : List ι} :
    Meets step ok s inputs ↔
      ∀ before i after, inputs = before ++ i :: after → ok (run step s before) i := by
  constructor
  · rintro h before i after rfl
    exact (meets_append.1 h).2.1
  · intro h
    induction inputs generalizing s with
    | nil => trivial
    | cons i rest ih =>
      refine ⟨h [] i rest rfl, ih fun before j after heq => ?_⟩
      exact h (i :: before) j after (by rw [heq, List.cons_append])

/-- A condition that follows for the inputs of the run is met with the other one. -/
theorem Meets.imp {step : σ → ι → σ} {ok ok' : σ → ι → Prop} {s : σ} {inputs : List ι}
    (h : Meets step ok s inputs) (hok : ∀ s, ∀ i ∈ inputs, ok s i → ok' s i) :
    Meets step ok' s inputs := by
  induction inputs generalizing s with
  | nil => trivial
  | cons i rest ih =>
    refine ⟨hok s i List.mem_cons_self h.1, ih h.2 fun t j hj => ?_⟩
    exact hok t j (List.mem_cons_of_mem _ hj)

/-- An invariant that every step meeting the condition preserves holds at the end of every run
whose steps meet it. -/
theorem Meets.invariant {step : σ → ι → σ} {ok : σ → ι → Prop} {I : σ → Prop}
    (hstep : ∀ s i, I s → ok s i → I (step s i)) {s : σ} {inputs : List ι}
    (h : Meets step ok s inputs) (hs : I s) : I (run step s inputs) := by
  induction inputs generalizing s with
  | nil => exact hs
  | cons i rest ih => exact ih h.2 (hstep s i hs h.1)

end DeviceShell.Machine
