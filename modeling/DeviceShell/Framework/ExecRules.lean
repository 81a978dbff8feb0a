import DeviceShell.Framework.ChildRuns

/-!
# Rules for the coroutines of the orchestrator

The steps of `execute` and `_execute_parallel_node` in the terms of `Co.Holds`: each rule takes a
coroutine apart into its first step and the rest.
-/

namespace DeviceShell.Framework

open Stateful

namespace Exec

variable {ρ α β : Type} {G : Scope ρ → Scope ρ → Prop}
  {A : (w : Wait) → (w.Reply → Scope ρ → Prop) → Scope ρ → Prop} {Q : β → Scope ρ → Prop}
  {E : PyError → Scope ρ → Prop} {s : Scope ρ}

/-- A computation that only computes. -/
theorem holds_lift {x : Except PyError α} {f : α → Exec ρ β}
    (hok : ∀ a, x = .ok a → Co.Holds G A Q E (f a) s) (herr : ∀ e, x = .error e → E e s) :
    Co.Holds G A Q E (Co.lift x >>= f) s := by
  cases x with
  | ok a => exact hok a rfl
  | error e => exact herr e rfl

/-- A method. -/
theorem holds_call {m : Method ρ α} {R : Except PyError α → World ρ → Prop} {f : α → Exec ρ β}
    (hm : Ensures m s.world R) (hG : ∀ r w, R r w → G s ⟨w, s.frame⟩)
    (hok : ∀ a w, R (.ok a) w → Co.Holds G A Q E (f a) ⟨w, s.frame⟩)
    (herr : ∀ e w, R (.error e) w → E e ⟨w, s.frame⟩) :
    Co.Holds G A Q E (call m >>= f) s := by
  have hcall : (call m >>= f) = .get fun s =>
      .set ⟨(m.run s.world).2, s.frame⟩ (Co.andThen (.done (m.run s.world).1) f) := rfl
  rw [hcall]
  refine ⟨hG _ _ hm, ?_⟩
  unfold Ensures at hm
  generalize m.run s.world = result at hm
  obtain ⟨result, w⟩ := result
  cases result with
  | ok a => exact hok a w hm
  | error e => exact herr e w hm

end Exec

namespace Orchestrator

open Exec

variable {ρ β : Type} [PyLib] (o : Orchestrator ρ) {G : Scope ρ → Scope ρ → Prop}
  {A : (w : Wait) → (w.Reply → Scope ρ → Prop) → Scope ρ → Prop} {Q : β → Scope ρ → Prop}
  {E : PyError → Scope ρ → Prop} {s : Scope ρ}

/-- A world with one more event. -/
def noted (w : World ρ) (event : TaskEvent) : World ρ :=
  { w with history := w.history ++ [event] }

omit [PyLib] in
theorem holds_note {event : TaskEvent} {f : Unit → Exec ρ β}
    (hG : G s ⟨noted s.world event, s.frame⟩)
    (h : Co.Holds G A Q E (f ()) ⟨noted s.world event, s.frame⟩) :
    Co.Holds G A Q E (call (note event) >>= f) s := ⟨hG, h⟩

/-- The world after `execute` saved a task. -/
def stored (w : World ρ) (f : Frame) (run : TaskRun) : World ρ :=
  noted (o.saved w run) (.stored f.id f.plan run w.runtime.runs)

/-- The scope after `task = self._save(...)`. -/
def savedTask (s : Scope ρ) (run : TaskRun) : Scope ρ :=
  ⟨o.stored s.world s.frame run, { s.frame with task := run }⟩

end Orchestrator

end DeviceShell.Framework
