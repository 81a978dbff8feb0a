import DeviceShell.Lib.Coroutine
import DeviceShell.Lib.Dict
import DeviceShell.Lib.Machine

/-!
# Coroutines that run next to each other

A pool holds a shared state and the coroutines that are suspended on it, each under its own number.
An input starts a further coroutine or answers what a suspended one awaits, and the coroutine then
runs to its next suspension while nothing else does. `Pool.invariant` is the rule for every
interleaving: when the coroutine with the number `n` changes the state by steps of `G n` only,
whatever the others do meanwhile, and those steps keep an invariant, then every run keeps it. With
`Pool.invariant_of_admits` a coroutine need only do so when it is started in a state that admits it.

`Pool.Runs` is what a coroutine is shown to do: from a state with `P` it makes its own steps,
returns with `Q`, and knows `F` throughout, which the others leave true. Its rules follow the
structure of a program.
-/

namespace DeviceShell

/-- A coroutine that awaits. -/
structure Suspended (σ ω : Type) (ρ : ω → Type) (ε α : Type) where
  on : ω
  resume : ρ on → Co σ ω ρ ε α

/-- The state that coroutines share, and those of them that are suspended. -/
structure Pool (σ ω : Type) (ρ : ω → Type) (ε α : Type) where
  state : σ
  waiting : Dict ℕ (Suspended σ ω ρ ε α) := ∅
  /-- The number of the next coroutine. -/
  next : ℕ := 0

/-- What happens to a pool. A reply says what is answered to anything that may be awaited. -/
inductive PoolInput (ι ω : Type) (ρ : ω → Type) where
  | start (call : ι)
  | answer (n : ℕ) (reply : (w : ω) → ρ w)

namespace Pool

variable {ι σ ω : Type} {ρ : ω → Type} {ε α : Type}

/-- Runs a coroutine to its next suspension. -/
def settle (p : Pool σ ω ρ ε α) (n : ℕ) (m : Co σ ω ρ ε α) : Pool σ ω ρ ε α :=
  match m.section_ p.state with
  | (s, .done _) => { p with state := s }
  | (s, .await w k) => { p with state := s, waiting := p.waiting.set n ⟨w, k⟩ }

/-- One input. -/
def step (program : ℕ → ι → Co σ ω ρ ε α) (p : Pool σ ω ρ ε α) :
    PoolInput ι ω ρ → Pool σ ω ρ ε α
  | .start call => settle { p with next := p.next + 1 } p.next (program p.next call)
  | .answer n reply => match p.waiting.get? n with
    | none => p
    | some s => settle { p with waiting := p.waiting.erase n } n (s.resume (reply s.on))

variable (I : σ → Prop) (G : ℕ → σ → σ → Prop)

/-- What the coroutines other than the one with a number may do. -/
def Others (n : ℕ) : σ → σ → Prop := Relation.ReflTransGen fun s s' => ∃ m, m ≠ n ∧ G m s s'

/-- Awaiting something: the others may do what they do before any answer comes. -/
def Awaits (n : ℕ) (w : ω) (P : ρ w → σ → Prop) (s : σ) : Prop :=
  ∀ s', I s' → Others G n s s' → ∀ r, P r s'

/-- Awaiting is monotone in what is required of a resumption. -/
theorem awaits_monotone (n : ℕ) : Co.Monotone (Awaits (ρ := ρ) I G n) :=
  fun _ _ _ _ hP h s' hs' hothers r => hP r s' (h s' hs' hothers r)

/-- A coroutine changes the state by its own steps only, from any state with the invariant and
whatever the others do. -/
def Behaves (n : ℕ) (m : Co σ ω ρ ε α) (s : σ) : Prop :=
  Co.Holds (G n) (Awaits I G n) (fun _ _ => True) (fun _ _ => True) m s

/-- The invariant holds, and the suspended coroutines will behave. -/
structure Sound (p : Pool σ ω ρ ε α) : Prop where
  state : I p.state
  waiting : ∀ n s, p.waiting.get? n = some s →
    Awaits I G n s.on (fun r => Behaves I G n (s.resume r)) p.state

variable {I G}

/-- The steps of a coroutine keep an invariant. -/
theorem invariant_of_steps (hI : ∀ n s s', I s → G n s s' → I s') {n : ℕ} {s s' : σ} (h : I s)
    (hsteps : Relation.ReflTransGen (G n) s s') : I s' := by
  induction hsteps with
  | refl => exact h
  | tail _ hstep ih => exact hI n _ _ ih hstep

/-- The steps of a coroutine are, for another one, steps of the others. -/
theorem others_of_steps {n m : ℕ} (hne : m ≠ n) {s s' : σ}
    (hsteps : Relation.ReflTransGen (G m) s s') : Others G n s s' := by
  induction hsteps with
  | refl => exact .refl
  | tail _ hstep ih => exact ih.tail ⟨m, hne, hstep⟩

/-- A coroutine that behaves leaves a sound pool at its next suspension. -/
theorem sound_settle (hI : ∀ n s s', I s → G n s s' → I s') {p : Pool σ ω ρ ε α} {n : ℕ}
    {m : Co σ ω ρ ε α} (hstate : I p.state)
    (hothers : ∀ k s, k ≠ n → p.waiting.get? k = some s →
      Awaits I G k s.on (fun r => Behaves I G k (s.resume r)) p.state)
    (hfree : p.waiting.get? n = none) (h : Behaves I G n m p.state) :
    Sound I G (settle p n m) := by
  obtain ⟨hsteps, hstop⟩ := Co.Holds.section_ h
  have hstate' := invariant_of_steps hI hstate hsteps
  -- The others see the section as something that others did.
  have hrest : ∀ k s, k ≠ n → p.waiting.get? k = some s →
      Awaits I G k s.on (fun r => Behaves I G k (s.resume r)) (m.section_ p.state).1 := by
    intro k s hk hs s' hs' hmeanwhile r
    have hsection := others_of_steps hk.symm hsteps
    exact hothers k s hk hs s' hs' (hsection.trans hmeanwhile) r
  unfold settle
  generalize m.section_ p.state = result at hsteps hstop hstate' hrest
  obtain ⟨s, stop⟩ := result
  cases stop with
  | done result =>
    refine ⟨hstate', fun k t hk => ?_⟩
    change p.waiting.get? k = some t at hk
    have hne : k ≠ n := by
      rintro rfl
      rw [hfree] at hk
      cases hk
    exact hrest k t hne hk
  | await w k =>
    refine ⟨hstate', fun j t hj => ?_⟩
    change (p.waiting.set n ⟨w, k⟩).get? j = some t at hj
    rw [Dict.get?_set] at hj
    split at hj
    · rename_i heq
      obtain rfl := Option.some.inj hj
      rw [heq]
      exact hstop
    · rename_i hne
      exact hrest j t hne hj

/-- The numbers of the suspended coroutines have been given out. -/
def Numbered (p : Pool σ ω ρ ε α) : Prop := ∀ n, p.waiting.contains n = true → n < p.next

/-- Settling a coroutine whose number was given out. -/
theorem numbered_settle {p : Pool σ ω ρ ε α} {n : ℕ} {m : Co σ ω ρ ε α} (h : Numbered p)
    (hn : n < p.next) : Numbered (settle p n m) := by
  unfold settle
  split
  · exact h
  · intro k hk
    change (p.waiting.set n _).contains k = true at hk
    rw [Dict.contains, Dict.get?_set] at hk
    split at hk
    · rename_i heq
      rw [heq]
      exact hn
    · exact h k hk

/-- A coroutine is only started in a state that admits it. -/
def Admits (ok : σ → ι → Prop) (p : Pool σ ω ρ ε α) : PoolInput ι ω ρ → Prop
  | .start call => ok p.state call
  | .answer _ _ => True

/-- One input keeps a pool sound. -/
theorem sound_step (hI : ∀ n s s', I s → G n s s' → I s') {ok : σ → ι → Prop}
    {program : ℕ → ι → Co σ ω ρ ε α}
    (hprogram : ∀ n call s, I s → ok s call → Behaves I G n (program n call) s)
    (p : Pool σ ω ρ ε α) (i : PoolInput ι ω ρ) (h : Sound I G p ∧ Numbered p) (hok : Admits ok p i) :
    Sound I G (step program p i) ∧ Numbered (step program p i) := by
  obtain ⟨hsound, hnumbered⟩ := h
  cases i with
  | start call =>
    have hfree : p.waiting.get? p.next = none := by
      by_contra hsome
      have hlt := hnumbered p.next (Option.isSome_iff_ne_none.2 hsome)
      omega
    have hnumbered' : Numbered { p with next := p.next + 1 } := by
      intro k hk
      have hlt := hnumbered k hk
      show k < p.next + 1
      omega
    exact ⟨sound_settle hI hsound.state (fun k s _ hk => hsound.waiting k s hk) hfree
      (hprogram p.next call p.state hsound.state hok), numbered_settle hnumbered' (Nat.lt_succ_self _)⟩
  | answer n reply =>
    cases hs : p.waiting.get? n with
    | none =>
      have hstay : step program p (.answer n reply) = p := by simp only [step, hs]
      rw [hstay]
      exact ⟨hsound, hnumbered⟩
    | some s =>
      have hsettle : step program p (.answer n reply) =
          settle { p with waiting := p.waiting.erase n } n (s.resume (reply s.on)) := by
        simp only [step, hs]
      rw [hsettle]
      have hmem : p.waiting.contains n = true := by
        rw [Dict.contains, hs]
        rfl
      have hn : n < p.next := hnumbered n hmem
      have hothers (k : ℕ) (t : Suspended σ ω ρ ε α) (hne : k ≠ n)
          (hk : (p.waiting.erase n).get? k = some t) :
          Awaits I G k t.on (fun r => Behaves I G k (t.resume r)) p.state := by
        rw [Dict.get?_erase, if_neg hne] at hk
        exact hsound.waiting k t hk
      have hfree : (p.waiting.erase n).get? n = none := by
        rw [Dict.get?_erase, if_pos rfl]
      have hnumbered' : Numbered { p with waiting := p.waiting.erase n } := by
        intro k hk
        change (p.waiting.erase n).contains k = true at hk
        rw [Dict.contains, Dict.get?_erase] at hk
        split at hk
        · cases hk
        · exact hnumbered k hk
      have hbehaves := hsound.waiting n s hs p.state hsound.state .refl (reply s.on)
      exact ⟨sound_settle hI hsound.state hothers hfree hbehaves, numbered_settle hnumbered' hn⟩

/-- A pool with no coroutine yet. -/
def initial (s : σ) : Pool σ ω ρ ε α where
  state := s

/-- Every run keeps the invariant that the coroutines' steps keep, when every coroutine is started in
a state that admits it. -/
theorem invariant_of_admits (hI : ∀ n s s', I s → G n s s' → I s') {ok : σ → ι → Prop}
    {program : ℕ → ι → Co σ ω ρ ε α}
    (hprogram : ∀ n call s, I s → ok s call → Behaves I G n (program n call) s)
    {s : σ} (hs : I s) {inputs : List (PoolInput ι ω ρ)}
    (hmeets : Machine.Meets (step program) (Admits ok) (initial s) inputs) :
    I (Machine.run (step program) (initial s) inputs).state := by
  have hstart : Sound I G (initial s : Pool σ ω ρ ε α) ∧ Numbered (initial s : Pool σ ω ρ ε α) := by
    refine ⟨⟨hs, ?_⟩, ?_⟩
    · intro n t hn
      cases hn
    · intro n hn
      cases hn
  exact (hmeets.invariant (fun p i h hok => sound_step hI hprogram p i h hok) hstart).1.state

/-- Every run keeps the invariant that the coroutines' steps keep. -/
theorem invariant (hI : ∀ n s s', I s → G n s s' → I s')
    {program : ℕ → ι → Co σ ω ρ ε α} (hprogram : ∀ n call s, I s → Behaves I G n (program n call) s)
    {s : σ} (hs : I s) (inputs : List (PoolInput ι ω ρ)) :
    I (Machine.run (step program) (initial s) inputs).state := by
  have hadmits (p : Pool σ ω ρ ε α) (i : PoolInput ι ω ρ) : Admits (fun _ _ => True) p i := by
    cases i with
    | start call => trivial
    | answer n reply => trivial
  exact invariant_of_admits hI (fun n call s hs _ => hprogram n call s hs) hs
    (Machine.meets_of_forall hadmits _ inputs)

/-! ## What a coroutine does -/

variable (I G) in
/-- From a state with `P` the coroutine `n` makes its steps only, and returns with `Q`; it knows `F`
throughout. -/
def Runs (n : ℕ) (F P : σ → Prop) (Q : α → σ → Prop) (m : Co σ ω ρ ε α) : Prop :=
  ∀ s, I s → F s → P s → Co.Holds (G n) (Awaits I G n) (fun a t => I t ∧ F t ∧ Q a t)
    (fun _ t => I t ∧ F t) m s

variable (G) in
/-- The others leave something true. -/
def Stable (n : ℕ) (F : σ → Prop) : Prop := ∀ m s s', m ≠ n → G m s s' → F s → F s'

/-- What is stable stays true whatever the others do. -/
theorem Stable.others {n : ℕ} {F : σ → Prop} (hF : Stable G n F) {s s' : σ} (h : F s)
    (hothers : Others G n s s') : F s' := by
  induction hothers with
  | refl => exact h
  | tail _ hstep ih =>
    obtain ⟨m, hne, hstep⟩ := hstep
    exact hF m _ _ hne hstep ih

/-- Two stable things. -/
theorem Stable.and {n : ℕ} {F F' : σ → Prop} (hF : Stable G n F) (hF' : Stable G n F') :
    Stable G n fun s => F s ∧ F' s :=
  fun m s s' hne hstep h => ⟨hF m s s' hne hstep h.1, hF' m s s' hne hstep h.2⟩

section Rules

variable {β : Type} {n : ℕ} {F P P' : σ → Prop} {Q Q' : α → σ → Prop} {R : β → σ → Prop}

theorem Runs.pure {a : α} (h : ∀ s, F s → P s → Q a s) :
    Runs I G n F P Q (Pure.pure a : Co σ ω ρ ε α) :=
  fun s hs hF hP => ⟨hs, hF, h s hF hP⟩

theorem Runs.raise {e : ε} : Runs I G n F P Q (Co.raise e : Co σ ω ρ ε α) :=
  fun _ hs hF _ => ⟨hs, hF⟩

theorem Runs.bind {m : Co σ ω ρ ε α} {f : α → Co σ ω ρ ε β} (hm : Runs I G n F P Q m)
    (hf : ∀ a, Runs I G n F (Q a) R (f a)) : Runs I G n F P R (m >>= f) := by
  intro s hs hF hP
  have hmono := awaits_monotone (ρ := ρ) I G n
  refine Co.Holds.bind hmono ?_
  refine Co.Holds.mono hmono ?_ (fun _ _ h => h) (hm s hs hF hP)
  rintro a t ⟨ht, hFt, hQ⟩
  exact hf a t ht hFt hQ

/-- What is computed is returned. -/
theorem Runs.lift {x : Except ε α} (h : ∀ a s, x = .ok a → P s → Q a s) :
    Runs I G n F P Q (Co.lift x : Co σ ω ρ ε α) := by
  intro s hs hF hP
  exact Co.Holds.lift (fun a ha => ⟨hs, hF, h a s ha hP⟩) (fun e _ => ⟨hs, hF⟩)

theorem Runs.read {f : σ → α} (h : ∀ s, I s → F s → P s → Q (f s) s) :
    Runs I G n F P Q (Co.read f : Co σ ω ρ ε α) :=
  fun s hs hF hP => ⟨hs, hF, h s hs hF hP⟩

theorem Runs.modify (hI : ∀ n s s', I s → G n s s' → I s') {f : σ → σ} {Q : Unit → σ → Prop}
    (hstep : ∀ s, I s → F s → P s → G n s (f s)) (hknown : ∀ s, F s → F (f s))
    (h : ∀ s, I s → P s → Q () (f s)) :
    Runs I G n F P Q (Co.modify f : Co σ ω ρ ε Unit) := by
  intro s hs hF hP
  have hG := hstep s hs hF hP
  exact ⟨hG, hI n s _ hs hG, hknown s hF, h s hs hP⟩

/-- After an await only what is stable is known. -/
theorem Runs.awaiting (hF : Stable G n F) {w : ω} :
    Runs I G n F P (fun _ _ => True) (Co.awaiting w : Co σ ω ρ ε (ρ w)) :=
  fun _ _ hFs _ _ hs' hothers _ => ⟨hs', hF.others hFs hothers, trivial⟩

/-- What follows an await that may raise. -/
theorem Runs.reply (hF : Stable G n F) {w : ω} {g : ρ w → Except ε α} {f : α → Co σ ω ρ ε β}
    (hf : ∀ a, Runs I G n F (fun _ => True) R (f a)) :
    Runs I G n F P R (Co.awaiting w >>= fun r => Co.lift (g r) >>= f : Co σ ω ρ ε β) :=
  Runs.bind (Runs.awaiting hF) fun _ => Runs.bind (Runs.lift fun _ _ _ _ => trivial) hf

/-- The rule of consequence. -/
theorem Runs.imp {m : Co σ ω ρ ε α} (hm : Runs I G n F P Q m) (hP : ∀ s, P' s → P s)
    (hQ : ∀ a s, Q a s → Q' a s) : Runs I G n F P' Q' m := by
  intro s hs hF hP'
  have hmono := awaits_monotone (ρ := ρ) I G n
  refine Co.Holds.mono hmono ?_ (fun _ _ h => h) (hm s hs hF (hP s hP'))
  rintro a t ⟨ht, hFt, hQa⟩
  exact ⟨ht, hFt, hQ a t hQa⟩

/-- What is known from here on. -/
theorem Runs.learn {K : σ → Prop} {m : Co σ ω ρ ε α} (hK : ∀ s, I s → F s → P s → K s)
    (hm : Runs I G n (fun s => F s ∧ K s) P Q m) : Runs I G n F P Q m := by
  intro s hs hF hP
  have hmono := awaits_monotone (ρ := ρ) I G n
  refine Co.Holds.mono hmono ?_ ?_ (hm s hs ⟨hF, hK s hs hF hP⟩ hP)
  · rintro a t ⟨ht, hFt, hQ⟩
    exact ⟨ht, hFt.1, hQ⟩
  · rintro e t ⟨ht, hFt⟩
    exact ⟨ht, hFt.1⟩

theorem Runs.ite {c : Prop} [Decidable c] {m m' : Co σ ω ρ ε α} (hm : c → Runs I G n F P Q m)
    (hm' : ¬c → Runs I G n F P Q m') : Runs I G n F P Q (if c then m else m') := by
  split
  · rename_i hc
    exact hm hc
  · rename_i hc
    exact hm' hc

/-- A coroutine that knows nothing of its own behaves. -/
theorem Runs.behaves {m : Co σ ω ρ ε α} (hm : Runs I G n (fun _ => True) P Q m) {s : σ} (hs : I s)
    (hP : P s) : Behaves I G n m s :=
  Co.Holds.mono (awaits_monotone I G n) (fun _ _ _ => trivial) (fun _ _ _ => trivial)
    (hm s hs trivial hP)

end Rules

end Pool

end DeviceShell
