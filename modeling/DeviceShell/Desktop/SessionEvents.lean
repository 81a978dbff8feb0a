import DeviceShell.Lib.Machine
import DeviceShell.Lib.Value

/-!
# Events of a terminal session

The events that `SessionHub` publishes for one session: the `ReplayBuffer`, which forgets its oldest
events, and the queues of the subscribers, each of which is emptied when it overflows. A gap event
announces what a subscriber does not get. `replayContiguous` says that what a subscriber receives
covers everything, one sequence number after the other, in every run in which no queue overflows
whose first element is still a gap event, and nobody reconnects to a buffer that has forgotten
everything.
-/

namespace DeviceShell.Desktop

/-! ## Events -/

/-- `type` of an event. -/
inductive EventType where
  | output
  | status
  | error
  | gap
deriving DecidableEq, Repr

/-- `TerminalEvent` of one session. -/
structure TerminalEvent where
  type : EventType
  sequence : ℕ
  data : String := ""
  status : String := ""
  generation : ℕ := 0
  metadata : Dict String Value := ∅

namespace TerminalEvent

/-- `size_bytes`: the length of the data in UTF-8, and 128. -/
def sizeBytes (e : TerminalEvent) : ℕ := (e.data.toList.map Char.utf8Size).sum + 128

/-- A sequence number among the metadata. -/
def sequenceAt (e : TerminalEvent) (key : String) : ℕ :=
  match e.metadata.get? key with
  | some (.int n) => n.toNat
  | _ => 0

/-- The first sequence number that an event stands for: its own, or that of the range that it
announces. -/
def first (e : TerminalEvent) : ℕ :=
  if e.type = .gap then e.sequenceAt "fromSequence" else e.sequence

/-- The last sequence number that an event stands for. -/
def last (e : TerminalEvent) : ℕ :=
  if e.type = .gap then e.sequenceAt "toSequence" else e.sequence

end TerminalEvent

/-- `_gap_event`. -/
def gapEvent (generation fromSequence toSequence sequence : ℕ) : TerminalEvent where
  type := .gap
  sequence := sequence
  generation := generation
  metadata := ⟨[("fromSequence", .int fromSequence), ("toSequence", .int toSequence)]⟩

@[simp] theorem first_gapEvent (g m n k : ℕ) : (gapEvent g m n k).first = m := by
  show ((m : ℤ)).toNat = m
  exact Int.toNat_natCast m

@[simp] theorem last_gapEvent (g m n k : ℕ) : (gapEvent g m n k).last = n := by
  show ((n : ℤ)).toNat = n
  exact Int.toNat_natCast n

/-- How far events reach from a sequence number on, when each stands for the numbers right after
those of the one before it. -/
def reach : ℕ → List TerminalEvent → Option ℕ
  | n, [] => some n
  | n, e :: rest => if e.first = n + 1 ∧ e.first ≤ e.last then reach e.last rest else none

/-! ## The buffer -/

/-- The loop of `append`: the events that are kept, and their size. -/
def evict (maxEvents maxBytes : ℕ) : List TerminalEvent → ℕ → List TerminalEvent × ℕ
  | [], size => ([], size)
  | e :: rest, size =>
    if (e :: rest).length > maxEvents ∨ size > maxBytes then
      evict maxEvents maxBytes rest (size - e.sizeBytes)
    else (e :: rest, size)

/-- The size stays that of the events. -/
theorem evict_sized {maxEvents maxBytes : ℕ} {events : List TerminalEvent} {size : ℕ}
    (h : size = (events.map (·.sizeBytes)).sum) :
    (evict maxEvents maxBytes events size).2 =
      ((evict maxEvents maxBytes events size).1.map (·.sizeBytes)).sum := by
  induction events generalizing size with
  | nil => exact h
  | cons e rest ih =>
    unfold evict
    split
    · apply ih
      rw [List.map_cons, List.sum_cons] at h
      omega
    · exact h

/-- `ReplayBuffer`. -/
structure ReplayBuffer where
  events : List TerminalEvent := []
  maxEvents : ℕ
  maxBytes : ℕ
  sizeBytes : ℕ := 0
  /-- The size is that of the events; so there is always one to remove while it is too large. -/
  sized : sizeBytes = (events.map (·.sizeBytes)).sum

namespace ReplayBuffer

/-- `__init__`. -/
def init (maxEvents maxBytes : ℕ) : ReplayBuffer where
  maxEvents := max 2 maxEvents
  maxBytes := max 1024 maxBytes
  sized := rfl

/-- `append`. -/
def append (b : ReplayBuffer) (e : TerminalEvent) : ReplayBuffer :=
  let kept := evict b.maxEvents b.maxBytes (b.events ++ [e]) (b.sizeBytes + e.sizeBytes)
  { b with
    events := kept.1
    sizeBytes := kept.2
    sized := evict_sized (by simp [b.sized]) }

/-- `after`. -/
def after (b : ReplayBuffer) (sequence : ℕ) : List TerminalEvent :=
  b.events.filter fun e => e.sequence > sequence

/-- `oldest_sequence`. -/
def oldestSequence (b : ReplayBuffer) : Option ℕ := b.events.head?.map (·.sequence)

end ReplayBuffer

/-! ## The session -/

/-- `SUBSCRIBER_QUEUE_SIZE`. -/
def subscriberQueueSize : ℕ := 1000

/-- A subscriber: its queue, and for the record the number that it subscribed with and the events
that it has received. -/
structure Subscriber where
  afterSequence : ℕ
  received : List TerminalEvent
  queue : List TerminalEvent := []

/-- `ManagedSession`, as far as its events are concerned. -/
structure TerminalSession where
  sequence : ℕ := 0
  generation : ℕ := 0
  replay : ReplayBuffer
  subscribers : Dict ℕ Subscriber := ∅
  /-- The number of the next subscriber. -/
  next : ℕ := 0

namespace TerminalSession

/-- `max(last_dropped.sequence, current.sequence - 1)`. -/
def lastDropped (queue : List TerminalEvent) (current : TerminalEvent) : ℕ :=
  max ((queue.getLast?.map (·.sequence)).getD 0) (current.sequence - 1)

/-- `_replace_lagging_queue`. -/
def replaceLaggingQueue (generation : ℕ) (queue : List TerminalEvent) (current : TerminalEvent) :
    List TerminalEvent :=
  match queue.head? with
  | some firstDropped =>
    [gapEvent generation firstDropped.sequence (lastDropped queue current) (current.sequence - 1),
      current]
  | none => [current]

/-- `queue.put_nowait(event)`, and what is done when the queue is full. -/
def put (generation : ℕ) (event : TerminalEvent) (sub : Subscriber) : Subscriber :=
  { sub with queue :=
      if sub.queue.length < subscriberQueueSize then sub.queue ++ [event]
      else replaceLaggingQueue generation sub.queue event }

/-- What `_publish` is given; gap events are not published. -/
structure Publication where
  type : EventType
  data : String := ""
  status : String := ""
  generation : Option ℕ := none
  metadata : Dict String Value := ∅
  real : type ≠ .gap := by decide

/-- The event of a publication. -/
def event (s : TerminalSession) (p : Publication) : TerminalEvent where
  type := p.type
  sequence := s.sequence + 1
  data := p.data
  status := p.status
  generation := p.generation.getD s.generation
  metadata := p.metadata

/-- `_publish`. -/
def publish (s : TerminalSession) (p : Publication) : TerminalSession :=
  { s with
    sequence := s.sequence + 1
    replay := s.replay.append (s.event p)
    subscribers := s.subscribers.mapValues (put s.generation (s.event p)) }

/-- What `subscribe` returns besides the queue. -/
def replayed (s : TerminalSession) (afterSequence : ℕ) : List TerminalEvent :=
  let replay := s.replay.after afterSequence
  match s.replay.oldestSequence with
  | some oldest =>
    if afterSequence > 0 ∧ oldest > afterSequence + 1 then
      gapEvent s.generation (afterSequence + 1) (oldest - 1) (oldest - 1) :: replay
    else replay
  | none => replay

/-- `subscribe`. -/
def subscribe (s : TerminalSession) (afterSequence : ℕ) : TerminalSession :=
  { s with
    subscribers := s.subscribers.set s.next ⟨afterSequence, s.replayed afterSequence, []⟩
    next := s.next + 1 }

/-- A subscriber takes an event out of its queue. -/
def drain (s : TerminalSession) (n : ℕ) : TerminalSession :=
  match s.subscribers.get? n with
  | some ⟨afterSequence, received, e :: queue⟩ =>
    { s with subscribers := s.subscribers.set n ⟨afterSequence, received ++ [e], queue⟩ }
  | _ => s

/-- What happens to a session. -/
inductive Input where
  | publish (p : Publication)
  | subscribe (afterSequence : ℕ)
  | drain (n : ℕ)
  | unsubscribe (n : ℕ)
  /-- `_start_connect` begins another generation. -/
  | connect

/-- One input. -/
def step (s : TerminalSession) : Input → TerminalSession
  | .publish p => s.publish p
  | .subscribe afterSequence => s.subscribe afterSequence
  | .drain n => s.drain n
  | .unsubscribe n => { s with subscribers := s.subscribers.erase n }
  | .connect => { s with generation := s.generation + 1 }

/-! ## What subscribers receive -/

/-- What a subscriber receives after it reconnected with a sequence number, together with what is in
its queue, reaches from there to the current sequence number without a hole. -/
def Continuous (s : TerminalSession) : Prop :=
  ∀ n sub, s.subscribers.get? n = some sub → 1 ≤ sub.afterSequence →
    reach sub.afterSequence (sub.received ++ sub.queue) = some s.sequence

/-- An input drops no gap event from a queue that overflows, and reconnects nobody with a number
that was not reached yet or to a buffer that has forgotten everything since. -/
def KeepsGaps (s : TerminalSession) : Input → Prop
  | .publish _ => ∀ sub ∈ s.subscribers.values, 1 ≤ sub.afterSequence →
      subscriberQueueSize ≤ sub.queue.length → ∀ e ∈ sub.queue.head?, e.type ≠ .gap
  | .subscribe afterSequence => 1 ≤ afterSequence → afterSequence ≤ s.sequence ∧
      (afterSequence = s.sequence ∨ s.replay.events ≠ [])
  | _ => True

/-- The invariant of a session. -/
structure Kept (s : TerminalSession) : Prop where
  /-- The events in the buffer lead up to the current sequence number. -/
  replay : ∃ n, reach n s.replay.events = some s.sequence
  real : ∀ e ∈ s.replay.events, e.type ≠ .gap
  published : ∀ n sub, s.subscribers.get? n = some sub → ∀ e ∈ sub.queue, e.sequence ≤ s.sequence
  continuous : s.Continuous

end TerminalSession

/-! ## Reaching -/

/-- Two lists of events, one after the other. -/
theorem reach_append (n : ℕ) (l l' : List TerminalEvent) :
    reach n (l ++ l') = (reach n l).bind fun m => reach m l' := by
  induction l generalizing n with
  | nil => rfl
  | cons e rest ih =>
    simp only [List.cons_append, reach]
    split
    · exact ih e.last
    · rfl

/-- The first of some events that reach on. -/
theorem reach_cons {n m : ℕ} {e : TerminalEvent} {rest : List TerminalEvent}
    (h : reach n (e :: rest) = some m) :
    e.first = n + 1 ∧ e.first ≤ e.last ∧ reach e.last rest = some m := by
  unfold reach at h
  split at h
  · rename_i hnext
    exact ⟨hnext.1, hnext.2, h⟩
  · cases h

/-- Events reach forward. -/
theorem reach_le {n m : ℕ} {l : List TerminalEvent} (h : reach n l = some m) : n ≤ m := by
  induction l generalizing n with
  | nil =>
    obtain rfl := Option.some.inj h
    exact le_rfl
  | cons e rest ih =>
    obtain ⟨hfirst, hle, hrest⟩ := reach_cons h
    have hlast := ih hrest
    omega

/-- The last of some events that reach on do too. -/
theorem reach_suffix {n m : ℕ} {l l' : List TerminalEvent} (h : reach n l = some m)
    (hsuffix : l' <:+ l) : ∃ k, reach k l' = some m := by
  obtain ⟨before, rfl⟩ := hsuffix
  rw [reach_append] at h
  obtain ⟨k, -, hk⟩ := Option.bind_eq_some_iff.1 h
  exact ⟨k, hk⟩

/-- An event that is no gap stands for itself. -/
theorem first_of_real {e : TerminalEvent} (h : e.type ≠ .gap) : e.first = e.sequence := if_neg h

/-- An event that is no gap stands for itself. -/
theorem last_of_real {e : TerminalEvent} (h : e.type ≠ .gap) : e.last = e.sequence := if_neg h

/-- Where events without gaps that reach on lie. -/
theorem sequence_of_reach {n m : ℕ} {l : List TerminalEvent} (h : reach n l = some m)
    (hreal : ∀ e ∈ l, e.type ≠ .gap) {e : TerminalEvent} (he : e ∈ l) :
    n < e.sequence ∧ e.sequence ≤ m := by
  induction l generalizing n with
  | nil => cases he
  | cons head rest ih =>
    obtain ⟨hfirst, hle, hrest⟩ := reach_cons h
    have hhead := hreal head List.mem_cons_self
    rw [first_of_real hhead] at hfirst
    rw [last_of_real hhead] at hrest
    have hforward := reach_le hrest
    rcases List.mem_cons.1 he with rfl | he
    · omega
    · have hlater := ih hrest (fun d hd => hreal d (List.mem_cons_of_mem _ hd)) he
      omega

/-- The events after a number within their reach. -/
theorem reach_after {n m : ℕ} {l : List TerminalEvent} (h : reach n l = some m)
    (hreal : ∀ e ∈ l, e.type ≠ .gap) {a : ℕ} (hna : n ≤ a) (ham : a ≤ m) :
    reach a (l.filter fun e => e.sequence > a) = some m := by
  induction l generalizing n with
  | nil =>
    obtain rfl := Option.some.inj h
    have ha : a = n := by omega
    rw [ha]
    rfl
  | cons head rest ih =>
    have hrest' : ∀ e ∈ rest, e.type ≠ .gap := fun e he => hreal e (List.mem_cons_of_mem _ he)
    obtain ⟨hfirst, hle, hrest⟩ := reach_cons h
    have hhead := hreal head List.mem_cons_self
    rw [first_of_real hhead] at hfirst
    rw [last_of_real hhead] at hrest
    by_cases hkeep : head.sequence > a
    · -- Everything from here on comes after the number.
      have hall : (head :: rest).filter (fun e => e.sequence > a) = head :: rest := by
        refine List.filter_eq_self.2 fun e he => decide_eq_true ?_
        have hpos := sequence_of_reach h hreal he
        omega
      have ha : a = n := by omega
      rw [hall, ha]
      exact h
    · rw [List.filter_cons_of_neg (by simpa using hkeep)]
      exact ih hrest hrest' (by omega)

/-! ## What an input preserves -/

namespace ReplayBuffer

/-- The loop of `append` keeps the last events. -/
theorem evict_suffix (maxEvents maxBytes : ℕ) (events : List TerminalEvent) (size : ℕ) :
    (evict maxEvents maxBytes events size).1 <:+ events := by
  induction events generalizing size with
  | nil => exact List.suffix_rfl
  | cons e rest ih =>
    unfold evict
    split
    · exact (ih _).trans (List.suffix_cons e rest)
    · exact List.suffix_rfl

/-- `append` keeps the last events. -/
theorem append_suffix (b : ReplayBuffer) (e : TerminalEvent) :
    (b.append e).events <:+ b.events ++ [e] := evict_suffix _ _ _ _

end ReplayBuffer

namespace TerminalSession

variable {s : TerminalSession}

/-- What a subscriber receives goes on with the event that is published. -/
theorem put_reach {sub : Subscriber} {e : TerminalEvent} {n : ℕ} (he : e.type ≠ .gap)
    (hnext : e.sequence = n + 1) (generation : ℕ)
    (hpublished : ∀ d ∈ sub.queue, d.sequence ≤ n)
    (hgap : subscriberQueueSize ≤ sub.queue.length → ∀ d ∈ sub.queue.head?, d.type ≠ .gap)
    (h : reach sub.afterSequence (sub.received ++ sub.queue) = some n) :
    reach sub.afterSequence (sub.received ++ (put generation e sub).queue) = some (n + 1) := by
  have hcurrent : reach n [e] = some (n + 1) := by
    simp only [reach, first_of_real he, last_of_real he, hnext]
    simp
  by_cases hroom : sub.queue.length < subscriberQueueSize
  · have hqueue : (put generation e sub).queue = sub.queue ++ [e] := if_pos hroom
    rw [hqueue, ← List.append_assoc, reach_append, h]
    exact hcurrent
  -- The queue is full: a gap from its first event on replaces it.
  have hqueue : (put generation e sub).queue = replaceLaggingQueue generation sub.queue e :=
    if_neg hroom
  have hfull : subscriberQueueSize ≤ sub.queue.length := Nat.not_lt.1 hroom
  rw [hqueue]
  cases hsub : sub.queue with
  | nil =>
    rw [hsub] at hfull
    cases hfull
  | cons head rest =>
    rw [hsub] at h hgap hpublished
    have hreal : head.type ≠ .gap := hgap (hsub ▸ hfull) head rfl
    have hlast : lastDropped (head :: rest) e = n := by
      have hle : ((head :: rest).getLast?.map (·.sequence)).getD 0 ≤ n := by
        rw [List.getLast?_eq_some_getLast (List.cons_ne_nil head rest)]
        exact hpublished _ (List.getLast_mem _)
      have hcur : e.sequence - 1 = n := by omega
      unfold lastDropped
      rw [hcur]
      exact max_eq_right hle
    obtain ⟨k, hreceived, hrest⟩ := Option.bind_eq_some_iff.1 ((reach_append _ _ _).symm.trans h)
    obtain ⟨hfirst, hle, htail⟩ := reach_cons hrest
    have hforward := reach_le htail
    have hgapfirst : (gapEvent generation head.sequence n (e.sequence - 1)).first = k + 1 := by
      rw [first_gapEvent, ← first_of_real hreal, hfirst]
    have hgaple : (gapEvent generation head.sequence n (e.sequence - 1)).first ≤
        (gapEvent generation head.sequence n (e.sequence - 1)).last := by
      rw [hgapfirst, last_gapEvent]
      omega
    rw [reach_append, hreceived]
    show reach k [gapEvent generation head.sequence (lastDropped (head :: rest) e)
      (e.sequence - 1), e] = some (n + 1)
    rw [hlast, reach, if_pos ⟨hgapfirst, hgaple⟩, last_gapEvent]
    exact hcurrent

/-- Publishing an event. -/
theorem publish_kept (h : s.Kept) (p : Publication) (hok : s.KeepsGaps (.publish p)) :
    (s.publish p).Kept := by
  have hreal : (s.event p).type ≠ .gap := p.real
  obtain ⟨n, hn⟩ := h.replay
  have hall : reach n (s.replay.events ++ [s.event p]) = some (s.sequence + 1) := by
    rw [reach_append, hn]
    show reach s.sequence [s.event p] = some (s.sequence + 1)
    simp only [reach, first_of_real hreal, last_of_real hreal]
    simp [event]
  have hsuffix := s.replay.append_suffix (s.event p)
  -- A subscriber afterwards is one from before with the event put into its queue.
  have hsub (k : ℕ) (sub' : Subscriber) (hk : (s.publish p).subscribers.get? k = some sub') :
      ∃ sub, s.subscribers.get? k = some sub ∧ put s.generation (s.event p) sub = sub' := by
    change (s.subscribers.mapValues (put s.generation (s.event p))).get? k = some sub' at hk
    rw [Dict.get?_mapValues] at hk
    exact Option.map_eq_some_iff.1 hk
  constructor
  · exact reach_suffix hall hsuffix
  · intro e he
    rcases List.mem_append.1 (hsuffix.subset he) with he | he
    · exact h.real e he
    · rw [List.mem_singleton.1 he]
      exact hreal
  · intro k sub' hk e he
    obtain ⟨sub, hget, rfl⟩ := hsub k sub' hk
    have hold := h.published k sub hget
    show e.sequence ≤ s.sequence + 1
    change e ∈ (if _ then sub.queue ++ [s.event p] else _) at he
    split at he
    · rcases List.mem_append.1 he with he | he
      · exact (hold e he).trans (Nat.le_succ _)
      · rw [List.mem_singleton.1 he]
        exact le_rfl
    · unfold replaceLaggingQueue at he
      split at he
      · rcases List.mem_cons.1 he with rfl | he
        · show s.sequence + 1 - 1 ≤ s.sequence + 1
          omega
        · rw [List.mem_singleton.1 he]
          exact le_rfl
      · rw [List.mem_singleton.1 he]
        exact le_rfl
  · intro k sub' hk hafter
    obtain ⟨sub, hget, rfl⟩ := hsub k sub' hk
    have hcontinuous := h.continuous k sub hget hafter
    have hgap := hok sub (Dict.mem_values_of_get? hget) hafter
    exact put_reach hreal rfl s.generation (h.published k sub hget) hgap hcontinuous

/-- What a subscriber is given when it reconnects. -/
theorem replayed_reach (h : s.Kept) {a : ℕ} (ha : 1 ≤ a) (hle : a ≤ s.sequence)
    (hnot : a = s.sequence ∨ s.replay.events ≠ []) : reach a (s.replayed a) = some s.sequence := by
  obtain ⟨n, hn⟩ := h.replay
  unfold replayed
  cases hevents : s.replay.events with
  | nil =>
    have hsame : a = s.sequence := hnot.resolve_right fun hne => hne hevents
    simp [ReplayBuffer.oldestSequence, ReplayBuffer.after, hevents, reach, hsame]
  | cons head rest =>
    have hhead : head.sequence = n + 1 := by
      rw [hevents] at hn
      have hfirst := (reach_cons hn).1
      rwa [first_of_real (h.real head (hevents ▸ List.mem_cons_self))] at hfirst
    have holdest : s.replay.oldestSequence = some (n + 1) := by
      simp [ReplayBuffer.oldestSequence, hevents, hhead]
    rw [holdest]
    by_cases hgap : a > 0 ∧ n + 1 > a + 1
    · -- The buffer has forgotten events after the number: all that it has comes after the gap.
      have hall : s.replay.after a = s.replay.events := by
        refine List.filter_eq_self.2 fun e he => decide_eq_true ?_
        have hpos := sequence_of_reach hn h.real he
        omega
      have hnext : (gapEvent s.generation (a + 1) (n + 1 - 1) (n + 1 - 1)).first = a + 1 :=
        first_gapEvent _ _ _ _
      have hlast : (gapEvent s.generation (a + 1) (n + 1 - 1) (n + 1 - 1)).last = n :=
        last_gapEvent _ _ _ _
      have hle' : a + 1 ≤ n := by omega
      simp only [if_pos hgap, hall]
      rw [reach, hnext, hlast, if_pos ⟨rfl, hle'⟩]
      exact hn
    · simp only [if_neg hgap]
      exact reach_after hn h.real (by omega) hle

/-- A reconnect. -/
theorem subscribe_kept (h : s.Kept) (a : ℕ) (hok : s.KeepsGaps (.subscribe a)) :
    (s.subscribe a).Kept := by
  have hsub (k : ℕ) (sub : Subscriber) (hk : (s.subscribe a).subscribers.get? k = some sub) :
      sub = ⟨a, s.replayed a, []⟩ ∨ s.subscribers.get? k = some sub := by
    change (s.subscribers.set s.next _).get? k = some sub at hk
    rw [Dict.get?_set] at hk
    split at hk
    · exact Or.inl (Option.some.inj hk).symm
    · exact Or.inr hk
  constructor
  · exact h.replay
  · exact h.real
  · intro k sub hk e he
    rcases hsub k sub hk with rfl | hk
    · cases he
    · exact h.published k sub hk e he
  · intro k sub hk hafter
    rcases hsub k sub hk with rfl | hk
    · obtain ⟨hle, hnot⟩ := hok hafter
      rw [List.append_nil]
      exact replayed_reach h hafter hle hnot
    · exact h.continuous k sub hk hafter

/-- A subscriber takes an event. -/
theorem drain_kept (h : s.Kept) (n : ℕ) : (s.drain n).Kept := by
  unfold drain
  split
  · rename_i a received e queue hget
    have hold := h.published n _ hget
    have hsub (k : ℕ) (sub : Subscriber)
        (hk : (s.subscribers.set n ⟨a, received ++ [e], queue⟩).get? k = some sub) :
        sub = ⟨a, received ++ [e], queue⟩ ∨ s.subscribers.get? k = some sub := by
      rw [Dict.get?_set] at hk
      split at hk
      · exact Or.inl (Option.some.inj hk).symm
      · exact Or.inr hk
    constructor
    · exact h.replay
    · exact h.real
    · intro k sub hk d hd
      rcases hsub k sub hk with rfl | hk
      · exact hold d (List.mem_cons_of_mem e hd)
      · exact h.published k sub hk d hd
    · intro k sub hk hafter
      rcases hsub k sub hk with rfl | hk
      · have hcontinuous := h.continuous n _ hget hafter
        show reach a (received ++ [e] ++ queue) = some s.sequence
        rw [List.append_assoc]
        exact hcontinuous
      · exact h.continuous k sub hk hafter
  · exact h

/-- One input. -/
theorem step_kept (h : s.Kept) (i : Input) (hok : s.KeepsGaps i) : (s.step i).Kept := by
  cases i with
  | publish p => exact publish_kept h p hok
  | subscribe a => exact subscribe_kept h a hok
  | drain n => exact drain_kept h n
  | unsubscribe n =>
    have hsub (k : ℕ) (sub : Subscriber) (hk : (s.subscribers.erase n).get? k = some sub) :
        s.subscribers.get? k = some sub := by
      rw [Dict.get?_erase] at hk
      split at hk
      · cases hk
      · exact hk
    exact ⟨h.replay, h.real, fun k sub hk => h.published k sub (hsub k sub hk),
      fun k sub hk => h.continuous k sub (hsub k sub hk)⟩
  | connect => exact ⟨h.replay, h.real, h.published, h.continuous⟩

/-- A session that nothing was published to. -/
def initial (maxEvents maxBytes : ℕ) : TerminalSession where
  replay := .init maxEvents maxBytes

/-- In every run that keeps the gap events, what a subscriber receives after a reconnect leaves no
hole. -/
theorem continuous_of_keepsGaps {maxEvents maxBytes : ℕ} {inputs : List Input}
    (h : Machine.Meets step KeepsGaps (initial maxEvents maxBytes) inputs) :
    (Machine.run step (initial maxEvents maxBytes) inputs).Continuous := by
  have hstart : (initial maxEvents maxBytes).Kept := by
    constructor
    · exact ⟨0, rfl⟩
    · intro e he
      cases he
    · intro n sub hn
      cases hn
    · intro n sub hn
      cases hn
  exact (h.invariant (fun s i hs hok => step_kept hs i hok) hstart).continuous

instance (s : TerminalSession) : ∀ i, Decidable (s.KeepsGaps i)
  | .publish _ => inferInstanceAs (Decidable (∀ sub ∈ s.subscribers.values, _ → _ → ∀ _ ∈ _, _))
  | .subscribe _ => inferInstanceAs (Decidable (_ → _ ∧ (_ ∨ ¬_)))
  | .drain _ => inferInstanceAs (Decidable True)
  | .unsubscribe _ => inferInstanceAs (Decidable True)
  | .connect => inferInstanceAs (Decidable True)

/-- `continuous_of_keepsGaps` for a subscriber that reconnects when the buffer has forgotten an event
after the one that it has seen. -/
theorem continuous_reconnected :
    (Machine.run step (initial 2 1024)
      [.publish { type := .output }, .publish { type := .output }, .publish { type := .output },
        .publish { type := .output }, .subscribe 1, .publish { type := .output },
        .drain 0]).Continuous :=
  continuous_of_keepsGaps (by decide +kernel)

end TerminalSession

namespace TerminalSession

/-- Some output. -/
def output : Input := .publish { type := .output }

/-- Output for which a queue has room. -/
theorem run_output {s : TerminalSession} {n : ℕ} {sub : Subscriber}
    (hget : s.subscribers.get? n = some sub) {k : ℕ}
    (hroom : sub.queue.length + k ≤ subscriberQueueSize) :
    ∃ queue, (Machine.run step s (List.replicate k output)).subscribers.get? n =
        some { sub with queue := sub.queue ++ queue } ∧ queue.length = k ∧
      (Machine.run step s (List.replicate k output)).sequence = s.sequence + k := by
  induction k generalizing s sub with
  | zero =>
    refine ⟨[], ?_, rfl, rfl⟩
    rw [List.append_nil]
    exact hget
  | succ k ih =>
    let e := s.event { type := .output }
    have hlt : sub.queue.length < subscriberQueueSize := by omega
    have hput : (s.step output).subscribers.get? n =
        some { sub with queue := sub.queue ++ [e] } := by
      show (s.subscribers.mapValues (put s.generation e)).get? n = _
      rw [Dict.get?_mapValues, hget]
      show some { sub with queue := if _ then _ else _ } = _
      rw [if_pos hlt]
    have hroom' : (sub.queue ++ [e]).length + k ≤ subscriberQueueSize := by
      rw [List.length_append, List.length_singleton]
      omega
    obtain ⟨queue, hqueue, hlength, hsequence⟩ := ih hput hroom'
    refine ⟨e :: queue, ?_, ?_, ?_⟩
    · rw [List.replicate_succ, Machine.run_cons, hqueue]
      simp
    · rw [List.length_cons, hlength]
    · rw [List.replicate_succ, Machine.run_cons, hsequence]
      show s.sequence + 1 + k = s.sequence + (k + 1)
      omega

/-- Output for which a queue has no room: the first event afterwards is a gap event with the number
of the last event so far. -/
theorem step_output_full {s : TerminalSession} {n : ℕ} {sub : Subscriber} {head : TerminalEvent}
    (hget : s.subscribers.get? n = some sub)
    (hfull : subscriberQueueSize ≤ sub.queue.length) (hhead : sub.queue.head? = some head) :
    ∃ last e, (s.step output).subscribers.get? n =
      some { sub with queue := [gapEvent s.generation head.sequence last s.sequence, e] } := by
  refine ⟨lastDropped sub.queue (s.event { type := .output }), s.event { type := .output }, ?_⟩
  show (s.subscribers.mapValues (put s.generation _)).get? n = _
  rw [Dict.get?_mapValues, hget]
  show some { sub with queue := if _ then _ else _ } = _
  rw [if_neg (Nat.not_lt.2 hfull), replaceLaggingQueue, hhead]
  rfl

/-- A run in which a subscriber takes nothing out of its queue, which overflows twice. -/
def overflowingTwice : List Input :=
  [output, .subscribe 1] ++ List.replicate 1000 output ++ [output] ++
    (List.replicate 998 output ++ [output])

/-- The second gap event does not announce what the first one did. -/
theorem not_continuous_overflowingTwice :
    ¬ (Machine.run step (initial 2000 4194304) overflowingTwice).Continuous := by
  intro h
  unfold overflowingTwice at h
  rw [Machine.run_append, Machine.run_append, Machine.run_append, Machine.run_append] at h
  -- The subscriber has seen the first event.
  set s₁ := Machine.run step (initial 2000 4194304) [output, .subscribe 1] with hs₁
  have hget₁ : s₁.subscribers.get? 0 = some ⟨1, [], []⟩ := rfl
  have hseq₁ : s₁.sequence = 1 := rfl
  clear_value s₁
  obtain ⟨queue, hget₂, hlength, hseq₂⟩ := run_output hget₁ (k := 1000) le_rfl
  set s₂ := Machine.run step s₁ (List.replicate 1000 output)
  clear_value s₂
  rw [List.nil_append] at hget₂
  obtain ⟨head, rest, hqueue⟩ := List.exists_cons_of_length_pos (l := queue) (by omega)
  -- The first overflow.
  obtain ⟨last, e, hget₃⟩ := step_output_full hget₂ hlength.ge (by rw [hqueue]; rfl)
  rw [hseq₂, hseq₁] at hget₃
  change (Machine.run step s₂ [output]).subscribers.get? 0 = _ at hget₃
  set s₃ := Machine.run step s₂ [output]
  clear_value s₃
  obtain ⟨queue', hget₄, hlength', -⟩ := run_output hget₃ (k := 998) (show 2 + 998 ≤ 1000 by decide)
  set s₄ := Machine.run step s₃ (List.replicate 998 output)
  clear_value s₄
  -- The second one.
  have hfull : subscriberQueueSize ≤
      ([gapEvent s₂.generation head.sequence last (1 + 1000), e] ++ queue').length := by
    rw [List.length_append, hlength']
    exact (show 1000 ≤ 2 + 998 by decide)
  obtain ⟨last', e', hget₅⟩ := step_output_full hget₄ hfull rfl
  have hreach := h 0 _ hget₅ le_rfl
  change reach 1 (gapEvent _ (1 + 1000) last' _ :: [e']) = _ at hreach
  have hfirst := (reach_cons hreach).1
  rw [first_gapEvent] at hfirst
  omega

end TerminalSession

/-- An event that is larger than the buffer leaves nothing in it. -/
theorem ReplayBuffer.append_of_large {b : ReplayBuffer} {e : TerminalEvent}
    (h : b.maxBytes < e.sizeBytes) : (b.append e).events = [] := by
  have hevict (l : List TerminalEvent) (size : ℕ)
      (hsize : size = ((l ++ [e]).map (·.sizeBytes)).sum) :
      (evict b.maxEvents b.maxBytes (l ++ [e]) size).1 = [] := by
    induction l generalizing size with
    | nil =>
      have hlarge : size > b.maxBytes := by simpa [hsize] using h
      simp [evict, hlarge]
    | cons head rest ih =>
      have hlarge : size > b.maxBytes := by
        simp only [List.cons_append, List.map_cons, List.map_append, List.map_nil, List.sum_cons,
          List.sum_append, List.sum_nil] at hsize
        omega
      rw [List.cons_append, evict, if_pos (Or.inr hlarge)]
      apply ih
      rw [List.cons_append, List.map_cons, List.sum_cons] at hsize
      omega
  refine hevict b.events _ ?_
  simp [b.sized]

namespace TerminalSession

/-- A session whose buffer has forgotten everything announces no gap to a subscriber that
reconnects. -/
theorem not_continuous_of_large {maxEvents maxBytes : ℕ} (p q : Publication)
    (hlarge : max 1024 maxBytes < (q.data.toList.map Char.utf8Size).sum + 128) :
    ¬ (Machine.run step (initial maxEvents maxBytes)
      [.publish p, .publish q, .subscribe 1]).Continuous := by
  intro h
  have hempty : (((initial maxEvents maxBytes).publish p).publish q).replay.events = [] := by
    apply ReplayBuffer.append_of_large
    exact hlarge
  have hreplayed : (((initial maxEvents maxBytes).publish p).publish q).replayed 1 = [] := by
    simp [replayed, ReplayBuffer.oldestSequence, ReplayBuffer.after, hempty]
  have hreach := h 0 ⟨1, _, []⟩ rfl le_rfl
  change reach 1 ((((initial maxEvents maxBytes).publish p).publish q).replayed 1 ++ []) = some 2
    at hreach
  rw [hreplayed] at hreach
  cases hreach

end TerminalSession

end DeviceShell.Desktop
