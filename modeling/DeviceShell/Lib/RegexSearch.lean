import DeviceShell.Lib.Regex

/-!
# A match survives in a longer text

A pattern that is found in a text is also found in a longer text around it, when it has no `$`, its
word boundaries are all of one kind of characters, and the text is set off by characters of another
kind (`search_isSome_of_infix`). A match at a position is carried over one construct at a time
(`ways_embed`); the repetition is an induction on the number of its iterations.
-/

namespace DeviceShell.Regex

variable {isWord : Char → Bool}

/-- No `$`, and every `\b` is for the given word characters. -/
def Within (isWord : Char → Bool) : Regex → Prop
  | eps => True
  | chars _ => True
  | seq r s => Within isWord r ∧ Within isWord s
  | alt r s => Within isWord r ∧ Within isWord s
  | star _ r => Within isWord r
  | group _ r => Within isWord r
  | boundary p => p = isWord
  | atEnd => False

/-- Patterns one after the other are within when each of them is. -/
theorem within_all {rs : List Regex} (h : ∀ r ∈ rs, Within isWord r) : Within isWord (all rs) := by
  induction rs with
  | nil => trivial
  | cons r rs ih =>
    have hrest : ∀ r' ∈ rs, Within isWord r' := fun r' hr' => h r' (List.mem_cons_of_mem r hr')
    exact ⟨h r List.mem_cons_self, ih hrest⟩

/-- A text has neither. -/
theorem within_exact (s : String) : Within isWord (exact s) := by
  refine within_all fun r hr => ?_
  obtain ⟨a, -, rfl⟩ := List.mem_map.1 hr
  trivial

/-- The second position reads the rest of the first one and then more, and has a word character
before it when the first one has. -/
structure Embeds (isWord : Char → Bool) (post : List Char) (c d : Cursor) : Prop where
  rest : d.rest = c.rest ++ post
  before : d.before.any isWord = c.before.any isWord

/-- More iterations may always stop at once. -/
theorem mem_repeatFrom_self (ways : Cursor → List Cursor) (greedy : Bool) (n : ℕ) (c : Cursor) :
    c ∈ repeatFrom ways greedy n c := by
  cases n with
  | zero => exact List.mem_singleton_self c
  | succ n =>
    unfold repeatFrom
    split
    · exact List.mem_append_right _ (List.mem_singleton_self c)
    · exact List.mem_cons_self

/-- Where an iteration may continue, or the repetition stops. -/
theorem mem_repeatFrom_succ {ways : Cursor → List Cursor} {greedy : Bool} {n : ℕ} {c e : Cursor} :
    e ∈ repeatFrom ways greedy (n + 1) c ↔
      (∃ d ∈ ways c, d.rest.length < c.rest.length ∧ e ∈ repeatFrom ways greedy n d) ∨ e = c := by
  have hmore : e ∈ ((ways c).filter fun d => d.rest.length < c.rest.length).flatMap
      (repeatFrom ways greedy n) ↔
        ∃ d ∈ ways c, d.rest.length < c.rest.length ∧ e ∈ repeatFrom ways greedy n d := by
    simp [List.mem_flatMap, List.mem_filter, and_assoc]
  show e ∈ (if greedy then _ else _) ↔ _
  split
  · rw [List.mem_append, hmore, List.mem_singleton]
  · rw [List.mem_cons, hmore, or_comm]

/-- A repetition is carried over when each of its iterations is. -/
theorem repeatFrom_embed {post : List Char} {ways : Cursor → List Cursor} {greedy : Bool}
    (hways : ∀ c d, Embeds isWord post c d → ∀ c' ∈ ways c, ∃ d' ∈ ways d, Embeds isWord post c' d')
    {n m : ℕ} (hnm : n ≤ m) {c d : Cursor} (h : Embeds isWord post c d) {c' : Cursor}
    (hc' : c' ∈ repeatFrom ways greedy n c) :
    ∃ d' ∈ repeatFrom ways greedy m d, Embeds isWord post c' d' := by
  induction n generalizing m c d with
  | zero =>
    obtain rfl := List.mem_singleton.1 hc'
    exact ⟨d, mem_repeatFrom_self ways greedy m d, h⟩
  | succ n ih =>
    obtain ⟨m, rfl⟩ : ∃ k, m = k + 1 := ⟨m - 1, by omega⟩
    rcases mem_repeatFrom_succ.1 hc' with ⟨e, he, hlt, hrest⟩ | rfl
    · obtain ⟨f, hf, hembed⟩ := hways c d h e he
      have hle : n ≤ m := by omega
      obtain ⟨d', hd', hembed'⟩ := ih hle hembed hrest
      have hshorter : f.rest.length < d.rest.length := by
        rw [hembed.rest, h.rest, List.length_append, List.length_append]
        omega
      exact ⟨d', mem_repeatFrom_succ.2 (.inl ⟨f, hf, hshorter, hd'⟩), hembed'⟩
    · exact ⟨d, mem_repeatFrom_self ways greedy (m + 1) d, h⟩

/-- A match at a position is a match in a longer text, one construct at a time. -/
theorem ways_embed {post : List Char} (hpost : post.head?.any isWord = false) (r : Regex)
    (hr : r.Within isWord) (c d : Cursor) (h : Embeds isWord post c d) :
    ∀ c' ∈ ways r c, ∃ d' ∈ ways r d, Embeds isWord post c' d' := by
  induction r generalizing c d with
  | eps =>
    intro c' hc'
    obtain rfl := List.mem_singleton.1 hc'
    exact ⟨d, List.mem_singleton_self d, h⟩
  | chars p =>
    intro c' hc'
    unfold ways at hc' ⊢
    cases hrest : c.rest with
    | nil => simp [hrest] at hc'
    | cons a rest =>
      rw [hrest] at hc'
      dsimp only at hc'
      split at hc'
      · obtain rfl := List.mem_singleton.1 hc'
        have hd : d.rest = a :: (rest ++ post) := by rw [h.rest, hrest, List.cons_append]
        refine ⟨{ d with before := some a, rest := rest ++ post }, ?_, ⟨rfl, rfl⟩⟩
        rw [hd]
        dsimp only
        rw [if_pos ‹_›]
        exact List.mem_singleton_self _
      · cases hc'
  | seq r s ihr ihs =>
    intro c' hc'
    obtain ⟨e, he, hc'⟩ := List.mem_flatMap.1 hc'
    obtain ⟨f, hf, hembed⟩ := ihr hr.1 c d h e he
    obtain ⟨d', hd', hembed'⟩ := ihs hr.2 e f hembed c' hc'
    exact ⟨d', List.mem_flatMap.2 ⟨f, hf, hd'⟩, hembed'⟩
  | alt r s ihr ihs =>
    intro c' hc'
    rcases List.mem_append.1 hc' with hc' | hc'
    · obtain ⟨d', hd', hembed⟩ := ihr hr.1 c d h c' hc'
      exact ⟨d', List.mem_append_left _ hd', hembed⟩
    · obtain ⟨d', hd', hembed⟩ := ihs hr.2 c d h c' hc'
      exact ⟨d', List.mem_append_right _ hd', hembed⟩
  | star greedy r ih =>
    intro c' hc'
    have hle : c.rest.length ≤ d.rest.length := by
      rw [h.rest, List.length_append]
      omega
    exact repeatFrom_embed (ih hr) hle h hc'
  | group name r ih =>
    intro c' hc'
    obtain ⟨e, he, rfl⟩ := List.mem_map.1 hc'
    obtain ⟨f, hf, hembed⟩ := ih hr c d h e he
    exact ⟨_, List.mem_map_of_mem hf, ⟨hembed.rest, hembed.before⟩⟩
  | boundary p =>
    intro c' hc'
    obtain rfl : p = isWord := hr
    have hhead : d.rest.head?.any p = c.rest.head?.any p := by
      rw [h.rest]
      cases c.rest with
      | nil => exact hpost
      | cons a rest => rfl
    have hsame : d.atBoundary p = c.atBoundary p := by
      unfold Cursor.atBoundary
      rw [h.before, hhead]
    unfold ways at hc' ⊢
    rw [hsame]
    split at hc'
    · obtain rfl := List.mem_singleton.1 hc'
      rw [if_pos ‹_›]
      exact ⟨d, List.mem_singleton_self d, h⟩
    · cases hc'
  | atEnd => cases hr

/-- What stands before the rest of a longer prefix. -/
theorem getLast?_cons_or {a b : Char} {pre : List Char} {before : Option Char} :
    (a :: b :: pre).getLast?.or before = (b :: pre).getLast?.or (some a) := by
  rw [List.getLast?_cons_cons, List.getLast?_cons, Option.some_or, Option.some_or]

/-- A search succeeds when the pattern matches somewhere in the text. -/
theorem searchFrom_isSome_iff {r : Regex} {before : Option Char} {s : List Char} :
    (searchFrom r before s).isSome = true ↔
      ∃ pre rest, s = pre ++ rest ∧ ways r ⟨(pre.getLast?.or before), rest, []⟩ ≠ [] := by
  induction s generalizing before with
  | nil =>
    unfold searchFrom
    rw [List.isSome_head?]
    constructor
    · intro h
      exact ⟨[], [], rfl, h⟩
    · rintro ⟨pre, rest, heq, h⟩
      obtain ⟨rfl, rfl⟩ := List.append_eq_nil_iff.1 heq.symm
      exact h
  | cons a rest ih =>
    unfold searchFrom
    split
    · rename_i c hc
      refine iff_of_true rfl ⟨[], a :: rest, rfl, fun hnil => ?_⟩
      rw [List.getLast?_nil, Option.none_or] at hnil
      rw [hnil] at hc
      cases hc
    · rename_i hnone
      rw [ih]
      constructor
      · rintro ⟨pre, rest', rfl, h⟩
        refine ⟨a :: pre, rest', rfl, ?_⟩
        cases pre with
        | nil => exact h
        | cons b pre =>
          rw [getLast?_cons_or]
          exact h
      · rintro ⟨pre, rest', heq, h⟩
        cases pre with
        | nil =>
          obtain rfl : a :: rest = rest' := heq
          rw [List.getLast?_nil, Option.none_or] at h
          exact absurd (List.head?_eq_none_iff.1 hnone) h
        | cons b pre =>
          obtain ⟨rfl, rfl⟩ := List.cons.inj heq
          refine ⟨pre, rest', rfl, ?_⟩
          cases pre with
          | nil => exact h
          | cons b pre =>
            rw [getLast?_cons_or] at h
            exact h

/-- A pattern that is found in a text is found in a longer one that sets the text off. -/
theorem search_isSome_of_infix {r : Regex} (hr : r.Within isWord) {s t : String}
    {front back : List Char} (hfront : front.getLast?.any isWord = false)
    (hback : back.head?.any isWord = false) (ht : t.toList = front ++ s.toList ++ back)
    (h : (search r s).isSome = true) : (search r t).isSome = true := by
  obtain ⟨pre, rest, hs, hways⟩ := searchFrom_isSome_iff.1 h
  refine searchFrom_isSome_iff.2 ⟨front ++ pre, rest ++ back, ?_, ?_⟩
  · rw [ht, hs]
    simp
  obtain ⟨c, hc⟩ := List.exists_mem_of_ne_nil _ hways
  have hbefore : ((front ++ pre).getLast?.or none).any isWord =
      (pre.getLast?.or none).any isWord := by
    rw [Option.or_none, Option.or_none, List.getLast?_append]
    cases hpre : pre.getLast? with
    | none => exact hfront
    | some a => rfl
  have hembed : Embeds isWord back ⟨pre.getLast?.or none, rest, []⟩
      ⟨(front ++ pre).getLast?.or none, rest ++ back, []⟩ := ⟨rfl, hbefore⟩
  obtain ⟨d, hd, -⟩ := ways_embed hback r hr _ _ hembed c hc
  exact List.ne_nil_of_mem hd

end DeviceShell.Regex
