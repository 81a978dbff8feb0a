import Mathlib.Data.List.MinMax

/-!
# Redaction of words in a text

`redact` replaces words in a text by a mask: it goes from left to right, and where several words
begin it replaces the longest one. `redact_scan` is about a text that arrives piece by piece: as
long as no word can reach beyond what has arrived, nothing that follows changes what is decided.
-/

namespace DeviceShell.Redaction

variable {α : Type} [DecidableEq α]

/-- The longest word that a text begins with. -/
def longest (words : List (List α)) (text : List α) : Option (List α) :=
  (words.filter fun word => word ≠ [] ∧ word.isPrefixOf text).argmax List.length

/-- The text with the longest word at each place, from left to right, replaced by the mask. -/
def redact (words : List (List α)) (mask : List α) : List α → List α
  | [] => []
  | c :: rest => match longest words (c :: rest) with
    | some word => mask ++ redact words mask (rest.drop (word.length - 1))
    | none => c :: redact words mask rest
termination_by text => text.length
decreasing_by all_goals simp [List.length_drop]; try omega

variable {words : List (List α)} {mask text word : List α}

/-- What the longest word is. -/
theorem longest_eq_some_iff : longest words text = some word ↔
    (word ∈ words ∧ word ≠ [] ∧ word <+: text) ∧
      ∀ other ∈ words, other <+: text → other.length ≤ word.length := by
  have hmem (w : List α) : w ∈ words.filter (fun w => w ≠ [] ∧ w.isPrefixOf text) ↔
      w ∈ words ∧ w ≠ [] ∧ w <+: text := by
    simp [List.mem_filter]
  constructor
  · intro h
    have hword := (hmem word).1 (List.argmax_mem (Option.mem_def.2 h))
    refine ⟨hword, fun other hother hprefix => ?_⟩
    by_cases hnil : other = []
    · rw [hnil]
      exact Nat.zero_le _
    · exact List.le_of_mem_argmax ((hmem other).2 ⟨hother, hnil, hprefix⟩) (Option.mem_def.2 h)
  · rintro ⟨hword, hmax⟩
    cases hlongest : longest words text with
    | none =>
      have hempty := List.argmax_eq_none.1 hlongest
      have hin := (hmem word).2 hword
      rw [hempty] at hin
      cases hin
    | some other =>
      have hother := (hmem other).1 (List.argmax_mem (Option.mem_def.2 hlongest))
      have hle : other.length ≤ word.length := hmax other hother.1 hother.2.2
      have hge : word.length ≤ other.length :=
        List.le_of_mem_argmax ((hmem word).2 hword) (Option.mem_def.2 hlongest)
      -- Two words of one length that the text begins with are the same.
      have hsame : other = word :=
        List.prefix_of_prefix_length_le hother.2.2 hword.2.2 hle |>.eq_of_length (by omega)
      rw [hsame]

/-- No word is the longest one when the text begins with none. -/
theorem longest_eq_none_iff :
    longest words text = none ↔ ∀ word ∈ words, word ≠ [] → ¬word <+: text := by
  unfold longest
  rw [List.argmax_eq_none, List.filter_eq_nil_iff]
  simp

/-- In a list without empty words that goes from long to short the first word that fits is the
longest one. -/
theorem find?_eq_longest (hnil : [] ∉ words)
    (hsorted : words.Pairwise fun a b => b.length ≤ a.length) (text : List α) :
    words.find? (·.isPrefixOf text) = longest words text := by
  cases hfind : words.find? (·.isPrefixOf text) with
  | none =>
    have hnone := List.find?_eq_none.1 hfind
    refine (longest_eq_none_iff.2 fun word hword _ hprefix => ?_).symm
    exact hnone word hword (List.isPrefixOf_iff_prefix.2 hprefix)
  | some word =>
    obtain ⟨hfits, before, after, hsplit, hbefore⟩ := List.find?_eq_some_iff_append.1 hfind
    have hword : word ∈ words := by
      rw [hsplit]
      simp
    have hne : word ≠ [] := by
      rintro rfl
      exact hnil hword
    refine (longest_eq_some_iff.2 ⟨⟨hword, hne, List.isPrefixOf_iff_prefix.1 hfits⟩, ?_⟩).symm
    intro other hother hprefix
    rw [hsplit] at hother hsorted
    rcases List.mem_append.1 hother with hin | hin
    · have hnot := hbefore other hin
      rw [List.isPrefixOf_iff_prefix.2 hprefix] at hnot
      cases hnot
    · rcases List.mem_cons.1 hin with rfl | hin
      · exact le_rfl
      · have hrest := (List.pairwise_append.1 hsorted).2.1
        exact (List.pairwise_cons.1 hrest).1 other hin

omit [DecidableEq α] in
/-- A word fits a text whatever follows, when the text is at least as long. -/
theorem prefix_append_iff (h : word.length ≤ text.length) (more : List α) :
    word <+: text ++ more ↔ word <+: text := by
  constructor
  · intro hprefix
    exact List.prefix_of_prefix_length_le hprefix (List.prefix_append text more) h
  · intro hprefix
    exact hprefix.trans (List.prefix_append text more)

/-- The longest word does not change with what follows, when no word is longer than the text. -/
theorem longest_append (h : ∀ word ∈ words, word.length ≤ text.length) (more : List α) :
    longest words (text ++ more) = longest words text := by
  unfold longest
  congr 1
  refine List.filter_congr fun word hword => ?_
  have hiff := prefix_append_iff (h word hword) more
  simp [hiff]

/-- A scan of a text: `safe` is how many places of it are decided, and the second list is what is
left of it. -/
def scan (words : List (List α)) (mask : List α) : ℕ → List α → List α × List α
  | 0, text => ([], text)
  | _ + 1, [] => ([], [])
  | safe + 1, c :: rest => match words.find? (·.isPrefixOf (c :: rest)) with
    | some word =>
      let result := scan words mask (safe + 1 - word.length) (rest.drop (word.length - 1))
      (mask ++ result.1, result.2)
    | none =>
      let result := scan words mask safe rest
      (c :: result.1, result.2)
termination_by _ text => text.length
decreasing_by all_goals simp [List.length_drop]; try omega

/-- A scan that decides no more than can be decided: whatever follows, the text is redacted to what
the scan put out and the redaction of what it left. -/
theorem redact_scan (hnil : [] ∉ words) (hsorted : words.Pairwise fun a b => b.length ≤ a.length)
    {longestLength : ℕ} (hlength : ∀ word ∈ words, word.length ≤ longestLength) (safe : ℕ)
    (text : List α) (hsafe : safe = 0 ∨ safe + longestLength ≤ text.length + 1) (more : List α) :
    redact words mask (text ++ more) = (scan words mask safe text).1 ++
      redact words mask ((scan words mask safe text).2 ++ more) := by
  fun_induction scan words mask safe text with
  | case1 text => rfl
  | case2 safe => rfl
  | case3 safe c rest word hfind result ih =>
    have hfound := List.find?_some hfind
    have hfits : word <+: c :: rest := List.isPrefixOf_iff_prefix.1 hfound
    have hword : word ∈ words := List.mem_of_find?_eq_some hfind
    have hpos : 0 < word.length := by
      rw [List.length_pos_iff]
      rintro rfl
      exact hnil hword
    have hle : word.length ≤ rest.length + 1 := hfits.length_le
    have hroom : longestLength ≤ (c :: rest).length := by
      rw [List.length_cons] at hsafe ⊢
      omega
    have hlongest : longest words (c :: (rest ++ more)) = some word := by
      rw [← List.cons_append, longest_append fun w hw => (hlength w hw).trans hroom,
        ← find?_eq_longest hnil hsorted, hfind]
    have hdrop : (rest ++ more).drop (word.length - 1) = rest.drop (word.length - 1) ++ more :=
      List.drop_append_of_le_length (by omega)
    have hsafe' : safe + 1 - word.length = 0 ∨
        safe + 1 - word.length + longestLength ≤ (rest.drop (word.length - 1)).length + 1 := by
      rw [List.length_drop]
      rw [List.length_cons] at hsafe
      omega
    calc redact words mask (c :: rest ++ more)
        = mask ++ redact words mask ((rest ++ more).drop (word.length - 1)) := by
          rw [List.cons_append, redact, hlongest]
      _ = mask ++ (result.1 ++ redact words mask (result.2 ++ more)) := by rw [hdrop, ih hsafe']
      _ = mask ++ result.1 ++ redact words mask (result.2 ++ more) := by rw [List.append_assoc]
  | case4 safe c rest hfind result ih =>
    have hroom : longestLength ≤ (c :: rest).length := by
      rw [List.length_cons] at hsafe ⊢
      omega
    have hlongest : longest words (c :: (rest ++ more)) = none := by
      rw [← List.cons_append, longest_append fun w hw => (hlength w hw).trans hroom,
        ← find?_eq_longest hnil hsorted, hfind]
    have hsafe' : safe = 0 ∨ safe + longestLength ≤ rest.length + 1 := by
      rw [List.length_cons] at hsafe
      omega
    calc redact words mask (c :: rest ++ more)
        = c :: redact words mask (rest ++ more) := by rw [List.cons_append, redact, hlongest]
      _ = c :: result.1 ++ redact words mask (result.2 ++ more) := by
          rw [ih hsafe', List.cons_append]

/-- A scan that decides the whole text redacts it. -/
theorem scan_all (hnil : [] ∉ words) (hsorted : words.Pairwise fun a b => b.length ≤ a.length)
    (safe : ℕ) (text : List α) (hsafe : text.length ≤ safe) :
    (scan words mask safe text).1 = redact words mask text := by
  fun_induction scan words mask safe text with
  | case1 text =>
    have hempty : text = [] := List.length_eq_zero_iff.1 (by omega)
    rw [hempty, redact]
  | case2 safe => rw [redact]
  | case3 safe c rest word hfind result ih =>
    rw [find?_eq_longest hnil hsorted] at hfind
    have hle : (rest.drop (word.length - 1)).length ≤ safe + 1 - word.length := by
      rw [List.length_drop]
      rw [List.length_cons] at hsafe
      omega
    rw [redact, hfind, ih hle]
  | case4 safe c rest hfind result ih =>
    rw [find?_eq_longest hnil hsorted] at hfind
    have hle : rest.length ≤ safe := by
      rw [List.length_cons] at hsafe
      omega
    rw [redact, hfind, ih hle]

/-- Without words nothing is replaced. -/
theorem redact_nil (mask text : List α) : redact [] mask text = text := by
  induction text with
  | nil => rw [redact]
  | cons c rest ih =>
    have hlongest : longest [] (c :: rest) = none := rfl
    rw [redact, hlongest, ih]

/-- Only which words there are matters. -/
theorem redact_congr {words' : List (List α)} (h : ∀ word, word ≠ [] → (word ∈ words ↔ word ∈ words'))
    (text : List α) : redact words mask text = redact words' mask text := by
  have hlongest (text : List α) : longest words text = longest words' text := by
    cases hword : longest words' text with
    | none =>
      rw [longest_eq_none_iff] at hword ⊢
      exact fun word hin hne => hword word ((h word hne).1 hin) hne
    | some word =>
      rw [longest_eq_some_iff] at hword ⊢
      obtain ⟨⟨hin, hne, hprefix⟩, hmax⟩ := hword
      refine ⟨⟨(h word hne).2 hin, hne, hprefix⟩, fun other hother hfits => ?_⟩
      by_cases hnil : other = []
      · rw [hnil]
        exact Nat.zero_le _
      · exact hmax other ((h other hnil).1 hother) hfits
  fun_induction redact words mask text with
  | case1 => rw [redact]
  | case2 c rest word hfound ih =>
    rw [hlongest] at hfound
    rw [redact, hfound, ih]
  | case3 c rest hfound ih =>
    rw [hlongest] at hfound
    rw [redact, hfound, ih]

end DeviceShell.Redaction
