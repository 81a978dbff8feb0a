import Mathlib.Data.List.Basic

/-!
# Words of a command line

A line is split into words at its separators. A quote begins a part of a word in which nothing
separates, up to the same quote again, and within some quotes a backslash takes the next character
as it is. A text spells a word if it comes to that word wherever it stands in a line; texts that are
joined by a separator are then the words that they spell (`words_join`).
-/

namespace DeviceShell

/-- How a line is split: what separates words, what stands for itself outside of quotes, which
characters are quotes, and within which of them a backslash escapes. -/
structure Quoting where
  separates : Char → Bool
  plain : Char → Bool
  isQuote : Char → Bool
  escapes : Char → Bool

/-- Where in a line a position is. -/
inductive LineMode where
  | outside
  | inside (k : Char)
  /-- After a backslash that escapes. -/
  | escaped (k : Char)

namespace Quoting

variable (q : Quoting)

/-- A word that has ended is one of the words. -/
def finish : Option (List Char) → List String → List String
  | none, words => words
  | some word, words => String.ofList word.reverse :: words

/-- The words from a position on, with the characters of the word so far, last first. A quote that
stays open gives no words, as does a character that does not stand for itself. -/
def wordsFrom : LineMode → Option (List Char) → List Char → Option (List String)
  | .outside, word, [] => some (finish word [])
  | .outside, word, c :: rest =>
    if q.separates c then (wordsFrom .outside none rest).map (finish word)
    else if q.isQuote c then wordsFrom (.inside c) (some (word.getD [])) rest
    else if q.plain c then wordsFrom .outside (some (c :: word.getD [])) rest
    else none
  | .inside _, _, [] => none
  | .inside k, word, c :: rest =>
    if c = k then wordsFrom .outside word rest
    else if c = '\\' ∧ q.escapes k = true then wordsFrom (.escaped k) word rest
    else wordsFrom (.inside k) (some (c :: word.getD [])) rest
  | .escaped _, _, [] => none
  | .escaped k, word, c :: rest => wordsFrom (.inside k) (some (c :: word.getD [])) rest

/-- The words of a line. -/
def words (line : String) : Option (List String) := q.wordsFrom .outside none line.toList

/-- A text comes to a word. -/
def Spells (text word : List Char) : Prop :=
  ∀ before rest, q.wordsFrom .outside before (text ++ rest) =
    q.wordsFrom .outside (some (word.reverse ++ before.getD [])) rest

/-- A text comes to a word within a quote. -/
def SpellsIn (k : Char) (text word : List Char) : Prop :=
  ∀ before rest, q.wordsFrom (.inside k) (some before) (text ++ rest) =
    q.wordsFrom (.inside k) (some (word.reverse ++ before)) rest

variable {q}

/-- Characters that stand for themselves go on with a word. -/
theorem wordsFrom_plain {l : List Char}
    (h : ∀ c ∈ l, q.separates c = false ∧ q.isQuote c = false ∧ q.plain c = true)
    (before rest : List Char) :
    q.wordsFrom .outside (some before) (l ++ rest) =
      q.wordsFrom .outside (some (l.reverse ++ before)) rest := by
  induction l generalizing before with
  | nil => rfl
  | cons c l ih =>
    obtain ⟨hsep, hquote, hplain⟩ := h c List.mem_cons_self
    have hrest := ih (fun d hd => h d (List.mem_cons_of_mem c hd)) (c :: before)
    rw [List.cons_append, wordsFrom, if_neg (by simp [hsep]), if_neg (by simp [hquote]),
      if_pos hplain, Option.getD_some, hrest, List.reverse_cons, List.append_assoc]
    rfl

/-- Characters that stand for themselves spell a word. -/
theorem spells_plain {l : List Char} (hne : l ≠ [])
    (h : ∀ c ∈ l, q.separates c = false ∧ q.isQuote c = false ∧ q.plain c = true) :
    q.Spells l l := by
  intro before rest
  obtain ⟨c, tail, rfl⟩ := List.exists_cons_of_ne_nil hne
  obtain ⟨hsep, hquote, hplain⟩ := h c List.mem_cons_self
  have htail := wordsFrom_plain (fun d hd => h d (List.mem_cons_of_mem c hd))
    (c :: before.getD []) rest
  rw [List.cons_append, wordsFrom, if_neg (by simp [hsep]), if_neg (by simp [hquote]),
    if_pos hplain, htail, List.reverse_cons, List.append_assoc]
  rfl

/-- A text in quotes spells what it comes to within them. -/
theorem spells_quoted {k : Char} {text word : List Char} (hsep : q.separates k = false)
    (hquote : q.isQuote k = true) (h : q.SpellsIn k text word) :
    q.Spells (k :: (text ++ [k])) word := by
  intro before rest
  have hinside := h (before.getD []) (k :: rest)
  rw [List.cons_append, wordsFrom, if_neg (by simp [hsep]), if_pos hquote, List.append_assoc,
    List.singleton_append, hinside, wordsFrom, if_pos rfl]

/-- What each character is written as within a quote, a text of characters is. -/
theorem spellsIn_flatMap {k : Char} {write : Char → List Char}
    (h : ∀ c, q.SpellsIn k (write c) [c]) (l : List Char) : q.SpellsIn k (l.flatMap write) l := by
  induction l with
  | nil => exact fun before rest => rfl
  | cons c l ih =>
    intro before rest
    rw [List.flatMap_cons, List.append_assoc, h c, ih, List.reverse_cons]
    simp

/-- A character that is no quote and no escape is written as it is. -/
theorem spellsIn_self {k c : Char} (hk : c ≠ k) (hc : c ≠ '\\' ∨ q.escapes k = false) :
    q.SpellsIn k [c] [c] := by
  intro before rest
  have hescape : ¬ (c = '\\' ∧ q.escapes k = true) := by
    rcases hc with hc | hc <;> simp [hc]
  rw [List.singleton_append, wordsFrom, if_neg hk, if_neg hescape]
  rfl

/-- An escaped character. -/
theorem spellsIn_escaped {k : Char} (hk : '\\' ≠ k) (hescapes : q.escapes k = true) (c : Char) :
    q.SpellsIn k ['\\', c] [c] := by
  intro before rest
  rw [List.cons_append, wordsFrom, if_neg hk, if_pos ⟨rfl, hescapes⟩]
  rfl

/-- Texts that are joined by a separator are the words that they spell. -/
theorem words_join {sep : Char} (hsep : q.separates sep = true) {texts words : List String}
    (h : List.Forall₂ (fun text word => q.Spells text.toList word.toList) texts words) :
    q.words ((String.singleton sep).intercalate texts) = some words := by
  -- The separator ends the word that the first text spells, and the others follow.
  induction h with
  | nil => rfl
  | cons hfirst hrest ih =>
    rename_i text word texts words
    cases hrest with
    | nil =>
      have hend : q.wordsFrom .outside none (text.toList ++ []) = some [word] := by
        rw [hfirst none []]
        simp [wordsFrom, finish]
      rw [String.intercalate_singleton]
      rw [List.append_nil] at hend
      exact hend
    | cons hsecond htail =>
      rename_i text' word' texts words
      have hnext := hfirst none (sep :: ((String.singleton sep).intercalate (text' :: texts)).toList)
      rw [String.intercalate_cons_cons]
      unfold Quoting.words at ih ⊢
      rw [String.toList_append, String.toList_append, String.toList_singleton, List.append_assoc,
        List.singleton_append, hnext, wordsFrom, if_pos hsep, ih]
      simp [finish]

end Quoting

end DeviceShell
