import DeviceShell.Lib.Text

/-!
# Texts in sections

A text is divided by a header: a needle whose first character does not come again in it, so that two
headers cannot overlap. In a text whose sections hold the header only in front, a search that begins
with the header goes from section to section.
-/

namespace DeviceShell

/-- A needle whose first character does not come again. -/
structure IsHeader (header : List Char) : Prop where
  ne_nil : header ≠ []
  once : header.head ne_nil ∉ header.tail

/-- The header begins nowhere in the text. -/
def HeaderFree (header text : List Char) : Prop := ¬header <:+: text

/-- Where a section ends: at the end of the text, or at the next header. -/
def AtHeader (header rest : List Char) : Prop := rest = [] ∨ header <+: rest

section

variable {header : List Char} (hheader : IsHeader header)

include hheader

/-- Where a search stands inside a text without the header, no needle that begins with the header is
found, not even over the end. -/
theorem not_prefix_of_headerFree {needle text rest : List Char} (hneedle : header <+: needle)
    (hfree : HeaderFree header text) (hne : text ≠ []) (hrest : AtHeader header rest) :
    ¬needle <+: text ++ rest := by
  intro hfound
  have hhead : header <+: text ++ rest := hneedle.trans hfound
  -- The header is longer than the text, or the text had it.
  have hlonger : text.length < header.length := by
    by_contra hle
    exact hfree (List.prefix_of_prefix_length_le hhead (List.prefix_append text rest)
      (not_lt.mp hle)).isInfix
  have htext : text <+: header :=
    List.prefix_of_prefix_length_le (List.prefix_append text rest) hhead hlonger.le
  obtain ⟨post, hpost⟩ := htext
  have hpostne : post ≠ [] := by
    rintro rfl
    rw [List.append_nil] at hpost
    rw [hpost] at hlonger
    omega
  have hover : post <+: rest := by
    rw [← hpost] at hhead
    exact (List.prefix_append_right_inj text).mp hhead
  rcases hrest with rfl | hnext
  · exact hpostne (List.prefix_nil.mp hover)
  · -- What stands over the end begins as the next header does, but the header has that character
    -- only once.
    obtain ⟨a, post, rfl⟩ := List.exists_cons_of_ne_nil hpostne
    obtain ⟨b, text, rfl⟩ := List.exists_cons_of_ne_nil hne
    subst hpost
    have hfirst : a = b := by
      obtain ⟨after, rfl⟩ := hover
      obtain ⟨after', hafter⟩ := hnext
      exact ((List.cons.inj hafter).1).symm
    have honce : b ∉ text ++ a :: post := hheader.once
    exact honce (by rw [hfirst]; simp)

theorem headerFree_tail {text : List Char} (hfree : HeaderFree header text) :
    HeaderFree header (header.tail ++ text) := by
  intro hinfix
  obtain ⟨a, t, rfl⟩ := List.exists_cons_of_ne_nil hheader.ne_nil
  have honce : a ∉ t := hheader.once
  rw [List.tail_cons] at hinfix
  obtain ⟨front, after, hsplit⟩ := hinfix
  -- An occurrence that begins in the tail has the first character there.
  rcases Nat.lt_or_ge front.length t.length with hlt | hge
  · have ha : (t ++ text)[front.length]? = some a := by
      rw [← hsplit, List.append_assoc, List.getElem?_append_right (Nat.le_refl _), Nat.sub_self]
      rfl
    rw [List.getElem?_append_left hlt] at ha
    exact honce (List.mem_of_getElem? ha)
  · have hover : t <+: front := by
      refine List.prefix_of_prefix_length_le (List.prefix_append t text) ?_ hge
      rw [← hsplit, List.append_assoc]
      exact List.prefix_append _ _
    obtain ⟨mid, rfl⟩ := hover
    rw [List.append_assoc, List.append_assoc] at hsplit
    have htext := List.append_cancel_left hsplit
    exact hfree ⟨mid, after, by rw [List.append_assoc]; exact htext⟩

/-- A search goes past a text without the header. -/
theorem findIn_of_headerFree {needle text rest : List Char} (hneedle : header <+: needle)
    (hfree : HeaderFree header text) (hrest : AtHeader header rest) (start : ℕ) :
    findIn needle start (text ++ rest) = findIn needle (start + text.length) rest := by
  induction text generalizing start with
  | nil => rfl
  | cons c text ih =>
    have hmiss := not_prefix_of_headerFree hheader hneedle hfree (List.cons_ne_nil c text) hrest
    have hfree' : HeaderFree header text := fun h => hfree (h.trans (List.suffix_cons c text).isInfix)
    rw [List.cons_append, findIn, if_neg (by simpa using hmiss), ih hfree']
    congr 1
    rw [List.length_cons]
    omega

/-- A search goes past a section that does not begin with the needle. -/
theorem findIn_of_section {needle text rest : List Char} (hneedle : header <+: needle)
    (hfree : HeaderFree header text) (hrest : AtHeader header rest)
    (hmiss : ¬needle <+: header ++ text ++ rest) (start : ℕ) :
    findIn needle start (header ++ text ++ rest) =
      findIn needle (start + (header ++ text).length) rest := by
  have htail := headerFree_tail hheader hfree
  obtain ⟨a, t, rfl⟩ := List.exists_cons_of_ne_nil hheader.ne_nil
  have hstep : findIn needle start (a :: (t ++ text ++ rest)) =
      findIn needle (start + 1) (t ++ text ++ rest) := by
    rw [findIn, if_neg (by simpa using hmiss)]
  calc findIn needle start (a :: t ++ text ++ rest)
      = findIn needle (start + 1) (t ++ text ++ rest) := hstep
    _ = findIn needle (start + 1 + (t ++ text).length) rest :=
        findIn_of_headerFree hheader hneedle htail hrest (start + 1)
    _ = findIn needle (start + (a :: t ++ text).length) rest := by
        congr 1
        simp only [List.cons_append, List.length_cons]
        omega

end

/-- A search that begins at the needle has found it. -/
theorem findIn_of_begins {needle text : List Char} (hne : needle ≠ []) (h : needle <+: text)
    (start : ℕ) : findIn needle start text = some start := by
  cases text with
  | nil => exact absurd (List.prefix_nil.mp h) hne
  | cons c text => rw [findIn, if_pos (by simpa using h)]

end DeviceShell
