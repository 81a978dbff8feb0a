import Mathlib.Tactic.Common
import Mathlib.Data.List.Basic

/-!
# Bytes read as UTF-8

`decodeIgnore` is `bytes.decode("utf-8", errors="ignore")`: the characters whose encodings the bytes
hold, without the bytes that belong to none. A character that is cut in two is lost, and nothing
else is: `decodeIgnore_flatten_iff`.
-/

namespace DeviceShell

open String (utf8EncodeChar)

/-- The character whose encoding the bytes begin with. -/
def charAt? (bytes : List UInt8) : Option Char := bytes.toByteArray.utf8DecodeChar? 0

/-- `bytes.decode("utf-8", errors="ignore")`. A byte inside an encoding begins no character, so each
place can be tried. -/
def decodeIgnore : List UInt8 → List Char
  | [] => []
  | b :: rest => (charAt? (b :: rest)).toList ++ decodeIgnore rest

/-- `text.encode("utf-8")`. -/
def encodeUtf8 (text : String) : List UInt8 := text.toList.flatMap utf8EncodeChar

/-! ## One character -/

theorem charAt?_encode (c : Char) (rest : List UInt8) :
    charAt? (utf8EncodeChar c ++ rest) = some c := by
  unfold charAt?
  rw [List.toByteArray_append]
  exact ByteArray.utf8DecodeChar?_utf8EncodeChar_append

theorem charAt?_eq_some_iff {bytes : List UInt8} {c : Char} :
    charAt? bytes = some c ↔ utf8EncodeChar c <+: bytes := by
  constructor
  · intro h
    obtain ⟨rest, hrest⟩ := ByteArray.exists_of_utf8DecodeChar?_eq_some h
    have hlist := congrArg (fun b => b.data.toList) hrest
    exact ⟨rest.data.toList, by simpa using hlist.symm⟩
  · rintro ⟨rest, rfl⟩
    exact charAt?_encode c rest

theorem utf8EncodeChar_ne_nil (c : Char) : utf8EncodeChar c ≠ [] := by
  rw [ne_eq, ← List.length_eq_zero_iff, String.length_utf8EncodeChar]
  have hpos := c.utf8Size_pos
  omega

@[simp] theorem charAt?_nil : charAt? [] = none := by
  cases h : charAt? [] with
  | none => rfl
  | some c => exact absurd (List.prefix_nil.1 (charAt?_eq_some_iff.1 h)) (utf8EncodeChar_ne_nil c)

/-- What a text begins with does not change when it goes on. -/
theorem charAt?_append {a : List UInt8} {c : Char} (h : charAt? a = some c) (b : List UInt8) :
    charAt? (a ++ b) = some c :=
  charAt?_eq_some_iff.2 ((charAt?_eq_some_iff.1 h).trans (List.prefix_append a b))

/-- Only a first byte begins a character. -/
theorem charAt?_eq_none {b : UInt8} (hb : ¬b.IsUTF8FirstByte) (rest : List UInt8) :
    charAt? (b :: rest) = none := by
  cases h : charAt? (b :: rest) with
  | none => rfl
  | some c =>
    have hsome : ((b :: rest).toByteArray.utf8DecodeChar? 0).isSome := by
      rw [show (b :: rest).toByteArray.utf8DecodeChar? 0 = some c from h]
      rfl
    have hfirst := ByteArray.isUTF8FirstByte_of_isSome_utf8DecodeChar? hsome
    rw [List.getElem_toByteArray] at hfirst
    exact absurd hfirst hb

/-- Bytes that begin no character are left out. -/
theorem decodeIgnore_tail {q : List UInt8} (hq : ∀ b ∈ q, ¬b.IsUTF8FirstByte)
    (rest : List UInt8) : decodeIgnore (q ++ rest) = decodeIgnore rest := by
  induction q with
  | nil => rfl
  | cons b q ih =>
    have hnone := charAt?_eq_none (hq b List.mem_cons_self) (q ++ rest)
    rw [List.cons_append, decodeIgnore, hnone, ih fun x hx => hq x (List.mem_cons_of_mem b hx)]
    rfl

/-- An encoding is read as its character. -/
theorem decodeIgnore_encode (c : Char) (rest : List UInt8) :
    decodeIgnore (utf8EncodeChar c ++ rest) = c :: decodeIgnore rest := by
  obtain ⟨b, q, hc⟩ := List.exists_cons_of_ne_nil (utf8EncodeChar_ne_nil c)
  have hq : ∀ x ∈ q, ¬x.IsUTF8FirstByte := by
    intro x hx
    obtain ⟨i, hi, rfl⟩ := List.mem_iff_getElem.1 hx
    have hlt : i + 1 < (utf8EncodeChar c).length := by
      rw [hc, List.length_cons]
      omega
    have hbyte : (utf8EncodeChar c)[i + 1] = q[i] := by simp [hc]
    rw [← hbyte, UInt8.isUTF8FirstByte_getElem_utf8EncodeChar]
    omega
  have hchar := charAt?_encode c rest
  rw [hc, List.cons_append] at hchar ⊢
  rw [decodeIgnore, hchar, decodeIgnore_tail hq]
  rfl

/-- A text comes back from its encoding. -/
theorem decodeIgnore_encodeUtf8 (text : String) : decodeIgnore (encodeUtf8 text) = text.toList := by
  unfold encodeUtf8
  induction text.toList with
  | nil => rfl
  | cons c rest ih => rw [List.flatMap_cons, decodeIgnore_encode, ih]

/-! ## Bytes that arrive in parts -/

/-- A character begins in the first bytes and ends in those that follow. -/
def CutsCharacter (a b : List UInt8) : Prop :=
  ∃ (c : Char) (p q : List UInt8), p ≠ [] ∧ q ≠ [] ∧ utf8EncodeChar c = p ++ q ∧ p <:+ a ∧ q <+: b

/-- The characters that begin in the first bytes, when others follow. -/
def beginning : List UInt8 → List UInt8 → List Char
  | [], _ => []
  | b :: rest, after => (charAt? (b :: rest ++ after)).toList ++ beginning rest after

theorem decodeIgnore_append (a b : List UInt8) :
    decodeIgnore (a ++ b) = beginning a b ++ decodeIgnore b := by
  induction a with
  | nil => rfl
  | cons x a ih => rw [List.cons_append, decodeIgnore, ih, beginning, List.append_assoc,
      List.cons_append]

/-- A character that is cut begins with the first byte, or after it. -/
theorem cutsCharacter_cons (x : UInt8) (a b : List UInt8) : CutsCharacter (x :: a) b ↔
    (charAt? (x :: a) = none ∧ (charAt? (x :: a ++ b)).isSome) ∨ CutsCharacter a b := by
  constructor
  · rintro ⟨c, p, q, hp, hq, hc, hsuffix, hprefix⟩
    rcases List.suffix_cons_iff.1 hsuffix with rfl | hsuffix
    · have hwhole : charAt? (x :: a ++ b) = some c :=
        charAt?_eq_some_iff.2 (hc ▸ (List.prefix_append_right_inj _).2 hprefix)
      refine .inl ⟨?_, by rw [hwhole]; rfl⟩
      cases hpart : charAt? (x :: a) with
      | none => rfl
      | some c' =>
        obtain rfl : c' = c := Option.some.inj ((charAt?_append hpart b).symm.trans hwhole)
        have hlength := (charAt?_eq_some_iff.1 hpart).length_le
        have hpos := List.length_pos_iff.2 hq
        rw [hc, List.length_append] at hlength
        omega
    · exact .inr ⟨c, p, q, hp, hq, hc, hsuffix, hprefix⟩
  · rintro (⟨hpart, hwhole⟩ | ⟨c, p, q, hp, hq, hc, hsuffix, hprefix⟩)
    · obtain ⟨c, hc⟩ := Option.isSome_iff_exists.1 hwhole
      have hencoding := charAt?_eq_some_iff.1 hc
      rcases List.prefix_or_prefix_of_prefix hencoding (List.prefix_append (x :: a) b) with
        hshort | ⟨q, hq⟩
      · rw [charAt?_eq_some_iff.2 hshort] at hpart
        cases hpart
      · rw [← hq] at hencoding
        refine ⟨c, x :: a, q, List.cons_ne_nil x a, ?_, hq.symm, List.suffix_refl _,
          (List.prefix_append_right_inj _).1 hencoding⟩
        rintro rfl
        rw [List.append_nil] at hq
        have hsome : charAt? (x :: a) = some c :=
          charAt?_eq_some_iff.2 ⟨[], by rw [List.append_nil, hq]⟩
        exact absurd hpart (by simp [hsome])
    · exact ⟨c, p, q, hp, hq, hc, hsuffix.trans (List.suffix_cons x a), hprefix⟩

/-- The first bytes alone hold no more characters than begin in them. -/
theorem length_decodeIgnore_le (a b : List UInt8) :
    (decodeIgnore a).length ≤ (beginning a b).length := by
  induction a with
  | nil => exact Nat.le_refl _
  | cons x a ih =>
    have hhead : (charAt? (x :: a)).toList.length ≤ (charAt? (x :: a ++ b)).toList.length := by
      cases hpart : charAt? (x :: a) with
      | none => simp
      | some c => exact Nat.le_of_eq (by rw [charAt?_append hpart b])
    rw [decodeIgnore, beginning, List.length_append, List.length_append]
    omega

/-- They hold just as many exactly if none of these is cut. -/
theorem length_beginning_iff (a b : List UInt8) :
    (beginning a b).length = (decodeIgnore a).length ↔ ¬CutsCharacter a b := by
  induction a with
  | nil =>
    refine iff_of_true rfl ?_
    rintro ⟨c, p, q, hp, -, -, hsuffix, -⟩
    exact hp (List.suffix_nil.1 hsuffix)
  | cons x a ih =>
    have hle := length_decodeIgnore_le a b
    rw [cutsCharacter_cons, not_or, ← ih, decodeIgnore, beginning, List.length_append,
      List.length_append]
    cases hpart : charAt? (x :: a) with
    | some c =>
      rw [charAt?_append hpart b]
      simp
    | none =>
      cases hwhole : charAt? (x :: a ++ b) with
      | none => simp
      | some c =>
        simp only [Option.toList_some, Option.toList_none, List.length_cons, List.length_nil]
        constructor
        · intro h
          omega
        · intro h
          exact absurd ⟨trivial, rfl⟩ h.1

/-- In the first bytes alone the same characters are read, if none is cut. -/
theorem beginning_eq {a b : List UInt8} (h : ¬CutsCharacter a b) :
    beginning a b = decodeIgnore a := by
  induction a with
  | nil => rfl
  | cons x a ih =>
    rw [cutsCharacter_cons, not_or] at h
    have hhead : charAt? (x :: a ++ b) = charAt? (x :: a) := by
      cases hpart : charAt? (x :: a) with
      | some c => exact charAt?_append hpart b
      | none =>
        cases hwhole : charAt? (x :: a ++ b) with
        | none => rfl
        | some c => exact absurd ⟨hpart, by rw [hwhole]; rfl⟩ h.1
    rw [decodeIgnore, beginning, hhead, ih h.2]

/-- Reading the parts one by one yields the characters of the whole exactly if no character begins
in one part and ends in a later one. -/
theorem decodeIgnore_flatten_iff (chunks : List (List UInt8)) :
    chunks.flatMap decodeIgnore = decodeIgnore chunks.flatten ↔
      ∀ before chunk after, chunks = before ++ chunk :: after →
        ¬CutsCharacter chunk after.flatten := by
  have hlength (chunks : List (List UInt8)) :
      (chunks.flatMap decodeIgnore).length ≤ (decodeIgnore chunks.flatten).length := by
    induction chunks with
    | nil => exact Nat.le_refl _
    | cons a rest ih =>
      have hle := length_decodeIgnore_le a rest.flatten
      rw [List.flatMap_cons, List.flatten_cons, decodeIgnore_append, List.length_append,
        List.length_append]
      omega
  induction chunks with
  | nil => simp [decodeIgnore]
  | cons a rest ih =>
    have hfirst : (∀ before chunk after, a :: rest = before ++ chunk :: after →
        ¬CutsCharacter chunk after.flatten) ↔ ¬CutsCharacter a rest.flatten ∧
          ∀ before chunk after, rest = before ++ chunk :: after →
            ¬CutsCharacter chunk after.flatten := by
      constructor
      · intro h
        refine ⟨h [] a rest rfl, fun before chunk after hrest => ?_⟩
        exact h (a :: before) chunk after (by rw [hrest, List.cons_append])
      · rintro ⟨ha, hrest⟩ before chunk after h
        cases before with
        | nil =>
          obtain ⟨rfl, rfl⟩ := List.cons.inj h
          exact ha
        | cons first before => exact hrest before chunk after (List.cons.inj h).2
    rw [hfirst, List.flatMap_cons, List.flatten_cons, decodeIgnore_append]
    constructor
    · intro h
      -- Both parts hold no more than the whole, so they hold just as much.
      have hle := length_decodeIgnore_le a rest.flatten
      have hrest := hlength rest
      have hsum := congrArg List.length h
      rw [List.length_append, List.length_append] at hsum
      have hsame : (decodeIgnore a).length = (beginning a rest.flatten).length := by omega
      exact ⟨(length_beginning_iff a rest.flatten).1 hsame.symm,
        ih.1 (List.append_inj h hsame).2⟩
    · rintro ⟨ha, hrest⟩
      rw [beginning_eq ha, ih.2 hrest]

end DeviceShell
