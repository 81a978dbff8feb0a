import DeviceShell.Lib.PyLib

/-!
# Python's operations on texts

The string methods that the vendor parsers use, on the characters of a text. A position is a number
of characters from the start, as in Python. The two that rest on Unicode tables are fields of
`PyText`, as those of `PyLib` are.
-/

namespace DeviceShell

/-- More of Python's text library that the model leaves open. -/
class PyText where
  /-- `s.lower()`. -/
  lower : String → String
  /-- `c.isalnum()` of one character. -/
  isAlnum : Char → Bool

/-- The methods on ASCII texts, for concrete runs. -/
@[reducible] def PyText.ascii : PyText where
  lower s := s.toLower
  isAlnum c := c.isAlphanum

/-- The number that a text of decimal digits spells. -/
def decimalText (s : String) : Option ℤ :=
  if s ≠ "" ∧ s.toList.all Char.isDigit then
    some (s.toList.foldl (fun n c => 10 * n + (c.toNat - 48 : ℕ)) (0 : ℤ))
  else none

/-- `PyLib.atEpoch`, with the numbers that are plain decimal digits and their products. -/
@[reducible] def PyLib.decimal : PyLib :=
  { PyLib.atEpoch with
    casefold := fun s => String.ofList (s.toList.map Char.toLower)
    parseInt := decimalText
    parseFloat := fun s => (decimalText s).map fun n => .finite n
    floatArith := fun op v w => match op, v.num?, w.num? with
      | .mul, some (.finite p), some (.finite q) => .ok (.finite (p * q))
      | _, _, _ => .error (.overflowError "") }

/-- `s.replace(a, b)` for single characters. -/
def replaceChar (a b : Char) (s : String) : String :=
  String.ofList (s.toList.map fun c => if c = a then b else c)

/-- `s.replace(a, "")` for a single character. -/
def removeChar (a : Char) (s : String) : String := String.ofList (s.toList.filter fun c => c ≠ a)

/-- `s.rsplit(sep, 1)[-1]` for a single character. -/
def afterLast (sep : Char) (s : String) : String :=
  String.ofList (s.toList.reverse.takeWhile fun c => c ≠ sep).reverse

/-- `s.split(sep, 1)[1]` for a single character that occurs in the text. -/
def afterFirst (sep : Char) (s : String) : String :=
  String.ofList ((s.toList.dropWhile fun c => c ≠ sep).drop 1)

/-- `s.rstrip(c)` for a single character. -/
def rstripChar (a : Char) (s : String) : String :=
  String.ofList (s.toList.reverse.dropWhile fun c => c = a).reverse

/-- The parts of a text between the characters of a kind. -/
def splitAtChars (p : Char → Bool) : List Char → List Char → List String
  | part, [] => [String.ofList part.reverse]
  | part, c :: rest =>
    if p c then String.ofList part.reverse :: splitAtChars p [] rest
    else splitAtChars p (c :: part) rest

/-- `s.split()`. -/
def words (s : String) : List String :=
  (splitAtChars isSpace [] s.toList).filter fun w => w ≠ ""

/-- The characters at which `splitlines` ends a line. -/
def isLineBreak (c : Char) : Bool :=
  let n := c.toNat
  (10 ≤ n && n ≤ 13) || (28 ≤ n && n ≤ 30) || n == 0x85 || n == 0x2028 || n == 0x2029

/-- `splitlines` with the characters of the line so far, last first. -/
def splitlinesFrom : List Char → List Char → List String
  | [], [] => []
  | line, [] => [String.ofList line.reverse]
  -- A carriage return and a line feed are one break.
  | line, '\r' :: '\n' :: rest => String.ofList line.reverse :: splitlinesFrom [] rest
  | line, c :: rest =>
    if isLineBreak c then String.ofList line.reverse :: splitlinesFrom [] rest
    else splitlinesFrom (c :: line) rest

/-- `s.splitlines()`. -/
def splitlines (s : String) : List String := splitlinesFrom [] s.toList

/-- The position of a text in another, counted from the position at which the second begins. -/
def findIn (needle : List Char) : ℕ → List Char → Option ℕ
  | at_, [] => if needle.isEmpty then some at_ else none
  | at_, c :: rest =>
    if needle.isPrefixOf (c :: rest) then some at_ else findIn needle (at_ + 1) rest

/-- `s.find(needle, start)`; `none` for -1. -/
def find (s needle : String) (start : ℕ) : Option ℕ :=
  if start ≤ s.length then findIn needle.toList start (s.toList.drop start) else none

/-- `s[start:stop]`, with `none` for a missing bound. -/
def slice (s : String) (start : ℕ) (stop : Option ℕ) : String :=
  match stop with
  | some stop => String.ofList ((s.toList.take stop).drop start)
  | none => String.ofList (s.toList.drop start)

/-- `needle in s`. -/
def occursIn (needle s : String) : Bool := isInfix needle.toList s.toList

/-- `s.startswith(front)`. -/
def startsWith (s front : String) : Bool := front.toList.isPrefixOf s.toList

/-- `s.endswith(suffix)`. -/
def endsWith (s suffix : String) : Bool := suffix.toList.isSuffixOf s.toList

/-- `PurePosixPath(s).name`: the last component, those that are empty or a dot being no
components. -/
def posixName (s : String) : String :=
  ((splitAtChars (· == '/') [] s.toList).filter fun part => part ≠ "" ∧ part ≠ ".").getLast?.getD ""

/-- A stripped text with a character that is no space at its end is stripped. -/
theorem strip_push (s : String) {c : Char} (hc : isSpace c = false) :
    strip (strip s ++ String.singleton c) = strip s ++ String.singleton c := by
  have hfront : (strip s).toList.dropWhile isSpace = (strip s).toList := by
    have h := dropWhile_reverse_dropWhile isSpace _ (dropWhile_dropWhile isSpace s.toList)
    rw [strip, String.toList_ofList, h]
  have hpush : ((strip s).toList ++ [c]).dropWhile isSpace = (strip s).toList ++ [c] := by
    cases hl : (strip s).toList with
    | nil => simp [hc]
    | cons a rest =>
      have ha : isSpace a = false := by
        by_contra hspace
        rw [hl, List.dropWhile_cons_of_pos (by simpa using hspace)] at hfront
        have hle := (List.dropWhile_suffix (l := rest) isSpace).length_le
        rw [hfront, List.length_cons] at hle
        omega
      simp [ha]
  have hlist : (strip s ++ String.singleton c).toList = (strip s).toList ++ [c] := by simp
  rw [strip, hlist, hpush, List.reverse_append, List.reverse_singleton, List.singleton_append,
    List.dropWhile_cons_of_neg (by simp [hc]), ← List.singleton_append, List.reverse_append,
    List.reverse_reverse, List.reverse_singleton, ← hlist, String.ofList_toList]

/-! ## Words and lines -/

/-- Splitting at a character of the kind. -/
theorem splitAtChars_append (p : Char → Bool) {c : Char} (hc : p c = true) (part a b : List Char) :
    splitAtChars p part (a ++ c :: b) = splitAtChars p part a ++ splitAtChars p [] b := by
  induction a generalizing part with
  | nil => simp [splitAtChars, hc]
  | cons d a ih =>
    simp only [List.cons_append, splitAtChars]
    split
    · rw [ih, List.cons_append]
    · exact ih _

/-- The words around a space. -/
theorem words_append_space {c : Char} (hc : isSpace c = true) (a b : List Char) :
    words (String.ofList (a ++ c :: b)) = words (String.ofList a) ++ words (String.ofList b) := by
  unfold words
  rw [String.toList_ofList, String.toList_ofList, String.toList_ofList,
    splitAtChars_append isSpace hc, List.filter_append]

/-- The empty text has no words. -/
theorem words_nil : words (String.ofList []) = [] := rfl

/-- A line break is a space. -/
theorem isSpace_of_isLineBreak {c : Char} (h : isLineBreak c = true) : isSpace c = true := by
  simp only [isLineBreak, isSpace, Bool.or_eq_true, Bool.and_eq_true, decide_eq_true_eq,
    beq_iff_eq] at h ⊢
  omega

/-- `splitlines` loses no word, whatever the line so far is. -/
theorem words_splitlinesFrom (line rest : List Char) :
    (splitlinesFrom line rest).flatMap words = words (String.ofList (line.reverse ++ rest)) := by
  fun_induction splitlinesFrom line rest with
  | case1 => rfl
  | case2 line hline => simp
  | case3 line rest ih =>
    have hcr : isSpace '\r' = true := by decide
    have hlf : isSpace '\n' = true := by decide
    have hrest := words_append_space hlf [] rest
    rw [words_nil, List.nil_append, List.nil_append] at hrest
    rw [List.flatMap_cons, ih, words_append_space hcr, hrest, List.reverse_nil, List.nil_append]
  | case4 line c rest hcr hbreak ih =>
    rw [List.flatMap_cons, ih, words_append_space (isSpace_of_isLineBreak hbreak),
      List.reverse_nil, List.nil_append]
  | case5 line c rest hcr hbreak ih =>
    rw [ih, List.reverse_cons, List.append_assoc, List.singleton_append]

/-- The words of a text are those of its lines. -/
theorem words_splitlines (s : String) : (splitlines s).flatMap words = words s := by
  unfold splitlines
  rw [words_splitlinesFrom, List.reverse_nil, List.nil_append, String.ofList_toList]

/-- Leading spaces are between no words. -/
theorem words_dropWhile (l : List Char) :
    words (String.ofList (l.dropWhile isSpace)) = words (String.ofList l) := by
  induction l with
  | nil => rfl
  | cons c l ih =>
    by_cases hc : isSpace c = true
    · have hsplit := words_append_space hc [] l
      rw [words_nil, List.nil_append, List.nil_append] at hsplit
      rw [List.dropWhile_cons_of_pos hc, ih, hsplit]
    · rw [List.dropWhile_cons_of_neg hc]

/-- Trailing spaces are between no words. -/
theorem words_reverse_dropWhile (l : List Char) :
    words (String.ofList (l.dropWhile isSpace).reverse) = words (String.ofList l.reverse) := by
  induction l with
  | nil => rfl
  | cons c l ih =>
    by_cases hc : isSpace c = true
    · have hsplit := words_append_space hc l.reverse []
      rw [words_nil, List.append_nil] at hsplit
      rw [List.dropWhile_cons_of_pos hc, ih, List.reverse_cons, hsplit]
    · rw [List.dropWhile_cons_of_neg hc]

/-- Stripping a text keeps its words. -/
theorem words_strip (s : String) : words (strip s) = words s := by
  unfold strip
  rw [words_reverse_dropWhile, List.reverse_reverse, words_dropWhile, String.ofList_toList]

end DeviceShell
