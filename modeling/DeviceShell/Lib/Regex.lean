import Mathlib.Data.List.Basic

/-!
# Backtracking regular expressions

The patterns of Python's `re` that a program is written with, as a syntax tree, and their meaning as
the list of all the ways in which a pattern matches at a position, in the order in which a
backtracking matcher tries them: the first of them is the match. A character class is a predicate on
characters, so that what a class contains (digits, letters without regard to case) is the user's.
-/

namespace DeviceShell

/-- A pattern. -/
inductive Regex where
  | eps
  /-- A character of a class. -/
  | chars (p : Char → Bool)
  | seq (first second : Regex)
  /-- `first|second`. -/
  | alt (first second : Regex)
  /-- `r*`, or `r*?` when not greedy. -/
  | star (greedy : Bool) (r : Regex)
  /-- `(?P<name>r)`. -/
  | group (name : String) (r : Regex)
  /-- `\b`, for what the pattern's flags take as a word character. -/
  | boundary (isWord : Char → Bool)
  /-- `$`. -/
  | atEnd

namespace Regex

/-- A position of the matcher in the text. -/
structure Cursor where
  /-- The character before the position. -/
  before : Option Char
  /-- The text from the position on. -/
  rest : List Char
  /-- What the named groups have matched, the last match first. -/
  groups : List (String × String) := []

/-- Whether a word begins or ends at the position. -/
def Cursor.atBoundary (isWord : Char → Bool) (c : Cursor) : Bool :=
  c.before.any isWord != c.rest.head?.any isWord

/-- `match.group(name)`. -/
def Cursor.group? (c : Cursor) (name : String) : Option String := c.groups.lookup name

/-- Repeating a way to match up to a number of times, every time over one character at least. -/
def repeatFrom (ways : Cursor → List Cursor) (greedy : Bool) : ℕ → Cursor → List Cursor
  | 0, c => [c]
  | n + 1, c =>
    let more := ((ways c).filter fun d => d.rest.length < c.rest.length).flatMap
      (repeatFrom ways greedy n)
    if greedy then more ++ [c] else c :: more

/-- The ways in which a pattern matches at a position, in the order of backtracking. -/
def ways : Regex → Cursor → List Cursor
  | eps, c => [c]
  | chars p, c => match c.rest with
    | [] => []
    | a :: rest => if p a then [{ c with before := some a, rest := rest }] else []
  | seq r s, c => (ways r c).flatMap (ways s)
  | alt r s, c => ways r c ++ ways s c
  -- An iteration takes one character at least, so the text's length bounds their number.
  | star greedy r, c => repeatFrom (ways r) greedy c.rest.length c
  | group name r, c => (ways r c).map fun d =>
    { d with groups :=
        (name, String.ofList (c.rest.take (c.rest.length - d.rest.length))) :: d.groups }
  | boundary isWord, c => if c.atBoundary isWord then [c] else []
  -- At the end of the text or before a line feed that ends it.
  | atEnd, c => if c.rest = [] ∨ c.rest = ['\n'] then [c] else []

/-- `re.match(r, s)`. -/
def matchStart (r : Regex) (s : String) : Option Cursor := (ways r ⟨none, s.toList, []⟩).head?

/-- The first match at a position or after it. -/
def searchFrom (r : Regex) (before : Option Char) : List Char → Option Cursor
  | [] => (ways r ⟨before, [], []⟩).head?
  | a :: rest => match (ways r ⟨before, a :: rest, []⟩).head? with
    | some c => some c
    | none => searchFrom r (some a) rest

/-- `re.search(r, s)`. -/
def search (r : Regex) (s : String) : Option Cursor := searchFrom r none s.toList

/-- `re.finditer` from a position on, for a pattern that matches no empty text: each search begins
where the match before it ended. -/
def findAllFrom (r : Regex) : ℕ → Option Char → List Char → List Cursor
  | 0, _, _ => []
  | n + 1, before, rest => match searchFrom r before rest with
    | some c => c :: findAllFrom r n c.before c.rest
    | none => []

/-- `list(re.finditer(r, s))`, for a pattern that matches no empty text. -/
def findAll (r : Regex) (s : String) : List Cursor :=
  findAllFrom r s.length none s.toList

/-- `r+`, or `r+?` when not greedy. -/
def plus (greedy : Bool) (r : Regex) : Regex := seq r (star greedy r)

/-- `r?`. -/
def opt (r : Regex) : Regex := alt r eps

/-- Patterns one after the other. -/
def all (rs : List Regex) : Regex := rs.foldr seq eps

/-- One of several patterns. -/
def any : List Regex → Regex
  | [] => chars fun _ => false
  | [r] => r
  | r :: rs => alt r (any rs)

/-- The character that a letter is without its case, as `re.IGNORECASE` compares the letters of
ASCII: four letters outside ASCII count as one of them. -/
def foldLetter (c : Char) : Char :=
  -- The two Turkish letters i, the long s and the Kelvin sign.
  if c.toNat = 0x130 ∨ c.toNat = 0x131 then 'i'
  else if c.toNat = 0x17f then 's'
  else if c.toNat = 0x212a then 'k'
  else c.toLower

/-- The characters of a text one after the other, compared by a relation on characters. -/
def text (same : Char → Char → Bool) (s : String) : Regex :=
  all (s.toList.map fun a => chars (same a))

/-- A text as it stands. -/
def exact (s : String) : Regex := text (fun a c => a == c) s

/-- A text under `re.IGNORECASE`, given in lower case. -/
def ignoringCase (s : String) : Regex := text (fun a c => a == foldLetter c) s

end Regex

end DeviceShell
