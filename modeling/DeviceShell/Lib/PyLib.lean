import DeviceShell.Lib.Value

/-!
# What the model takes from Python's library

`strip` is defined as the language reference gives it. The parts of the library that rest on large
tables or on whole parsers of their own (case folding of Unicode text, the text of a value that is
not a string, ISO timestamps) are fields of `PyLib`: every theorem holds for whatever functions
stand there, Python's own among them.
-/

namespace DeviceShell

/-- What an exception carries as far as the code or its callers look at it. -/
inductive PyError where
  | valueError (message : String)
  | keyError (message : String)
  | indexError (message : String)
  | typeError (message : String)
  | attributeError (message : String)
  | zeroDivisionError (message : String)
  | overflowError (message : String)
  | reError (message : String)
  | invalidOperation
  | stopIteration
  | decisionValidation (message : String)
  | resourceConflict (message : String)
  /-- `TaskInputResolutionError`. -/
  | taskInputResolution (expression missingSegment : String) (availableKeys : List String)
      (resolvedPath : String)
  /-- `TaskInputDependencyError`. -/
  | taskInputDependency (nodeId reference requiredDependency : String)
  | other (message : String)
deriving DecidableEq, Repr

/-- A comparison that Python's expressions have. -/
inductive CmpOp where
  | eq
  | ne
  | lt
  | le
  | gt
  | ge
  | inside
  | notIn
deriving DecidableEq, Repr

/-- An arithmetic operation that the expressions allow. -/
inductive ArithOp where
  | add
  | sub
  | mul
  | div
  | mod
deriving DecidableEq, Repr

/-- A unary operation that the expressions allow. -/
inductive UnaryOp where
  | not
  | neg
  | pos
deriving DecidableEq, Repr

/-- `ast.AST` of an expression, as far as the expressions look at it: every other node is
`other`. -/
inductive Ast where
  | constant (value : Value)
  | name (id : String)
  | attribute (value : Ast) (attr : String)
  | subscript (value slice : Ast)
  | list (elts : List Ast)
  | tuple (elts : List Ast)
  /-- A dictionary without `**`. -/
  | dict (entries : List (Ast × Ast))
  | call (func : Ast) (args : List Ast) (hasKeywords : Bool)
  | boolOp (isAnd : Bool) (values : List Ast)
  | unaryOp (op : UnaryOp) (operand : Ast)
  | binOp (op : ArithOp) (left right : Ast)
  | compare (left : Ast) (ops : List CmpOp) (comparators : List Ast)
  | other

/-- A `decimal.Decimal`. -/
inductive PyDecimal where
  | finite (q : ℚ)
  | posInf
  | negInf
  | nan
deriving DecidableEq, Repr

/-- The parts of Python's library that the model leaves open. -/
class PyLib where
  /-- `s.casefold()`. -/
  casefold : String → String
  /-- `s.upper()`. -/
  upper : String → String
  /-- `repr(value)`, which is `str(value)` of a value that is not a string. -/
  repr : Value → String
  /-- `datetime.isoformat()` of a UTC time, given in seconds. -/
  isoformat : ℚ → String
  /-- `datetime.fromisoformat`, a text without offset being UTC; `none` where it raises. -/
  fromisoformat : String → Option ℚ
  /-- The decimal digit that a character is. -/
  digit : Char → Option ℕ
  /-- `int(text)`; `none` where it raises. -/
  parseInt : String → Option ℤ
  /-- `float(text)`; `none` where it raises. -/
  parseFloat : String → Option PyFloat
  /-- `Decimal(text)`; `none` where it raises. -/
  parseDecimal : String → Option PyDecimal
  /-- `json.loads(text)`; `none` where it raises. -/
  jsonLoads : String → Option Value
  /-- `re.search(pattern, text) is not None`; `none` for a pattern with which it raises
  `re.error`. -/
  regexSearch : String → String → Option Bool
  /-- The exception other than `re.error` that `re.compile(pattern)` raises, such as the
  `OverflowError` of a repetition number that is too large. -/
  regexRaises : String → Option PyError := fun _ => none
  /-- `ast.parse(text, mode="eval")`: the expression and the number of nodes of the whole tree;
  `none` where it raises. -/
  parseExpression : String → Option (Ast × ℕ)
  /-- An arithmetic operation on two numbers whose result is a float. -/
  floatArith : ArithOp → Value → Value → Except PyError PyFloat
  /-- `text % value`. -/
  formatText : String → Value → Except PyError String

/-- The library on ASCII texts at the epoch, for the concrete runs of this development, which use
none of the parsers. -/
@[reducible] def PyLib.atEpoch : PyLib where
  casefold s := s.toLower
  upper s := s.toUpper
  repr _ := "None"
  isoformat _ := "1970-01-01T00:00:00+00:00"
  fromisoformat _ := some 0
  digit c := if c.isDigit then some (c.toNat - 48) else none
  parseInt _ := none
  parseFloat _ := none
  parseDecimal _ := none
  jsonLoads _ := none
  regexSearch _ _ := none
  parseExpression _ := none
  floatArith _ _ _ := .error (.overflowError "")
  formatText _ _ := .error (.typeError "")

/-- `str.isspace` on one character. -/
def isSpace (c : Char) : Bool :=
  let n := c.toNat
  (9 ≤ n && n ≤ 13) || (28 ≤ n && n ≤ 32) || n == 0x85 || n == 0xa0 || n == 0x1680 ||
    (0x2000 ≤ n && n ≤ 0x200a) || n == 0x2028 || n == 0x2029 || n == 0x202f || n == 0x205f ||
    n == 0x3000

/-- `s.strip()`. -/
def strip (s : String) : String :=
  String.ofList ((s.toList.dropWhile isSpace).reverse.dropWhile isSpace).reverse

/-- Dropping the leading characters of a kind leaves none of them in front. -/
theorem dropWhile_dropWhile {α : Type} (p : α → Bool) (l : List α) :
    (l.dropWhile p).dropWhile p = l.dropWhile p := by
  induction l with
  | nil => rfl
  | cons a rest ih =>
    by_cases h : p a = true
    · simp [h, ih]
    · simp [h]

/-- What ends in another list keeps its first character, if it has one. -/
theorem dropWhile_reverse_dropWhile {α : Type} (p : α → Bool) (l : List α) (h : l.dropWhile p = l) :
    (l.reverse.dropWhile p).reverse.dropWhile p = (l.reverse.dropWhile p).reverse := by
  obtain ⟨front, hfront⟩ := List.dropWhile_suffix (l := l.reverse) p
  cases hrest : (l.reverse.dropWhile p).reverse with
  | nil => rfl
  | cons a rest =>
    have hl : l = a :: rest ++ front.reverse := by
      rw [← List.reverse_reverse l, ← hfront, List.reverse_append, hrest]
    rw [hl, List.cons_append, List.dropWhile_cons] at h
    by_cases ha : p a = true
    · rw [if_pos ha] at h
      have := congrArg List.length h
      have hle := (List.dropWhile_suffix (l := rest ++ front.reverse) p).length_le
      simp only [List.length_cons] at this
      omega
    · simp [ha]

/-- Stripping twice is stripping once. -/
theorem strip_strip (s : String) : strip (strip s) = strip s := by
  have hfront : (s.toList.dropWhile isSpace).dropWhile isSpace = s.toList.dropWhile isSpace :=
    dropWhile_dropWhile _ _
  unfold strip
  rw [String.toList_ofList, dropWhile_reverse_dropWhile _ _ hfront, List.reverse_reverse,
    dropWhile_dropWhile]

/-- `not s.strip()`. -/
def isBlank (s : String) : Bool := s.toList.all isSpace

/-- `str(value)`. -/
def Value.pyStr [PyLib] : Value → String
  | .str s => s
  | v => PyLib.repr v

/-- `str(value or default)`. -/
def Value.strOr [PyLib] (v : Option Value) (default : String) : String :=
  match v with
  | some v => if v.truthy then v.pyStr else default
  | Option.none => default

/-- Whether a text occurs in another, both given as lists of characters. -/
def isInfix (needle : List Char) : List Char → Bool
  | [] => needle.isEmpty
  | c :: rest => needle.isPrefixOf (c :: rest) || isInfix needle rest

/-- `item in container`. -/
def Value.contains (container item : Value) : Except PyError Bool :=
  match container, item with
  | .list items, v => .ok (items.any fun w => w.pyEq v)
  | .dict entries, .str k => .ok ((Dict.lookup k entries).isSome)
  | .dict _, _ => .ok false
  | .str s, .str t => .ok (isInfix t.toList s.toList)
  | _, _ => .error (.typeError "argument is not iterable")

/-- `iter(value)`: the items of a list, the keys of a dictionary, the characters of a text. -/
def Value.iter : Value → Except PyError (List Value)
  | .list items => .ok items
  | .dict entries => .ok (entries.map fun e => .str e.1)
  | .str s => .ok (s.toList.map fun c => .str (String.singleton c))
  | _ => .error (.typeError "object is not iterable")

end DeviceShell
