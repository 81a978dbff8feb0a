import DeviceShell.Lib.PyLib

/-!
# Python's operators on values

Subscripts, arithmetic, order and the conversions to numbers, with the exceptions they raise. An
operation whose result is a float is left to `PyLib.floatArith`; everything else is computed here.
-/

namespace DeviceShell

/-- The comparison of two floats: a NaN is in no order with anything. -/
def PyFloat.lt : PyFloat → PyFloat → Bool
  | .finite p, .finite q => decide (p < q)
  | .negInf, .finite _ => true
  | .negInf, .posInf => true
  | .finite _, .posInf => true
  | _, _ => false

/-- `-x`. -/
def PyFloat.neg : PyFloat → PyFloat
  | .finite q => .finite (-q)
  | .posInf => .negInf
  | .negInf => .posInf
  | .nan => .nan

/-- The order of texts, character by character. -/
def textLt : List Char → List Char → Bool
  | _, [] => false
  | [], _ :: _ => true
  | c :: cs, d :: ds => decide (c < d) || (c == d && textLt cs ds)

namespace Value

/-- The integer that a value is, a boolean being 0 or 1. -/
def asInt? : Value → Option ℤ
  | .bool b => some (if b then 1 else 0)
  | .int n => some n
  | _ => Option.none

mutual

/-- `a < b`. -/
def pyLt : Value → Value → Except PyError Bool
  | .str a, .str b => .ok (textLt a.toList b.toList)
  | .list xs, .list ys => pyLtItems xs ys
  | v, w => match v.num?, w.num? with
    | some x, some y => .ok (x.lt y)
    | _, _ => .error (.typeError "'<' not supported between instances")
termination_by structural v => v

/-- `<` on lists: the first items that differ decide. -/
def pyLtItems : List Value → List Value → Except PyError Bool
  | _, [] => .ok false
  | [], _ :: _ => .ok true
  | v :: vs, w :: ws => if v.pyEq w then pyLtItems vs ws else pyLt v w
termination_by structural vs => vs

end

/-- `left op right` for a comparison. -/
def compareOp (op : CmpOp) (left right : Value) : Except PyError Bool :=
  match op with
  | .eq => .ok (left.pyEq right)
  | .ne => .ok (!left.pyEq right)
  | .lt => left.pyLt right
  | .gt => right.pyLt left
  | .le => do return (← left.pyLt right) || left.pyEq right
  | .ge => do return (← right.pyLt left) || left.pyEq right
  | .inside => right.contains left
  | .notIn => do return !(← right.contains left)

/-- `owner[index]` for a list and an integer. -/
def itemAt {α : Type} (items : List α) (index : ℤ) : Except PyError α :=
  let index := if index < 0 then index + items.length else index
  match (if index < 0 then Option.none else items[index.toNat]?) with
  | some v => .ok v
  | Option.none => .error (.indexError "list index out of range")

/-- `owner[key]`. -/
def subscript (owner key : Value) : Except PyError Value :=
  match owner, key with
  | .dict entries, .str k => match Dict.lookup k entries with
    | some v => .ok v
    | Option.none => .error (.keyError k)
  | .dict _, .list _ => .error (.typeError "unhashable type")
  | .dict _, .dict _ => .error (.typeError "unhashable type")
  | .dict _, _ => .error (.keyError "")
  | .list items, k => match k.asInt? with
    | some n => itemAt items n
    | Option.none => .error (.typeError "list indices must be integers")
  | .str s, k => match k.asInt? with
    | some n => do return .str (String.singleton (← itemAt s.toList n))
    | Option.none => .error (.typeError "string indices must be integers")
  | _, _ => .error (.typeError "object is not subscriptable")

variable [PyLib]

/-- An operation whose result is a float. -/
def floatOp (op : ArithOp) (left right : Value) : Except PyError Value := do
  return .float (← PyLib.floatArith op left right)

/-- `left op right` on two numbers. -/
def numberOp (op : ArithOp) (left right : Value) : Except PyError Value :=
  match op, left.asInt?, right.asInt? with
  | .add, some m, some n => .ok (.int (m + n))
  | .sub, some m, some n => .ok (.int (m - n))
  | .mul, some m, some n => .ok (.int (m * n))
  | .mod, some m, some n =>
    if n = 0 then .error (.zeroDivisionError "integer modulo by zero") else .ok (.int (m.fmod n))
  | .div, _, some 0 => .error (.zeroDivisionError "division by zero")
  | op, _, _ => floatOp op left right

/-- `left op right` for an arithmetic operation. -/
def arith (op : ArithOp) (left right : Value) : Except PyError Value :=
  match op, left, right with
  | .add, .str a, .str b => .ok (.str (a ++ b))
  | .add, .list xs, .list ys => .ok (.list (xs ++ ys))
  | .mod, .str a, v => do return .str (← PyLib.formatText a v)
  | .mul, .str a, v => match v.asInt? with
    | some n => .ok (.str (String.ofList (List.replicate n.toNat a.toList).flatten))
    | Option.none => .error (.typeError "can't multiply sequence by non-int")
  | .mul, .list xs, v => match v.asInt? with
    | some n => .ok (.list (List.replicate n.toNat xs).flatten)
    | Option.none => .error (.typeError "can't multiply sequence by non-int")
  | .mul, v, .str a => match v.asInt? with
    | some n => .ok (.str (String.ofList (List.replicate n.toNat a.toList).flatten))
    | Option.none => .error (.typeError "can't multiply sequence by non-int")
  | .mul, v, .list xs => match v.asInt? with
    | some n => .ok (.list (List.replicate n.toNat xs).flatten)
    | Option.none => .error (.typeError "can't multiply sequence by non-int")
  | op, v, w => match v.num?, w.num? with
    | some _, some _ => numberOp op v w
    | _, _ => .error (.typeError "unsupported operand types")

/-- `op operand`. -/
def unary (op : UnaryOp) (operand : Value) : Except PyError Value :=
  match op, operand with
  | .not, v => .ok (.bool (!v.truthy))
  | .pos, .float x => .ok (.float x)
  | .neg, .float x => .ok (.float x.neg)
  | op, v => match v.asInt? with
    | some n => .ok (.int (if op = .neg then -n else n))
    | Option.none => .error (.typeError "bad operand type for unary operator")

/-- `int(value)`. -/
def toInt : Value → Except PyError ℤ
  | .bool b => .ok (if b then 1 else 0)
  | .int n => .ok n
  | .float (.finite q) => .ok (if q < 0 then q.ceil else q.floor)
  | .float .nan => .error (.valueError "cannot convert float NaN to integer")
  | .float _ => .error (.overflowError "cannot convert float infinity to integer")
  | .str s => match PyLib.parseInt s with
    | some n => .ok n
    | Option.none => .error (.valueError "invalid literal for int()")
  | _ => .error (.typeError "int() argument must be a string or a real number")

/-- `float(value)`. -/
def toFloat : Value → Except PyError PyFloat
  | .bool b => .ok (.finite (if b then 1 else 0))
  | .int n => .ok (.finite n)
  | .float x => .ok x
  | .str s => match PyLib.parseFloat s with
    | some x => .ok x
    | Option.none => .error (.valueError "could not convert string to float")
  | _ => .error (.typeError "float() argument must be a string or a real number")

/-- The two items of a pair from which `dict` builds an entry. -/
def asEntry (item : Value) : Except PyError (String × Value) := do
  match ← item.iter with
  | [.str k, v] => return (k, v)
  | [_, _] => throw (.typeError "keys must be texts")
  | _ => throw (.valueError "dictionary update sequence element has the wrong length")

/-- `dict(value)`. -/
def toDict (value : Value) : Except PyError (Dict String Value) :=
  match value with
  | .dict entries => .ok ⟨entries⟩
  | v => do
    let entries ← (← v.iter).mapM asEntry
    return entries.foldl (fun d e => d.set e.1 e.2) ∅

end Value

/-- `str(exc)`. -/
def PyError.text [PyLib] : PyError → String
  | .valueError m => m
  | .keyError m => PyLib.repr (.str m)
  | .indexError m => m
  | .typeError m => m
  | .attributeError m => m
  | .zeroDivisionError m => m
  | .overflowError m => m
  | .reError m => m
  | .invalidOperation => "[<class 'decimal.InvalidOperation'>]"
  | .stopIteration => ""
  | .decisionValidation m => m
  | .resourceConflict m => m
  | .taskInputResolution expression missing available path =>
    let available := if available.isEmpty then "none" else ", ".intercalate available
    let location := if path = "" then "<root>" else path
    "unresolved task input: " ++ expression ++ "; missing segment: " ++ missing ++
      "; available keys at " ++ location ++ ": " ++ available
  | .taskInputDependency node reference required =>
    "task input reference requires dependency: node " ++ node ++ " references " ++ reference ++
      ", but " ++ required ++ " is not an upstream dependency"
  | .other m => m

end DeviceShell
