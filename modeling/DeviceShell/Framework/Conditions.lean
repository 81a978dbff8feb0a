import DeviceShell.Lib.Operators
import DeviceShell.Lib.References

/-!
# Condition rules

`framework/conditions.py`: the rules of a condition compare a field of the values with a constant,
and are joined by AND or OR.
-/

namespace DeviceShell.Framework

/-- The value at a path of keys, as far as there are dictionaries on the way. -/
def pathValue : List String → Value → Option Value
  | [], v => some v
  | part :: parts, .dict entries => match Dict.lookup part entries with
    | some v => pathValue parts v
    | none => none
  | _ :: _, _ => none

mutual

/-- `direct` of `_value`: the path itself, or the first nested dictionary in which it leads to
something other than `None`. -/
def directValue (parts : List String) : Value → Value
  | .dict entries => match pathValue parts (.dict entries) with
    | some v => v
    | none => directEntries parts entries
  | _ => .none
termination_by structural v => v

/-- `direct` over the values of a dictionary. -/
def directEntries (parts : List String) : List (String × Value) → Value
  | [] => .none
  | (_, v) :: rest => match directValue parts v with
    | .none => directEntries parts rest
    | found => found
termination_by structural entries => entries

end

/-- `_value`. -/
def fieldValue (values : Value) (field : String) : Value :=
  match (segments field).filter (· ≠ "") with
  | [] => .none
  | parts => directValue parts values

section

variable [PyLib]

/-- The names of an operator. -/
def operatorAliases : List (String × String) :=
  [("等于", "equals"), ("==", "equals"), ("=", "equals"), ("eq", "equals"), ("equals", "equals"),
    ("不等于", "not_equals"), ("!=", "not_equals"), ("<>", "not_equals"), ("ne", "not_equals"),
    ("not_equals", "not_equals"), ("包含", "contains"), ("contains", "contains"),
    ("includes", "contains"), ("不包含", "not_contains"), ("not_contains", "not_contains"),
    ("正则匹配", "regex"), ("regex", "regex"), ("matches", "regex"), ("大于", "greater_than"),
    (">", "greater_than"), ("gt", "greater_than"), ("greater_than", "greater_than"),
    ("小于", "less_than"), ("<", "less_than"), ("lt", "less_than"), ("less_than", "less_than"),
    ("是否为空", "empty"), ("empty", "empty"), ("is_empty", "empty")]

/-- `_normalize_operator`. -/
def normalizeOperator (operator : String) : String :=
  let key := String.ofList ((PyLib.casefold (strip operator)).toList.map fun c =>
    if c == '-' || c == ' ' then '_' else c)
  (Dict.lookup key operatorAliases).getD key

/-- The order of two decimals; with a NaN it raises. -/
def PyDecimal.lt : PyDecimal → PyDecimal → Except PyError Bool
  | .nan, _ => .error .invalidOperation
  | _, .nan => .error .invalidOperation
  | .finite p, .finite q => .ok (decide (p < q))
  | .negInf, .negInf => .ok false
  | .negInf, _ => .ok true
  | .finite _, .posInf => .ok true
  | _, _ => .ok false

/-- `left < right` as the rules compare: as decimals where both are, else as folded texts. -/
def ruleLt (left right : String) : Except PyError Bool :=
  match PyLib.parseDecimal left, PyLib.parseDecimal right with
  | some x, some y => PyDecimal.lt x y
  | _, _ => .ok (textLt (PyLib.casefold left).toList (PyLib.casefold right).toList)

/-- `needle.casefold() in text.casefold()`. -/
def foldedInfix (needle text : String) : Bool :=
  isInfix (PyLib.casefold needle).toList (PyLib.casefold text).toList

/-- `left is None`. -/
def isAbsentLeft : Value → Bool
  | .none => true
  | _ => false

/-- `_compare` of a value that is there, by the name of the operator. -/
def comparePresent (left right : Value) (normalized : String) : Except PyError Bool :=
  let equal := left.pyEq right || PyLib.casefold left.pyStr == PyLib.casefold right.pyStr
  if normalized = "equals" then .ok equal
  else if normalized = "not_equals" then .ok (!equal)
  else if normalized = "contains" then .ok (foldedInfix right.pyStr left.pyStr)
  else if normalized = "not_contains" then .ok (!foldedInfix right.pyStr left.pyStr)
  else if normalized = "regex" then match PyLib.regexRaises right.pyStr with
    | some e => .error e
    | none => .ok ((PyLib.regexSearch right.pyStr left.pyStr).getD false)
  else if normalized = "greater_than" then ruleLt right.pyStr left.pyStr
  else if normalized = "less_than" then ruleLt left.pyStr right.pyStr
  else .ok false

/-- `_compare`. -/
def compareRule (left right : Value) (operator : String) : Except PyError Bool :=
  let normalized := normalizeOperator operator
  if normalized = "empty" then .ok (isAbsentLeft left || isBlank left.pyStr)
  else if isAbsentLeft left then .ok false
  else comparePresent left right normalized

/-- `str(rule.get(key, ""))`. -/
def ruleText (rule : Dict String Value) (key : String) : String :=
  ((rule.get? key).map Value.pyStr).getD ""

/-- `evaluate_rules`. -/
def evaluateRules (rules : List (Dict String Value)) (values : Value) (logicalOperator : String) :
    Except PyError Bool := do
  let results ← (rules.filter fun rule => !isBlank (ruleText rule "field")).mapM fun rule =>
    compareRule (fieldValue values (ruleText rule "field")) ((rule.get? "value").getD (.str ""))
      (ruleText rule "operator")
  if results.isEmpty then return false
  else if PyLib.upper logicalOperator = "OR" then return results.any id
  else return results.all id

end

end DeviceShell.Framework
