import DeviceShell.Lib.Operators
import DeviceShell.Lib.References

/-!
# Restricted expressions

`framework/expression.py`: an expression is a text with `${path}` references, which are bound to
fresh names before Python's parser sees it; the tree is checked against a short list of allowed
constructs and evaluated over a map of values.
-/

namespace DeviceShell.Framework

/-- `[A-Za-z_]`. -/
def isNameStart (c : Char) : Bool := ('A' ≤ c && c ≤ 'Z') || ('a' ≤ c && c ≤ 'z') || c == '_'

/-- `[A-Za-z0-9_-]`. -/
def isNameChar (c : Char) : Bool := isNameStart c || ('0' ≤ c && c ≤ '9') || c == '-'

/-- `[A-Za-z_][A-Za-z0-9_-]*(?:\.[A-Za-z0-9_-]+)*`. -/
def isBindingPath (path : List Char) : Bool :=
  match splitDots path with
  | (c :: cs) :: rest =>
    isNameStart c && cs.all isNameChar && rest.all fun part => !part.isEmpty && part.all isNameChar
  | _ => false

/-- `_REFERENCE` at the start of a text. -/
def matchBinding (text : List Char) : Option (List Char × List Char) :=
  match matchReference text with
  | some (path, after) => if isBindingPath path then some (path, after) else none
  | none => none

/-- The index that a segment of digits is, where `isdigit` holds; a segment is ASCII. -/
def digitIndex (segment : String) : Option ℕ :=
  if segment ≠ "" && segment.toList.all Char.isDigit then
    some (segment.toList.foldl (fun n c => 10 * n + (c.toNat - 48)) 0)
  else none

/-- The value that the segments of a reference lead to. -/
def bindingValue (expression : String) (values : Value) : List String → Except PyError Value
  | [] => .ok values
  | segment :: rest => do
    let next ← match values with
      | .dict entries => match Dict.lookup segment entries with
        | some v => pure v
        | none => throw (.keyError segment)
      | .list items => match digitIndex segment with
        | some n => match items[n]? with
          | some v => pure v
          | none => throw (.indexError "list index out of range")
        | none => throw (.valueError ("unresolved expression reference: " ++ expression))
      | _ => throw (.valueError ("unresolved expression reference: " ++ expression))
    bindingValue expression next rest

/-- The parts of a text and the bound names, from left to right. -/
def bindParts (values : Option (Dict String Value)) :
    List (Char ⊕ List Char) → Dict String Value → Except PyError (List String × Dict String Value)
  | [], bound => .ok ([], bound)
  | .inl c :: rest, bound => do
    let (parts, bound) ← bindParts values rest bound
    return (String.singleton c :: parts, bound)
  | .inr path :: rest, bound => do
    let name := "bindingref" ++ toString bound.entries.length
    let bound ← match values with
      | none => pure bound
      | some values => do
        let path := String.ofList path
        pure (bound.set name (← bindingValue (referenceText path) (.ofDict values) (segments path)))
    let (parts, bound) ← bindParts values rest bound
    return (name :: parts, bound)

/-- `_bind_references`. -/
def bindReferences (expression : String) (values : Option (Dict String Value)) :
    Except PyError (String × Dict String Value) := do
  let (parts, bound) ← bindParts values (scan matchBinding expression) (values.getD ∅)
  return (String.join parts, bound)

/-- The error of an expression that is not allowed. -/
def unsupportedSyntax : PyError := .valueError "unsupported expression syntax"

/-- A name that does not start with an underscore. -/
def isPublic (name : String) : Bool :=
  match name.toList with
  | '_' :: _ => false
  | _ => true

section

variable [PyLib]

mutual

/-- `_validate`. -/
def validateAst : Ast → Except PyError Unit
  | .constant value => match value with
    | .list _ => .error unsupportedSyntax
    | .dict _ => .error unsupportedSyntax
    | _ => .ok ()
  | .name id => if isPublic id then .ok () else .error unsupportedSyntax
  | .attribute value attr =>
    if isPublic attr then validateAst value else .error unsupportedSyntax
  | .subscript value slice => do
    validateAst value
    validateAst slice
  | .list elts => validateAsts elts
  | .tuple elts => validateAsts elts
  | .dict entries => validateEntries entries
  | .call func args hasKeywords => match func, args, hasKeywords with
    | .name "regex_match", [pattern, text], false => do
      validateAst pattern
      validateAst text
      match pattern with
      | .constant (.str p) => match PyLib.regexRaises p with
        | some e => .error e
        | none =>
          if (PyLib.regexSearch p "").isNone then .error (.valueError "unsupported expression regex")
          else .ok ()
      | _ => .ok ()
    | _, _, _ => .error unsupportedSyntax
  | .boolOp _ values => validateAsts values
  | .unaryOp _ operand => validateAst operand
  | .binOp _ left right => do
    validateAst left
    validateAst right
  | .compare left _ comparators => do
    validateAst left
    validateAsts comparators
  | .other => .error unsupportedSyntax
termination_by structural node => node

/-- `_validate` of every node of a list. -/
def validateAsts : List Ast → Except PyError Unit
  | [] => .ok ()
  | node :: rest => do
    validateAst node
    validateAsts rest
termination_by structural nodes => nodes

/-- `_validate` of the keys and values of a dictionary in turn. -/
def validateEntries : List (Ast × Ast) → Except PyError Unit
  | [] => .ok ()
  | (key, value) :: rest => do
    validateAst key
    validateAst value
    validateEntries rest
termination_by structural entries => entries

end

/-- `validate_expression`. -/
def validateExpression (expression : String) : Except PyError Unit := do
  let (source, _) ← bindReferences (strip expression) none
  if source = "" || 4096 < source.length then
    throw unsupportedSyntax
  match PyLib.parseExpression source with
  | none => throw unsupportedSyntax
  | some (tree, nodes) =>
    if 200 < nodes then
      throw (.valueError "unsupported expression complexity")
    validateAst tree

mutual

/-- `_evaluate`. -/
def evaluateAst (values : Dict String Value) : Ast → Except PyError Value
  | .constant value => .ok value
  | .name id => match values.get? id with
    | some v => .ok v
    | none => .error (.keyError id)
  | .attribute value attr => do
    match ← evaluateAst values value with
    | .dict entries => match Dict.lookup attr entries with
      | some v => return v
      | none => throw (.valueError "unsupported expression attribute")
    | _ => throw (.valueError "unsupported expression attribute")
  | .subscript value slice => do
    let owner ← evaluateAst values value
    owner.subscript (← evaluateAst values slice)
  | .list elts => do return .list (← evaluateAsts values elts)
  | .tuple elts => do return .list (← evaluateAsts values elts)
  | .dict entries => do
    let entries ← evaluateEntries values entries
    return .ofDict (entries.foldl (fun d e => d.set e.1 e.2) ∅)
  | .call func args hasKeywords => match func, args, hasKeywords with
    | .name "regex_match", [pattern, text], _ => do
      let pattern ← evaluateAst values pattern
      let text ← evaluateAst values text
      match PyLib.regexRaises pattern.pyStr, PyLib.regexSearch pattern.pyStr text.pyStr with
      | some e, _ => throw e
      | none, some found => return .bool found
      | none, none => throw (.reError "")
    | _, _, _ => .error unsupportedSyntax
  | .boolOp isAnd operands => evaluateBool values isAnd (.bool isAnd) operands
  | .unaryOp op operand => do Value.unary op (← evaluateAst values operand)
  | .binOp op left right => do
    let left ← evaluateAst values left
    Value.arith op left (← evaluateAst values right)
  | .compare left ops comparators => do
    evaluateCompare values (← evaluateAst values left) ops comparators
  | .other => .error unsupportedSyntax
termination_by structural node => node

/-- `_evaluate` of every node of a list. -/
def evaluateAsts (values : Dict String Value) : List Ast → Except PyError (List Value)
  | [] => .ok []
  | node :: rest => do
    let value ← evaluateAst values node
    return value :: (← evaluateAsts values rest)
termination_by structural nodes => nodes

/-- `_evaluate` of the entries of a dictionary. -/
def evaluateEntries (values : Dict String Value) :
    List (Ast × Ast) → Except PyError (List (String × Value))
  | [] => .ok []
  | (key, value) :: rest => do
    match ← evaluateAst values key with
    | .str k => do
      let v ← evaluateAst values value
      return (k, v) :: (← evaluateEntries values rest)
    | _ => throw (.typeError "keys must be texts")
termination_by structural entries => entries

/-- `and` and `or`: the operands are evaluated up to the first that decides. -/
def evaluateBool (values : Dict String Value) (isAnd : Bool) (result : Value) :
    List Ast → Except PyError Value
  | [] => .ok result
  | node :: rest => do
    let value ← evaluateAst values node
    if value.truthy == isAnd then evaluateBool values isAnd value rest else return value
termination_by structural nodes => nodes

/-- A chain of comparisons, evaluated up to the first that fails. -/
def evaluateCompare (values : Dict String Value) (left : Value) :
    List CmpOp → List Ast → Except PyError Value
  | op :: ops, node :: rest => do
    let right ← evaluateAst values node
    if ← left.compareOp op right then evaluateCompare values right ops rest else return .bool false
  | _, _ => .ok (.bool true)
termination_by structural _ nodes => nodes

end

/-- The exceptions that `evaluate_expression` reports as an unsupported expression. -/
def isExpressionError : PyError → Bool
  | .valueError _ | .keyError _ | .indexError _ | .typeError _ | .zeroDivisionError _
  | .reError _ => true
  | _ => false

/-- `evaluate_expression`. -/
def evaluateExpression (expression : String) (values : Dict String Value) :
    Except PyError Value :=
  let result : Except PyError Value := do
    let (source, bound) ← bindReferences (strip expression) (some values)
    validateExpression source
    match PyLib.parseExpression source with
    | none => throw unsupportedSyntax
    | some (tree, _) => evaluateAst bound tree
  match result with
  | .ok v => .ok v
  | .error e =>
    if isExpressionError e then
      match e with
      | .valueError m =>
        if "unsupported expression".isPrefixOf m then .error e
        else .error (.valueError ("unsupported expression: " ++ expression))
      | _ => .error (.valueError ("unsupported expression: " ++ expression))
    else .error e

end

end DeviceShell.Framework
