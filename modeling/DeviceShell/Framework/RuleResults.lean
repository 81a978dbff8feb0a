import DeviceShell.Lib.Fallible
import DeviceShell.Lib.Text
import DeviceShell.Framework.Conditions

/-!
# The results of condition rules

A condition is made to return: a text that is no decimal is compared as a text, and a pattern that
`re` refuses matches nothing. Two comparisons raise all the same. `Decimal("nan")` is a decimal, but
the order of it with anything raises outside of the `try` (`PyDecimal.lt_returns_iff`), and `re`
refuses some patterns with other exceptions than `re.error`. `ruleResult_returns_iff` says so of one
rule; a list of rules returns exactly when each of its rules does, and then joins their results
(`rulesDecide_iff`).
-/

namespace DeviceShell.Framework

/-! ## One rule -/

/-- The order of two decimals is a boolean unless one of them is a NaN. -/
theorem PyDecimal.lt_returns_iff (x y : PyDecimal) :
    (∃ b, PyDecimal.lt x y = .ok b) ↔ x ≠ .nan ∧ y ≠ .nan := by
  cases x <;> cases y <;> simp [PyDecimal.lt]

variable [PyLib]

/-- Two texts that are decimals, one of them a NaN. -/
def NanOrder (left right : String) : Prop :=
  ∃ x y, PyLib.parseDecimal left = some x ∧ PyLib.parseDecimal right = some y ∧
    (x = .nan ∨ y = .nan)

/-- The two texts may change places. -/
theorem NanOrder.symm {left right : String} (h : NanOrder left right) : NanOrder right left := by
  obtain ⟨x, y, hx, hy, hnan⟩ := h
  exact ⟨y, x, hy, hx, hnan.symm⟩

/-- The order of two texts is a boolean unless they are decimals with a NaN among them. -/
theorem ruleLt_returns_iff (left right : String) :
    (∃ b, ruleLt left right = .ok b) ↔ ¬ NanOrder left right := by
  unfold ruleLt NanOrder
  cases hx : PyLib.parseDecimal left with
  | none => simp
  | some x =>
    cases hy : PyLib.parseDecimal right with
    | none => simp
    | some y =>
      have hlt := PyDecimal.lt_returns_iff x y
      simp only [Option.some.injEq, exists_and_left, exists_eq_left']
      rw [not_or]
      exact hlt

/-- The comparisons of a value that raise. -/
def PresentRaises (left right : Value) (normalized : String) : Prop :=
  ((normalized = "greater_than" ∨ normalized = "less_than") ∧
      NanOrder left.pyStr right.pyStr) ∨
    (normalized = "regex" ∧ PyLib.regexRaises right.pyStr ≠ none)

/-- A comparison of a value returns a boolean unless it is one of those that raise. -/
theorem comparePresent_returns_iff (left right : Value) (normalized : String) :
    (∃ b, comparePresent left right normalized = .ok b) ↔
      ¬ PresentRaises left right normalized := by
  have hless := ruleLt_returns_iff left.pyStr right.pyStr
  have hgreater := ruleLt_returns_iff right.pyStr left.pyStr
  have hsymm : NanOrder right.pyStr left.pyStr ↔ NanOrder left.pyStr right.pyStr :=
    ⟨NanOrder.symm, NanOrder.symm⟩
  rw [hsymm] at hgreater
  unfold PresentRaises comparePresent
  simp only
  split_ifs with h1 h2 h3 h4 hregex hgt hlt
  all_goals try (simp [*]; done)
  · cases hraises : PyLib.regexRaises right.pyStr with
    | none => simp [hregex]
    | some e => simp [hregex]

/-- The comparisons that raise: those of a value that is there. -/
def CompareRaises (left right : Value) (operator : String) : Prop :=
  isAbsentLeft left = false ∧ PresentRaises left right (normalizeOperator operator)

/-- A comparison returns a boolean unless it is one of those that raise. -/
theorem compareRule_returns_iff (left right : Value) (operator : String) :
    (∃ b, compareRule left right operator = .ok b) ↔ ¬ CompareRaises left right operator := by
  have hpresent := comparePresent_returns_iff left right (normalizeOperator operator)
  unfold CompareRaises compareRule
  simp only
  split_ifs with hempty habsent
  · have hnot : ¬ PresentRaises left right (normalizeOperator operator) := by
      simp [PresentRaises, hempty]
    simp [hnot]
  · simp [habsent]
  · rw [hpresent]
    simp [habsent]

/-! ## A list of rules -/

/-- The rules that are evaluated: those that name a field. -/
def namedRules (rules : List (Dict String Value)) : List (Dict String Value) :=
  rules.filter fun rule => !isBlank (ruleText rule "field")

/-- The value that a rule looks at. -/
def ruleLeft (values : Value) (rule : Dict String Value) : Value :=
  fieldValue values (ruleText rule "field")

/-- The value that a rule compares with. -/
def ruleRight (rule : Dict String Value) : Value := (rule.get? "value").getD (.str "")

/-- The result of one rule. -/
def ruleResult (values : Value) (rule : Dict String Value) : Except PyError Bool :=
  compareRule (ruleLeft values rule) (ruleRight rule) (ruleText rule "operator")

/-- A rule that raises: an order between decimals with a NaN, or a pattern that `re` refuses with
another exception than its own. -/
def RuleRaises (values : Value) (rule : Dict String Value) : Prop :=
  CompareRaises (ruleLeft values rule) (ruleRight rule) (ruleText rule "operator")

/-- The results of the rules joined: a condition in which no rule names a field does not hold. -/
def Joined (logicalOperator : String) (results : List Bool) : Prop :=
  results ≠ [] ∧
    if PyLib.upper logicalOperator = "OR" then ∃ r ∈ results, r = true
    else ∀ r ∈ results, r = true

/-- What the rules are for: they give a boolean, which is the AND or the OR of their results. -/
def RulesDecide (rules : List (Dict String Value)) (values : Value) (logicalOperator : String) :
    Prop :=
  ∃ results b, List.Forall₂ (fun rule r => ruleResult values rule = .ok r) (namedRules rules)
      results ∧
    evaluateRules rules values logicalOperator = .ok b ∧ (b = true ↔ Joined logicalOperator results)

/-- Where each rule has a result, so have the rules, and it joins them. -/
theorem evaluateRules_of_results {rules : List (Dict String Value)} {values : Value}
    {results : List Bool} (logicalOperator : String)
    (h : List.Forall₂ (fun rule r => ruleResult values rule = .ok r) (namedRules rules) results) :
    ∃ b, evaluateRules rules values logicalOperator = .ok b ∧
      (b = true ↔ Joined logicalOperator results) := by
  have hresults : (namedRules rules).mapM (ruleResult values) = .ok results :=
    Except.mapM_eq_ok.mpr h
  have heval : evaluateRules rules values logicalOperator =
      (if results.isEmpty then return false
      else if PyLib.upper logicalOperator = "OR" then return results.any id
      else return results.all id) := by
    show ((namedRules rules).mapM (ruleResult values) >>= _) = _
    rw [hresults]
    rfl
  rw [heval]
  unfold Joined
  by_cases hempty : results = []
  · exact ⟨false, by simp [hempty, pure, Except.pure], by simp [hempty]⟩
  · by_cases hor : PyLib.upper logicalOperator = "OR"
    · exact ⟨results.any id, by simp [hempty, hor, pure, Except.pure], by simp [hempty, hor]⟩
    · exact ⟨results.all id, by simp [hempty, hor, pure, Except.pure], by simp [hempty, hor]⟩

/-- The rules decide exactly when none of those that are evaluated raises. -/
theorem rulesDecide_iff (rules : List (Dict String Value)) (values : Value)
    (logicalOperator : String) :
    RulesDecide rules values logicalOperator ↔
      ∀ rule ∈ namedRules rules, ¬ RuleRaises values rule := by
  have hreturns : (∃ results, (namedRules rules).mapM (ruleResult values) = .ok results) ↔
      ∀ rule ∈ namedRules rules, ¬ RuleRaises values rule := by
    rw [Except.mapM_returns_iff]
    exact forall₂_congr fun rule _ => compareRule_returns_iff _ _ _
  rw [← hreturns]
  constructor
  · rintro ⟨results, _, hresults, -⟩
    exact ⟨results, Except.mapM_eq_ok.mpr hresults⟩
  · rintro ⟨results, hresults⟩
    have hforall := Except.mapM_eq_ok.mp hresults
    obtain ⟨b, heval, hjoined⟩ := evaluateRules_of_results logicalOperator hforall
    exact ⟨results, b, hforall, heval, hjoined⟩

/-- The decimals of the tests: plain digits, and the NaN. -/
@[reducible] def PyLib.decimals : PyLib :=
  { PyLib.decimal with
    parseDecimal := fun s =>
      if s = "nan" then some .nan else (decimalText s).map fun n => .finite n }

omit [PyLib] in
/-- A threshold that is no number fails the condition with an exception. -/
theorem not_rulesDecide_nan :
    letI := PyLib.decimals
    ¬ RulesDecide [⟨[("field", .str "load"), ("operator", .str ">"), ("value", .str "nan")]⟩]
      (.dict [("load", .str "1")]) "AND" := by
  have hraises : @evaluateRules PyLib.decimals
      [⟨[("field", .str "load"), ("operator", .str ">"), ("value", .str "nan")]⟩]
      (.dict [("load", .str "1")]) "AND" = .error .invalidOperation := by
    decide +kernel
  rintro ⟨results, b, -, heval, -⟩
  rw [hraises] at heval
  cases heval

end DeviceShell.Framework
