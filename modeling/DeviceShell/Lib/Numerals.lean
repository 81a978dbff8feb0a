import DeviceShell.Lib.Operators
import DeviceShell.Lib.Text
import Mathlib.Tactic.Positivity

/-!
# Numbers that a text spells

What `int`, `float` and their products do with decimal numerals, the rest of the floating point
arithmetic being left open: an instance of `PyNumbers` is a library that behaves as Python's does on
them. A numeral is read as a float by rounding, and as infinity from some number on; an integer of
too many digits is refused.
-/

namespace DeviceShell

/-- The float next to a number that is not negative. -/
def PyFloat.nearest (toNearest : ℚ → ℚ) (limit q : ℚ) : PyFloat :=
  if q < limit then .finite (toNearest q) else .posInf

section

variable [PyLib]

/-- `\d`. -/
def isDigit (c : Char) : Bool := (PyLib.digit c).isSome

/-- The number that digits spell. -/
def digitsValue (s : List Char) : ℕ := s.foldl (fun n c => 10 * n + (PyLib.digit c).getD 0) 0

/-- Digits, or digits with a point before the last of them. -/
def isNumeral (s : List Char) : Bool :=
  match s.dropWhile isDigit with
  | [] => !s.isEmpty
  | c :: fraction => c == '.' && !fraction.isEmpty && fraction.all isDigit

/-- The number that a numeral spells. -/
def numeralValue (s : List Char) : ℚ :=
  let fraction := (s.dropWhile isDigit).drop 1
  digitsValue (s.takeWhile isDigit) + digitsValue fraction / 10 ^ fraction.length

/-- A library that reads and multiplies numerals as Python's does. -/
class PyNumbers where
  /-- `sys.get_int_max_str_digits()`. -/
  maxStrDigits : ℕ
  /-- The least number that rounds to infinity: `2^1024 - 2^970`. -/
  limit : ℚ
  /-- The rounding of a number below it. -/
  toNearest : ℚ → ℚ
  toNearest_nonneg {q : ℚ} (h : 0 ≤ q) : 0 ≤ toNearest q
  /-- Rounding comes to no other side of the limit, also when the exponent grows later. -/
  toNearest_scaled {q : ℚ} {k : ℕ} (h : 0 ≤ q) (hk : k ≤ 40) :
    toNearest q * 2 ^ k < limit ↔ q * 2 ^ k < limit
  digit_point : PyLib.digit '.' = none
  digit_comma : PyLib.digit ',' = none
  parseInt_empty : PyLib.parseInt "" = none
  parseInt_digits {s : String} (h : s ≠ "") (hs : ∀ c ∈ s.toList, isDigit c = true) :
    PyLib.parseInt s =
      if s.toList.length ≤ maxStrDigits then some (digitsValue s.toList : ℤ) else none
  parseFloat_empty : PyLib.parseFloat "" = none
  parseFloat_numeral {s : String} (h : isNumeral s.toList = true) :
    PyLib.parseFloat s = some (.nearest toNearest limit (numeralValue s.toList))
  mul_float {q : ℚ} {n : ℤ} (hq : 0 ≤ q) (hn : 0 < n) :
    PyLib.floatArith .mul (.float (.finite q)) (.int n) = .ok (.nearest toNearest limit (q * n))
  mul_infinite {n : ℤ} (hn : 0 < n) :
    PyLib.floatArith .mul (.float .posInf) (.int n) = .ok .posInf
  mul_int {n : ℤ} {q : ℚ} (hn : 0 < n) (hlimit : (n : ℚ) < limit) (hq : 0 ≤ q) :
    PyLib.floatArith .mul (.int n) (.float (.finite q)) =
      .ok (.nearest toNearest limit (toNearest n * q))

end

/-- The library on ASCII texts, with the numerals up to the limits that Python has. -/
@[reducible] def PyLib.numerals : PyLib :=
  let := PyLib.decimal
  { PyLib.decimal with
    parseInt := fun s => if s ≠ "" ∧ s.toList.all isDigit ∧ s.toList.length ≤ 4300 then
        some (digitsValue s.toList)
      else none
    parseFloat := fun s => if isNumeral s.toList then
        some (.nearest id (2 ^ 1024 - 2 ^ 970) (numeralValue s.toList))
      else none
    floatArith := fun op v w => match op, v.num?, w.num? with
      | .mul, some (.finite p), some (.finite q) =>
        .ok (.nearest id (2 ^ 1024 - 2 ^ 970) (p * q))
      | .mul, some .posInf, some _ => .ok .posInf
      | _, _, _ => .error (.overflowError "") }

/-- Its numbers are those of a library whose floats are exact below infinity. -/
@[reducible] def PyNumbers.exact : @PyNumbers PyLib.numerals :=
  let := PyLib.numerals
  { maxStrDigits := 4300
    limit := 2 ^ 1024 - 2 ^ 970
    toNearest := id
    toNearest_nonneg := fun h => h
    toNearest_scaled := fun _ _ => Iff.rfl
    digit_point := rfl
    digit_comma := rfl
    parseInt_empty := rfl
    parseInt_digits := by
      intro s h hs
      have hall : s.toList.all isDigit = true := List.all_eq_true.mpr hs
      show (if s ≠ "" ∧ s.toList.all isDigit = true ∧ _ then _ else _) = _
      simp only [hall, ne_eq, h, not_false_eq_true, true_and]
      rfl
    parseFloat_empty := rfl
    parseFloat_numeral := fun h => if_pos h
    mul_float := fun _ _ => rfl
    mul_infinite := fun _ => rfl
    mul_int := fun _ _ _ => rfl }

section

variable [PyLib]

/-! ## Reading -/

theorem toInt_str (s : String) : (Value.str s).toInt = match PyLib.parseInt s with
    | some n => .ok n
    | none => .error (.valueError "invalid literal for int()") := rfl

theorem toFloat_str (s : String) : (Value.str s).toFloat = match PyLib.parseFloat s with
    | some x => .ok x
    | none => .error (.valueError "could not convert string to float") := rfl

theorem numeralValue_nonneg (s : List Char) : 0 ≤ numeralValue s := by
  unfold numeralValue
  positivity

variable [PyNumbers]

open PyNumbers

/-- `int` reads digits, unless they are none or too many. -/
theorem toInt_digits_iff {s : String} (hs : ∀ c ∈ s.toList, isDigit c = true) :
    (∃ n, (Value.str s).toInt = .ok n) ↔ s ≠ "" ∧ s.toList.length ≤ maxStrDigits := by
  rw [toInt_str]
  by_cases hempty : s = ""
  · rw [hempty, parseInt_empty]
    simp
  · rw [parseInt_digits hempty hs]
    by_cases hlength : s.toList.length ≤ maxStrDigits
    · rw [if_pos hlength]
      simp [hempty, hlength]
    · rw [if_neg hlength]
      simp [hlength]

theorem toInt_digits_nonneg {s : String} (hs : ∀ c ∈ s.toList, isDigit c = true) {n : ℤ}
    (h : (Value.str s).toInt = .ok n) : 0 ≤ n := by
  obtain ⟨hempty, hlength⟩ := (toInt_digits_iff hs).mp ⟨n, h⟩
  rw [toInt_str, parseInt_digits hempty hs, if_pos hlength] at h
  cases h
  omega

/-- The number of bytes that a numeral and a factor give. -/
def scaledInt (s : String) (factor : ℤ) : Except PyError ℤ := do
  let number ← (Value.str s).toFloat
  (← Value.arith .mul (.float number) (.int factor)).toInt

/-- The number that a nearest float is truncated to. -/
theorem toInt_nearest {q : ℚ} (hq : 0 ≤ q) :
    (Value.float (.nearest toNearest limit q)).toInt =
      if q < limit then .ok ⌊toNearest q⌋
      else .error (.overflowError "cannot convert float infinity to integer") := by
  unfold PyFloat.nearest
  split
  · have hround := toNearest_nonneg hq
    show Except.ok (if toNearest q < 0 then _ else _) = _
    rw [if_neg (not_lt.mpr hround)]
    rfl
  · rfl

/-- What a numeral times a factor comes to, where it is below the limit. -/
theorem scaledInt_numeral {s : String} (hs : isNumeral s.toList = true) {k : ℕ} (hk : k ≤ 40) :
    scaledInt s (2 ^ k) =
      if numeralValue s.toList * 2 ^ k < limit then
        .ok ⌊toNearest (toNearest (numeralValue s.toList) * 2 ^ k)⌋
      else .error (.overflowError "cannot convert float infinity to integer") := by
  have hvalue := numeralValue_nonneg s.toList
  have hfloat : (Value.str s).toFloat = .ok (.nearest toNearest limit (numeralValue s.toList)) := by
    rw [toFloat_str, parseFloat_numeral hs]
  have hpow : (0 : ℤ) < 2 ^ k := by positivity
  have harith (x : PyFloat) : Value.arith .mul (.float x) (.int (2 ^ k)) =
      (PyLib.floatArith .mul (.float x) (.int (2 ^ k))).map .float := by
    cases x <;> rfl
  unfold scaledInt
  rw [hfloat]
  show (Value.arith .mul (.float _) (.int (2 ^ k))).bind _ = _
  rw [harith]
  by_cases hlimit : numeralValue s.toList < limit
  · have hcast : ((2 ^ k : ℤ) : ℚ) = 2 ^ k := by push_cast; rfl
    rw [PyFloat.nearest, if_pos hlimit, mul_float (toNearest_nonneg hvalue) hpow, hcast]
    have hscaled : (0 : ℚ) ≤ toNearest (numeralValue s.toList) * 2 ^ k :=
      mul_nonneg (toNearest_nonneg hvalue) (by positivity)
    refine (toInt_nearest hscaled).trans ?_
    simp only [toNearest_scaled hvalue hk]
  · have hone : numeralValue s.toList * 1 ≤ numeralValue s.toList * 2 ^ k :=
      mul_le_mul_of_nonneg_left (one_le_pow₀ (by norm_num)) hvalue
    have hlarge : ¬numeralValue s.toList * 2 ^ k < limit := by
      intro hlt
      exact hlimit (by linarith)
    rw [PyFloat.nearest, if_neg hlimit, mul_infinite hpow, if_neg hlarge]
    rfl

theorem scaledInt_empty (factor : ℤ) :
    scaledInt "" factor = .error (.valueError "could not convert string to float") := by
  unfold scaledInt
  rw [toFloat_str, parseFloat_empty]
  rfl

/-- A share of a number can be taken, when a float can hold the number. -/
theorem toInt_share {n : ℤ} {q : ℚ} (hn : 0 < n) (hlimit : (n : ℚ) < limit) (hq : 0 ≤ q)
    (hone : q ≤ 1) : ∃ share, (do (← Value.arith .mul (.int n) (.float (.finite q))).toInt) =
      (.ok share : Except PyError ℤ) := by
  have hn' : (0 : ℚ) ≤ n := by exact_mod_cast hn.le
  have hround := toNearest_nonneg hn'
  have hbelow : toNearest (n : ℚ) < limit := by
    have hscaled := toNearest_scaled (k := 0) hn' (by omega)
    simp only [pow_zero, mul_one] at hscaled
    exact hscaled.mpr hlimit
  have hshare : toNearest (n : ℚ) * q < limit :=
    (mul_le_of_le_one_right hround hone).trans_lt hbelow
  have harith : Value.arith .mul (.int n) (.float (.finite q)) =
      (PyLib.floatArith .mul (.int n) (.float (.finite q))).map .float := rfl
  refine ⟨⌊toNearest (toNearest (n : ℚ) * q)⌋, ?_⟩
  show (Value.arith .mul (.int n) (.float (.finite q))).bind _ = _
  rw [harith, mul_int hn hlimit hq]
  exact (toInt_nearest (mul_nonneg hround hq)).trans (if_pos hshare)

end

end DeviceShell
