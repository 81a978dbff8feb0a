import Mathlib
import DeviceShell.Lib.Dict

/-!
# Python values

The JSON-shaped values that contexts, inputs and outputs hold, with the two notions of Python that
the code relies on when it looks at one: its truth value (`Value.truthy`) and equality (`Value.pyEq`,
under which numbers of different types are equal when their values are, and dictionaries do not
depend on the order of their keys).
-/

namespace DeviceShell

/-- A Python float: an exact rational for every finite float, and the three others. -/
inductive PyFloat where
  | finite (q : ℚ)
  | posInf
  | negInf
  | nan
deriving DecidableEq, Repr

/-- `x == y` on floats: a NaN is equal to nothing. -/
def PyFloat.eq : PyFloat → PyFloat → Bool
  | .finite p, .finite q => p == q
  | .posInf, .posInf => true
  | .negInf, .negInf => true
  | _, _ => false

/-- A Python value of the shape that JSON has. A dictionary is given by its entries. -/
inductive Value where
  | none
  | bool (b : Bool)
  | int (n : ℤ)
  | float (x : PyFloat)
  | str (s : String)
  | list (items : List Value)
  | dict (entries : List (String × Value))

namespace Value

instance : Inhabited Value := ⟨.none⟩

/-- `dict(d)` as a value. -/
def ofDict (d : Dict String Value) : Value := .dict d.entries

/-- `value if isinstance(value, Mapping) else None`. -/
def asDict? : Value → Option (Dict String Value)
  | .dict entries => some ⟨entries⟩
  | _ => Option.none

/-- The text of a string value. -/
def asStr? : Value → Option String
  | .str s => some s
  | _ => Option.none

/-- `bool(value)`. -/
def truthy : Value → Bool
  | .none => false
  | .bool b => b
  | .int n => n != 0
  | .float x => x != .finite 0
  | .str s => s != ""
  | .list items => !items.isEmpty
  | .dict entries => !entries.isEmpty

/-- The number that a value is, a boolean being 0 or 1. -/
def num? : Value → Option PyFloat
  | .bool b => some (.finite (if b then 1 else 0))
  | .int n => some (.finite n)
  | .float x => some x
  | _ => Option.none

mutual

/-- `a == b`. -/
def pyEq : Value → Value → Bool
  | .none, .none => true
  | .str a, .str b => a == b
  | .list xs, .list ys => pyEqItems xs ys
  | .dict d, .dict e => d.length == e.length && pyEqEntries d e
  | v, w => match v.num?, w.num? with
    | some x, some y => x.eq y
    | _, _ => false
termination_by structural v => v

/-- `==` on the items of two lists. -/
def pyEqItems : List Value → List Value → Bool
  | [], [] => true
  | v :: vs, w :: ws => pyEq v w && pyEqItems vs ws
  | _, _ => false
termination_by structural vs => vs

/-- Whether every entry of the first dictionary has an equal value in the second. -/
def pyEqEntries : List (String × Value) → List (String × Value) → Bool
  | [], _ => true
  | (k, v) :: rest, es => (match Dict.lookup k es with
    | some w => pyEq v w
    | Option.none => false) && pyEqEntries rest es
termination_by structural es => es

end

/-- The numbers of the types `int` and `float` are equal by value. -/
example : pyEq (.dict [("a", .int 1), ("b", .none)]) (.dict [("b", .none), ("a", .float (.finite 1))])
    = true := by decide +kernel

end Value

end DeviceShell
