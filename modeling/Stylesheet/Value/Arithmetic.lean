import Stylesheet.Error
import Stylesheet.Value.Printer

/-!
# Arithmetic and comparison

* `Operator.compatible`: which kinds of units an operator combines.
* `Quantity.apply`: arithmetic on two quantities.
* `Value.combine`: a binary operator on two evaluated values.
-/

namespace Stylesheet

/-- Whether an operator combines operands of these kinds. -/
def Operator.compatible (op : Operator) (left right : UnitKind) : Bool :=
  match op with
  | .divide => false
  | .add | .subtract => left == right
  | .multiply =>
    left == right || left == .number || left == .percentage || right == .number ||
      right == .percentage
  | .modulo => right == .number
  | .equal | .notEqual | .greater | .greaterEqual | .less | .lessEqual => true

/-- The arithmetic of an operator on bare numbers. -/
def Operator.calculate? : Operator → Option (Float → Float → Float)
  | .add => some (· + ·)
  | .subtract => some (· - ·)
  | .multiply => some (· * ·)
  | .modulo => some Binary.remainder
  | .divide | .equal | .notEqual | .greater | .greaterEqual | .less | .lessEqual => none

/-- Arithmetic on two quantities. A number without a unit takes the other unit, except that a
remainder keeps the unit of its dividend. -/
def Quantity.apply (op : Operator) (left right : Quantity) : Except CompileError Quantity :=
  match op.calculate? with
  | some calculate =>
    if op.compatible left.kind right.kind then
      let unit := if left.kind = .number ∧ op ≠ .modulo then right.unit else left.unit
      .ok ⟨calculate left.number right.number, unit⟩
    else .error (.typeIncompatible op left.text right.text)
  | none => .error (.typeIncompatible op left.text right.text)

namespace Value

/-- The number that a value stands for: that of a quantity, or of a literal that is a numeral. -/
def asNumber : Value → Except CompileError Float
  | .quantity q => .ok q.number
  | .literal s =>
    match Numeral.read? s with
    | some n => .ok n.toDouble
    | none => .error (.notANumber s)
  | v => .error (.notANumber v.text)

/-- The text by which values are compared for equality. -/
def comparisonText : Value → String
  | .undefined _ => "undefined"
  | v => v.text

/-- An order on numbers, decided after both sides are known to be numbers. -/
def order (holds : Float → Float → Bool) (left right : Value) : Except CompileError Value := do
  let l ← left.asNumber
  let r ← right.asNumber
  return .boolean (holds l r)

/-- Arithmetic on values, which have to be quantities. -/
def arithmetic (op : Operator) : Value → Value → Except CompileError Value
  | .quantity l, .quantity r => (l.apply op r).map .quantity
  | left, right => .error (.typeIncompatible op left.text right.text)

/-- A binary operator on two evaluated values. -/
def combine (left : Value) (op : Operator) (right : Value) : Except CompileError Value :=
  match op with
  | .equal => .ok (.boolean (left.comparisonText == right.comparisonText))
  | .notEqual => .ok (.boolean (left.comparisonText != right.comparisonText))
  | .greater => order (fun l r => decide (l > r)) left right
  | .greaterEqual => order (fun l r => decide (l ≥ r)) left right
  | .less => order (fun l r => decide (l < r)) left right
  | .lessEqual => order (fun l r => decide (l ≤ r)) left right
  | op => arithmetic op left right

end Value

end Stylesheet
