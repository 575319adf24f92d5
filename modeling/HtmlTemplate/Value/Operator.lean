import HtmlTemplate.Syntax.Tree
import HtmlTemplate.Value.Display
import HtmlTemplate.Value.Order

namespace HtmlTemplate

/-!
# Operators on values

Arithmetic on two integers stays within 64 bits or is refused; with a float on
either side it is done on floats.  Division always yields a float and refuses
the divisor zero.  A range is built at once, so its length is limited.
-/

namespace Operator

/-- How many integers a range may hold. -/
def maxRangeLength : Nat := 1048576

/-- The integers from one bound to the other, both included, upwards or
downwards. -/
def integersBetween (first last : Int64) : List Value :=
  let first := first.toInt
  let last := last.toInt
  (List.range ((last - first).natAbs + 1)).map fun (step : Nat) =>
    .int (Int64.ofInt (if first ≤ last then first + (step : Int) else first - (step : Int)))

/-- A range, if it is short enough. -/
def range? (first last : Int64) : Option Value :=
  if (last.toInt - first.toInt).natAbs < maxRangeLength then
    some (.list (integersBetween first last))
  else none

/-- Arithmetic on two integers or on two numbers as floats. -/
def arithmetic? (onInts : Int -> Int -> Int) (onFloats : Float -> Float -> Float)
    (left right : Value) : Option Value :=
  match left, right with
  | .int left, .int right => (int64? (onInts left.toInt right.toInt)).map .int
  | _, _ => do
      let left ← left.toFloat?
      let right ← right.toFloat?
      return .float (onFloats left right)

/-- Division of two numbers as floats. -/
def divide? (left right : Value) : Option Value := do
  let left ← left.toFloat?
  let right ← right.toFloat?
  if right == 0 then none else some (.float (left / right))

/-- The result of an operator, if it takes the operands. -/
def result? (op : Operator) (left right : Value) : Option Value :=
  match op with
  | .equal => some (.bool (left.looselyEqual right))
  | .unequal => some (.bool !left.looselyEqual right)
  | .less => (left.compare? right).map fun order => .bool (order == .lt)
  | .greater => (left.compare? right).map fun order => .bool (order == .gt)
  | .atMost => (left.compare? right).map fun order => .bool (order != .gt)
  | .atLeast => (left.compare? right).map fun order => .bool (order != .lt)
  | .concat =>
      match left, right with
      | .str left, .str right => some (.str (left ++ right))
      | _, _ => none
  | .range =>
      match left, right with
      | .int first, .int last => range? first last
      | _, _ => none
  | .add => arithmetic? (· + ·) (· + ·) left right
  | .subtract => arithmetic? (· - ·) (· - ·) left right
  | .multiply => arithmetic? (· * ·) (· * ·) left right
  | .divide => divide? left right

/-- The result of an operator.  The error shows both operands. -/
def apply (op : Operator) (left right : Value) : Except Error Value :=
  match op.result? left right with
  | some result => .ok result
  | none => .error (.badOperand op.text (left.display ++ ", " ++ right.display))

end Operator

namespace UnaryOp

/-- The negative of a number, if it has one. -/
def negate? : Value -> Option Value
  | .int value => (int64? (-value.toInt)).map .int
  | .float value => some (.float (-value))
  | _ => none

/-- The result of an operator in front of an operand. -/
def apply (op : UnaryOp) (value : Value) : Except Error Value :=
  match op with
  | .bang => .ok (.bool !value.isTruthy)
  | .not => .ok (.bool !value.isTruthy)
  | .minus =>
      match negate? value with
      | some result => .ok result
      | none => .error (value.badOperand "-")

end UnaryOp
end HtmlTemplate
