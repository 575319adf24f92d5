import HtmlTemplate.Decimal.Binary
import HtmlTemplate.Value.Equality

namespace HtmlTemplate
namespace Value

/-!
# Comparing values

Integers and floats compare as numbers with each other.  Strings compare by
code point, as do atoms, and calendar values by time.  Nothing else has an
order, and neither does a float that is not a number.
-/

/-- A number as a float. -/
def toFloat? : Value -> Option Float
  | .int value => some (BinaryNumber.floatOfInt value.toInt)
  | .float value => some value
  | _ => none

/-- The order of two floats, if they have one. -/
def compareFloats? (left right : Float) : Option Ordering :=
  if left < right then some .lt
  else if left == right then some .eq
  else if right < left then some .gt
  else none

/-- The order of two numbers, if they have one. -/
def compareNumbers? (left right : Value) : Option Ordering := do
  let left ← left.toFloat?
  let right ← right.toFloat?
  compareFloats? left right

/-- The order of two values, if they have one. -/
def compare? : Value -> Value -> Option Ordering
  | .int left, .int right => some (compare left.toInt right.toInt)
  | .str left, .str right => some (compare left right)
  | .atom left, .atom right => some (compare left right)
  | .date left, .date right => some (left.compare right)
  | .time left, .time right => some (left.compare right)
  | .dateTime left, .dateTime right => some (left.compare right)
  | .zonedDateTime left, .zonedDateTime right => some (left.compare right)
  | left, right => compareNumbers? left right

/-- Equality as the operators see it: an integer may equal a float. -/
def looselyEqual (left right : Value) : Bool :=
  match left, right with
  | .int a, .float b => BinaryNumber.floatOfInt a.toInt == b
  | .float a, .int b => a == BinaryNumber.floatOfInt b.toInt
  | _, _ => left == right

end Value
end HtmlTemplate
