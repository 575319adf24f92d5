import HtmlTemplate.Value.Basic

namespace HtmlTemplate
namespace Value

/-!
# Equality of values

Values of different types are never equal.  Floats compare as numbers, so a
value that contains a NaN differs from itself.  Markup compares by its bytes,
zoned times by the moment, and objects by their identity.
-/

mutual

/-- Whether two values are equal. -/
def equal : Value -> Value -> Bool
  | .nil, .nil => true
  | .bool left, .bool right => left == right
  | .int left, .int right => left == right
  | .float left, .float right => left == right
  | .str left, .str right => left == right
  | .atom left, .atom right => left == right
  | .list left, .list right => equalItems left right
  | .tuple left, .tuple right => equalItems left right
  | .map left, .map right => equalEntries left right
  | .markup left, .markup right => left == right
  | .date left, .date right => left == right
  | .time left, .time right => left == right
  | .dateTime left, .dateTime right => left == right
  | .zonedDateTime left, .zonedDateTime right => left.sameInstant right
  | .object left _, .object right _ => left.identity == right.identity
  | _, _ => false

/-- Whether two lists are equal element by element. -/
def equalItems : List Value -> List Value -> Bool
  | [], [] => true
  | left :: lefts, right :: rights => equal left right && equalItems lefts rights
  | _, _ => false

/-- Whether two sorted association lists have the same keys and values. -/
def equalEntries : List (String × Value) -> List (String × Value) -> Bool
  | [], [] => true
  | (key, left) :: lefts, (other, right) :: rights =>
      key == other && equal left right && equalEntries lefts rights
  | _, _ => false

end

instance : BEq Value := ⟨equal⟩

end Value
end HtmlTemplate
