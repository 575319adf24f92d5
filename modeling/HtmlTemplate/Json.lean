import HtmlTemplate.Decimal.Binary
import HtmlTemplate.Value.Basic

namespace HtmlTemplate

/-!
# JSON documents as values

A number keeps the digits it was written with.  One without a point and an
exponent is an integer if it fits into 64 bits; every other number is a float.
The float is the leading digits, as many as fit into 64 bits, scaled by a power
of ten in float arithmetic, so its last bit may differ from the nearest float.
-/

/-- A number as it is written. -/
structure JsonNumber where
  negative : Bool
  whole : List Char
  fraction : Option (List Char)
  exponent : Option Int

/-- A JSON document.  The members of an object are in the order they were
written. -/
inductive Json where
  | null
  | bool (value : Bool)
  | number (value : JsonNumber)
  | string (text : String)
  | array (items : List Json)
  | object (members : List (String × Json))

/-- Leading digits and the power of ten that scales them. -/
structure ScaledDigits where
  digits : Nat := 0
  exponent : Int := 0

namespace ScaledDigits

/-- Digits stay below this bound. -/
def bound : Nat := 0x10000000000000000

/-- Whether another digit fits. -/
def fits (scaled : ScaledDigits) (digit : Nat) : Bool :=
  10 * scaled.digits + digit < bound

/-- Read digits in front of the point.  Those that do not fit still scale the
number. -/
def readWhole (scaled : ScaledDigits) : List Char -> ScaledDigits
  | [] => scaled
  | c :: rest =>
      let digit := c.toNat - '0'.toNat
      if scaled.fits digit then
        readWhole { scaled with digits := 10 * scaled.digits + digit } rest
      else { scaled with exponent := scaled.exponent + (rest.length + 1 : Nat) }

/-- Read digits behind the point, up to the first that does not fit. -/
def readFraction (scaled : ScaledDigits) : List Char -> ScaledDigits
  | [] => scaled
  | c :: rest =>
      let digit := c.toNat - '0'.toNat
      if scaled.fits digit then
        readFraction ⟨10 * scaled.digits + digit, scaled.exponent - 1⟩ rest
      else scaled

/-- The largest power of ten that a float can hold. -/
def largestPower : Nat := 308

/-- A power of ten as a float. -/
def powerOfTen (exponent : Nat) : Float :=
  BinaryNumber.floatOfInt (Nat.pow 10 exponent)

/-- Divide by a power of ten.  Beyond the largest power it is done in steps,
and `steps` bounds their number. -/
def divideByPower (value : Float) (exponent : Nat) : Nat -> Float
  | 0 => value
  | steps + 1 =>
      if exponent ≤ largestPower then value / powerOfTen exponent
      else if value == 0 then value
      else divideByPower (value / powerOfTen largestPower) (exponent - largestPower) steps

/-- The scaled number.  Three steps reach zero from the largest digits. -/
def toFloat (scaled : ScaledDigits) : Float :=
  let value := BinaryNumber.floatOfInt scaled.digits
  if value == 0 then value
  else if 0 ≤ scaled.exponent then
    value * powerOfTen (min scaled.exponent.toNat (2 * largestPower))
  else divideByPower value (-scaled.exponent).toNat 4

end ScaledDigits

namespace JsonNumber

/-- The value of a number without a point and an exponent, unless it is minus
zero. -/
def integer? (number : JsonNumber) : Option Int :=
  match number.fraction, number.exponent with
  | none, none =>
      let size : Int := number.whole.foldl (fun size c => 10 * size + (c.toNat - '0'.toNat)) 0
      if number.negative ∧ size = 0 then none
      else some (if number.negative then -size else size)
  | _, _ => none

/-- A number as a float. -/
def toFloat (number : JsonNumber) : Float :=
  let scaled := (ScaledDigits.readWhole {} number.whole).readFraction (number.fraction.getD [])
  let scaled := { scaled with exponent := scaled.exponent + number.exponent.getD 0 }
  if number.negative then -scaled.toFloat else scaled.toFloat

/-- A number as a value. -/
def toValue (number : JsonNumber) : Value :=
  match number.integer?.bind int64? with
  | some value => .int value
  | none => .float number.toFloat

end JsonNumber

namespace Json

mutual

/-- A document as a value. -/
def toValue : Json -> Value
  | .null => .nil
  | .bool value => .bool value
  | .number value => value.toValue
  | .string text => .str text
  | .array items => .list (itemsToValues items)
  | .object members => .ofPairs (membersToValues members)

/-- Documents as values, in order. -/
def itemsToValues : List Json -> List Value
  | [] => []
  | item :: rest => toValue item :: itemsToValues rest

/-- Members as named values, in order. -/
def membersToValues : List (String × Json) -> List (String × Value)
  | [] => []
  | (name, item) :: rest => (name, toValue item) :: membersToValues rest

end

end Json
end HtmlTemplate
