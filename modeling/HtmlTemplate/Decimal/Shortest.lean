import HtmlTemplate.Decimal.Binary

namespace HtmlTemplate

/-!
# The fewest digits that read back

A finite binary number stands for every real that rounds to it.  Its decimal
text is chosen from that interval: the fewest digits that lie in it, and among
those of one length the nearest to the number itself, a tie going up.  The ends
of the interval belong to it exactly when the mantissa is even, because a tie
is rounded to the even mantissa when the text is read.

How the digits are written down is a separate decision, the layout at the end.
-/

/-- A positive decimal number: `digits`, read as a whole number, of which the
first digit counts ten to the power `exponent`. -/
structure ShortDecimal where
  digits : List Char
  exponent : Int
  deriving DecidableEq, Repr

namespace ShortDecimal

/-- How many decimal digits a whole number has. -/
def digitCount (value : Nat) : Nat :=
  (Nat.toDigits 10 value).length

/-- The power of ten of the first digit of a positive quotient. -/
def leadingExponent (numerator denominator : Nat) : Int :=
  if denominator ≤ numerator then (digitCount (numerator / denominator) : Int) - 1
  else
    let places := digitCount (denominator / numerator) - 1
    if denominator ≤ numerator * Nat.pow 10 places then -(places : Int) else -(places : Int) - 1

/-- A number and the ends of its rounding interval, over one denominator. -/
structure Interval where
  low : Nat
  value : Nat
  high : Nat
  denominator : Nat
  inclusive : Bool

/-- The interval of a positive number.  Below a power of two the next smaller
number is only half as far away, unless it has the least exponent already. -/
def interval (format : BinaryFormat) (mantissa : Nat) (exponent : Int) : Interval :=
  let isPower := mantissa = Nat.pow 2 (format.precision - 1)
  let down := if isPower ∧ format.least < exponent then 1 else 2
  let scale := Nat.pow 2 (exponent - 2).toNat
  { low := (4 * mantissa - down) * scale
    value := 4 * mantissa * scale
    high := (4 * mantissa + 2) * scale
    denominator := Nat.pow 2 (2 - exponent).toNat
    inclusive := mantissa % 2 == 0 }

namespace Interval

/-- The numerator and denominator by which one unit of the decimal place
`place` is multiplied to be compared with the interval. -/
def unit (interval : Interval) (place : Int) : Nat × Nat :=
  (interval.denominator * Nat.pow 10 place.toNat, Nat.pow 10 (-place).toNat)

/-- Whether `count` units of a decimal place lie in the interval. -/
def holds (interval : Interval) (place : Int) (count : Nat) : Bool :=
  let unit := interval.unit place
  let point := count * unit.1
  let low := interval.low * unit.2
  let high := interval.high * unit.2
  if interval.inclusive then low ≤ point && point ≤ high else low < point && point < high

/-- The units of a decimal place that lie in the interval and are nearest to
the number, if any do. -/
def onPlace? (interval : Interval) (place : Int) : Option Nat :=
  let unit := interval.unit place
  let scaled := interval.value * unit.2
  let below := scaled / unit.1
  let above := below + 1
  match interval.holds place below, interval.holds place above with
  | false, false => none
  | true, false => some below
  | false, true => some above
  | true, true => some (if above * unit.1 - scaled ≤ scaled - below * unit.1 then above else below)

/-- Try one digit, then one more, until some decimal lies in the interval. -/
def search (interval : Interval) (place : Int) : Nat -> Nat × Int
  | 0 => (interval.value / interval.denominator, 0)
  | more + 1 =>
      match interval.onPlace? place with
      | some count => (count, place)
      | none => interval.search (place - 1) more

end Interval

/-- Digits without the zeros at their end.  The first digit always stays. -/
def dropTrailingZeros (digits : List Char) : List Char :=
  match (digits.reverse.dropWhile (· = '0')).reverse with
  | [] => digits.take 1
  | kept => kept

/-- The most digits that any number of the two formats needs. -/
def maxDigits : Nat := 17

/-- The fewest digits of a positive number. -/
def shortest (format : BinaryFormat) (mantissa : Nat) (exponent : Int) : ShortDecimal :=
  let interval := interval format mantissa exponent
  let first := leadingExponent interval.value interval.denominator
  let found := interval.search first maxDigits
  let digits := Nat.toDigits 10 found.1
  { digits := dropTrailingZeros digits
    exponent := found.2 + digits.length - 1 }

end ShortDecimal

/-- How a float is written.  Exponents from `lowest` to `highest` are written
positionally, all others with an exponent mark. -/
structure FloatLayout where
  lowest : Int
  highest : Int
  mark : Char
  infinity : String
  notANumber : String

namespace FloatLayout

/-- Positional notation covers 0.0001 up to just below ten to the sixteenth,
and always has a digit after the point. -/
def plain : FloatLayout := ⟨-4, 15, 'e', "inf", "NaN"⟩

/-- Digits with a point after the place of the units. -/
def positional (decimal : ShortDecimal) : List Char :=
  if decimal.exponent < 0 then
    "0.".toList ++ List.replicate ((-decimal.exponent).toNat - 1) '0' ++ decimal.digits
  else
    let places := decimal.exponent.toNat + 1
    let whole := decimal.digits.take places
    let fraction := decimal.digits.drop places
    whole ++ List.replicate (places - whole.length) '0' ++ ['.'] ++
      (if fraction.isEmpty then ['0'] else fraction)

/-- One digit, the others after a point, and the exponent. -/
def scientific (layout : FloatLayout) (decimal : ShortDecimal) : List Char :=
  let fraction := decimal.digits.drop 1
  decimal.digits.take 1 ++ (if fraction.isEmpty then [] else '.' :: fraction) ++
    [layout.mark] ++ (toString decimal.exponent).toList

/-- The text of a number. -/
def write (layout : FloatLayout) (format : BinaryFormat) (number : BinaryNumber) : String :=
  let signed (negative : Bool) (text : List Char) : String :=
    String.ofList (if negative then '-' :: text else text)
  match number with
  | .notANumber => layout.notANumber
  | .infinite negative => signed negative layout.infinity.toList
  | .finite negative mantissa exponent =>
      if mantissa = 0 then signed negative "0.0".toList
      else
        let decimal := ShortDecimal.shortest format mantissa exponent
        signed negative
          (if layout.lowest ≤ decimal.exponent ∧ decimal.exponent ≤ layout.highest then
            positional decimal
          else layout.scientific decimal)

end FloatLayout

/-- The text of a 64-bit float. -/
def floatText (value : Float) : String :=
  FloatLayout.plain.write .binary64 (BinaryNumber.ofFloat value)

/-- The text of a 32-bit float: the fewest digits that read back as one. -/
def float32Text (value : Float32) : String :=
  FloatLayout.plain.write .binary32 (BinaryNumber.ofFloat32 value)

end HtmlTemplate
