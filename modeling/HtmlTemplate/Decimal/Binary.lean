namespace HtmlTemplate

/-!
# Binary floating-point formats

A finite number of a binary format is a sign, a whole mantissa and a power of
two.  This module reads the bits of such a number, and rounds a quotient of
natural numbers to the nearest number of a format, a tie going to the even
mantissa.  All of it is exact arithmetic on whole numbers.
-/

/-- A binary format: the bits of the mantissa, the power of two of the last
mantissa bit of the smallest number, and that of the largest finite one. -/
structure BinaryFormat where
  precision : Nat
  least : Int
  greatest : Int

namespace BinaryFormat

/-- The format of 64-bit floats. -/
def binary64 : BinaryFormat := ⟨53, -1074, 971⟩

/-- The format of 32-bit floats. -/
def binary32 : BinaryFormat := ⟨24, -149, 104⟩

/-- The number of binary exponents that finite numbers use. -/
def exponentCount (format : BinaryFormat) : Nat :=
  (format.greatest - format.least).toNat + 1

end BinaryFormat

/-- A number of a binary format.  A finite one is `mantissa` times two to the
power `exponent`. -/
inductive BinaryNumber where
  | finite (negative : Bool) (mantissa : Nat) (exponent : Int)
  | infinite (negative : Bool)
  | notANumber
  deriving DecidableEq, Repr

namespace BinaryNumber

/-- Read the bits of a number.  The lowest bits are the mantissa without its
leading one, the bits above count the exponent from one, and the exponent zero
marks the small numbers that have no leading one. -/
def ofBits (format : BinaryFormat) (bits : Nat) : BinaryNumber :=
  let hidden := Nat.pow 2 (format.precision - 1)
  let fraction := bits % hidden
  let scale := format.exponentCount + 2
  let biased := bits / hidden % scale
  let negative := bits / hidden / scale % 2 == 1
  if biased = 0 then .finite negative fraction format.least
  else if biased = scale - 1 then
    if fraction = 0 then .infinite negative else .notANumber
  else .finite negative (hidden + fraction) (format.least + (biased - 1 : Nat))

/-- The bits of a number.  What is not a number gets the usual quiet pattern. -/
def toBits (format : BinaryFormat) : BinaryNumber -> Nat
  | .finite negative mantissa exponent =>
      let hidden := Nat.pow 2 (format.precision - 1)
      let scale := format.exponentCount + 2
      let sign := if negative then hidden * scale else 0
      if mantissa < hidden then sign + mantissa
      else sign + ((exponent - format.least).toNat + 1) * hidden + (mantissa - hidden)
  | .infinite negative =>
      let hidden := Nat.pow 2 (format.precision - 1)
      let scale := format.exponentCount + 2
      (if negative then hidden * scale else 0) + (scale - 1) * hidden
  | .notANumber =>
      let hidden := Nat.pow 2 (format.precision - 1)
      let scale := format.exponentCount + 2
      (scale - 1) * hidden + hidden / 2

/-- Round a quotient to a whole number, a tie to the even one. -/
def roundEven (numerator denominator : Nat) : Nat :=
  let quotient := numerator / denominator
  let twice := 2 * (numerator % denominator)
  if twice < denominator then quotient
  else if twice = denominator then quotient + quotient % 2
  else quotient + 1

/-- Divide a quotient by a power of two: the new numerator and denominator. -/
def divPow (numerator denominator : Nat) (exponent : Int) : Nat × Nat :=
  if 0 ≤ exponent then (numerator, denominator * Nat.pow 2 exponent.toNat)
  else (numerator * Nat.pow 2 (-exponent).toNat, denominator)

/-- The number of a format that is nearest to a quotient.  The exponent is the
one that leaves a mantissa of full precision, or the least one. -/
def nearest (format : BinaryFormat) (negative : Bool) (numerator denominator : Nat) :
    BinaryNumber :=
  if numerator = 0 then .finite negative 0 format.least
  else
    let estimate : Int := numerator.log2 - denominator.log2 - format.precision
    let first := divPow numerator denominator estimate
    let exact := if first.1 / first.2 < Nat.pow 2 format.precision then estimate else estimate + 1
    let exponent := max exact format.least
    let scaled := divPow numerator denominator exponent
    let mantissa := roundEven scaled.1 scaled.2
    let carried := mantissa = Nat.pow 2 format.precision
    let exponent := if carried then exponent + 1 else exponent
    let mantissa := if carried then mantissa / 2 else mantissa
    if format.greatest < exponent then .infinite negative
    else .finite negative mantissa exponent

/-- The nearest 64-bit float of a whole number. -/
def floatOfInt (value : Int) : Float :=
  Float.ofBits (UInt64.ofNat
    ((nearest .binary64 (value < 0) value.natAbs 1).toBits .binary64))

/-- The parts of a 64-bit float. -/
def ofFloat (value : Float) : BinaryNumber :=
  ofBits .binary64 value.toBits.toNat

/-- The parts of a 32-bit float. -/
def ofFloat32 (value : Float32) : BinaryNumber :=
  ofBits .binary32 value.toBits.toNat

end BinaryNumber
end HtmlTemplate
