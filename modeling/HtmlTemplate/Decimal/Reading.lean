import HtmlTemplate.Decimal.Binary

namespace HtmlTemplate

/-!
# Decimal texts of floats

A text is an optional sign, digits with at most one point, and an optional
exponent; at least one digit has to be there.  `inf`, `infinity` and `nan` are
read in any letter case.  The number is the nearest one of the format, and a
number too large for the format is infinite.
-/

/-- What a text says: a whole number times a power of ten, or a special value. -/
inductive DecimalLiteral where
  | number (negative : Bool) (digits : Nat) (exponent : Int)
  | infinite (negative : Bool)
  | notANumber
  deriving DecidableEq, Repr

namespace DecimalLiteral

/-- The value of ASCII digits. -/
def digitsValue (digits : List Char) : Nat :=
  digits.foldl (fun value c => 10 * value + (c.toNat - '0'.toNat)) 0

/-- A sign and what follows it. -/
def splitSign : List Char -> Bool × List Char
  | '-' :: rest => (true, rest)
  | '+' :: rest => (false, rest)
  | text => (false, text)

/-- Read what follows the digits: nothing, or a mark and a whole exponent. -/
def exponent? : List Char -> Option Int
  | [] => some 0
  | mark :: rest =>
      if mark = 'e' ∨ mark = 'E' then
        let (negative, digits) := splitSign rest
        if digits.isEmpty || !digits.all Char.isDigit then none
        else
          let value : Int := digitsValue digits
          some (if negative then -value else value)
      else none

/-- Read an unsigned number. -/
def number? (negative : Bool) (text : List Char) : Option DecimalLiteral :=
  let whole := text.takeWhile Char.isDigit
  let rest := text.dropWhile Char.isDigit
  let (fraction, rest) :=
    match rest with
    | '.' :: more => (more.takeWhile Char.isDigit, more.dropWhile Char.isDigit)
    | _ => ([], rest)
  if whole.isEmpty && fraction.isEmpty then none
  else (exponent? rest).map fun exponent =>
    .number negative (digitsValue (whole ++ fraction)) (exponent - fraction.length)

/-- Read a whole text. -/
def read? (text : String) : Option DecimalLiteral :=
  let (negative, rest) := splitSign text.toList
  let word := rest.map Char.toLower
  if word = "inf".toList ∨ word = "infinity".toList then some (.infinite negative)
  else if word = "nan".toList then some .notANumber
  else number? negative rest

/-- Beyond this power of ten every number of the formats is infinite, and
below its negative every one is zero. -/
def exponentBound : Int := 400

/-- The nearest number of a format.  Exponents far outside the format are
decided without computing the power. -/
def toBinary (format : BinaryFormat) : DecimalLiteral -> BinaryNumber
  | .infinite negative => .infinite negative
  | .notANumber => .notANumber
  | .number negative digits exponent =>
      let size : Int := exponent + (Nat.toDigits 10 digits).length
      if digits = 0 ∨ size < -exponentBound then .finite negative 0 format.least
      else if exponentBound < size then .infinite negative
      else
        BinaryNumber.nearest format negative (digits * Nat.pow 10 exponent.toNat)
          (Nat.pow 10 (-exponent).toNat)

end DecimalLiteral

/-- Read a 64-bit float. -/
def readFloat? (text : String) : Option Float :=
  (DecimalLiteral.read? text).map fun literal =>
    Float.ofBits (UInt64.ofNat ((literal.toBinary .binary64).toBits .binary64))

/-- Read a 32-bit float. -/
def readFloat32? (text : String) : Option Float32 :=
  (DecimalLiteral.read? text).map fun literal =>
    Float32.ofBits (UInt32.ofNat ((literal.toBinary .binary32).toBits .binary32))

end HtmlTemplate
