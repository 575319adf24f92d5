import HtmlTemplate.Decimal.Reading
import HtmlTemplate.Value.Conversion
import HtmlTemplate.Value.Operator

namespace HtmlTemplate

/-!
# What literals denote

Separators in a number are ignored.  A number with a point or an exponent is a
float, every other one an integer of 64 bits.  A literal whose printed text is
known is also found in parentheses and behind minus signs.
-/

namespace Literal

/-- Whether the text of a number stands for a float. -/
def isFloatText (digits : List Char) : Bool :=
  digits.any fun c => c == '.' || c == 'e' || c == 'E'

/-- The integer that digits with an optional minus sign denote. -/
def readInteger (text : String) (digits : List Char) : Except CompileFault Value :=
  let (negative, magnitude) := DecimalLiteral.splitSign digits
  if magnitude.isEmpty || !magnitude.all Char.isDigit then .error (.invalidInteger text)
  else
    let size : Int := DecimalLiteral.digitsValue magnitude
    match int64? (if negative then -size else size) with
    | some value => .ok (.int value)
    | none => .error (if negative then .integerTooSmall text else .integerTooLarge text)

/-- The number that a text denotes. -/
def readNumber (text : String) : Except CompileFault Value :=
  let digits := text.toList.filter (· != '_')
  if isFloatText digits then
    match readFloat? (String.ofList digits) with
    | some value => .ok (.float value)
    | none => .error (.invalidFloat text)
  else readInteger text digits

/-- The value that a literal denotes. -/
def denote : Literal -> Except CompileFault Value
  | .nil => .ok .nil
  | .bool value => .ok (.bool value)
  | .num text => readNumber text
  | .str spelling =>
      match Spelling.read spelling with
      | .ok text => .ok (.str text)
      | .error fault => .error (.invalidString spelling fault)
  | .atom name => .ok (.atom name)

end Literal

namespace Expr

/-- The value of an expression that consists of a literal, parentheses and
minus signs, unless it has none. -/
def literal? : Expr -> Option Value
  | .lit literal => literal.denote.toOption
  | .unary .minus operand => operand.literal? >>= UnaryOp.negate?
  | .group inner => inner.literal?
  | _ => none

/-- The value of a literal is the one that it denotes. -/
theorem literal?_lit {literal : Literal} {value : Value} :
    (Expr.lit literal).literal? = some value ↔ literal.denote = .ok value := by
  rw [literal?]
  cases literal.denote with
  | error fault => exact iff_of_false nofun nofun
  | ok found => rw [Except.toOption, Option.some_inj, Except.ok.injEq]

/-- The printed text of an expression, where it is known without rendering. -/
def literalText? (expr : Expr) : Option String := do
  let value ← expr.literal?
  let markup ← value.toMarkup.toOption
  return markup.toText

end Expr

/-- The printed text of what a tag evaluates, where it is known.  The output of
a block never is. -/
def Action.literalText? : Action -> Option String
  | .value expr => expr.literalText?
  | _ => none

end HtmlTemplate
