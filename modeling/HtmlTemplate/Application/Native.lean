import HtmlTemplate.Decimal.Shortest
import HtmlTemplate.Value.Basic

namespace HtmlTemplate

/-!
# Application data

What an application can print without making a value of it first, and what it
can hand to a template as a value.  Printing and converting agree: the printed
form of a datum is the printed form of its value, save that a 32-bit float is
printed with its own digits and becomes a 64-bit float of the same size.
-/

/-- Data that can be printed. -/
class Printable (α : Type) where
  toMarkup : α -> Markup

/-- Data that templates can compute with. -/
class Assignable (α : Type) where
  toValue : α -> Value

instance : Printable Int := ⟨fun value => .raw (toString value)⟩

instance : Printable Float := ⟨fun value => .raw (floatText value)⟩

instance : Printable Float32 := ⟨fun value => .raw (float32Text value)⟩

instance : Printable Bool := ⟨fun value => .raw (if value then "true" else "false")⟩

instance : Printable Char := ⟨fun value => .escape (String.singleton value)⟩

instance : Printable String := ⟨Markup.escape⟩

instance {α : Type} [Printable α] : Printable (Option α) :=
  ⟨fun datum => (datum.map Printable.toMarkup).getD .empty⟩

instance : Assignable Int64 := ⟨.int⟩

instance : Assignable Float := ⟨.float⟩

instance : Assignable Float32 := ⟨fun value => .float value.toFloat⟩

instance : Assignable Bool := ⟨.bool⟩

instance : Assignable String := ⟨.str⟩

instance {α : Type} [Assignable α] : Assignable (Option α) :=
  ⟨fun datum => (datum.map Assignable.toValue).getD .nil⟩

end HtmlTemplate
