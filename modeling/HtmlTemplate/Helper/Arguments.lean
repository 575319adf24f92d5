import HtmlTemplate.Value.Display

namespace HtmlTemplate
namespace Arguments

/-!
# Arguments of helpers

How many arguments a helper takes, and what it accepts where it needs a text.
An argument that is left out is `nil`.
-/

/-- Refuse a number of arguments outside of a range. -/
def checkCount (helper : String) (least most : Nat) (args : List Value) : Except Error Unit :=
  if least ≤ args.length ∧ args.length ≤ most then .ok ()
  else .error (.function helper (.argumentCount least most args.length))

/-- The argument at a position, or `nil`. -/
def valueAt (args : List Value) (position : Nat) : Value :=
  args.getD position .nil

/-- The text of a string, an atom or markup. -/
def text (helper : String) : Value -> Except Error String
  | .str content => .ok content
  | .atom name => .ok name
  | .markup content => .ok content.toText
  | other => .error (.function helper (.stringExpected other.display))

end Arguments
end HtmlTemplate
