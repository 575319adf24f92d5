import HtmlTemplate.Decimal.Shortest
import HtmlTemplate.Text.Quoted
import HtmlTemplate.Value.Basic

namespace HtmlTemplate
namespace Value

/-!
# Displayed values

A displayed value looks the way it would be written in a template, as far as
the template language can write it.  Error messages show values in this form.
The text is built by appending, so a long list needs no deep recursion.
-/

mutual

/-- Append the displayed form of a value. -/
def displayTo (text : String) : Value -> String
  | .nil => text ++ "nil"
  | .bool value => text ++ (if value then "true" else "false")
  | .int value => text ++ toString value.toInt
  | .float value => text ++ floatText value
  | .str content => text ++ Quoted.quote content
  | .atom name => text ++ ":" ++ name
  | .list items => displayItemsTo (text ++ "[") items ++ "]"
  | .tuple items => displayItemsTo (text ++ "\x7b") items ++ "\x7d"
  | .map entries => displayEntriesTo (text ++ "%\x7b") entries ++ "\x7d"
  | .markup content => text ++ "\x7b:safe, " ++ Quoted.quote content.toText ++ "\x7d"
  | .date value => text ++ "~D[" ++ String.ofList value.text ++ "]"
  | .time value => text ++ "~T[" ++ String.ofList value.text ++ "]"
  | .dateTime value => text ++ "~N[" ++ String.ofList (value.text ' ') ++ "]"
  | .zonedDateTime value => text ++ "#DateTime<" ++ String.ofList value.text ++ ">"
  | .object info _ => text ++ "#" ++ info.typeName ++ "<" ++ info.description ++ ">"

/-- Append the displayed forms of values with commas between them. -/
def displayItemsTo (text : String) : List Value -> String
  | [] => text
  | [item] => displayTo text item
  | item :: rest => displayItemsTo (displayTo text item ++ ", ") rest

/-- Append keys and values with arrows and commas between them. -/
def displayEntriesTo (text : String) : List (String × Value) -> String
  | [] => text
  | [(key, value)] => displayTo (text ++ Quoted.quote key ++ " => ") value
  | (key, value) :: rest =>
      displayEntriesTo (displayTo (text ++ Quoted.quote key ++ " => ") value ++ ", ") rest

end

/-- The displayed form of a value. -/
def display (value : Value) : String :=
  displayTo "" value

/-- The error of an operator that does not take a value. -/
def badOperand (operator : String) (value : Value) : Error :=
  .badOperand operator value.display

end Value
end HtmlTemplate
