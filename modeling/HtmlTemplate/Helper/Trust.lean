import HtmlTemplate.Helper.Arguments
import HtmlTemplate.Text.Script
import HtmlTemplate.Value.Conversion

namespace HtmlTemplate
namespace Trust

/-!
# Trusting and escaping

Helpers that move between text and markup: taking text as it stands, escaping
it, flattening markup into text, and escaping for a script.
-/

/-- Whether a value is a tuple that begins with the atom `:safe`. -/
def isTagged : Value -> Bool
  | .tuple (.atom tag :: _) => tag == "safe"
  | _ => false

/-- A text or a byte list, taken without any escaping. -/
def raw : Value -> Except Error Markup
  | .nil => .ok .empty
  | .str text => .ok (.raw text)
  | .markup content => .ok content
  | .list items => Value.byteList false items
  | other =>
      if isTagged other then other.toMarkup
      else .error (.function "raw" (.trustedContentExpected other.display))

/-- The text of markup. -/
def flatten : Value -> Except Error String
  | .markup content => .ok content.intoText
  | other =>
      if isTagged other then other.toMarkup.map Markup.intoText
      else .error (.function "safe_to_string" (.safeContentExpected other.display))

/-- A text escaped for a script.  What was markup stays markup. -/
def scriptEscape : Value -> Except Error Value
  | .str text => .ok (.str (Script.escape text))
  | .markup content => .ok (.markup (.raw (Script.escape content.intoText)))
  | .tuple items => (flatten (.tuple items)).map fun text => .markup (.raw (Script.escape text))
  | other => .error (.function "javascript_escape" (.scriptTextExpected other.display))

/-- The function `raw`. -/
def rawFunction (args : List Value) : Except Error Value := do
  Arguments.checkCount "raw" 1 1 args
  let content ← raw (Arguments.valueAt args 0)
  return .markup content

/-- The function `html_escape`. -/
def htmlEscape (args : List Value) : Except Error Value := do
  Arguments.checkCount "html_escape" 1 1 args
  let content ← (Arguments.valueAt args 0).print
  return .markup content

/-- The function `safe_to_string`. -/
def safeToString (args : List Value) : Except Error Value := do
  Arguments.checkCount "safe_to_string" 1 1 args
  let text ← flatten (Arguments.valueAt args 0)
  return .str text

/-- The function `javascript_escape`. -/
def javascriptEscape (args : List Value) : Except Error Value := do
  Arguments.checkCount "javascript_escape" 1 1 args
  scriptEscape (Arguments.valueAt args 0)

end Trust
end HtmlTemplate
