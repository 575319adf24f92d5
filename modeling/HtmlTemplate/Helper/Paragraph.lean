import HtmlTemplate.Helper.Element
import HtmlTemplate.Text.CharClass

namespace HtmlTemplate
namespace Paragraph

/-!
# Paragraphs

Plain text as paragraphs.  Two line ends in a row part the text into blocks,
from left to right; blocks of white space are left out, and so are empty lines
inside a block.  Each block is wrapped in an element and followed by a line
end.
-/

/-- A text with every pair of a carriage return and a line feed as a line
feed. -/
def unifyLineEnds : List Char -> List Char
  | [] => []
  | '\r' :: '\n' :: rest => '\n' :: unifyLineEnds rest
  | c :: rest => c :: unifyLineEnds rest

/-- The blocks of a text.  `block` is the block in progress, last character
first. -/
def blocksFrom (block : List Char) : List Char -> List (List Char)
  | [] => [block.reverse]
  | '\n' :: '\n' :: rest => block.reverse :: blocksFrom [] rest
  | c :: rest => blocksFrom (c :: block) rest

/-- The blocks of a text that hold more than white space. -/
def blocks (text : List Char) : List (List Char) :=
  (blocksFrom [] text).filter fun block => !isBlank block

/-- The lines of a text.  `line` is the line in progress, last character
first. -/
def linesFrom (line : List Char) : List Char -> List (List Char)
  | [] => [line.reverse]
  | '\n' :: rest => line.reverse :: linesFrom [] rest
  | c :: rest => linesFrom (c :: line) rest

/-- The lines of a block that are not empty. -/
def lines (block : List Char) : List (List Char) :=
  (linesFrom [] block).filter fun line => !line.isEmpty

/-- How paragraphs are written. -/
structure Style where
  wrapper : String := "p"
  attributes : Value := .nil
  lineBreaks : Bool := true
  escaping : Bool := true

namespace Style

/-- What stands between two lines. -/
def separator (style : Style) : Markup :=
  if style.lineBreaks then .raw "<br>\n" else .raw " "

/-- A line as it is written. -/
def line (style : Style) (text : List Char) : Markup :=
  if style.escaping then .escape (String.ofList text) else .raw (String.ofList text)

/-- A paragraph and the line end behind it. -/
def paragraph (style : Style) (block : List Char) : Except Error Markup := do
  let content := Markup.concat (((lines block).map style.line).intersperse style.separator)
  let element ← Element.around style.wrapper (.markup content) style.attributes
  return element.pushRaw "\n"

/-- The style that options ask for. -/
def ofOptions (value : Value) : Except Error Style := do
  let options ← Options.read "text_to_html" value
  let wrapper ←
    match options.get? "wrapper_tag" with
    | some wrapper => Arguments.text "text_to_html" wrapper
    | none => pure "p"
  return {
    wrapper := wrapper
    attributes := (options.get? "attributes").getD .nil
    lineBreaks := (options.get? "insert_brs").all Value.isTruthy
    escaping := (options.get? "escape").all Value.isTruthy }

end Style

/-- A text as paragraphs. -/
def write (text : String) (options : Value) : Except Error Markup := do
  let style ← Style.ofOptions options
  let parts ← (blocks (unifyLineEnds text.toList)).mapM style.paragraph
  return .concat parts

/-- The function `text_to_html`. -/
def textToHtml (args : List Value) : Except Error Value := do
  Arguments.checkCount "text_to_html" 1 2 args
  let text ← Arguments.text "text_to_html" (Arguments.valueAt args 0)
  let written ← write text (Arguments.valueAt args 1)
  return .markup written

end Paragraph
end HtmlTemplate
