import HtmlTemplate.Helper.Arguments
import HtmlTemplate.Helper.Attribute
import HtmlTemplate.Program.Body

namespace HtmlTemplate
namespace Element

/-!
# Elements

Tags with their attributes.  A name is escaped like any other text, and content
is escaped unless it is markup.
-/

/-- An opening tag. -/
def opening (name : String) (attributes : Value) : Except Error Markup := do
  let written ← Attribute.write attributes
  return (((Markup.raw "<").pushEscaped name).push written).pushRaw ">"

/-- A closing tag. -/
def closing (name : String) : Markup :=
  ((Markup.raw "</").pushEscaped name).pushRaw ">"

/-- An element around content. -/
def around (name : String) (content attributes : Value) : Except Error Markup := do
  let start ← opening name attributes
  let inner ← content.print
  return (start.push inner).push (closing name)

/-- An image.  Its source comes first unless the attributes have their own. -/
def image (source : Value) (attributes : Value) : Except Error Markup := do
  let options ← Options.read "img_tag" attributes
  opening "img" (options.putNew "src" source).toValue

/-- The function `attributes_escape`. -/
def attributesEscape (args : List Value) : Except Error Value := do
  Arguments.checkCount "attributes_escape" 1 1 args
  let written ← Attribute.write (Arguments.valueAt args 0)
  return .markup written

/-- The function `tag`. -/
def tag (args : List Value) : Except Error Value := do
  Arguments.checkCount "tag" 1 2 args
  let name ← Arguments.text "tag" (Arguments.valueAt args 0)
  let written ← opening name (Arguments.valueAt args 1)
  return .markup written

/-- The function `content_tag`.  A body stands for the content. -/
def contentTag (args : List Value) : Except Error Value := do
  match Body.detach args with
  | (some body, args) =>
      Arguments.checkCount "content_tag" 1 2 args
      let name ← Arguments.text "content_tag" (Arguments.valueAt args 0)
      let written ← around name body (Arguments.valueAt args 1)
      return .markup written
  | (none, args) =>
      Arguments.checkCount "content_tag" 1 3 args
      let name ← Arguments.text "content_tag" (Arguments.valueAt args 0)
      let written ← around name (Arguments.valueAt args 1) (Arguments.valueAt args 2)
      return .markup written

/-- The function `img_tag`. -/
def imgTag (args : List Value) : Except Error Value := do
  Arguments.checkCount "img_tag" 1 2 args
  let source ← Arguments.text "img_tag" (Arguments.valueAt args 0)
  let written ← image (.str source) (Arguments.valueAt args 1)
  return .markup written

end Element
end HtmlTemplate
