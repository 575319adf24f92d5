import HtmlTemplate.Helper.Form
import HtmlTemplate.Helper.Link
import HtmlTemplate.Helper.Paragraph

namespace HtmlTemplate
namespace BuiltIn

/-!
# The built-in helpers

Every template can call these functions, unless one of the same name was added
later.  None of them looks at the journal.
-/

/-- A function that sees only its arguments. -/
def ofArguments (respond : List Value -> Except Error Value) : TemplateFunction :=
  { respond := fun _ _ args => respond args }

/-- A function that also sees the context. -/
def ofContext (respond : Context -> List Value -> Except Error Value) : TemplateFunction :=
  { respond := fun context _ args => respond context args }

/-- All helpers by name. -/
def registry : Registry :=
  [("raw", ofArguments Trust.rawFunction),
    ("html_escape", ofArguments Trust.htmlEscape),
    ("safe_to_string", ofArguments Trust.safeToString),
    ("javascript_escape", ofArguments Trust.javascriptEscape),
    ("attributes_escape", ofArguments Element.attributesEscape),
    ("tag", ofArguments Element.tag),
    ("content_tag", ofArguments Element.contentTag),
    ("img_tag", ofArguments Element.imgTag),
    ("link", ofContext Link.linkFunction),
    ("button", ofContext Link.buttonFunction),
    ("form_tag", ofContext Form.formTag),
    ("csrf_meta_tag", ofContext Form.csrfMetaTag),
    ("csrf_token_value", ofContext Form.csrfTokenValue),
    ("text_to_html", ofArguments Paragraph.textToHtml)]

end BuiltIn
end HtmlTemplate
