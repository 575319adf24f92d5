import HtmlTemplate.Helper.Element
import HtmlTemplate.Helper.Submission

namespace HtmlTemplate
namespace Form

/-!
# Forms and tokens

A browser sends forms with `get` or `post` only.  Every other method is sent
with `post`, and the real one goes into a hidden input.  A form that is not
sent with `get` carries a token as well, unless it is told not to.
-/

/-- A hidden input. -/
def hiddenInput (name value : String) : Markup :=
  ((((Markup.raw "<input name=\"").pushEscaped name).pushRaw
    "\" type=\"hidden\" value=\"").pushEscaped value).pushRaw "\">"

/-- The method a form is meant to use, in lower case.  The option stays. -/
def methodOf (options : Options) : Except Error String :=
  match options.get? "method" with
  | none => .ok "post"
  | some .nil => .ok "post"
  | some given => (Arguments.text "form_tag" given).map Submission.lowerAscii

/-- The hidden inputs of a form that is not sent with `get`. -/
def hiddenInputs (context : Context) (action method : String) (tokenOption : Option Value) :
    Except Error Markup := do
  let override :=
    if method = "post" then Markup.empty
    else Markup.empty.push (hiddenInput context.config.methodParam method)
  let token? ← Submission.token "form_tag" context action tokenOption
  match token? with
  | some token => return override.push (hiddenInput context.config.csrfParam token)
  | none => return override

/-- Put the encoding of file uploads in front, where a form is asked for it. -/
def withEncoding (multipart : Bool) (options : Options) : Options :=
  if multipart then options.putNew "enctype" (.str "multipart/form-data") else options

/-- The opening tag of a form, with the hidden inputs behind it.  With a body
the form is closed as well. -/
def form (context : Context) (action : String) (options : Value) : Except Error Markup := do
  let options ← Options.read "form_tag" options
  let (body?, options) := options.take Body.key
  let (token?, options) := options.take "csrf_token"
  let (multipart?, options) := options.take "multipart"
  let multipart := multipart?.any Value.isTruthy
  let method ← methodOf options
  let target := Options.single "action" (.str action)
  let (hidden, options) ←
    if method = "get" then pure (Markup.empty, options)
    else do
      let hidden ← hiddenInputs context action method token?
      pure (hidden, (options.without "method").putNew "method" (.str "post"))
  let start ← Element.opening "form" (Options.toValue (target ++ withEncoding multipart options))
  let start := start.push hidden
  match body? with
  | some body =>
      let inner ← body.print
      return (start.push inner).pushRaw "</form>"
  | none => return start

/-- A `meta` tag with the token. -/
def metaTag (context : Context) (attributes : Value) : Except Error Markup := do
  let token ← context.csrfToken none
  let options ← Options.read "csrf_meta_tag" attributes
  Element.opening "meta" (Options.toValue
    (Options.single "charset" (.str "UTF-8") ++ Options.single "name" (.str "csrf-token") ++
      Options.single "content" (.str token) ++ options))

/-- The function `form_tag`. -/
def formTag (context : Context) (args : List Value) : Except Error Value := do
  let (body?, args) := Body.detach args
  Arguments.checkCount "form_tag" 1 2 args
  let action ← Arguments.text "form_tag" (Arguments.valueAt args 0)
  let options ← Options.read "form_tag" (Arguments.valueAt args 1)
  let body :=
    match body? with
    | some body => Options.single Body.key body
    | none => []
  let written ← form context action (Options.toValue (options ++ body))
  return .markup written

/-- The function `csrf_meta_tag`. -/
def csrfMetaTag (context : Context) (args : List Value) : Except Error Value := do
  Arguments.checkCount "csrf_meta_tag" 0 1 args
  let written ← metaTag context (Arguments.valueAt args 0)
  return .markup written

/-- The function `csrf_token_value`. -/
def csrfTokenValue (context : Context) (args : List Value) : Except Error Value := do
  Arguments.checkCount "csrf_token_value" 0 1 args
  match args with
  | [] =>
      let token ← context.csrfToken none
      return .str token
  | destination :: _ =>
      let destination ← Arguments.text "csrf_token_value" destination
      let token ← context.csrfToken (some destination)
      return .str token

end Form
end HtmlTemplate
