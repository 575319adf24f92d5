import HtmlTemplate.Helper.Element
import HtmlTemplate.Helper.Submission

namespace HtmlTemplate
namespace Link

/-!
# Links and buttons

A link that is followed with `get` is plain.  Every other method, and every
button, is left to a script, which finds the token, the method and the
destination in `data` attributes.
-/

/-- What a script has to know.  Errors name `link` here, for buttons too. -/
def submissionData (context : Context) (destination : Value) (method : String)
    (tokenOption : Option Value) : Except Error Value := do
  let rest := Options.single "method" (.str method) ++ Options.single "to" destination
  if method = "get" then return Options.toValue rest
  let token? ← Submission.token "link" context (Submission.destinationText destination) tokenOption
  match token? with
  | some token => return Options.toValue (Options.single "csrf" (.str token) ++ rest)
  | none => return Options.toValue rest

/-- A link around a text. -/
def link (context : Context) (text options : Value) : Except Error Markup := do
  let options ← Options.read "link" options
  let (to?, options) := options.take "to"
  let destination ← Submission.requireDestination "link" .destinationMissing to?
  let (method?, options) := options.take "method"
  let method ← Submission.method "link" "get" method?
  let (token?, options) := options.take "csrf_token"
  if method = "get" then
    Element.around "a" text (Options.toValue (Options.single "href" destination ++ options))
  else
    let data ← submissionData context destination method token?
    let rel :=
      if (options.get? "rel").isSome then [] else Options.single "rel" (.str "nofollow")
    Element.around "a" text (Options.toValue
      (Options.single "data" data ++ Options.single "href" destination ++ rel ++ options))

/-- A button with a text. -/
def button (context : Context) (text options : Value) : Except Error Markup := do
  let options ← Options.read "button" options
  let (to?, options) := options.take "to"
  let destination ← Submission.requireDestination "button" .destinationRequired to?
  let (method?, options) := options.take "method"
  let method ← Submission.method "button" "post" method?
  let (token?, options) := options.take "csrf_token"
  let data ← submissionData context destination method token?
  Element.around "button" text (Options.toValue (Options.single "data" data ++ options))

/-- Text and options from arguments.  A body stands for the text. -/
def textAndOptions (helper : String) (args : List Value) : Except Error (Value × Value) := do
  match Body.detach args with
  | (some body, args) =>
      Arguments.checkCount helper 0 1 args
      return (body, Arguments.valueAt args 0)
  | (none, args) =>
      Arguments.checkCount helper 2 2 args
      return (Arguments.valueAt args 0, Arguments.valueAt args 1)

/-- The function `link`. -/
def linkFunction (context : Context) (args : List Value) : Except Error Value := do
  let (text, options) ← textAndOptions "link" args
  let written ← link context text options
  return .markup written

/-- The function `button`. -/
def buttonFunction (context : Context) (args : List Value) : Except Error Value := do
  let (text, options) ← textAndOptions "button" args
  let written ← button context text options
  return .markup written

end Link
end HtmlTemplate
