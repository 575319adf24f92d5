import HtmlTemplate.Context
import HtmlTemplate.Helper.Options
import HtmlTemplate.Helper.Trust

namespace HtmlTemplate
namespace Submission

/-!
# Where and how something is submitted

Links, buttons and forms share these decisions: the destination, which must
not run a script by accident, the method, and the token that goes along with
every method but `get`.
-/

/-- A text with the letters A to Z in lower case. -/
def lowerAscii (text : String) : String :=
  text.map Char.toLower

/-- What a destination that runs a script begins with. -/
def scriptScheme : String := "javascript:"

/-- Whether a destination would run a script: behind white space it begins with
the scheme, in letters of either case. -/
def runsScript (destination : String) : Bool :=
  scriptScheme.toList.isPrefixOf ((trimStart destination.toList).map Char.toLower)

/-- A destination that a helper accepts.  A pair of a scheme and the rest is
taken on purpose, so its scheme may be any. -/
def acceptDestination (helper : String) : Value -> Except Error Value
  | .str text =>
      if runsScript text then .error (.function helper (.scriptDestination text))
      else .ok (.str text)
  | .markup content => .ok (.markup content)
  | .tuple [.atom scheme, payload] =>
      if scheme = "safe" then (Trust.raw payload).map .markup
      else
        match payload with
        | .str rest => .ok (.str (scheme ++ ":" ++ rest))
        | _ =>
            .error (.function helper
              (.invalidDestination (Value.tuple [.atom scheme, payload]).display))
  | other => .error (.function helper (.invalidDestination other.display))

/-- The destination among options, which must be there. -/
def requireDestination (helper : String) (missing : Complaint) :
    Option Value -> Except Error Value
  | none => .error (.function helper missing)
  | some .nil => .error (.function helper missing)
  | some destination => acceptDestination helper destination

/-- The text of a destination that was accepted. -/
def destinationText : Value -> String
  | .markup content => content.toText
  | other => other.text?.getD ""

/-- The method among options, in lower case. -/
def method (helper fallback : String) : Option Value -> Except Error String
  | none => .ok fallback
  | some .nil => .ok fallback
  | some (.str text) => .ok (lowerAscii text)
  | some (.atom name) => .ok (lowerAscii name)
  | some other => .error (.function helper (.methodExpected other.display))

/-- The token that goes along, as the option `csrf_token` wants it: one from
the source unless there is an option, none for `false`, and a string as it is. -/
def token (helper : String) (context : Context) (destination : String) :
    Option Value -> Except Error (Option String)
  | none => (context.csrfToken (some destination)).map some
  | some (.bool true) => (context.csrfToken (some destination)).map some
  | some (.bool false) => .ok none
  | some (.str given) => .ok (some given)
  | some other => .error (.function helper (.tokenOptionExpected other.display))

end Submission
end HtmlTemplate
