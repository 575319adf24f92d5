import HtmlTemplate.Text.Quoted

namespace HtmlTemplate

/-!
# Why a function refuses its arguments

The built-in helpers complain about a fixed set of things.  An application's
own function may say anything.  Values appear in their displayed form.
-/

/-- A reason for which a function rejects a call. -/
inductive Complaint where
  | argumentCount (least most given : Nat)
  | keywordListExpected (found : String)
  | stringExpected (found : String)
  | trustedContentExpected (found : String)
  | safeContentExpected (found : String)
  | scriptTextExpected (found : String)
  | invalidClass (found : String)
  | destinationMissing
  | destinationRequired
  | scriptDestination (destination : String)
  | invalidDestination (found : String)
  | methodExpected (found : String)
  | tokenOptionExpected (found : String)
  | other (message : String)
  deriving DecidableEq, Repr

namespace Complaint

/-- A count of arguments, or the range it may lie in. -/
def rangeText (least most : Nat) : String :=
  if least = most then toString least else toString least ++ " to " ++ toString most

/-- The complaint in words. -/
def message : Complaint -> String
  | .argumentCount least most given =>
      "expected " ++ rangeText least most ++ " argument(s), got " ++ toString given
  | .keywordListExpected found => "expected a keyword list, got: " ++ found
  | .stringExpected found => "expected a string, got: " ++ found
  | .trustedContentExpected found =>
      "expected a string, a byte list or safe content, got: " ++ found
  | .safeContentExpected found => "expected safe content, got: " ++ found
  | .scriptTextExpected found => "expected a string or safe content, got: " ++ found
  | .invalidClass found => "invalid class name: " ++ found
  | .destinationMissing => "expected non-nil value for :to in link/2"
  | .destinationRequired => "option :to is required in button/2"
  | .scriptDestination destination =>
      "unsupported scheme given as link: " ++ Quoted.quote destination ++
        ". Use a tuple such as \x7b:javascript, rest\x7d if this is intended"
  | .invalidDestination found => "invalid destination: " ++ found
  | .methodExpected found => "expected :method to be an atom or a string, got: " ++ found
  | .tokenOptionExpected found =>
      "expected :csrf_token to be a boolean or a string, got: " ++ found
  | .other message => message

end Complaint
end HtmlTemplate
