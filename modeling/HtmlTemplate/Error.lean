import HtmlTemplate.Syntax.Fault
import HtmlTemplate.Program.Fault
import HtmlTemplate.Helper.Complaint
import HtmlTemplate.Config.Fault

namespace HtmlTemplate

/-!
# Errors

Everything that can go wrong between a source and its output.  An error ends
the render or the compilation that raised it, so there is never partial output.
Values are named by their displayed form.
-/

/-- What is wrong with an element of a byte list. -/
inductive ByteListCause where
  | multiByte
  | element
  deriving DecidableEq, Repr

/-- A failure, named by its cause. -/
inductive Error where
  | missingAssign (name : String) (available : List String)
  | unescapable (value typeName : String)
  | malformedByteList (element : String) (cause : ByteListCause)
  | parse (fault : SyntaxFault)
  | compile (fault : CompileFault)
  | undefinedField (field value : String)
  | badOperand (operator value : String)
  | noMatch (value : String)
  | noCaseClause (value : String)
  | notEnumerable (value : String)
  | function (name : String) (complaint : Complaint)
  | csrfUnavailable
  | config (fault : ConfigFault)
  | unreadableFile
  deriving DecidableEq, Repr

/-- The cause in words. -/
def ByteListCause.message : ByteListCause -> String
  | .multiByte =>
      "lists only support byte-oriented data, not multi-byte characters; did you mean a string?"
  | .element => "lists may only contain bytes, strings, lists and safe content"

namespace Error

/-- The error in words. -/
def message : Error -> String
  | .missingAssign name available =>
      "assign @" ++ name ++ " not available in template\n\nAvailable assigns: [" ++
        ", ".intercalate (available.map (":" ++ ·)) ++ "]"
  | .unescapable value typeName =>
      "cannot convert " ++ value ++ " to safe HTML: no conversion is defined for " ++ typeName
  | .malformedByteList element cause => cause.message ++ ", got: " ++ element
  | .parse fault => fault.message
  | .compile fault => fault.message
  | .undefinedField field value => "key :" ++ field ++ " not found in: " ++ value
  | .badOperand operator value => "bad argument in `" ++ operator ++ "`: " ++ value
  | .noMatch value => "no match of right hand side value: " ++ value
  | .noCaseClause value => "no case clause matching: " ++ value
  | .notEnumerable value => value ++ " is not enumerable"
  | .function name complaint => name ++ ": " ++ complaint.message
  | .csrfUnavailable => "no CSRF token source was given to this render"
  | .config fault => fault.message
  | .unreadableFile => "the file cannot be read as text"

end Error
end HtmlTemplate
