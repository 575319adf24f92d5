import HtmlTemplate.Config.Fault
import HtmlTemplate.Syntax.Tree

namespace HtmlTemplate

/-!
# Configuration

The delimiters of tags, and the names of the two form parameters that helpers
write: the one with the CSRF token and the one with the real method.  Every
configuration that exists has passed the checks, which its proofs record.
-/

namespace Delimiters

/-- What is wrong with one delimiter. -/
def faultOf? (delimiter : String) : Option ConfigFault :=
  if delimiter.length < 2 then some (.shortDelimiter delimiter)
  else if delimiter.toList.any CharClass.isWhiteSpace then some (.spaceInDelimiter delimiter)
  else none

/-- What is wrong with a pair of delimiters: the first fault of the opening
one, else of the closing one, else that they are equal. -/
def fault? (delimiters : Delimiters) : Option ConfigFault :=
  (faultOf? delimiters.opening).or
    ((faultOf? delimiters.closing).or
      (if delimiters.opening = delimiters.closing then
        some (.equalDelimiters delimiters.opening)
      else none))

end Delimiters

/-- A configuration whose settings are all acceptable. -/
structure Config where
  delimiters : Delimiters := .standard
  csrfParam : String := "_csrf_token"
  methodParam : String := "_method"
  delimiters_sound : delimiters.fault? = none := by decide
  csrfParam_nonempty : csrfParam ≠ "" := by decide
  methodParam_nonempty : methodParam ≠ "" := by decide

namespace Config

/-- The configuration that is used unless another one is given. -/
def standard : Config := {}

instance : Inhabited Config := ⟨standard⟩

/-- Whether two configurations have the same settings. -/
def same (left right : Config) : Bool :=
  left.delimiters == right.delimiters && left.csrfParam == right.csrfParam &&
    left.methodParam == right.methodParam

/-- Replace the delimiters. -/
def withDelimiters (config : Config) (delimiters : Delimiters) : Except ConfigFault Config :=
  match sound : delimiters.fault? with
  | none => .ok { config with delimiters := delimiters, delimiters_sound := sound }
  | some fault => .error fault

/-- Replace the name of the parameter with the CSRF token. -/
def withCsrfParam (config : Config) (name : String) : Except ConfigFault Config :=
  if nonempty : name ≠ "" then
    .ok { config with csrfParam := name, csrfParam_nonempty := nonempty }
  else .error .emptyParameter

/-- Replace the name of the parameter with the real method. -/
def withMethodParam (config : Config) (name : String) : Except ConfigFault Config :=
  if nonempty : name ≠ "" then
    .ok { config with methodParam := name, methodParam_nonempty := nonempty }
  else .error .emptyParameter

end Config
end HtmlTemplate
