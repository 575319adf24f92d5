import HtmlTemplate.Text.Spelling

namespace HtmlTemplate

/-!
# Why a template that reads well cannot be compiled

Names have to be in scope, functions registered, and literals have to denote
a value.  Nothing else is refused.  A number that was read from a source always
has digits in it, so only its size can be wrong.
-/

/-- What a template refers to that cannot exist. -/
inductive CompileFault where
  | undefinedVariable (name : String)
  | undefinedFunction (name : String)
  | integerTooLarge (literal : String)
  | integerTooSmall (literal : String)
  | invalidInteger (literal : String)
  | invalidFloat (literal : String)
  | invalidString (literal : String) (fault : SpellingFault)
  deriving DecidableEq, Repr

namespace CompileFault

/-- The fault in words. -/
def message : CompileFault -> String
  | .undefinedVariable name =>
      "undefined variable `" ++ name ++ "`; assigns are referenced as `@" ++ name ++ "`"
  | .undefinedFunction name => "undefined function `" ++ name ++ "`"
  | .integerTooLarge literal =>
      "invalid integer literal `" ++ literal ++ "`: number too large to fit in target type"
  | .integerTooSmall literal =>
      "invalid integer literal `" ++ literal ++ "`: number too small to fit in target type"
  | .invalidInteger literal =>
      "invalid integer literal `" ++ literal ++ "`: invalid digit found in string"
  | .invalidFloat literal => "invalid float literal `" ++ literal ++ "`: invalid float literal"
  | .invalidString literal fault =>
      "invalid string literal \"" ++ literal ++ "\": " ++ fault.message

end CompileFault
end HtmlTemplate
