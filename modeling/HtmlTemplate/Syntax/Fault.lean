namespace HtmlTemplate

/-!
# Why a template cannot be read

A fault says where reading stopped and, where there is more to say than that
the text there was not expected, for which cause.  Places are counted in
lines from one and in characters from zero.
-/

/-- What is wrong at the place where reading stopped. -/
inductive SyntaxCause where
  | tooDeep
  | unclosedComment
  | missingDo
  | missingArrow
  | missingClause
  | missingEnd (block : String)
  | blockWithoutCall
  | positionalAfterKeyword
  deriving DecidableEq, Repr

namespace SyntaxCause

/-- The cause in words. -/
def message : SyntaxCause -> String
  | .tooDeep => "template is nested too deeply"
  | .unclosedComment => "unclosed comment"
  | .missingDo => "expected `do`"
  | .missingArrow => "expected `<-` in `for`"
  | .missingClause => "expected a `pattern ->` clause after `case ... do`"
  | .missingEnd block => "expected `end` to close `" ++ block ++ "` block"
  | .blockWithoutCall => "only function calls can take a `do` block"
  | .positionalAfterKeyword => "keyword arguments must come after positional arguments"

end SyntaxCause

/-- A place in a source and what is wrong there.  The excerpt is the quoted
beginning of what was left to read. -/
structure SyntaxFault where
  cause : Option SyntaxCause
  template : Option String
  row : Nat
  column : Nat
  excerpt : String
  deriving DecidableEq, Repr

namespace SyntaxFault

/-- The fault in words.  Without a template name only the place is given. -/
def message (fault : SyntaxFault) : String :=
  let cause :=
    match fault.cause with
    | some cause => cause.message ++ "\n"
    | none => ""
  let place :=
    match fault.template with
    | some name =>
        "\n  --> " ++ name ++ ":" ++ toString fault.row ++ ":" ++ toString fault.column ++ "\n"
    | none =>
        " at row " ++ toString fault.row ++ ", column " ++ toString fault.column ++ " near:\n"
  cause ++ "failed to parse template source" ++ place ++ fault.excerpt

end SyntaxFault
end HtmlTemplate
