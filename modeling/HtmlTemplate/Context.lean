import HtmlTemplate.Assigns
import HtmlTemplate.Config

namespace HtmlTemplate

/-!
# What a render can see

Besides its own expressions a render sees the assigns, the configuration and
perhaps a source of CSRF tokens.  Functions are called with all of it, and
with the journal of the calls made before in the same render, so a function
whose answer depends on earlier calls is a function of the journal.
-/

/-- A source of tokens.  It is told the destination that a token is for, if
that is known, and it may refuse. -/
structure TokenSource where
  token : Option String -> Except Error String

namespace TokenSource

/-- The same token for every destination. -/
def static (token : String) : TokenSource :=
  ⟨fun _ => .ok token⟩

/-- A token that begins with a fixed text and ends with the destination, or
with a dash where there is none. -/
def perAction (start : String) : TokenSource :=
  ⟨fun action => .ok (start ++ action.getD "-")⟩

/-- A source that refuses, with a message. -/
def failing (message : String) : TokenSource :=
  ⟨fun _ => .error (.function "csrf" (.other message))⟩

end TokenSource

/-- What a render can see. -/
structure Context where
  assigns : Assigns := {}
  config : Config := .standard
  tokens : Option TokenSource := none

namespace Context

/-- The token for a destination, if there is a source that gives one. -/
def csrfToken (context : Context) (action : Option String) : Except Error String :=
  match context.tokens with
  | some source => source.token action
  | none => .error .csrfUnavailable

end Context

/-- One call of a function in a render. -/
structure Call where
  function : String
  args : List Value
  note : Option String

/-- The calls of a render so far, the latest one first. -/
abbrev Journal := List Call

/-- A function that templates can call.  Besides answering it may leave a note
in the journal. -/
structure TemplateFunction where
  respond : Context -> Journal -> List Value -> Except Error Value
  note : List Value -> Option String := fun _ => none

/-- Functions by name.  The first entry of a name counts. -/
abbrev Registry := List (String × TemplateFunction)

/-- A function under the name it was found by. -/
structure NamedFunction where
  name : String
  function : TemplateFunction

namespace Registry

/-- The function of a name, if there is one. -/
def find? (registry : Registry) (name : String) : Option NamedFunction :=
  (lookUp? name registry).map fun function => ⟨name, function⟩

end Registry
end HtmlTemplate
