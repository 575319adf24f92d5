import HtmlTemplate.Text.Quoted
import HtmlTemplate.Value.Basic

namespace HtmlTemplate

/-!
# Users

An application type whose objects templates can print and look into.
-/

/-- A user of an application. -/
structure User where
  name : String
  admin : Bool

namespace User

/-- A user as it is displayed. -/
def description (user : User) : String :=
  "User \x7b name: " ++ Quoted.quote user.name ++ ", admin: " ++
    (if user.admin then "true" else "false") ++ " \x7d"

/-- A user as it is printed. -/
def markup (user : User) : Markup :=
  ((Markup.raw "<span class=\"user\">").pushEscaped user.name).pushRaw "</span>"

/-- A user as a value.  Values of different identities are different objects. -/
def toValue (identity : Nat) (user : User) : Value :=
  .object ⟨identity, "User", user.description, .ok user.markup⟩
    [("name", .str user.name), ("admin", .bool user.admin)]

end User
end HtmlTemplate
