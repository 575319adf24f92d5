import HtmlTemplate.Context
import HtmlTemplate.Value.Display

namespace HtmlTemplate
namespace Observer

/-!
# Functions that watch a render

Small functions that an application registers to see what its templates
compute: which values reach a place, of which types they are, and in which
order.
-/

/-- Return the first argument, and leave its displayed form as a note. -/
def record : TemplateFunction :=
  { respond := fun _ _ args => .ok (args.headD .nil)
    note := fun args => some (args.headD .nil).display }

/-- The displayed forms of all arguments. -/
def inspect : TemplateFunction :=
  { respond := fun _ _ args => .ok (.str (" | ".intercalate (args.map Value.display))) }

/-- The name of the type of the first argument. -/
def typeOf : TemplateFunction :=
  { respond := fun _ _ args =>
      match args with
      | [] => .ok (.str "none")
      | value :: _ => .ok (.str value.typeName) }

/-- The names of the assigns. -/
def assignKeys : TemplateFunction :=
  { respond := fun context _ _ => .ok (.list (context.assigns.names.map .str)) }

/-- Always the same value. -/
def constant (value : Value) : TemplateFunction :=
  { respond := fun _ _ _ => .ok value }

/-- Always the same complaint, in the name of a function. -/
def failing (name message : String) : TemplateFunction :=
  { respond := fun _ _ _ => .error (.function name (.other message)) }

/-- The arguments as a list. -/
def echo : TemplateFunction :=
  { respond := fun _ _ args => .ok (.list args) }

/-- The observers by name. -/
def registry : Registry :=
  [("record", record), ("inspect", inspect), ("type_of", typeOf), ("assign_keys", assignKeys)]

end Observer
end HtmlTemplate
