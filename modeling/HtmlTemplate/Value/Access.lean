import HtmlTemplate.Value.Display

namespace HtmlTemplate
namespace Value

/-!
# Fields and elements

`value.name` has to find something; `value[key]` yields `nil` where nothing is
found, and for `nil` itself.  Positions may count from the end.  Lists and maps
can be gone through element by element.
-/

/-- The element at a position; negative positions count from the end. -/
def itemAt? (items : List Value) (position : Int) : Option Value :=
  if 0 ≤ position then items[position.toNat]?
  else if (-position).toNat ≤ items.length then items[items.length - (-position).toNat]?
  else none

/-- `value.name`: keys of maps and keyword lists, and fields of objects. -/
def field (value : Value) (name : String) : Except Error Value :=
  let found (result : Option Value) : Except Error Value :=
    match result with
    | some item => .ok item
    | none => .error (.undefinedField name value.display)
  match value with
  | .map entries => found (lookUp? name entries)
  | .list _ =>
      match value.asKeywords? with
      | some pairs => found (lookUp? name pairs)
      | none => .error (value.badOperand ".")
  | .object _ fields => found (lookUp? name fields)
  | _ => .error (value.badOperand ".")

/-- `value[key]`: a key that is not there yields `nil`. -/
def index (value key : Value) : Except Error Value :=
  match value, key with
  | .nil, _ => .ok .nil
  | .map entries, .str name => .ok ((lookUp? name entries).getD .nil)
  | .map entries, .atom name => .ok ((lookUp? name entries).getD .nil)
  | .list items, .int position => .ok ((itemAt? items position.toInt).getD .nil)
  | .tuple items, .int position => .ok ((itemAt? items position.toInt).getD .nil)
  | .list items, .atom name =>
      match (Value.list items).asKeywords? with
      | some pairs => .ok ((lookUp? name pairs).getD .nil)
      | none => .error (value.badOperand "[]")
  | .object _ fields, .str name => .ok ((lookUp? name fields).getD .nil)
  | .object _ fields, .atom name => .ok ((lookUp? name fields).getD .nil)
  | _, _ => .error (value.badOperand "[]")

/-- The elements of a list, or the entries of a map as pairs in the order of
the keys. -/
def enumerate (value : Value) : Except Error (List Value) :=
  match value with
  | .list items => .ok items
  | .map entries => .ok (entries.map fun entry => .tuple [.str entry.1, entry.2])
  | _ => .error (.notEnumerable value.display)

end Value
end HtmlTemplate
