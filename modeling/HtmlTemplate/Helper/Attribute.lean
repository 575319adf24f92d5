import HtmlTemplate.Helper.Options
import HtmlTemplate.Value.Conversion

namespace HtmlTemplate
namespace Attribute

/-!
# Attributes

Options as the attributes of a tag, each one with a space in front.  An atom
has its underscores replaced by dashes, a string is a name as it stands.  The
options `data`, `aria` and `phx` hold further options, at any depth, whose
names begin with theirs.  `true` is a bare name, `nil` and `false` are left
out, and a list under `class` is joined with spaces.

All options of one level are checked before any of them is written.
-/

/-- The name that errors show. -/
def helper : String := "attributes_escape"

/-- The keys whose options are prefixed with the key. -/
def nestingNames : List String := ["data", "aria", "phx"]

/-- A name with dashes in place of underscores. -/
def dashed (name : String) : String :=
  name.map fun c => if c = '_' then '-' else c

/-- The name that a key contributes. -/
def baseName : OptionKey -> String
  | .atom name => dashed name
  | .str text => text

/-- The name of an attribute below another name, if there is one. -/
def fullName (above : Option String) (key : OptionKey) : String :=
  match above with
  | some start => start ++ "-" ++ baseName key
  | none => baseName key

/-- Whether a list or a map under a key holds further options. -/
def nests (above : Option String) (key : OptionKey) : Bool :=
  above.isSome || nestingNames.any fun name => key.names name

/-- An attribute that has only a name. -/
def bare (name : String) : Markup :=
  (Markup.raw " ").pushEscaped name

/-- An attribute with a value. -/
def assigned (name : String) (content : Markup) : Markup :=
  (((bare name).pushRaw "=\"").push content).pushRaw "\""

mutual

/-- The class names that a value stands for. -/
def classNames : Value -> Except Error (List String)
  | .nil => .ok []
  | .bool false => .ok []
  | .str text => .ok (if text.isEmpty then [] else [text])
  | .atom name => .ok (if name.isEmpty then [] else [name])
  | .markup content => .ok [content.toText]
  | .list items => classNamesOfAll items
  | other => .error (.function helper (.invalidClass other.display))

/-- The class names that values stand for, in order. -/
def classNamesOfAll : List Value -> Except Error (List String)
  | [] => .ok []
  | item :: rest => do
      let first ← classNames item
      let others ← classNamesOfAll rest
      return first ++ others

end

/-- The attribute of a value that holds no further options and no classes. -/
def ofPrinted (name : String) (value : Value) : Except Error (List Markup) := do
  let content ← value.print
  return [assigned name content]

mutual

/-- The attributes of one option. -/
def ofOption (above : Option String) (key : OptionKey) : Value -> Except Error (List Markup)
  | .list items =>
      if nests above key then do
        let _ ← Options.read helper (.list items)
        ofItems (some (fullName above key)) items
      else if key.names "class" then do
        let classes ← classNamesOfAll items
        return [assigned (fullName above key) (.escape (" ".intercalate classes))]
      else ofPrinted (fullName above key) (.list items)
  | .map entries =>
      if nests above key then ofEntries (some (fullName above key)) entries
      else ofPrinted (fullName above key) (.map entries)
  | .bool true => .ok [bare (fullName above key)]
  | .bool false => .ok []
  | .nil => .ok []
  | value => ofPrinted (fullName above key) value

/-- The attributes of a pair. -/
def ofItem (above : Option String) : Value -> Except Error (List Markup)
  | .tuple [.atom name, value] => ofOption above (.atom name) value
  | .tuple [.str text, value] => ofOption above (.str text) value
  | _ => .ok []

/-- The attributes of the pairs of a list that has been checked. -/
def ofItems (above : Option String) : List Value -> Except Error (List Markup)
  | [] => .ok []
  | item :: rest => do
      let first ← ofItem above item
      let others ← ofItems above rest
      return first ++ others

/-- The attributes of the entries of a map. -/
def ofEntries (above : Option String) : List (String × Value) -> Except Error (List Markup)
  | [] => .ok []
  | (name, value) :: rest => do
      let first ← ofOption above (.atom name) value
      let others ← ofEntries above rest
      return first ++ others

end

/-- The attributes of options. -/
def ofOptions : Options -> Except Error (List Markup)
  | [] => .ok []
  | (key, value) :: rest => do
      let first ← ofOption none key value
      let others ← ofOptions rest
      return first ++ others

/-- The attributes of a keyword list, a map or `nil`, as markup. -/
def write (attributes : Value) : Except Error Markup := do
  let options ← Options.read helper attributes
  let parts ← ofOptions options
  return .concat parts

end Attribute
end HtmlTemplate
