import HtmlTemplate.Value.Display

namespace HtmlTemplate

/-!
# Options

Helpers take their options as a keyword list or a map.  The order of the
options is kept, and so are repeated ones, since most options become
attributes.  Keys may also be strings; only keys that are atoms are looked up.
-/

/-- The key of an option. -/
inductive OptionKey where
  | atom (name : String)
  | str (text : String)
  deriving DecidableEq, Repr

namespace OptionKey

/-- Whether a key is the atom of a name. -/
def names (name : String) : OptionKey -> Bool
  | .atom other => other == name
  | .str _ => false

/-- A key as a value. -/
def toValue : OptionKey -> Value
  | .atom name => .atom name
  | .str text => .str text

end OptionKey

/-- Options in the order they were given. -/
abbrev Options := List (OptionKey × Value)

namespace Options

/-- One option, read from a pair. -/
def readPair? : Value -> Option (OptionKey × Value)
  | .tuple [.atom name, value] => some (.atom name, value)
  | .tuple [.str text, value] => some (.str text, value)
  | _ => none

/-- Options from a value, unless the value has none. -/
def read? : Value -> Option Options
  | .nil => some []
  | .map entries => some (entries.map fun entry => (.atom entry.1, entry.2))
  | .list items => items.mapM readPair?
  | _ => none

/-- The options of a helper. -/
def read (helper : String) (value : Value) : Except Error Options :=
  match read? value with
  | some options => .ok options
  | none => .error (.function helper (.keywordListExpected value.display))

/-- The first option of a name. -/
def get? (name : String) (options : Options) : Option Value :=
  (options.find? fun option => option.1.names name).map Prod.snd

/-- The options without those of a name. -/
def without (name : String) (options : Options) : Options :=
  options.filter fun option => !option.1.names name

/-- The first option of a name, and the options without those of that name. -/
def take (name : String) (options : Options) : Option Value × Options :=
  (options.get? name, options.without name)

/-- What was taken out is not found any more. -/
@[simp] theorem get?_without_self (name : String) (options : Options) :
    (options.without name).get? name = none := by
  simp [get?, without]

/-- An option whose key is an atom. -/
def single (name : String) (value : Value) : Options :=
  [(.atom name, value)]

/-- Put an option in front, unless there is one of that name. -/
def putNew (name : String) (value : Value) (options : Options) : Options :=
  if (options.get? name).isSome then options else single name value ++ options

/-- Options as a keyword list. -/
def toValue (options : Options) : Value :=
  .list (options.map fun option => .tuple [option.1.toValue, option.2])

end Options
end HtmlTemplate
