namespace HtmlTemplate
namespace Toml

/-!
# Settings documents

A document has entries of its own and then sections with entries.  Values that
no setting can have keep nothing of what they are.  A table has at most one
value of a name.  The parts of a dotted key build tables, to which later dotted
keys of the same table may add; a table that is written as a value is complete.
-/

/-- A value.  A string is plain if it is written in the document just as it
is, without escapes and without line ends of two characters. -/
inductive Value where
  | string (text : String) (plain : Bool)
  | scalar
  | array (items : List Value)
  | table (dotted : Bool) (entries : List (String × Value))

instance : Inhabited Value := ⟨.scalar⟩

/-- Named values in source order. -/
abbrev Entries := List (String × Value)

/-- A section: the path in its header, whether it is an element of an array,
and its entries. -/
structure Section where
  path : List String
  inArray : Bool
  entries : Entries := []

/-- A whole document. -/
structure Document where
  entries : Entries := []
  sections : List Section := []

/-- A line of a document. -/
inductive Line where
  | header (path : List String) (inArray : Bool)
  | entry (key : List String) (value : Value)

namespace Entries

/-- Change the first entry of a name, which has to allow it, or add one. -/
def update (name : String) (change : Option Value -> Option Value) : Entries -> Option Entries
  | [] => (change none).map fun value => [(name, value)]
  | (other, value) :: rest =>
      if other = name then (change (some value)).map fun value => (other, value) :: rest
      else (update name change rest).map fun rest => (other, value) :: rest

/-- Add a value under a dotted key.  The last part has to be new, and each part
before it new or a table that dotted keys have built. -/
def insert : List String -> Value -> Entries -> Option Entries
  | [], _, _ => none
  | [name], value, entries =>
      entries.update name fun
        | none => some value
        | some _ => none
  | name :: rest, value, entries =>
      entries.update name fun
        | none => (insert rest value []).map (.table true)
        | some (.table true inner) => (insert rest value inner).map (.table true)
        | some _ => none

end Entries

namespace Document

/-- Add an entry to the section in progress. -/
def insert (document : Document) (key : List String) (value : Value) : Option Document :=
  match document.sections with
  | [] => (document.entries.insert key value).map fun entries => { document with entries }
  | last :: earlier =>
      (last.entries.insert key value).map fun entries =>
        { document with sections := { last with entries } :: earlier }

/-- Add lines to a document whose latest section comes first. -/
def addLines (document : Document) : List Line -> Option Document
  | [] => some document
  | .header path inArray :: rest =>
      addLines { document with sections := ⟨path, inArray, []⟩ :: document.sections } rest
  | .entry key value :: rest =>
      match document.insert key value with
      | some document => addLines document rest
      | none => none

/-- The document of lines, unless a key is in conflict with an earlier one. -/
def ofLines? (lines : List Line) : Option Document :=
  (addLines {} lines).map fun document =>
    { document with sections := document.sections.reverse }

end Document
end Toml
end HtmlTemplate
