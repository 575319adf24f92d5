import HtmlTemplate.Toml.Document

namespace HtmlTemplate
namespace Toml

/-!
# The outline of a document

A name of a table stands for one thing: an entry, a section or an array of
sections.  A path may lead through sections that have no header of their own,
and one of these may get its header later.  Behind the header of an array
element, a path through the array leads into that element.  No path leads
through an entry.
-/

/-- What a name of a table stands for: a step of a path without a header, a
section with its header, an array of sections, or an entry. -/
inductive Origin where
  | step
  | header
  | array
  | entry
  deriving DecidableEq, Repr

/-- The names at one level, each with those below it; of an array, those below
its last element. -/
inductive Outline where
  | empty
  | node (name : String) (origin : Origin) (below others : Outline)

namespace Outline

/-- A new name at the end of a path. -/
def chain (origin : Origin) : List String -> Outline
  | [] => .empty
  | [name] => .node name origin .empty .empty
  | name :: rest => .node name .step (chain origin rest) .empty

/-- Add a name at the end of a path, unless it is taken. -/
def insert (origin : Origin) (path : List String) : Outline -> Option Outline
  | .empty => some (chain origin path)
  | .node name known below others =>
      match path with
      | [] => none
      | first :: rest =>
          if first = name then
            match rest, origin, known with
            | [], .header, .step => some (.node name .header below others)
            | [], .array, .array => some (.node name .array .empty others)
            | [], _, _ => none
            | _ :: _, _, .entry => none
            | _ :: _, _, _ =>
                (insert origin rest below).map fun below => .node name known below others
          else
            (insert origin path others).map fun others => .node name known below others

/-- Add the entries of the table at a path. -/
def insertEntries (path : List String) (entries : Entries) (outline : Outline) :
    Option Outline :=
  entries.foldlM (fun outline entry => outline.insert .entry (path ++ [entry.1])) outline

/-- Add a section and its entries. -/
def insertSection (outline : Outline) (part : Section) : Option Outline :=
  (outline.insert (if part.inArray then .array else .header) part.path).bind
    (insertEntries part.path part.entries)

/-- The outline of a document, unless a name stands for two things. -/
def ofDocument? (document : Document) : Option Outline :=
  (insertEntries [] document.entries .empty).bind fun outline =>
    document.sections.foldlM insertSection outline

end Outline
end Toml
end HtmlTemplate
