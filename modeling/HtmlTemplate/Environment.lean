import HtmlTemplate.Helper.BuiltIn
import HtmlTemplate.Program.Compile
import HtmlTemplate.Program.Render
import HtmlTemplate.Syntax.Source

namespace HtmlTemplate

/-!
# Environments and templates

An environment compiles sources with a configuration and a registry of
functions.  A template keeps the functions that it found and the configuration,
so a function that is added later does not change it.
-/

/-- A compiled template. -/
structure Template where
  name : Option String
  program : Program
  config : Config

/-- What templates are compiled with. -/
structure Environment where
  config : Config := .standard
  functions : Registry := BuiltIn.registry

/-- How a render ended, and the calls it made, the latest one first. -/
structure Outcome where
  result : Except Error Markup
  journal : Journal

namespace Outcome

/-- The notes that the calls left, in the order of the calls. -/
def notes (outcome : Outcome) : List String :=
  outcome.journal.reverse.filterMap Call.note

end Outcome

namespace Environment

/-- Add a function, in place of one that has the same name. -/
def addFunction (environment : Environment) (name : String) (function : TemplateFunction) :
    Environment :=
  { environment with functions := (name, function) :: environment.functions }

/-- Whether there is a function of a name. -/
def hasFunction (environment : Environment) (name : String) : Bool :=
  (environment.functions.find? name).isSome

/-- Compile a source, under a name if it has one. -/
def compile (environment : Environment) (name : Option String) (source : String) :
    Except Error Template :=
  match Node.parse environment.config.delimiters name source with
  | .error fault => .error (.parse fault)
  | .ok nodes =>
      match Program.compile environment.functions nodes with
      | .error fault => .error (.compile fault)
      | .ok program => .ok ⟨name, program, environment.config⟩

/-- Compile the content of a file, under its path.  The content is missing if
the file is, and it has to be UTF-8. -/
def compileFile (environment : Environment) (path : String) (content : Option ByteArray) :
    Except Error Template :=
  match content.bind String.fromUTF8? with
  | some source => environment.compile (some path) source
  | none => .error .unreadableFile

end Environment

namespace Template

/-- Render a template. -/
def render (template : Template) (assigns : Assigns) (tokens : Option TokenSource) : Outcome :=
  let (result, journal) := template.program.render ⟨assigns, template.config, tokens⟩
  ⟨result, journal⟩

end Template
end HtmlTemplate
