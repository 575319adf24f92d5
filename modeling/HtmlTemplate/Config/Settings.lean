import HtmlTemplate.Config
import HtmlTemplate.Error
import HtmlTemplate.Toml.DocumentReader
import HtmlTemplate.Toml.Outline

namespace HtmlTemplate

/-!
# The settings file

The section `general` names the two parameters and the section `syntax` the two
delimiters.  All four settings are optional, every other one is ignored, and a
text of white space is a file without settings.  A setting has to be a string
that is written just as it is.  Instead of a section with names there may be an
array of its two settings.
-/

/-- What a settings file sets, by the two sections it may have. -/
structure Settings where
  parameters : Option (Option String × Option String) := none
  delimiters : Option (Option String × Option String) := none

namespace Settings

/-- The string of a setting. -/
def string? : Toml.Value -> Option String
  | .string text true => some text
  | _ => none

/-- The setting of a name among entries.  The outer option is empty if it is no
proper string. -/
def setting? (name : String) (entries : Toml.Entries) : Option (Option String) :=
  match lookUp? name entries with
  | some value => (string? value).map some
  | none => some none

/-- Two settings among entries. -/
def pairOfEntries? (first second : String) (entries : Toml.Entries) :
    Option (Option String × Option String) := do
  let one ← setting? first entries
  let other ← setting? second entries
  return (one, other)

/-- Two settings from the value of a section. -/
def pairOfValue? (first second : String) : Toml.Value -> Option (Option String × Option String)
  | .table _ entries => pairOfEntries? first second entries
  | .array [one, other] => do
      let one ← string? one
      let other ← string? other
      return (some one, some other)
  | _ => none

/-- Two settings from the sections under a name.  Neither setting may be a
section itself. -/
def pairOfSections? (first second : String) (sections : List Toml.Section) :
    Option (Option String × Option String) :=
  let misplaced := sections.any fun part =>
    match part.path with
    | [_] => part.inArray
    | _ :: name :: _ => name = first || name = second
    | [] => false
  if misplaced then none
  else
    pairOfEntries? first second (sections.flatMap fun part =>
      if part.path.length = 1 then part.entries else [])

/-- The two settings of a section, which is given as a value or by headers.  The
inner option is empty if there is no such section. -/
def pair? (name first second : String) (document : Toml.Document) :
    Option (Option (Option String × Option String)) :=
  match lookUp? name document.entries with
  | some value => (pairOfValue? first second value).map some
  | none =>
      match document.sections.filter fun part => part.path.head? = some name with
      | [] => some none
      | sections => (pairOfSections? first second sections).map some

/-- The settings of a document. -/
def ofDocument? (document : Toml.Document) : Option Settings := do
  let _ ← Toml.Outline.ofDocument? document
  let parameters ← pair? "general" "csrf_param" "method_param" document
  let delimiters ← pair? "syntax" "block_start" "block_end" document
  return ⟨parameters, delimiters⟩

/-- The settings of a text. -/
def read? (text : String) : Option Settings :=
  if isBlank text.toList then some {} else (Toml.Document.read? text).bind ofDocument?

end Settings

namespace Config

/-- The configuration of settings.  The parameters are checked first, in order,
and the delimiters only if their section is there. -/
def ofParts (settings : Settings) : Except ConfigFault Config := do
  let (csrf?, method?) := settings.parameters.getD (none, none)
  let config : Config := .standard
  let config ←
    match csrf? with
    | some name => config.withCsrfParam name
    | none => pure config
  let config ←
    match method? with
    | some name => config.withMethodParam name
    | none => pure config
  match settings.delimiters with
  | some (opening?, closing?) =>
      config.withDelimiters
        ⟨opening?.getD config.delimiters.opening, closing?.getD config.delimiters.closing⟩
  | none => pure config

/-- A configuration from the text of a settings file. -/
def ofSettings (text : String) : Except ConfigFault Config :=
  match Settings.read? text with
  | some settings => ofParts settings
  | none => .error .invalidSettings

/-- A configuration from the content of a settings file.  The content is
missing if the file is, and it has to be UTF-8. -/
def ofFile (content : Option ByteArray) : Except Error Config :=
  match content.bind String.fromUTF8? with
  | some text =>
      match ofSettings text with
      | .ok config => .ok config
      | .error fault => .error (.config fault)
  | none => .error .unreadableFile

end Config
end HtmlTemplate
