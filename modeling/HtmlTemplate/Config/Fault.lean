import HtmlTemplate.Text.Quoted

namespace HtmlTemplate

/-!
# Why a configuration is refused

Delimiters have to be long enough, free of white space and different from each
other, and parameters need a name.  A settings file has to be well-formed and
of the right types; what exactly is wrong with one is not said.
-/

/-- The name of the settings file. -/
def settingsFileName : String := "safehtml.toml"

/-- What is wrong with a setting. -/
inductive ConfigFault where
  | shortDelimiter (delimiter : String)
  | spaceInDelimiter (delimiter : String)
  | equalDelimiters (delimiter : String)
  | emptyParameter
  | invalidSettings
  deriving DecidableEq, Repr

namespace ConfigFault

/-- The fault in words. -/
def message : ConfigFault -> String
  | .shortDelimiter delimiter =>
      "delimiters must be at least two characters long: " ++ Quoted.quote delimiter
  | .spaceInDelimiter delimiter =>
      "delimiters may not contain white spaces: " ++ Quoted.quote delimiter
  | .equalDelimiters delimiter =>
      "opening and closing delimiters must differ: " ++ Quoted.quote delimiter
  | .emptyParameter => "parameter names may not be empty"
  | .invalidSettings => "invalid TOML in " ++ settingsFileName ++ ": "

end ConfigFault
end HtmlTemplate
