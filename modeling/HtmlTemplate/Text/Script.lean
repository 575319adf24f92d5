namespace HtmlTemplate
namespace Script

/-!
# Text inside a script's string literal

The result can be placed between any of the three quotes of a script.  Line
ends of all three spellings become one `\n`, the separators U+2028 and U+2029
and NUL become numbered escapes, and `</` is broken up so that an enclosing
script element cannot be closed.
-/

/-- One character that is not part of a pair. -/
def escapeChar : Char -> List Char
  | '\r' => ['\\', 'n']
  | '\n' => ['\\', 'n']
  | '\\' => ['\\', '\\']
  | '"' => ['\\', '"']
  | '\'' => ['\\', '\'']
  | '\x60' => ['\\', '\x60']
  | '\u2028' => "\\u2028".toList
  | '\u2029' => "\\u2029".toList
  | '\x00' => "\\u0000".toList
  | c => [c]

/-- Escape a text.  A carriage return with its line feed counts as one line
end, and `</` is treated as a pair. -/
def escapeChars : List Char -> List Char
  | [] => []
  | '\r' :: '\n' :: rest => '\\' :: 'n' :: escapeChars rest
  | '<' :: '/' :: rest => '<' :: '\\' :: '/' :: escapeChars rest
  | c :: rest => escapeChar c ++ escapeChars rest

/-- Escape a text for the inside of a script's string literal. -/
def escape (text : String) : String :=
  String.ofList (escapeChars text.toList)

end Script
end HtmlTemplate
