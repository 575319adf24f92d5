import HtmlTemplate.Text.CharClass

namespace HtmlTemplate
namespace Quoted

/-!
# Quoted text

Error messages and displayed values show a text between double quotes, with
everything that would be invisible or would end the quotation written as an
escape.  The apostrophe stands for itself.  A character that attaches to the
one before it is escaped as well, because it would attach to the quote.
-/

/-- The digits of a code point: lowercase hexadecimal without padding. -/
def hexDigits (code : Nat) : List Char :=
  Nat.toDigits 16 code

/-- One character between the quotes. -/
def quoteChar : Char -> List Char
  | '"' => ['\\', '"']
  | '\\' => ['\\', '\\']
  | '\n' => ['\\', 'n']
  | '\r' => ['\\', 'r']
  | '\t' => ['\\', 't']
  | '\x00' => ['\\', '0']
  | c =>
      if CharClass.isPrintable c && !CharClass.isCombining c then [c]
      else ['\\', 'u', '{'] ++ hexDigits c.toNat ++ ['}']

/-- A text with its quotes. -/
def quoteChars (text : List Char) : List Char :=
  '"' :: text.flatMap quoteChar ++ ['"']

/-- A text with its quotes. -/
def quote (text : String) : String :=
  String.ofList (quoteChars text.toList)

end Quoted
end HtmlTemplate
