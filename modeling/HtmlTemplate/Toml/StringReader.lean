import HtmlTemplate.Toml.Lexeme

namespace HtmlTemplate
namespace Toml

/-!
# Strings and keys of a settings document

A string stands between one quote or three.  Between three it may have line
ends, and the first one, directly behind the quotes, does not count.  Escapes
are read between double quotes only.  A string is first cut out of the text,
and then its content is read.
-/

/-- The content of a string so far, last character first, and whether it is
written just as it is. -/
structure Content where
  reversed : List Char := []
  plain : Bool := true

namespace Content

/-- Add a character. -/
def push (content : Content) (c : Char) : Content :=
  { content with reversed := c :: content.reversed }

/-- Add what an escape stands for. -/
def pushEscaped (content : Content) (chars : List Char) : Content :=
  ⟨chars.reverse ++ content.reversed, false⟩

/-- Add a line end, which may have been written with two characters. -/
def pushLineEnd (content : Content) (isLong : Bool) : Content :=
  ⟨'\n' :: content.reversed, content.plain && !isLong⟩

/-- The content as text. -/
def text (content : Content) : String :=
  String.ofList content.reversed.reverse

end Content

/-- The number that hexadecimal digits stand for. -/
def hexNumber? (digits : List Char) : Option Nat :=
  digits.foldlM (fun value c =>
    if c.isDigit then some (16 * value + (c.toNat - '0'.toNat))
    else if 'a' ≤ c ∧ c ≤ 'f' then some (16 * value + (c.toNat - 'a'.toNat + 10))
    else if 'A' ≤ c ∧ c ≤ 'F' then some (16 * value + (c.toNat - 'A'.toNat + 10))
    else none) 0

/-- The character of a numbered escape. -/
def hexChar? (digits : List Char) : Option Char := do
  let code ← hexNumber? digits
  if code.isValidChar then some (Char.ofNat code) else none

/-- The character of an escape that is one character long. -/
def escapedChar? : Char -> Option Char
  | '"' => some '"'
  | '\\' => some '\\'
  | 'b' => some '\x08'
  | 'f' => some '\x0c'
  | 'n' => some '\n'
  | 'r' => some '\r'
  | 't' => some '\t'
  | _ => none

/-- What is left behind white space and line ends. -/
def afterBlankLines : List Char -> List Char
  | [] => []
  | '\n' :: rest => afterBlankLines rest
  | '\r' :: '\n' :: rest => afterBlankLines rest
  | c :: rest => if isSpace c then afterBlankLines rest else c :: rest

/-- What an escape stands for, and what follows it; the backslash has been
read.  In a string with several lines, one at the end of a line stands for
nothing and takes all white space behind it along. -/
def readEscape (severalLines : Bool) : List Char -> Option (List Char × List Char)
  | 'u' :: a :: b :: c :: d :: rest => (hexChar? [a, b, c, d]).map fun escaped => ([escaped], rest)
  | 'U' :: a :: b :: c :: d :: e :: f :: g :: h :: rest =>
      (hexChar? [a, b, c, d, e, f, g, h]).map fun escaped => ([escaped], rest)
  | c :: rest =>
      match escapedChar? c with
      | some escaped => some ([escaped], rest)
      | none =>
          if severalLines then
            (afterLineEnd? ((c :: rest).dropWhile isSpace)).map fun next =>
              ([], afterBlankLines next)
          else none
  | [] => none

/-- Read the content of a string.  `steps` bounds the number of its parts. -/
def readContent (escapes severalLines : Bool) : Nat -> Content -> List Char -> Option Content
  | _, content, [] => some content
  | 0, _, _ => none
  | steps + 1, content, c :: rest =>
      if escapes ∧ c = '\\' then
        match readEscape severalLines rest with
        | some (escaped, next) =>
            readContent escapes severalLines steps (content.pushEscaped escaped) next
        | none => none
      else
        match afterLineEnd? (c :: rest) with
        | some next =>
            if severalLines then
              readContent escapes severalLines steps (content.pushLineEnd (c == '\r')) next
            else none
        | none =>
            if isStringChar c then readContent escapes severalLines steps (content.push c) rest
            else none

/-- Cut a text at the next quote.  A backslash takes the character behind it
along where there are escapes. -/
def cutShort (quote : Char) (escapes escaped : Bool) : List Char -> Option (List Char × List Char)
  | [] => none
  | c :: rest =>
      if c = quote ∧ !escaped then some ([], rest)
      else
        (cutShort quote escapes (escapes && !escaped && c == '\\') rest).map fun cut =>
          (c :: cut.1, cut.2)

/-- What follows three quotes.  Up to two more quotes belong to the content. -/
def afterLong (quote : Char) : List Char -> List Char × List Char
  | first :: second :: rest =>
      if first = quote ∧ second = quote then ([quote, quote], rest)
      else if first = quote then ([quote], second :: rest)
      else ([], first :: second :: rest)
  | [first] => if first = quote then ([quote], []) else ([], [first])
  | [] => ([], [])

/-- Cut a text at the next three quotes. -/
def cutLong (quote : Char) (escapes escaped : Bool) : List Char -> Option (List Char × List Char)
  | [] => none
  | c :: rest =>
      if c = quote ∧ !escaped ∧ rest.take 2 = [quote, quote] then
        some (afterLong quote (rest.drop 2))
      else
        (cutLong quote escapes (escapes && !escaped && c == '\\') rest).map fun cut =>
          (c :: cut.1, cut.2)

/-- Read a string between two quotes; the first one has been read. -/
def readShort (quote : Char) : Reader Content := do
  let (inner, rest) ← cutShort quote (quote == '"') false (← get)
  set rest
  readContent (quote == '"') false inner.length {} inner

/-- Read a string between three quotes at each end; the first three have been
read. -/
def readLong (quote : Char) : Reader Content := do
  let text ← get
  let text := (afterLineEnd? text).getD text
  let (inner, rest) ← cutLong quote (quote == '"') false text
  set rest
  readContent (quote == '"') true inner.length {} inner

/-- Read a string of either kind; its first quote has been read. -/
def readString (quote : Char) : Reader Content := do
  let text ← get
  if text.take 2 = [quote, quote] then
    set (text.drop 2)
    readLong quote
  else readShort quote

/-- Read one part of a key: a word, or a string between two quotes. -/
def readKeyPart : Reader String := do
  match ← get with
  | c :: rest =>
      if c = '"' ∨ c = '\'' then
        if rest.take 2 = [c, c] then failure
        set rest
        return (← readShort c).text
      else return String.ofList (← readWord)
  | [] => failure

/-- Read the further parts of a dotted key.  `steps` bounds their number. -/
def readKeyRest : Nat -> Reader (List String)
  | 0 => failure
  | steps + 1 => do
      skipSpaces
      if ← accept '.' then
        skipSpaces
        let part ← readKeyPart
        let rest ← readKeyRest steps
        return part :: rest
      else return []

/-- Read a dotted key and the white space behind it. -/
def readKey : Reader (List String) := do
  let part ← readKeyPart
  let rest ← readKeyRest (← get).length.succ
  return part :: rest

end Toml
end HtmlTemplate
