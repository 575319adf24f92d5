import HtmlTemplate.Syntax.Reader
import HtmlTemplate.Syntax.Tree
import HtmlTemplate.Text.CharClass

namespace HtmlTemplate
namespace Lexeme

/-!
# Names and literals

The smallest parts of a tag.  A keyword is a whole name, so `ended` does not
begin with the keyword `end`.  A name may end in one question mark, unless an
equals sign follows it.
-/

open Reader

/-- Words that are never the name of a variable or a function. -/
def reserved : List String :=
  ["nil", "true", "false", "and", "or", "not", "in", "if", "unless", "for", "case", "do",
    "else", "end", "when", "fn"]

/-- What a name begins with. -/
def isNameStart (c : Char) : Bool :=
  CharClass.isAlphabetic c || c == '_'

/-- What a name goes on with. -/
def isNamePart (c : Char) : Bool :=
  CharClass.isAlphanumeric c || c == '_'

/-- A question mark that belongs to the name before it. -/
def takeQuestionMark : List Char -> List Char × List Char
  | '?' :: '=' :: rest => ([], '?' :: '=' :: rest)
  | '?' :: rest => (['?'], rest)
  | rest => ([], rest)

/-- Any name, reserved or not. -/
def identifier : Reader String
  | first :: rest =>
      if isNameStart first then
        let mark := takeQuestionMark (rest.dropWhile isNamePart)
        .ok (String.ofList (first :: rest.takeWhile isNamePart ++ mark.1)) mark.2
      else .miss (first :: rest)
  | [] => .miss []

/-- A name that satisfies a condition.  Otherwise the miss is at its start. -/
def identifierWhere (accepts : String -> Bool) : Reader String :=
  fun source =>
    match identifier source with
    | .ok name rest => if accepts name then .ok name rest else .miss source
    | reply => reply

/-- One given word. -/
def keyword (word : String) : Reader Unit := do
  let _ ← identifierWhere (· == word)

/-- The name of a variable or a function. -/
def name : Reader String :=
  identifierWhere fun word => !reserved.contains word

/-- A digit or a separator between digits. -/
def isDigitPart (c : Char) : Bool :=
  c.isDigit || c == '_'

/-- One digit and whatever digits and separators follow. -/
def digits : Reader (List Char) := do
  let first ← satisfy Char.isDigit
  fun source => .ok (first :: source.takeWhile isDigitPart) (source.dropWhile isDigitPart)

/-- A point and digits. -/
def fraction : Reader (List Char) := do
  char '.'
  let places ← digits
  return '.' :: places

/-- A sign, if there is one. -/
def sign : Reader (List Char) := do
  let found ← optional (satisfy fun c => c == '+' || c == '-')
  return found.toList

/-- An exponent.  Its digits may begin with separators. -/
def exponent : Reader (List Char) := do
  let mark ← satisfy fun c => c == 'e' || c == 'E'
  let direction ← sign
  let separators ← fun source => .ok (source.takeWhile (· == '_')) (source.dropWhile (· == '_'))
  let places ← digits
  return mark :: direction ++ separators ++ places

/-- The characters of a number without a sign. -/
def numberChars : Reader (List Char) := do
  let whole ← digits
  let places ← optional fraction
  let power ← optional exponent
  return whole ++ places.getD [] ++ power.getD []

/-- A number without a sign. -/
def number : Reader Literal := do
  let text ← numberChars
  return .num (String.ofList text)

/-- A number with or without a minus sign, as patterns allow it. -/
def signedNumber : Reader Literal := do
  let minus ← optional (char '-')
  let text ← numberChars
  return .num (String.ofList (if minus.isSome then '-' :: text else text))

/-- What stands between the quotes of a string: up to the next quote that no
backslash stands before.  There is none if the source ends in a backslash. -/
def spellingFrom (read : List Char) : List Char -> Option (List Char × List Char)
  | [] => some (read.reverse, [])
  | '\\' :: c :: rest => spellingFrom (c :: '\\' :: read) rest
  | ['\\'] => none
  | '"' :: rest => some (read.reverse, '"' :: rest)
  | c :: rest => spellingFrom (c :: read) rest

/-- The inside of a string literal; nothing is read if it cannot be closed
because the source ends in a backslash. -/
def spelling : Reader (List Char) :=
  fun source =>
    match spellingFrom [] source with
    | some (text, rest) => .ok text rest
    | none => .ok [] source

/-- A string literal. -/
def string : Reader Literal := do
  char '"'
  let text ← spelling
  char '"'
  return .str (String.ofList text)

/-- An atom. -/
def atom : Reader Literal := do
  char ':'
  let name ← identifier
  return .atom name

/-- `nil`, `true` and `false`. -/
def word : Reader Literal :=
  (do keyword "nil"; return .nil) <|>
  (do keyword "false"; return .bool false) <|>
  (do keyword "true"; return .bool true)

/-- A literal of an expression. -/
def literal : Reader Literal :=
  word <|> number <|> string <|> atom

/-- A literal of a pattern, which may be a negative number. -/
def patternLiteral : Reader Literal :=
  word <|> signedNumber <|> string <|> atom

end Lexeme
end HtmlTemplate
