import HtmlTemplate.Toml.Document
import HtmlTemplate.Toml.NumberReader
import HtmlTemplate.Toml.StringReader

namespace HtmlTemplate
namespace Toml

/-!
# Reading a settings document

A document is read line by line.  A value may go on over several lines inside
an array, and inside a string between three quotes.  The steps that bound the
recursion are counted from the length of the text, which no reading exceeds.
-/

/-- Read a value that begins with a word: a truth value or a number. -/
def readWordValue : Reader Unit := do
  let word ← readWord
  if word = "true".toList ∨ word = "false".toList then return ()
  else if word = "inf".toList ∨ word = "nan".toList then readNumber word
  else
    match word with
    | first :: _ => if first = '-' ∨ first.isDigit then readNumber word else failure
    | [] => failure

mutual

/-- Read a value. -/
def readValue : Nat -> Reader Value
  | 0 => failure
  | steps + 1 => do
      match ← get with
      | [] => failure
      | c :: rest =>
          if c = '"' ∨ c = '\'' then
            set rest
            let content ← readString c
            return .string content.text content.plain
          else if c = '\x7b' then
            set rest
            skipSpaces
            if ← accept '\x7d' then return .table false []
            let entries ← readEntries steps []
            return .table false entries
          else if c = '[' then
            set rest
            let items ← readItems steps
            return .array items
          else if c = '+' then
            set rest
            readNumber (← readWord)
            return .scalar
          else
            readWordValue
            return .scalar

/-- Read the items of an array and its end.  A comma may stand behind the last
item. -/
def readItems : Nat -> Reader (List Value)
  | 0 => failure
  | steps + 1 => do
      skipBlanks
      if ← accept ']' then return []
      let item ← readValue steps
      skipBlanks
      if ← accept ',' then
        let rest ← readItems steps
        return item :: rest
      expect ']'
      return [item]

/-- Read the entries of a table that is written as a value, and its end.  No
comma may stand behind the last entry. -/
def readEntries : Nat -> Entries -> Reader Entries
  | 0, _ => failure
  | steps + 1, entries => do
      let key ← readKey
      expect '='
      skipSpaces
      let value ← readValue steps
      let entries ← entries.insert key value
      skipSpaces
      if ← accept '\x7d' then return entries
      expect ','
      skipSpaces
      readEntries steps entries

end

/-- Read the header of a section. -/
def readHeader : Reader Line := do
  expect '['
  let inArray ← accept '['
  skipSpaces
  let path ← readKey
  expect ']'
  if inArray then expect ']'
  endLine
  return .header path inArray

/-- Read an entry and the end of its line. -/
def readEntry : Reader Line := do
  let key ← readKey
  expect '='
  skipSpaces
  let value ← readValue (2 * (← get).length + 2)
  endLine
  return .entry key value

/-- Read lines up to the end of the text.  `steps` bounds their number. -/
def readLines : Nat -> Reader (List Line)
  | 0 => failure
  | steps + 1 => do
      skipBlanks
      match ← get with
      | [] => return []
      | c :: _ =>
          let line ← if c = '[' then readHeader else readEntry
          let rest ← readLines steps
          return line :: rest

namespace Document

/-- Read a document.  A byte order mark in front of it does not count. -/
def read? (text : String) : Option Document := do
  let chars :=
    match text.toList with
    | '\ufeff' :: rest => rest
    | all => all
  let (lines, _) ← (readLines (chars.length + 1)).run chars
  ofLines? lines

end Document
end Toml
end HtmlTemplate
