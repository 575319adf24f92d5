namespace HtmlTemplate
namespace Toml

/-!
# The smallest parts of a settings document

White space, line ends and comments.  A carriage return counts
only in front of a line feed.  Nothing is said about why a document cannot be
read, so a reader that fails yields `none`.
-/

/-- Reads something from the front of a text. -/
abbrev Reader := StateT (List Char) Option

/-- Spaces and tabs. -/
def isSpace (c : Char) : Bool :=
  c == ' ' || c == '\t'

/-- What keys without quotes consist of. -/
def isKeyChar (c : Char) : Bool :=
  c.isAlphanum || c == '-' || c == '_'

/-- What comments consist of. -/
def isCommentChar (c : Char) : Bool :=
  c == '\t' || 0x20 ≤ c.toNat

/-- What strings consist of, besides line ends. -/
def isStringChar (c : Char) : Bool :=
  c == '\t' || (0x20 ≤ c.toNat && c.toNat != 0x7F)

/-- What follows a line end at the front of a text. -/
def afterLineEnd? : List Char -> Option (List Char)
  | '\n' :: rest => some rest
  | '\r' :: '\n' :: rest => some rest
  | _ => none

/-- Skip spaces and tabs. -/
def skipSpaces : Reader Unit :=
  modify (List.dropWhile isSpace)

/-- What is left behind white space, line ends and whole comments.  A comment
has to end with its line or with the document. -/
def afterBlanks (inComment : Bool) : List Char -> Option (List Char)
  | [] => some []
  | '\n' :: rest => afterBlanks false rest
  | '\r' :: '\n' :: rest => afterBlanks false rest
  | c :: rest =>
      if inComment then if isCommentChar c then afterBlanks true rest else none
      else if isSpace c then afterBlanks false rest
      else if c = '#' then afterBlanks true rest
      else some (c :: rest)

/-- Skip white space, line ends and comments. -/
def skipBlanks : Reader Unit := do
  let rest ← afterBlanks false (← get)
  set rest

/-- Read a character if it comes next. -/
def accept (c : Char) : Reader Bool := do
  match ← get with
  | next :: rest => if next = c then set rest; return true else return false
  | [] => return false

/-- Read a character, which has to come next. -/
def expect (c : Char) : Reader Unit := do
  if ← accept c then return () else failure

/-- Read the end of a line, with white space and a comment in front of it. -/
def endLine : Reader Unit := do
  skipSpaces
  match ← get with
  | '#' :: rest => set (rest.dropWhile isCommentChar)
  | _ => pure ()
  match ← get with
  | [] => return ()
  | text =>
      let rest ← afterLineEnd? text
      set rest

/-- Read a run of key characters, at least one. -/
def readWord : Reader (List Char) := do
  let text ← get
  let word := text.takeWhile isKeyChar
  if word.isEmpty then failure
  set (text.dropWhile isKeyChar)
  return word

end Toml
end HtmlTemplate
