import HtmlTemplate.Syntax.Fault

namespace HtmlTemplate

/-!
# Readers

A reader takes a source apart from the front.  It succeeds with a value and
the rest, it misses, which lets another reader be tried at the same place, or
it fails, which ends all reading.  Both a miss and a failure say where they
happened, as the source that is left there; only a failure can have a cause.

Repetition needs no measure of its own: a round that succeeds takes at least
one character, so the source itself bounds the number of rounds.
-/

/-- What a reader answers. -/
inductive Reply (α : Type) where
  | ok (value : α) (rest : List Char)
  | miss (place : List Char)
  | fail (place : List Char) (cause : Option SyntaxCause)

/-- A reader of values. -/
def Reader (α : Type) : Type := List Char -> Reply α

namespace Reader

variable {α β : Type}

/-- Read nothing. -/
def pure (value : α) : Reader α :=
  fun source => .ok value source

/-- Read one thing, then another that may depend on it. -/
def bind (first : Reader α) (next : α -> Reader β) : Reader β :=
  fun source =>
    match first source with
    | .ok value rest => next value rest
    | .miss place => .miss place
    | .fail place cause => .fail place cause

instance : Monad Reader where
  pure := pure
  bind := bind

/-- Miss here. -/
def miss : Reader α :=
  fun source => .miss source

/-- Fail here. -/
def fail (cause : SyntaxCause) : Reader α :=
  fun source => .fail source (some cause)

/-- Fail at a place read before. -/
def failAt (place : List Char) (cause : SyntaxCause) : Reader α :=
  fun _ => .fail place (some cause)

/-- The place where reading stands. -/
def here : Reader (List Char) :=
  fun source => .ok source source

/-- Try another reader where the first one misses. -/
def orElse (first second : Reader α) : Reader α :=
  fun source =>
    match first source with
    | .miss _ => second source
    | reply => reply

instance : OrElse (Reader α) where
  orElse first second := orElse first (second ())

/-- Read something or nothing. -/
def optional (reader : Reader α) : Reader (Option α) :=
  fun source =>
    match reader source with
    | .ok value rest => .ok (some value) rest
    | .miss _ => .ok none source
    | .fail place cause => .fail place cause

/-- Turn a miss into a failure, at the place of the miss. -/
def commit (reader : Reader α) : Reader α :=
  fun source =>
    match reader source with
    | .miss place => .fail place none
    | reply => reply

/-- Turn a miss into a failure with a cause, at the place where the reader
was started. -/
def require (cause : SyntaxCause) (reader : Reader α) : Reader α :=
  fun source =>
    match reader source with
    | .miss _ => .fail source (some cause)
    | reply => reply

/-- Read nothing, and miss where the reader would succeed. -/
def notAhead (reader : Reader α) : Reader Unit :=
  fun source =>
    match reader source with
    | .ok _ _ => .miss source
    | .miss _ => .ok () source
    | .fail place cause => .fail place cause

/-- Read one character of a class. -/
def satisfy (accepts : Char -> Bool) : Reader Char
  | c :: rest => if accepts c then .ok c rest else .miss (c :: rest)
  | [] => .miss []

/-- Read one given character. -/
def char (c : Char) : Reader Unit :=
  fun source =>
    match source with
    | found :: rest => if found = c then .ok () rest else .miss source
    | [] => .miss source

/-- Read one given text. -/
def exactly (text : List Char) : Reader Unit :=
  fun source =>
    if text.isPrefixOf source then .ok () (source.drop text.length) else .miss source

/-- The rounds of `many`.  `values` is what was read so far, last value first. -/
def manyFrom (reader : Reader α) (values : List α) : List Char -> Reader (List α)
  | [] => fun source =>
      match reader source with
      | .ok _ _ => .miss source
      | .miss _ => .ok values.reverse source
      | .fail place cause => .fail place cause
  | _ :: budget => fun source =>
      match reader source with
      | .ok value rest => manyFrom reader (value :: values) budget rest
      | .miss _ => .ok values.reverse source
      | .fail place cause => .fail place cause

/-- Read as many as there are, perhaps none. -/
def many (reader : Reader α) : Reader (List α) :=
  fun source => manyFrom reader [] source source

/-- The rounds of `separated` after the first value. -/
def separatedFrom (reader : Reader α) (values : List α) : List Char -> Reader (List α)
  | [] => fun source => .ok values.reverse source
  | _ :: budget => fun source =>
      match source with
      | ',' :: item =>
          match reader item with
          | .ok value rest => separatedFrom reader (value :: values) budget rest
          | .miss _ => .ok values.reverse source
          | .fail place cause => .fail place cause
      | _ => .ok values.reverse source

/-- Read values with commas between them, perhaps none.  A comma without a
value after it is left unread. -/
def separated (reader : Reader α) : Reader (List α) :=
  fun source =>
    match reader source with
    | .ok value rest => separatedFrom reader [value] rest rest
    | .miss _ => .ok [] source
    | .fail place cause => .fail place cause

/-- The white space between the parts of a tag. -/
def isSpace (c : Char) : Bool :=
  c == ' ' || c == '\t' || c == '\r' || c == '\n'

/-- Skip white space, if there is any. -/
def spaces : Reader Unit :=
  fun source => .ok () (source.dropWhile isSpace)

/-- Read something with white space around it. -/
def spaced (reader : Reader α) : Reader α := do
  spaces
  let value ← reader
  spaces
  return value

/-- Read one level deeper, if there is room for another level. -/
def nested (room : Nat) (inside : Nat -> Reader α) : Reader α :=
  match room with
  | 0 => fail .tooDeep
  | room + 1 => inside room

/-- The room that is left after some more levels. -/
def deeper (room levels : Nat) : Reader Nat :=
  if levels ≤ room then pure (room - levels) else fail .tooDeep

end Reader
end HtmlTemplate
