namespace HtmlTemplate

/-!
# String literals as they are spelled

Between its quotes a string literal holds characters that stand for
themselves and escapes.  Nine escapes are known: seven of one character, a
byte below 80 in two hexadecimal digits, and a code point in one to six of
them between braces.  Any other use of a backslash is refused.
-/

/-- Why a spelling denotes no text. -/
inductive SpellingFault where
  | nothingEscaped
  | missingByteDigits
  | byteTooLarge (value : Nat)
  | missingBrace
  | unclosedBrace
  | emptyBraces
  | notHexadecimal (found : Char)
  | tooManyDigits
  | noCharacter (value : Nat)
  | unknown (found : Char)
  deriving DecidableEq, Repr

namespace SpellingFault

/-- A number in lowercase hexadecimal. -/
def hexText (value : Nat) : String :=
  String.ofList (Nat.toDigits 16 value)

/-- The fault in words. -/
def message : SpellingFault -> String
  | .nothingEscaped => "expected a character after `\\`"
  | .missingByteDigits => "`\\x` must be followed by two hex digits"
  | .byteTooLarge value =>
      "`\\x" ++ hexText value ++ "` is out of range, use `\\u\x7b" ++ hexText value ++ "\x7d`"
  | .missingBrace => "expected `\x7b` after `\\u`"
  | .unclosedBrace => "unclosed unicode escape"
  | .emptyBraces => "empty unicode escape `\\u\x7b\x7d`"
  | .notHexadecimal found =>
      "unexpected non hex character in `\\u`: `" ++ String.singleton found ++ "`"
  | .tooManyDigits => "overlong unicode escape (at most 6 hex digits)"
  | .noCharacter value =>
      "character code " ++ hexText value ++ " is not a valid unicode character"
  | .unknown found => "unknown escape `\\" ++ String.singleton found ++ "`"

end SpellingFault

namespace Spelling

/-- The value of a hexadecimal digit, in either letter case. -/
def hexValue? (c : Char) : Option Nat :=
  if c.isDigit then some (c.toNat - '0'.toNat)
  else if 'a' ≤ c ∧ c ≤ 'f' then some (c.toNat - 'a'.toNat + 10)
  else if 'A' ≤ c ∧ c ≤ 'F' then some (c.toNat - 'A'.toNat + 10)
  else none

/-- The escapes that consist of one character after the backslash. -/
def simple? : Char -> Option Char
  | '"' => some '"'
  | '\'' => some '\''
  | '\\' => some '\\'
  | 'n' => some '\n'
  | 'r' => some '\r'
  | 't' => some '\t'
  | '0' => some '\x00'
  | _ => none

/-- The character with a code point, unless it is a surrogate or too large. -/
def ofCodePoint (value : Nat) : Except SpellingFault Char :=
  if valid : value.isValidChar then .ok (Char.ofNatAux value valid) else .error (.noCharacter value)

/-- Where reading stands inside a literal: among plain characters, after a
backslash, or inside a numbered escape. -/
inductive Mode where
  | plain
  | escaped
  | byte (value count : Nat)
  | brace
  | digits (value count : Nat)
  deriving DecidableEq, Repr

/-- One character's effect: perhaps a character of the text, and the mode
that follows. -/
def step (mode : Mode) (c : Char) : Except SpellingFault (Option Char × Mode) :=
  match mode with
  | .plain => .ok (if c = '\\' then (none, .escaped) else (some c, .plain))
  | .escaped =>
      match simple? c with
      | some value => .ok (some value, .plain)
      | none =>
          if c = 'x' then .ok (none, .byte 0 0)
          else if c = 'u' then .ok (none, .brace)
          else .error (.unknown c)
  | .byte value count =>
      match hexValue? c with
      | none => .error .missingByteDigits
      | some digit =>
          let value := value * 16 + digit
          if count = 0 then .ok (none, .byte value 1)
          else if 0x7F < value then .error (.byteTooLarge value)
          else .ok (some (Char.ofNat value), .plain)
  | .brace => if c = '{' then .ok (none, .digits 0 0) else .error .missingBrace
  | .digits value count =>
      if c = '}' then
        if count = 0 then .error .emptyBraces
        else (ofCodePoint value).map fun found => (some found, .plain)
      else
        match hexValue? c with
        | none => .error (.notHexadecimal c)
        | some digit =>
            if count < 6 then .ok (none, .digits (value * 16 + digit) (count + 1))
            else .error .tooManyDigits

/-- What is missing where a literal ends in the middle of an escape. -/
def finish : Mode -> Except SpellingFault Unit
  | .plain => .ok ()
  | .escaped => .error .nothingEscaped
  | .byte _ _ => .error .missingByteDigits
  | .brace => .error .missingBrace
  | .digits _ _ => .error .unclosedBrace

/-- Read the rest of a literal.  `text` is what it denotes so far, last
character first. -/
def readFrom (text : List Char) (mode : Mode) : List Char -> Except SpellingFault (List Char)
  | [] => (finish mode).map fun _ => text.reverse
  | c :: rest =>
      match step mode c with
      | .error fault => .error fault
      | .ok (some found, next) => readFrom (found :: text) next rest
      | .ok (none, next) => readFrom text next rest

/-- The text that a spelling denotes. -/
def read (spelling : String) : Except SpellingFault String :=
  (readFrom [] .plain spelling.toList).map String.ofList

end Spelling
end HtmlTemplate
