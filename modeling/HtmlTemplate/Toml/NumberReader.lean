import HtmlTemplate.Decimal.Reading
import HtmlTemplate.Toml.Lexeme
import HtmlTemplate.Value.Basic

namespace HtmlTemplate
namespace Toml

/-!
# Numbers of a settings document

No setting is a number, but a document with an ill-formed number is refused.
Underscores may stand between digits, a whole number must not begin with a zero
that does not count, and it has to fit into 64 bits.  A float has to be finite,
unless it is written as infinite or as not a number.
-/

/-- How far the digits of a number have been read. -/
structure DigitRun where
  begun : Bool := false
  leadingZero : Bool := false
  underscore : Bool := false

/-- Whether a character is a digit of a radix. -/
def isDigitOf (radix : Nat) (c : Char) : Bool :=
  if c.isDigit then c.toNat - '0'.toNat < radix
  else if 'a' ≤ c ∧ c ≤ 'f' ∨ 'A' ≤ c ∧ c ≤ 'F' then radix == 16
  else false

/-- Read digits of a radix, and separate them from what follows.  There has to
be a digit, and an underscore has to be followed by one. -/
def digitsFrom (radix : Nat) (leadingZeros : Bool) (run : DigitRun) :
    List Char -> Option (List Char × List Char)
  | [] => if run.begun && !run.underscore then some ([], []) else none
  | c :: rest =>
      let next? : Option (Option DigitRun) :=
        if c = '0' ∧ !run.begun then some (some { run with begun := true, leadingZero := true })
        else if isDigitOf radix c then
          if run.begun && run.leadingZero && !leadingZeros then none
          else some (some { run with begun := true, underscore := false })
        else if c = '_' ∧ !run.begun then none
        else if c = '_' ∧ !run.underscore then some (some { run with underscore := true })
        else some none
      match next? with
      | none => none
      | some (some next) =>
          (digitsFrom radix leadingZeros next rest).map fun parts => (c :: parts.1, parts.2)
      | some none => if run.begun && !run.underscore then some ([], c :: rest) else none

/-- Read digits with an optional sign. -/
def signedDigits (leadingZeros : Bool) : List Char -> Option (List Char × List Char)
  | '-' :: rest => (digitsFrom 10 leadingZeros {} rest).map fun parts => ('-' :: parts.1, parts.2)
  | '+' :: rest => digitsFrom 10 leadingZeros {} rest
  | text => digitsFrom 10 leadingZeros {} text

/-- The digits without their separators. -/
def withoutSeparators (digits : List Char) : List Char :=
  digits.filter (· != '_')

/-- The value of a digit. -/
def digitValue (c : Char) : Nat :=
  if c.isDigit then c.toNat - '0'.toNat
  else if 'a' ≤ c then c.toNat - 'a'.toNat + 10
  else c.toNat - 'A'.toNat + 10

/-- The value of digits with an optional minus sign. -/
def wholeValue (radix : Nat) (digits : List Char) : Int :=
  match withoutSeparators digits with
  | '-' :: rest => -(rest.foldl (fun value c => radix * value + digitValue c) 0 : Nat)
  | all => (all.foldl (fun value c => radix * value + digitValue c) 0 : Nat)

/-- Whether a word is a whole number of a radix. -/
def isWhole (radix : Nat) (word : List Char) : Bool :=
  let parts := if radix = 10 then signedDigits false word else digitsFrom radix true {} word
  match parts with
  | some (digits, []) => (int64? (wholeValue radix digits)).isSome
  | _ => false

/-- Whether digits, a fraction and an exponent make a finite float. -/
def isFinite (whole : List Char) (fraction exponent : Option (List Char)) : Bool :=
  let fractionText := (fraction.map fun digits => '.' :: digits).getD []
  let exponentText := (exponent.map fun digits => 'e' :: digits).getD []
  match readFloat? (String.ofList (withoutSeparators (whole ++ fractionText ++ exponentText))) with
  | some value => value.isFinite
  | none => false

/-- Read the exponent that begins with a mark.  A plus sign stands outside of
words, so it ends the word of the mark. -/
def readExponent : List Char -> Reader (List Char)
  | [] => do
      let _ ← accept '+'
      match digitsFrom 10 true {} (← readWord) with
      | some (digits, []) => return digits
      | _ => failure
  | text =>
      match signedDigits true text with
      | some (digits, []) => return digits
      | _ => failure

/-- Read a float, given its first word and the word behind its point. -/
def readFloat (word : List Char) (afterPoint : Option (List Char)) : Reader Unit := do
  let (whole, rest) ← signedDigits false word
  let (fraction, rest) ←
    match afterPoint with
    | none => pure (none, rest)
    | some text =>
        if !rest.isEmpty then failure
        let (digits, rest) ← digitsFrom 10 true {} text
        pure (some digits, rest)
  let exponent ←
    match rest with
    | [] => pure none
    | mark :: text =>
        if mark = 'e' ∨ mark = 'E' then some <$> readExponent text else failure
  if isFinite whole fraction exponent then return () else failure

/-- Read a number whose first word has been read. -/
def readNumber (word : List Char) : Reader Unit := do
  match word with
  | '0' :: 'x' :: digits => if isWhole 16 digits then return () else failure
  | '0' :: 'o' :: digits => if isWhole 8 digits then return () else failure
  | '0' :: 'b' :: digits => if isWhole 2 digits then return () else failure
  | _ =>
      if word.contains 'e' || word.contains 'E' then readFloat word none
      else if ← accept '.' then readFloat word (some (← readWord))
      else if ["inf".toList, "-inf".toList, "nan".toList, "-nan".toList].contains word then
        return ()
      else if isWhole 10 word then return ()
      else failure

end Toml
end HtmlTemplate
