import HtmlTemplate.Text.CharClass.Alphabetic
import HtmlTemplate.Text.CharClass.Numeric
import HtmlTemplate.Text.CharClass.Combining
import HtmlTemplate.Text.CharClass.Unprintable

namespace HtmlTemplate
namespace CharClass

/-!
# Character classes

The classes that names, quoted text and trimming depend on.  Each one is
decided by a comparison inside ASCII and by a table of the Unicode property
above it, so a statement about ASCII text never has to look into a table.

No claim is made here about any property beyond the one each table lists.
-/

/-- Whether a code point lies in one of the given closed ranges. -/
def inRanges (ranges : List (Nat × Nat)) (code : Nat) : Bool :=
  ranges.any fun range => range.1 ≤ code && code ≤ range.2

/-- Letters and everything else with the property Alphabetic. -/
def isAlphabetic (c : Char) : Bool :=
  if c.toNat < 0x80 then c.isAlpha else inRanges alphabeticRanges c.toNat

/-- Digits and every other character of a numeric category. -/
def isNumeric (c : Char) : Bool :=
  if c.toNat < 0x80 then c.isDigit else inRanges numericRanges c.toNat

/-- What a name may go on with, the underscore apart. -/
def isAlphanumeric (c : Char) : Bool :=
  isAlphabetic c || isNumeric c

/-- The property White_Space: six ASCII characters and the Unicode spaces,
the line and the paragraph separator among them. -/
def isWhiteSpace (c : Char) : Bool :=
  inRanges
    [(0x09, 0x0D), (0x20, 0x20), (0x85, 0x85), (0xA0, 0xA0), (0x1680, 0x1680),
      (0x2000, 0x200A), (0x2028, 0x2029), (0x202F, 0x202F), (0x205F, 0x205F),
      (0x3000, 0x3000)]
    c.toNat

/-- Whether a character attaches to the one before it. -/
def isCombining (c : Char) : Bool :=
  if c.toNat < 0x80 then false else inRanges combiningRanges c.toNat

/-- Letters that only hold the place of an absent part of a syllable.  They are
the letters with the property Default_Ignorable_Code_Point. -/
def isFiller (c : Char) : Bool :=
  inRanges [(0x115F, 0x1160), (0x3164, 0x3164), (0xFFA0, 0xFFA0)] c.toNat

/-- Whether a character has a printed form of its own.  The space has one, a
filler has none although its category is that of a letter. -/
def isPrintable (c : Char) : Bool :=
  if c.toNat < 0x7F then 0x20 ≤ c.toNat
  else !inRanges unprintableRanges c.toNat && !isFiller c

end CharClass

/-- Drop white space, in the Unicode sense, from the front. -/
def trimStart (text : List Char) : List Char :=
  text.dropWhile CharClass.isWhiteSpace

/-- Whether there is nothing but white space, in the Unicode sense. -/
def isBlank (text : List Char) : Bool :=
  text.all CharClass.isWhiteSpace

end HtmlTemplate
