namespace HtmlTemplate
namespace Entity

/-!
# Character entities

Five characters can end or begin something in HTML text or in an attribute
value.  Escaping replaces each of them by its entity and keeps all others,
so the result can be put into either place.

The same replacement is given twice.  `escape` works character by character.
A writer receives the clean runs between two entities instead, cut out at byte
offsets, and a text without any of the five is handed back as it is.
-/

/-- The entity that stands for one of the five significant characters. -/
def ofChar? : Char -> Option String
  | '<' => some "&lt;"
  | '>' => some "&gt;"
  | '&' => some "&amp;"
  | '"' => some "&quot;"
  | '\'' => some "&#39;"
  | _ => none

/-- The entity of a single byte.  All five characters are ASCII, so a byte
inside a longer UTF-8 sequence never has one. -/
def ofByte? (byte : UInt8) : Option String :=
  ofChar? (Char.ofUInt8 byte)

/-- One character as it is written: its entity, or itself. -/
def escapeChar (c : Char) : List Char :=
  match ofChar? c with
  | some entity => entity.toList
  | none => [c]

/-- A text as it is written, character by character. -/
def escapeChars (text : List Char) : List Char :=
  text.flatMap escapeChar

/-- Escape a text for HTML text and for quoted attribute values. -/
def escape (text : String) : String :=
  String.ofList (escapeChars text.toList)

/-! ## Escaping by byte offsets

A writer is not handed single characters.  The bytes of the text are scanned,
and between two bytes that have an entity the text is cut out as it is.
-/

/-- The text from one byte offset up to another.  There is none unless the
offsets are in order and both lie at the boundary of a character. -/
def slice? (text : String) (first last : Nat) : Option String :=
  if inside : first ≤ last ∧ String.Pos.Raw.IsValid text ⟨first⟩ ∧
      String.Pos.Raw.IsValid text ⟨last⟩ then
    some (String.extract (text.pos ⟨first⟩ inside.2.1) (text.pos ⟨last⟩ inside.2.2))
  else none

/-- Scan the bytes from the offset `index` on.  The clean run in progress
began at the offset `last`. -/
def piecesFrom? (text : String) (last index : Nat) : List UInt8 -> Option (List String)
  | [] => do
      let run ← slice? text last text.utf8ByteSize
      return [run]
  | byte :: rest =>
      match ofByte? byte with
      | some entity => do
          let run ← slice? text last index
          let others ← piecesFrom? text (index + 1) (index + 1) rest
          return run :: entity :: others
      | none => piecesFrom? text last (index + 1) rest

/-- What a writer is given in turn: clean runs, some of them empty, with one
entity between two of them. -/
def pieces? (text : String) : Option (List String) :=
  piecesFrom? text 0 0 text.toUTF8.data.toList

/-- The text that a writer has collected after all pieces. -/
def written? (text : String) : Option String :=
  (pieces? text).map String.join

/-- The collected text, which there always is. -/
def written (text : String) : String :=
  (written? text).getD ""

/-- A text that is escaped when it is shown. -/
structure Escaped where
  text : String

instance : ToString Escaped where
  toString escaped := written escaped.text

/-- What escaping hands back: the text it was given, or a new one. -/
inductive Passage where
  | kept (text : String)
  | built (text : String)

/-- The text that is handed back. -/
def Passage.text : Passage -> String
  | .kept text => text
  | .built text => text

/-- Escape a text, and build a new one only where a byte has an entity.  What
stands in front of the first such byte is taken over, and the rest is written. -/
def passage? (text : String) : Option Passage :=
  match text.toUTF8.data.toList.findIdx? fun byte => (ofByte? byte).isSome with
  | none => some (.kept text)
  | some first => do
      let clean ← slice? text 0 first
      let rest ← slice? text first text.utf8ByteSize
      let others ← written? rest
      return .built (clean ++ others)

end Entity
end HtmlTemplate
