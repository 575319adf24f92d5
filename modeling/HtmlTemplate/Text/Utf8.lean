namespace HtmlTemplate
namespace Utf8

/-!
# Reading bytes as text

Bytes that are well-formed UTF-8 are the text they encode.  Otherwise every
maximal ill-formed part is replaced by one U+FFFD: a byte that can begin no
sequence, or the longest beginning of a sequence that the next byte breaks off.
The breaking byte itself is read again as a beginning.

The repair runs a small machine over the bytes.  It is used only where the
bytes are not well-formed, so well-formed text is kept by construction.
-/

/-- A sequence that has begun: how many bytes are owed, the range that the
next of them has to lie in, and the code point read so far. -/
structure Pending where
  owed : Nat
  low : UInt8
  high : UInt8
  code : Nat

/-- What a byte means where no sequence is open. -/
inductive Start where
  | char (c : Char)
  | opens (pending : Pending)
  | invalid

/-- Classify a first byte.  The second byte's range excludes overlong forms,
surrogates and code points past U+10FFFF. -/
def start (byte : UInt8) : Start :=
  let code := byte.toNat
  if byte < 0x80 then .char (Char.ofNat code)
  else if byte < 0xC2 then .invalid
  else if byte < 0xE0 then .opens ⟨1, 0x80, 0xBF, code - 0xC0⟩
  else if byte < 0xF0 then
    .opens ⟨2, if byte = 0xE0 then 0xA0 else 0x80, if byte = 0xED then 0x9F else 0xBF,
      code - 0xE0⟩
  else if byte < 0xF5 then
    .opens ⟨3, if byte = 0xF0 then 0x90 else 0x80, if byte = 0xF4 then 0x8F else 0xBF,
      code - 0xF0⟩
  else .invalid

/-- U+FFFD, which stands for what could not be read. -/
def replacement : Char := '\uFFFD'

/-- The text repaired so far and the sequence that is open. -/
structure Repair where
  text : String
  pending : Option Pending

/-- Read a byte as a beginning. -/
def Repair.begin (text : String) (byte : UInt8) : Repair :=
  match start byte with
  | .char c => ⟨text.push c, none⟩
  | .opens pending => ⟨text, some pending⟩
  | .invalid => ⟨text.push replacement, none⟩

/-- Read one byte: it continues the open sequence, or breaks it off and is
read as a beginning. -/
def Repair.step (repair : Repair) (byte : UInt8) : Repair :=
  match repair.pending with
  | none => Repair.begin repair.text byte
  | some pending =>
      if pending.low ≤ byte && byte ≤ pending.high then
        let code := pending.code * 64 + (byte.toNat - 0x80)
        if pending.owed ≤ 1 then ⟨repair.text.push (Char.ofNat code), none⟩
        else ⟨repair.text, some ⟨pending.owed - 1, 0x80, 0xBF, code⟩⟩
      else Repair.begin (repair.text.push replacement) byte

/-- Close a sequence that the end of the input breaks off. -/
def Repair.finish (repair : Repair) : String :=
  match repair.pending with
  | none => repair.text
  | some _ => repair.text.push replacement

/-- Replace every maximal ill-formed part. -/
def repair (bytes : List UInt8) : String :=
  (bytes.foldl Repair.step ⟨"", none⟩).finish

/-- The text of some bytes, repaired only where they are not well-formed. -/
def decode (bytes : ByteArray) : String :=
  match String.fromUTF8? bytes with
  | some text => text
  | none => repair bytes.toList

/-- Well-formed bytes are read as the text they encode. -/
theorem decode_toUTF8 (text : String) : decode text.toUTF8 = text := by
  have valid : text.toByteArray.IsValidUTF8 := text.isValidUTF8
  simp only [decode, String.toUTF8_eq_toByteArray, String.fromUTF8?, dif_pos valid]
  rfl

end Utf8
end HtmlTemplate
