import HtmlTemplate.Text.Entity
import HtmlTemplate.Text.Utf8

namespace HtmlTemplate

/-!
# Markup

Content that needs no further escaping.  A markup is a list of pieces: text,
single bytes taken from byte-oriented input, and markup that was put inside as
a whole.  Text is one kind of piece, whether it is owned, shared or known
beforehand.  A markup is flattened only when it is written out, and equality
compares the flattened bytes, never the shape.
-/

/-- One piece of a markup.  A nested piece keeps the pieces of the markup
that was put inside. -/
inductive Chunk where
  | text (content : String)
  | byte (value : UInt8)
  | nested (chunks : List Chunk)

namespace Chunk

section Walk

variable {σ : Type} (visit : σ -> ByteArray -> σ)

mutual

/-- Visit what a piece consists of, in order. -/
def walk (state : σ) : Chunk -> σ
  | .text content => visit state content.toUTF8
  | .byte value => visit state (ByteArray.empty.push value)
  | .nested chunks => walkAll state chunks

/-- Visit what several pieces consist of, in order. -/
def walkAll (state : σ) : List Chunk -> σ
  | [] => state
  | chunk :: rest => walkAll (walk state chunk) rest

end

end Walk

mutual

/-- Whether there is a single byte in a piece, at any depth. -/
def hasByte : Chunk -> Bool
  | .text _ => false
  | .byte _ => true
  | .nested chunks => anyHasByte chunks

/-- Whether there is a single byte in one of several pieces. -/
def anyHasByte : List Chunk -> Bool
  | [] => false
  | chunk :: rest => hasByte chunk || anyHasByte rest

end

mutual

/-- Write a piece that has only text behind what is written.  There is no way
to write a single byte. -/
def writeText? (written : String) : Chunk -> Option String
  | .text content => some (written ++ content)
  | .byte _ => none
  | .nested chunks => writeAllText? written chunks

/-- Write several pieces that have only text. -/
def writeAllText? (written : String) : List Chunk -> Option String
  | [] => some written
  | chunk :: rest => do
      let written ← writeText? written chunk
      writeAllText? written rest

end

end Chunk

/-- Content that is safe as it stands. -/
structure Markup where
  chunks : List Chunk := []

namespace Markup

/-- No content at all. -/
def empty : Markup := {}

instance : Inhabited Markup := ⟨empty⟩

/-- Visit the content in order. -/
def walk {σ : Type} (visit : σ -> ByteArray -> σ) (state : σ) (markup : Markup) : σ :=
  Chunk.walkAll visit state markup.chunks

/-- The flattened content. -/
def bytes (markup : Markup) : ByteArray :=
  markup.walk (· ++ ·) .empty

/-- The length of the flattened content in bytes. -/
def length (markup : Markup) : Nat :=
  markup.walk (fun length content => length + content.size) 0

/-- Whether the flattened content is empty. -/
def isEmpty (markup : Markup) : Bool :=
  markup.length == 0

/-- Write some more.  After an error nothing more is written. -/
def writeNext {ε σ : Type} (write : ByteArray -> EStateM ε σ Unit) :
    EStateM.Result ε σ Unit -> ByteArray -> EStateM.Result ε σ Unit
  | .ok _ state, content => write content state
  | .error error state, _ => .error error state

/-- Write the content in order. -/
def writeTo {ε σ : Type} (write : ByteArray -> EStateM ε σ Unit) (markup : Markup) :
    EStateM ε σ Unit :=
  fun start => markup.walk (writeNext write) (.ok () start)

/-- Whether there is a single byte in the content, at any depth. -/
def hasByte (markup : Markup) : Bool :=
  Chunk.anyHasByte markup.chunks

/-- The displayed text.  Single bytes may be ill-formed, so with one of them the
flattened content is repaired; without any the texts are written as they are. -/
def display? (markup : Markup) : Option String :=
  if markup.hasByte then some (Utf8.decode markup.bytes)
  else Chunk.writeAllText? "" markup.chunks

/-- The displayed text, which there always is. -/
def toText (markup : Markup) : String :=
  markup.display?.getD ""

/-- The flattened content turned into text; ill-formed bytes are replaced. -/
def intoText (markup : Markup) : String :=
  match String.fromUTF8? markup.bytes with
  | some text => text
  | none => Utf8.decode markup.bytes

instance : BEq Markup where
  beq left right := left.bytes == right.bytes

/-- The pieces that trusted text contributes: none if it is empty. -/
def textChunks (text : String) : List Chunk :=
  if text.isEmpty then [] else [.text text]

/-- Trusted text, taken verbatim. -/
def raw (text : String) : Markup :=
  ⟨textChunks text⟩

/-- Any other text, escaped. -/
def escape (text : String) : Markup :=
  raw (Entity.escape text)

/-- The pieces that a markup contributes to an enclosing one: a single piece
is moved out, two or more stay together. -/
def asChunks (markup : Markup) : List Chunk :=
  match markup.chunks with
  | [] => []
  | [chunk] => [chunk]
  | chunks => [.nested chunks]

/-- Append trusted text. -/
def pushRaw (markup : Markup) (text : String) : Markup :=
  ⟨markup.chunks ++ textChunks text⟩

/-- Append text that still has to be escaped. -/
def pushEscaped (markup : Markup) (text : String) : Markup :=
  markup.pushRaw (Entity.escape text)

/-- Append a single byte, whatever it is. -/
def pushByte (markup : Markup) (byte : UInt8) : Markup :=
  ⟨markup.chunks ++ [.byte byte]⟩

/-- Append a whole markup. -/
def push (markup inner : Markup) : Markup :=
  ⟨markup.chunks ++ inner.asChunks⟩

/-- Join several markups in order. -/
def concat (parts : List Markup) : Markup :=
  ⟨parts.flatMap asChunks⟩

/-! ## Leaves

Every view of a markup is a fold over the same leaves.
-/

end Markup

namespace Chunk

mutual

/-- The contents of the texts and single bytes of a piece, in order. -/
def leaves : Chunk -> List ByteArray
  | .text content => [content.toUTF8]
  | .byte value => [ByteArray.empty.push value]
  | .nested chunks => leavesOfAll chunks

/-- The contents of the texts and single bytes of several pieces, in order. -/
def leavesOfAll : List Chunk -> List ByteArray
  | [] => []
  | chunk :: rest => leaves chunk ++ leavesOfAll rest

end

section Walk

variable {σ : Type} (visit : σ -> ByteArray -> σ)

mutual

theorem walk_eq_foldl (state : σ) : (chunk : Chunk) ->
    chunk.walk visit state = chunk.leaves.foldl visit state
  | .text _ => rfl
  | .byte _ => rfl
  | .nested chunks => walkAll_eq_foldl state chunks

theorem walkAll_eq_foldl (state : σ) : (chunks : List Chunk) ->
    walkAll visit state chunks = (leavesOfAll chunks).foldl visit state
  | [] => rfl
  | chunk :: rest => by
      rw [walkAll, leavesOfAll, List.foldl_append, walk_eq_foldl state chunk,
        walkAll_eq_foldl _ rest]

end

end Walk

theorem leavesOfAll_append (first second : List Chunk) :
    leavesOfAll (first ++ second) = leavesOfAll first ++ leavesOfAll second := by
  induction first with
  | nil => rfl
  | cons chunk rest inductionHypothesis =>
      rw [List.cons_append, leavesOfAll, leavesOfAll, inductionHypothesis, List.append_assoc]

/-- The bytes of leaves do not depend on what they are appended to. -/
theorem foldl_leaves (bytes : ByteArray) (leaves : List ByteArray) :
    leaves.foldl (· ++ ·) bytes = bytes ++ leaves.foldl (· ++ ·) .empty := by
  induction leaves generalizing bytes with
  | nil => simp
  | cons leaf rest inductionHypothesis =>
      rw [List.foldl_cons, List.foldl_cons, inductionHypothesis,
        inductionHypothesis (.empty ++ leaf), ByteArray.empty_append, ByteArray.append_assoc]

mutual

/-- A piece without single bytes is written as the text that its leaves
encode. -/
theorem writeText?_of_hasByte (written : String) : (chunk : Chunk) -> chunk.hasByte = false ->
    ∃ text, chunk.writeText? written = some text ∧
      text.toUTF8 = chunk.leaves.foldl (· ++ ·) written.toUTF8
  | .text content, _ => ⟨written ++ content, rfl, String.toByteArray_append⟩
  | .nested chunks, plain => writeAllText?_of_anyHasByte written chunks plain

theorem writeAllText?_of_anyHasByte (written : String) : (chunks : List Chunk) ->
    anyHasByte chunks = false ->
    ∃ text, writeAllText? written chunks = some text ∧
      text.toUTF8 = (leavesOfAll chunks).foldl (· ++ ·) written.toUTF8
  | [], _ => ⟨written, rfl, rfl⟩
  | chunk :: rest, plain => by
      rw [anyHasByte, Bool.or_eq_false_iff] at plain
      rcases writeText?_of_hasByte written chunk plain.1 with ⟨middle, first, shown⟩
      rcases writeAllText?_of_anyHasByte middle rest plain.2 with ⟨text, second, shown'⟩
      refine ⟨text, by rw [writeAllText?, first]; exact second, ?_⟩
      rw [shown', shown, leavesOfAll, List.foldl_append]

end

end Chunk

namespace Markup

/-- The contents of the texts and single bytes of a markup, in order. -/
def leaves (markup : Markup) : List ByteArray :=
  Chunk.leavesOfAll markup.chunks

theorem bytes_eq (markup : Markup) : markup.bytes = markup.leaves.foldl (· ++ ·) .empty :=
  Chunk.walkAll_eq_foldl _ _ _

/-- However it is written, the displayed text is the one that the bytes
encode. -/
theorem display?_eq (markup : Markup) : markup.display? = some (Utf8.decode markup.bytes) := by
  unfold display?
  split
  · rfl
  · rename_i plain
    rw [Bool.not_eq_true] at plain
    rcases Chunk.writeAllText?_of_anyHasByte "" markup.chunks plain with ⟨text, shown, same⟩
    have whole : text.toUTF8 = markup.bytes := same.trans markup.bytes_eq.symm
    rw [shown, ← whole, Utf8.decode_toUTF8]

theorem toText_eq (markup : Markup) : markup.toText = Utf8.decode markup.bytes := by
  rw [toText, display?_eq, Option.getD_some]

/-! ## The bytes of each operation

The flattened bytes are the only view of a markup that other modules rely on.
-/

/-- Moving a single piece out of a markup keeps its leaves. -/
theorem leavesOfAll_asChunks (markup : Markup) :
    Chunk.leavesOfAll markup.asChunks = markup.leaves := by
  rcases markup with ⟨chunks⟩
  match chunks with
  | [] => rfl
  | [_] => rfl
  | _ :: _ :: _ => exact List.append_nil _

/-- A text contributes its bytes, also where it is empty and has no piece. -/
theorem foldl_textChunks (bytes : ByteArray) (text : String) :
    (Chunk.leavesOfAll (textChunks text)).foldl (· ++ ·) bytes = bytes ++ text.toUTF8 := by
  unfold textChunks
  split
  · simp_all [Chunk.leavesOfAll]
  · rfl

@[simp] theorem bytes_empty : empty.bytes = .empty := rfl

@[simp] theorem bytes_raw (text : String) : (raw text).bytes = text.toUTF8 := by
  rw [bytes_eq]
  exact (foldl_textChunks _ _).trans ByteArray.empty_append

@[simp] theorem bytes_escape (text : String) :
    (escape text).bytes = (Entity.escape text).toUTF8 :=
  bytes_raw _

@[simp] theorem bytes_push (markup inner : Markup) :
    (markup.push inner).bytes = markup.bytes ++ inner.bytes := by
  simp only [bytes_eq, leaves, push, Chunk.leavesOfAll_append, List.foldl_append,
    leavesOfAll_asChunks]
  exact Chunk.foldl_leaves _ _

@[simp] theorem bytes_pushRaw (markup : Markup) (text : String) :
    (markup.pushRaw text).bytes = markup.bytes ++ text.toUTF8 := by
  simp only [bytes_eq, leaves, pushRaw, Chunk.leavesOfAll_append, List.foldl_append]
  exact foldl_textChunks _ text

@[simp] theorem bytes_pushEscaped (markup : Markup) (text : String) :
    (markup.pushEscaped text).bytes = markup.bytes ++ (Entity.escape text).toUTF8 :=
  bytes_pushRaw markup _

@[simp] theorem bytes_pushByte (markup : Markup) (byte : UInt8) :
    (markup.pushByte byte).bytes = markup.bytes.push byte := by
  simp only [bytes_eq, leaves, pushByte, Chunk.leavesOfAll_append, List.foldl_append]
  apply ByteArray.ext
  simp [Chunk.leavesOfAll, Chunk.leaves]

@[simp] theorem bytes_concat_nil : (concat []).bytes = .empty := rfl

@[simp] theorem bytes_concat_cons (first : Markup) (rest : List Markup) :
    (concat (first :: rest)).bytes = first.bytes ++ (concat rest).bytes := by
  simp only [bytes_eq, leaves, concat, List.flatMap_cons, Chunk.leavesOfAll_append,
    List.foldl_append, leavesOfAll_asChunks]
  exact Chunk.foldl_leaves _ _

end Markup
end HtmlTemplate
