import HtmlTemplate.Value.Display

namespace HtmlTemplate
namespace Value

/-!
# Values as markup

Printing a value escapes it unless it is markup already.  A list is a byte
list: integers are bytes, strings are escaped, nested lists are followed, and
markup is taken as it is.  A pair of the atom `:safe` and a payload is trusted,
and inside it nothing is escaped.  Maps and other tuples cannot be printed.

Runs of bytes are collected first, so that bytes which together are UTF-8 end
up as text.
-/

/-- A byte list as far as it has been read: the finished pieces and the bytes
of the run in progress, both with the last one first. -/
structure ByteRun where
  pieces : List Markup := []
  pending : List UInt8 := []

namespace ByteRun

/-- End the run in progress.  Bytes that are not text become pieces of their
own, since they are pushed one by one. -/
def flush (run : ByteRun) : ByteRun :=
  match run.pending with
  | [] => run
  | pending =>
      match String.fromUTF8? ⟨pending.reverse.toArray⟩ with
      | some text => ⟨.raw text :: run.pieces, []⟩
      | none => ⟨pending.map (fun byte => Markup.empty.pushByte byte) ++ run.pieces, []⟩

/-- Add bytes to the run in progress. -/
def addBytes (run : ByteRun) (bytes : List UInt8) : ByteRun :=
  { run with pending := bytes.reverse ++ run.pending }

/-- End the run in progress and add a piece. -/
def addPiece (run : ByteRun) (piece : Markup) : ByteRun :=
  let flushed := run.flush
  { flushed with pieces := piece :: flushed.pieces }

/-- Add one byte, or its entity where bytes are escaped. -/
def addByte (escaping : Bool) (run : ByteRun) (byte : UInt8) : ByteRun :=
  match escaping, Entity.ofByte? byte with
  | true, some entity => run.addBytes entity.toUTF8.toList
  | _, _ => { run with pending := byte :: run.pending }

/-- Add a string.  Where bytes are not escaped it joins the run in progress. -/
def addText (escaping : Bool) (run : ByteRun) (text : String) : ByteRun :=
  if escaping then run.addPiece (.escape text) else run.addBytes text.toUTF8.toList

/-- The whole list as markup. -/
def finish (run : ByteRun) : Markup :=
  .concat run.flush.pieces.reverse

end ByteRun

/-- The error of an element that no byte list may hold. -/
def malformed (element : Value) : Error :=
  .malformedByteList element.display .element

mutual

/-- Read one element of a byte list. -/
def readItem (escaping : Bool) (run : ByteRun) : Value -> Except Error ByteRun
  | .int value =>
      match byte? value with
      | some byte => .ok (run.addByte escaping byte)
      | none => .error (.malformedByteList (Value.int value).display .multiByte)
  | .str text => .ok (run.addText escaping text)
  | .list items => readItems escaping run items
  | .markup content => .ok (run.addPiece content)
  | .tuple [.atom tag, .str text] =>
      if tag = "safe" then .ok (run.addPiece (.raw text))
      else .error (malformed (.tuple [.atom tag, .str text]))
  | .tuple [.atom tag, .markup content] =>
      if tag = "safe" then .ok (run.addPiece content)
      else .error (malformed (.tuple [.atom tag, .markup content]))
  | .tuple [.atom tag, .list items] =>
      if tag = "safe" then
        match readItems false {} items with
        | .ok inner => .ok (run.addPiece inner.finish)
        | .error error => .error error
      else .error (malformed (.tuple [.atom tag, .list items]))
  | other => .error (malformed other)

/-- Read the elements of a byte list in order. -/
def readItems (escaping : Bool) (run : ByteRun) : List Value -> Except Error ByteRun
  | [] => .ok run
  | item :: rest =>
      match readItem escaping run item with
      | .ok next => readItems escaping next rest
      | .error error => .error error

end

/-- A byte list as markup. -/
def byteList (escaping : Bool) (items : List Value) : Except Error Markup :=
  (readItems escaping {} items).map ByteRun.finish

/-- The payload of a trusted pair, or nothing for any other value. -/
def trusted? : Value -> Option (Except Error Markup)
  | .tuple [.atom tag, payload] =>
      if tag = "safe" then
        match payload with
        | .str text => some (.ok (.raw text))
        | .markup content => some (.ok content)
        | .list items => some (byteList false items)
        | _ => none
      else none
  | _ => none

/-- The error of a value that has no conversion. -/
def unescapable (value : Value) : Error :=
  .unescapable value.display value.typeName

/-- A value as markup, the way it is printed. -/
def toMarkup (value : Value) : Except Error Markup :=
  match value with
  | .nil => .ok .empty
  | .bool flag => .ok (.raw (if flag then "true" else "false"))
  | .int number => .ok (.raw (toString number.toInt))
  | .float number => .ok (.raw (floatText number))
  | .str text => .ok (.escape text)
  | .atom name => .ok (.escape name)
  | .markup content => .ok content
  | .list items => byteList true items
  | .tuple _ => (trusted? value).getD (.error value.unescapable)
  | .map _ => .error value.unescapable
  | .date day => .ok (.escape (String.ofList day.text))
  | .time clock => .ok (.escape (String.ofList clock.text))
  | .dateTime moment => .ok (.escape (String.ofList (moment.text 'T')))
  | .zonedDateTime moment => .ok (.escape (String.ofList moment.text))
  | .object info _ => info.markup

/-- What a printed expression goes through: markup passes, strings are escaped
at once, and everything else is converted. -/
def print : Value -> Except Error Markup
  | .markup content => .ok content
  | .str text => .ok (.escape text)
  | other => other.toMarkup

end Value
end HtmlTemplate
