import HtmlTemplate.Proofs.Escaping.Values

namespace HtmlTemplate

/-!
# Escaping is undone byte by byte

Escaping works on the bytes of what is printed: each of the five significant
bytes is replaced by its entity and every other byte is kept.  For texts this
is the replacement of characters, since the five are ASCII, and in a byte list
it is what happens to each byte.  Replacing the entities from left to right
gives the bytes back.

So whatever an ordinary value is printed as, its plain bytes can be read from it.
-/

namespace Utf8

/-- The bytes of a text. -/
def bytes (text : String) : List UInt8 :=
  text.toUTF8.data.toList

theorem bytes_eq_flatMap (text : String) :
    bytes text = text.toList.flatMap String.utf8EncodeChar := by
  rw [← toUTF8_ofList, String.ofList_toList]
  rfl

end Utf8

namespace Entity

/-- The bytes that have an entity. -/
def significant : List UInt8 := ampersand :: delimiters

/-- One byte as it is written: its entity, or itself. -/
def escapeByte (byte : UInt8) : List UInt8 :=
  match ofByte? byte with
  | some entity => Utf8.bytes entity
  | none => [byte]

/-- Bytes as they are written. -/
def escapeBytes (bytes : List UInt8) : List UInt8 :=
  bytes.flatMap escapeByte

/-- The byte whose entity comes next. -/
def next? (bytes : List UInt8) : Option UInt8 :=
  significant.find? fun byte => (escapeByte byte).isPrefixOf bytes

/-- Replace every entity by its byte, from left to right. -/
def unescapeBytes : List UInt8 -> List UInt8
  | [] => []
  | byte :: rest =>
      match next? (byte :: rest) with
      | some found => found :: unescapeBytes (rest.drop ((escapeByte found).length - 1))
      | none => byte :: unescapeBytes rest
termination_by bytes => bytes.length
decreasing_by
  all_goals simp only [List.length_drop, List.length_cons]; omega

theorem escapeBytes_cons (byte : UInt8) (rest : List UInt8) :
    escapeBytes (byte :: rest) = escapeByte byte ++ escapeBytes rest :=
  rfl

theorem escapeBytes_append (first second : List UInt8) :
    escapeBytes (first ++ second) = escapeBytes first ++ escapeBytes second :=
  List.flatMap_append

theorem mem_significant_of_ofByte? {byte : UInt8} {entity : String}
    (found : ofByte? byte = some entity) : byte ∈ significant := by
  have read : byte = UInt8.ofNat (Char.ofUInt8 byte).toNat := UInt8.ofNat_toNat.symm
  rw [read]
  unfold ofByte? at found
  generalize Char.ofUInt8 byte = c at found ⊢
  unfold ofChar? at found
  split at found
  all_goals first
    | decide
    | cases found

theorem escapeByte_of_not_mem {byte : UInt8} (plain : byte ∉ significant) :
    escapeByte byte = [byte] := by
  unfold escapeByte
  split
  · rename_i entity found
    exact absurd (mem_significant_of_ofByte? found) plain
  · rfl

theorem escapeBytes_of_forall {bytes : List UInt8} (plain : ∀ byte ∈ bytes, byte ∉ significant) :
    escapeBytes bytes = bytes := by
  induction bytes with
  | nil => rfl
  | cons byte rest inductionHypothesis =>
      rw [escapeBytes_cons, escapeByte_of_not_mem (plain byte (List.mem_cons_self ..)),
        inductionHypothesis fun other member => plain other (List.mem_cons_of_mem _ member)]
      rfl

/-! ## Undoing it -/

/-- No entity is the beginning of another one. -/
theorem next?_entity (rest : List UInt8) :
    ∀ byte ∈ significant, next? (escapeByte byte ++ rest) = some byte := by
  simp only [significant, delimiters, ampersand, List.forall_mem_cons, List.not_mem_nil,
    false_imp_iff, implies_true, and_true]
  exact ⟨rfl, rfl, rfl, rfl, rfl⟩

theorem next?_plain {byte : UInt8} (plain : byte ∉ significant) (rest : List UInt8) :
    next? (byte :: rest) = none := by
  have begins : ∀ other ∈ significant, ∃ tail, escapeByte other = ampersand :: tail := by
    simp only [significant, delimiters, ampersand, List.forall_mem_cons, List.not_mem_nil,
      false_imp_iff, implies_true, and_true]
    exact ⟨⟨_, rfl⟩, ⟨_, rfl⟩, ⟨_, rfl⟩, ⟨_, rfl⟩, ⟨_, rfl⟩⟩
  refine List.find?_eq_none.mpr fun other member => ?_
  rcases begins other member with ⟨tail, same⟩
  have different : ampersand ≠ byte := by
    rintro rfl
    exact plain (List.mem_cons_self ..)
  simp [same, List.isPrefixOf, different]

theorem unescapeBytes_escapeByte (byte : UInt8) (rest : List UInt8) :
    unescapeBytes (escapeByte byte ++ rest) = byte :: unescapeBytes rest := by
  by_cases member : byte ∈ significant
  · have found := next?_entity rest byte member
    have filled : ∀ byte ∈ significant, escapeByte byte ≠ [] :=
      List.all_iff_forall_prop.mp (by decide)
    rcases List.exists_cons_of_ne_nil (filled byte member) with ⟨head, tail, same⟩
    rw [same] at found ⊢
    rw [List.cons_append] at found ⊢
    rw [unescapeBytes, found]
    simp only [same, List.length_cons, Nat.add_sub_cancel, List.drop_left]
  · rw [escapeByte_of_not_mem member, List.singleton_append, unescapeBytes,
      next?_plain member rest]

/-- Escaped bytes are read back. -/
theorem unescapeBytes_escapeBytes (bytes : List UInt8) :
    unescapeBytes (escapeBytes bytes) = bytes := by
  induction bytes with
  | nil => rw [escapeBytes, List.flatMap_nil, unescapeBytes]
  | cons byte rest inductionHypothesis =>
      rw [escapeBytes_cons, unescapeBytes_escapeByte, inductionHypothesis]

/-- No bracket and no quote is left. -/
theorem not_mem_delimiters_escapeBytes (bytes : List UInt8) :
    ∀ byte ∈ escapeBytes bytes, byte ∉ delimiters := by
  have entity : ∀ written ∈ escapeBytes significant, written ∉ delimiters :=
    List.all_iff_forall_prop.mp (by decide)
  intro written member
  rcases List.mem_flatMap.mp member with ⟨byte, _, inside⟩
  by_cases special : byte ∈ significant
  · exact entity written (List.mem_flatMap.mpr ⟨byte, special, inside⟩)
  · rw [escapeByte_of_not_mem special] at inside
    cases List.mem_singleton.mp inside
    exact fun bracket => special (List.mem_cons_of_mem _ bracket)

/-! ## Texts -/

theorem bytes_escapeChar (c : Char) :
    (escapeChar c).flatMap String.utf8EncodeChar = escapeBytes (String.utf8EncodeChar c) := by
  unfold escapeChar
  split
  · rename_i entity found
    unfold ofChar? at found
    split at found <;> cases found <;> decide
  · rename_i plain
    rw [List.flatMap_singleton, escapeBytes_of_forall]
    intro byte member special
    rcases plain_of_ofChar?_eq_none plain byte member with ⟨bracket, different⟩
    rcases List.mem_cons.mp special with same | inside
    · exact different same
    · exact bracket inside

/-- Escaping characters is escaping bytes. -/
theorem bytes_escape (text : String) :
    Utf8.bytes (escape text) = escapeBytes (Utf8.bytes text) := by
  rw [Utf8.bytes_eq_flatMap text, Utf8.bytes, escape, Utf8.toUTF8_ofList, escapeChars, escapeBytes,
    List.flatMap_assoc, List.flatMap_assoc]
  exact congrArg (text.toList.flatMap ·) (funext bytes_escapeChar)

theorem escapeBytes_of_plainChars {text : String} (plain : PlainChars text.toList) :
    escapeBytes (Utf8.bytes text) = Utf8.bytes text := by
  rw [← bytes_escape, escape_eq_self_iff.mpr plain]

end Entity

namespace Value

/-! ## Printed values -/

/-- At no depth there is markup, an object or a trusted pair. -/
inductive Ordinary : Value -> Prop where
  | nil : Ordinary .nil
  | bool (value : Bool) : Ordinary (.bool value)
  | int (value : Int64) : Ordinary (.int value)
  | float (value : Float) : Ordinary (.float value)
  | str (text : String) : Ordinary (.str text)
  | atom (name : String) : Ordinary (.atom name)
  | list {items : List Value} (inner : ∀ item ∈ items, Ordinary item) : Ordinary (.list items)
  | tuple {items : List Value} (unmarked : ∀ payload, items ≠ [.atom "safe", payload])
      (inner : ∀ item ∈ items, Ordinary item) : Ordinary (.tuple items)
  | map {entries : List (String × Value)} (inner : ∀ entry ∈ entries, Ordinary entry.2) :
      Ordinary (.map entries)
  | date (value : Date) : Ordinary (.date value)
  | time (value : TimeOfDay) : Ordinary (.time value)
  | dateTime (value : DateTime) : Ordinary (.dateTime value)
  | zonedDateTime (value : ZonedDateTime) : Ordinary (.zonedDateTime value)

theorem Ordinary.keywords {pairs : List (String × Value)}
    (unmarked : ∀ pair ∈ pairs, pair.1 ≠ "safe") (inner : ∀ pair ∈ pairs, Ordinary pair.2) :
    Ordinary (Value.keywords pairs) := by
  refine .list fun item member => ?_
  rcases List.mem_map.mp member with ⟨pair, inside, rfl⟩
  refine .tuple (fun payload same => ?_) ?_
  · cases pair
    cases same
    exact unmarked _ inside rfl
  · exact List.forall_mem_cons.mpr ⟨.atom _, List.forall_mem_singleton.mpr (inner pair inside)⟩

mutual

/-- The bytes that a value is printed as, before anything is escaped. -/
def plain : Value -> List UInt8
  | .bool flag => Utf8.bytes (if flag then "true" else "false")
  | .int number => Utf8.bytes (toString number.toInt)
  | .float number => Utf8.bytes (floatText number)
  | .str text => Utf8.bytes text
  | .atom name => Utf8.bytes name
  | .list items => plainItems items
  | .date day => Utf8.bytes (String.ofList day.text)
  | .time clock => Utf8.bytes (String.ofList clock.text)
  | .dateTime moment => Utf8.bytes (String.ofList (moment.text 'T'))
  | .zonedDateTime moment => Utf8.bytes (String.ofList moment.text)
  | _ => []

/-- The bytes of an element of a byte list. -/
def plainItem : Value -> List UInt8
  | .int number => (byte? number).toList
  | .str text => Utf8.bytes text
  | .list items => plainItems items
  | _ => []

/-- The bytes of a byte list. -/
def plainItems : List Value -> List UInt8
  | [] => []
  | item :: rest => plainItem item ++ plainItems rest

end

namespace ByteRun

theorem written_addByte (run : ByteRun) (byte : UInt8) :
    (run.addByte true byte).written = run.written ++ Entity.escapeByte byte := by
  have added : written { run with pending := byte :: run.pending } = run.written ++ [byte] := by
    simp only [written, List.reverse_cons, List.append_assoc]
  unfold addByte Entity.escapeByte
  cases Entity.ofByte? byte with
  | some entity =>
      simp only [written_addBytes, Utf8.toList_eq_data]
      rfl
  | none => exact added

end ByteRun

mutual

/-- What an element adds to a byte list. -/
theorem written_of_readItem : (item : Value) -> {run next : ByteRun} -> Ordinary item ->
    readItem true run item = .ok next ->
    next.written = run.written ++ Entity.escapeBytes item.plainItem
  | .int value, run, next, ordinary, read => by
      simp only [readItem] at read
      split at read
      · rename_i byte found
        cases read
        rw [ByteRun.written_addByte, plainItem, found, Option.toList_some, Entity.escapeBytes,
          List.flatMap_singleton]
      · cases read
  | .str text, run, next, ordinary, read => by
      cases read
      rw [plainItem, ← Entity.bytes_escape, ByteRun.addText, if_pos rfl, ByteRun.written_addPiece,
        Markup.bytes_escape]
      rfl
  | .list items, run, next, ordinary, read => by
      cases ordinary with
      | list inner =>
          simp only [readItem] at read
          rw [plainItem]
          exact written_of_readItems items inner read
  | .tuple items, run, next, ordinary, read => by
      cases ordinary with
      | tuple unmarked inner =>
          rw [readItem_tuple unmarked] at read
          cases read
  | .markup _, _, _, ordinary, _ => by cases ordinary
  | .object _ _, _, _, ordinary, _ => by cases ordinary
  | .nil, _, _, _, read => by cases read
  | .bool _, _, _, _, read => by cases read
  | .float _, _, _, _, read => by cases read
  | .atom _, _, _, _, read => by cases read
  | .map _, _, _, _, read => by cases read
  | .date _, _, _, _, read => by cases read
  | .time _, _, _, _, read => by cases read
  | .dateTime _, _, _, _, read => by cases read
  | .zonedDateTime _, _, _, _, read => by cases read

theorem written_of_readItems : (items : List Value) -> {run next : ByteRun} ->
    (∀ item ∈ items, Ordinary item) -> readItems true run items = .ok next ->
    next.written = run.written ++ Entity.escapeBytes (plainItems items)
  | [], run, next, inner, read => by
      cases read
      exact (List.append_nil _).symm
  | item :: rest, run, next, inner, read => by
      simp only [readItems] at read
      split at read
      · rename_i between first
        have head := written_of_readItem item (inner item (List.mem_cons_self ..)) first
        have tail := written_of_readItems rest
          (fun other member => inner other (List.mem_cons_of_mem _ member)) read
        rw [tail, head, plainItems, Entity.escapeBytes_append, List.append_assoc]
      · cases read

end

theorem bytes_of_escape {text : String} {content : Markup}
    (printed : (.ok (.escape text) : Except Error Markup) = .ok content) :
    content.bytes.data.toList = Entity.escapeBytes (Utf8.bytes text) := by
  cases printed
  rw [← Entity.bytes_escape, Markup.bytes_escape]
  rfl

theorem bytes_of_raw {text : String} (plain : PlainChars text.toList) {content : Markup}
    (printed : (.ok (.raw text) : Except Error Markup) = .ok content) :
    content.bytes.data.toList = Entity.escapeBytes (Utf8.bytes text) := by
  cases printed
  rw [Entity.escapeBytes_of_plainChars plain, Markup.bytes_raw]
  rfl

/-- An ordinary value is printed as its plain bytes, escaped. -/
theorem bytes_of_print {value : Value} (ordinary : Ordinary value) {content : Markup}
    (printed : value.print = .ok content) :
    content.bytes.data.toList = Entity.escapeBytes value.plain := by
  cases ordinary with
  | nil =>
      cases printed
      rfl
  | bool flag =>
      refine bytes_of_raw ?_ printed
      cases flag
      · exact List.all_iff_forall_prop.mp (by decide)
      · exact List.all_iff_forall_prop.mp (by decide)
  | int number => exact bytes_of_raw (PlainChars.toString_int _) printed
  | float number => exact bytes_of_raw (plainChars_floatText number) printed
  | str text => exact bytes_of_escape printed
  | atom name => exact bytes_of_escape printed
  | list inner =>
      simp only [print, toMarkup, byteList] at printed
      cases read : readItems true {} _ with
      | error error =>
          rw [read] at printed
          cases printed
      | ok run =>
          rw [read] at printed
          cases printed
          rw [ByteRun.bytes_finish, written_of_readItems _ inner read, plain]
          rfl
  | tuple unmarked inner =>
      simp only [print, toMarkup, trusted?_tuple unmarked, Option.getD_none, reduceCtorEq] at printed
  | map inner => simp only [print, toMarkup, reduceCtorEq] at printed
  | date day => exact bytes_of_escape printed
  | time clock => exact bytes_of_escape printed
  | dateTime moment => exact bytes_of_escape printed
  | zonedDateTime moment => exact bytes_of_escape printed

end Value
end HtmlTemplate
