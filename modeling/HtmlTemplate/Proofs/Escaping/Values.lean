import HtmlTemplate.Proofs.Escaping.Neutral
import HtmlTemplate.Proofs.Rendering.Packing
import HtmlTemplate.Value.Access
import HtmlTemplate.Value.Conversion
import HtmlTemplate.Value.Operator

namespace HtmlTemplate

/-!
# Values without trusted parts

A value is untrusted if nothing in it may pass an output unescaped: no markup,
no object, which may choose its own markup, and no tuple that begins with the
atom `:safe`.  While a template is rendered its blocks yield markup, so the
property that is kept is a little weaker: the markup of a harmless value is
neutral.

A harmless value is printed as neutral bytes, and operators and lookups yield
harmless values from harmless ones.
-/

/-- A markup whose bytes are neutral. -/
def Markup.IsNeutral (content : Markup) : Prop :=
  Neutral content.bytes.data.toList

namespace Markup

theorem isNeutral_raw {text : String} (neutral : NeutralText text) : (raw text).IsNeutral := by
  rw [IsNeutral, bytes_raw]
  exact neutral

theorem isNeutral_escape (text : String) : (escape text).IsNeutral :=
  isNeutral_raw (Entity.neutralText_escape text)

theorem isNeutral_concat {parts : List Markup} (neutral : ∀ part ∈ parts, part.IsNeutral) :
    (concat parts).IsNeutral := by
  induction parts with
  | nil =>
      rw [IsNeutral, bytes_concat_nil]
      exact .nil
  | cons part rest inductionHypothesis =>
      rw [IsNeutral, bytes_concat_cons, ByteArray.toList_data_append]
      refine (neutral part (List.mem_cons_self ..)).append (inductionHypothesis ?_)
      exact fun other member => neutral other (List.mem_cons_of_mem _ member)

end Markup

namespace Value

/-- At no depth there is an object, a tuple that begins with `:safe`, or markup
that is not allowed. -/
inductive Harmless (allowed : Markup -> Prop) : Value -> Prop where
  | nil : Harmless allowed .nil
  | bool (value : Bool) : Harmless allowed (.bool value)
  | int (value : Int64) : Harmless allowed (.int value)
  | float (value : Float) : Harmless allowed (.float value)
  | str (text : String) : Harmless allowed (.str text)
  | atom (name : String) : Harmless allowed (.atom name)
  | list {items : List Value} (inner : ∀ item ∈ items, Harmless allowed item) :
      Harmless allowed (.list items)
  | tuple {items : List Value} (unmarked : ∀ rest, items ≠ .atom "safe" :: rest)
      (inner : ∀ item ∈ items, Harmless allowed item) : Harmless allowed (.tuple items)
  | map {entries : List (String × Value)} (inner : ∀ entry ∈ entries, Harmless allowed entry.2) :
      Harmless allowed (.map entries)
  | markup {content : Markup} (fits : allowed content) : Harmless allowed (.markup content)
  | date (value : Date) : Harmless allowed (.date value)
  | time (value : TimeOfDay) : Harmless allowed (.time value)
  | dateTime (value : DateTime) : Harmless allowed (.dateTime value)
  | zonedDateTime (value : ZonedDateTime) : Harmless allowed (.zonedDateTime value)

/-- No markup at all is allowed. -/
def Untrusted (value : Value) : Prop :=
  value.Harmless fun _ => False

namespace Harmless

variable {allowed : Markup -> Prop}

theorem mono {other : Markup -> Prop} (wider : ∀ content, allowed content -> other content)
    {value : Value} (harmless : Harmless allowed value) : Harmless other value := by
  induction harmless with
  | nil => exact .nil
  | bool value => exact .bool value
  | int value => exact .int value
  | float value => exact .float value
  | str text => exact .str text
  | atom name => exact .atom name
  | list _ inductionHypothesis => exact .list inductionHypothesis
  | tuple unmarked _ inductionHypothesis => exact .tuple unmarked inductionHypothesis
  | map _ inductionHypothesis => exact .map inductionHypothesis
  | markup fits => exact .markup (wider _ fits)
  | date value => exact .date value
  | time value => exact .time value
  | dateTime value => exact .dateTime value
  | zonedDateTime value => exact .zonedDateTime value

theorem lookUp? {name : String} {entries : List (String × Value)}
    (inner : ∀ entry ∈ entries, Harmless allowed entry.2) {value : Value}
    (found : HtmlTemplate.lookUp? name entries = some value) : Harmless allowed value := by
  rcases Option.map_eq_some_iff.mp found with ⟨entry, located, rfl⟩
  exact inner entry (List.mem_of_find?_eq_some located)

/-- What is not found counts as `nil`. -/
theorem getD {result : Option Value} (each : ∀ value, result = some value -> Harmless allowed value) :
    Harmless allowed (result.getD .nil) := by
  cases result with
  | none => exact .nil
  | some value => exact each value rfl

theorem keyword {item : Value} {pair : String × Value} (harmless : Harmless allowed item)
    (read : item.asKeyword? = some pair) : Harmless allowed pair.2 := by
  unfold asKeyword? at read
  split at read
  · cases read
    cases harmless with
    | tuple unmarked inner => exact inner _ (by simp)
  · cases read

theorem keywords {items : List Value} {pairs : List (String × Value)}
    (inner : ∀ item ∈ items, Harmless allowed item)
    (read : (Value.list items).asKeywords? = some pairs) :
    ∀ entry ∈ pairs, Harmless allowed entry.2 := by
  change items.mapM asKeyword? = some pairs at read
  induction items generalizing pairs with
  | nil =>
      cases read
      exact fun _ impossible => nomatch impossible
  | cons item rest inductionHypothesis =>
      rw [List.mapM_cons] at read
      rcases Option.bind_eq_some_iff.mp read with ⟨pair, first, read⟩
      rcases Option.bind_eq_some_iff.mp read with ⟨others, second, done⟩
      cases done
      have tail := inductionHypothesis
        (fun other member => inner other (List.mem_cons_of_mem _ member)) second
      exact List.forall_mem_cons.mpr ⟨(inner item (List.mem_cons_self ..)).keyword first, tail⟩

theorem itemAt? {items : List Value} (inner : ∀ item ∈ items, Harmless allowed item)
    {position : Int} {value : Value} (found : Value.itemAt? items position = some value) :
    Harmless allowed value := by
  unfold Value.itemAt? at found
  split at found
  · exact inner value (List.mem_of_getElem? found)
  · split at found
    · exact inner value (List.mem_of_getElem? found)
    · cases found

theorem field {value : Value} (harmless : Harmless allowed value) {name : String} {result : Value}
    (found : value.field name = .ok result) : Harmless allowed result := by
  cases harmless with
  | map inner =>
      simp only [Value.field] at found
      split at found
      · rename_i located
        cases found
        exact lookUp? inner located
      · cases found
  | list inner =>
      simp only [Value.field] at found
      split at found
      · rename_i pairs read
        split at found
        · rename_i located
          cases found
          exact lookUp? (keywords inner read) located
        · cases found
      · cases found
  | _ => cases found

theorem index {value key : Value} (harmless : Harmless allowed value) {result : Value}
    (found : value.index key = .ok result) : Harmless allowed result := by
  unfold Value.index at found
  split at found
  · cases found
    exact .nil
  · cases found
    cases harmless with
    | map inner => exact getD fun _ => lookUp? inner
  · cases found
    cases harmless with
    | map inner => exact getD fun _ => lookUp? inner
  · cases found
    cases harmless with
    | list inner => exact getD fun _ => itemAt? inner
  · cases found
    cases harmless with
    | tuple _ inner => exact getD fun _ => itemAt? inner
  · split at found
    · rename_i pairs read
      cases found
      cases harmless with
      | list inner => exact getD fun _ => lookUp? (keywords inner read)
    · cases found
  · cases harmless
  · cases harmless
  · cases found

/-- The pair of an entry begins with a string, so it is never a trusted one. -/
theorem enumerate {value : Value} (harmless : Harmless allowed value) {items : List Value}
    (read : value.enumerate = .ok items) : ∀ item ∈ items, Harmless allowed item := by
  cases harmless with
  | list inner =>
      cases read
      exact inner
  | map inner =>
      cases read
      intro item member
      rcases List.mem_map.mp member with ⟨entry, inside, rfl⟩
      refine .tuple (fun _ impossible => nomatch impossible) ?_
      have value := inner entry inside
      simpa using ⟨.str entry.1, value⟩
  | _ => cases read

theorem unary {op : UnaryOp} {operand result : Value} (applied : op.apply operand = .ok result) :
    Harmless allowed result := by
  cases op with
  | bang | not =>
      cases applied
      exact .bool _
  | minus =>
      simp only [UnaryOp.apply] at applied
      split at applied
      · rename_i negated
        cases applied
        cases operand with
        | int number =>
            rcases Option.map_eq_some_iff.mp negated with ⟨_, _, rfl⟩
            exact .int _
        | float number =>
            cases negated
            exact .float _
        | _ => cases negated
      · cases applied

theorem arithmetic {onInts : Int -> Int -> Int} {onFloats : Float -> Float -> Float}
    {left right result : Value}
    (computed : Operator.arithmetic? onInts onFloats left right = some result) :
    Harmless allowed result := by
  unfold Operator.arithmetic? at computed
  split at computed
  · rcases Option.map_eq_some_iff.mp computed with ⟨_, _, rfl⟩
    exact .int _
  · rcases Option.bind_eq_some_iff.mp computed with ⟨_, _, computed⟩
    rcases Option.bind_eq_some_iff.mp computed with ⟨_, _, computed⟩
    cases computed
    exact .float _

theorem range {first last : Int64} {result : Value}
    (counted : Operator.range? first last = some result) : Harmless allowed result := by
  unfold Operator.range? at counted
  split at counted
  · cases counted
    refine .list fun item member => ?_
    rcases List.mem_map.mp member with ⟨_, _, rfl⟩
    exact .int _
  · cases counted

/-- Operators yield numbers, truth values, strings and lists of integers,
whatever their operands are. -/
theorem binary {op : Operator} {left right result : Value}
    (applied : op.apply left right = .ok result) : Harmless allowed result := by
  unfold Operator.apply at applied
  split at applied
  · rename_i computed
    cases applied
    cases op with
    | equal | unequal =>
        cases computed
        exact .bool _
    | less | greater | atMost | atLeast =>
        rcases Option.map_eq_some_iff.mp computed with ⟨_, _, rfl⟩
        exact .bool _
    | concat =>
        simp only [Operator.result?] at computed
        split at computed
        · cases computed
          exact .str _
        · cases computed
    | range =>
        simp only [Operator.result?] at computed
        split at computed
        · exact range computed
        · cases computed
    | add | subtract | multiply => exact arithmetic computed
    | divide =>
        rcases Option.bind_eq_some_iff.mp computed with ⟨_, _, computed⟩
        rcases Option.bind_eq_some_iff.mp computed with ⟨_, _, computed⟩
        split at computed
        · cases computed
        · cases computed
          exact .float _
  · cases applied

end Harmless

/-! ## Byte lists -/

namespace ByteRun

/-- The bytes that were read so far. -/
def written (run : ByteRun) : List UInt8 :=
  (Markup.concat run.pieces.reverse).bytes.data.toList ++ run.pending.reverse

theorem bytes_concat_append (first second : List Markup) :
    (Markup.concat (first ++ second)).bytes.data.toList =
      (Markup.concat first).bytes.data.toList ++ (Markup.concat second).bytes.data.toList := by
  rw [Markup.bytes_concat_append, ByteArray.toList_data_append]

theorem bytes_concat_singleton (content : Markup) :
    (Markup.concat [content]).bytes = content.bytes := by
  simp

theorem bytes_concat_pushByte (bytes : List UInt8) :
    (Markup.concat (bytes.map fun byte => Markup.empty.pushByte byte)).bytes.data.toList = bytes := by
  induction bytes with
  | nil => rfl
  | cons byte rest inductionHypothesis =>
      rw [List.map_cons, Markup.bytes_concat_cons, ByteArray.toList_data_append,
        inductionHypothesis, Markup.bytes_pushByte]
      rfl

/-- Ending a run moves bytes and changes none. -/
theorem written_flush (run : ByteRun) : run.flush.written = run.written := by
  unfold flush
  split
  · rfl
  · split
    · rename_i text decoded
      have same : text.toUTF8.data.toList = run.pending.reverse := by
        rw [Utf8.toUTF8_of_fromUTF8? decoded]
      simp only [written, List.reverse_cons, bytes_concat_append, bytes_concat_singleton,
        Markup.bytes_raw, same, List.reverse_nil, List.append_nil]
    · simp only [written, List.reverse_append, bytes_concat_append, List.reverse_nil,
        List.append_nil, ← List.map_reverse, bytes_concat_pushByte]

theorem pending_flush (run : ByteRun) : run.flush.pending = [] := by
  unfold flush
  split
  · assumption
  · split <;> rfl

theorem written_addPiece (run : ByteRun) (piece : Markup) :
    (run.addPiece piece).written = run.written ++ piece.bytes.data.toList := by
  have before := written_flush run
  simp only [written, pending_flush, List.reverse_nil, List.append_nil] at before
  simp only [addPiece, written, pending_flush, List.reverse_cons, bytes_concat_append,
    bytes_concat_singleton, List.reverse_nil, List.append_nil, before]

theorem written_addBytes (run : ByteRun) (bytes : List UInt8) :
    (run.addBytes bytes).written = run.written ++ bytes := by
  simp only [addBytes, written, List.reverse_append, List.reverse_reverse, List.append_assoc]

/-- A byte adds an entity, or itself if it is none of the significant bytes. -/
theorem neutral_addByte {run : ByteRun} (neutral : Neutral run.written) (byte : UInt8) :
    Neutral (run.addByte true byte).written := by
  unfold addByte
  split
  · rename_i entity _ found
    rw [written_addBytes, Utf8.toList_eq_data]
    exact neutral.append (.of_mem_entities _ (Entity.mem_entities_of_ofChar? found))
  · rename_i unescaped
    have plain : Entity.ofByte? byte = none := by
      cases found : Entity.ofByte? byte with
      | none => rfl
      | some entity => exact absurd found (unescaped entity rfl)
    have added : written { run with pending := byte :: run.pending } = run.written ++ [byte] := by
      simp only [written, List.reverse_cons, List.append_assoc]
    rw [added]
    refine neutral.append (.of_forall fun other member => ?_)
    cases List.mem_singleton.mp member
    exact Entity.plain_of_ofByte?_eq_none plain

theorem neutral_addPiece {run : ByteRun} (neutral : Neutral run.written) {piece : Markup}
    (fits : piece.IsNeutral) : Neutral (run.addPiece piece).written := by
  rw [written_addPiece]
  exact neutral.append fits

theorem bytes_finish (run : ByteRun) : run.finish.bytes.data.toList = run.written := by
  rw [← written_flush run, written, pending_flush, List.reverse_nil, List.append_nil, finish]

theorem isNeutral_finish {run : ByteRun} (neutral : Neutral run.written) :
    run.finish.IsNeutral := by
  rw [Markup.IsNeutral, bytes_finish]
  exact neutral

end ByteRun

/-- A tuple without the mark is no element of a byte list. -/
theorem readItem_tuple {items : List Value} (unmarked : ∀ payload, items ≠ [.atom "safe", payload])
    (escaping : Bool) (run : ByteRun) :
    readItem escaping run (.tuple items) = .error (malformed (.tuple items)) := by
  cases items with
  | nil => rfl
  | cons head rest =>
      cases head with
      | atom tag =>
          cases rest with
          | nil => rfl
          | cons payload rest =>
              cases rest with
              | cons _ _ => cases payload <;> rfl
              | nil =>
                  have different : tag ≠ "safe" := by
                    rintro rfl
                    exact unmarked _ rfl
                  cases payload with
                  | str text => simp only [readItem, if_neg different]
                  | markup content => simp only [readItem, if_neg different]
                  | list items => simp only [readItem, if_neg different]
                  | _ => rfl
      | _ => rfl

/-- Neither is it trusted when it is printed. -/
theorem trusted?_tuple {items : List Value} (unmarked : ∀ payload, items ≠ [.atom "safe", payload]) :
    trusted? (.tuple items) = none := by
  unfold trusted?
  split
  · rename_i tag payload same
    have different : tag ≠ "safe" := by
      cases same
      rintro rfl
      exact unmarked _ rfl
    rw [if_neg different]
  · rfl

namespace Harmless

mutual

/-- Every element of a byte list adds neutral bytes. -/
theorem readItem : (item : Value) -> {run next : ByteRun} ->
    Harmless Markup.IsNeutral item -> Neutral run.written ->
    Value.readItem true run item = .ok next -> Neutral next.written
  | .int value, run, next, harmless, neutral, read => by
      simp only [Value.readItem] at read
      split at read
      · cases read
        exact ByteRun.neutral_addByte neutral _
      · cases read
  | .str text, run, next, harmless, neutral, read => by
      cases read
      exact ByteRun.neutral_addPiece neutral (Markup.isNeutral_escape text)
  | .list items, run, next, harmless, neutral, read => by
      cases harmless with
      | list inner => exact readItems items inner neutral read
  | .markup content, run, next, harmless, neutral, read => by
      cases read
      cases harmless with
      | markup fits => exact ByteRun.neutral_addPiece neutral fits
  | .tuple items, run, next, harmless, neutral, read => by
      cases harmless with
      | tuple unmarked inner =>
          rw [readItem_tuple fun payload => unmarked [payload]] at read
          cases read
  | .nil, _, _, _, _, read => by cases read
  | .bool _, _, _, _, _, read => by cases read
  | .float _, _, _, _, _, read => by cases read
  | .atom _, _, _, _, _, read => by cases read
  | .map _, _, _, _, _, read => by cases read
  | .date _, _, _, _, _, read => by cases read
  | .time _, _, _, _, _, read => by cases read
  | .dateTime _, _, _, _, _, read => by cases read
  | .zonedDateTime _, _, _, _, _, read => by cases read
  | .object _ _, _, _, _, _, read => by cases read

theorem readItems : (items : List Value) -> {run next : ByteRun} ->
    (∀ item ∈ items, Harmless Markup.IsNeutral item) -> Neutral run.written ->
    Value.readItems true run items = .ok next -> Neutral next.written
  | [], run, next, inner, neutral, read => by
      cases read
      exact neutral
  | item :: rest, run, next, inner, neutral, read => by
      simp only [Value.readItems] at read
      split at read
      · rename_i between first
        have head := readItem item (inner item (List.mem_cons_self ..)) neutral first
        exact readItems rest (fun other member => inner other (List.mem_cons_of_mem _ member)) head read
      · cases read

end

theorem escaped (text : String) {content : Markup}
    (printed : (.ok (.escape text) : Except Error Markup) = .ok content) : content.IsNeutral := by
  rw [← Except.ok.inj printed]
  exact Markup.isNeutral_escape text

/-- Whatever is printed is neutral. -/
theorem toMarkup {value : Value} (harmless : Harmless Markup.IsNeutral value) {content : Markup}
    (printed : value.toMarkup = .ok content) : content.IsNeutral := by
  cases harmless with
  | nil =>
      cases printed
      exact .nil
  | bool flag =>
      cases printed
      apply Markup.isNeutral_raw
      cases flag
      · exact Entity.neutralText_of_forall "false".toList (List.all_iff_forall_prop.mp (by decide))
      · exact Entity.neutralText_of_forall "true".toList (List.all_iff_forall_prop.mp (by decide))
  | int number =>
      cases printed
      exact Markup.isNeutral_raw (neutralText_toString_int _)
  | float number =>
      cases printed
      exact Markup.isNeutral_raw (neutralText_floatText number)
  | str text => exact escaped _ printed
  | atom name => exact escaped _ printed
  | list inner =>
      simp only [Value.toMarkup, byteList] at printed
      cases read : Value.readItems true {} _ with
      | error error =>
          rw [read] at printed
          cases printed
      | ok run =>
          rw [read] at printed
          cases printed
          have nothing : Neutral (ByteRun.written {}) := .nil
          exact ByteRun.isNeutral_finish (readItems _ inner nothing read)
  | tuple unmarked inner =>
      simp only [Value.toMarkup, trusted?_tuple fun payload => unmarked [payload], Option.getD_none,
        reduceCtorEq] at printed
  | map inner => simp only [Value.toMarkup, reduceCtorEq] at printed
  | markup fits =>
      cases printed
      exact fits
  | date day => exact escaped _ printed
  | time clock => exact escaped _ printed
  | dateTime moment => exact escaped _ printed
  | zonedDateTime moment => exact escaped _ printed

end Harmless
end Value
end HtmlTemplate
