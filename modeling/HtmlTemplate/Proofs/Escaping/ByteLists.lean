import HtmlTemplate.Helper.Trust
import HtmlTemplate.Proofs.Escaping.Bytes

namespace HtmlTemplate
namespace Value

/-!
# Byte lists

What a list becomes as markup, where it is escaped and where it is trusted.  It
is said in three parts, none of which knows of runs of bytes: which elements a
list may hold, which bytes they stand for, and which element is to blame if
there is one that it may not hold.
-/

/-! ## Elements -/

/-- What a byte list may hold. -/
inductive ByteElement : Value -> Prop where
  | byte {number : Int64} (nonnegative : 0 ≤ number.toInt) (small : number.toInt ≤ 255) :
      ByteElement (.int number)
  | text (text : String) : ByteElement (.str text)
  | markup (content : Markup) : ByteElement (.markup content)
  | list {items : List Value} (each : ∀ item ∈ items, ByteElement item) : ByteElement (.list items)
  | trustedText (text : String) : ByteElement (.tuple [.atom "safe", .str text])
  | trustedMarkup (content : Markup) : ByteElement (.tuple [.atom "safe", .markup content])
  | trustedList {items : List Value} (each : ∀ item ∈ items, ByteElement item) :
      ByteElement (.tuple [.atom "safe", .list items])

mutual

/-- The bytes that an element stands for.  The payload of a tuple is trusted,
also where the tuple is in a list that is escaped. -/
def elementBytes (escaping : Bool) : Value -> List UInt8
  | .int number =>
      let byte := UInt8.ofNat number.toInt.toNat
      if escaping then Entity.escapeByte byte else [byte]
  | .str text => if escaping then Utf8.bytes (Entity.escape text) else Utf8.bytes text
  | .markup content => content.bytes.data.toList
  | .list items => listBytes escaping items
  | .tuple [.atom _, .str text] => Utf8.bytes text
  | .tuple [.atom _, .markup content] => content.bytes.data.toList
  | .tuple [.atom _, .list items] => listBytes false items
  | _ => []

/-- The bytes of a list, those of its elements in order. -/
def listBytes (escaping : Bool) : List Value -> List UInt8
  | [] => []
  | item :: rest => elementBytes escaping item ++ listBytes escaping rest

end

/-- No byte list may hold the value, and it is no list with an element that is
to blame instead. -/
structure Misplaced (value : Value) : Prop where
  noElement : ¬ByteElement value
  noList : ∀ items, value ≠ .list items
  noTrustedList : ∀ items, value ≠ .tuple [.atom "safe", .list items]

mutual

/-- An element cannot be read because of a value: itself, or the first one in
a list that it is or that it trusts. -/
inductive Offends : Value -> Value -> Prop where
  | itself {value : Value} (misplaced : Misplaced value) : Offends value value
  | list {items : List Value} {value : Value} (first : FirstOffends items value) :
      Offends (.list items) value
  | trustedList {items : List Value} {value : Value} (first : FirstOffends items value) :
      Offends (.tuple [.atom "safe", .list items]) value

/-- A value is the first one because of which a list cannot be read. -/
inductive FirstOffends : List Value -> Value -> Prop where
  | here {item value : Value} {rest : List Value} (offends : Offends item value) :
      FirstOffends (item :: rest) value
  | later {item value : Value} {rest : List Value} (fits : ByteElement item)
      (first : FirstOffends rest value) : FirstOffends (item :: rest) value

end

/-- The error that names a value.  An integer must have been too large or too
small for a byte. -/
def blame (value : Value) : Error :=
  .malformedByteList value.display
    (match value with
      | .int _ => .multiByte
      | _ => .element)

/-! ## Reading elements -/

theorem byte?_eq_some {number : Int64} (nonnegative : 0 ≤ number.toInt)
    (small : number.toInt ≤ 255) : byte? number = some (UInt8.ofNat number.toInt.toNat) :=
  if_pos ⟨nonnegative, by omega⟩

namespace ByteRun

theorem written_addByte_trusted (run : ByteRun) (byte : UInt8) :
    (run.addByte false byte).written = run.written ++ [byte] := by
  simp only [addByte, written, List.reverse_cons, List.append_assoc]

theorem written_addText (escaping : Bool) (run : ByteRun) (text : String) :
    (run.addText escaping text).written = run.written ++ elementBytes escaping (.str text) := by
  cases escaping with
  | true =>
      rw [addText, if_pos rfl, written_addPiece, Markup.bytes_escape]
      rfl
  | false =>
      rw [addText, if_neg (by simp), written_addBytes, Utf8.toList_eq_data]
      rfl

end ByteRun

/-- The value is read whatever was read before, and it adds its bytes. -/
def Adds (item : Value) : Prop :=
  ∀ escaping run, ∃ next, readItem escaping run item = .ok next ∧
    next.written = run.written ++ elementBytes escaping item

theorem readItems_of_adds {items : List Value} (each : ∀ item ∈ items, Adds item)
    (escaping : Bool) (run : ByteRun) : ∃ next, readItems escaping run items = .ok next ∧
      next.written = run.written ++ listBytes escaping items := by
  induction items generalizing run with
  | nil => exact ⟨run, rfl, by rw [listBytes, List.append_nil]⟩
  | cons item rest inductionHypothesis =>
      rw [List.forall_mem_cons] at each
      rcases each.1 escaping run with ⟨between, first, head⟩
      rcases inductionHypothesis each.2 between with ⟨next, others, tail⟩
      refine ⟨next, by simp only [readItems, first, others], ?_⟩
      rw [tail, head, listBytes, List.append_assoc]

/-- What a byte list may hold is read. -/
theorem ByteElement.adds {item : Value} (fits : ByteElement item) : Adds item := by
  induction fits with
  | @byte number nonnegative small =>
      intro escaping run
      refine ⟨_, by simp only [readItem, byte?_eq_some nonnegative small]; rfl, ?_⟩
      cases escaping with
      | true => exact ByteRun.written_addByte run _
      | false => exact ByteRun.written_addByte_trusted run _
  | text text => exact fun escaping run => ⟨_, rfl, ByteRun.written_addText escaping run text⟩
  | markup content => exact fun _ run => ⟨_, rfl, ByteRun.written_addPiece run content⟩
  | list each inductionHypothesis =>
      intro escaping run
      rcases readItems_of_adds inductionHypothesis escaping run with ⟨next, read, written⟩
      exact ⟨next, by rw [readItem, read], by rw [written, elementBytes]⟩
  | trustedText text =>
      intro escaping run
      refine ⟨_, rfl, ?_⟩
      rw [ByteRun.written_addPiece, Markup.bytes_raw]
      rfl
  | trustedMarkup content =>
      exact fun escaping run => ⟨_, rfl, ByteRun.written_addPiece run content⟩
  | trustedList each inductionHypothesis =>
      intro escaping run
      rcases readItems_of_adds inductionHypothesis false {} with ⟨inner, read, written⟩
      refine ⟨run.addPiece inner.finish, by simp only [readItem, read, if_true], ?_⟩
      rw [ByteRun.written_addPiece, ByteRun.bytes_finish, written, elementBytes]
      rfl

/-- A value that no byte list may hold is blamed. -/
theorem Misplaced.read {value : Value} (misplaced : Misplaced value) (escaping : Bool)
    (run : ByteRun) : readItem escaping run value = .error (blame value) := by
  cases value with
  | int number =>
      have large : byte? number = none := by
        refine if_neg fun range => misplaced.noElement (.byte range.1 ?_)
        omega
      simp only [readItem, large]
      rfl
  | str text => exact absurd (.text text) misplaced.noElement
  | markup content => exact absurd (.markup content) misplaced.noElement
  | list items => exact absurd rfl (misplaced.noList items)
  | tuple items =>
      by_cases marked : ∃ payload, items = [.atom "safe", payload]
      · rcases marked with ⟨payload, rfl⟩
        cases payload with
        | str text => exact absurd (.trustedText text) misplaced.noElement
        | markup content => exact absurd (.trustedMarkup content) misplaced.noElement
        | list items => exact absurd rfl (misplaced.noTrustedList items)
        | _ => rfl
      · exact readItem_tuple (not_exists.mp marked) escaping run
  | _ => rfl

mutual

/-- An element that cannot be read fails with the value to blame. -/
theorem Offends.read {item value : Value} : Offends item value -> ∀ escaping run,
    readItem escaping run item = .error (blame value)
  | .itself misplaced, escaping, run => misplaced.read escaping run
  | .list first, escaping, run => by
      rw [readItem, first.read]
  | .trustedList first, escaping, run => by
      simp only [readItem, if_true, first.read]

theorem FirstOffends.read {items : List Value} {value : Value} : FirstOffends items value ->
    ∀ escaping run, readItems escaping run items = .error (blame value)
  | .here offends, escaping, run => by
      simp only [readItems, offends.read escaping run]
  | .later fits first, escaping, run => by
      rcases fits.adds escaping run with ⟨next, read, _⟩
      simp only [readItems, read, first.read escaping next]

end

mutual

/-- A byte list may hold a value, or there is a value to blame. -/
theorem byteElement_or_offends (item : Value) : ByteElement item ∨ ∃ value, Offends item value := by
  by_cases fits : ByteElement item
  · exact .inl fits
  · refine .inr ?_
    by_cases listed : ∃ items, item = .list items
    · rcases listed with ⟨items, rfl⟩
      rcases each_or_firstOffends items with each | ⟨value, first⟩
      · exact absurd (.list each) fits
      · exact ⟨value, .list first⟩
    · by_cases trusted : ∃ items, item = .tuple [.atom "safe", .list items]
      · rcases trusted with ⟨items, rfl⟩
        rcases each_or_firstOffends items with each | ⟨value, first⟩
        · exact absurd (.trustedList each) fits
        · exact ⟨value, .trustedList first⟩
      · exact ⟨item, .itself ⟨fits, not_exists.mp listed, not_exists.mp trusted⟩⟩
termination_by sizeOf item
decreasing_by
  all_goals
    subst_vars
    simp only [Value.list.sizeOf_spec, Value.tuple.sizeOf_spec, List.cons.sizeOf_spec]
    omega

theorem each_or_firstOffends (items : List Value) :
    (∀ item ∈ items, ByteElement item) ∨ ∃ value, FirstOffends items value := by
  cases items with
  | nil => exact .inl (List.forall_mem_nil _)
  | cons item rest =>
      rcases byteElement_or_offends item with fits | ⟨value, offends⟩
      · rcases each_or_firstOffends rest with each | ⟨value, first⟩
        · exact .inl (List.forall_mem_cons.mpr ⟨fits, each⟩)
        · exact .inr ⟨value, .later fits first⟩
      · exact .inr ⟨value, .here offends⟩
termination_by sizeOf items
decreasing_by
  all_goals
    simp only [List.cons.sizeOf_spec]
    omega

end

/-! ## Reading lists -/

/-- A list is turned into markup exactly if a byte list may hold all of its
elements.  The markup has the bytes that they stand for, and the error names the
first value because of which the list cannot be read. -/
structure ReadsAs (escaping : Bool) (items : List Value) (result : Except Error Markup) : Prop where
  succeeds : (∃ content, result = .ok content) ↔ ∀ item ∈ items, ByteElement item
  bytes : ∀ content, result = .ok content ->
    content.bytes.data.toList = listBytes escaping items
  fails : ∀ error, result = .error error ↔ ∃ value, FirstOffends items value ∧ error = blame value

theorem byteList_of_each {items : List Value} (each : ∀ item ∈ items, ByteElement item)
    (escaping : Bool) : ∃ content, byteList escaping items = .ok content ∧
      content.bytes.data.toList = listBytes escaping items := by
  rcases readItems_of_adds (fun item member => (each item member).adds) escaping {} with
    ⟨run, read, written⟩
  refine ⟨run.finish, by simp only [byteList, read, Except.map], ?_⟩
  rw [ByteRun.bytes_finish, written]
  rfl

theorem byteList_of_firstOffends {items : List Value} {value : Value}
    (first : FirstOffends items value) (escaping : Bool) :
    byteList escaping items = .error (blame value) := by
  simp only [byteList, first.read, Except.map]

theorem readsAs_of_each {items : List Value} (each : ∀ item ∈ items, ByteElement item)
    (escaping : Bool) : ReadsAs escaping items (byteList escaping items) := by
  rcases byteList_of_each each escaping with ⟨content, read, bytes⟩
  refine ⟨⟨fun _ => each, fun _ => ⟨content, read⟩⟩, fun other same => ?_, fun error => ⟨?_, ?_⟩⟩
  · rw [read] at same
    cases same
    exact bytes
  · intro failed
    rw [read] at failed
    cases failed
  · rintro ⟨value, first, rfl⟩
    exact byteList_of_firstOffends first escaping

theorem readsAs_of_firstOffends {items : List Value} {value : Value}
    (first : FirstOffends items value) (escaping : Bool) :
    ReadsAs escaping items (byteList escaping items) := by
  have failed := byteList_of_firstOffends first escaping
  have noContent (content : Markup) : byteList escaping items ≠ .ok content := by
    rw [failed]
    exact nofun
  refine ⟨⟨fun ⟨content, read⟩ => absurd read (noContent content), fun each => ?_⟩,
    fun content read => absurd read (noContent content), fun error => ⟨?_, ?_⟩⟩
  · rcases byteList_of_each each escaping with ⟨content, read, _⟩
    exact ⟨content, read⟩
  · intro same
    rw [failed] at same
    cases same
    exact ⟨value, first, rfl⟩
  · rintro ⟨other, first, rfl⟩
    exact byteList_of_firstOffends first escaping

theorem readsAs_byteList (escaping : Bool) (items : List Value) :
    ReadsAs escaping items (byteList escaping items) := by
  rcases each_or_firstOffends items with each | ⟨value, first⟩
  · exact readsAs_of_each each escaping
  · exact readsAs_of_firstOffends first escaping

/-- Printing a list reads it as a byte list that is escaped.  A tuple of `:safe`
and a list is read without escaping, and so is a list that is given to `raw`. -/
theorem list_readsAs (items : List Value) :
    (∀ convert ∈ [print, toMarkup], ReadsAs true items (convert (.list items)) ∧
      ReadsAs false items (convert (.tuple [.atom "safe", .list items]))) ∧
    ReadsAs false items (Trust.raw (.list items)) := by
  have trusted := readsAs_byteList false items
  have both : ReadsAs true items (list items).toMarkup ∧
      ReadsAs false items (tuple [.atom "safe", .list items]).toMarkup :=
    ⟨readsAs_byteList true items, trusted⟩
  exact ⟨List.forall_mem_cons.mpr ⟨both, List.forall_mem_singleton.mpr both⟩, trusted⟩

/-- A byte that is escaped, and a trusted list with a byte that is none of UTF-8. -/
example : (Value.list [.int 60, .tuple [.atom "safe", .list [.int 60, .int 255]]]).print.toOption.map
    (fun content => content.bytes.data.toList) = some [38, 108, 116, 59, 60, 255] := by
  decide +kernel

end Value
end HtmlTemplate
