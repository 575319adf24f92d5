import HtmlTemplate.Proofs.Escaping.Bytes

namespace HtmlTemplate

/-!
# Escaping by byte offsets

A writer scans bytes and cuts the text at offsets, and nothing in the scan says
where a character begins.  It is right because the five bytes that have an
entity are characters of their own: every cut lies directly in front of one of
them, directly behind one, or at an end of the text.

So the writer, the adapter that escapes while it shows, the buffer that is
built on demand and trusted markup all hold the same text, the one that
replaces character by character.
-/

namespace Entity

/-- The five characters that have an entity. -/
def characters : List Char := ['<', '>', '&', '"', '\'']

theorem ofChar?_eq_none_iff {c : Char} : ofChar? c = none ↔ c ∉ characters := by
  unfold ofChar?
  split
  case h_6 noOpening noClosing noAmpersand noQuote noApostrophe =>
    simp only [characters, List.mem_cons, List.not_mem_nil, or_false, not_or, true_iff]
    exact ⟨noOpening, noClosing, noAmpersand, noQuote, noApostrophe⟩
  all_goals decide

/-- A character that has an entity is one byte, which has the same entity. -/
theorem exists_byte_of_ofChar? {c : Char} {entity : String} (found : ofChar? c = some entity) :
    ∃ byte, String.utf8EncodeChar c = [byte] ∧ ofByte? byte = some entity := by
  unfold ofChar? at found
  split at found
  case h_6 => cases found
  all_goals
    cases found
    exact ⟨_, rfl, rfl⟩

/-- None of the bytes of any other character has an entity. -/
theorem ofByte?_of_plain {c : Char} (plain : ofChar? c = none) :
    ∀ byte ∈ String.utf8EncodeChar c, ofByte? byte = none := by
  intro byte member
  cases found : ofByte? byte with
  | none => rfl
  | some entity =>
      rcases plain_of_ofChar?_eq_none plain byte member with ⟨bracket, different⟩
      rcases List.mem_cons.mp (mem_significant_of_ofByte? found) with same | inside
      · exact absurd same different
      · exact absurd inside bracket

theorem ofByte?_of_plainChars {text : List Char} (plain : ∀ c ∈ text, ofChar? c = none) :
    ∀ byte ∈ text.flatMap String.utf8EncodeChar, ofByte? byte = none := by
  intro byte member
  rcases List.mem_flatMap.mp member with ⟨c, inside, encoded⟩
  exact ofByte?_of_plain (plain c inside) byte encoded

/-! ## Cuts -/

/-- A text that stands between two others is cut out. -/
theorem slice?_middle (before middle after : String) :
    slice? (before ++ middle ++ after) before.utf8ByteSize (before ++ middle).utf8ByteSize =
      some middle := by
  have ordered : before.utf8ByteSize ≤ (before ++ middle).utf8ByteSize := by
    rw [String.utf8ByteSize_append]
    exact Nat.le_add_right _ _
  have begins : String.Pos.Raw.IsValid (before ++ middle ++ after) ⟨before.utf8ByteSize⟩ := by
    rw [String.append_assoc]
    exact String.Pos.Raw.isValid_rawEndPos.append_right _
  have ends : String.Pos.Raw.IsValid (before ++ middle ++ after)
      ⟨(before ++ middle).utf8ByteSize⟩ :=
    String.Pos.Raw.isValid_rawEndPos.append_right _
  rw [slice?, dif_pos ⟨ordered, begins, ends⟩, Option.some_inj]
  apply String.toByteArray_inj.mp
  rw [String.toByteArray_extract, String.offset_pos, String.offset_pos, String.toByteArray_append,
    String.toByteArray_append, ByteArray.append_assoc, String.utf8ByteSize_append]
  change (before.toByteArray ++ (middle.toByteArray ++ after.toByteArray)).extract
    (before.utf8ByteSize + 0) (before.utf8ByteSize + middle.utf8ByteSize) = middle.toByteArray
  rw [ByteArray.extract_append_size_add' String.size_toByteArray.symm]
  exact ByteArray.extract_append_eq_left String.size_toByteArray.symm

/-! ## The scan -/

/-- Bytes without an entity only move the scan on. -/
theorem piecesFrom?_append (text : String) (last index : Nat) {bytes : List UInt8}
    (plain : ∀ byte ∈ bytes, ofByte? byte = none) (rest : List UInt8) :
    piecesFrom? text last index (bytes ++ rest) =
      piecesFrom? text last (index + bytes.length) rest := by
  induction bytes generalizing index with
  | nil => rfl
  | cons byte others inductionHypothesis =>
      rw [List.forall_mem_cons] at plain
      rw [List.cons_append, piecesFrom?, plain.1, List.length_cons, Nat.add_comm others.length,
        ← Nat.add_assoc]
      exact inductionHypothesis _ plain.2

theorem piecesFrom?_entity (text : String) (last index : Nat) {byte : UInt8} {entity : String}
    (found : ofByte? byte = some entity) (rest : List UInt8) :
    piecesFrom? text last index (byte :: rest) = (do
      let run ← slice? text last index
      let others ← piecesFrom? text (index + 1) (index + 1) rest
      return run :: entity :: others) := by
  rw [piecesFrom?, found]

/-- The scan stands at the boundary of a character, behind the run in progress.
Then every cut to come is made at boundaries too, and the pieces are the run and
the rest of the text with its characters escaped. -/
theorem piecesFrom?_boundary (before run : String) (rest : List Char) :
    ∃ pieces, piecesFrom? (before ++ run ++ String.ofList rest) before.utf8ByteSize
        (before ++ run).utf8ByteSize (rest.flatMap String.utf8EncodeChar) = some pieces ∧
      String.join pieces = run ++ String.ofList (escapeChars rest) := by
  induction rest generalizing before run with
  | nil =>
      refine ⟨[run], ?_, ?_⟩
      · have cut := slice?_middle before run ""
        rw [String.append_empty] at cut
        simp only [List.flatMap_nil, piecesFrom?, String.ofList_nil, String.append_empty, cut]
        rfl
      · rw [String.join_cons, String.join_nil, escapeChars, List.flatMap_nil, String.ofList_nil]
  | cons c rest inductionHypothesis =>
      have whole : before ++ run ++ String.ofList (c :: rest) =
          before ++ (run ++ String.singleton c) ++ String.ofList rest := by
        rw [String.ofList_cons]
        simp only [String.append_assoc]
      have behind : (before ++ (run ++ String.singleton c)).utf8ByteSize =
          (before ++ run).utf8ByteSize + (String.utf8EncodeChar c).length := by
        rw [← String.append_assoc, String.utf8ByteSize_append, String.utf8ByteSize_singleton,
          String.length_utf8EncodeChar]
      have split : escapeChars (c :: rest) = escapeChar c ++ escapeChars rest := rfl
      rw [List.flatMap_cons, whole, split, String.ofList_append]
      cases found : ofChar? c with
      | none =>
          -- the run grows by the character, however many bytes it has
          rcases inductionHypothesis before (run ++ String.singleton c) with
            ⟨pieces, scanned, joined⟩
          refine ⟨pieces, ?_, ?_⟩
          · rw [piecesFrom?_append _ _ _ (ofByte?_of_plain found), ← behind]
            exact scanned
          · rw [joined, escapeChar_of_none found, ← String.singleton_eq_ofList, String.append_assoc]
      | some entity =>
          rcases exists_byte_of_ofChar? found with ⟨byte, encoded, known⟩
          rcases inductionHypothesis (before ++ (run ++ String.singleton c)) "" with
            ⟨pieces, scanned, joined⟩
          rw [encoded, List.length_singleton] at behind
          rw [String.append_empty, behind] at scanned
          have cut := slice?_middle before run (String.ofList (c :: rest))
          rw [whole] at cut
          refine ⟨run :: entity :: pieces, ?_, ?_⟩
          · rw [encoded, List.singleton_append, piecesFrom?_entity _ _ _ known, cut, scanned]
            rfl
          · rw [String.join_cons, String.join_cons, joined, escapeChar, found, String.ofList_toList,
              String.empty_append]

/-- What a writer has collected is the escaped text. -/
theorem written?_eq (text : String) : written? text = some (escape text) := by
  have whole : "" ++ "" ++ String.ofList text.toList = text := by
    rw [String.empty_append, String.empty_append, String.ofList_toList]
  have bytes : text.toUTF8.data.toList = text.toList.flatMap String.utf8EncodeChar :=
    Utf8.bytes_eq_flatMap text
  rcases piecesFrom?_boundary "" "" text.toList with ⟨pieces, scanned, joined⟩
  rw [whole, ← bytes] at scanned
  have given : pieces? text = some pieces := scanned
  rw [written?, given, Option.map_some, joined, String.empty_append]
  rfl

/-! ## Building a text only on demand -/

theorem findIdx?_eq_none {text : List Char} (plain : ∀ c ∈ text, ofChar? c = none) :
    (text.flatMap String.utf8EncodeChar).findIdx? (fun byte => (ofByte? byte).isSome) = none := by
  rw [List.findIdx?_eq_none_iff]
  intro byte member
  rw [ofByte?_of_plainChars plain byte member]
  rfl

/-- The first byte with an entity begins the first such character. -/
theorem findIdx?_eq_some {clean rest : List Char} {c : Char} {entity : String}
    (plain : ∀ other ∈ clean, ofChar? other = none) (found : ofChar? c = some entity) :
    ((clean ++ c :: rest).flatMap String.utf8EncodeChar).findIdx?
        (fun byte => (ofByte? byte).isSome) =
      some (String.ofList clean).utf8ByteSize := by
  rcases exists_byte_of_ofChar? found with ⟨byte, encoded, known⟩
  have size : (clean.flatMap String.utf8EncodeChar).length =
      (String.ofList clean).utf8ByteSize := by
    rw [← Utf8.toUTF8_ofList]
    rfl
  rw [List.flatMap_append, List.flatMap_cons, encoded, List.findIdx?_append, findIdx?_eq_none plain,
    List.singleton_append, List.findIdx?_cons, known]
  simp [size]

/-- A text without any of the five is handed back. -/
theorem passage?_of_plain {text : String} (plain : ∀ c ∈ text.toList, ofChar? c = none) :
    passage? text = some (.kept text) := by
  have bytes : text.toUTF8.data.toList = text.toList.flatMap String.utf8EncodeChar :=
    Utf8.bytes_eq_flatMap text
  rw [passage?, bytes, findIdx?_eq_none plain]

/-- Cut in front of the first of the five, a text is its clean beginning and a
rest that is written on its own. -/
theorem passage?_append {clean : List Char} {c : Char} {entity : String}
    (plain : ∀ other ∈ clean, ofChar? other = none) (found : ofChar? c = some entity)
    (rest : List Char) :
    passage? (String.ofList (clean ++ c :: rest)) =
      some (.built (escape (String.ofList (clean ++ c :: rest)))) := by
  have beginning : slice? (String.ofList (clean ++ c :: rest)) 0
      (String.ofList clean).utf8ByteSize = some (String.ofList clean) := by
    have cut := slice?_middle "" (String.ofList clean) (String.ofList (c :: rest))
    rwa [String.empty_append, ← String.ofList_append] at cut
  have remainder : slice? (String.ofList (clean ++ c :: rest)) (String.ofList clean).utf8ByteSize
      (String.ofList (clean ++ c :: rest)).utf8ByteSize = some (String.ofList (c :: rest)) := by
    have cut := slice?_middle (String.ofList clean) (String.ofList (c :: rest)) ""
    rwa [String.append_empty, ← String.ofList_append] at cut
  have joined : String.ofList clean ++ escape (String.ofList (c :: rest)) =
      escape (String.ofList (clean ++ c :: rest)) := by
    rw [escape, escape, String.toList_ofList, String.toList_ofList, escapeChars, escapeChars,
      List.flatMap_append, String.ofList_append]
    exact congrArg (String.ofList · ++ _) (escapeChars_eq_self_iff.mpr plain).symm
  rw [passage?, Utf8.toUTF8_ofList, findIdx?_eq_some plain found]
  simp only [beginning, remainder, written?_eq, joined, Option.bind_eq_bind, Option.bind_some]
  rfl

/-- A text with one of the five is built anew. -/
theorem passage?_of_special {text : String} (special : ¬∀ c ∈ text.toList, ofChar? c = none) :
    passage? text = some (.built (escape text)) := by
  cases first : text.toList.find? (fun c => (ofChar? c).isSome) with
  | none =>
      refine absurd (fun c member => ?_) special
      have plain := List.find?_eq_none.mp first c member
      rwa [Bool.not_eq_true, Option.isSome_eq_false_iff, Option.isNone_iff_eq_none] at plain
  | some c =>
      rcases List.find?_eq_some_iff_append.mp first with ⟨known, clean, rest, whole, before⟩
      rcases Option.isSome_iff_exists.mp known with ⟨entity, found⟩
      have plain : ∀ other ∈ clean, ofChar? other = none := by
        intro other member
        have unknown := before other member
        rwa [Bool.not_eq_true', Option.isSome_eq_false_iff, Option.isNone_iff_eq_none] at unknown
      have answer := passage?_append plain found rest
      rwa [← whole, String.ofList_toList] at answer

/-! ## All paths -/

/-- What is asked of a text that stands for another one in HTML. -/
structure Escapes (text written : String) : Prop where
  /-- Every character became its entity, or itself if it has none. -/
  each : written.toList = text.toList.flatMap escapeChar
  /-- There is no bracket and no quote, and every ampersand begins an entity. -/
  neutral : NeutralText written
  /-- Replacing the entities from left to right gives the text back. -/
  read_back : unescapeBytes (Utf8.bytes written) = Utf8.bytes text
  /-- Only a text without any of the five is as it was. -/
  unchanged : written = text ↔ ∀ c ∈ text.toList, c ∉ characters

theorem escapes (text : String) : Escapes text (escape text) where
  each := String.toList_ofList
  neutral := neutralText_escape text
  read_back := by rw [bytes_escape, unescapeBytes_escapeBytes]
  unchanged := by simp only [escape_eq_self_iff, ofChar?_eq_none_iff]

/-- One text can stand for only one other. -/
theorem Escapes.unique {first second written : String} (left : Escapes first written)
    (right : Escapes second written) : first = second := by
  have bytes : Utf8.bytes first = Utf8.bytes second := left.read_back.symm.trans right.read_back
  apply String.toByteArray_inj.mp
  exact ByteArray.ext (Array.toList_inj.mp bytes)

/-- Escaping hands back the text itself if and only if it holds none of the
five. -/
theorem exists_passage (text : String) :
    ∃ passage, passage? text = some passage ∧ passage.text = escape text ∧
      (passage = .kept text ↔ ∀ c ∈ text.toList, c ∉ characters) := by
  simp only [← ofChar?_eq_none_iff]
  by_cases plain : ∀ c ∈ text.toList, ofChar? c = none
  · refine ⟨.kept text, passage?_of_plain plain, (escape_eq_self_iff.mpr plain).symm, ?_⟩
    exact ⟨fun _ => plain, fun _ => rfl⟩
  · refine ⟨.built (escape text), passage?_of_special plain, rfl, ?_⟩
    exact ⟨Passage.noConfusion, fun clear => absurd clear plain⟩

/-- Markup that takes up the text that escaping hands back, whether that is the
given one or a new one, is markup that the escaped text is appended to. -/
theorem map_pushRaw_passage? (text : String) (markup : Markup) :
    (passage? text).map (fun passage => markup.pushRaw passage.text) =
      some (markup.pushEscaped text) := by
  rcases exists_passage text with ⟨passage, found, same, _⟩
  rw [found, Option.map_some, same, Markup.pushEscaped]

/-- A text is escaped in the same way by a writer that cuts it at byte offsets,
while it is shown, into a buffer that is built on demand, and into markup, which
takes up the text of that buffer.  No cut misses the boundary of a character, for
then there would be no text at all.  The text can be read back, so no other text
is escaped to it. -/
theorem escape_on_every_path (text : String) :
    Escapes text (escape text) ∧
      written? text = some (escape text) ∧
      toString (Escaped.mk text) = escape text ∧
      (∃ passage, passage? text = some passage ∧ passage.text = escape text ∧
        (passage = .kept text ↔ ∀ c ∈ text.toList, c ∉ characters)) ∧
      (∀ markup : Markup, (passage? text).map (fun passage => markup.pushRaw passage.text) =
        some (markup.pushEscaped text)) ∧
      Markup.escape text = Markup.empty.pushEscaped text ∧
      (Markup.escape text).bytes = (escape text).toUTF8 ∧
      (Markup.escape text).toText = escape text ∧
      ∀ other, escape other = escape text -> other = text := by
  have shown : toString (Escaped.mk text) = escape text := by
    change written text = _
    rw [written, written?_eq, Option.getD_some]
  have begun (content : String) : Markup.raw content = Markup.empty.pushRaw content := rfl
  refine ⟨escapes text, written?_eq text, shown, exists_passage text, map_pushRaw_passage? text,
    begun (escape text), Markup.bytes_escape text, ?_, ?_⟩
  · rw [Markup.toText_eq, Markup.bytes_escape, Utf8.decode_toUTF8]
  · intro other same
    have right := escapes other
    rw [same] at right
    exact right.unique (escapes text)

/-- Characters of several bytes stay whole on both sides of a cut. -/
example : pieces? "é<é" = some ["é", "&lt;", "é"] := by decide

end Entity
end HtmlTemplate
