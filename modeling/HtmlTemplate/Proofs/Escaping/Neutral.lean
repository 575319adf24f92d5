import HtmlTemplate.Decimal.Shortest
import HtmlTemplate.Markup
import Mathlib.Data.Bool.AllAny

namespace HtmlTemplate

/-!
# Neutral bytes

Bytes are neutral if they can neither begin nor end anything in HTML text or in
a quoted attribute value: angle brackets and quotes do not occur at all, and an
ampersand only at the beginning of one of the five entities.  Neutral bytes
stay neutral when they are joined, so it is enough to look at every piece of an
output on its own.

The pieces treated here are escaped texts and the texts of numbers.
-/

/-- The bytes of the brackets and quotes. -/
def delimiters : List UInt8 := [60, 62, 34, 39]

/-- The byte that every entity begins with. -/
def ampersand : UInt8 := 38

/-- The entities of the five significant characters, as bytes. -/
def entities : List (List UInt8) :=
  ["&lt;", "&gt;", "&amp;", "&quot;", "&#39;"].map fun entity => entity.toUTF8.data.toList

/-- There is no bracket and no quote, and every ampersand begins an entity. -/
inductive Neutral : List UInt8 -> Prop where
  | nil : Neutral []
  | cons {byte : UInt8} {rest : List UInt8} (plain : byte ∉ delimiters)
      (begins : byte = ampersand -> ∃ entity ∈ entities, entity <+: byte :: rest)
      (others : Neutral rest) : Neutral (byte :: rest)

namespace Neutral

theorem cons_iff {byte : UInt8} {rest : List UInt8} :
    Neutral (byte :: rest) ↔ (byte ∉ delimiters ∧
      (byte = ampersand -> ∃ entity ∈ entities, entity <+: byte :: rest)) ∧ Neutral rest := by
  constructor
  · rintro ⟨⟩
    exact ⟨⟨‹_›, ‹_›⟩, ‹_›⟩
  · rintro ⟨⟨plain, begins⟩, others⟩
    exact .cons plain begins others

/-- Neutrality can be tested. -/
instance decidable : (bytes : List UInt8) -> Decidable (Neutral bytes)
  | [] => .isTrue .nil
  | byte :: rest =>
      have := decidable rest
      decidable_of_iff ((byte ∉ delimiters ∧
        (byte = ampersand -> ∃ entity ∈ entities, entity <+: byte :: rest)) ∧ Neutral rest)
        cons_iff.symm

theorem append {first second : List UInt8} (left : Neutral first) (right : Neutral second) :
    Neutral (first ++ second) := by
  induction left with
  | nil => exact right
  | cons plain begins others inductionHypothesis =>
      refine .cons plain (fun same => ?_) inductionHypothesis
      rcases begins same with ⟨entity, known, found⟩
      exact ⟨entity, known, found.trans (List.prefix_append ..)⟩

/-- Bytes without any of the five characters are neutral. -/
theorem of_forall {bytes : List UInt8}
    (plain : ∀ byte ∈ bytes, byte ∉ delimiters ∧ byte ≠ ampersand) : Neutral bytes := by
  induction bytes with
  | nil => exact .nil
  | cons byte rest inductionHypothesis =>
      have head := plain byte (List.mem_cons_self ..)
      refine .cons head.1 (fun same => absurd same head.2) (inductionHypothesis ?_)
      exact fun other member => plain other (List.mem_cons_of_mem _ member)

theorem of_mem_entities : ∀ entity ∈ entities, Neutral entity := by
  decide

theorem flatMap {α : Type} {items : List α} {bytes : α -> List UInt8}
    (each : ∀ item ∈ items, Neutral (bytes item)) : Neutral (items.flatMap bytes) := by
  induction items with
  | nil => exact .nil
  | cons item rest inductionHypothesis =>
      rw [List.flatMap_cons]
      refine (each item (List.mem_cons_self ..)).append (inductionHypothesis ?_)
      exact fun other member => each other (List.mem_cons_of_mem _ member)

end Neutral

/-- The bytes of a text are neutral. -/
def NeutralText (text : String) : Prop :=
  Neutral text.toUTF8.data.toList

instance NeutralText.decidable (text : String) : Decidable (NeutralText text) :=
  Neutral.decidable _

namespace Utf8

theorem toUTF8_ofList (chars : List Char) :
    (String.ofList chars).toUTF8.data.toList = chars.flatMap String.utf8EncodeChar := by
  rw [String.toUTF8_eq_toByteArray, String.toByteArray_ofList, List.utf8Encode,
    List.toList_data_toByteArray]

theorem toUTF8_of_fromUTF8? {bytes : ByteArray} {text : String}
    (decoded : String.fromUTF8? bytes = some text) : text.toUTF8 = bytes := by
  rw [String.fromUTF8?] at decoded
  split at decoded
  · cases decoded
    rfl
  · cases decoded

theorem toList_loop (bytes : ByteArray) (index : Nat) (collected : List UInt8) :
    ByteArray.toList.loop bytes index collected =
      collected.reverse ++ bytes.data.toList.drop index := by
  induction index, collected using ByteArray.toList.loop.induct bytes with
  | case1 index collected inside inductionHypothesis =>
      have inside' : index < bytes.data.size := inside
      have read : bytes.get! index = bytes.data.toList[index] := getElem!_pos bytes.data index inside'
      rw [ByteArray.toList.loop, if_pos inside, inductionHypothesis, List.reverse_cons,
        List.append_assoc, read, List.singleton_append, List.getElem_cons_drop]
  | case2 index collected outside =>
      rw [ByteArray.toList.loop, if_neg outside, List.drop_eq_nil_of_le, List.append_nil]
      simpa using outside

theorem toList_eq_data (bytes : ByteArray) : bytes.toList = bytes.data.toList :=
  toList_loop bytes 0 []

/-- A byte below 128 is a character of its own. -/
theorem toNat_of_mem_encodeChar {c : Char} {byte : UInt8}
    (member : byte ∈ String.utf8EncodeChar c) (ascii : byte.toNat < 128) :
    c.toNat = byte.toNat := by
  have same : c.val.toNat = c.toNat := rfl
  unfold String.utf8EncodeChar at member
  simp only [same] at member
  split at member
  · cases List.mem_singleton.mp member
    simp only [UInt8.toNat_ofNat']
    omega
  · exfalso
    split at member
    · simp only [List.mem_cons, List.not_mem_nil, or_false] at member
      rcases member with rfl | rfl
      all_goals
        simp only [UInt8.toNat_ofNat'] at ascii
        omega
    · split at member
      · simp only [List.mem_cons, List.not_mem_nil, or_false] at member
        rcases member with rfl | rfl | rfl
        all_goals
          simp only [UInt8.toNat_ofNat'] at ascii
          omega
      · simp only [List.mem_cons, List.not_mem_nil, or_false] at member
        rcases member with rfl | rfl | rfl | rfl
        all_goals
          simp only [UInt8.toNat_ofNat'] at ascii
          omega

end Utf8

namespace Entity

/-- Every entity that stands for a character is one of the five. -/
theorem mem_entities_of_ofChar? {c : Char} {entity : String} (found : ofChar? c = some entity) :
    entity.toUTF8.data.toList ∈ entities := by
  unfold ofChar? at found
  split at found
  all_goals first
    | (cases found; decide)
    | cases found

theorem isSome_ofChar?_of_mem : ∀ byte ∈ ampersand :: delimiters,
    byte.toNat < 128 ∧ (ofChar? (Char.ofNat byte.toNat)).isSome = true :=
  List.all_iff_forall_prop.mp (by decide)

/-- A character without an entity has none of the significant bytes. -/
theorem plain_of_ofChar?_eq_none {c : Char} (plain : ofChar? c = none) :
    ∀ byte ∈ String.utf8EncodeChar c, byte ∉ delimiters ∧ byte ≠ ampersand := by
  intro byte member
  have significant : byte ∈ ampersand :: delimiters -> False := by
    intro inside
    have ascii := isSome_ofChar?_of_mem byte inside
    have same := Utf8.toNat_of_mem_encodeChar member ascii.1
    rw [← same, Char.ofNat_toNat, plain] at ascii
    exact Bool.noConfusion ascii.2
  constructor
  · exact fun inside => significant (List.mem_cons_of_mem _ inside)
  · rintro rfl
    exact significant (List.mem_cons_self ..)

theorem plain_of_ofByte?_eq_none {byte : UInt8} (plain : ofByte? byte = none) :
    byte ∉ delimiters ∧ byte ≠ ampersand := by
  have significant : ∀ byte ∈ ampersand :: delimiters, ofByte? byte ≠ none :=
    List.all_iff_forall_prop.mp (by decide)
  constructor
  · exact fun inside => significant byte (List.mem_cons_of_mem _ inside) plain
  · rintro rfl
    exact significant _ (List.mem_cons_self ..) plain

theorem neutral_escapeChar (c : Char) :
    Neutral ((escapeChar c).flatMap String.utf8EncodeChar) := by
  unfold escapeChar
  split
  · rename_i entity found
    rw [← Utf8.toUTF8_ofList, String.ofList_toList]
    exact Neutral.of_mem_entities _ (mem_entities_of_ofChar? found)
  · rename_i plain
    rw [List.flatMap_singleton]
    exact Neutral.of_forall (plain_of_ofChar?_eq_none plain)

/-- Whatever a text holds, escaping makes it neutral. -/
theorem neutralText_escape (text : String) : NeutralText (escape text) := by
  rw [NeutralText, escape, Utf8.toUTF8_ofList, escapeChars, List.flatMap_assoc]
  exact Neutral.flatMap fun c _ => neutral_escapeChar c

/-- Text of characters that have no entity. -/
theorem neutralText_of_forall (chars : List Char) (plain : ∀ c ∈ chars, ofChar? c = none) :
    NeutralText (String.ofList chars) := by
  rw [NeutralText, Utf8.toUTF8_ofList]
  exact Neutral.flatMap fun c member => Neutral.of_forall (plain_of_ofChar?_eq_none (plain c member))

/-! ## What escaping leaves alone -/

theorem escapeChar_of_none {c : Char} (plain : ofChar? c = none) : escapeChar c = [c] := by
  rw [escapeChar, plain]

theorem two_le_length_escapeChar {c : Char} (special : ofChar? c ≠ none) :
    2 ≤ (escapeChar c).length := by
  cases found : ofChar? c with
  | none => exact absurd found special
  | some entity =>
      rw [escapeChar, found]
      unfold ofChar? at found
      split at found <;> cases found <;> decide

theorem length_le_escapeChars (text : List Char) : text.length ≤ (escapeChars text).length := by
  induction text with
  | nil => exact Nat.le_refl 0
  | cons c rest inductionHypothesis =>
      have head : 1 ≤ (escapeChar c).length := by
        by_cases plain : ofChar? c = none
        · rw [escapeChar_of_none plain]
          exact Nat.le_refl 1
        · exact Nat.le_of_succ_le (two_le_length_escapeChar plain)
      have split : escapeChars (c :: rest) = escapeChar c ++ escapeChars rest := rfl
      rw [split, List.length_append, List.length_cons]
      omega

theorem escapeChars_eq_self_iff {text : List Char} :
    escapeChars text = text ↔ ∀ c ∈ text, ofChar? c = none := by
  induction text with
  | nil => simp [escapeChars]
  | cons c rest inductionHypothesis =>
      have split : escapeChars (c :: rest) = escapeChar c ++ escapeChars rest := rfl
      rw [split, List.forall_mem_cons, ← inductionHypothesis]
      by_cases plain : ofChar? c = none
      · rw [escapeChar_of_none plain]
        simp [plain]
      · constructor
        · intro same
          have lengths := congrArg List.length same
          have head := two_le_length_escapeChar plain
          have tail := length_le_escapeChars rest
          rw [List.length_append, List.length_cons] at lengths
          omega
        · rintro ⟨impossible, _⟩
          exact absurd impossible plain

/-- Escaping changes a text if and only if one of the five characters occurs. -/
theorem escape_eq_self_iff {text : String} :
    escape text = text ↔ ∀ c ∈ text.toList, ofChar? c = none := by
  rw [← escapeChars_eq_self_iff, ← String.toList_inj, escape, String.toList_ofList]

end Entity

/-! ## The texts of numbers -/

namespace Numeral

theorem toList_ofNat (number : Nat) :
    (toString (Int.ofNat number)).toList = Nat.toDigits 10 number :=
  Nat.toList_repr

theorem toList_negSucc (number : Nat) :
    (toString (Int.negSucc number)).toList = '-' :: Nat.toDigits 10 (number + 1) := by
  rw [Int.toString_eq_repr, Int.repr, String.toList_append, Nat.toList_repr]
  rfl

end Numeral

/-- Characters that are written as themselves. -/
def PlainChars (chars : List Char) : Prop :=
  ∀ c ∈ chars, Entity.ofChar? c = none

namespace PlainChars

theorem append {first second : List Char} (left : PlainChars first) (right : PlainChars second) :
    PlainChars (first ++ second) :=
  List.forall_mem_append.mpr ⟨left, right⟩

theorem cons {c : Char} {rest : List Char} (head : Entity.ofChar? c = none)
    (tail : PlainChars rest) : PlainChars (c :: rest) :=
  List.forall_mem_cons.mpr ⟨head, tail⟩

theorem subset {first second : List Char} (inside : first ⊆ second) (plain : PlainChars second) :
    PlainChars first :=
  fun c member => plain c (inside member)

theorem replicate (count : Nat) {c : Char} (head : Entity.ofChar? c = none) :
    PlainChars (List.replicate count c) := by
  intro other member
  rw [List.eq_of_mem_replicate member]
  exact head

theorem ofChar?_of_isDigit {c : Char} (digit : c.isDigit = true) : Entity.ofChar? c = none := by
  unfold Entity.ofChar?
  split
  all_goals first
    | rfl
    | (revert digit; decide)

theorem toDigits (number : Nat) : PlainChars (Nat.toDigits 10 number) :=
  fun _ member => ofChar?_of_isDigit (Nat.isDigit_of_mem_toDigits (by decide) (by decide) member)

theorem toString_int (number : Int) : PlainChars (toString number).toList := by
  cases number with
  | ofNat number =>
      rw [Numeral.toList_ofNat]
      exact toDigits number
  | negSucc number =>
      rw [Numeral.toList_negSucc]
      exact cons (by decide) (toDigits _)

theorem dropTrailingZeros {digits : List Char} (plain : PlainChars digits) :
    PlainChars (ShortDecimal.dropTrailingZeros digits) := by
  unfold ShortDecimal.dropTrailingZeros
  split
  · exact plain.subset (List.take_subset ..)
  · refine plain.subset ?_
    intro c member
    have inside := (List.dropWhile_suffix _).subset (List.mem_reverse.mp member)
    exact List.mem_reverse.mp inside

theorem shortest (format : BinaryFormat) (mantissa : Nat) (exponent : Int) :
    PlainChars (ShortDecimal.shortest format mantissa exponent).digits :=
  dropTrailingZeros (toDigits _)

theorem positional {decimal : ShortDecimal} (plain : PlainChars decimal.digits) :
    PlainChars (FloatLayout.positional decimal) := by
  have zeros (count : Nat) : PlainChars (List.replicate count '0') := replicate count (by decide)
  unfold FloatLayout.positional
  split
  · have start : PlainChars "0.".toList := by
      exact List.all_iff_forall_prop.mp (by decide)
    exact (start.append (zeros _)).append plain
  · have point : PlainChars ['.'] := cons (by decide) (fun _ impossible => nomatch impossible)
    refine ((plain.subset (List.take_subset ..)).append (zeros _)).append point |>.append ?_
    split
    · exact zeros 1
    · exact plain.subset (List.drop_subset ..)

theorem scientific {decimal : ShortDecimal} (plain : PlainChars decimal.digits) :
    PlainChars (FloatLayout.plain.scientific decimal) := by
  unfold FloatLayout.scientific
  have mark : PlainChars [FloatLayout.plain.mark] :=
    cons (by decide) (fun _ impossible => nomatch impossible)
  refine ((plain.subset (List.take_subset ..)).append ?_).append mark |>.append
    (toString_int decimal.exponent)
  split
  · exact fun _ impossible => nomatch impossible
  · exact cons (by decide) (plain.subset (List.drop_subset ..))

end PlainChars

theorem neutralText_toString_int (number : Int) : NeutralText (toString number) := by
  rw [← String.ofList_toList (s := toString number)]
  exact Entity.neutralText_of_forall _ (PlainChars.toString_int number)

/-- Infinities and numbers that are none are written in letters, all others in
digits with a point, a sign and perhaps an exponent. -/
theorem plainChars_floatText (value : Float) : PlainChars (floatText value).toList := by
  have signed (negative : Bool) {text : List Char} (plain : PlainChars text) :
      PlainChars (String.ofList (if negative then '-' :: text else text)).toList := by
    rw [String.toList_ofList]
    split
    · exact PlainChars.cons (by decide) plain
    · exact plain
  unfold floatText FloatLayout.write
  cases BinaryNumber.ofFloat value with
  | notANumber => exact List.all_iff_forall_prop.mp (by decide)
  | infinite negative =>
      refine signed negative ?_
      exact List.all_iff_forall_prop.mp (by decide)
  | finite negative mantissa exponent =>
      simp only
      split
      · refine signed negative ?_
        exact List.all_iff_forall_prop.mp (by decide)
      · refine signed negative ?_
        have digits := PlainChars.shortest .binary64 mantissa exponent
        split
        · exact digits.positional
        · exact digits.scientific

theorem neutralText_floatText (value : Float) : NeutralText (floatText value) := by
  rw [← String.ofList_toList (s := floatText value)]
  exact Entity.neutralText_of_forall _ (plainChars_floatText value)

end HtmlTemplate
