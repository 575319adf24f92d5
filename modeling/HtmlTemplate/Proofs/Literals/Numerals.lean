import HtmlTemplate.Program.Denotation
import HtmlTemplate.Proofs.Literals.Spelling
import HtmlTemplate.Proofs.Nesting.Yields
import HtmlTemplate.Syntax.Lexeme
import Mathlib.Data.List.TakeWhile

namespace HtmlTemplate

/-!
# Which literals denote a value

The reader of templates hands numbers over as they are written.  A number with
a point or an exponent always denotes a float, however large it is.  Any other
number denotes an integer exactly if the integer is in range; the sign counts
only where the number is written with one, which is in patterns.
-/

/-! ## The shape of a number -/

namespace Numeral

/-- A digit, and then digits and separators. -/
def IsDigits (chars : List Char) : Prop :=
  ∃ first rest, chars = first :: rest ∧ first.isDigit = true ∧
    ∀ c ∈ rest, Lexeme.isDigitPart c = true

/-- Nothing, or a point and digits. -/
inductive IsFraction : List Char -> Prop
  | none : IsFraction []
  | some {digits : List Char} (places : IsDigits digits) : IsFraction ('.' :: digits)

/-- Nothing, or a mark, perhaps a sign, and digits behind separators. -/
inductive IsExponent : List Char -> Prop
  | none : IsExponent []
  | some {mark : Char} {direction separators digits : List Char} (known : mark = 'e' ∨ mark = 'E')
      (signed : direction = [] ∨ direction = ['+'] ∨ direction = ['-'])
      (separates : ∀ c ∈ separators, c = '_') (places : IsDigits digits) :
      IsExponent (mark :: (direction ++ separators ++ digits))

/-- A number as it is written, without a sign. -/
def IsUnsigned (chars : List Char) : Prop :=
  ∃ whole fraction exponent, chars = whole ++ fraction ++ exponent ∧ IsDigits whole ∧
    IsFraction fraction ∧ IsExponent exponent

/-- A number as it is written in a pattern, with or without a minus sign. -/
def IsSigned (chars : List Char) : Prop :=
  IsUnsigned chars ∨ ∃ rest, chars = '-' :: rest ∧ IsUnsigned rest

/-- The digits of a number without its separators. -/
def unseparated (chars : List Char) : List Char :=
  chars.filter (· != '_')

/-- The integer that is written without a sign. -/
def unsigned (text : String) : Nat :=
  DecimalLiteral.digitsValue (unseparated text.toList)

/-- The integer that is written with or without a minus sign. -/
def signed (text : String) : Int :=
  match text.toList with
  | '-' :: rest => -DecimalLiteral.digitsValue (unseparated rest)
  | digits => DecimalLiteral.digitsValue (unseparated digits)

end Numeral

/-! ## The readers of numbers -/

namespace Reader.Yields

theorem satisfy (accepts : Char -> Bool) :
    Yields (Reader.satisfy accepts) fun c => accepts c = true := by
  intro source value rest read
  cases source with
  | nil => cases read
  | cons c source =>
      simp only [Reader.satisfy] at read
      split at read
      · rename_i accepted
        cases read
        exact accepted
      · cases read

end Reader.Yields

namespace Lexeme

open Reader Numeral

theorem digits_yields : Yields digits IsDigits := by
  refine (Yields.satisfy Char.isDigit).bind fun first accepted => ?_
  intro source value rest read
  cases read
  exact ⟨first, _, rfl, accepted, fun c member => (List.mem_takeWhile_imp member)⟩

theorem fraction_yields : Yields fraction IsFraction :=
  .andThen fun _ => digits_yields.bind fun _ places => .pure (.some places)

theorem exponent_yields : Yields exponent IsExponent := by
  refine (Yields.satisfy _).bind fun mark known => ?_
  have signs : Yields sign fun direction =>
      direction = [] ∨ direction = ['+'] ∨ direction = ['-'] := by
    refine (Yields.satisfy _).optional.bind fun found accepted => .pure ?_
    cases found with
    | none => exact .inl rfl
    | some c =>
        have either := accepted c rfl
        simp only [Bool.or_eq_true, beq_iff_eq] at either
        rcases either with rfl | rfl
        · exact .inr (.inl rfl)
        · exact .inr (.inr rfl)
  refine signs.bind fun direction signed => ?_
  have separators : Yields
      (fun source => .ok (source.takeWhile (· == '_')) (source.dropWhile (· == '_')))
      fun separators => ∀ c ∈ separators, c = '_' := by
    intro source value rest read
    cases read
    exact fun c member => beq_iff_eq.mp (List.mem_takeWhile_imp (p := (· == '_')) member)
  refine separators.bind fun separators separates => digits_yields.bind fun places digits => ?_
  simp only [Bool.or_eq_true, beq_iff_eq] at known
  exact .pure (.some known signed separates digits)

theorem numberChars_yields : Yields numberChars IsUnsigned := by
  refine digits_yields.bind fun whole digits => ?_
  refine fraction_yields.optional.bind fun places fraction => ?_
  refine exponent_yields.optional.bind fun power exponent => .pure ?_
  refine ⟨whole, places.getD [], power.getD [], rfl, digits, ?_, ?_⟩
  · cases places with
    | none => exact .none
    | some places => exact fraction places rfl
  · cases power with
    | none => exact .none
    | some power => exact exponent power rfl

theorem signedNumber_yields : Yields signedNumber fun literal =>
    ∃ text, literal = .num text ∧ IsSigned text.toList := by
  refine .andThen fun minus => numberChars_yields.bind fun chars shape => .pure ⟨_, rfl, ?_⟩
  rw [String.toList_ofList]
  cases minus with
  | none => exact .inl shape
  | some _ => exact .inr ⟨chars, rfl, shape⟩

theorem number_yields : Yields number fun literal =>
    ∃ text, literal = .num text ∧ IsUnsigned text.toList := by
  refine numberChars_yields.bind fun chars shape => .pure ⟨_, rfl, ?_⟩
  rw [String.toList_ofList]
  exact shape

end Lexeme

/-! ## What numbers denote -/

namespace Numeral

theorem not_isDigit_of_mark {mark : Char} (known : mark = 'e' ∨ mark = 'E') :
    mark.isDigit = false ∧ mark ≠ '.' ∧ mark ≠ '_' := by
  rcases known with rfl | rfl
  · decide
  · decide

section Unseparated

variable {chars : List Char}

/-- Digits stay when the separators go. -/
theorem IsDigits.unseparated (digits : IsDigits chars) :
    unseparated chars ≠ [] ∧ ∀ c ∈ unseparated chars, c.isDigit = true := by
  rcases digits with ⟨first, rest, rfl, digit, others⟩
  have kept : first ≠ '_' := by
    rintro rfl
    exact absurd digit (by decide)
  constructor
  · simp [Numeral.unseparated, kept]
  · intro c member
    rcases List.mem_filter.mp member with ⟨member, proper⟩
    rcases List.mem_cons.mp member with rfl | member
    · exact digit
    · have part := others c member
      simp only [Lexeme.isDigitPart, Bool.or_eq_true, beq_iff_eq] at part
      rcases part with digit | separator
      · exact digit
      · simp [separator] at proper

theorem unseparated_append (first second : List Char) :
    unseparated (first ++ second) = unseparated first ++ unseparated second :=
  List.filter_append ..

end Unseparated

end Numeral

namespace DecimalLiteral

open Numeral

/-- A sign is split off, and no digit is taken for one. -/
theorem splitSign_of_digits {sign digits : List Char} (known : sign = [] ∨ sign = ['-'])
    (digit : ∀ c ∈ digits.head?, c.isDigit = true) :
    splitSign (sign ++ digits) = (!sign.isEmpty, digits) := by
  rcases known with rfl | rfl
  · cases digits with
    | nil => rfl
    | cons c rest =>
        have digit := digit c rfl
        rw [List.nil_append, splitSign]
        · rfl
        · rintro rest same
          rw [(List.cons.inj same).1] at digit
          exact absurd digit (by decide)
        · rintro rest same
          rw [(List.cons.inj same).1] at digit
          exact absurd digit (by decide)
  · rfl

/-- An exponent that was read can be read again. -/
theorem exists_exponent {exponent : List Char} (shape : IsExponent exponent) :
    ∃ value, exponent? (unseparated exponent) = some value := by
  cases shape with
  | none => exact ⟨0, rfl⟩
  | @some mark direction separators digits known signed separates places =>
      rcases places.unseparated with ⟨nonempty, digit⟩
      have mark' := (not_isDigit_of_mark known).2.2
      have gone : unseparated separators = [] := by
        refine List.filter_eq_nil_iff.mpr fun c member => ?_
        simp [separates c member]
      have kept : unseparated (mark :: (direction ++ separators ++ digits)) =
          mark :: (direction ++ unseparated digits) := by
        have whole : unseparated (mark :: (direction ++ separators ++ digits)) =
            mark :: unseparated (direction ++ separators ++ digits) :=
          List.filter_cons_of_pos (by simpa using mark')
        have sign : unseparated direction = direction := by
          rcases signed with rfl | rfl | rfl
          all_goals rfl
        rw [whole, unseparated_append, unseparated_append, gone, sign, List.append_nil]
      have head : ∀ c ∈ (unseparated digits).head?, c.isDigit = true :=
        fun c first => digit c (List.mem_of_mem_head? first)
      have split : ∃ negative, splitSign (direction ++ unseparated digits) =
          (negative, unseparated digits) := by
        rcases signed with rfl | rfl | rfl
        · exact ⟨_, splitSign_of_digits (.inl rfl) head⟩
        · exact ⟨false, rfl⟩
        · exact ⟨_, splitSign_of_digits (.inr rfl) head⟩
      rcases split with ⟨negative, split⟩
      have all : (unseparated digits).all Char.isDigit = true := List.all_eq_true.mpr digit
      have any : (unseparated digits).isEmpty = false := by simpa using nonempty
      rw [kept]
      simp only [exponent?, if_pos known, split, all, any, Bool.not_true, Bool.or_false,
        Bool.false_eq_true, if_false]
      exact ⟨_, rfl⟩

/-- Digits end where the exponent begins. -/
theorem stops_of_exponent {exponent : List Char} (shape : IsExponent exponent) :
    (unseparated exponent).takeWhile Char.isDigit = [] ∧
      (unseparated exponent).dropWhile Char.isDigit = unseparated exponent ∧
      ∀ rest, unseparated exponent ≠ '.' :: rest := by
  cases shape with
  | none => exact ⟨rfl, rfl, nofun⟩
  | some known _ _ _ =>
      rcases not_isDigit_of_mark known with ⟨digit, point, separator⟩
      simp [unseparated, digit, point, separator]

/-- A number that was read can be read again. -/
theorem exists_number {whole fraction exponent : List Char} (digits : IsDigits whole)
    (places : IsFraction fraction) (power : IsExponent exponent) (negative : Bool) :
    ∃ literal, number? negative (unseparated (whole ++ fraction ++ exponent)) = some literal := by
  rcases digits.unseparated with ⟨nonempty, digit⟩
  rcases exists_exponent power with ⟨value, read⟩
  rcases stops_of_exponent power with ⟨taken, dropped, noPoint⟩
  have any : (unseparated whole).isEmpty = false := by simpa using nonempty
  rw [unseparated_append, unseparated_append, List.append_assoc]
  cases places with
  | none =>
      have rest : unseparated [] ++ unseparated exponent = unseparated exponent := rfl
      rw [rest]
      simp only [number?, List.takeWhile_append_of_pos digit, List.dropWhile_append_of_pos digit,
        taken, dropped, List.append_nil, any, Bool.false_and, Bool.false_eq_true, if_false]
      rw [read]
      exact ⟨_, rfl⟩
  | @some decimals decimalDigits =>
      rcases decimalDigits.unseparated with ⟨_, digit'⟩
      have rest : unseparated ('.' :: decimals) ++ unseparated exponent =
          '.' :: (unseparated decimals ++ unseparated exponent) := rfl
      have point : ('.').isDigit = false := by decide
      simp only [number?, rest, List.takeWhile_append_of_pos digit,
        List.dropWhile_append_of_pos digit, List.takeWhile_cons, List.dropWhile_cons, point,
        List.takeWhile_append_of_pos digit', List.dropWhile_append_of_pos digit', taken, dropped,
        Bool.false_eq_true, if_false, List.append_nil, any, Bool.false_and, read]
      exact ⟨_, rfl⟩

theorem toLower_of_isDigit {c : Char} (digit : c.isDigit = true) : c.toLower = c := by
  simp only [Char.isDigit, Bool.and_eq_true, decide_eq_true_eq, UInt32.le_iff_toNat_le] at digit
  refine dif_neg fun upper => ?_
  simp only [ge_iff_le, UInt32.le_iff_toNat_le] at upper
  have last : ('9').val.toNat = 57 := rfl
  have first : ('A').val.toNat = 65 := rfl
  omega

/-- No word stands for a number that begins with a digit. -/
theorem read?_of_digit {sign rest : List Char} {c : Char} (digit : c.isDigit = true)
    (known : sign = [] ∨ sign = ['-']) :
    read? (String.ofList (sign ++ c :: rest)) = number? (!sign.isEmpty) (c :: rest) := by
  have split : splitSign (sign ++ c :: rest) = (!sign.isEmpty, c :: rest) :=
    splitSign_of_digits known fun first same => Option.some.inj same ▸ digit
  have differs {first : Char} (letter : first.isDigit = false) (others : List Char) :
      (c :: rest).map Char.toLower ≠ first :: others := by
    rw [List.map_cons, toLower_of_isDigit digit]
    rintro same
    cases same
    rw [digit] at letter
    cases letter
  have inf : (c :: rest).map Char.toLower ≠ "inf".toList := differs (by decide) _
  have infinity : (c :: rest).map Char.toLower ≠ "infinity".toList := differs (by decide) _
  have nan : (c :: rest).map Char.toLower ≠ "nan".toList := differs (by decide) _
  simp only [read?, String.toList_ofList, split, inf, infinity, nan, or_self, if_false]

/-- A number that was read can be read again, also behind a minus sign. -/
theorem exists_read {digits sign : List Char} (shape : IsUnsigned digits)
    (known : sign = [] ∨ sign = ['-']) :
    ∃ literal, read? (String.ofList (sign ++ unseparated digits)) = some literal := by
  rcases shape with ⟨whole, fraction, exponent, rfl, places, decimals, power⟩
  rcases exists_number places decimals power (!sign.isEmpty) with ⟨literal, read⟩
  rcases places.unseparated with ⟨nonempty, digit⟩
  rcases List.exists_cons_of_ne_nil nonempty with ⟨c, rest, same⟩
  rw [unseparated_append, unseparated_append, same] at read ⊢
  refine ⟨literal, ?_⟩
  rw [List.append_assoc, List.cons_append] at read ⊢
  rw [read?_of_digit (digit c (same ▸ List.mem_cons_self ..)) known, read]

end DecimalLiteral

theorem exists_int64?_iff {number : Int} :
    (∃ value, int64? number = some value) ↔
      -9223372036854775808 ≤ number ∧ number ≤ 9223372036854775807 := by
  have low : Int64.minValue.toInt = -9223372036854775808 := rfl
  have high : Int64.maxValue.toInt = 9223372036854775807 := rfl
  simp only [int64?, low, high]
  split
  · rename_i within
    exact iff_of_true ⟨_, rfl⟩ within
  · rename_i outside
    exact iff_of_false nofun outside

namespace Literal

open Numeral

/-- The number has neither a point nor an exponent. -/
def IsInteger (text : String) : Prop :=
  isFloatText text.toList = false

theorem isFloatText_append (first second : List Char) :
    isFloatText (first ++ second) = (isFloatText first || isFloatText second) :=
  List.any_append

theorem isFloatText_unseparated (chars : List Char) :
    isFloatText (unseparated chars) = isFloatText chars := by
  induction chars with
  | nil => rfl
  | cons c rest inductionHypothesis =>
      simp only [isFloatText, unseparated] at inductionHypothesis ⊢
      by_cases separator : c = '_'
      · subst separator
        exact inductionHypothesis
      · rw [List.filter_cons_of_pos (by simpa using separator), List.any_cons, List.any_cons,
          inductionHypothesis]

/-- An integer is nothing but digits. -/
theorem isDigits_of_unsigned {chars : List Char} (shape : IsUnsigned chars)
    (integer : isFloatText chars = false) : IsDigits chars := by
  rcases shape with ⟨whole, fraction, exponent, rfl, digits, places, power⟩
  simp only [isFloatText_append, Bool.or_eq_false_iff] at integer
  cases places with
  | some _ => exact absurd integer.1.2 (by simp [isFloatText])
  | none =>
      cases power with
      | some known _ _ _ =>
          rcases known with rfl | rfl
          · exact absurd integer.2 (by simp [isFloatText])
          · exact absurd integer.2 (by simp [isFloatText])
      | none =>
          rw [List.append_nil, List.append_nil]
          exact digits

/-- Digits behind a minus sign denote a negative number, and others a positive
one. -/
theorem readInteger_of_digits {text : String} {sign digits : List Char}
    (known : sign = [] ∨ sign = ['-']) (nonempty : digits ≠ [])
    (digit : ∀ c ∈ digits, c.isDigit = true) :
    readInteger text (sign ++ digits) =
      match int64? (if sign = [] then (DecimalLiteral.digitsValue digits : Int)
        else -DecimalLiteral.digitsValue digits) with
      | some value => .ok (.int value)
      | none => .error (if sign = [] then .integerTooLarge text else .integerTooSmall text) := by
  have split := DecimalLiteral.splitSign_of_digits known
    fun c first => digit c (List.mem_of_mem_head? first)
  have all : digits.all Char.isDigit = true := List.all_eq_true.mpr digit
  have any : digits.isEmpty = false := by simpa using nonempty
  simp only [readInteger, split, all, any, Bool.not_true, Bool.or_false, Bool.false_eq_true,
    if_false]
  rcases known with rfl | rfl
  · rfl
  · rfl

theorem readNumber_of_integer {text : String} (integer : IsInteger text) :
    readNumber text = readInteger text (unseparated text.toList) := by
  refine if_neg ?_
  rw [← unseparated, isFloatText_unseparated, integer]
  exact Bool.false_ne_true

theorem readNumber_of_float {text : String} (float : ¬IsInteger text) {value : Float}
    (read : readFloat? (String.ofList (unseparated text.toList)) = some value) :
    readNumber text = .ok (.float value) := by
  have point : isFloatText (unseparated text.toList) = true := by
    rw [isFloatText_unseparated]
    exact eq_true_of_ne_false float
  refine (if_pos point).trans ?_
  rw [← unseparated, read]

/-- Integers that are in range denote a value, and so do all floats. -/
theorem exists_readNumber {text : String} {digits sign : List Char} (shape : IsUnsigned digits)
    (known : sign = [] ∨ sign = ['-']) (whole : text.toList = sign ++ digits) :
    (∃ value, readNumber text = .ok value) ↔ (IsInteger text ->
      ∃ value, int64? (if sign = [] then (DecimalLiteral.digitsValue (unseparated digits) : Int)
        else -DecimalLiteral.digitsValue (unseparated digits)) = some value) := by
  have kept : unseparated text.toList = sign ++ unseparated digits := by
    rw [whole, unseparated_append]
    rcases known with rfl | rfl
    all_goals rfl
  by_cases integer : IsInteger text
  · have point : isFloatText digits = false := by
      rw [IsInteger, whole, isFloatText_append, Bool.or_eq_false_iff] at integer
      exact integer.2
    rcases (isDigits_of_unsigned shape point).unseparated with ⟨nonempty, digit⟩
    rw [readNumber_of_integer integer, kept, readInteger_of_digits known nonempty digit]
    split
    · rename_i value found
      exact iff_of_true ⟨_, rfl⟩ fun _ => ⟨value, found⟩
    · rename_i missing
      refine iff_of_false nofun fun within => ?_
      rcases within integer with ⟨value, found⟩
      rw [missing] at found
      cases found
  · rcases DecimalLiteral.exists_read shape known with ⟨literal, read⟩
    have float : ∃ value, readFloat? (String.ofList (unseparated text.toList)) = some value := by
      rw [kept, readFloat?, read]
      exact ⟨_, rfl⟩
    rcases float with ⟨value, float⟩
    exact iff_of_true ⟨_, readNumber_of_float integer float⟩ fun impossible =>
      absurd impossible integer

/-! ## Literals -/

/-- The literal is one that an expression can hold: its number has no sign. -/
def IsUnsigned : Literal -> Prop
  | .num text => Numeral.IsUnsigned text.toList
  | _ => True

/-- The literal is one that a pattern can hold. -/
def IsSigned : Literal -> Prop
  | .num text => Numeral.IsSigned text.toList
  | _ => True

/-- The literal of an expression is in order: its integer fits into 64 bits
without any sign in front, and its string has no other backslashes than those
of whole escapes. -/
def InOrder : Literal -> Prop
  | .num text => IsInteger text -> Numeral.unsigned text ≤ 9223372036854775807
  | .str spelling => ∃ text, Spelling.Spelled spelling.toList text
  | _ => True

/-- The literal of a pattern is in order: its integer fits into 64 bits with
its sign. -/
def InOrderSigned : Literal -> Prop
  | .num text => IsInteger text ->
      -9223372036854775808 ≤ Numeral.signed text ∧ Numeral.signed text ≤ 9223372036854775807
  | .str spelling => ∃ text, Spelling.Spelled spelling.toList text
  | _ => True

/-- The literal denotes a value. -/
def Denotes (literal : Literal) : Prop :=
  ∃ value, literal.denote = .ok value

theorem denote_str {spelling : String} {text : List Char}
    (spelled : Spelling.Spelled spelling.toList text) :
    denote (.str spelling) = .ok (.str (String.ofList text)) := by
  have read : Spelling.read spelling = .ok (String.ofList text) := by
    rw [Spelling.read_eq_ok_iff, String.toList_ofList]
    exact spelled
  simp only [denote, read]

theorem denotes_str_iff {spelling : String} :
    Denotes (.str spelling) ↔ ∃ text, Spelling.Spelled spelling.toList text := by
  constructor
  · rintro ⟨value, denoted⟩
    cases read : Spelling.read spelling with
    | error fault => simp [denote, read] at denoted
    | ok text => exact ⟨text.toList, Spelling.read_eq_ok_iff.mp read⟩
  · rintro ⟨text, spelled⟩
    exact ⟨_, denote_str spelled⟩

theorem denotes_iff {literal : Literal} (shape : literal.IsUnsigned) :
    literal.Denotes ↔ literal.InOrder := by
  cases literal with
  | num text =>
      have range := exists_readNumber shape (.inl rfl) (List.nil_append _).symm
      rw [if_pos rfl, exists_int64?_iff] at range
      refine range.trans (imp_congr_right fun _ => ?_)
      simp only [Numeral.unsigned]
      omega
  | str spelling => exact denotes_str_iff
  | nil | bool | atom => exact iff_of_true ⟨_, rfl⟩ trivial

theorem signed_eq {text : String} (shape : Numeral.IsUnsigned text.toList) :
    Numeral.signed text = DecimalLiteral.digitsValue (unseparated text.toList) := by
  rcases shape with ⟨_, fraction, exponent, same, ⟨first, rest, rfl, digit, _⟩, _⟩
  rw [Numeral.signed, same]
  split
  · rename_i minus
    cases minus
    exact absurd digit (by decide)
  · rfl

theorem denotes_signed_iff {literal : Literal} (shape : literal.IsSigned) :
    literal.Denotes ↔ literal.InOrderSigned := by
  cases literal with
  | num text =>
      rcases shape with shape | ⟨digits, whole, shape⟩
      · have range := exists_readNumber shape (.inl rfl) (List.nil_append _).symm
        rw [if_pos rfl, exists_int64?_iff, ← signed_eq shape] at range
        exact range
      · have range := exists_readNumber shape (.inr rfl) whole
        rw [if_neg (List.cons_ne_nil _ _), exists_int64?_iff] at range
        have value : Numeral.signed text = -DecimalLiteral.digitsValue (unseparated digits) := by
          simp only [Numeral.signed, whole]
        rw [← value] at range
        exact range
  | str spelling => exact denotes_str_iff
  | nil | bool | atom => exact iff_of_true ⟨_, rfl⟩ trivial

end Literal
end HtmlTemplate
