import HtmlTemplate.Proofs.Display.Reading
import HtmlTemplate.Proofs.Escaping.Neutral
import HtmlTemplate.Proofs.Literals.Numerals

namespace HtmlTemplate

/-!
# Integers are numerals

An integer is displayed in decimal digits, with a minus sign if it is negative.
The digits alone are a number of the template language, and it denotes the
magnitude as long as that fits into 64 bits.  This is why the smallest integer
is left out: its magnitude does not fit, although the integer itself does.
-/

open Reader

/-! ## Digits -/

namespace Lexeme

variable {digits sign : List Char}

theorem numberChars_of_digits (nonempty : digits ≠ []) (digit : ∀ c ∈ digits, c.isDigit = true) :
    numberChars digits = .ok digits [] := by
  rcases List.exists_cons_of_ne_nil nonempty with ⟨first, rest, rfl⟩
  rcases List.forall_mem_cons.mp digit with ⟨head, others⟩
  have part : ∀ c ∈ rest, isDigitPart c = true := by
    intro c member
    rw [isDigitPart, others c member, Bool.true_or]
  have opened : satisfy Char.isDigit (first :: rest) = .ok first rest := if_pos head
  have whole : Lexeme.digits (first :: rest) = .ok (first :: rest) [] := by
    refine (bind_of_ok opened).trans ?_
    rw [List.takeWhile_eq_self_iff.mpr part, List.dropWhile_eq_nil_iff.mpr part]
  refine (bind_of_ok whole).trans ((bind_of_ok rfl).trans ((bind_of_ok rfl).trans ?_))
  simp only [Option.getD_none, List.append_nil]
  rfl

theorem signedNumber_of_digits (known : sign = [] ∨ sign = ['-']) (nonempty : digits ≠ [])
    (digit : ∀ c ∈ digits, c.isDigit = true) :
    signedNumber (sign ++ digits) = .ok (.num (String.ofList (sign ++ digits))) [] := by
  have read := numberChars_of_digits nonempty digit
  rcases known with rfl | rfl
  · rcases List.exists_cons_of_ne_nil nonempty with ⟨first, rest, rfl⟩
    have unsigned : first ≠ '-' := by
      rintro rfl
      exact absurd (digit '-' (List.mem_cons_self ..)) (by decide)
    have noMinus : char '-' (first :: rest) = .miss (first :: rest) := if_neg unsigned
    exact (bind_of_ok (optional_of_miss noMinus)).trans (bind_of_ok read)
  · have minus : optional (char '-') ('-' :: digits) = .ok (some ()) digits := rfl
    exact (bind_of_ok minus).trans (bind_of_ok read)

end Lexeme

/-! ## Values -/

namespace Literal

open Numeral

theorem int64?_of_range {number : Int} (low : -9223372036854775808 ≤ number)
    (high : number ≤ 9223372036854775807) : int64? number = some (Int64.ofInt number) :=
  if_pos ⟨low, high⟩

theorem digitsValue_toDigits (magnitude : Nat) :
    DecimalLiteral.digitsValue (Nat.toDigits 10 magnitude) = magnitude := by
  have value : Nat.ofDigitChars 10 (Nat.toDigits 10 magnitude) 0 = magnitude :=
    Nat.ofDigitChars_ten_toDigits
  rwa [Nat.ofDigitChars_eq_foldl] at value

theorem isDigit_of_mem (magnitude : Nat) :
    ∀ c ∈ Nat.toDigits 10 magnitude, c.isDigit = true :=
  fun _ member => Nat.isDigit_of_mem_toDigits (by decide) (by decide) member

/-- Digits are neither separators nor parts of a float. -/
theorem facts_of_digits {digits : List Char} (digit : ∀ c ∈ digits, c.isDigit = true) :
    unseparated digits = digits ∧ isFloatText digits = false := by
  have other {mark : Char} (marks : mark.isDigit = false) : ∀ c ∈ digits, c ≠ mark := by
    rintro c member rfl
    rw [digit c member] at marks
    cases marks
  constructor
  · rw [unseparated, List.filter_eq_self]
    exact fun c member => bne_iff_ne.mpr (other (by decide) c member)
  · rw [isFloatText, List.any_eq_false]
    intro c member
    simp only [Bool.or_eq_true, beq_iff_eq, not_or]
    exact ⟨⟨other (by decide) c member, other (by decide) c member⟩, other (by decide) c member⟩

/-- Digits denote their number, as long as it fits into 64 bits. -/
theorem denote_toDigits {magnitude : Nat} (small : magnitude ≤ 9223372036854775807) :
    denote (.num (String.ofList (Nat.toDigits 10 magnitude))) =
      .ok (.int (Int64.ofInt magnitude)) := by
  have digit := isDigit_of_mem magnitude
  rcases facts_of_digits digit with ⟨kept, integral⟩
  have integer : IsInteger (String.ofList (Nat.toDigits 10 magnitude)) := by
    rw [IsInteger, String.toList_ofList]
    exact integral
  have range : int64? (magnitude : Int) = some (Int64.ofInt magnitude) :=
    int64?_of_range (by omega) (by omega)
  calc denote (.num (String.ofList (Nat.toDigits 10 magnitude)))
    _ = readNumber (String.ofList (Nat.toDigits 10 magnitude)) := rfl
    _ = readInteger (String.ofList (Nat.toDigits 10 magnitude))
          ([] ++ Nat.toDigits 10 magnitude) := by
        rw [readNumber_of_integer integer, String.toList_ofList, kept, List.nil_append]
    _ = .ok (.int (Int64.ofInt magnitude)) := by
        rw [readInteger_of_digits (.inl rfl) Nat.toDigits_ne_nil digit, if_pos rfl,
          digitsValue_toDigits, range]

end Literal

/-! ## Displayed integers -/

namespace Value

/-- An integer is displayed as its magnitude with or without a sign, and all
magnitudes but that of the smallest integer fit into 64 bits. -/
theorem exists_magnitude {value : Int64} (above : value ≠ Int64.minValue) :
    ∃ magnitude : Nat, magnitude ≤ 9223372036854775807 ∧
      ((value.toInt = magnitude ∧
          (toString value.toInt).toList = Nat.toDigits 10 magnitude) ∨
        (value.toInt = -magnitude ∧
          (toString value.toInt).toList = '-' :: Nat.toDigits 10 magnitude)) := by
  have low := value.le_toInt
  have high := value.toInt_lt
  have other : value.toInt ≠ -9223372036854775808 := fun same =>
    above (Int64.toInt_inj.mp same)
  cases number : value.toInt with
  | ofNat magnitude =>
      rw [number, Int.ofNat_eq_natCast] at high
      refine ⟨magnitude, ?_, .inl ⟨rfl, Numeral.toList_ofNat magnitude⟩⟩
      omega
  | negSucc magnitude =>
      refine ⟨magnitude + 1, ?_, .inr ⟨?_, Numeral.toList_negSucc magnitude⟩⟩
      · omega
      · omega

theorem wholeInPattern_int {value : Int64} (above : value ≠ Int64.minValue) :
    (Literal.num (toString value.toInt)).WholeInPattern := by
  rcases exists_magnitude above with ⟨magnitude, _, ⟨_, shape⟩ | ⟨_, shape⟩⟩
  · have read := Lexeme.signedNumber_of_digits (.inl rfl) Nat.toDigits_ne_nil
      (Literal.isDigit_of_mem magnitude)
    rw [List.nil_append, ← shape, String.ofList_toList] at read
    exact read
  · have read := Lexeme.signedNumber_of_digits (.inr rfl) Nat.toDigits_ne_nil
      (Literal.isDigit_of_mem magnitude)
    rw [List.singleton_append, ← shape, String.ofList_toList] at read
    exact read

end Value
end HtmlTemplate
