import HtmlTemplate.Proofs.Literals.Strings
import HtmlTemplate.Proofs.Syntax.Written
import HtmlTemplate.Text.Quoted

namespace HtmlTemplate

/-!
# Quotations are string literals

Whatever a text holds, its quotation is one string literal, and the literal
denotes the text.  Three kinds of characters have to be told apart: those that
stand for themselves, those with an escape of their own, and those that are
written as the digits of their code point.  None of them leaves a quote or a
backslash that could end the literal or begin another escape.
-/

/-! ## Hexadecimal digits -/

namespace Spelling

theorem hexValue?_digitChar : ∀ digit < 16, hexValue? digit.digitChar = some digit := by
  decide

theorem hexFrom?_append (number : Nat) (first second : List Char) :
    hexFrom? number (first ++ second) =
      (hexFrom? number first).bind fun whole => hexFrom? whole second := by
  induction first generalizing number with
  | nil => rfl
  | cons c first inductionHypothesis =>
      rw [List.cons_append, hexFrom?, hexFrom?]
      cases hexValue? c with
      | none => rfl
      | some digit => exact inductionHypothesis (number * 16 + digit)

/-- The digits of a number denote it. -/
theorem hexFrom?_toDigits (number : Nat) : hexFrom? 0 (Nat.toDigits 16 number) = some number := by
  induction number using Nat.strongRecOn with
  | ind number inductionHypothesis =>
      by_cases small : number < 16
      · rw [Nat.toDigits_of_lt_base small]
        simp only [hexFrom?, hexValue?_digitChar number small, Nat.zero_mul, Nat.zero_add]
      · have least : 16 ≤ number := Nat.le_of_not_lt small
        have front := inductionHypothesis (number / 16) (by omega)
        have last := hexValue?_digitChar (number % 16) (Nat.mod_lt _ (by decide))
        rw [Nat.toDigits_of_base_le (by decide) least, hexFrom?_append, front]
        simp only [Option.bind_some, hexFrom?, last, Option.some.injEq]
        exact Nat.div_add_mod' number 16

end Spelling

namespace Quoted

/-! ## One character -/

/-- Three kinds of characters. -/
theorem quoteChar_cases (c : Char) :
    (c ≠ '\\' ∧ c ≠ '"' ∧ quoteChar c = [c]) ∨
      (∃ mark, (mark, c) ∈ Spelling.simpleEscapes ∧ quoteChar c = ['\\', mark]) ∨
      quoteChar c = '\\' :: 'u' :: '{' :: (hexDigits c.toNat ++ ['}']) := by
  unfold quoteChar
  split
  · exact .inr (.inl ⟨'"', by decide, rfl⟩)
  · exact .inr (.inl ⟨'\\', by decide, rfl⟩)
  · exact .inr (.inl ⟨'n', by decide, rfl⟩)
  · exact .inr (.inl ⟨'r', by decide, rfl⟩)
  · exact .inr (.inl ⟨'t', by decide, rfl⟩)
  · exact .inr (.inl ⟨'0', by decide, rfl⟩)
  · rename_i quote escape _ _ _ _
    split
    · exact .inl ⟨escape, quote, rfl⟩
    · exact .inr (.inr rfl)

theorem hexFrom?_hexDigits (code : Nat) : Spelling.hexFrom? 0 (hexDigits code) = some code :=
  Spelling.hexFrom?_toDigits code

theorem length_hexDigits (c : Char) : (hexDigits c.toNat).length ≤ 6 := by
  have small : c.toNat < 16 ^ 6 := by
    rcases c.valid with low | ⟨_, high⟩
    · exact Nat.lt_trans low (by decide)
    · exact Nat.lt_trans high (by decide)
  exact (Nat.length_toDigits_le_iff (by decide) (by decide)).mpr small

theorem spelledChar_quoteChar (c : Char) : Spelling.SpelledChar (quoteChar c) c := by
  rcases quoteChar_cases c with ⟨escape, quote, same⟩ | ⟨mark, known, same⟩ | same
  · rw [same]
    exact .itself quote escape
  · rw [same]
    exact .simple known
  · have spelled := Spelling.SpelledChar.codePoint Nat.toDigits_ne_nil (length_hexDigits c)
      (hexFrom?_hexDigits c.toNat) c.valid
    rw [Char.ofNat_toNat] at spelled
    rw [same]
    exact spelled

/-- What stands between the quotes denotes the text. -/
theorem denotes_flatMap (text : List Char) : Spelling.Denotes (text.flatMap quoteChar) text := by
  induction text with
  | nil => exact ⟨[], rfl, .nil⟩
  | cons c text inductionHypothesis =>
      rw [List.flatMap_cons]
      exact .cons (spelledChar_quoteChar c) inductionHypothesis

/-! ## The literal -/

/-- The string literal that a text is quoted as. -/
def literal (text : String) : Literal :=
  .str (String.ofList (text.toList.flatMap quoteChar))

theorem write_literal (text : String) : (literal text).write = quoteChars text.toList := by
  rw [literal, Literal.write, String.toList_ofList]
  rfl

theorem whole_literal (text : String) : (literal text).Whole := by
  have enclosed := (Spelling.denotes_iff.mp (denotes_flatMap text.toList)).1
  have read : Lexeme.string (literal text).write = .ok (literal text) [] := by
    rw [write_literal]
    exact Lexeme.string_eq_ok_iff.mpr ⟨_, enclosed, rfl, rfl⟩
  exact read

/-- A quotation denotes the text that was quoted. -/
theorem spelled_literal (text : String) :
    Spelling.Spelled (String.ofList (text.toList.flatMap quoteChar)).toList text.toList := by
  rw [String.toList_ofList]
  exact (Spelling.denotes_iff.mp (denotes_flatMap text.toList)).2

end Quoted
end HtmlTemplate
