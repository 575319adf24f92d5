import HtmlTemplate.Proofs.Literals.Spelling
import HtmlTemplate.Text.Script
import Mathlib.Algebra.Ring.Parity
import Mathlib.Data.List.DropRight

namespace HtmlTemplate
namespace Script

/-!
# Reading a script's string literal back

The inside of a string literal is read from left to right, one character or one
escape at a time.  An escaped text is read back as the text itself, up to the
spelling of its line ends, and none of the three quotes, no line end and no end
of a script element can be found in it.

A backslash of the text is doubled and every other one is followed by its own
character, so an escape never begins in the middle of another one.  This is what
keeps the pieces apart, whatever they stand next to.
-/

/-- What the inside of a string literal denotes, unless an escape is incomplete
or numbers no character. -/
def literalText? : List Char -> Option (List Char)
  | [] => some []
  | '\\' :: 'n' :: rest => (literalText? rest).map ('\n' :: ·)
  | '\\' :: 'u' :: first :: second :: third :: fourth :: rest => do
      let number ← Spelling.hexFrom? 0 [first, second, third, fourth]
      let text ← literalText? rest
      if number.isValidChar then some (Char.ofNat number :: text) else none
  | '\\' :: 'u' :: _ => none
  | '\\' :: c :: rest => (literalText? rest).map (c :: ·)
  | ['\\'] => none
  | c :: rest => (literalText? rest).map (c :: ·)

/-- A text with every line end as one line feed. -/
def lineFeeds : List Char -> List Char
  | [] => []
  | '\r' :: '\n' :: rest => '\n' :: lineFeeds rest
  | '\r' :: rest => '\n' :: lineFeeds rest
  | c :: rest => c :: lineFeeds rest

/-- The characters that cannot stand in a string literal as they are. -/
def lineBreakers : List Char := ['\n', '\r', '\x00', '\u2028', '\u2029']

/-- The quotes that a string literal can stand between. -/
def quotes : List Char := ['"', '\'', '\x60']

/-! ## Pieces -/

/-- What one character is written as: itself, a line end, an escape of its own or
a number. -/
inductive Piece (c : Char) : List Char -> Prop
  | itself (unescaped : c ≠ '\\') (unquoted : c ∉ quotes) (unbroken : c ∉ lineBreakers) :
      Piece c [c]
  | lineEnd (ends : c = '\r' ∨ c = '\n') : Piece c ['\\', 'n']
  | kept (marked : c ∈ '\\' :: quotes) : Piece c ['\\', c]
  | numbered {first second third fourth : Char} (noReturn : c ≠ '\r')
      (decimal : [first, second, third, fourth].all Char.isDigit)
      (known : Spelling.hexFrom? 0 [first, second, third, fourth] = some c.toNat) :
      Piece c ['\\', 'u', first, second, third, fourth]

theorem piece_escapeChar (c : Char) : Piece c (escapeChar c) := by
  unfold escapeChar
  split
  case h_1 => exact .lineEnd (.inl rfl)
  case h_2 => exact .lineEnd (.inr rfl)
  case h_7 => exact .numbered (by decide) (by decide) (by decide)
  case h_8 => exact .numbered (by decide) (by decide) (by decide)
  case h_9 => exact .numbered (by decide) (by decide) (by decide)
  case h_10 noReturn noFeed unescaped noQuote noApostrophe noBacktick noLine noParagraph noNull =>
    refine .itself unescaped ?_ ?_
    · simp only [quotes, List.mem_cons, List.not_mem_nil, or_false, not_or]
      exact ⟨noQuote, noApostrophe, noBacktick⟩
    · simp only [lineBreakers, List.mem_cons, List.not_mem_nil, or_false, not_or]
      exact ⟨noFeed, noReturn, noNull, noLine, noParagraph⟩
  all_goals exact .kept (by decide)

/-! ## Reading back -/

theorem literalText?_cons {c : Char} (plain : c ≠ '\\') (rest : List Char) :
    literalText? (c :: rest) = (literalText? rest).map (c :: ·) := by
  rw [literalText?] <;> simp [plain]

theorem literalText?_escaped {c : Char} (other : c ≠ 'n') (other' : c ≠ 'u') (rest : List Char) :
    literalText? ('\\' :: c :: rest) = (literalText? rest).map (c :: ·) := by
  rw [literalText?] <;> simp [other, other']

theorem literalText?_numbered {c first second third fourth : Char}
    (known : Spelling.hexFrom? 0 [first, second, third, fourth] = some c.toNat)
    (rest : List Char) :
    literalText? ('\\' :: 'u' :: first :: second :: third :: fourth :: rest) =
      (literalText? rest).map (c :: ·) := by
  have valid : c.toNat.isValidChar := c.valid
  rw [literalText?, known]
  simp only [Option.bind_eq_bind, Option.bind_some, if_pos valid, Char.ofNat_toNat]
  cases literalText? rest <;> rfl

/-- One piece is read back as one character. -/
theorem Piece.literalText?_append {c : Char} {written : List Char} (piece : Piece c written)
    (rest : List Char) :
    literalText? (written ++ rest) =
      (literalText? rest).map ((if c = '\r' then '\n' else c) :: ·) := by
  cases piece with
  | itself unescaped unquoted unbroken =>
      have noReturn : c ≠ '\r' := fun same => unbroken (same ▸ by decide)
      rw [if_neg noReturn]
      exact literalText?_cons unescaped rest
  | lineEnd ends => rcases ends with rfl | rfl <;> rfl
  | kept marked =>
      have facts : c ≠ '\r' ∧ c ≠ 'n' ∧ c ≠ 'u' := by
        simp only [quotes, List.mem_cons, List.not_mem_nil, or_false] at marked
        rcases marked with rfl | rfl | rfl | rfl <;> decide
      rw [if_neg facts.1]
      exact literalText?_escaped facts.2.1 facts.2.2 rest
  | numbered noReturn decimal known =>
      rw [if_neg noReturn]
      exact literalText?_numbered known rest

/-- Line ends are taken one at a time, but for a carriage return in front of its
line feed. -/
theorem lineFeeds_cons {c : Char} {rest : List Char}
    (single : ∀ others, c = '\r' -> rest = '\n' :: others -> False) :
    lineFeeds (c :: rest) = (if c = '\r' then '\n' else c) :: lineFeeds rest := by
  by_cases lineEnd : c = '\r'
  · subst lineEnd
    rw [lineFeeds, if_pos rfl]
    exact fun others => single others rfl
  · rw [lineFeeds, if_neg lineEnd]
    · exact single
    · exact lineEnd

theorem literalText?_escapeChars (text : List Char) :
    literalText? (escapeChars text) = some (lineFeeds text) := by
  fun_induction escapeChars text with
  | case1 => rfl
  | case2 rest inductionHypothesis =>
      rw [literalText?, inductionHypothesis, lineFeeds]
      rfl
  | case3 rest inductionHypothesis =>
      rw [literalText?_cons (by decide), literalText?_escaped (by decide) (by decide),
        inductionHypothesis, lineFeeds_cons (by simp), lineFeeds_cons (by simp)]
      rfl
  | case4 c rest single _ inductionHypothesis =>
      rw [(piece_escapeChar c).literalText?_append, inductionHypothesis, lineFeeds_cons single]
      rfl

/-! ## What an escaped text does not have -/

/-- The number of backslashes right at the end of a text. -/
def backslashes (text : List Char) : Nat :=
  (text.rtakeWhile (· == '\\')).length

/-- What is put in front counts only if there is nothing but backslashes behind
it. -/
theorem backslashes_append (front text : List Char) :
    backslashes (front ++ text) =
      if backslashes text = text.length then backslashes front + text.length
      else backslashes text := by
  simp only [backslashes, List.rtakeWhile, List.reverse_append, List.length_reverse,
    List.takeWhile_append]
  split
  · rw [List.length_append, List.length_reverse, Nat.add_comm]
  · rfl

theorem backslashes_cons {c : Char} (other : c ≠ '\\') (text : List Char) :
    backslashes (c :: text) = backslashes text := by
  have none : backslashes [c] = 0 := by simp [backslashes, List.rtakeWhile, other]
  have grown := backslashes_append [c] text
  rw [none, Nat.zero_add] at grown
  rw [← List.singleton_append, grown]
  split
  · exact Eq.symm ‹_›
  · rfl

/-- A backslash and the character behind it do not change whether the number is
odd. -/
theorem odd_backslashes_pair (c : Char) (text : List Char) :
    Odd (backslashes ('\\' :: c :: text)) ↔ Odd (backslashes text) := by
  have even : Even (backslashes ['\\', c]) := by
    by_cases doubled : c = '\\'
    · subst doubled
      decide
    · simp [backslashes, List.rtakeWhile, doubled]
  have grown := backslashes_append ['\\', c] text
  rw [List.cons_append, List.singleton_append] at grown
  rw [grown]
  split
  · rename_i whole
    rw [whole, Nat.odd_add', iff_true_right even]
  · rfl

/-- A text that can be read one character or one escape at a time.  The
characters are neither quotes nor line ends, and a slash behind an angle bracket
is escaped. -/
inductive Contained : List Char -> Prop
  | nil : Contained []
  | plain {c : Char} {rest : List Char} (unescaped : c ≠ '\\') (unquoted : c ∉ quotes)
      (unbroken : c ∉ lineBreakers) (apart : c = '<' -> rest.head? ≠ some '/')
      (others : Contained rest) : Contained (c :: rest)
  | escaped {c : Char} {rest : List Char} (unbroken : c ∉ lineBreakers) (apart : c ≠ '<')
      (others : Contained rest) : Contained ('\\' :: c :: rest)

namespace Contained

/-- Digits can be read one at a time. -/
theorem digits {front rest : List Char} (digit : front.all Char.isDigit) (others : Contained rest) :
    Contained (front ++ rest) := by
  have different : ('\\' :: '<' :: (quotes ++ lineBreakers)).all (!·.isDigit) := by
    decide
  induction front with
  | nil => exact others
  | cons c front inductionHypothesis =>
      rw [List.all_cons, Bool.and_eq_true] at digit
      have own : c ∉ '\\' :: '<' :: (quotes ++ lineBreakers) := by
        intro member
        have clash := List.all_eq_true.mp different c member
        rw [digit.1] at clash
        cases clash
      simp only [List.mem_cons, List.mem_append, not_or] at own
      refine .plain own.1 own.2.2.1 own.2.2.2 (fun same => absurd same own.2.1) ?_
      exact inductionHypothesis digit.2

/-- Each piece can be read on its own, whatever follows it. -/
theorem piece {c : Char} {written rest : List Char} (piece : Piece c written)
    (apart : c = '<' -> rest.head? ≠ some '/') (others : Contained rest) :
    Contained (written ++ rest) := by
  cases piece with
  | itself unescaped unquoted unbroken => exact .plain unescaped unquoted unbroken apart others
  | lineEnd ends => exact .escaped (by decide) (by decide) others
  | kept marked =>
      simp only [quotes, List.mem_cons, List.not_mem_nil, or_false] at marked
      rcases marked with rfl | rfl | rfl | rfl
      all_goals exact .escaped (by decide) (by decide) others
  | numbered noReturn decimal known =>
      exact .escaped (by decide) (by decide) (digits decimal others)

theorem unbroken {text : List Char} (contained : Contained text) :
    ∀ c ∈ text, c ∉ lineBreakers := by
  induction contained with
  | nil => exact fun _ member => absurd member List.not_mem_nil
  | plain _ _ unbroken _ _ inductionHypothesis =>
      exact List.forall_mem_cons.mpr ⟨unbroken, inductionHypothesis⟩
  | escaped unbroken _ _ inductionHypothesis =>
      exact List.forall_mem_cons.mpr
        ⟨by decide, List.forall_mem_cons.mpr ⟨unbroken, inductionHypothesis⟩⟩

theorem ne_closing {text : List Char} (contained : Contained text) (before behind : List Char) :
    text ≠ before ++ '<' :: '/' :: behind := by
  induction contained generalizing before with
  | nil => simp
  | plain _ _ _ apart _ inductionHypothesis =>
      cases before with
      | nil =>
          rintro ⟨⟩
          exact apart rfl rfl
      | cons _ before =>
          rintro ⟨⟩
          exact inductionHypothesis before rfl
  | escaped _ apart _ inductionHypothesis =>
      match before with
      | [] => nofun
      | [_] =>
          rintro ⟨⟩
          exact apart rfl
      | _ :: _ :: before =>
          rintro ⟨⟩
          exact inductionHypothesis before rfl

/-- A quote is the character of an escape, and the backslashes in front of the
escape come in pairs. -/
theorem odd_backslashes {text : List Char} (contained : Contained text) {before behind : List Char}
    {mark : Char} (whole : text = before ++ mark :: behind) (quote : mark ∈ quotes) :
    Odd (backslashes before) := by
  induction contained generalizing before with
  | nil => simp at whole
  | plain unescaped unquoted _ _ _ inductionHypothesis =>
      cases before with
      | nil =>
          cases whole
          exact absurd quote unquoted
      | cons _ before =>
          cases whole
          rw [backslashes_cons unescaped]
          exact inductionHypothesis rfl
  | escaped _ _ _ inductionHypothesis =>
      match before with
      | [] =>
          cases whole
          exact absurd quote (by decide)
      | [_] =>
          cases whole
          decide
      | _ :: _ :: before =>
          cases whole
          exact (odd_backslashes_pair ..).mpr (inductionHypothesis rfl)

end Contained

theorem Piece.eq_of_head {c : Char} {written rest : List Char} (piece : Piece c written)
    (slash : (written ++ rest).head? = some '/') : c = '/' := by
  cases piece with
  | itself _ _ _ => exact Option.some.inj slash
  | _ => exact absurd (Option.some.inj slash) (by decide)

/-- A slash begins an escaped text only if it begins the text. -/
theorem head_escapeChars (text : List Char) :
    (escapeChars text).head? = some '/' -> text.head? = some '/' := by
  fun_cases escapeChars text with
  | case1 => exact id
  | case2 rest => exact fun slash => absurd (Option.some.inj slash) (by decide)
  | case3 rest => exact fun slash => absurd (Option.some.inj slash) (by decide)
  | case4 c rest _ _ => exact fun slash => congrArg some ((piece_escapeChar c).eq_of_head slash)

theorem contained_escapeChars (text : List Char) : Contained (escapeChars text) := by
  fun_induction escapeChars text with
  | case1 => exact .nil
  | case2 rest inductionHypothesis => exact .escaped (by decide) (by decide) inductionHypothesis
  | case3 rest inductionHypothesis =>
      refine .plain (by decide) (by decide) (by decide) (fun _ => ?_) ?_
      · rw [List.head?_cons]
        decide
      · exact .escaped (by decide) (by decide) inductionHypothesis
  | case4 c rest _ single inductionHypothesis =>
      refine .piece (piece_escapeChar c) (fun bracket slash => ?_) inductionHypothesis
      rcases List.head?_eq_some_iff.mp (head_escapeChars _ slash) with ⟨others, whole⟩
      exact single others bracket whole

/-- An escaped text is read back from a string literal as the text itself, up to
the spelling of its line ends.  It has no line end and no end of a script element
in it, and every quote stands behind an odd number of backslashes, whichever of
them the literal stands between. -/
theorem escape_readable (text : String) :
    literalText? (escape text).toList = some (lineFeeds text.toList) ∧
      (∀ c ∈ (escape text).toList, c ∉ lineBreakers) ∧
      ¬['<', '/'] <:+: (escape text).toList ∧
      ∀ before mark behind, (escape text).toList = before ++ mark :: behind -> mark ∈ quotes ->
        Odd (backslashes before) := by
  have contained := contained_escapeChars text.toList
  rw [escape, String.toList_ofList]
  refine ⟨literalText?_escapeChars _, contained.unbroken, ?_, ?_⟩
  · rintro ⟨before, behind, whole⟩
    exact contained.ne_closing before behind (by simpa using whole.symm)
  · exact fun before mark behind whole quote => contained.odd_backslashes whole quote

/-- A line end, a backslash and a quote behind it. -/
theorem escape_readable_quote :
    let text := "a\r\n\\\""
    (escape text).toList = "a\\n\\\\\\".toList ++ '"' :: [] ∧
      literalText? (escape text).toList = some "a\n\\\"".toList ∧
      'n' ∈ (escape text).toList ∧ 'n' ∉ lineBreakers ∧
      '"' ∈ quotes ∧ Odd (backslashes "a\\n\\\\\\".toList) := by
  intro text
  have escaped : (escape text).toList = "a\\n\\\\\\".toList ++ '"' :: [] := by decide
  have member : 'n' ∈ (escape text).toList := by
    rw [escaped]
    decide
  rcases escape_readable text with ⟨denoted, unbroken, _, guarded⟩
  refine ⟨escaped, denoted.trans (by decide), member, unbroken 'n' member, by decide, ?_⟩
  exact guarded _ '"' [] escaped (by decide)

end Script
end HtmlTemplate
