import HtmlTemplate.Proofs.Syntax.Reading
import HtmlTemplate.Proofs.Syntax.Written

namespace HtmlTemplate
namespace Lexeme

/-!
# Names and literals in front of a text

A name or a literal is read from its own text.  Here it is shown that the same
is read if the expression goes on, as long as the text after it begins with a
character that cannot belong to the lexeme.  The point needs most care, since a
number could go on with it: a point in front of a name begins a suffix.
-/

open Reader

/-- Characters that may stand after any lexeme and belong to none. -/
def marks : List Char := '[' :: ' ' :: Expr.closingSigns

/-- Characters that may stand after a name and belong to none. -/
def stops : List Char := '.' :: '(' :: marks

/-- The text after a lexeme: a space, a separator, a closing bracket, or a
suffix. -/
inductive Junction : List Char -> Prop where
  | mark {c : Char} (tail : List Char) (found : c ∈ marks) :
      Junction (c :: tail)
  | attr {c : Char} (tail : List Char) (starts : isNameStart c = true) :
      Junction ('.' :: c :: tail)

theorem Junction.closingSign {c : Char} (mark : c ∈ Expr.closingSigns) (tail : List Char) :
    Junction (c :: tail) :=
  .mark tail (List.mem_cons_of_mem _ (List.mem_cons_of_mem _ mark))

theorem Junction.stops {rest : List Char} (junction : Junction rest) :
    ∃ c tail, rest = c :: tail ∧ c ∈ Lexeme.stops := by
  cases junction with
  | mark tail found =>
      exact ⟨_, tail, rfl, List.mem_cons_of_mem _ (List.mem_cons_of_mem _ found)⟩
  | attr tail starts => exact ⟨_, _, rfl, by decide⟩

theorem ne_point_of_mem : ∀ c ∈ marks, c ≠ '.' :=
  List.all_iff_forall_prop.mp (by decide)

theorem stop_facts : ∀ c ∈ stops, isNamePart c = false ∧ isNameStart c = false ∧ c ≠ '?' ∧
    c ≠ '=' ∧ c ≠ ':' ∧ c.isDigit = false :=
  List.all_iff_forall_prop.mp (by decide)

/-! ## Names -/

theorem takeQuestionMark_of_ne {c : Char} (mark : c ≠ '?') (tail : List Char) :
    takeQuestionMark (c :: tail) = ([], c :: tail) := by
  unfold takeQuestionMark
  split
  · rename_i same
    cases same
    exact absurd rfl mark
  · rename_i same
    cases same
    exact absurd rfl mark
  · rfl

theorem takeQuestionMark_mark_of_ne {c : Char} (sign : c ≠ '=') (tail : List Char) :
    takeQuestionMark ('?' :: c :: tail) = (['?'], c :: tail) := by
  unfold takeQuestionMark
  split
  · rename_i same
    cases same
    exact absurd rfl sign
  · rename_i same
    cases same
    rfl
  · rename_i _ impossible
    exact absurd rfl (impossible _)

theorem takeQuestionMark_append {c : Char} (mark : c ≠ '?') (sign : c ≠ '=')
    (text tail : List Char) :
    takeQuestionMark (text ++ c :: tail) =
      ((takeQuestionMark text).1, (takeQuestionMark text).2 ++ c :: tail) := by
  cases text with
  | nil => exact takeQuestionMark_of_ne mark tail
  | cons first rest =>
      by_cases marked : first = '?'
      · subst marked
        cases rest with
        | nil => exact takeQuestionMark_mark_of_ne sign tail
        | cons second rest =>
            by_cases equals : second = '='
            · subst equals
              rfl
            · simp only [List.cons_append, takeQuestionMark_mark_of_ne equals]
      · simp only [List.cons_append, takeQuestionMark_of_ne marked]

theorem local_identifier {c : Char} (tail : List Char) (stop : c ∈ stops) :
    Local (c :: tail) identifier := by
  have facts := stop_facts c stop
  intro source
  cases source with
  | nil =>
      refine ⟨c :: tail, ?_⟩
      simp [identifier, facts.2.1]
  | cons first rest =>
      by_cases starts : isNameStart first = true
      · simp only [identifier, List.cons_append, if_pos starts, takeWhile_append_cons facts.1,
          dropWhile_append_cons facts.1, takeQuestionMark_append facts.2.2.1 facts.2.2.2.1]
      · simp only [identifier, List.cons_append, if_neg starts]
        exact ⟨_, rfl⟩

theorem local_identifierWhere {c : Char} (tail : List Char) (stop : c ∈ stops)
    (accepts : String -> Bool) : Local (c :: tail) (identifierWhere accepts) := by
  have near := local_identifier tail stop
  intro source
  cases read : identifier source with
  | ok word rest =>
      simp only [identifierWhere, read, near.ok read]
      by_cases accepted : accepts word = true
      · simp only [if_pos accepted]
      · simp only [if_neg accepted]
        exact ⟨_, rfl⟩
  | miss place =>
      rcases near.miss read with ⟨place, missed⟩
      simp only [identifierWhere, read, missed]
      exact ⟨_, rfl⟩
  | fail place cause =>
      simp only [identifierWhere, read]

/-- A name that is read begins like a name. -/
theorem head_of_identifier {source rest : List Char} {word : String}
    (read : identifier source = .ok word rest) :
    ∃ c tail, source = c :: tail ∧ isNameStart c = true := by
  cases source with
  | nil => cases read
  | cons c tail =>
      by_cases starts : isNameStart c = true
      · exact ⟨c, tail, rfl, starts⟩
      · simp only [identifier, if_neg starts, reduceCtorEq] at read

theorem identifier_of_name {source rest : List Char} {word : String}
    (read : name source = .ok word rest) :
    identifier source = .ok word rest ∧ word ∉ reserved := by
  simp only [name, identifierWhere] at read
  cases found : identifier source with
  | ok other left =>
      rw [found] at read
      by_cases accepted : (!reserved.contains other) = true
      · simp only [if_pos accepted, Reply.ok.injEq] at read
        rcases read with ⟨rfl, rfl⟩
        refine ⟨rfl, ?_⟩
        simpa using accepted
      · simp only [if_neg accepted, reduceCtorEq] at read
  | miss place =>
      rw [found] at read
      cases read
  | fail place cause =>
      rw [found] at read
      cases read

theorem keyword_of_identifier {source rest : List Char} {word : String}
    (read : identifier source = .ok word rest) : keyword word source = .ok () rest := by
  have found : identifierWhere (· == word) source = .ok word rest := by
    simp only [identifierWhere, read, beq_self_eq_true, if_true]
  exact bind_of_ok found

/-- A keyword is not found where another word stands. -/
theorem keyword_of_ne {source rest : List Char} {word other : String}
    (read : identifier source = .ok word rest) (different : word ≠ other) :
    keyword other source = .miss source := by
  have refused : (word == other) = false := by
    simpa using different
  apply bind_of_miss
  simp only [identifierWhere, read, refused, Bool.false_eq_true, if_false]

theorem keyword_of_head {c : Char} {tail : List Char} (starts : isNameStart c = false)
    (word : String) : keyword word (c :: tail) = .miss (c :: tail) := by
  apply bind_of_miss
  simp only [identifierWhere, identifier, starts, Bool.false_eq_true, if_false]

/-! ## Numbers -/

theorem isNameStart_of_isDigit {c : Char} (digit : c.isDigit = true) : isNameStart c = false := by
  have range : 48 ≤ c.toNat ∧ c.toNat ≤ 57 := by
    simpa [Char.isDigit, UInt32.le_iff_toNat_le] using digit
  have each : ∀ code : Fin 58, 48 ≤ code.val -> isNameStart (Char.ofNat code.val) = false := by
    decide
  have found := each ⟨c.toNat, by omega⟩ range.1
  rwa [Char.ofNat_toNat] at found

theorem isDigit_of_isNameStart {c : Char} (starts : isNameStart c = true) : c.isDigit = false := by
  cases digit : c.isDigit with
  | false => rfl
  | true =>
      rw [isNameStart_of_isDigit digit] at starts
      cases starts

/-- What stands after a number goes on with no digit, sign or exponent. -/
theorem junction_facts : ∀ c ∈ '.' :: marks,
    c.isDigit = false ∧ isDigitPart c = false ∧ (c == 'e' || c == 'E') = false ∧
      (c == '+' || c == '-') = false ∧ (c == '_') = false :=
  List.all_iff_forall_prop.mp (by decide)

theorem Junction.facts {rest : List Char} (junction : Junction rest) :
    ∃ c tail, rest = c :: tail ∧ c.isDigit = false ∧ isDigitPart c = false ∧
      (c == 'e' || c == 'E') = false ∧ (c == '+' || c == '-') = false ∧ (c == '_') = false := by
  cases junction with
  | mark tail found => exact ⟨_, tail, rfl, junction_facts _ (List.mem_cons_of_mem _ found)⟩
  | attr tail starts => exact ⟨_, _, rfl, junction_facts _ (List.mem_cons_self ..)⟩

theorem local_digits {rest : List Char} (junction : Junction rest) : Local rest digits := by
  rcases junction.facts with ⟨c, tail, rfl, digit, part, _⟩
  exact (Local.satisfy digit).bind fun first => Local.takeWhile isDigitPart part (first :: ·)

theorem digits_of_isNameStart {c : Char} (starts : isNameStart c = true) (tail : List Char) :
    digits (c :: tail) = .miss (c :: tail) := by
  apply bind_of_miss
  simp only [satisfy, isDigit_of_isNameStart starts, Bool.false_eq_true, if_false]

theorem fraction_of_ne {c : Char} (other : c ≠ '.') (tail : List Char) :
    fraction (c :: tail) = .miss (c :: tail) := by
  apply bind_of_miss
  simp only [char, if_neg other]

/-- A point in front of a name does not belong to the number. -/
theorem fraction_of_junction {rest : List Char} (junction : Junction rest) :
    ∃ place, fraction rest = .miss place := by
  cases junction with
  | mark tail found =>
      exact ⟨_, fraction_of_ne (ne_point_of_mem _ found) tail⟩
  | attr tail starts =>
      refine ⟨_, (bind_of_ok rfl).trans (bind_of_miss (digits_of_isNameStart starts tail))⟩

theorem local_fraction {rest : List Char} (junction : Junction rest) : Local rest fraction := by
  intro source
  cases source with
  | nil => exact fraction_of_junction junction
  | cons head tail =>
      by_cases point : head = '.'
      · subst point
        have places : Local rest (do
            let places ← digits
            return '.' :: places) :=
          (local_digits junction).bind fun _ => Local.pure _
        exact places tail
      · rw [fraction_of_ne point, List.cons_append, fraction_of_ne point]
        exact ⟨_, rfl⟩

theorem local_exponent {rest : List Char} (junction : Junction rest) : Local rest exponent := by
  have places := local_digits junction
  rcases junction.facts with ⟨c, tail, rfl, _, _, mark, sign, separator⟩
  refine (Local.satisfy mark).bind fun _ => ?_
  have signed : Local (c :: tail) Lexeme.sign :=
    (Local.satisfy sign).optional.bind fun _ => Local.pure _
  refine signed.bind fun _ => (Local.takeWhile (· == '_') separator id).bind fun _ => ?_
  exact places.bind fun _ => Local.pure _

theorem local_numberChars {rest : List Char} (junction : Junction rest) :
    Local rest numberChars := by
  refine (local_digits junction).bind fun _ => ?_
  refine (local_fraction junction).optional.bind fun _ => ?_
  exact (local_exponent junction).optional.bind fun _ => Local.pure _

theorem local_number {rest : List Char} (junction : Junction rest) : Local rest number :=
  (local_numberChars junction).bind fun _ => Local.pure _

/-- A number begins with a digit. -/
theorem head_of_number {source rest : List Char} {literal : Literal}
    (read : number source = .ok literal rest) :
    ∃ c tail, source = c :: tail ∧ c.isDigit = true := by
  cases source with
  | nil => cases read
  | cons c tail =>
      by_cases digit : c.isDigit = true
      · exact ⟨c, tail, rfl, digit⟩
      · exfalso
        have missed : number (c :: tail) = .miss (c :: tail) := by
          apply bind_of_miss
          apply bind_of_miss
          apply bind_of_miss
          simp only [satisfy, if_neg digit]
        rw [missed] at read
        cases read

/-! ## Strings and atoms -/

theorem spellingFrom_of_ne {c : Char} (escape : c ≠ '\\') (quote : c ≠ '"')
    (read rest : List Char) : spellingFrom read (c :: rest) = spellingFrom (c :: read) rest := by
  rw [spellingFrom]
  · exact fun _ _ same => absurd same escape
  · exact fun same => absurd same escape
  · exact quote

/-- A string ends at its own quote, whatever stands after the quote. -/
theorem spellingFrom_append (read source rest tail : List Char) {text : List Char}
    (found : spellingFrom read source = some (text, '"' :: rest)) :
    spellingFrom read (source ++ tail) = some (text, '"' :: (rest ++ tail)) := by
  induction read, source using spellingFrom.induct with
  | case1 read => cases found
  | case2 read c source inductionHypothesis => exact inductionHypothesis found
  | case3 read => cases found
  | case4 read source =>
      cases found
      rfl
  | case5 read c source escaped mark quote inductionHypothesis =>
      have escape : c ≠ '\\' := by
        intro same
        cases source with
        | nil => exact mark same rfl
        | cons head others => exact escaped head others same rfl
      rw [spellingFrom_of_ne escape quote] at found
      rw [List.cons_append, spellingFrom_of_ne escape quote]
      exact inductionHypothesis found

theorem string_append {source : List Char} {literal : Literal}
    (read : string source = .ok literal []) (rest : List Char) :
    string (source ++ rest) = .ok literal rest := by
  rcases eq_ok_of_bind read with ⟨_, inside, opened, read⟩
  rcases eq_ok_of_bind read with ⟨text, last, spelled, read⟩
  rcases eq_ok_of_bind read with ⟨_, _, closed, done⟩
  cases eq_of_char opened
  cases eq_of_char closed
  cases done
  have found : spellingFrom [] inside = some (text, ['"']) := by
    simp only [spelling] at spelled
    split at spelled
    · rename_i located
      cases spelled
      exact located
    · rename_i located
      cases spelled
      cases located
  have again : spelling (inside ++ rest) = .ok text ('"' :: rest) := by
    simp only [spelling, spellingFrom_append [] inside [] rest found, List.nil_append]
  exact (bind_of_ok rfl).trans ((bind_of_ok again).trans (bind_of_ok rfl))

theorem local_atom {c : Char} (tail : List Char) (stop : c ∈ stops) : Local (c :: tail) atom := by
  intro source
  cases source with
  | nil =>
      have other : c ≠ ':' := (stop_facts c stop).2.2.2.2.1
      refine ⟨c :: tail, bind_of_miss ?_⟩
      simp only [List.nil_append, char, if_neg other]
  | cons head rest =>
      by_cases colon : head = ':'
      · subst colon
        exact (local_identifier tail stop).bind (fun _ => Local.pure _) rest
      · have missed (text : List Char) : atom (head :: text) = .miss (head :: text) := by
          apply bind_of_miss
          simp only [char, if_neg colon]
        rw [missed, List.cons_append, missed]
        exact ⟨_, rfl⟩

/-! ## Literals -/

theorem word_of_keywords {source : List Char}
    (missed : ∀ word ∈ reserved, keyword word source = .miss source) :
    word source = .miss source := by
  have each (other : String) (known : other ∈ reserved) (result : Literal) :
      (do keyword other; return result : Reader Literal) source = .miss source :=
    bind_of_miss (missed other known)
  have first := each "nil" (by decide) .nil
  have second := each "false" (by decide) (.bool false)
  have third := each "true" (by decide) (.bool true)
  exact (orElse_of_miss first).trans ((orElse_of_miss second).trans third)

theorem word_of_head {c : Char} {tail : List Char} (starts : isNameStart c = false) :
    word (c :: tail) = .miss (c :: tail) :=
  word_of_keywords fun other _ => keyword_of_head starts other

theorem number_of_head {c : Char} {tail : List Char} (digit : c.isDigit = false) :
    number (c :: tail) = .miss (c :: tail) := by
  apply bind_of_miss
  apply bind_of_miss
  apply bind_of_miss
  simp only [satisfy, digit, Bool.false_eq_true, if_false]

theorem string_of_head {c : Char} {tail : List Char} (quote : c ≠ '"') :
    string (c :: tail) = .miss (c :: tail) := by
  apply bind_of_miss
  simp only [char, if_neg quote]

theorem atom_of_head {c : Char} {tail : List Char} (colon : c ≠ ':') :
    atom (c :: tail) = .miss (c :: tail) := by
  apply bind_of_miss
  simp only [char, if_neg colon]

theorem ne_of_isNameStart {c other : Char} (starts : isNameStart c = true)
    (refused : isNameStart other = false) : c ≠ other := by
  rintro rfl
  rw [starts] at refused
  cases refused

/-- A word that is no literal is left to the readers of names. -/
theorem literal_of_name {source rest : List Char} {name : String}
    (read : identifier source = .ok name rest) (free : name ∉ reserved) :
    literal source = .miss source := by
  rcases head_of_identifier read with ⟨c, tail, rfl, starts⟩
  have noWord : word (c :: tail) = .miss (c :: tail) := by
    refine word_of_keywords fun other known => keyword_of_ne read ?_
    rintro rfl
    exact free known
  have noNumber := @number_of_head c tail (isDigit_of_isNameStart starts)
  have noString := @string_of_head c tail (ne_of_isNameStart starts (by decide))
  have noAtom := @atom_of_head c tail (ne_of_isNameStart starts (by decide))
  exact (orElse_of_miss noWord).trans ((orElse_of_miss noNumber).trans
    ((orElse_of_miss noString).trans noAtom))

/-- Neither is a literal found where no literal can begin. -/
theorem literal_of_head {c : Char} {tail : List Char} (starts : isNameStart c = false)
    (digit : c.isDigit = false) (quote : c ≠ '"') (colon : c ≠ ':') :
    literal (c :: tail) = .miss (c :: tail) :=
  (orElse_of_miss (word_of_head starts)).trans ((orElse_of_miss (number_of_head digit)).trans
    ((orElse_of_miss (string_of_head quote)).trans (atom_of_head colon)))

/-- A literal is read from its own text in front of whatever may follow. -/
theorem literal_write {literal : Literal} (whole : literal.Whole) {rest : List Char}
    (junction : Junction rest) : Lexeme.literal (literal.write ++ rest) = .ok literal rest := by
  rcases junction.stops with ⟨c, tail, rfl, stop⟩
  have near := local_identifier tail stop
  cases literal with
  | nil =>
      have read : identifier ("nil".toList ++ c :: tail) = .ok "nil" ([] ++ c :: tail) := near.ok rfl
      exact orElse_of_ok (orElse_of_ok (bind_of_ok (keyword_of_identifier read)))
  | bool value =>
      cases value with
      | false =>
          have read : identifier ("false".toList ++ c :: tail) = .ok "false" ([] ++ c :: tail) :=
            near.ok rfl
          have noNil := keyword_of_ne read (by decide : "false" ≠ "nil")
          refine orElse_of_ok ((orElse_of_miss (bind_of_miss noNil)).trans ?_)
          exact orElse_of_ok (bind_of_ok (keyword_of_identifier read))
      | true =>
          have read : identifier ("true".toList ++ c :: tail) = .ok "true" ([] ++ c :: tail) :=
            near.ok rfl
          have noNil := keyword_of_ne read (by decide : "true" ≠ "nil")
          have noFalse := keyword_of_ne read (by decide : "true" ≠ "false")
          refine orElse_of_ok ((orElse_of_miss (bind_of_miss noNil)).trans
            ((orElse_of_miss (bind_of_miss noFalse)).trans ?_))
          exact bind_of_ok (keyword_of_identifier read)
  | num text =>
      rcases head_of_number whole with ⟨head, digits, shape, digit⟩
      have read := (local_number junction).ok whole
      rw [List.nil_append] at read
      have noWord : word (Literal.write (.num text) ++ c :: tail) =
          .miss (Literal.write (.num text) ++ c :: tail) := by
        rw [shape]
        exact word_of_head (isNameStart_of_isDigit digit)
      exact (orElse_of_miss noWord).trans (orElse_of_ok read)
  | str spelling =>
      have read := string_append whole (c :: tail)
      have noWord : word (Literal.write (.str spelling) ++ c :: tail) = .miss _ :=
        word_of_head (by decide)
      have noNumber : number (Literal.write (.str spelling) ++ c :: tail) = .miss _ :=
        number_of_head (by decide)
      exact (orElse_of_miss noWord).trans ((orElse_of_miss noNumber).trans (orElse_of_ok read))
  | atom name =>
      have read := (local_atom tail stop).ok whole
      rw [List.nil_append] at read
      have noWord : word (Literal.write (.atom name) ++ c :: tail) = .miss _ :=
        word_of_head (by decide)
      have noNumber : number (Literal.write (.atom name) ++ c :: tail) = .miss _ :=
        number_of_head (by decide)
      have noString : string (Literal.write (.atom name) ++ c :: tail) = .miss _ :=
        string_of_head (by decide)
      exact (orElse_of_miss noWord).trans ((orElse_of_miss noNumber).trans
        ((orElse_of_miss noString).trans read))

end Lexeme
end HtmlTemplate
