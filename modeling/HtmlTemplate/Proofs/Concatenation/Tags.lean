import HtmlTemplate.Proofs.Concatenation.Fences

namespace HtmlTemplate

/-!
# What a tag holds is read in front of its fence

The readers of names, literals, expressions and patterns are steady.  Only a
string literal can pass a percent sign, and it is read up to its own quote.
-/

open Reader

namespace Lexeme

theorem isNameStart_facts : isNameStart '%' = false ∧ isNameStart '"' = false := by
  decide

theorem isNamePart_facts : isNamePart '%' = false ∧ isNamePart '"' = false := by
  decide

/-! ## Names -/

theorem takeQuestionMark_kept (source : List Char) :
    (takeQuestionMark source).2 <:+ source ∧
      (Fenced (takeQuestionMark source).2 ↔ Fenced source) := by
  unfold takeQuestionMark
  split
  · exact ⟨List.suffix_rfl, Iff.rfl⟩
  · exact ⟨List.suffix_cons .., (fenced_cons_iff (by decide) (by decide)).symm⟩
  · exact ⟨List.suffix_rfl, Iff.rfl⟩

theorem takeQuestionMark_fenced {source : List Char} (ended : Fenced source) (extra : List Char) :
    takeQuestionMark (source ++ extra) =
      ((takeQuestionMark source).1, (takeQuestionMark source).2 ++ extra) := by
  cases source with
  | nil => cases ended
  | cons c tail =>
      by_cases mark : c = '?'
      · subst mark
        have inside := (fenced_cons_iff (by decide) (by decide)).mp ended
        cases tail with
        | nil => cases inside
        | cons d others =>
            by_cases sign : d = '='
            · subst sign
              rfl
            · simp only [List.cons_append, takeQuestionMark_mark_of_ne sign]
      · simp only [List.cons_append, takeQuestionMark_of_ne mark]

theorem steady_identifier : Steady identifier := by
  constructor
  · intro source word rest read
    cases source with
    | nil => cases read
    | cons first tail =>
        by_cases starts : isNameStart first = true
        · simp only [identifier, if_pos starts] at read
          cases read
          have mark := takeQuestionMark_kept (tail.dropWhile isNamePart)
          have part : tail.dropWhile isNamePart <:+ tail := List.dropWhile_suffix _
          refine ⟨(mark.1.trans part).trans (List.suffix_cons ..), mark.2.trans ?_⟩
          rw [fenced_dropWhile_iff isNamePart_facts.1 isNamePart_facts.2,
            fenced_cons_of_accepts isNameStart_facts.1 isNameStart_facts.2 starts]
        · simp only [identifier, if_neg starts, reduceCtorEq] at read
  · intro source ended extra
    cases source with
    | nil => cases ended
    | cons first tail =>
        by_cases starts : isNameStart first = true
        · have inside :=
            (fenced_cons_of_accepts isNameStart_facts.1 isNameStart_facts.2 starts).mp ended
          have after := (fenced_dropWhile_iff isNamePart_facts.1 isNamePart_facts.2 tail).mpr inside
          simp only [identifier, List.cons_append, if_pos starts,
            inside.dropWhile_append isNamePart_facts.1 isNamePart_facts.2,
            inside.takeWhile_append isNamePart_facts.1 isNamePart_facts.2,
            takeQuestionMark_fenced after]
          rfl
        · simp only [identifier, List.cons_append, if_neg starts]
          exact ⟨_, rfl⟩

theorem shortens_identifier : Shortens identifier := by
  constructor
  intro source word rest read
  cases source with
  | nil => cases read
  | cons first tail =>
      by_cases starts : isNameStart first = true
      · simp only [identifier, if_pos starts] at read
        cases read
        have mark := (takeQuestionMark_kept (tail.dropWhile isNamePart)).1
        have part : tail.dropWhile isNamePart <:+ tail := List.dropWhile_suffix _
        exact Nat.lt_succ_of_le (mark.trans part).length_le
      · simp only [identifier, if_neg starts, reduceCtorEq] at read

theorem identifier_of_where {accepts : String -> Bool} {source rest : List Char} {word : String}
    (read : identifierWhere accepts source = .ok word rest) :
    identifier source = .ok word rest ∧ accepts word = true := by
  simp only [identifierWhere] at read
  split at read
  · rename_i found
    split at read
    · rename_i accepted
      cases read
      exact ⟨found, accepted⟩
    · cases read
  · rename_i reply found
    exact absurd read (found word rest)

theorem steady_identifierWhere (accepts : String -> Bool) : Steady (identifierWhere accepts) := by
  constructor
  · intro source word rest read
    exact steady_identifier.kept (identifier_of_where read).1
  · intro source ended extra
    rcases steady_identifier.outcomes ended extra with
      ⟨word, _, read, longer⟩ | ⟨_, _, missed, longer⟩ | ⟨_, _, _, _, failed, longer⟩
    · by_cases accepted : accepts word = true
      · simp only [identifierWhere, read, longer, if_pos accepted]
        rfl
      · simp only [identifierWhere, read, longer, if_neg accepted]
        exact ⟨_, rfl⟩
    · simp only [identifierWhere, missed, longer]
      exact ⟨_, rfl⟩
    · simp only [identifierWhere, failed, longer]
      exact ⟨_, _, rfl⟩

theorem steady_keyword (word : String) : Steady (keyword word) :=
  (steady_identifierWhere _).bind fun _ => .pure ()

theorem shortens_keyword (word : String) : Shortens (keyword word) := by
  have first : Shortens (identifierWhere (· == word)) :=
    ⟨fun read => shortens_identifier.shorter (identifier_of_where read).1⟩
  exact first.bind fun _ => .pure ()

theorem steady_name : Steady name :=
  steady_identifierWhere _

/-! ## Numbers -/

theorem isDigitPart_facts : isDigitPart '%' = false ∧ isDigitPart '"' = false := by
  decide

theorem steady_digits : Steady digits :=
  (Steady.satisfy (by decide) (by decide)).bind fun first =>
    .takeWhile isDigitPart_facts.1 isDigitPart_facts.2 (first :: ·)

theorem steady_fraction : Steady fraction :=
  (Steady.char (by decide) (by decide)).bind fun _ => steady_digits.bind fun _ => .pure _

theorem steady_sign : Steady sign :=
  (Steady.satisfy (by decide) (by decide)).optional.bind fun _ => .pure _

theorem steady_exponent : Steady exponent :=
  (Steady.satisfy (by decide) (by decide)).bind fun _ => steady_sign.bind fun _ =>
    (Steady.takeWhile (by decide) (by decide) id).bind fun _ => steady_digits.bind fun _ => .pure _

theorem steady_numberChars : Steady numberChars :=
  steady_digits.bind fun _ => steady_fraction.optional.bind fun _ =>
    steady_exponent.optional.bind fun _ => .pure _

theorem steady_number : Steady number :=
  steady_numberChars.bind fun _ => .pure _

theorem steady_signedNumber : Steady signedNumber :=
  (Steady.char (by decide) (by decide)).optional.bind fun _ => steady_numberChars.bind fun _ =>
    .pure _

/-! ## Strings and atoms -/

/-- A string that is closed is spelled up to its quote. -/
theorem spellingFrom_of_afterString {source rest : List Char}
    (closed : afterString source = some rest) (read : List Char) :
    ∃ text, spellingFrom read source = some (text, '"' :: rest) := by
  induction source using afterString.induct generalizing read with
  | case1 => cases closed
  | case2 c tail inductionHypothesis => exact inductionHypothesis closed _
  | case3 => cases closed
  | case4 tail =>
      cases closed
      exact ⟨read.reverse, rfl⟩
  | case5 c tail escaped last quote inductionHypothesis =>
      rw [afterString] at closed
      · rw [spellingFrom]
        · exact inductionHypothesis closed _
        · exact escaped
        · exact last
        · exact quote
      · exact escaped
      · exact last
      · exact quote

/-- A string that is not closed is spelled up to the end of the source, or not
at all. -/
theorem spellingFrom_of_unclosed {source : List Char} (unclosed : afterString source = none)
    (read : List Char) :
    spellingFrom read source = none ∨ ∃ text, spellingFrom read source = some (text, []) := by
  induction source using afterString.induct generalizing read with
  | case1 => exact .inr ⟨read.reverse, rfl⟩
  | case2 c tail inductionHypothesis => exact inductionHypothesis unclosed _
  | case3 => exact .inl rfl
  | case4 tail => cases unclosed
  | case5 c tail escaped last quote inductionHypothesis =>
      rw [afterString] at unclosed
      · rw [spellingFrom]
        · exact inductionHypothesis unclosed _
        · exact escaped
        · exact last
        · exact quote
      · exact escaped
      · exact last
      · exact quote

/-- A closed string is read whatever follows it. -/
theorem string_of_afterString {inside rest : List Char} (closed : afterString inside = some rest) :
    ∃ literal, ∀ extra, string ('"' :: (inside ++ extra)) = .ok literal (rest ++ extra) := by
  rcases spellingFrom_of_afterString closed [] with ⟨text, found⟩
  refine ⟨.str (String.ofList text), fun extra => ?_⟩
  have spelled : spelling (inside ++ extra) = .ok text ('"' :: (rest ++ extra)) := by
    simp only [spelling, spellingFrom_append [] inside rest extra found]
  exact (bind_of_ok rfl).trans ((bind_of_ok spelled).trans (bind_of_ok rfl))

theorem string_of_unclosed {inside : List Char} (unclosed : afterString inside = none) :
    ∃ place, string ('"' :: inside) = .miss place := by
  rcases spellingFrom_of_unclosed unclosed [] with none | ⟨text, found⟩
  · have spelled : spelling inside = .ok [] inside := by
      simp only [spelling, none]
    refine ⟨inside, (bind_of_ok rfl).trans ((bind_of_ok spelled).trans (bind_of_miss ?_))⟩
    cases inside with
    | nil => rfl
    | cons c tail =>
        refine if_neg ?_
        rintro rfl
        cases unclosed
  · have spelled : spelling inside = .ok text [] := by
      simp only [spelling, found]
    refine ⟨[], (bind_of_ok rfl).trans ((bind_of_ok spelled).trans (bind_of_miss ?_))⟩
    rfl

theorem steady_string : Steady string := by
  constructor
  · intro source literal rest read
    rcases eq_ok_of_bind read with ⟨_, inside, opened, _⟩
    cases eq_of_char opened
    cases closed : afterString inside with
    | none =>
        rcases string_of_unclosed closed with ⟨place, missed⟩
        rw [missed] at read
        cases read
    | some last =>
        rcases string_of_afterString closed with ⟨found, reads⟩
        have whole := reads []
        rw [List.append_nil, List.append_nil, read] at whole
        cases whole
        refine ⟨(suffix_of_afterString closed).trans (List.suffix_cons ..), ?_⟩
        rw [fenced_string_iff, closed]
        simp
  · intro source ended extra
    cases source with
    | nil => cases ended
    | cons c inside =>
        by_cases quote : c = '"'
        · subst quote
          rcases fenced_string_iff.mp ended with ⟨last, closed, _⟩
          rcases string_of_afterString closed with ⟨found, reads⟩
          have whole := reads []
          rw [List.append_nil, List.append_nil] at whole
          rw [whole]
          exact reads extra
        · rw [List.cons_append, string_of_head quote, string_of_head quote]
          exact ⟨_, rfl⟩

theorem steady_atom : Steady atom :=
  (Steady.char (by decide) (by decide)).bind fun _ => steady_identifier.bind fun _ => .pure _

theorem steady_word : Steady word :=
  ((steady_keyword _).bind fun _ => .pure _).orElse <|
    ((steady_keyword _).bind fun _ => .pure _).orElse ((steady_keyword _).bind fun _ => .pure _)

theorem steady_literal : Steady literal :=
  steady_word.orElse (steady_number.orElse (steady_string.orElse steady_atom))

theorem steady_patternLiteral : Steady patternLiteral :=
  steady_word.orElse (steady_signedNumber.orElse (steady_string.orElse steady_atom))

end Lexeme

/-! ## Expressions -/

namespace Expr

variable {inside : Nat -> Reader Expr} {value operand : Reader Expr}

/-- A reader of an operator is steady and takes at least one character. -/
structure ReadsOperator {α : Type} (op : Reader α) : Prop where
  steady : Steady op
  shortens : Shortens op

namespace ReadsOperator

variable {α : Type} {first second : Reader α}

theorem signFor {text : String} (op : α) (inside : text.toList ≠ [])
    (percent : text.toList.contains '%' = false) (quote : text.toList.contains '"' = false) :
    ReadsOperator (Expr.signFor text op) where
  steady := (Steady.exactly percent quote).bind fun _ => .pure op
  shortens := (Shortens.exactly inside).bind fun _ => .pure op

theorem wordFor (text : String) (op : α) : ReadsOperator (Expr.wordFor text op) where
  steady := (Lexeme.steady_keyword text).bind fun _ => .pure op
  shortens := (Lexeme.shortens_keyword text).bind fun _ => .pure op

/-- The characters that must not follow have to be plain as well. -/
theorem signUnless {text : String} {next : List Char} (op : α) (inside : text.toList ≠ [])
    (percent : (text.toList ++ next).contains '%' = false)
    (quote : (text.toList ++ next).contains '"' = false) :
    ReadsOperator (Expr.signUnless text next op) := by
  simp only [List.contains_append, Bool.or_eq_false_iff] at percent quote
  have ahead : Steady (do notAhead (satisfy next.contains); return op) :=
    (Steady.satisfy percent.2 quote.2).notAhead.bind fun _ => .pure op
  exact ⟨(Steady.exactly percent.1 quote.1).bind fun _ => ahead,
    (Shortens.exactly inside).bind fun _ => ahead⟩

theorem orElse (reads : ReadsOperator first) (other : ReadsOperator second) :
    ReadsOperator (first <|> second) where
  steady := reads.steady.orElse other.steady
  shortens := reads.shortens.orElse other.shortens

theorem strictLevel {op : Reader Operator} (reads : ReadsOperator op) :
    ReadsOperator (Expr.strictLevel op) where
  steady := reads.steady.bind fun _ => .pure _
  shortens := reads.shortens.bind fun _ => .pure _

end ReadsOperator

/-- The operators between two operands are signs without a percent sign, or
words. -/
theorem readsOperator_of_mem_levels : ∀ op ∈ levels, ReadsOperator op := by
  intro op member
  simp only [levels, List.mem_cons, List.not_mem_nil, or_false] at member
  rcases member with rfl | rfl | rfl | rfl | rfl | rfl | rfl
  case inl | inr.inl =>
    exact (ReadsOperator.signFor _ (by decide) rfl rfl).orElse (.wordFor _ _)
  case inr.inr.inl | inr.inr.inr.inr.inr.inr =>
    apply ReadsOperator.strictLevel
    exact (ReadsOperator.signFor _ (by decide) rfl rfl).orElse
      (.signFor _ (by decide) rfl rfl)
  case inr.inr.inr.inl =>
    apply ReadsOperator.strictLevel
    exact (ReadsOperator.signFor _ (by decide) rfl rfl).orElse
      ((ReadsOperator.signFor _ (by decide) rfl rfl).orElse
        ((ReadsOperator.signUnless _ (by decide) rfl rfl).orElse
          (.signFor _ (by decide) rfl rfl)))
  case inr.inr.inr.inr.inl | inr.inr.inr.inr.inr.inl =>
    apply ReadsOperator.strictLevel
    exact (ReadsOperator.signFor _ (by decide) rfl rfl).orElse
      (.signUnless _ (by decide) rfl rfl)

theorem readsOperator_readUnaryOp : ReadsOperator readUnaryOp :=
  (ReadsOperator.signUnless _ (by decide) rfl rfl).orElse
    ((ReadsOperator.wordFor _ _).orElse (.signFor _ (by decide) rfl rfl))

/-- Operands with operators of one level between them. -/
theorem steady_chain {op : Reader BinaryOp} (sign : ReadsOperator op) (room : Nat)
    (steady : Steady operand) : Steady (chain op room operand) := by
  refine steady.bind fun first => ?_
  refine Steady.bind (.many ?_ ?_) fun others => (Steady.deeper _ _).bind fun _ => .pure _
  · exact sign.steady.spaced.bind fun _ => steady.bind fun _ => .pure _
  · refine Shortens.bind ?_ fun _ => steady.bind fun _ => .pure _
    exact .after .spaces fun _ => sign.shortens.bind fun _ => Steady.spaces.bind fun _ => .pure _

theorem steady_prefixed {operand : Nat -> Reader Expr} (room : Nat)
    (steady : ∀ room, Steady (operand room)) : Steady (prefixed room operand) := by
  refine Steady.bind (.many readsOperator_readUnaryOp.steady.spaced ?_) fun ops =>
    (Steady.deeper _ _).bind fun room => (steady room).bind fun _ => .pure _
  exact .after .spaces fun _ => readsOperator_readUnaryOp.shortens.bind fun _ =>
    Steady.spaces.bind fun _ => .pure _

theorem steady_keywordPair (steady : Steady value) : Steady (keywordPair value) := by
  refine Steady.bind ?_ fun key => steady.spaced.bind fun _ => .pure _
  refine Lexeme.steady_identifier.bind fun key => ?_
  exact (Steady.char (by decide) (by decide)).bind fun _ =>
    (Steady.char (by decide) (by decide)).notAhead.bind fun _ => .pure _

theorem steady_argument (steady : Steady value) : Steady (argument value) :=
  ((steady_keywordPair steady).bind fun _ => .pure _).orElse (steady.bind fun _ => .pure _)

theorem steady_listItem (steady : Steady value) : Steady (listItem value) :=
  ((steady_keywordPair steady).bind fun _ => .pure _).orElse steady

theorem steady_arguments (steady : Steady value) : Steady (arguments value) := by
  refine .here fun start start' => ?_
  refine Alike.bind (Steady.char (by decide) (by decide)) fun _ => ?_
  refine Alike.bind (Steady.commit ?_) fun args => ?_
  · exact (steady_argument steady).spaced.separated.bind fun _ => Steady.spaces.bind fun _ =>
      (Steady.char (by decide) (by decide)).bind fun _ => .pure _
  · cases collect? args with
    | some args => exact Steady.pure args
    | none => exact .failAt _ _ _

theorem steady_primary (steady : ∀ room, Steady (inside room)) (room : Nat) :
    Steady (primary inside room) := by
  refine (Lexeme.steady_literal.bind fun _ => .pure _).orElse (.orElse ?assign
    (.orElse ?call ((Lexeme.steady_name.bind fun _ => .pure _).orElse
      (.orElse ?list (.orElse ?tuple ?group)))))
  case assign =>
    exact (Steady.char (by decide) (by decide)).bind fun _ =>
      Lexeme.steady_identifier.commit.bind fun _ => .pure _
  case call =>
    exact Lexeme.steady_name.bind fun _ =>
      (Steady.nested fun room => steady_arguments (steady room)).bind fun _ => .pure _
  case list =>
    refine .nested fun room => ?_
    refine (Steady.char (by decide) (by decide)).spaced.bind fun _ => ?_
    refine Steady.bind (.commit ?_) fun _ =>
      (Steady.char (by decide) (by decide)).spaced.commit.bind fun _ => .pure _
    exact (steady_listItem (steady room)).spaced.separated.bind fun _ =>
      (Steady.char (by decide) (by decide)).optional.bind fun _ => .pure _
  case tuple =>
    refine .nested fun room => ?_
    exact (Steady.char (by decide) (by decide)).bind fun _ =>
      (steady room).spaced.separated.commit.bind fun _ =>
        (Steady.char (by decide) (by decide)).spaced.commit.bind fun _ => .pure _
  case group =>
    refine .nested fun room => ?_
    exact (Steady.char (by decide) (by decide)).bind fun _ => (steady room).spaced.commit.bind fun _ =>
      (Steady.char (by decide) (by decide)).commit.bind fun _ => .pure _

theorem steady_suffix (steady : ∀ room, Steady (inside room)) (room : Nat) :
    Steady (attrSuffix <|> indexSuffix inside room) := by
  refine .orElse ?attr (.nested fun room => ?index)
  case attr =>
    exact (Steady.char (by decide) (by decide)).bind fun _ =>
      (Steady.char (by decide) (by decide)).notAhead.bind fun _ =>
        Lexeme.steady_identifier.commit.bind fun _ => .pure _
  case index =>
    refine (Steady.char (by decide) (by decide)).bind fun _ =>
      Steady.bind (.commit ?_) fun _ => .pure _
    exact (steady room).spaced.bind fun _ => (Steady.char (by decide) (by decide)).bind fun _ =>
      .pure _

theorem steady_suffixes (steady : ∀ room, Steady (inside room)) (room : Nat) (object : Expr) :
    Steady (suffixes inside room object) := by
  induction room generalizing object with
  | zero =>
      refine .here fun start start' => ?_
      refine Alike.bind (steady_suffix steady 0).optional fun suffix => ?_
      cases suffix with
      | none => exact Steady.pure object
      | some _ => exact .failAt _ _ _
  | succ room inductionHypothesis =>
      refine (steady_suffix steady (room + 1)).optional.bind fun suffix => ?_
      cases suffix with
      | none => exact .pure object
      | some suffix => exact inductionHypothesis (suffix.apply object)

theorem steady_readWith (steady : ∀ room, Steady (inside room)) (room : Nat) :
    Steady (readWith inside room) := by
  have suffixed : ∀ room, Steady (suffixed inside room) := fun room =>
    (steady_primary steady room).bind fun object => steady_suffixes steady room object
  have tower : ∀ ops ⊆ levels,
      Steady (ops.foldr (fun op operand => chain op room operand)
        (prefixed room (Expr.suffixed inside))) := by
    intro ops within
    induction ops with
    | nil => exact steady_prefixed room suffixed
    | cons op rest inductionHypothesis =>
        have known := readsOperator_of_mem_levels op (within (List.mem_cons_self ..))
        exact steady_chain known room (inductionHypothesis fun other member =>
          within (List.mem_cons_of_mem _ member))
  exact tower levels fun _ member => member

theorem steady_readRounds (rounds room : Nat) : Steady (readRounds rounds room) := by
  induction rounds generalizing room with
  | zero => exact .fail .tooDeep
  | succ rounds inductionHypothesis => exact steady_readWith inductionHypothesis room

theorem steady_read (room : Nat) : Steady (read room) :=
  steady_readRounds (room + 1) room

end Expr

/-! ## Patterns -/

namespace Pattern

theorem steady_readName : Steady readName := by
  constructor
  · intro source pattern rest read
    simp only [readName] at read
    split at read
    · rename_i found
      split at read
      · cases read
        exact Lexeme.steady_identifier.kept found
      · split at read
        · cases read
        · cases read
          exact Lexeme.steady_identifier.kept found
    · cases read
    · cases read
  · intro source ended extra
    rcases Lexeme.steady_identifier.outcomes ended extra with
      ⟨name, _, read, longer⟩ | ⟨_, _, missed, longer⟩ | ⟨_, _, _, _, failed, longer⟩
    · by_cases wild : name.toList.head? = some '_'
      · simp only [readName, read, longer, if_pos wild]
        rfl
      · by_cases known : Lexeme.reserved.contains name = true
        · simp only [readName, read, longer, if_neg wild, if_pos known]
          exact ⟨_, rfl⟩
        · simp only [readName, read, longer, if_neg wild, if_neg known]
          rfl
    · simp only [readName, missed, longer]
      exact ⟨_, rfl⟩
    · simp only [readName, failed, longer]
      exact ⟨_, _, rfl⟩

theorem steady_readItems {opening closing : Char} (first : opening ≠ '%' ∧ opening ≠ '"')
    (last : closing ≠ '%' ∧ closing ≠ '"') {item : Reader Pattern} (steady : Steady item) :
    Steady (readItems opening closing item) :=
  (Steady.char first.1 first.2).bind fun _ => steady.spaced.separated.bind fun _ =>
    Steady.spaces.bind fun _ => (Steady.char last.1 last.2).bind fun _ => .pure _

theorem steady_read (room : Nat) : Steady (read room) := by
  induction room with
  | zero =>
      exact (Lexeme.steady_patternLiteral.bind fun _ => .pure _).orElse
        (steady_readName.orElse (.fail .tooDeep))
  | succ room inductionHypothesis =>
      exact (Lexeme.steady_patternLiteral.bind fun _ => .pure _).orElse
        (steady_readName.orElse
          (((steady_readItems (by decide) (by decide) inductionHypothesis).bind fun _ => .pure _).orElse
            ((steady_readItems (by decide) (by decide) inductionHypothesis).bind fun _ => .pure _)))

end Pattern

/-! ## Beginnings of tags -/

namespace Node

theorem steady_clauseHead (room : Nat) : Steady (clauseHead room) :=
  (Pattern.steady_read room).spaced.bind fun _ => (Steady.exactly rfl rfl).bind fun _ => .pure _

theorem steady_terminator (room : Nat) : Steady (terminator room) :=
  Steady.spaces.bind fun _ => (Lexeme.steady_keyword "end").orElse
    ((Lexeme.steady_keyword "else").orElse ((steady_clauseHead room).bind fun _ => .pure _))

theorem steady_bindingHead (room : Nat) : Steady (bindingHead room) :=
  (Pattern.steady_read room).spaced.bind fun _ => (Steady.char (by decide) (by decide)).bind fun _ =>
    (Steady.satisfy (by decide) (by decide)).notAhead.bind fun _ => .pure _

end Node
end HtmlTemplate
