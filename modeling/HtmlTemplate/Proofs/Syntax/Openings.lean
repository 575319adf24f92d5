import HtmlTemplate.Proofs.Syntax.Operators

namespace HtmlTemplate
namespace Expr

/-!
# How written expressions begin

Several readers look at the beginning of an expression before the expression is
read: for white space, for an operator in front, for a keyword of a list or of a
call, for the words that begin and end blocks.  All of them pass, because an
expression begins with a name that is none of these words and has no colon after
it, or with a sign.
-/

open Reader

/-- Words that never begin an expression. -/
def blockWords : List String := ["if", "unless", "for", "case", "end", "else"]

/-- A source begins with a name that is none of some words, or with a character
that begins no name and is none of some signs. -/
inductive Opening (words : List String) (signs : List Char) : List Char -> Prop where
  | word {source rest : List Char} {name : String}
      (read : Lexeme.identifier source = .ok name rest) (free : name ∉ words)
      (stop : ∃ c tail, rest = c :: tail ∧ c ∈ Lexeme.stops) : Opening words signs source
  | sign {c : Char} (tail : List Char) (start : Lexeme.isNameStart c = false)
      (space : isSpace c = false) (free : c ∉ signs) : Opening words signs (c :: tail)

theorem isSpace_of_isNameStart {c : Char} (starts : Lexeme.isNameStart c = true) :
    isSpace c = false := by
  cases space : isSpace c with
  | false => rfl
  | true =>
      simp only [isSpace, Bool.or_eq_true, beq_iff_eq] at space
      rcases space with ((rfl | rfl) | rfl) | rfl
      all_goals
        revert starts
        decide

namespace Opening

variable {words : List String} {signs : List Char} {source : List Char}

theorem mono {fewer : List String} {fewerSigns : List Char} (opening : Opening words signs source)
    (inWords : fewer ⊆ words) (inSigns : fewerSigns ⊆ signs) :
    Opening fewer fewerSigns source := by
  cases opening with
  | word read free stop => exact .word read (fun member => free (inWords member)) stop
  | sign tail start space free => exact .sign tail start space fun member => free (inSigns member)

/-- There is no white space to skip. -/
theorem dropWhile_isSpace (opening : Opening words signs source) :
    source.dropWhile isSpace = source := by
  cases opening with
  | word read free stop =>
      rcases Lexeme.head_of_identifier read with ⟨c, tail, rfl, starts⟩
      simp only [List.dropWhile_cons, isSpace_of_isNameStart starts, Bool.false_eq_true, if_false]
  | sign tail start space free =>
      simp only [List.dropWhile_cons, space, Bool.false_eq_true, if_false]

theorem head (opening : Opening words closingSigns source) :
    ∃ c tail, source = c :: tail ∧ isSpace c = false ∧ c ∉ closingSigns := by
  cases opening with
  | word read free stop =>
      rcases Lexeme.head_of_identifier read with ⟨c, tail, rfl, starts⟩
      refine ⟨c, tail, rfl, isSpace_of_isNameStart starts, fun member => ?_⟩
      rw [(closingSigns_facts c member).2.1] at starts
      cases starts
  | sign tail start space free => exact ⟨_, tail, rfl, space, free⟩

theorem keyword_of_mem {word : String} (opening : Opening words signs source)
    (member : word ∈ words) : Lexeme.keyword word source = .miss source := by
  cases opening with
  | word read free stop =>
      refine Lexeme.keyword_of_ne read ?_
      rintro rfl
      exact free member
  | sign tail start space free => exact Lexeme.keyword_of_head start word

theorem identifierWhere_of_forall {accepts : String -> Bool} (opening : Opening words signs source)
    (within : ∀ word, accepts word = true -> word ∈ words) :
    ∃ place, Lexeme.identifierWhere accepts source = .miss place := by
  cases opening with
  | @word source rest name read free stop =>
      have refused : accepts name = false := by
        cases accepted : accepts name with
        | false => rfl
        | true => exact absurd (within name accepted) free
      refine ⟨source, ?_⟩
      simp only [Lexeme.identifierWhere, read, refused, Bool.false_eq_true, if_false]
  | @sign c tail start space free =>
      refine ⟨c :: tail, ?_⟩
      simp only [Lexeme.identifierWhere, Lexeme.identifier, start, Bool.false_eq_true, if_false]

/-- There is no key of a keyword. -/
theorem keywordKey (opening : Opening words signs source) :
    ∃ place, Expr.keywordKey source = .miss place := by
  cases opening with
  | word read free stop =>
      rcases stop with ⟨c, tail, rfl, stop⟩
      have other : c ≠ ':' := (Lexeme.stop_facts c stop).2.2.2.2.1
      have missed : char ':' (c :: tail) = .miss (c :: tail) := by
        simp only [char, if_neg other]
      exact ⟨_, (bind_of_ok read).trans (bind_of_miss missed)⟩
  | @sign c tail start space free =>
      have missed : Lexeme.identifier (c :: tail) = .miss (c :: tail) := by
        simp only [Lexeme.identifier, start, Bool.false_eq_true, if_false]
      exact ⟨_, bind_of_miss missed⟩

/-- There is no operator in front. -/
theorem readUnaryOp (opening : Opening ("not" :: blockWords) ('!' :: '-' :: signs) source) :
    ∃ place, Expr.readUnaryOp source = .miss place := by
  have word : wordFor "not" UnaryOp.not source = .miss source :=
    bind_of_miss (opening.keyword_of_mem (List.mem_cons_self ..))
  have shape : ∃ c tail, source = c :: tail ∧ c ≠ '!' ∧ c ≠ '-' := by
    cases opening with
    | word read free stop =>
        rcases Lexeme.head_of_identifier read with ⟨c, tail, rfl, starts⟩
        exact ⟨c, tail, rfl, Lexeme.ne_of_isNameStart starts (by decide),
          Lexeme.ne_of_isNameStart starts (by decide)⟩
    | sign tail start space free =>
        refine ⟨_, tail, rfl, ?_, ?_⟩
        · rintro rfl
          exact free (List.mem_cons_self ..)
        · rintro rfl
          exact free (List.mem_cons_of_mem _ (List.mem_cons_self ..))
  rcases shape with ⟨c, tail, rfl, bang, minus⟩
  have first : signUnless "!" ['='] UnaryOp.bang (c :: tail) = .miss (c :: tail) := by
    apply bind_of_miss
    simp [exactly, List.isPrefixOf, Ne.symm bang]
  have third : signFor "-" UnaryOp.minus (c :: tail) = .miss (c :: tail) := by
    apply bind_of_miss
    simp [exactly, List.isPrefixOf, Ne.symm minus]
  exact ⟨_, (orElse_of_miss first).trans ((orElse_of_miss word).trans third)⟩

end Opening

/-! ## Openings of trees -/

theorem opening_name {name : String} (read : Lexeme.identifier name.toList = .ok name [])
    {words : List String} (free : name ∉ words) (signs : List Char) {c : Char} (tail : List Char)
    (stop : c ∈ Lexeme.stops) : Opening words signs (name.toList ++ c :: tail) :=
  .word ((Lexeme.local_identifier tail stop).ok read) free ⟨c, tail, rfl, stop⟩

theorem isSpace_of_isDigit {c : Char} (digit : c.isDigit = true) : isSpace c = false := by
  cases space : isSpace c with
  | false => rfl
  | true =>
      simp only [isSpace, Bool.or_eq_true, beq_iff_eq] at space
      rcases space with ((rfl | rfl) | rfl) | rfl
      all_goals
        revert digit
        decide

theorem not_mem_of_isDigit {c : Char} (digit : c.isDigit = true) :
    c ∉ '!' :: '-' :: closingSigns := by
  intro member
  have none : ∀ c ∈ '!' :: '-' :: closingSigns, c.isDigit = false :=
    List.all_iff_forall_prop.mp (by decide)
  rw [none c member] at digit
  cases digit

theorem opening_literal {literal : Literal} (whole : literal.Whole) {rest : List Char}
    (junction : Lexeme.Junction rest) :
    Opening ("not" :: blockWords) ('!' :: '-' :: closingSigns) (literal.write ++ rest) := by
  rcases junction.stops with ⟨c, tail, rfl, stop⟩
  cases literal with
  | nil => exact opening_name rfl (by decide) _ tail stop
  | bool value =>
      cases value with
      | true => exact opening_name rfl (by decide) _ tail stop
      | false => exact opening_name rfl (by decide) _ tail stop
  | num text =>
      rcases Lexeme.head_of_number whole with ⟨head, digits, shape, digit⟩
      rw [shape]
      exact .sign _ (Lexeme.isNameStart_of_isDigit digit) (isSpace_of_isDigit digit)
        (not_mem_of_isDigit digit)
  | str spelling => exact .sign _ (by decide) (by decide) (by decide)
  | atom name => exact .sign _ (by decide) (by decide) (by decide)

/-- A point and a name are a suffix. -/
theorem junction_attr {name : String} (read : Lexeme.identifier name.toList = .ok name [])
    (rest : List Char) : Lexeme.Junction ('.' :: (name.toList ++ rest)) := by
  rcases Lexeme.head_of_identifier read with ⟨c, tail, shape, starts⟩
  rw [shape]
  exact .attr (tail ++ rest) starts

/-- Expressions that hold together at least as tightly as a suffix begin with no
operator. -/
theorem opening_of_strength : (expr : Expr) -> 8 ≤ expr.strength -> expr.WellFormed ->
    {rest : List Char} -> Lexeme.Junction rest ->
    Opening ("not" :: blockWords) ('!' :: '-' :: closingSigns) (expr.write ++ rest)
  | .lit literal, _, formed, rest, junction => opening_literal formed junction
  | .assign name, _, _, rest, _ => .sign _ (by decide) (by decide) (by decide)
  | .var name, _, formed, rest, junction => by
      rcases junction.stops with ⟨c, tail, rfl, stop⟩
      have read := Lexeme.identifier_of_name formed
      have inside : "not" :: blockWords ⊆ Lexeme.reserved := by
        decide
      exact opening_name read.1 (fun member => read.2 (inside member)) _ tail stop
  | .list items, _, _, rest, _ => .sign _ (by decide) (by decide) (by decide)
  | .tuple items, _, _, rest, _ => .sign _ (by decide) (by decide) (by decide)
  | .attr object name, _, formed, rest, junction => by
      rw [write_attr_append]
      exact opening_of_strength object formed.1 formed.2.1 (junction_attr formed.2.2 rest)
  | .index object key, _, formed, rest, junction => by
      have bracket : Lexeme.Junction ('[' :: (key.write ++ ']' :: rest)) :=
        .mark _ (by decide)
      rw [write_index_append]
      exact opening_of_strength object formed.1 formed.2.1 bracket
  | .call name args, _, formed, rest, _ => by
      have read := Lexeme.identifier_of_name formed.1
      have inside : "not" :: blockWords ⊆ Lexeme.reserved := by
        decide
      rw [write_call_append]
      exact opening_name read.1 (fun member => read.2 (inside member)) _
        (writeItems args ++ ')' :: rest) (by decide)
  | .group inner, _, _, rest, _ => .sign _ (by decide) (by decide) (by decide)
  | .binary op left right, tight, _, rest, _ => by
      have loose := op.level_lt
      have found : op.level = strength (.binary op left right) := rfl
      omega
  | .unary op operand, tight, _, rest, _ => by
      have found : strength (.unary op operand) = 7 := rfl
      omega

theorem opening_unary (op : UnaryOp) (tail : List Char) :
    Opening blockWords closingSigns (op.text.toList ++ ' ' :: tail) := by
  cases op with
  | bang => exact .sign _ (by decide) (by decide) (by decide)
  | not => exact opening_name rfl (by decide) closingSigns tail (by decide)
  | minus => exact .sign _ (by decide) (by decide) (by decide)

theorem junction_space (tail : List Char) : Lexeme.Junction (' ' :: tail) :=
  .mark tail (by decide)

theorem opening_write : (expr : Expr) -> expr.WellFormed -> {rest : List Char} ->
    Lexeme.Junction rest -> Opening blockWords closingSigns (expr.write ++ rest)
  | .binary op left right, formed, rest, _ => by
      rw [write_binary_append]
      exact opening_write left formed.2.1
        (junction_space (op.text.toList ++ ' ' :: (right.write ++ rest)))
  | .unary op operand, formed, rest, _ => by
      rw [write_unary_append]
      exact opening_unary op (operand.write ++ rest)
  | .lit literal, formed, rest, junction
  | .assign name, formed, rest, junction
  | .var name, formed, rest, junction
  | .list items, formed, rest, junction
  | .tuple items, formed, rest, junction
  | .attr object name, formed, rest, junction
  | .index object key, formed, rest, junction
  | .call name args, formed, rest, junction
  | .group inner, formed, rest, junction =>
      (opening_of_strength _ (Nat.le_of_ble_eq_true rfl) formed junction).mono
        (List.subset_cons_self ..) (List.subset_cons_of_subset _ (List.subset_cons_self ..))

end Expr
end HtmlTemplate
