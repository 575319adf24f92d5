import HtmlTemplate.Proofs.Blocks.Templates

namespace HtmlTemplate

/-!
# Patterns read as expressions

A written pattern is a written expression as well.  The same text is read as the
same tree, apart from a number with a minus sign: in a pattern this is one
literal, in an expression an operator in front of a literal.  So the text needs
at most one level more than the brackets of the pattern take.
-/

open Reader

namespace Literal

/-- The expression that is written like a literal of a pattern. -/
def toExpr : Literal -> Expr
  | .num text =>
      match text.toList with
      | '-' :: digits => .unary .minus (.lit (.num (String.ofList digits)))
      | _ => .lit (.num text)
  | other => .lit other

theorem toExpr_of_minus {text : String} {digits : List Char} (shape : text.toList = '-' :: digits) :
    toExpr (.num text) = .unary .minus (.lit (.num (String.ofList digits))) := by
  simp only [toExpr, shape]

theorem toExpr_of_ne {text : String} {c : Char} {tail : List Char} (shape : text.toList = c :: tail)
    (unsigned : c ≠ '-') : toExpr (.num text) = .lit (.num text) := by
  simp only [toExpr, shape]
  split
  · rename_i minus
    cases minus
    exact absurd rfl unsigned
  · rfl

/-- A literal of a pattern is a literal of an expression, or one with a minus
sign in front. -/
theorem WholeInPattern.toExpr_cases {literal : Literal} (whole : literal.WholeInPattern) :
    literal.Whole ∧ literal.toExpr = .lit literal ∨
      ∃ digits, (Literal.num (String.ofList digits)).Whole ∧ literal.write = '-' :: digits ∧
        literal.toExpr = .unary .minus (.lit (.num (String.ofList digits))) := by
  rcases whole.cases with plain | ⟨text, rfl, signed⟩
  · refine .inl ⟨plain, ?_⟩
    cases literal with
    | num text =>
        rcases Lexeme.head_of_number plain with ⟨c, tail, shape, digit⟩
        have unsigned : c ≠ '-' := by
          rintro rfl
          cases digit
        exact toExpr_of_ne shape unsigned
    | nil | bool _ | str _ | atom _ => rfl
  · rcases Lexeme.head_of_signedNumber signed with ⟨c, digits, shape, _⟩
    rw [shape] at signed
    by_cases minus : c = '-'
    · subst minus
      have opened : optional (char '-') ('-' :: digits) = .ok (some ()) digits := rfl
      have read := (bind_of_ok opened).symm.trans signed
      rcases eq_ok_of_bind read with ⟨chars, last, found, done⟩
      cases done
      have same : '-' :: chars = '-' :: digits := by
        rw [← shape, String.toList_ofList]
        rfl
      cases same
      refine .inr ⟨digits, ?_, shape, toExpr_of_minus shape⟩
      simp only [Whole, write, String.toList_ofList]
      exact bind_of_ok found
    · have unsigned : char '-' (c :: digits) = .miss (c :: digits) := if_neg minus
      have number := (bind_of_ok (optional_of_miss unsigned)).symm.trans signed
      rw [← shape] at number
      exact .inl ⟨number, toExpr_of_ne shape minus⟩

end Literal

namespace Pattern

mutual

/-- The expression that is written like a pattern. -/
def toExpr : Pattern -> Expr
  | .wildcard => .var "_"
  | .var name => .var name
  | .lit literal => literal.toExpr
  | .tuple items => .tuple (toExprs items)
  | .list items => .list (toExprs items)

/-- The expressions that are written like several patterns. -/
def toExprs : List Pattern -> List Expr
  | [] => []
  | item :: others => toExpr item :: toExprs others

end

theorem toExprs_eq_map (items : List Pattern) : toExprs items = items.map toExpr := by
  induction items with
  | nil => rfl
  | cons item others inductionHypothesis => rw [toExprs, inductionHypothesis, List.map_cons]

end Pattern

namespace Expr

/-! ## Levels without operators -/

section Levels

variable {inside : Nat -> Reader Expr} {room : Nat} {source rest : List Char} {expr : Expr}

theorem suffixed_of_primary (read : primary inside (room + 1) source = .ok expr rest)
    (none : NoSuffix rest) : suffixed inside (room + 1) source = .ok expr rest :=
  (bind_of_ok read).trans (suffixes_of_noSuffix none expr)

theorem prefixed_of_rounds {ops : List UnaryOp} {middle : List Char}
    (rounds : Rounds (spaced readUnaryOp) source ops middle)
    (opening : Opening ("not" :: blockWords) ('!' :: '-' :: closingSigns) middle)
    (read : suffixed inside room middle = .ok expr rest) :
    prefixed (room + ops.length) (suffixed inside) source = .ok (ops.foldr .unary expr) rest := by
  rcases opening.readUnaryOp with ⟨place, missed⟩
  rw [← opening.dropWhile_isSpace] at missed
  have left := (Settles.deeper (room + ops.length) ops.length middle).eq_of_fits (Nat.le_add_left ..)
  rw [Nat.add_sub_cancel] at left
  refine (bind_of_ok (rounds.many_eq (spaced_of_miss missed))).trans ((bind_of_ok left).trans ?_)
  exact bind_of_ok read

theorem tower_of_prefixed (read : prefixed room (suffixed inside) source = .ok expr rest)
    (ends : ∀ level, level < 7 -> ∃ place, operatorAt level (rest.dropWhile isSpace) = .miss place)
    {level : Nat} (inTable : level ≤ 7) : tower inside level room source = .ok expr rest := by
  induction inTable using Nat.decreasingInduction with
  | self => exact read
  | of_succ level below inductionHypothesis =>
      rcases ends level below with ⟨place, missed⟩
      have none : link (operatorAt level) (tower inside (level + 1) room) rest = .miss place :=
        bind_of_miss (spaced_of_miss missed)
      have counted := (Settles.deeper room 0 rest).eq_of_fits (Nat.zero_le room)
      rw [tower_eq_chain inside below, chain_eq]
      refine (bind_of_ok inductionHypothesis).trans ?_
      exact (bind_of_ok ((Rounds.done rest).many_eq none)).trans (bind_of_ok counted)

/-- A list is read once its items are. -/
theorem primary_list {text : List Char} {items : List Expr}
    (stays : (text ++ ']' :: rest).dropWhile isSpace = text ++ ']' :: rest)
    (all : separated (spaced (listItem (inside room))) (text ++ ']' :: rest) =
      .ok items (']' :: rest)) :
    primary inside (room + 1) ('[' :: (text ++ ']' :: rest)) =
      .ok (.list items) (rest.dropWhile isSpace) := by
  rw [primary_of_bracket (by decide)]
  have opened : spaced (char '[') ('[' :: (text ++ ']' :: rest)) =
      .ok () ((text ++ ']' :: rest).dropWhile isSpace) := rfl
  rw [stays] at opened
  have inner : (do
      let items ← separated (spaced (listItem (inside room)))
      let _ ← optional (char ',')
      return items : Reader (List Expr)) (text ++ ']' :: rest) = .ok items (']' :: rest) :=
    (bind_of_ok all).trans (bind_of_ok rfl)
  refine orElse_of_ok ((bind_of_ok opened).trans ?_)
  exact (bind_of_ok (commit_of_ok inner)).trans (bind_of_ok rfl)

/-- A tuple is read once its items are. -/
theorem primary_tuple {text : List Char} {items : List Expr}
    (all : separated (spaced (inside room)) (text ++ '\x7d' :: rest) = .ok items ('\x7d' :: rest)) :
    primary inside (room + 1) ('\x7b' :: (text ++ '\x7d' :: rest)) =
      .ok (.tuple items) (rest.dropWhile isSpace) := by
  have noList := spaced_of_miss (char_spaced_of_ne (by decide : '\x7b' ∈ ['\x7b', '('])
    (text ++ '\x7d' :: rest))
  have opened : char '\x7b' ('\x7b' :: (text ++ '\x7d' :: rest)) = .ok () (text ++ '\x7d' :: rest) :=
    rfl
  rw [primary_of_bracket (by decide)]
  refine (orElse_of_miss (bind_of_miss noList)).trans (orElse_of_ok ?_)
  refine (bind_of_ok opened).trans ((bind_of_ok (commit_of_ok all)).trans (bind_of_ok rfl))

end Levels

/-- A text is read as an expression in front of whatever may follow, with this
much room. -/
def ReadsText (room : Nat) (text : List Char) (expr : Expr) : Prop :=
  ∀ rounds after, room ≤ rounds -> Follow 0 after ->
    tower (readRounds rounds) 0 room (text ++ after) = .ok expr (expr.restOf after)

theorem restOf_foldr_unary (ops : List UnaryOp) (core : Expr) (after : List Char) :
    (ops.foldr .unary core).restOf after = core.restOf after := by
  induction ops with
  | nil => rfl
  | cons op ops inductionHypothesis => exact inductionHypothesis

namespace ReadsText

variable {room : Nat} {text : List Char} {expr : Expr}

/-- Inside of brackets there is one level less. -/
theorem inside (reads : ReadsText room text expr) {rounds : Nat} (enough : room < rounds) {c : Char}
    (mark : c ∈ closingSigns) (tail : List Char) :
    readRounds rounds room (text ++ c :: tail) = .ok expr (c :: tail) := by
  cases rounds with
  | zero => omega
  | succ rounds =>
      have read := reads rounds _ (Nat.le_of_lt_succ enough) (Follow.closer mark tail)
      rwa [restOf_cons (closingSigns_facts c mark).1] at read

/-- A primary expression is read behind some operators in front. -/
theorem of_primary {ops : List UnaryOp} {front : List Char}
    (rounds : ∀ after, Lexeme.Junction after ->
      Rounds (spaced readUnaryOp) (front ++ (text ++ after)) ops (text ++ after))
    (opening : ∀ after, Lexeme.Junction after ->
      Opening ("not" :: blockWords) ('!' :: '-' :: closingSigns) (text ++ after))
    (read : ∀ rounds after, room < rounds -> Lexeme.Junction after ->
      primary (readRounds rounds) (room + 1) (text ++ after) = .ok expr (expr.restOf after)) :
    ReadsText (room + 1 + ops.length) (front ++ text) (ops.foldr .unary expr) := by
  intro levels after enough follow
  have junction := follow.junction
  have less : room < levels := by omega
  have suffixed := suffixed_of_primary (read levels after less junction) (noSuffix_restOf expr follow)
  have ahead := prefixed_of_rounds (rounds after junction) (opening after junction) suffixed
  rw [restOf_foldr_unary, List.append_assoc]
  refine tower_of_prefixed ahead (fun level inTable => ?_) (Nat.zero_le 7)
  rw [dropWhile_restOf]
  exact follow.noOperator level (Nat.zero_le level) inTable

/-- A primary expression without an operator in front. -/
theorem of_bare
    (opening : ∀ after, Lexeme.Junction after ->
      Opening ("not" :: blockWords) ('!' :: '-' :: closingSigns) (text ++ after))
    (read : ∀ rounds after, room < rounds -> Lexeme.Junction after ->
      primary (readRounds rounds) (room + 1) (text ++ after) = .ok expr (expr.restOf after)) :
    ReadsText (room + 1) text expr :=
  @of_primary room text expr [] [] (fun _ _ => .done _) opening read

end ReadsText

end Expr

namespace Pattern

open HtmlTemplate.Expr

/-! ## Names and literals -/

theorem readsText_name {name : String} (whole : Lexeme.name name.toList = .ok name [])
    (room : Nat) : ReadsText (room + 1) name.toList (.var name) := by
  refine .of_bare (fun after junction => ?_) fun rounds after _ junction => ?_
  · rcases junction.stops with ⟨c, tail, rfl, stop⟩
    have read := Lexeme.identifier_of_name whole
    have inside : "not" :: blockWords ⊆ Lexeme.reserved := by
      decide
    exact opening_name read.1 (fun member => read.2 (inside member)) _ tail stop
  · exact (settles_primary_var whole junction).eq_of_fits (Nat.succ_pos room)

theorem readsText_literal {literal : Literal} (whole : literal.WholeInPattern) (room : Nat) :
    ReadsText (room + 2) literal.write literal.toExpr := by
  rcases whole.toExpr_cases with ⟨whole, same⟩ | ⟨digits, whole, shape, same⟩
  · rw [same]
    exact .of_bare (fun _ junction => opening_literal whole junction)
      fun _ _ _ junction => primary_lit whole junction
  · have written : (Literal.num (String.ofList digits)).write = digits := String.toList_ofList
    rw [same, shape]
    refine @ReadsText.of_primary room digits (.lit (.num (String.ofList digits))) [.minus] ['-']
      (fun after junction => ?_) (fun after junction => ?_) fun rounds after _ junction => ?_
    · have opening := opening_literal whole junction
      rw [written] at opening
      have found : readUnaryOp ('-' :: (digits ++ after)) = .ok .minus (digits ++ after) := rfl
      have read : spaced readUnaryOp ('-' :: (digits ++ after)) = .ok .minus (digits ++ after) :=
        spaced_eq_ok found rfl opening.dropWhile_isSpace
      exact .round read (Nat.lt_succ_self _) (.done _)
    · have opening := opening_literal whole junction
      rwa [written] at opening
    · have read : primary (readRounds rounds) (room + 1) _ = _ := primary_lit whole junction
      rwa [written] at read

/-! ## Brackets -/

section Brackets

variable {items : List Pattern} {closer : Char} {after : List Char} {rounds room : Nat}

/-- No white space stands in front of the items. -/
theorem dropWhile_writeItems (formed : ∀ item ∈ items, item.WellFormed)
    (known : closer ∈ closingBrackets) (after : List Char) :
    (writeItems items ++ closer :: after).dropWhile isSpace = writeItems items ++ closer :: after := by
  cases items with
  | nil =>
      exact dropWhile_isSpace_closer (closingSigns_facts closer
        (mem_closingSigns known (.inr rfl))).1 after
  | cons pattern others =>
      rcases writeOthers_append_cons others known after with ⟨c, tail, shape, mark⟩
      rw [writeItems, List.append_assoc, shape]
      exact (opening_write (formed pattern (List.mem_cons_self ..))
        (.closingSign mark tail)).dropWhile_isSpace

/-- Items are read one after the other, each as its own expression. -/
theorem separated_of_reads {item : Reader Expr} (formed : ∀ item ∈ items, item.WellFormed)
    (reads : ∀ pattern ∈ items, ∀ c tail, c ∈ closingSigns ->
      item (pattern.write ++ c :: tail) = .ok pattern.toExpr (c :: tail))
    (known : closer ∈ closingBrackets) (none : ∃ place, item (closer :: after) = .miss place) :
    separated (spaced item) (writeItems items ++ closer :: after) =
      .ok (toExprs items) (closer :: after) := by
  rw [toExprs_eq_map]
  refine separated_writeItems (fun pattern member c tail mark => ?_) known none
  exact spaced_eq_ok (reads pattern member c tail mark)
    (opening_write (formed pattern member) (.closingSign mark tail)).dropWhile_isSpace
    (dropWhile_isSpace_closer (closingSigns_facts c mark).1 tail)

/-- No item begins with a closing bracket, as long as there is a level for one. -/
theorem readRounds_closer (known : closer ∈ closingBrackets) (enough : room < rounds)
    (positive : 0 < room) (tail : List Char) :
    readRounds rounds room (closer :: tail) = .miss (closer :: tail) := by
  cases rounds with
  | zero => omega
  | succ rounds =>
      exact (settles_tower_closer (readRounds rounds) known tail (Nat.zero_le 7)).eq_of_fits positive

variable (formed : ∀ item ∈ items, item.WellFormed)
  (reads : ∀ pattern ∈ items, ReadsText room pattern.write pattern.toExpr) (positive : 0 < room)

include formed reads positive

theorem readsText_tuple : ReadsText (room + 1) (write (.tuple items)) (toExpr (.tuple items)) := by
  refine .of_bare (fun after _ => ?_) fun rounds after enough _ => ?_
  · exact .sign _ (by decide) (by decide) (by decide)
  · have known : '\x7d' ∈ closingBrackets := by
      decide
    rw [write_tuple_append, toExpr]
    refine primary_tuple (separated_of_reads formed (fun pattern member c tail mark => ?_) known
      ⟨_, readRounds_closer known enough positive after⟩)
    exact (reads pattern member).inside enough mark tail

/-- None of the items is the key of a keyword. -/
theorem readsText_list : ReadsText (room + 1) (write (.list items)) (toExpr (.list items)) := by
  refine .of_bare (fun after _ => ?_) fun rounds after enough _ => ?_
  · exact .sign _ (by decide) (by decide) (by decide)
  · have known : ']' ∈ closingBrackets := by
      decide
    have noKey : keywordPair (readRounds rounds room) (']' :: after) = .miss _ := rfl
    have none := readRounds_closer known enough positive after
    rw [← ReadsItems.listItem_of_miss noKey] at none
    rw [write_list_append, toExpr]
    refine primary_list (dropWhile_writeItems formed known after)
      (separated_of_reads formed (fun pattern member c tail mark => ?_) known ⟨_, none⟩)
    have opening := opening_write (formed pattern member) (.closingSign mark tail)
    rcases opening.keywordKey with ⟨place, missed⟩
    rw [ReadsItems.listItem_of_miss (bind_of_miss missed)]
    exact (reads pattern member).inside enough mark tail

end Brackets

theorem wellFormed_of_mem {items : List Pattern} (formed : AllWellFormed items) :
    ∀ item ∈ items, item.WellFormed := by
  induction items with
  | nil => exact List.forall_mem_nil _
  | cons item others inductionHypothesis =>
      exact List.forall_mem_cons.mpr ⟨formed.1, inductionHypothesis formed.2⟩

/-! ## All patterns -/

mutual

/-- A written pattern is read as its expression if there is a level for each of
its brackets and two more, one of them for a minus sign. -/
theorem readsText_write : (pattern : Pattern) -> pattern.WellFormed -> ∀ {room},
    pattern.depth + 2 ≤ room -> ReadsText room pattern.write pattern.toExpr
  | .wildcard, _, room, fits => by
      rcases Nat.exists_eq_add_of_le' fits with ⟨less, rfl⟩
      have whole : Lexeme.name "_".toList = .ok "_" [] := rfl
      exact readsText_name whole (less + 1)
  | .var name, formed, room, fits => by
      rcases Nat.exists_eq_add_of_le' fits with ⟨less, rfl⟩
      exact readsText_name formed.1 (less + 1)
  | .lit literal, formed, room, fits => by
      rcases Nat.exists_eq_add_of_le' fits with ⟨less, rfl⟩
      exact readsText_literal formed less
  | .tuple items, formed, room, fits => by
      cases room with
      | zero => omega
      | succ less =>
          have inside : depthAll items + 2 ≤ less := Nat.le_of_succ_le_succ fits
          exact readsText_tuple (wellFormed_of_mem formed) (readsText_writeAll items formed inside)
            (by omega)
  | .list items, formed, room, fits => by
      cases room with
      | zero => omega
      | succ less =>
          have inside : depthAll items + 2 ≤ less := Nat.le_of_succ_le_succ fits
          exact readsText_list (wellFormed_of_mem formed) (readsText_writeAll items formed inside)
            (by omega)

theorem readsText_writeAll : (items : List Pattern) -> AllWellFormed items -> ∀ {room},
    depthAll items + 2 ≤ room ->
      ∀ pattern ∈ items, ReadsText room pattern.write pattern.toExpr
  | [], _, _, _ => fun _ impossible => nomatch impossible
  | pattern :: others, formed, room, fits => by
      have both := Node.fits_both fits
      intro other member
      cases member with
      | head => exact readsText_write pattern formed.1 both.1
      | tail _ member => exact readsText_writeAll others formed.2 both.2 other member

end

end Pattern

/-! ## Tags -/

namespace Node

variable {pattern : Pattern} {room : Nat}

/-- No arrow follows the pattern, so the tag begins no clause. -/
theorem terminator_pattern (formed : pattern.WellFormed) (fits : pattern.depth < room)
    (after : List Char) :
    ∃ place, terminator room (' ' :: (pattern.write ++ (closeText ++ after))) = .miss place := by
  have junction := Expr.junction_space ('%' :: '>' :: after)
  have opening := Pattern.opening_write formed junction
  have words : ["end", "else"] ⊆ Expr.blockWords := by
    decide
  have read := Pattern.read_write pattern formed fits _ junction
  have unbound : Unbound room (pattern.write ++ (closeText ++ after)) :=
    .stopped read rfl (by decide) (by decide)
  exact terminator_of_opening (opening.mono words (List.Subset.refl _))
    (clauseHead_of_unbound opening.dropWhile_isSpace unbound)

theorem readAction_pattern (formed : pattern.WellFormed) (fits : pattern.depth + 2 ≤ room)
    (body : Reader (List Node)) (after : List Char) :
    readAction .standard room body (pattern.write ++ (closeText ++ after)) =
      .ok (.value pattern.toExpr) after := by
  have opening := Pattern.opening_write formed (Expr.junction_space ('%' :: '>' :: after))
  have read : Expr.read room (pattern.write ++ (closeText ++ after)) =
      .ok pattern.toExpr (pattern.toExpr.restOf (closeText ++ after)) :=
    Pattern.readsText_write pattern formed fits room _ (Nat.le_refl room) (.closeTag ('>' :: after))
  exact (readAction_of_opening opening (by decide)).trans
    (readPlain_of_read read (Expr.dropWhile_restOf pattern.toExpr (closeText ++ after)) body)

/-- A tag that prints a written pattern is read as the expression that is written
like it. -/
theorem readItem_pattern (formed : pattern.WellFormed) (fits : pattern.depth + 2 ≤ room)
    (after : List Char) :
    readItem (room + 1) (statementOf (room + 1))
      ('<' :: '%' :: '=' :: ' ' :: (pattern.write ++ (closeText ++ after))) =
      .ok (.print (.value pattern.toExpr)) after := by
  have opening := Pattern.opening_write formed (Expr.junction_space ('%' :: '>' :: after))
  have skipped : spaces (' ' :: (pattern.write ++ (closeText ++ after))) =
      .ok () (pattern.write ++ (closeText ++ after)) :=
    congrArg (Reply.ok ()) opening.dropWhile_isSpace
  have action := readAction_pattern formed fits (readAll .standard room) after
  rcases terminator_pattern formed (by omega : pattern.depth < room + 1) after with ⟨place, noEnd⟩
  refine (readItem_signed noEnd).trans ((bind_of_ok rfl).trans ?_)
  exact (bind_of_ok skipped).trans (bind_of_ok action)

/-- A template that prints a written pattern is read, unless the brackets of the
pattern go too deep. -/
theorem parse_pattern (formed : pattern.WellFormed) (shallow : pattern.depth ≤ 125)
    (template : Option String) :
    parse .standard template ("<%= " ++ String.ofList pattern.write ++ " %>") =
      .ok [.print (.value pattern.toExpr)] := by
  have read := readItem_pattern formed (Nat.add_le_add_right shallow 2) []
  have source : ("<%= " ++ String.ofList pattern.write ++ " %>").toList =
      '<' :: '%' :: '=' :: ' ' :: (pattern.write ++ (closeText ++ [])) := by
    simp only [String.toList_append, String.toList_ofList]
    rfl
  refine parse_of_rounds ?_ template
  rw [source]
  exact .round read (Nat.succ_pos _) (.done [])

end Node
end HtmlTemplate
