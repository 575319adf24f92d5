import HtmlTemplate.Proofs.Syntax.ReadBack

namespace HtmlTemplate

/-!
# Expressions tried as patterns

Before a tag is read it is tried as the end of a block and as the head of a
clause, so an expression is first read as a pattern.  A literal, a name, a list
or a tuple may well be a pattern.  What saves the expression is that no arrow
follows: the pattern either is the whole expression or ends in the middle of it,
where an operator, a suffix or a parenthesis stands.

The trial can also go too deep.  Patterns have one level more than the expression
that is read after them, so this happens only where the expression itself does
not fit.
-/

open Reader

namespace Pattern

variable {α β : Type} {deep : Prop} {source after : List Char} {room : Nat}

/-- A pattern ended in the middle of an expression. -/
structure Cut (rest : List Char) : Prop where
  head : ∃ c tail, rest.dropWhile isSpace = c :: tail ∧ isSpace c = false ∧
    c ∉ Expr.closingSigns
  noArrow : ∃ place, exactly ['-', '>'] (rest.dropWhile isSpace) = .miss place

theorem Cut.of_head {c : Char} (known : c ∈ ['.', '[', '(']) (tail : List Char) :
    Cut (c :: tail) := by
  simp only [List.mem_cons, List.not_mem_nil, or_false] at known
  rcases known with rfl | rfl | rfl
  all_goals exact ⟨⟨_, tail, rfl, by decide, by decide⟩, ⟨_, rfl⟩⟩

theorem Cut.operator (op : BinaryOp) (tail : List Char) :
    Cut (' ' :: (op.text.toList ++ ' ' :: tail)) := by
  cases op with
  | strict op =>
      cases op
      all_goals exact ⟨⟨_, _, rfl, by decide, by decide⟩, ⟨_, rfl⟩⟩
  | _ => exact ⟨⟨_, _, rfl, by decide, by decide⟩, ⟨_, rfl⟩⟩

/-- The replies of a pattern reader on a written expression. -/
inductive Quiet (deep : Prop) (after : List Char) : Reply α -> Prop where
  | miss (place : List Char) : Quiet deep after (.miss place)
  | tooDeep (place : List Char) (excess : deep) :
      Quiet deep after (.fail place (some .tooDeep))
  | whole (value : α) : Quiet deep after (.ok value after)
  | cut (value : α) {rest : List Char} (cut : Cut rest) : Quiet deep after (.ok value rest)

namespace Quiet

theorem mono {more : Prop} {reply : Reply α} (quiet : Quiet deep after reply)
    (implied : deep -> more) : Quiet more after reply := by
  cases quiet with
  | miss place => exact .miss place
  | tooDeep place excess => exact .tooDeep place (implied excess)
  | whole value => exact .whole value
  | cut value cut => exact .cut value cut

/-- The expression goes on after its first part. -/
theorem extend {last : List Char} {reply : Reply α} (quiet : Quiet deep after reply)
    (cut : Cut after) : Quiet deep last reply := by
  cases quiet with
  | miss place => exact .miss place
  | tooDeep place excess => exact .tooDeep place excess
  | whole value => exact .cut value cut
  | cut value cut => exact .cut value cut

theorem map {wrap : α -> β} {reader : Reader α} (quiet : Quiet deep after (reader source)) :
    Quiet deep after ((do let value ← reader; return wrap value : Reader β) source) := by
  cases reply : reader source with
  | miss place =>
      rw [bind_of_miss reply]
      exact .miss place
  | fail place cause =>
      rw [reply] at quiet
      rw [bind_of_fail reply]
      cases quiet with
      | tooDeep _ excess => exact .tooDeep place excess
  | ok value rest =>
      rw [reply] at quiet
      rw [bind_of_ok reply]
      cases quiet with
      | whole _ => exact .whole (wrap value)
      | cut _ cut => exact .cut (wrap value) cut

theorem orElse {reader second : Reader α} {place : List Char}
    (quiet : Quiet deep after (reader source)) (missed : second source = .miss place) :
    Quiet deep after ((reader <|> second) source) := by
  cases reply : reader source with
  | miss _ =>
      rw [orElse_of_miss reply, missed]
      exact .miss place
  | fail _ cause => rwa [orElse_of_fail reply, ← reply]
  | ok value rest => rwa [orElse_of_ok reply, ← reply]

end Quiet

/-! ## Items -/

/-- The replies of a reader of pattern items on written items. -/
inductive QuietItems (deep : Prop) (closer : Char) (after : List Char) : Reply (List α) -> Prop
    where
  | tooDeep (place : List Char) (excess : deep) :
      QuietItems deep closer after (.fail place (some .tooDeep))
  | all (values : List α) : QuietItems deep closer after (.ok values (closer :: after))
  | stopped (values : List α) {c : Char} (tail : List Char) (space : isSpace c = false)
      (other : c ≠ closer) : QuietItems deep closer after (.ok values (c :: tail))

theorem separatedFrom_of_ne {reader : Reader α} {values : List α} {budget : List Char} {c : Char}
    (other : c ≠ ',') (tail : List Char) :
    separatedFrom reader values budget (c :: tail) = .ok values.reverse (c :: tail) := by
  unfold separatedFrom
  split
  · rfl
  · split
    · rename_i same
      cases same
      exact absurd rfl other
    · rfl

theorem QuietItems.mono {more : Prop} {closer : Char} {reply : Reply (List α)}
    (quiet : QuietItems deep closer after reply) (implied : deep -> more) :
    QuietItems more closer after reply := by
  cases quiet with
  | tooDeep place excess => exact .tooDeep place (implied excess)
  | all values => exact .all values
  | stopped values tail space other => exact .stopped values tail space other

section Items

variable {item : Reader α} {closer : Char} {exprs : List Expr}

/-- Each item is quiet in front of a comma or of the closing bracket. -/
structure QuietInside (item : Reader α) (room : Nat) (closer : Char) (exprs : List Expr) : Prop
    extends Expr.Bracketed closer exprs where
  reads : ∀ expr ∈ exprs, ∀ c tail, (c = ',' ∨ c = closer) ->
    Quiet (room ≤ expr.need) (c :: tail) (item (expr.write ++ c :: tail))
  none : ∀ tail, (∃ place, item (closer :: tail) = .miss place) ∨
    room = 0 ∧ TooDeep (item (closer :: tail))

/-- What the reader of items goes on with after it tried one item. -/
theorem quietItems_of_item (source : List Char) {fallback : List Char} {next : α -> Reader (List α)}
    {missed : List α} {c : Char} (bracketed : Expr.Bracketed closer exprs) (mark : c = ',' ∨ c = closer)
    {tail : List Char} (quiet : Quiet deep (c :: tail) (item (source.dropWhile isSpace)))
    (onMiss : QuietItems deep closer after (.ok missed fallback))
    (onWhole : ∀ value, QuietItems deep closer after (next value (c :: tail)))
    (onCut : ∀ value other tail, other ≠ ',' -> isSpace other = false -> other ≠ closer ->
      QuietItems deep closer after (next value (other :: tail))) :
    QuietItems deep closer after (match spaced item source with
      | .ok value rest => next value rest
      | .miss _ => .ok missed fallback
      | .fail place cause => .fail place cause) := by
  cases reply : item (source.dropWhile isSpace) with
  | miss place =>
      rw [spaced_of_miss reply]
      exact onMiss
  | fail place cause =>
      rw [reply] at quiet
      cases quiet with
      | tooDeep _ excess =>
          rw [spaced_of_fail reply]
          exact .tooDeep place excess
  | ok value rest =>
      rw [reply] at quiet
      rw [spaced_of_ok reply]
      cases quiet with
      | whole _ =>
          rw [Expr.dropWhile_isSpace_closer (bracketed.facts mark).1]
          exact onWhole value
      | cut _ cut =>
          rcases cut.head with ⟨other, tail, shape, space, free⟩
          rw [shape]
          refine onCut value other tail ?_ space ?_
          · rintro rfl
            exact free (by decide)
          · rintro rfl
            exact free (Expr.mem_closingSigns bracketed.known (.inr rfl))

namespace QuietInside

theorem tail {expr : Expr} (quiet : QuietInside item room closer (expr :: exprs)) :
    QuietInside item room closer exprs where
  toBracketed := quiet.toBracketed.tail
  reads other member := quiet.reads other (List.mem_cons_of_mem _ member)
  none := quiet.none

theorem separatedFrom (exprs : List Expr) (quiet : QuietInside item room closer exprs)
    (after : List Char) (before : List α) (budget : List Char) :
    QuietItems (∃ expr ∈ exprs, room ≤ expr.need) closer after
      (Reader.separatedFrom (spaced item) before budget
        (Expr.writeOthers exprs ++ closer :: after)) := by
  have noComma := quiet.ne_comma
  have comma (tail : List Char) : QuietItems (∃ expr ∈ exprs, room ≤ expr.need) closer after
      (.ok before.reverse (',' :: tail)) :=
    .stopped _ tail (by decide) noComma.symm
  induction exprs generalizing before budget with
  | nil =>
      rw [show Expr.writeOthers [] ++ closer :: after = closer :: after from rfl,
        separatedFrom_of_ne noComma]
      exact .all before.reverse
  | cons expr others inductionHypothesis =>
      rcases Expr.writeOthers_append_cons others after closer with ⟨c, tail, shape, mark⟩
      rw [Expr.writeOthers_cons_append, shape]
      cases budget with
      | nil => exact comma _
      | cons first budget =>
          have reads := quiet.reads expr (List.mem_cons_self ..) c tail mark
          rw [← (quiet.opening (List.mem_cons_self ..) mark tail).dropWhile_isSpace] at reads
          refine quietItems_of_item (' ' :: (expr.write ++ c :: tail)) quiet.toBracketed mark
            (reads.mono fun excess => ⟨expr, List.mem_cons_self .., excess⟩) (comma _) ?_ ?_
          · intro value
            have next := inductionHypothesis quiet.tail (value :: before) budget
              fun tail => .stopped _ tail (by decide) noComma.symm
            rw [shape] at next
            refine next.mono fun found => ?_
            rcases found with ⟨other, member, excess⟩
            exact ⟨other, List.mem_cons_of_mem _ member, excess⟩
          · intro value other tail free space different
            rw [separatedFrom_of_ne free]
            exact .stopped _ tail space different

theorem separated (exprs : List Expr) (quiet : QuietInside item room closer exprs)
    (after : List Char) :
    QuietItems (room ≤ Expr.needAll exprs) closer after
      (Reader.separated (spaced item) (Expr.writeItems exprs ++ closer :: after)) := by
  cases exprs with
  | nil =>
      have stays := Expr.dropWhile_isSpace_closer (quiet.facts (.inr rfl)).1 after
      rcases quiet.none after with ⟨place, missed⟩ | ⟨rfl, place, failed⟩
      · rw [← stays] at missed
        have none : Reader.separated (spaced item) (closer :: after) = .ok [] (closer :: after) := by
          simp only [Reader.separated, spaced_of_miss missed]
        rw [show Expr.writeItems [] ++ closer :: after = closer :: after from rfl, none]
        exact .all []
      · rw [← stays] at failed
        have deep : Reader.separated (spaced item) (closer :: after) =
            .fail place (some .tooDeep) := by
          simp only [Reader.separated, spaced_of_fail failed]
        rw [show Expr.writeItems [] ++ closer :: after = closer :: after from rfl, deep]
        exact .tooDeep place (Nat.zero_le _)
  | cons expr others =>
      rcases Expr.writeOthers_append_cons others after closer with ⟨c, tail, shape, mark⟩
      have needs (other : Expr) (member : other ∈ expr :: others) (excess : room ≤ other.need) :
          room ≤ Expr.needAll (expr :: others) := by
        have all := (Expr.needAll_le_iff.mp (Nat.le_refl (Expr.needAll (expr :: others)))).2
        exact Nat.le_trans excess (all other member)
      have reads := quiet.reads expr (List.mem_cons_self ..) c tail mark
      have opening := quiet.opening (List.mem_cons_self ..) mark tail
      rw [← opening.dropWhile_isSpace] at reads
      rw [Expr.writeItems_cons_append, shape]
      refine quietItems_of_item (expr.write ++ c :: tail) quiet.toBracketed mark
        (reads.mono fun excess => needs expr (List.mem_cons_self ..) excess) ?_ ?_ ?_
      · rcases opening.head with ⟨other, rest, shape, space, free⟩
        rw [shape]
        refine .stopped [] rest space ?_
        rintro rfl
        exact free (Expr.mem_closingSigns quiet.known (.inr rfl))
      · intro value
        have next := separatedFrom others quiet.tail after [value] (c :: tail)
        rw [shape] at next
        refine next.mono fun found => ?_
        rcases found with ⟨other, member, excess⟩
        exact needs other (List.mem_cons_of_mem _ member) excess
      · intro value other tail free space different
        rw [separatedFrom_of_ne free]
        exact .stopped _ tail space different

end QuietInside

end Items

theorem readItems_of_miss {opener closer : Char} {item : Reader Pattern}
    (missed : char opener source = .miss source) :
    readItems opener closer item source = .miss source :=
  bind_of_miss missed

theorem quiet_readItems (opener : Char) {closer : Char} {item : Reader Pattern} {exprs : List Expr}
    (quiet : QuietInside item room closer exprs) (after : List Char) :
    Quiet (room ≤ Expr.needAll exprs) after
      (readItems opener closer item (opener :: (Expr.writeItems exprs ++ closer :: after))) := by
  have items := quiet.separated exprs after
  have opened : char opener (opener :: (Expr.writeItems exprs ++ closer :: after)) =
      .ok () (Expr.writeItems exprs ++ closer :: after) := if_pos rfl
  have start : readItems opener closer item
      (opener :: (Expr.writeItems exprs ++ closer :: after)) =
      (do
        let items ← separated (spaced item)
        spaces
        char closer
        return items) (Expr.writeItems exprs ++ closer :: after) := bind_of_ok opened
  rw [start]
  cases reply : separated (spaced item) (Expr.writeItems exprs ++ closer :: after) with
  | miss place =>
      rw [reply] at items
      cases items
  | fail place cause =>
      rw [reply] at items
      rw [bind_of_fail reply]
      cases items with
      | tooDeep _ excess => exact .tooDeep place excess
  | ok values rest =>
      rw [reply] at items
      rw [bind_of_ok reply]
      have spaced (c : Char) (tail : List Char) (space : isSpace c = false) :
          spaces (c :: tail) = .ok () (c :: tail) := by
        simp only [spaces, Expr.dropWhile_isSpace_closer space]
      cases items with
      | all _ =>
          have closed : char closer (closer :: after) = .ok () after := if_pos rfl
          rw [bind_of_ok (spaced closer after (quiet.facts (.inr rfl)).1), bind_of_ok closed]
          exact .whole values
      | @stopped _ c tail space other =>
          have missed : char closer (c :: tail) = .miss (c :: tail) := if_neg other
          rw [bind_of_ok (spaced c tail space), bind_of_miss missed]
          exact .miss (c :: tail)

/-! ## Literals, names and signs -/

/-- Without a minus sign patterns have the literals of expressions. -/
theorem patternLiteral_eq (missed : char '-' source = .miss source) :
    Lexeme.patternLiteral source = Lexeme.literal source := by
  have number : Lexeme.signedNumber source = Lexeme.number source :=
    bind_of_ok (optional_of_miss missed)
  simp only [Lexeme.patternLiteral, Lexeme.literal, HOrElse.hOrElse, OrElse.orElse, orElse, number]

theorem char_minus_of_opening {words : List String} {signs : List Char}
    (opening : Expr.Opening words ('!' :: '-' :: signs) source) :
    char '-' source = .miss source := by
  cases opening with
  | word read free stop => exact Expr.char_of_identifier read (by decide)
  | sign tail start space free =>
      refine if_neg ?_
      rintro rfl
      exact free (List.mem_cons_of_mem _ (List.mem_cons_self ..))

/-- A literal is tried first, whatever room there is. -/
theorem read_of_patternLiteral {literal : Literal}
    (found : Lexeme.patternLiteral source = .ok literal after) (room : Nat) :
    read room source = .ok (.lit literal) after := by
  cases room with
  | zero => exact orElse_of_ok (bind_of_ok found)
  | succ less => exact orElse_of_ok (bind_of_ok found)

theorem quiet_lit {literal : Literal} (whole : literal.Whole) (junction : Lexeme.Junction after) :
    Quiet deep after (read room (literal.write ++ after)) := by
  have found := (patternLiteral_eq (char_minus_of_opening
    (Expr.opening_literal whole junction))).trans (Lexeme.literal_write whole junction)
  rw [read_of_patternLiteral found]
  exact .whole (Pattern.lit literal)

theorem readName_of_name {name : String} (read : Lexeme.name source = .ok name after) :
    ∃ pattern, readName source = .ok pattern after := by
  have word := Lexeme.identifier_of_name read
  have free : Lexeme.reserved.contains name = false := by
    rw [List.contains_eq_mem]
    exact decide_eq_false word.2
  by_cases wild : name.toList.head? = some '_'
  · refine ⟨.wildcard, ?_⟩
    simp only [readName, word.1, if_pos wild]
  · refine ⟨.var name, ?_⟩
    simp only [readName, word.1, if_neg wild, free, Bool.false_eq_true, if_false]

theorem patternLiteral_of_name {name : String} (read : Lexeme.name source = .ok name after) :
    Lexeme.patternLiteral source = .miss source := by
  have word := Lexeme.identifier_of_name read
  have noMinus := Expr.char_of_identifier word.1 (by decide : Lexeme.isNameStart '-' = false)
  exact (patternLiteral_eq noMinus).trans (Lexeme.literal_of_name word.1 word.2)

/-- A name is tried where there is no literal, whatever room there is. -/
theorem read_of_readName {pattern : Pattern} {place : List Char}
    (noLiteral : Lexeme.patternLiteral source = .miss place)
    (found : readName source = .ok pattern after) (room : Nat) :
    read room source = .ok pattern after := by
  cases room with
  | zero => exact (orElse_of_miss (bind_of_miss noLiteral)).trans (orElse_of_ok found)
  | succ less => exact (orElse_of_miss (bind_of_miss noLiteral)).trans (orElse_of_ok found)

theorem quiet_name {name : String} (read : Lexeme.name source = .ok name after) :
    Quiet deep after (Pattern.read room source) := by
  rcases readName_of_name read with ⟨pattern, found⟩
  rw [read_of_readName (patternLiteral_of_name read) found]
  exact .whole pattern

section None

variable {place place' : List Char} (noLiteral : Lexeme.patternLiteral source = .miss place)
  (noName : readName source = .miss place')

include noLiteral noName

/-- Where no level is left, brackets are not even looked for. -/
theorem read_zero_of_none : read 0 source = .fail source (some .tooDeep) :=
  (orElse_of_miss (bind_of_miss noLiteral)).trans (orElse_of_miss noName)

theorem read_succ_of_none (room : Nat) : read (room + 1) source =
    ((do let items ← readItems '\x7b' '\x7d' (read room); return Pattern.tuple items) <|>
      (do let items ← readItems '[' ']' (read room); return Pattern.list items)) source :=
  (orElse_of_miss (bind_of_miss noLiteral)).trans (orElse_of_miss noName)

/-- Something that no pattern begins with. -/
theorem quiet_of_none (noTuple : char '\x7b' source = .miss source)
    (noList : char '[' source = .miss source) (need : Nat) :
    Quiet (room ≤ need) after (read room source) := by
  cases room with
  | zero =>
      rw [read_zero_of_none noLiteral noName]
      exact .tooDeep source (Nat.zero_le need)
  | succ less =>
      rw [read_succ_of_none noLiteral noName less,
        orElse_of_miss (bind_of_miss (readItems_of_miss noTuple)), bind_of_miss (readItems_of_miss noList)]
      exact .miss source

end None

theorem readName_of_reserved {name : String}
    (read : Lexeme.identifier source = .ok name after) (plain : name.toList.head? ≠ some '_')
    (known : Lexeme.reserved.contains name = true) : readName source = .miss source := by
  simp only [readName, read, if_neg plain, if_pos known]

theorem readName_of_head {c : Char} (start : Lexeme.isNameStart c = false) (tail : List Char) :
    readName (c :: tail) = .miss (c :: tail) := by
  simp only [readName, Lexeme.identifier, start, Bool.false_eq_true, if_false]

theorem patternLiteral_of_head {c : Char} (known : c ∈ ['@', '(', '!', '[', '\x7b'])
    (tail : List Char) : Lexeme.patternLiteral (c :: tail) = .miss (c :: tail) := by
  simp only [List.mem_cons, List.not_mem_nil, or_false] at known
  rcases known with rfl | rfl | rfl | rfl | rfl
  all_goals rfl

theorem quiet_sign {c : Char} (known : c ∈ ['@', '(']) (tail : List Char) (need : Nat) :
    Quiet (room ≤ need) after (read room (c :: tail)) := by
  simp only [List.mem_cons, List.not_mem_nil, or_false] at known
  rcases known with rfl | rfl
  all_goals
    exact quiet_of_none (patternLiteral_of_head (by decide) tail)
      (readName_of_head (by decide) tail) rfl rfl need

theorem quiet_unary (op : UnaryOp) (tail : List Char) (need : Nat) :
    Quiet (room ≤ need) after (read room (op.text.toList ++ ' ' :: tail)) := by
  cases op with
  | bang =>
      exact quiet_of_none (patternLiteral_of_head (by decide) (' ' :: tail))
        (readName_of_head (by decide) (' ' :: tail)) rfl rfl need
  | not =>
      have noLiteral : Lexeme.patternLiteral ("not".toList ++ ' ' :: tail) = .miss _ := rfl
      have word : Lexeme.identifier ("not".toList ++ ' ' :: tail) = .ok "not" (' ' :: tail) := rfl
      exact quiet_of_none noLiteral (readName_of_reserved word (by decide) (by decide)) rfl rfl need
  | minus =>
      have noLiteral : Lexeme.patternLiteral ('-' :: ' ' :: tail) = .miss _ := rfl
      exact quiet_of_none noLiteral (readName_of_head (by decide) (' ' :: tail)) rfl rfl need

/-! ## Expressions -/

section Brackets

variable {exprs : List Expr}
  (quiet : ∀ expr ∈ exprs, ∀ room after, Lexeme.Junction after ->
    Quiet (room ≤ expr.need) after (read room (expr.write ++ after)))
  (formed : ∀ expr ∈ exprs, expr.WellFormed)

include quiet formed

theorem quietInside {closer : Char} (known : closer ∈ Expr.closingBrackets) (room : Nat) :
    QuietInside (read room) room closer exprs where
  known := known
  formed := formed
  reads expr member c tail mark :=
    quiet expr member room _ ((⟨known, formed⟩ : Expr.Bracketed closer exprs).junction mark tail)
  none tail := by
    simp only [Expr.closingBrackets, List.mem_cons, List.not_mem_nil, or_false] at known
    cases room with
    | zero =>
        refine .inr ⟨rfl, closer :: tail, ?_⟩
        rcases known with rfl | rfl | rfl
        all_goals rfl
    | succ less =>
        refine .inl ⟨closer :: tail, ?_⟩
        rcases known with rfl | rfl | rfl
        all_goals rfl

theorem quiet_list (room : Nat) (after : List Char) :
    Quiet (room ≤ Expr.needAll exprs + 1) after
      (read room ('[' :: (Expr.writeItems exprs ++ ']' :: after))) := by
  have noLiteral := patternLiteral_of_head (by decide : '[' ∈ ['@', '(', '!', '[', '\x7b'])
    (Expr.writeItems exprs ++ ']' :: after)
  have noName := readName_of_head (by decide : Lexeme.isNameStart '[' = false)
    (Expr.writeItems exprs ++ ']' :: after)
  cases room with
  | zero =>
      rw [read_zero_of_none noLiteral noName]
      exact .tooDeep _ (Nat.zero_le _)
  | succ less =>
      have items := quiet_readItems '['
        (quietInside quiet formed (by decide : ']' ∈ Expr.closingBrackets) less) after
      have noTuple : char '\x7b' ('[' :: (Expr.writeItems exprs ++ ']' :: after)) = .miss _ := rfl
      rw [read_succ_of_none noLiteral noName less,
        orElse_of_miss (bind_of_miss (readItems_of_miss noTuple))]
      exact items.map.mono Nat.succ_le_succ

theorem quiet_tuple (room : Nat) (after : List Char) :
    Quiet (room ≤ Expr.needAll exprs + 1) after
      (read room ('\x7b' :: (Expr.writeItems exprs ++ '\x7d' :: after))) := by
  have noLiteral := patternLiteral_of_head (by decide : '\x7b' ∈ ['@', '(', '!', '[', '\x7b'])
    (Expr.writeItems exprs ++ '\x7d' :: after)
  have noName := readName_of_head (by decide : Lexeme.isNameStart '\x7b' = false)
    (Expr.writeItems exprs ++ '\x7d' :: after)
  cases room with
  | zero =>
      rw [read_zero_of_none noLiteral noName]
      exact .tooDeep _ (Nat.zero_le _)
  | succ less =>
      have items := quiet_readItems '\x7b'
        (quietInside quiet formed (by decide : '\x7d' ∈ Expr.closingBrackets) less) after
      have noList : char '[' ('\x7b' :: (Expr.writeItems exprs ++ '\x7d' :: after)) =
          .miss _ := rfl
      rw [read_succ_of_none noLiteral noName less]
      exact (items.map.orElse (bind_of_miss (readItems_of_miss noList))).mono Nat.succ_le_succ

end Brackets

mutual

/-- A written expression is quiet for the reader of patterns. -/
theorem quiet_read : (expr : Expr) -> expr.WellFormed -> ∀ room after, Lexeme.Junction after ->
    Quiet (room ≤ expr.need) after (read room (expr.write ++ after))
  | .lit _, formed, _, _, junction => quiet_lit formed junction
  | .assign name, _, _, after, _ => quiet_sign (by decide) (name.toList ++ after) 1
  | .var _, formed, _, _, junction => by
      rcases junction.stops with ⟨c, tail, rfl, stop⟩
      exact quiet_name (Expr.name_write formed tail stop)
  | .list items, formed, room, after, _ => by
      rw [Expr.write_list_append]
      exact quiet_list (quiet_readAll items formed) (Expr.wellFormed_of_mem formed) room after
  | .tuple items, formed, room, after, _ => by
      rw [Expr.write_tuple_append]
      exact quiet_tuple (quiet_readAll items formed) (Expr.wellFormed_of_mem formed) room after
  | .attr object name, formed, room, after, _ => by
      have quiet := quiet_read object formed.2.1 room _ (Expr.junction_attr formed.2.2 after)
      rw [Expr.write_attr_append]
      exact (quiet.extend (.of_head (by decide) _)).mono fun excess =>
        Nat.le_trans excess (Nat.le_max_left ..)
  | .index object key, formed, room, after, _ => by
      have bracket : Lexeme.Junction ('[' :: (key.write ++ ']' :: after)) := .mark _ (by decide)
      have quiet := quiet_read object formed.2.1 room _ bracket
      rw [Expr.write_index_append]
      exact (quiet.extend (.of_head (by decide) _)).mono fun excess =>
        Nat.le_trans excess (Nat.le_max_left ..)
  | .call name args, formed, room, after, _ => by
      have read := Expr.name_write formed.1 (Expr.writeItems args ++ ')' :: after)
        (by decide : '(' ∈ Lexeme.stops)
      rw [Expr.write_call_append]
      exact (quiet_name read).extend (.of_head (by decide) _)
  | .unary op operand, _, room, after, _ => by
      rw [Expr.write_unary_append]
      exact quiet_unary op (operand.write ++ after) (operand.need + 1)
  | .binary op left right, formed, room, after, _ => by
      have quiet := quiet_read left formed.2.1 room _
        (Expr.junction_space (op.text.toList ++ ' ' :: (right.write ++ after)))
      rw [Expr.write_binary_append]
      exact (quiet.extend (.operator op _)).mono fun excess =>
        Nat.le_trans excess (Nat.le_trans (Nat.le_max_left ..) (Nat.le_max_left ..))
  | .group inner, _, room, after, _ => quiet_sign (by decide) _ (inner.need + 1)

theorem quiet_readAll : (exprs : List Expr) -> Expr.AllWellFormed exprs -> ∀ expr ∈ exprs,
    ∀ room after, Lexeme.Junction after ->
      Quiet (room ≤ expr.need) after (read room (expr.write ++ after))
  | [], _ => fun _ impossible => nomatch impossible
  | expr :: others, formed => by
      intro other member
      cases member with
      | head => exact quiet_read expr formed.1
      | tail _ member => exact quiet_readAll others formed.2 other member

end

end Pattern
end HtmlTemplate
