import HtmlTemplate.Proofs.Syntax.Openings

namespace HtmlTemplate
namespace Expr

/-!
# Reading suffixes and brackets

The parts of an expression that contain others in brackets: items, arguments,
groups and keys.  What is inside of the brackets is read by a reader that is
given here, and of which it is known what it makes of the written items.

Suffixes are read in a loop that wraps the object once for each of them and has
one level less each time.  With no level left the loop fails even where no
suffix follows, since it looks for a bracket and would have to go deeper.
-/

open Reader

variable {inside : Nat -> Reader Expr} {room : Nat} {source rest : List Char}

theorem dropWhile_isSpace_closer {c : Char} (closer : isSpace c = false) (tail : List Char) :
    (c :: tail).dropWhile isSpace = c :: tail := by
  simp only [List.dropWhile_cons, closer, Bool.false_eq_true, if_false]

/-- Something that is not white space is left as it is. -/
theorem restOf_cons {c : Char} (closer : isSpace c = false) (expr : Expr) (tail : List Char) :
    expr.restOf (c :: tail) = c :: tail := by
  unfold restOf
  split
  · exact dropWhile_isSpace_closer closer tail
  · rfl

/-! ## The loop -/

theorem suffixes_of_noSuffix (none : NoSuffix source) (object : Expr) :
    suffixes inside (room + 1) object source = .ok object source := by
  rcases none.attr with ⟨_, noAttr⟩
  rcases none.bracket with ⟨_, noBracket⟩
  have noIndex : indexSuffix inside (room + 1) source = .miss _ := bind_of_miss noBracket
  exact bind_of_ok (optional_of_miss ((orElse_of_miss noAttr).trans noIndex))

/-- A point after an expression is followed by a name. -/
theorem attrSuffix_of_junction (junction : Lexeme.Junction source) :
    (∃ place, attrSuffix source = .miss place) ∨
      ∃ suffix rest, attrSuffix source = .ok suffix rest := by
  cases junction with
  | @mark c tail found =>
      refine .inl ⟨c :: tail, bind_of_miss ?_⟩
      simp only [char, if_neg (Lexeme.ne_point_of_mem c found)]
  | @attr c tail starts =>
      have noPoint : c ≠ '.' := Lexeme.ne_of_isNameStart starts (by decide)
      have noRange : char '.' (c :: tail) = .miss (c :: tail) := by
        simp only [char, if_neg noPoint]
      have name : ∃ name rest, Lexeme.identifier (c :: tail) = .ok name rest :=
        ⟨_, _, if_pos starts⟩
      rcases name with ⟨name, rest, found⟩
      have point : char '.' ('.' :: c :: tail) = .ok () (c :: tail) := rfl
      refine .inr ⟨.attr name, rest, (bind_of_ok point).trans ?_⟩
      exact (bind_of_ok (notAhead_of_miss noRange)).trans (bind_of_ok (commit_of_ok found))

theorem tooDeep_suffixes_zero (object : Expr) (junction : Lexeme.Junction source) :
    TooDeep (suffixes inside 0 object source) := by
  rcases attrSuffix_of_junction junction with ⟨_, missed⟩ | ⟨suffix, rest, read⟩
  · have failed : indexSuffix inside 0 source = .fail source (some .tooDeep) := rfl
    refine ⟨source, (bind_of_ok rfl).trans (bind_of_fail (optional_of_fail ?_))⟩
    exact (orElse_of_miss missed).trans failed
  · refine ⟨source, (bind_of_ok rfl).trans ?_⟩
    exact bind_of_ok (optional_of_ok (orElse_of_ok read))

theorem attrSuffix_write {name : String} (read : Lexeme.identifier name.toList = .ok name [])
    (junction : Lexeme.Junction rest) :
    attrSuffix ('.' :: (name.toList ++ rest)) = .ok (.attr name) rest := by
  rcases junction.stops with ⟨c, tail, rfl, stop⟩
  rcases Lexeme.head_of_identifier read with ⟨head, others, shape, starts⟩
  have noPoint : head ≠ '.' := Lexeme.ne_of_isNameStart starts (by decide)
  have noRange : char '.' (name.toList ++ c :: tail) = .miss (name.toList ++ c :: tail) := by
    rw [shape]
    simp only [char, List.cons_append, if_neg noPoint]
  have found := (Lexeme.local_identifier tail stop).ok read
  refine (bind_of_ok rfl).trans ((bind_of_ok (notAhead_of_miss noRange)).trans ?_)
  exact bind_of_ok (commit_of_ok found)

theorem suffixes_attr {name : String} (read : Lexeme.identifier name.toList = .ok name [])
    (junction : Lexeme.Junction rest) (object : Expr) :
    suffixes inside (room + 1) object ('.' :: (name.toList ++ rest)) =
      suffixes inside room (.attr object name) rest :=
  bind_of_ok (optional_of_ok (orElse_of_ok (attrSuffix_write read junction)))

/-- The key has the room that the suffixes before it have left. -/
theorem settles_suffixes_index {key : Expr} {words : List String} {signs : List Char}
    (opening : Opening words signs (key.write ++ ']' :: rest))
    (settles : Settles (inside room (key.write ++ ']' :: rest)) (key.need ≤ room)
      (.ok key (']' :: rest))) (object : Expr) :
    Settles (suffixes inside (room + 1) object ('[' :: (key.write ++ ']' :: rest)))
      (key.need ≤ room) (suffixes inside room (.index object key) rest) := by
  have spacedKey : Settles (spaced (inside room) (key.write ++ ']' :: rest)) (key.need ≤ room)
      (.ok key (']' :: rest)) := by
    rw [← opening.dropWhile_isSpace] at settles
    exact settles.spaced
  have closed : Settles ((do
      let key ← spaced (inside room)
      char ']'
      return key) (key.write ++ ']' :: rest)) (key.need ≤ room) (.ok key rest) :=
    spacedKey.andThen (bind_of_ok rfl)
  have index : Settles (indexSuffix inside (room + 1) ('[' :: (key.write ++ ']' :: rest)))
      (key.need ≤ room) (.ok (.index key) rest) := by
    have opened : indexSuffix inside (room + 1) ('[' :: (key.write ++ ']' :: rest)) =
        (do
          let key ← commit (do
            let key ← spaced (inside room)
            char ']'
            return key)
          return Suffix.index key) (key.write ++ ']' :: rest) := bind_of_ok rfl
    rw [opened]
    exact closed.commit.andThen rfl
  have noAttr : attrSuffix ('[' :: (key.write ++ ']' :: rest)) = .miss _ := bind_of_miss rfl
  have either : Settles ((attrSuffix <|> indexSuffix inside (room + 1))
      ('[' :: (key.write ++ ']' :: rest))) (key.need ≤ room) (.ok (.index key) rest) := by
    rw [orElse_of_miss noAttr]
    exact index
  exact either.optional.andThen rfl

/-! ## Items -/

theorem needAll_le_iff {exprs : List Expr} :
    needAll exprs ≤ room ↔ 1 ≤ room ∧ ∀ expr ∈ exprs, expr.need ≤ room := by
  induction exprs with
  | nil => simp [needAll]
  | cons expr others inductionHypothesis =>
      simp only [needAll, Nat.max_le, inductionHypothesis, List.forall_mem_cons]
      constructor
      · rintro ⟨head, positive, tail⟩
        exact ⟨positive, head, tail⟩
      · rintro ⟨positive, head, tail⟩
        exact ⟨head, positive, tail⟩

/-- Well-formed expressions in front of a closing bracket. -/
structure Bracketed (closer : Char) (exprs : List Expr) : Prop where
  known : closer ∈ closingBrackets
  formed : ∀ expr ∈ exprs, expr.WellFormed

namespace Bracketed

variable {closer c : Char} {expr : Expr} {exprs : List Expr}

theorem tail (bracketed : Bracketed closer (expr :: exprs)) : Bracketed closer exprs where
  known := bracketed.known
  formed other member := bracketed.formed other (List.mem_cons_of_mem _ member)

theorem facts (bracketed : Bracketed closer exprs) (mark : c = ',' ∨ c = closer) :
    isSpace c = false ∧ Lexeme.isNameStart c = false ∧ c ≠ '.' ∧ c ≠ '[' :=
  closingSigns_facts c (mem_closingSigns bracketed.known mark)

theorem ne_comma (bracketed : Bracketed closer exprs) : closer ≠ ',' :=
  ne_comma_of_mem closer bracketed.known

theorem junction (bracketed : Bracketed closer exprs) (mark : c = ',' ∨ c = closer)
    (tail : List Char) : Lexeme.Junction (c :: tail) :=
  .closingSign (mem_closingSigns bracketed.known mark) tail

theorem opening (bracketed : Bracketed closer exprs) (member : expr ∈ exprs)
    (mark : c = ',' ∨ c = closer) (tail : List Char) :
    Opening blockWords closingSigns (expr.write ++ c :: tail) :=
  opening_write expr (bracketed.formed expr member) (bracketed.junction mark tail)

end Bracketed

/-- A reader of items: it reads each written item in front of a comma or of the
closing bracket, and finds no item in front of the bracket. -/
structure ReadsItems {α : Type} (item : Reader α) (wrap : Expr -> α) (room : Nat) (closer : Char)
    (exprs : List Expr) : Prop extends Bracketed closer exprs where
  reads : ∀ expr ∈ exprs, ∀ c tail, (c = ',' ∨ c = closer) ->
    Settles (item (expr.write ++ c :: tail)) (expr.need ≤ room) (.ok (wrap expr) (c :: tail))
  none : ∀ tail, ∃ place, Settles (item (closer :: tail)) (1 ≤ room) (.miss place)

namespace ReadsItems

variable {α : Type} {item : Reader α} {wrap : Expr -> α} {closer : Char}

theorem head {expr : Expr} {others : List Expr}
    (reads : ReadsItems item wrap room closer (expr :: others)) {c : Char}
    (mark : c = ',' ∨ c = closer) (tail : List Char) :
    Settles (spaced item (expr.write ++ c :: tail)) (expr.need ≤ room)
      (.ok (wrap expr) (c :: tail)) := by
  have settles := reads.reads expr (List.mem_cons_self ..) c tail mark
  rw [← (reads.opening (List.mem_cons_self ..) mark tail).dropWhile_isSpace] at settles
  have result := settles.spaced
  rwa [dropWhile_isSpace_closer (reads.facts mark).1] at result

theorem tail {expr : Expr} {others : List Expr}
    (reads : ReadsItems item wrap room closer (expr :: others)) :
    ReadsItems item wrap room closer others where
  toBracketed := reads.toBracketed.tail
  reads other member := reads.reads other (List.mem_cons_of_mem _ member)
  none := reads.none

theorem spaced_space (source : List Char) : spaced item (' ' :: source) = spaced item source :=
  rfl

theorem separatedFrom_comma {budget : List Char} {fits : Prop} {value : α} (before : List α)
    (c : Char) (settles : Settles (spaced item source) fits (.ok value rest)) :
    Settles (Reader.separatedFrom (spaced item) before (c :: budget) (',' :: source)) fits
      (Reader.separatedFrom (spaced item) (value :: before) budget rest) := by
  constructor
  · intro holds
    simp only [Reader.separatedFrom, settles.eq_of_fits holds]
  · intro excess
    rcases settles.tooDeep_of_not excess with ⟨place, failed⟩
    exact ⟨place, by simp only [Reader.separatedFrom, failed]⟩

theorem separatedFrom (exprs : List Expr) (reads : ReadsItems item wrap room closer exprs)
    (before : List α) {budget : List Char}
    (enough : (writeOthers exprs ++ closer :: rest).length ≤ budget.length) :
    Settles (Reader.separatedFrom (spaced item) before budget
      (writeOthers exprs ++ closer :: rest)) (∀ expr ∈ exprs, expr.need ≤ room)
      (.ok (before.reverse ++ exprs.map wrap) (closer :: rest)) := by
  induction exprs generalizing before budget with
  | nil =>
      refine .of_eq ?_ fun _ impossible => nomatch impossible
      rw [List.map_nil, List.append_nil]
      unfold Reader.separatedFrom
      split
      · rfl
      · split
        · rename_i same
          cases same
          exact absurd rfl reads.ne_comma
        · rfl
  | cons expr others inductionHypothesis =>
      rcases writeOthers_append_cons others rest closer with ⟨c, tail, shape, mark⟩
      rw [writeOthers_cons_append, shape] at enough ⊢
      cases budget with
      | nil => simp at enough
      | cons first budget =>
          have left : (writeOthers others ++ closer :: rest).length ≤ budget.length := by
            rw [shape]
            simp only [List.length_cons, List.length_append] at enough ⊢
            omega
          have item' := reads.head mark tail
          rw [← spaced_space] at item'
          have next := inductionHypothesis reads.tail (wrap expr :: before) left
          rw [shape] at next
          refine ((separatedFrom_comma before first item').trans fun _ => next).congr' ?_ ?_
          · simp only [List.forall_mem_cons]
          · simp only [List.reverse_cons, List.append_assoc, List.singleton_append, List.map_cons]

theorem separated_head {fits : Prop} {value : α}
    (settles : Settles (spaced item source) fits (.ok value rest)) :
    Settles (Reader.separated (spaced item) source) fits
      (Reader.separatedFrom (spaced item) [value] rest rest) := by
  constructor
  · intro holds
    simp only [Reader.separated, settles.eq_of_fits holds]
  · intro excess
    rcases settles.tooDeep_of_not excess with ⟨place, failed⟩
    exact ⟨place, by simp only [Reader.separated, failed]⟩

theorem dropWhile_writeItems {exprs : List Expr} (reads : ReadsItems item wrap room closer exprs)
    (rest : List Char) : (writeItems exprs ++ closer :: rest).dropWhile isSpace =
      writeItems exprs ++ closer :: rest := by
  cases exprs with
  | nil => exact dropWhile_isSpace_closer (reads.facts (.inr rfl)).1 rest
  | cons expr others =>
      rcases writeOthers_append_cons others rest closer with ⟨c, tail, shape, mark⟩
      rw [writeItems_cons_append, shape]
      exact (reads.opening (List.mem_cons_self ..) mark tail).dropWhile_isSpace

/-- All items are read if there is room for each of them, and for one at the
closing bracket. -/
theorem separated (exprs : List Expr) (reads : ReadsItems item wrap room closer exprs)
    (rest : List Char) :
    Settles (Reader.separated (spaced item) (writeItems exprs ++ closer :: rest))
      (needAll exprs ≤ room) (.ok (exprs.map wrap) (closer :: rest)) := by
  cases exprs with
  | nil =>
      rcases reads.none rest with ⟨place, settles⟩
      rw [← dropWhile_isSpace_closer (reads.facts (.inr rfl)).1 rest] at settles
      constructor
      · intro holds
        have missed := spaced_of_miss (settles.eq_of_fits holds)
        simp only [writeItems, List.nil_append, Reader.separated, missed, List.map_nil]
      · intro excess
        rcases settles.tooDeep_of_not excess with ⟨place, failed⟩
        refine ⟨place, ?_⟩
        simp only [writeItems, List.nil_append, Reader.separated, spaced_of_fail failed]
  | cons expr others =>
      rcases writeOthers_append_cons others rest closer with ⟨c, tail, shape, mark⟩
      rw [writeItems_cons_append, shape]
      have enough := Nat.le_refl (writeOthers others ++ closer :: rest).length
      have next := reads.tail.separatedFrom others [wrap expr] enough
      rw [shape] at next
      refine ((separated_head (reads.head mark tail)).trans fun _ => next).congr' ?_ ?_
      · rw [needAll_le_iff, List.forall_mem_cons]
        constructor
        · rintro ⟨head, tail⟩
          exact ⟨Nat.le_trans expr.need_pos head, head, tail⟩
        · rintro ⟨_, head, tail⟩
          exact ⟨head, tail⟩
      · rfl

/-! ## Keywords -/

section Keywords

variable {reader : Reader Expr} {exprs : List Expr}

/-- A closing bracket begins no keyword. -/
theorem keywordPair_closer {items : Reader α} (reads : ReadsItems items wrap room closer exprs)
    (value : Reader Expr) (tail : List Char) :
    keywordPair value (closer :: tail) = .miss (closer :: tail) := by
  have missed : Lexeme.identifier (closer :: tail) = .miss (closer :: tail) := by
    simp only [Lexeme.identifier, (reads.facts (.inr rfl)).2.1, Bool.false_eq_true, if_false]
  exact bind_of_miss (bind_of_miss missed)

theorem listItem_of_miss {place : List Char} (missed : keywordPair reader source = .miss place) :
    listItem reader source = reader source :=
  orElse_of_miss (bind_of_miss missed)

theorem argument_of_miss {place : List Char} (missed : keywordPair reader source = .miss place) :
    argument reader source = (do
      let value ← reader
      return Argument.positional value) source :=
  orElse_of_miss (bind_of_miss missed)

/-- Items of a list, none of which is a keyword. -/
theorem listItems (reads : ReadsItems reader id room closer exprs) :
    ReadsItems (listItem reader) id room closer exprs where
  toBracketed := reads.toBracketed
  reads expr member c tail mark := by
    rcases (reads.opening member mark tail).keywordKey with ⟨_, missed⟩
    rw [listItem_of_miss (bind_of_miss missed)]
    exact reads.reads expr member c tail mark
  none tail := by
    rw [listItem_of_miss (keywordPair_closer reads reader tail)]
    exact reads.none tail

/-- Arguments of a call, all of them positional. -/
theorem arguments (reads : ReadsItems reader id room closer exprs) :
    ReadsItems (argument reader) .positional room closer exprs where
  toBracketed := reads.toBracketed
  reads expr member c tail mark := by
    rcases (reads.opening member mark tail).keywordKey with ⟨_, missed⟩
    rw [argument_of_miss (bind_of_miss missed)]
    exact (reads.reads expr member c tail mark).andThen rfl
  none tail := by
    rw [argument_of_miss (keywordPair_closer reads reader tail)]
    rcases reads.none tail with ⟨place, settles⟩
    exact ⟨place, settles.bind_miss⟩

end Keywords

end ReadsItems

theorem collect?_positional (exprs : List Expr) :
    collect? (exprs.map Argument.positional) = some exprs := by
  have steps (before : List Expr) :
      collect?.go before [] (exprs.map Argument.positional) = some (before.reverse ++ exprs) := by
    induction exprs generalizing before with
    | nil => simp [collect?.go]
    | cons expr others inductionHypothesis => simp [collect?.go, inductionHypothesis]
  exact steps []

/-! ## Primary expressions -/

theorem primary_lit {literal : Literal} (whole : literal.Whole) (junction : Lexeme.Junction rest) :
    primary inside room (literal.write ++ rest) = .ok (.lit literal) rest :=
  orElse_of_ok (bind_of_ok (Lexeme.literal_write whole junction))

theorem primary_assign {name : String} (read : Lexeme.identifier name.toList = .ok name [])
    (junction : Lexeme.Junction rest) :
    primary inside room ('@' :: (name.toList ++ rest)) = .ok (.assign name) rest := by
  rcases junction.stops with ⟨c, tail, rfl, stop⟩
  have noLiteral : Lexeme.literal ('@' :: (name.toList ++ c :: tail)) = .miss _ :=
    Lexeme.literal_of_head (by decide) (by decide) (by decide) (by decide)
  have found := (Lexeme.local_identifier tail stop).ok read
  refine (orElse_of_miss (bind_of_miss noLiteral)).trans (orElse_of_ok ?_)
  exact (bind_of_ok rfl).trans (bind_of_ok (commit_of_ok found))

theorem char_of_identifier {name : String} (read : Lexeme.identifier source = .ok name rest)
    {c : Char} (other : Lexeme.isNameStart c = false) : char c source = .miss source := by
  rcases Lexeme.head_of_identifier read with ⟨head, tail, rfl, starts⟩
  simp only [char, if_neg (Lexeme.ne_of_isNameStart starts other)]

theorem name_write {name : String} (read : Lexeme.name name.toList = .ok name []) {c : Char}
    (tail : List Char) (stop : c ∈ Lexeme.stops) :
    Lexeme.name (name.toList ++ c :: tail) = .ok name (c :: tail) :=
  (Lexeme.local_identifierWhere tail stop _).ok read

/-- A name is a variable if no parenthesis follows, which is only seen one
level deeper. -/
theorem settles_primary_var {name : String} (read : Lexeme.name name.toList = .ok name [])
    (junction : Lexeme.Junction rest) :
    Settles (primary inside room (name.toList ++ rest)) (1 ≤ room) (.ok (.var name) rest) := by
  rcases junction.stops with ⟨c, tail, rfl, stop⟩
  have found := name_write read tail stop
  have word := Lexeme.identifier_of_name found
  have noLiteral := Lexeme.literal_of_name word.1 word.2
  have noAssign := char_of_identifier word.1 (by decide : Lexeme.isNameStart '@' = false)
  have noCall : char '(' (c :: tail) = .miss (c :: tail) := by
    have other : c ≠ '(' := by
      cases junction with
      | mark _ mark =>
          revert mark
          rintro mark rfl
          revert mark
          decide
      | attr _ _ => decide
    simp only [char, if_neg other]
  unfold primary
  rw [orElse_of_miss (bind_of_miss noLiteral), orElse_of_miss (bind_of_miss noAssign)]
  cases room with
  | zero =>
      refine .of_tooDeep ⟨c :: tail, orElse_of_fail ?_⟩ (by omega)
      exact (bind_of_ok found).trans (bind_of_fail rfl)
  | succ less =>
      refine .of_eq ?_ (by omega)
      have missed : arguments (inside less) (c :: tail) = .miss (c :: tail) :=
        (bind_of_ok rfl).trans (bind_of_miss noCall)
      rw [orElse_of_miss ((bind_of_ok found).trans (bind_of_miss missed))]
      exact orElse_of_ok (bind_of_ok found)

theorem settles_arguments {reader : Reader Expr} {args : List Expr}
    (known : ReadsItems reader id room ')' args) (rest : List Char) :
    Settles (arguments reader ('(' :: (writeItems args ++ ')' :: rest)))
      (needAll args ≤ room) (.ok args rest) := by
  have items := known.arguments.separated args rest
  have closed : Settles ((do
      let args ← separated (spaced (argument reader))
      spaces
      char ')'
      return args) (writeItems args ++ ')' :: rest)) (needAll args ≤ room)
      (.ok (args.map .positional) rest) :=
    items.andThen ((bind_of_ok rfl).trans (bind_of_ok rfl))
  refine closed.commit.andThen ?_
  rw [collect?_positional]
  rfl

theorem settles_primary_call {name : String} (read : Lexeme.name name.toList = .ok name [])
    {args : List Expr}
    (known : ∀ less, room = less + 1 -> ReadsItems (inside less) id less ')' args) :
    Settles (primary inside room (name.toList ++ '(' :: (writeItems args ++ ')' :: rest)))
      (needAll args + 1 ≤ room) (.ok (.call name args) rest) := by
  have found := name_write read (writeItems args ++ ')' :: rest) (by decide : '(' ∈ Lexeme.stops)
  have word := Lexeme.identifier_of_name found
  have noLiteral := Lexeme.literal_of_name word.1 word.2
  have noAssign := char_of_identifier word.1 (by decide : Lexeme.isNameStart '@' = false)
  unfold primary
  rw [orElse_of_miss (bind_of_miss noLiteral), orElse_of_miss (bind_of_miss noAssign)]
  refine Settles.orElse ?_
  rw [bind_of_ok found]
  exact (Settles.nested fun less same => settles_arguments (known less same) rest).andThen rfl

/-- The bracket is not in the way of the alternatives before its own. -/
theorem primary_of_bracket {c : Char} (found : c ∈ ['[', '\x7b', '(']) (tail : List Char) :
    primary inside room (c :: tail) =
      ((nested room fun room => do
        spaced (char '[')
        let items ← commit (do
          let items ← separated (spaced (listItem (inside room)))
          let _ ← optional (char ',')
          return items)
        commit (spaced (char ']'))
        return Expr.list items) <|>
      (nested room fun room => do
        char '\x7b'
        let items ← commit (separated (spaced (inside room)))
        commit (spaced (char '\x7d'))
        return Expr.tuple items) <|>
      (nested room fun room => do
        char '('
        let inner ← commit (spaced (inside room))
        commit (char ')')
        return Expr.group inner)) (c :: tail) := by
  simp only [List.mem_cons, List.not_mem_nil, or_false] at found
  rcases found with rfl | rfl | rfl
  all_goals rfl

theorem settles_primary_list {items : List Expr}
    (known : ∀ less, room = less + 1 -> ReadsItems (inside less) id less ']' items) :
    Settles (primary inside room ('[' :: (writeItems items ++ ']' :: rest)))
      (needAll items + 1 ≤ room) (.ok (.list items) (rest.dropWhile isSpace)) := by
  rw [primary_of_bracket (by decide)]
  refine Settles.orElse (Settles.nested fun less same => ?_)
  have reads := (known less same).listItems
  have opened : spaced (char '[') ('[' :: (writeItems items ++ ']' :: rest)) =
      .ok () ((writeItems items ++ ']' :: rest).dropWhile isSpace) := rfl
  rw [reads.dropWhile_writeItems rest] at opened
  have inner : Settles ((do
      let items ← separated (spaced (listItem (inside less)))
      let _ ← optional (char ',')
      return items) (writeItems items ++ ']' :: rest)) (needAll items ≤ less)
      (.ok (items.map id) (']' :: rest)) :=
    (reads.separated items rest).andThen (bind_of_ok rfl)
  rw [List.map_id] at inner
  rw [bind_of_ok opened]
  exact inner.commit.andThen (bind_of_ok rfl)

/-- No list begins with another bracket. -/
theorem char_spaced_of_ne {c : Char} (found : c ∈ ['\x7b', '(']) (tail : List Char) :
    char '[' ((c :: tail).dropWhile isSpace) = .miss (c :: tail) := by
  simp only [List.mem_cons, List.not_mem_nil, or_false] at found
  rcases found with rfl | rfl
  all_goals rfl

theorem settles_primary_tuple {items : List Expr}
    (known : ∀ less, room = less + 1 -> ReadsItems (inside less) id less '\x7d' items) :
    Settles (primary inside room ('\x7b' :: (writeItems items ++ '\x7d' :: rest)))
      (needAll items + 1 ≤ room) (.ok (.tuple items) (rest.dropWhile isSpace)) := by
  rw [primary_of_bracket (by decide)]
  cases room with
  | zero => exact .of_tooDeep ⟨_, rfl⟩ (by omega)
  | succ less =>
      have inner := (known less rfl).separated items rest
      rw [List.map_id] at inner
      have tuple : Settles (nested (less + 1) (fun room => do
          char '\x7b'
          let items ← commit (separated (spaced (inside room)))
          commit (spaced (char '\x7d'))
          return Expr.tuple items) ('\x7b' :: (writeItems items ++ '\x7d' :: rest)))
          (needAll items + 1 ≤ less + 1) (.ok (.tuple items) (rest.dropWhile isSpace)) := by
        refine Settles.nested fun _ same => ?_
        cases same
        exact inner.commit.andThen (bind_of_ok rfl)
      have noList := spaced_of_miss (char_spaced_of_ne (by decide : '\x7b' ∈ ['\x7b', '('])
        (writeItems items ++ '\x7d' :: rest))
      exact tuple.orElse.of_reply (orElse_of_miss (bind_of_miss noList))

theorem settles_primary_group {inner : Expr}
    (known : ∀ less, room = less + 1 -> ReadsItems (inside less) id less ')' [inner]) :
    Settles (primary inside room ('(' :: (inner.write ++ ')' :: rest)))
      (inner.need + 1 ≤ room) (.ok (.group inner) rest) := by
  rw [primary_of_bracket (by decide)]
  cases room with
  | zero => exact .of_tooDeep ⟨_, rfl⟩ (by omega)
  | succ less =>
      have settles := (known less rfl).head (.inr rfl) rest
      have group : Settles (nested (less + 1) (fun room => do
          char '('
          let inner ← commit (spaced (inside room))
          commit (char ')')
          return Expr.group inner) ('(' :: (inner.write ++ ')' :: rest)))
          (inner.need + 1 ≤ less + 1) (.ok (.group inner) rest) := by
        refine Settles.nested fun _ same => ?_
        cases same
        exact settles.commit.andThen (bind_of_ok rfl)
      have noList := spaced_of_miss (char_spaced_of_ne (by decide : '(' ∈ ['\x7b', '('])
        (inner.write ++ ')' :: rest))
      have noTuple : char '\x7b' ('(' :: (inner.write ++ ')' :: rest)) = .miss _ := rfl
      refine group.of_reply ((orElse_of_miss (bind_of_miss noList)).trans ?_)
      exact orElse_of_miss (bind_of_miss noTuple)

theorem settles_primary_closer {closer : Char} (found : closer ∈ closingBrackets)
    (tail : List Char) :
    Settles (primary inside room (closer :: tail)) (1 ≤ room) (.miss (closer :: tail)) := by
  simp only [closingBrackets, List.mem_cons, List.not_mem_nil, or_false] at found
  rcases found with rfl | rfl | rfl
  all_goals
    cases room with
    | zero => exact .of_tooDeep ⟨_, rfl⟩ (by omega)
    | succ less => exact .of_eq rfl (by omega)

end Expr
end HtmlTemplate
