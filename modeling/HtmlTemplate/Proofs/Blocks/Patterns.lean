import HtmlTemplate.Proofs.Syntax.Lookahead

namespace HtmlTemplate

/-!
# Written patterns are read back

A pattern is written like a list or a tuple of an expression, with a comma and a
space between its items.  Patterns have more literals than expressions, since a
number may have a minus sign, and fewer names, since a name that begins with an
underscore is a wildcard.

Where a pattern ends is decided by the character after it: a comma, a closing
bracket, or the space in front of the sign that makes it the head of a clause, a
binding or the head of a loop.
-/

open Reader

namespace Literal

/-- The literal is what the reader of patterns reads from its whole text. -/
def WholeInPattern (literal : Literal) : Prop :=
  match literal with
  | .num text => Lexeme.signedNumber text.toList = .ok (.num text) []
  | other => other.Whole

theorem WholeInPattern.cases {literal : Literal} (whole : literal.WholeInPattern) :
    literal.Whole ∨
      ∃ text, literal = .num text ∧ Lexeme.signedNumber text.toList = .ok (.num text) [] := by
  cases literal with
  | num text => exact .inr ⟨text, rfl, whole⟩
  | nil | bool _ | str _ | atom _ => exact .inl whole

end Literal

/-! ## Literals with a sign -/

theorem Reader.Local.char {c other : Char} (different : other ≠ c) (tail : List Char) :
    Local (other :: tail) (Reader.char c) := by
  intro source
  cases source with
  | nil => exact ⟨_, if_neg different⟩
  | cons head rest =>
      by_cases same : head = c
      · simp only [Reader.char, List.cons_append, if_pos same]
      · simp only [Reader.char, List.cons_append, if_neg same]
        exact ⟨_, rfl⟩

namespace Lexeme

variable {source rest : List Char} {literal : Literal}

theorem local_signedNumber (junction : Junction rest) : Local rest signedNumber := by
  have chars := local_numberChars junction
  rcases junction.facts with ⟨c, tail, rfl, _, _, _, sign, _⟩
  have different : c ≠ '-' := by
    rintro rfl
    cases sign
  exact (Local.char different tail).optional.bind fun _ => chars.bind fun _ => Local.pure _

/-- A number with a sign begins with the sign or with a digit. -/
theorem head_of_signedNumber (read : signedNumber source = .ok literal rest) :
    ∃ c tail, source = c :: tail ∧ (c = '-' ∨ c.isDigit = true) := by
  cases source with
  | nil => cases read
  | cons c tail =>
      refine ⟨c, tail, rfl, ?_⟩
      by_cases minus : c = '-'
      · exact .inl minus
      · have unsigned : Reader.char '-' (c :: tail) = .miss (c :: tail) := if_neg minus
        have number : signedNumber (c :: tail) = number (c :: tail) :=
          bind_of_ok (optional_of_miss unsigned)
        rw [number] at read
        rcases head_of_number read with ⟨_, _, same, digit⟩
        cases same
        exact .inr digit

theorem signedNumber_facts {c : Char} (head : c = '-' ∨ c.isDigit = true) :
    isNameStart c = false ∧ isSpace c = false ∧ c ∉ Expr.closingSigns := by
  rcases head with rfl | digit
  · decide
  · refine ⟨isNameStart_of_isDigit digit, Expr.isSpace_of_isDigit digit, fun member => ?_⟩
    exact Expr.not_mem_of_isDigit digit
      (List.mem_cons_of_mem _ (List.mem_cons_of_mem _ member))

/-- A literal of a pattern is read from its own text in front of whatever may
follow. -/
theorem patternLiteral_write (whole : literal.WholeInPattern) (junction : Junction rest) :
    patternLiteral (literal.write ++ rest) = .ok literal rest := by
  rcases whole.cases with plain | ⟨text, rfl, signed⟩
  · have unsigned := Pattern.char_minus_of_opening (Expr.opening_literal plain junction)
    exact (Pattern.patternLiteral_eq unsigned).trans (literal_write plain junction)
  · have read := (local_signedNumber junction).ok signed
    rw [List.nil_append] at read
    rcases head_of_signedNumber read with ⟨c, tail, shape, head⟩
    have noWord : word (text.toList ++ rest) = .miss (text.toList ++ rest) := by
      rw [shape]
      exact word_of_head (signedNumber_facts head).1
    exact (orElse_of_miss noWord).trans (orElse_of_ok read)

/-- A literal of a pattern begins with no word of a block. -/
theorem opening_patternLiteral (whole : literal.WholeInPattern) (junction : Junction rest) :
    Expr.Opening Expr.blockWords Expr.closingSigns (literal.write ++ rest) := by
  rcases whole.cases with plain | ⟨text, rfl, signed⟩
  · exact (Expr.opening_literal plain junction).mono (List.subset_cons_self ..)
      (List.subset_cons_of_subset _ (List.subset_cons_self ..))
  · rcases head_of_signedNumber signed with ⟨c, tail, shape, head⟩
    have facts := signedNumber_facts head
    rw [Literal.write, shape]
    exact .sign _ facts.1 facts.2.1 facts.2.2

/-- What begins with a name that is no literal has no literal in front. -/
theorem patternLiteral_of_identifier {name : String} (read : identifier source = .ok name rest)
    (free : name ∉ ["nil", "true", "false"]) : patternLiteral source = .miss source := by
  have noWord (word : String) (known : word ∈ ["nil", "true", "false"]) (result : Literal) :
      (do keyword word; return result : Reader Literal) source = .miss source := by
    refine bind_of_miss (keyword_of_ne read ?_)
    rintro rfl
    exact free known
  have words : word source = .miss source :=
    (orElse_of_miss (noWord "nil" (by decide) .nil)).trans
      ((orElse_of_miss (noWord "false" (by decide) (.bool false))).trans
        (noWord "true" (by decide) (.bool true)))
  rcases head_of_identifier read with ⟨c, tail, rfl, starts⟩
  have noMinus := Expr.char_of_identifier read (by decide : isNameStart '-' = false)
  rw [Pattern.patternLiteral_eq noMinus]
  refine (orElse_of_miss words).trans
    ((orElse_of_miss (number_of_head (isDigit_of_isNameStart starts))).trans ?_)
  exact (orElse_of_miss (string_of_head (ne_of_isNameStart starts (by decide)))).trans
    (atom_of_head (ne_of_isNameStart starts (by decide)))

end Lexeme

/-! ## Values with commas in front of them -/

namespace Reader

variable {α : Type} {source rest : List Char}

/-- A reader reads some values that have a comma in front of each, and no comma
follows them. -/
inductive Commas (reader : Reader α) : List Char -> List α -> List Char -> Prop where
  | done {c : Char} (other : c ≠ ',') (tail : List Char) : Commas reader (c :: tail) [] (c :: tail)
  | item {source middle rest : List Char} {value : α} {values : List α}
      (read : reader source = .ok value middle) (shorter : middle.length ≤ source.length)
      (others : Commas reader middle values rest) :
      Commas reader (',' :: source) (value :: values) rest

theorem Commas.separatedFrom_eq {reader : Reader α} {values : List α}
    (commas : Commas reader source values rest) (before : List α) {budget : List Char}
    (enough : source.length ≤ budget.length) :
    separatedFrom reader before budget source = .ok (before.reverse ++ values) rest := by
  induction commas generalizing before budget with
  | done other tail => rw [Pattern.separatedFrom_of_ne other, List.append_nil]
  | @item source middle rest value values read shorter others inductionHypothesis =>
      cases budget with
      | nil => exact absurd enough (Nat.not_succ_le_zero _)
      | cons c budget =>
          have afford : middle.length ≤ budget.length :=
            Nat.le_trans shorter (Nat.le_of_succ_le_succ enough)
          simp only [separatedFrom, read, inductionHypothesis (value :: before) afford,
            List.reverse_cons, List.append_assoc, List.singleton_append]

end Reader

/-! ## The written form -/

namespace Pattern

mutual

/-- A pattern as it is written. -/
def write : Pattern -> List Char
  | .wildcard => ['_']
  | .var name => name.toList
  | .lit literal => literal.write
  | .tuple items => '\x7b' :: (writeItems items ++ ['\x7d'])
  | .list items => '[' :: (writeItems items ++ [']'])

/-- Items with commas between them. -/
def writeItems : List Pattern -> List Char
  | [] => []
  | item :: others => write item ++ writeOthers others

/-- A comma and a space before each item. -/
def writeOthers : List Pattern -> List Char
  | [] => []
  | item :: others => ',' :: ' ' :: (write item ++ writeOthers others)

end

mutual

/-- Names are names of variables and no wildcards, and literals are texts that
their readers take whole. -/
def WellFormed : Pattern -> Prop
  | .wildcard => True
  | .var name => Lexeme.name name.toList = .ok name [] ∧ name.toList.head? ≠ some '_'
  | .lit literal => literal.WholeInPattern
  | .tuple items => AllWellFormed items
  | .list items => AllWellFormed items

def AllWellFormed : List Pattern -> Prop
  | [] => True
  | pattern :: others => WellFormed pattern ∧ AllWellFormed others

end

mutual

/-- The number of brackets around each other. -/
def depth : Pattern -> Nat
  | .wildcard | .var _ | .lit _ => 0
  | .tuple items => depthAll items + 1
  | .list items => depthAll items + 1

def depthAll : List Pattern -> Nat
  | [] => 0
  | pattern :: others => max (depth pattern) (depthAll others)

end

variable {source after : List Char} {room : Nat}

theorem write_tuple_append (items : List Pattern) (after : List Char) :
    write (.tuple items) ++ after = '\x7b' :: (writeItems items ++ '\x7d' :: after) := by
  simp only [write, List.cons_append, List.append_assoc, List.nil_append]

theorem write_list_append (items : List Pattern) (after : List Char) :
    write (.list items) ++ after = '[' :: (writeItems items ++ ']' :: after) := by
  simp only [write, List.cons_append, List.append_assoc, List.nil_append]

/-! ## How a written pattern begins -/

/-- A written pattern begins with no word of a block. -/
theorem opening_write {pattern : Pattern} (formed : pattern.WellFormed)
    (junction : Lexeme.Junction after) :
    Expr.Opening Expr.blockWords Expr.closingSigns (pattern.write ++ after) := by
  rcases junction.stops with ⟨c, tail, rfl, stop⟩
  cases pattern with
  | wildcard =>
      have read : Lexeme.identifier "_".toList = .ok "_" [] := rfl
      exact Expr.opening_name read (by decide) _ tail stop
  | var name =>
      have read := Lexeme.identifier_of_name formed.1
      have inside : Expr.blockWords ⊆ Lexeme.reserved := by
        decide
      exact Expr.opening_name read.1 (fun member => read.2 (inside member)) _ tail stop
  | lit literal => exact Lexeme.opening_patternLiteral formed junction
  | tuple items => exact .sign _ (by decide) (by decide) (by decide)
  | list items => exact .sign _ (by decide) (by decide) (by decide)

/-! ## Names -/

theorem read_wildcard (junction : Lexeme.Junction after) (room : Nat) :
    read room ('_' :: after) = .ok .wildcard after := by
  rcases junction.stops with ⟨c, tail, rfl, stop⟩
  have whole : Lexeme.name "_".toList = .ok "_" [] := rfl
  have name : Lexeme.name ('_' :: c :: tail) = .ok "_" (c :: tail) :=
    Expr.name_write whole tail stop
  refine read_of_readName (patternLiteral_of_name name) ?_ room
  simp only [readName, (Lexeme.identifier_of_name name).1]
  rfl

theorem read_var {name : String} (whole : Lexeme.name name.toList = .ok name [])
    (plain : name.toList.head? ≠ some '_') (junction : Lexeme.Junction after) (room : Nat) :
    read room (name.toList ++ after) = .ok (.var name) after := by
  rcases junction.stops with ⟨c, tail, rfl, stop⟩
  have read := Expr.name_write whole tail stop
  have word := Lexeme.identifier_of_name read
  have free : Lexeme.reserved.contains name = false := by
    rw [List.contains_eq_mem]
    exact decide_eq_false word.2
  refine read_of_readName (patternLiteral_of_name read) ?_ room
  simp only [readName, word.1, if_neg plain, free, Bool.false_eq_true, if_false]

/-! ## Items -/

section Items

variable {α : Type} {item : Reader α} {wrap : Pattern -> α} {items : List Pattern} {closer : Char}
  (reads : ∀ pattern ∈ items, ∀ c tail, c ∈ Expr.closingSigns ->
    spaced item (pattern.write ++ c :: tail) = .ok (wrap pattern) (c :: tail))
  (known : closer ∈ Expr.closingBrackets)

/-- The other items begin with a comma or with the bracket. -/
theorem writeOthers_append_cons (items : List Pattern) (known : closer ∈ Expr.closingBrackets)
    (after : List Char) : ∃ c tail, writeOthers items ++ closer :: after = c :: tail ∧
      c ∈ Expr.closingSigns := by
  cases items with
  | nil => exact ⟨closer, after, rfl, Expr.mem_closingSigns known (.inr rfl)⟩
  | cons pattern others => exact ⟨',', _, rfl, Expr.mem_closingSigns known (.inl rfl)⟩

include reads known

theorem commas_writeOthers (after : List Char) :
    Commas (spaced item) (writeOthers items ++ closer :: after) (items.map wrap)
      (closer :: after) := by
  induction items with
  | nil => exact .done (Expr.ne_comma_of_mem closer known) after
  | cons pattern others inductionHypothesis =>
      rcases List.forall_mem_cons.mp reads with ⟨first, later⟩
      have commas := inductionHypothesis later
      rcases writeOthers_append_cons others known after with ⟨c, tail, shape, mark⟩
      have source : writeOthers (pattern :: others) ++ closer :: after =
          ',' :: ' ' :: (pattern.write ++ c :: tail) := by
        simp only [writeOthers, List.cons_append, List.append_assoc, shape]
      rw [source]
      rw [shape] at commas
      refine .item (first c tail mark) ?_ commas
      simp only [List.length_cons, List.length_append]
      omega

/-- Whatever a reader makes of each item, it reads the items one after the other. -/
theorem separated_writeItems (none : ∃ place, item (closer :: after) = .miss place) :
    separated (spaced item) (writeItems items ++ closer :: after) =
      .ok (items.map wrap) (closer :: after) := by
  cases items with
  | nil =>
      have stays := Expr.dropWhile_isSpace_closer
        (Expr.closingSigns_facts closer (Expr.mem_closingSigns known (.inr rfl))).1 after
      rcases none with ⟨place, missed⟩
      rw [← stays] at missed
      have empty : spaced item (closer :: after) = .miss place := spaced_of_miss missed
      simp only [writeItems, List.nil_append, separated, empty, List.map_nil]
  | cons pattern others =>
      rcases List.forall_mem_cons.mp reads with ⟨first, later⟩
      have rows := (commas_writeOthers later known after).separatedFrom_eq [wrap pattern]
        (Nat.le_refl _)
      rcases writeOthers_append_cons others known after with ⟨c, tail, shape, mark⟩
      rw [shape] at rows
      simp only [writeItems, List.append_assoc, shape, separated, first c tail mark, rows,
        List.reverse_singleton, List.singleton_append, List.map_cons]

end Items

theorem readItems_write {item : Reader Pattern} {items : List Pattern} {closer : Char}
    (reads : ∀ pattern ∈ items, ∀ c tail, c ∈ Expr.closingSigns ->
      spaced item (pattern.write ++ c :: tail) = .ok pattern (c :: tail))
    (known : closer ∈ Expr.closingBrackets)
    (none : ∃ place, item (closer :: after) = .miss place) (opener : Char) :
    readItems opener closer item (opener :: (writeItems items ++ closer :: after)) =
      .ok items after := by
  have stays := Expr.dropWhile_isSpace_closer
    (Expr.closingSigns_facts closer (Expr.mem_closingSigns known (.inr rfl))).1 after
  have opened : char opener (opener :: (writeItems items ++ closer :: after)) =
      .ok () (writeItems items ++ closer :: after) := if_pos rfl
  have closed : char closer (closer :: after) = .ok () after := if_pos rfl
  have all := @separated_writeItems after _ item id items closer reads known none
  rw [List.map_id] at all
  have skipped : spaces (closer :: after) = .ok () (closer :: after) :=
    congrArg (Reply.ok ()) stays
  refine (bind_of_ok opened).trans ((bind_of_ok all).trans ?_)
  exact (bind_of_ok skipped).trans (bind_of_ok closed)

/-! ## Patterns -/

/-- No item begins with a closing bracket, as long as there is a level for one. -/
theorem read_closer {closer : Char} (known : closer ∈ ['\x7d', ']']) (tail : List Char)
    (positive : 0 < room) : ∃ place, read room (closer :: tail) = .miss place := by
  rcases Nat.exists_eq_succ_of_ne_zero (Nat.ne_zero_of_lt positive) with ⟨less, rfl⟩
  simp only [List.mem_cons, List.not_mem_nil, or_false] at known
  rcases known with rfl | rfl
  all_goals exact ⟨_, rfl⟩

theorem read_tuple {items : List Pattern}
    (items_read : readItems '\x7b' '\x7d' (read room)
      ('\x7b' :: (writeItems items ++ '\x7d' :: after)) = .ok items after) :
    read (room + 1) (write (.tuple items) ++ after) = .ok (.tuple items) after := by
  rw [write_tuple_append]
  refine (read_succ_of_none (patternLiteral_of_head (by decide) _)
    (readName_of_head (by decide) _) room).trans ?_
  exact orElse_of_ok (bind_of_ok items_read)

theorem read_list {items : List Pattern}
    (items_read : readItems '[' ']' (read room)
      ('[' :: (writeItems items ++ ']' :: after)) = .ok items after) :
    read (room + 1) (write (.list items) ++ after) = .ok (.list items) after := by
  have noTuple : char '\x7b' ('[' :: (writeItems items ++ ']' :: after)) = .miss _ := rfl
  rw [write_list_append]
  refine (read_succ_of_none (patternLiteral_of_head (by decide) _)
    (readName_of_head (by decide) _) room).trans ?_
  exact (orElse_of_miss (bind_of_miss (readItems_of_miss noTuple))).trans (bind_of_ok items_read)

/-- A pattern that is read in front of whatever may follow it is read as an item,
too. -/
theorem spaced_read_write {pattern : Pattern} (formed : pattern.WellFormed)
    (reads : ∀ after, Lexeme.Junction after ->
      read room (pattern.write ++ after) = .ok pattern after)
    {c : Char} (mark : c ∈ Expr.closingSigns) (tail : List Char) :
    spaced (read room) (pattern.write ++ c :: tail) = .ok pattern (c :: tail) := by
  have junction : Lexeme.Junction (c :: tail) := .closingSign mark tail
  have found := reads _ junction
  rw [← (opening_write formed junction).dropWhile_isSpace] at found
  have spaced := spaced_of_ok found
  rwa [Expr.dropWhile_isSpace_closer (Expr.closingSigns_facts c mark).1] at spaced

mutual

/-- A written pattern is read if there is a level for each of its brackets, and
one more for the place of an item in empty ones. -/
theorem read_write : (pattern : Pattern) -> pattern.WellFormed -> ∀ {room}, pattern.depth < room ->
    ∀ after, Lexeme.Junction after -> read room (pattern.write ++ after) = .ok pattern after
  | .wildcard, _, room, _, _, junction => read_wildcard junction room
  | .var _, formed, room, _, _, junction => read_var formed.1 formed.2 junction room
  | .lit _, formed, room, _, _, junction =>
      read_of_patternLiteral (Lexeme.patternLiteral_write formed junction) room
  | .tuple items, formed, room, fits, after, _ => by
      cases room with
      | zero => exact absurd fits (Nat.not_lt_zero _)
      | succ less =>
          have inside : depthAll items < less := Nat.lt_of_succ_lt_succ fits
          have none := read_closer (by decide : '\x7d' ∈ _) after (Nat.zero_lt_of_lt inside)
          exact read_tuple (readItems_write (spaced_read_writeAll items formed inside) (by decide)
            none '\x7b')
  | .list items, formed, room, fits, after, _ => by
      cases room with
      | zero => exact absurd fits (Nat.not_lt_zero _)
      | succ less =>
          have inside : depthAll items < less := Nat.lt_of_succ_lt_succ fits
          have none := read_closer (by decide : ']' ∈ _) after (Nat.zero_lt_of_lt inside)
          exact read_list (readItems_write (spaced_read_writeAll items formed inside) (by decide)
            none '[')

theorem spaced_read_writeAll : (items : List Pattern) -> AllWellFormed items -> ∀ {room},
    depthAll items < room -> ∀ pattern ∈ items, ∀ c tail, c ∈ Expr.closingSigns ->
      spaced (read room) (pattern.write ++ c :: tail) = .ok pattern (c :: tail)
  | [], _, _, _ => fun _ impossible => nomatch impossible
  | pattern :: others, formed, room, fits => by
      have both := Nat.max_lt.mp fits
      intro other member c tail mark
      cases member with
      | head => exact spaced_read_write formed.1 (read_write pattern formed.1 both.1) mark tail
      | tail _ member => exact spaced_read_writeAll others formed.2 both.2 other member c tail mark

end

end Pattern
end HtmlTemplate
