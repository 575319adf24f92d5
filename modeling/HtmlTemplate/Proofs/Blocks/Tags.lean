import HtmlTemplate.Proofs.Blocks.Patterns
import HtmlTemplate.Proofs.Concatenation.Sources

namespace HtmlTemplate

/-!
# Tags in the order in which they are tried

A tag is tried as the end of a block, as the head of a clause, as a binding, as
the opener of a block and only then as an expression.  The alternatives overlap
in their first character: the name of a call is a pattern as well, and the words
of blocks are names.  What separates them is the word itself, which is reserved,
or the sign after the pattern.

What is known of the heads of tags is said here once, as `Head` for the tags
that are nodes and as `Ends` for those that are not.  Each reader of a block is
then followed with its body left open: the body is any text that is read back up
to whatever ends it.
-/

open Reader

/-- Reading with white space around, where what stands behind the white space is
known. -/
theorem Reader.spaced_eq_ok {α : Type} {reader : Reader α} {value : α}
    {source middle rest last : List Char} (read : reader middle = .ok value rest)
    (front : source.dropWhile isSpace = middle) (back : rest.dropWhile isSpace = last) :
    spaced reader source = .ok value last := by
  subst front back
  exact spaced_of_ok read

theorem Reader.Rounds.uncons {α : Type} {reader : Reader α} {source rest : List Char} {value : α}
    {values : List α} (rounds : Rounds reader source (value :: values) rest) :
    ∃ middle, reader source = .ok value middle ∧ Rounds reader middle values rest := by
  cases rounds with
  | round read _ others => exact ⟨_, read, others⟩

/-! ## Words of blocks -/

namespace Lexeme

theorem blockWord_facts {word : String} (known : word ∈ Expr.blockWords) :
    identifier word.toList = .ok word [] ∧ word ∉ ["nil", "true", "false"] ∧
      word.toList.head? ≠ some '_' ∧ reserved.contains word = true := by
  simp only [Expr.blockWords, List.mem_cons, List.not_mem_nil, or_false] at known
  rcases known with rfl | rfl | rfl | rfl | rfl | rfl
  all_goals exact ⟨rfl, by decide, by decide, by decide⟩

/-- A word of a block in front of a space. -/
theorem identifier_blockWord {word : String} (known : word ∈ Expr.blockWords)
    (tail : List Char) : identifier (word.toList ++ ' ' :: tail) = .ok word (' ' :: tail) :=
  (local_identifier tail (by decide)).ok (blockWord_facts known).1

end Lexeme

namespace Pattern

variable {source : List Char} {room : Nat}

theorem read_of_none {place place' : List Char}
    (noLiteral : Lexeme.patternLiteral source = .miss place)
    (noName : readName source = .miss place') (noTuple : char '\x7b' source = .miss source)
    (noList : char '[' source = .miss source) (positive : 0 < room) :
    read room source = .miss source := by
  rcases Nat.exists_eq_succ_of_ne_zero (Nat.ne_zero_of_lt positive) with ⟨less, rfl⟩
  refine (read_succ_of_none noLiteral noName less).trans ?_
  exact (orElse_of_miss (bind_of_miss (readItems_of_miss noTuple))).trans
    (bind_of_miss (readItems_of_miss noList))

/-- The words of blocks are reserved. -/
theorem read_blockWord {word : String} (known : word ∈ Expr.blockWords) (tail : List Char)
    (positive : 0 < room) :
    read room (word.toList ++ ' ' :: tail) = .miss (word.toList ++ ' ' :: tail) := by
  have word := Lexeme.identifier_blockWord known tail
  have facts := Lexeme.blockWord_facts known
  exact read_of_none (Lexeme.patternLiteral_of_identifier word facts.2.1)
    (readName_of_reserved word facts.2.2.1 facts.2.2.2)
    (Expr.char_of_identifier word (by decide)) (Expr.char_of_identifier word (by decide)) positive

end Pattern

/-! ## Assigned names -/

namespace Expr

variable {name : String} {after : List Char} {room : Nat}

/-- `do` and the end of a tag do not belong to the expression in front. -/
theorem Follow.openBlock (tail : List Char) : Follow 0 (' ' :: 'd' :: 'o' :: ' ' :: tail) where
  mark := ⟨' ', _, rfl, by decide⟩
  noSuffix := .of_head (by decide) (by decide) _
  noOperator _ _ inTable := by
    rcases level_cases inTable with rfl | rfl | rfl | rfl | rfl | rfl | rfl
    all_goals exact ⟨_, rfl⟩

theorem read_of_wellFormed {expr : Expr} (formed : expr.WellFormed) (fits : expr.need ≤ room)
    (plain : expr.endsInBracket = false) (follow : Follow 0 after) :
    read room (expr.write ++ after) = .ok expr after := by
  have reads := (readable_of_wellFormed expr formed).atLevel 0 (Nat.zero_le 7) (Nat.zero_le _)
    room room after (Nat.le_refl room) follow
  have all := reads.eq_of_fits fits
  simp only [restOf, plain, Bool.false_eq_true, if_false] at all
  exact all

theorem read_assign (whole : Lexeme.identifier name.toList = .ok name []) (positive : 0 < room)
    (follow : Follow 0 after) :
    read room ('@' :: (name.toList ++ after)) = .ok (.assign name) after := by
  have formed : (Expr.assign name).WellFormed := whole
  exact read_of_wellFormed formed positive rfl follow

end Expr

namespace Node

variable {source after text : List Char} {name : String} {pattern : Pattern} {room : Nat}

/-- The end of a tag as it is written. -/
def closeText : List Char := [' ', '%', '>']

/-- `do` and the end of a tag as they are written. -/
def openText : List Char := [' ', 'd', 'o', ' ', '%', '>']

/-- A tag of one word as it is written. -/
def wordText (word : String) : List Char := '<' :: '%' :: ' ' :: (word.toList ++ closeText)

theorem wordText_append (word : String) (after : List Char) :
    wordText word ++ after = '<' :: '%' :: ' ' :: (word.toList ++ ' ' :: '%' :: '>' :: after) := by
  simp only [wordText, closeText, List.cons_append, List.append_assoc, List.nil_append]

/-! ## Heads of tags -/

/-- No arrow and no equals sign makes the head of a clause or of a binding of what
stands here: it begins with no pattern, or something else follows the pattern. -/
inductive Unbound (room : Nat) (source : List Char) : Prop where
  | none {place : List Char} (missed : Pattern.read room source = .miss place)
  | stopped {pattern : Pattern} {rest tail : List Char} {c : Char}
      (read : Pattern.read room source = .ok pattern rest)
      (stands : rest.dropWhile isSpace = c :: tail) (arrow : c ≠ '-') (sign : c ≠ '=')

/-- What a tag holds begins no clause, no binding and no end of a block. -/
structure Head (source : List Char) : Prop where
  opening : Expr.Opening ["end", "else"] Expr.closingSigns source
  unbound : ∀ room, 0 < room -> Unbound room source

theorem clauseHead_of_unbound {spacious : List Char} (stands : spacious.dropWhile isSpace = source)
    (unbound : Unbound room source) : ∃ place, clauseHead room spacious = .miss place := by
  subst stands
  cases unbound with
  | none missed => exact ⟨_, bind_of_miss (spaced_of_miss missed)⟩
  | @stopped pattern rest tail c read stands arrow sign =>
      have noArrow : exactly ['-', '>'] (c :: tail) = .miss (c :: tail) := by
        simp [exactly, List.isPrefixOf, Ne.symm arrow]
      rw [← stands] at noArrow
      exact ⟨_, (bind_of_ok (spaced_of_ok read)).trans (bind_of_miss noArrow)⟩

theorem bindingHead_of_unbound {spacious : List Char}
    (stands : spacious.dropWhile isSpace = source) (unbound : Unbound room source) :
    ∃ place, bindingHead room spacious = .miss place := by
  subst stands
  cases unbound with
  | none missed => exact ⟨_, bind_of_miss (spaced_of_miss missed)⟩
  | @stopped pattern rest tail c read stands arrow sign =>
      have noSign : char '=' (c :: tail) = .miss (c :: tail) := if_neg sign
      rw [← stands] at noSign
      exact ⟨_, (bind_of_ok (spaced_of_ok read)).trans (bind_of_miss noSign)⟩

/-- Where neither of the two words stands, only the head of a clause ends a
block. -/
theorem terminator_of_opening {signs : List Char}
    (opening : Expr.Opening ["end", "else"] signs source)
    (noClause : ∃ place, clauseHead room source = .miss place) :
    ∃ place, terminator room (' ' :: source) = .miss place := by
  have skipped : spaces (' ' :: source) = .ok () source :=
    congrArg (Reply.ok ()) opening.dropWhile_isSpace
  have noEnd := opening.keyword_of_mem (by decide : "end" ∈ _)
  have noElse := opening.keyword_of_mem (by decide : "else" ∈ _)
  rcases noClause with ⟨place, missed⟩
  exact ⟨place, (bind_of_ok skipped).trans
    ((orElse_of_miss noEnd).trans ((orElse_of_miss noElse).trans (bind_of_miss missed)))⟩

namespace Head

theorem terminator (head : Head source) (positive : 0 < room) :
    ∃ place, Node.terminator room (' ' :: source) = .miss place :=
  terminator_of_opening head.opening
    (clauseHead_of_unbound head.opening.dropWhile_isSpace (head.unbound room positive))

theorem bindingHead (head : Head source) (positive : 0 < room) :
    ∃ place, Node.bindingHead room (' ' :: source) = .miss place :=
  bindingHead_of_unbound head.opening.dropWhile_isSpace (head.unbound room positive)

/-- No pattern begins with the sign of an assigned name. -/
theorem of_sign (tail : List Char) : Head ('@' :: tail) where
  opening := .sign tail (by decide) (by decide) (by decide)
  unbound _ positive := .none (Pattern.read_of_none
    (Pattern.patternLiteral_of_head (by decide) tail) (Pattern.readName_of_head (by decide) tail)
    rfl rfl positive)

theorem of_word {word : String} (known : word ∈ ["if", "unless", "for", "case"])
    (tail : List Char) : Head (word.toList ++ ' ' :: tail) := by
  have inside : ["if", "unless", "for", "case"] ⊆ Expr.blockWords := by
    decide
  have apart : ∀ word ∈ ["if", "unless", "for", "case"], word ∉ ["end", "else"] := by
    decide
  exact ⟨Expr.opening_name (Lexeme.blockWord_facts (inside known)).1 (apart word known) _ tail
      (by decide), fun _ positive => .none (Pattern.read_blockWord (inside known) tail positive)⟩

/-- The name of a call could be a pattern, but a parenthesis follows it. -/
theorem of_call (whole : Lexeme.name name.toList = .ok name []) (tail : List Char) :
    Head (name.toList ++ '(' :: tail) := by
  have read := Expr.name_write whole tail (by decide : '(' ∈ Lexeme.stops)
  have word := Lexeme.identifier_of_name read
  have blocks : ["end", "else"] ⊆ Lexeme.reserved := by
    decide
  have noLiteral := Pattern.patternLiteral_of_name read
  rcases Pattern.readName_of_name read with ⟨pattern, named⟩
  refine ⟨.word word.1 (fun member => word.2 (blocks member)) ⟨_, _, rfl, by decide⟩, ?_⟩
  intro room _
  exact .stopped (Pattern.read_of_readName noLiteral named room) rfl (by decide) (by decide)

end Head

/-! ## Tags that are nodes -/

section Items

variable {inside : List Char} {place : List Char}

/-- A tag without a sign that ends no block is what its statement says. -/
theorem readItem_unsigned (noEnd : terminator (room + 1) (' ' :: inside) = .miss place) :
    readItem (room + 1) (statementOf (room + 1)) ('<' :: '%' :: ' ' :: inside) =
      readStatement .standard room (readAll .standard room) false (' ' :: inside) := by
  refine (readItem_tag (' ' :: inside) (by simp) (by simp)).trans ?_
  refine (bind_of_ok rfl).trans ((bind_of_ok (opening_tag _)).trans ?_)
  have unsigned : optional (char '=') (' ' :: inside) = .ok none (' ' :: inside) := rfl
  exact (bind_of_ok unsigned).trans (bind_of_ok (notAhead_of_miss noEnd))

theorem readItem_signed (noEnd : terminator (room + 1) (' ' :: inside) = .miss place) :
    readItem (room + 1) (statementOf (room + 1)) ('<' :: '%' :: '=' :: ' ' :: inside) =
      readStatement .standard room (readAll .standard room) true (' ' :: inside) := by
  refine (readItem_tag ('=' :: ' ' :: inside) (by simp) (by simp)).trans ?_
  refine (bind_of_ok rfl).trans ((bind_of_ok (opening_tag _)).trans ?_)
  have signed : optional (char '=') ('=' :: ' ' :: inside) = .ok (some ()) (' ' :: inside) := rfl
  exact (bind_of_ok signed).trans (bind_of_ok (notAhead_of_miss noEnd))

variable {action : Action}

/-- A head is read as an action, whether the tag prints it or not. -/
theorem readItem_print (head : Head inside)
    (read : readAction .standard room (readAll .standard room) inside = .ok action after) :
    readItem (room + 1) (statementOf (room + 1)) ('<' :: '%' :: '=' :: ' ' :: inside) =
      .ok (.print action) after := by
  rcases head.terminator (Nat.succ_pos room) with ⟨place, noEnd⟩
  have skipped : spaces (' ' :: inside) = .ok () inside :=
    congrArg (Reply.ok ()) head.opening.dropWhile_isSpace
  refine (readItem_signed noEnd).trans ((bind_of_ok rfl).trans ?_)
  exact (bind_of_ok skipped).trans (bind_of_ok read)

theorem readItem_silent (positive : 0 < room) (head : Head inside)
    (read : readAction .standard room (readAll .standard room) inside = .ok action after) :
    readItem (room + 1) (statementOf (room + 1)) ('<' :: '%' :: ' ' :: inside) =
      .ok (.silent action) after := by
  rcases head.terminator (Nat.succ_pos room) with ⟨place, noEnd⟩
  rcases head.bindingHead positive with ⟨place', noBinding⟩
  have skipped : spaces (' ' :: inside) = .ok () inside :=
    congrArg (Reply.ok ()) head.opening.dropWhile_isSpace
  refine (readItem_unsigned noEnd).trans ((bind_of_ok (optional_of_miss noBinding)).trans ?_)
  exact (bind_of_ok skipped).trans (bind_of_ok read)

end Items

/-! ## Patterns at the head of a tag -/

/-- A written pattern in front of a space is read, with the white space around it. -/
theorem spaced_pattern (formed : pattern.WellFormed) (fits : pattern.depth < room)
    {c : Char} (sign : isSpace c = false) (tail : List Char) :
    spaced (Pattern.read room) (' ' :: (pattern.write ++ ' ' :: c :: tail)) =
      .ok pattern (c :: tail) :=
  have junction := Expr.junction_space (c :: tail)
  spaced_eq_ok (Pattern.read_write pattern formed fits _ junction)
    (Pattern.opening_write formed junction).dropWhile_isSpace
    (Expr.dropWhile_isSpace_closer sign tail)

/-- A pattern with an equals sign after it is no head of a clause. -/
theorem terminator_binding (formed : pattern.WellFormed) (fits : pattern.depth < room)
    (tail : List Char) :
    ∃ place, terminator room (' ' :: (pattern.write ++ ' ' :: '=' :: tail)) = .miss place := by
  have junction := Expr.junction_space ('=' :: tail)
  have opening := Pattern.opening_write formed junction
  have words : ["end", "else"] ⊆ Expr.blockWords := by
    decide
  have unbound : ∃ place, clauseHead room (pattern.write ++ ' ' :: '=' :: tail) = .miss place := by
    have read := Pattern.read_write pattern formed fits _ junction
    rw [← opening.dropWhile_isSpace] at read
    exact ⟨_, (bind_of_ok (spaced_of_ok read)).trans (bind_of_miss rfl)⟩
  exact terminator_of_opening (opening.mono words (List.Subset.refl _)) unbound

theorem bindingHead_write (formed : pattern.WellFormed) (fits : pattern.depth < room)
    (tail : List Char) : bindingHead room (' ' :: (pattern.write ++ ' ' :: '=' :: ' ' :: tail)) =
      .ok pattern (' ' :: tail) :=
  (bind_of_ok (spaced_pattern formed fits (by decide) (' ' :: tail))).trans (bind_of_ok rfl)

theorem clauseHead_write (formed : pattern.WellFormed) (fits : pattern.depth < room)
    (tail : List Char) : clauseHead room (' ' :: (pattern.write ++ ' ' :: '-' :: '>' :: tail)) =
      .ok pattern tail :=
  (bind_of_ok (spaced_pattern formed fits (by decide) ('>' :: tail))).trans (bind_of_ok rfl)

/-! ## Ends of blocks -/

/-- What may stand after the nodes of a block or of a template: nothing, or a tag
that no node is read from. -/
structure Ends (room : Nat) (after : List Char) : Prop where
  shape : after = [] ∨ ∃ inside, after = '<' :: '%' :: inside
  missed : ∃ place, readItem room (statementOf room) after = .miss place

theorem Ends.nil (room : Nat) : Ends room [] :=
  ⟨.inl rfl, [], rfl⟩

theorem Ends.of_terminator {inside rest : List Char}
    (found : terminator room (' ' :: inside) = .ok () rest) :
    Ends room ('<' :: '%' :: ' ' :: inside) := by
  have ahead : notAhead (terminator room) (' ' :: inside) = .miss (' ' :: inside) := by
    simp only [notAhead, found]
  have unsigned : optional (char '=') (' ' :: inside) = .ok none (' ' :: inside) := rfl
  refine ⟨.inr ⟨_, rfl⟩, ' ' :: inside, (readItem_tag _ (by simp) (by simp)).trans ?_⟩
  refine (bind_of_ok rfl).trans ((bind_of_ok (opening_tag _)).trans ?_)
  exact (bind_of_ok unsigned).trans (bind_of_miss ahead)

section Words

variable {word : String} (known : word ∈ Expr.blockWords)

include known

/-- A word of a block stands behind the white space in front of it. -/
theorem dropWhile_blockWord (tail : List Char) :
    (' ' :: (word.toList ++ ' ' :: tail)).dropWhile isSpace = word.toList ++ ' ' :: tail := by
  have opening : Expr.Opening [] [] (word.toList ++ ' ' :: tail) :=
    Expr.opening_name (Lexeme.blockWord_facts known).1 (by simp) [] tail (by decide)
  exact opening.dropWhile_isSpace

theorem wordTag_write (after : List Char) :
    wordTag .standard word (wordText word ++ after) = .ok () after := by
  rw [wordText_append]
  refine wordTag_eq_ok_iff.mpr ⟨_, ' ' :: '%' :: '>' :: after, rfl, ?_, rfl⟩
  rw [dropWhile_blockWord known]
  exact Lexeme.keyword_of_identifier (Lexeme.identifier_blockWord known _)

theorem wordTag_of_ne {other : String} (different : word ≠ other) (after : List Char) :
    ∃ place, wordTag .standard other (wordText word ++ after) = .miss place := by
  rw [wordText_append]
  have missed := Lexeme.keyword_of_ne
    (Lexeme.identifier_blockWord known ('%' :: '>' :: after)) different
  rw [← dropWhile_blockWord known] at missed
  exact ⟨_, (bind_of_ok (opening_tag _)).trans (bind_of_miss (spaced_of_miss missed))⟩

end Words

/-- A tag of one of the two words ends the nodes of a block. -/
theorem Ends.of_word {word : String} (known : word = "end" ∨ word = "else") (after : List Char) :
    Ends room (wordText word ++ after) := by
  have inside : word ∈ Expr.blockWords := by
    rcases known with rfl | rfl
    all_goals decide
  have stops := stops_of_wordTag known (wordTag_write inside after) room
  rw [wordText_append] at stops ⊢
  rcases stops with ⟨_, rest, same, _, found⟩
  cases same
  exact .of_terminator found

theorem Ends.of_clause (formed : pattern.WellFormed) (fits : pattern.depth < room)
    (tail : List Char) :
    Ends room ('<' :: '%' :: ' ' :: (pattern.write ++ ' ' :: '-' :: '>' :: tail)) := by
  rcases terminator_of_clauseHead (clauseHead_write formed fits tail) with ⟨rest, found⟩
  exact .of_terminator found

theorem closeBlock_write (block : String) (after : List Char) :
    closeBlock .standard block (wordText "end" ++ after) = .ok () after := by
  simp only [closeBlock, require, wordTag_write (by decide : "end" ∈ Expr.blockWords) after]

theorem closeTag_write (after : List Char) :
    closeTag .standard (closeText ++ after) = .ok () after :=
  commit_of_ok ((bind_of_ok rfl).trans rfl)

/-- `do` is found behind the white space in front of it. -/
theorem spaced_do (after : List Char) :
    spaced (Lexeme.keyword "do") (openText ++ after) = .ok () ('%' :: '>' :: after) := by
  have read : Lexeme.keyword "do" ('d' :: 'o' :: (closeText ++ after)) =
      .ok () (closeText ++ after) := rfl
  exact spaced_eq_ok read rfl rfl

theorem openBlock_write (after : List Char) :
    openBlock .standard ('d' :: 'o' :: (closeText ++ after)) = .ok () after := by
  have read : spaced (Lexeme.keyword "do") ('d' :: 'o' :: (closeText ++ after)) =
      .ok () ('%' :: '>' :: after) := spaced_do after
  have found : require .missingDo (spaced (Lexeme.keyword "do"))
      ('d' :: 'o' :: (closeText ++ after)) = .ok () ('%' :: '>' :: after) := by
    simp only [require, read]
  exact (bind_of_ok found).trans (commit_of_ok ((bind_of_ok rfl).trans rfl))

/-! ## Expressions of tags -/

/-- An assigned name in front of `do`. -/
theorem spaced_assign (whole : Lexeme.identifier name.toList = .ok name []) (positive : 0 < room)
    (after : List Char) :
    spaced (Expr.read room) (' ' :: '@' :: (name.toList ++ (openText ++ after))) =
      .ok (.assign name) ('d' :: 'o' :: (closeText ++ after)) :=
  spaced_eq_ok (Expr.read_assign whole positive (.openBlock ('%' :: '>' :: after))) rfl rfl

/-- The subject of a block is read together with its `do`. -/
theorem opens_assign {α : Type} {next : Expr -> Reader α}
    (whole : Lexeme.identifier name.toList = .ok name []) (positive : 0 < room)
    (after : List Char) :
    (do
      let subject ← spaced (Expr.read room)
      openBlock .standard
      next subject) (' ' :: '@' :: (name.toList ++ (openText ++ after))) =
      next (.assign name) after :=
  (bind_of_ok (spaced_assign whole positive after)).trans (bind_of_ok (openBlock_write after))

theorem spaced_assign_close (whole : Lexeme.identifier name.toList = .ok name [])
    (positive : 0 < room) (after : List Char) :
    spaced (Expr.read room) (' ' :: '@' :: (name.toList ++ (closeText ++ after))) =
      .ok (.assign name) ('%' :: '>' :: after) :=
  spaced_eq_ok (Expr.read_assign whole positive (.closeTag ('>' :: after))) rfl rfl

/-- A pattern, an equals sign and an assigned name are a binding. -/
theorem readItem_bind (formed : pattern.WellFormed) (fits : pattern.depth < room)
    (whole : Lexeme.identifier name.toList = .ok name []) (after : List Char) :
    readItem (room + 1) (statementOf (room + 1)) ('<' :: '%' :: ' ' :: (pattern.write ++
      ' ' :: '=' :: ' ' :: '@' :: (name.toList ++ (closeText ++ after)))) =
      .ok (.bind pattern (.assign name)) after := by
  have positive := Nat.zero_lt_of_lt fits
  rcases terminator_binding formed (Nat.lt_succ_of_lt fits)
    (' ' :: '@' :: (name.toList ++ (closeText ++ after))) with ⟨place, noEnd⟩
  have head := bindingHead_write formed fits ('@' :: (name.toList ++ (closeText ++ after)))
  have closed : closeTag .standard ('%' :: '>' :: after) = .ok () after := closeTag_write after
  refine (readItem_unsigned noEnd).trans ((bind_of_ok (optional_of_ok head)).trans ?_)
  exact (bind_of_ok (spaced_assign_close whole positive after)).trans (bind_of_ok closed)

/-! ## Bodies -/

/-- The nodes are read back from a text, up to whatever ends the block. -/
def ReadsBack (room : Nat) (text : List Char) (nodes : List Node) : Prop :=
  ∀ after, Ends room after -> readAll .standard room (text ++ after) = .ok nodes after

section Actions

variable {nodes holds fails : List Node} {holdsText failsText : List Char}

/-- After its word, `if` and `unless` without `else`. -/
theorem readCond_write (negated : Bool) (whole : Lexeme.identifier name.toList = .ok name [])
    (positive : 0 < room) (reads : ReadsBack room text holds) (after : List Char) :
    readCond .standard room (readAll .standard room) negated
      (' ' :: '@' :: (name.toList ++ (openText ++ (text ++ (wordText "end" ++ after))))) =
      .ok (.cond negated (.assign name) holds []) after := by
  rcases wordTag_of_ne (by decide : "end" ∈ Expr.blockWords) (by decide : "end" ≠ "else") after
    with ⟨place, noElse⟩
  refine (opens_assign whole positive _).trans ?_
  refine (bind_of_ok (reads _ (.of_word (.inl rfl) after))).trans ?_
  refine (bind_of_ok (optional_of_miss noElse)).trans ((bind_of_ok rfl).trans ?_)
  exact bind_of_ok (closeBlock_write _ after)

/-- After its word, `if` and `unless` with `else`. -/
theorem readCond_write_else (negated : Bool) (whole : Lexeme.identifier name.toList = .ok name [])
    (positive : 0 < room) (readsHolds : ReadsBack room holdsText holds)
    (readsFails : ReadsBack room failsText fails) (after : List Char) :
    readCond .standard room (readAll .standard room) negated
      (' ' :: '@' :: (name.toList ++ (openText ++ (holdsText ++
        (wordText "else" ++ (failsText ++ (wordText "end" ++ after))))))) =
      .ok (.cond negated (.assign name) holds fails) after := by
  have other := wordTag_write (by decide : "else" ∈ Expr.blockWords)
    (failsText ++ (wordText "end" ++ after))
  refine (opens_assign whole positive _).trans ?_
  refine (bind_of_ok (readsHolds _ (.of_word (.inr rfl) _))).trans ?_
  refine (bind_of_ok (optional_of_ok other)).trans ?_
  refine (bind_of_ok (readsFails _ (.of_word (.inl rfl) after))).trans ?_
  exact bind_of_ok (closeBlock_write _ after)

theorem readLoop_write (formed : pattern.WellFormed) (fits : pattern.depth < room)
    (whole : Lexeme.identifier name.toList = .ok name []) (reads : ReadsBack room text nodes)
    (after : List Char) :
    readLoop .standard room (readAll .standard room)
      (' ' :: (pattern.write ++ ' ' :: '<' :: '-' :: ' ' :: '@' ::
        (name.toList ++ (openText ++ (text ++ (wordText "end" ++ after)))))) =
      .ok (.loop pattern (.assign name) nodes) after := by
  have positive := Nat.zero_lt_of_lt fits
  have arrow : require .missingArrow (exactly ['<', '-']) ('<' :: '-' :: ' ' :: '@' ::
      (name.toList ++ (openText ++ (text ++ (wordText "end" ++ after))))) = .ok () _ := rfl
  refine (bind_of_ok (spaced_pattern formed fits (by decide) _)).trans ((bind_of_ok arrow).trans ?_)
  refine (opens_assign whole positive _).trans ?_
  refine (bind_of_ok (reads _ (.of_word (.inl rfl) after))).trans ?_
  exact bind_of_ok (closeBlock_write _ after)

theorem readClause_write (formed : pattern.WellFormed) (fits : pattern.depth < room)
    (reads : ReadsBack room text nodes) {after : List Char} (ends : Ends room after) :
    readClause .standard room (readAll .standard room) ('<' :: '%' :: ' ' ::
      (pattern.write ++ ' ' :: '-' :: '>' :: (closeText ++ (text ++ after)))) =
      .ok (.clause pattern nodes) after := by
  refine (bind_of_ok (opening_tag _)).trans ((bind_of_ok (clauseHead_write formed fits _)).trans ?_)
  exact (bind_of_ok (closeTag_write _)).trans (bind_of_ok (reads after ends))

/-- No clause begins where the block ends. -/
theorem readClause_end (positive : 0 < room) (body : Reader (List Node)) (after : List Char) :
    ∃ place, readClause .standard room body (wordText "end" ++ after) = .miss place := by
  have known : "end" ∈ Expr.blockWords := by
    decide
  have missed := Pattern.read_blockWord known ('%' :: '>' :: after) positive
  rw [← dropWhile_blockWord known] at missed
  have noHead : clauseHead room (' ' :: ("end".toList ++ ' ' :: '%' :: '>' :: after)) = .miss _ :=
    bind_of_miss (spaced_of_miss missed)
  rw [wordText_append]
  exact ⟨_, (bind_of_ok (opening_tag _)).trans (bind_of_miss noHead)⟩

/-- After its word, `case`.  The clauses are given by the rounds that read them. -/
theorem readChoice_write (whole : Lexeme.identifier name.toList = .ok name [])
    (positive : 0 < room) {clauses : List Clause} (filled : clauses ≠ []) {inside : List Char}
    (rounds : Rounds (readClause .standard room (readAll .standard room)) ('<' :: inside) clauses
      (wordText "end" ++ after)) :
    readChoice .standard room (readAll .standard room)
      (' ' :: '@' :: (name.toList ++ (openText ++ '<' :: inside))) =
      .ok (.choice (.assign name) clauses) after := by
  rcases List.exists_cons_of_ne_nil filled with ⟨first, others, rfl⟩
  rcases rounds.uncons with ⟨middle, head, later⟩
  rcases readClause_end positive (readAll .standard room) after with ⟨place, stopped⟩
  have required : require .missingClause (readClause .standard room (readAll .standard room))
      ('<' :: inside) = .ok first middle := by
    simp only [require, head]
  have skipped : spaces ('<' :: inside) = .ok () ('<' :: inside) := rfl
  refine (opens_assign whole positive _).trans ?_
  refine (bind_of_ok skipped).trans ((bind_of_ok required).trans ?_)
  exact (bind_of_ok (later.many_eq stopped)).trans (bind_of_ok (closeBlock_write _ after))

/-! ## Actions -/

/-- No word of a block stands in front of an expression. -/
theorem readAction_of_opening {words : List String} {signs : List Char} {body : Reader (List Node)}
    (opening : Expr.Opening words signs source)
    (apart : ["if", "unless", "for", "case"] ⊆ words) :
    readAction .standard room body source = readPlain .standard room body source := by
  have inside (word : String) (accepted : ["if", "unless", "for", "case"].contains word = true) :
      word ∈ words := apart (List.elem_iff.mp accepted)
  rcases opening.identifierWhere_of_forall inside with ⟨place, missed⟩
  exact bind_of_ok (optional_of_miss missed)

/-- An expression in front of the end of the tag is an action of its own. -/
theorem readPlain_of_read {expr : Expr} {rest : List Char}
    (read : Expr.read room source = .ok expr rest)
    (ends : rest.dropWhile isSpace = '%' :: '>' :: after) (body : Reader (List Node)) :
    readPlain .standard room body source = .ok (.value expr) after := by
  have noWord : Lexeme.keyword "do" (rest.dropWhile isSpace) = .miss ('%' :: '>' :: after) := by
    rw [ends]
    exact Lexeme.keyword_of_head (by decide) "do"
  have noBlock := optional_of_miss (spaced_of_miss noWord)
  have skipped : spaces rest = .ok () ('%' :: '>' :: after) := congrArg (Reply.ok ()) ends
  have closed : closeTag .standard rest = .ok () after :=
    commit_of_ok ((bind_of_ok skipped).trans rfl)
  refine (bind_of_ok rfl).trans ((bind_of_ok read).trans ?_)
  exact (bind_of_ok noBlock).trans (bind_of_ok closed)

theorem readAction_value (whole : Lexeme.identifier name.toList = .ok name [])
    (positive : 0 < room) (body : Reader (List Node)) (after : List Char) :
    readAction .standard room body ('@' :: (name.toList ++ (closeText ++ after))) =
      .ok (.value (.assign name)) after := by
  have opening : Expr.Opening Expr.blockWords [] ('@' :: (name.toList ++ (closeText ++ after))) :=
    .sign _ (by decide) (by decide) (by simp)
  have read := Expr.read_assign whole positive (.closeTag ('>' :: after))
  exact (readAction_of_opening opening (by decide)).trans (readPlain_of_read read rfl body)

/-- A call with a block. -/
theorem readAction_callBlock {args : List Expr} (formed : (Expr.call name args).WellFormed)
    (fits : (Expr.call name args).need ≤ room) (reads : ReadsBack room text nodes)
    (after : List Char) :
    readAction .standard room (readAll .standard room) ((Expr.call name args).write ++
      (openText ++ (text ++ (wordText "end" ++ after)))) =
      .ok (.callBlock name args nodes) after := by
  have opening := Expr.opening_write (.call name args) formed
    (Expr.junction_space ('d' :: 'o' :: (closeText ++ (text ++ (wordText "end" ++ after)))))
  have read := Expr.read_of_wellFormed formed fits rfl
    (.openBlock ('%' :: '>' :: (text ++ (wordText "end" ++ after))))
  refine (readAction_of_opening opening (by decide)).trans ((bind_of_ok rfl).trans ?_)
  refine (bind_of_ok read).trans ((bind_of_ok (optional_of_ok (spaced_do _))).trans ?_)
  have closed : closeTag .standard ('%' :: '>' :: (text ++ (wordText "end" ++ after))) =
      .ok () (text ++ (wordText "end" ++ after)) := commit_of_ok ((bind_of_ok rfl).trans rfl)
  refine (bind_of_ok closed).trans ((bind_of_ok (reads _ (.of_word (.inl rfl) after))).trans ?_)
  exact bind_of_ok (closeBlock_write _ after)

section Openers

variable (tail : List Char) (body : Reader (List Node))

theorem identifierWhere_opener {word : String} (known : word ∈ ["if", "unless", "for", "case"]) :
    Lexeme.identifierWhere ["if", "unless", "for", "case"].contains (word.toList ++ ' ' :: tail) =
      .ok word (' ' :: tail) := by
  have inside : ["if", "unless", "for", "case"] ⊆ Expr.blockWords := by
    decide
  have accepted : ["if", "unless", "for", "case"].contains word = true := List.elem_iff.mpr known
  simp only [Lexeme.identifierWhere, Lexeme.identifier_blockWord (inside known) tail, accepted,
    if_true]

theorem readAction_cond (negated : Bool) :
    readAction .standard room body
      ((if negated then "unless" else "if").toList ++ ' ' :: tail) =
      readCond .standard room body negated (' ' :: tail) := by
  cases negated with
  | false => exact bind_of_ok (optional_of_ok (identifierWhere_opener tail (by decide)))
  | true => exact bind_of_ok (optional_of_ok (identifierWhere_opener tail (by decide)))

theorem readAction_loop : readAction .standard room body ("for".toList ++ ' ' :: tail) =
    readLoop .standard room body (' ' :: tail) :=
  bind_of_ok (optional_of_ok (identifierWhere_opener tail (by decide)))

theorem readAction_choice : readAction .standard room body ("case".toList ++ ' ' :: tail) =
    readChoice .standard room body (' ' :: tail) :=
  bind_of_ok (optional_of_ok (identifierWhere_opener tail (by decide)))

end Openers

end Actions

end Node
end HtmlTemplate
