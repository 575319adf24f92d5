import HtmlTemplate.Proofs.Blocks.Tags

namespace HtmlTemplate

/-!
# Written templates are read back

A template is written with one space on either side of whatever a tag holds.
The text of a tree is then one of the sources that the tree is read from: every
`else`, every head of a clause and every `end` goes to the innermost block that
is open, and no statement is taken for one of them.

The trees are those that can be told from their text at all.  A text is not
empty, holds no opening delimiter and does not stand next to another one, and a
comment does not hold the closing delimiter.  Expressions are assigned names
only, so that what is decided here is the structure of blocks alone.
-/

open Reader

/-- The expression is an assigned name. -/
def Expr.IsAssign (expr : Expr) : Prop :=
  ∃ name, expr = .assign name ∧ Lexeme.identifier name.toList = .ok name []

/-! ## The written form -/

def Node.isText : Node -> Bool
  | .text _ => true
  | _ => false

mutual

/-- A node as it is written. -/
def Node.write : Node -> List Char
  | .text text => text.toList
  | .comment text => '<' :: '%' :: '#' :: (text.toList ++ ['%', '>'])
  | .print action => '<' :: '%' :: '=' :: ' ' :: Action.write action
  | .silent action => '<' :: '%' :: ' ' :: Action.write action
  | .bind pattern expr =>
      '<' :: '%' :: ' ' :: (pattern.write ++ ' ' :: '=' :: ' ' :: (expr.write ++ Node.closeText))

def Node.writeAll : List Node -> List Char
  | [] => []
  | node :: others => Node.write node ++ Node.writeAll others

/-- The rest of a tag with its block.  An empty `else` is left out. -/
def Action.write : Action -> List Char
  | .value expr => expr.write ++ Node.closeText
  | .cond negated test holds fails =>
      (if negated then "unless" else "if").toList ++ ' ' :: (test.write ++ (Node.openText ++
        (Node.writeAll holds ++
          ((if fails.isEmpty then [] else Node.wordText "else" ++ Node.writeAll fails) ++
            Node.wordText "end"))))
  | .loop pattern source body =>
      "for".toList ++ ' ' :: (pattern.write ++ ' ' :: '<' :: '-' :: ' ' :: (source.write ++
        (Node.openText ++ (Node.writeAll body ++ Node.wordText "end"))))
  | .choice subject clauses =>
      "case".toList ++ ' ' :: (subject.write ++ (Node.openText ++
        (Clause.writeAll clauses ++ Node.wordText "end")))
  | .callBlock name args body =>
      (Expr.call name args).write ++ (Node.openText ++
        (Node.writeAll body ++ Node.wordText "end"))

/-- A clause as it is written. -/
def Clause.write : Clause -> List Char
  | .clause pattern body =>
      '<' :: '%' :: ' ' :: (pattern.write ++ ' ' :: '-' :: '>' :: (Node.closeText ++
        Node.writeAll body))

def Clause.writeAll : List Clause -> List Char
  | [] => []
  | clause :: others => Clause.write clause ++ Clause.writeAll others

end

mutual

/-- Texts and comments can be told from the delimiters around them, names and
literals are texts that their readers take whole, and expressions are assigned
names. -/
def Node.WellFormed : Node -> Prop
  | .text text => text.toList ≠ [] ∧ ¬['<', '%'] <:+: text.toList
  | .comment text => ¬['%', '>'] <:+: text.toList
  | .print action => Action.WellFormed action
  | .silent action => Action.WellFormed action
  | .bind pattern expr => pattern.WellFormed ∧ expr.IsAssign

/-- No text stands next to another one. -/
def Node.AllWellFormed : List Node -> Prop
  | [] => True
  | node :: others =>
      Node.WellFormed node ∧ (∀ next ∈ others.head?, ¬(node.isText = true ∧ next.isText = true)) ∧
        Node.AllWellFormed others

def Action.WellFormed : Action -> Prop
  | .value expr => expr.IsAssign
  | .cond _ test holds fails =>
      test.IsAssign ∧ Node.AllWellFormed holds ∧ Node.AllWellFormed fails
  | .loop pattern source body =>
      pattern.WellFormed ∧ source.IsAssign ∧ Node.AllWellFormed body
  | .choice subject clauses =>
      subject.IsAssign ∧ clauses ≠ [] ∧ Clause.AllWellFormed clauses
  | .callBlock name args body =>
      Lexeme.name name.toList = .ok name [] ∧ (∀ arg ∈ args, arg.IsAssign) ∧
        Node.AllWellFormed body

def Clause.WellFormed : Clause -> Prop
  | .clause pattern body => pattern.WellFormed ∧ Node.AllWellFormed body

def Clause.AllWellFormed : List Clause -> Prop
  | [] => True
  | clause :: others => Clause.WellFormed clause ∧ Clause.AllWellFormed others

end

mutual

/-- The number of blocks and of brackets of patterns around each other. -/
def Node.depth : Node -> Nat
  | .text _ | .comment _ => 0
  | .print action => Action.depth action
  | .silent action => Action.depth action
  | .bind pattern _ => pattern.depth

def Node.depthAll : List Node -> Nat
  | [] => 0
  | node :: others => max (Node.depth node) (Node.depthAll others)

def Action.depth : Action -> Nat
  | .value _ => 0
  | .cond _ _ holds fails => max (Node.depthAll holds) (Node.depthAll fails) + 1
  | .loop pattern _ body => max pattern.depth (Node.depthAll body) + 1
  | .choice _ clauses => Clause.depthAll clauses + 1
  | .callBlock _ _ body => Node.depthAll body + 1

def Clause.depth : Clause -> Nat
  | .clause pattern body => max pattern.depth (Node.depthAll body)

def Clause.depthAll : List Clause -> Nat
  | [] => 0
  | clause :: others => max (Clause.depth clause) (Clause.depthAll others)

end

namespace Node

variable {content after : List Char} {room : Nat}

/-! ## Texts and comments -/

/-- A text that does not hold a delimiter of two characters does not begin one
with the delimiter after it either. -/
theorem splitAt_first {a b : Char} (different : a ≠ b) (free : ¬[a, b] <:+: content)
    (before after : List Char) : splitAt? [a, b] before (content ++ a :: b :: after) =
      some (before.reverse ++ content, a :: b :: after) := by
  induction content generalizing before with
  | nil =>
      have begins : ([a, b] : List Char).isPrefixOf (a :: b :: after) = true := by
        simp [List.isPrefixOf]
      rw [List.nil_append, splitAt?, if_pos begins, List.append_nil]
  | cons c tail inductionHypothesis =>
      have later : ¬([a, b] : List Char).isPrefixOf (c :: (tail ++ a :: b :: after)) = true := by
        rw [List.isPrefixOf_iff_prefix]
        intro begins
        cases tail with
        | nil =>
            rcases begins with ⟨_, same⟩
            cases same
            exact different rfl
        | cons d others =>
            have inside : [a, b] <+: c :: d :: others :=
              List.prefix_of_prefix_length_le begins
                (List.prefix_append (c :: d :: others) _) (by simp)
            exact free inside.isInfix
      have rest : ¬[a, b] <:+: tail := fun inside =>
        free (inside.trans (List.suffix_cons ..).isInfix)
      rw [List.cons_append, splitAt?, if_neg later, inductionHypothesis rest, List.reverse_cons,
        List.append_assoc, List.singleton_append]

theorem splitAt_none {text : List Char} (filled : text ≠ []) (free : ¬text <:+: content)
    (before : List Char) : splitAt? text before content = none := by
  cases found : splitAt? text before content with
  | none => rfl
  | some pair =>
      rcases pair with ⟨passed, rest⟩
      rcases eq_of_splitAt filled found with ⟨front, _, rfl, there⟩
      exact absurd (there.isInfix.trans (List.suffix_append ..).isInfix) free

theorem readItem_text {text : String} (filled : text.toList ≠ [])
    (free : ¬['<', '%'] <:+: text.toList)
    (next : after = [] ∨ ∃ inside, after = '<' :: '%' :: inside) :
    readItem room (statementOf room) (text.toList ++ after) = .ok (.text text) after := by
  rcases next with rfl | ⟨inside, rfl⟩
  · have read := readText_of_none .standard filled (splitAt_none (by simp) free [])
    rw [String.ofList_toList] at read
    rw [List.append_nil]
    exact orElse_of_ok read
  · have read := readText_of_split .standard filled (splitAt_first (by decide) free [] inside)
    rw [String.ofList_toList] at read
    exact orElse_of_ok read

theorem readItem_comment_write {text : String} (free : ¬['%', '>'] <:+: text.toList)
    (after : List Char) :
    readItem room (statementOf room) ('<' :: '%' :: '#' :: (text.toList ++ '%' :: '>' :: after)) =
      .ok (.comment text) after := by
  have read := readComment_of_split (splitAt_first (by decide) free [] after)
  rw [List.reverse_nil, List.nil_append, String.ofList_toList] at read
  rw [readItem_comment]
  exact read

/-! ## Shapes -/

theorem write_ne_nil {node : Node} (formed : node.WellFormed) : node.write ≠ [] := by
  cases node with
  | text text => exact formed.1
  | _ => exact List.cons_ne_nil _ _

/-- Whatever is no text begins with a delimiter. -/
theorem write_of_noText {node : Node} (other : node.isText = false) :
    ∃ inside, node.write = '<' :: '%' :: inside := by
  cases node with
  | text text => cases other
  | _ => exact ⟨_, rfl⟩

theorem writeAll_shape {nodes : List Node} (ends : Ends room after)
    (noText : ∀ next ∈ nodes.head?, next.isText = false) :
    writeAll nodes ++ after = [] ∨ ∃ inside, writeAll nodes ++ after = '<' :: '%' :: inside := by
  cases nodes with
  | nil => exact ends.shape
  | cons node others =>
      rcases write_of_noText (noText node rfl) with ⟨inside, shape⟩
      exact .inr ⟨inside ++ (writeAll others ++ after), by
        simp only [writeAll, shape, List.cons_append, List.append_assoc]⟩

end Node

namespace Action

variable {room : Nat} {after : List Char}

theorem head_write {action : Action} (formed : action.WellFormed) (after : List Char) :
    Node.Head (action.write ++ after) := by
  cases action with
  | value expr =>
      rcases formed with ⟨name, rfl, _⟩
      exact .of_sign _
  | cond negated test holds fails =>
      have known : (if negated then "unless" else "if") ∈ ["if", "unless", "for", "case"] := by
        cases negated
        all_goals decide
      rw [Action.write, List.append_assoc]
      exact .of_word known _
  | loop pattern source body =>
      rw [Action.write, List.append_assoc]
      exact .of_word (by decide) _
  | choice subject clauses =>
      rw [Action.write, List.append_assoc]
      exact .of_word (by decide) _
  | callBlock name args body =>
      rw [Action.write, List.append_assoc, Expr.write_call_append]
      exact .of_call formed.1 _

end Action

theorem Clause.writeAll_shape {clauses : List Clause} (filled : clauses ≠ []) (after : List Char) :
    ∃ inside, Clause.writeAll clauses ++ after = '<' :: inside := by
  cases clauses with
  | nil => exact absurd rfl filled
  | cons clause others =>
      cases clause with
      | clause pattern body => exact ⟨_, rfl⟩

/-- After the nodes of a clause there is the next clause or the end of the
block. -/
theorem Node.ends_clauses {room : Nat} {clauses : List Clause}
    (formed : Clause.AllWellFormed clauses) (fits : Clause.depthAll clauses < room)
    (after : List Char) :
    Node.Ends room (Clause.writeAll clauses ++ (Node.wordText "end" ++ after)) := by
  cases clauses with
  | nil => exact .of_word (.inl rfl) after
  | cons clause others =>
      cases clause with
      | clause pattern body =>
          have low : pattern.depth < room :=
            (Nat.max_lt.mp (Nat.max_lt.mp fits).1).1
          simp only [Clause.writeAll, Clause.write, List.cons_append, List.append_assoc]
          exact .of_clause formed.1.1 low _

/-- What is read is taken from the source, so a round makes it shorter. -/
theorem Node.length_lt_append {text : List Char} (filled : text ≠ []) (after : List Char) :
    after.length < (text ++ after).length := by
  have size := List.length_pos_iff.mpr filled
  rw [List.length_append]
  omega

/-- There is room for both parts if there is room for the deeper one. -/
theorem Node.fits_both {first second room : Nat} (fits : max first second + 2 ≤ room) :
    first + 2 ≤ room ∧ second + 2 ≤ room := by
  omega

/-! ## Trees -/

theorem Expr.allWellFormed_of_isAssign {args : List Expr} (assigned : ∀ arg ∈ args, arg.IsAssign) :
    Expr.AllWellFormed args := by
  induction args with
  | nil => trivial
  | cons arg others inductionHypothesis =>
      rcases List.forall_mem_cons.mp assigned with ⟨⟨name, rfl, whole⟩, later⟩
      exact ⟨whole, inductionHypothesis later⟩

theorem Expr.need_call_of_isAssign (name : String) {args : List Expr}
    (assigned : ∀ arg ∈ args, arg.IsAssign) : (Expr.call name args).need ≤ 2 := by
  refine Nat.succ_le_succ (Expr.needAll_le_iff.mpr ⟨Nat.le_refl 1, fun arg member => ?_⟩)
  rcases assigned arg member with ⟨_, rfl, _⟩
  exact Nat.le_refl 1

namespace Node

variable {room : Nat}

/-- The rounds that read the nodes of a block read the block. -/
theorem readsBack_of_rounds {text : List Char} {nodes : List Node}
    (rounds : ∀ after, Ends room after ->
      Rounds (readItem room (statementOf room)) (text ++ after) nodes after) :
    ReadsBack room text nodes := by
  intro after ends
  rcases ends.missed with ⟨place, missed⟩
  rw [readAll_eq]
  exact (rounds after ends).many_eq missed

mutual

/-- A node is read from its text.  After a text there has to be a delimiter or
nothing. -/
theorem readItem_write : (node : Node) -> node.WellFormed -> ∀ {room}, node.depth + 2 ≤ room ->
    ∀ after, (node.isText = true -> after = [] ∨ ∃ inside, after = '<' :: '%' :: inside) ->
      readItem room (statementOf room) (node.write ++ after) = .ok node after
  | .text content, formed, room, _, after, next => readItem_text formed.1 formed.2 (next rfl)
  | .comment content, formed, room, _, after, _ => by
      simp only [Node.write, List.cons_append, List.append_assoc, List.nil_append]
      exact readItem_comment_write formed after
  | .print action, formed, room, fits, after, _ => by
      cases room with
      | zero => omega
      | succ less =>
          have read := readAction_write action formed (Nat.le_of_succ_le_succ fits) after
          exact readItem_print (action.head_write formed after) read
  | .silent action, formed, room, fits, after, _ => by
      cases room with
      | zero => omega
      | succ less =>
          have low : action.depth + 1 ≤ less := Nat.le_of_succ_le_succ fits
          have read := readAction_write action formed low after
          have positive : 0 < less := Nat.lt_of_lt_of_le (Nat.succ_pos _) low
          exact readItem_silent positive (action.head_write formed after) read
  | .bind pattern expr, ⟨formed, name, same, whole⟩, room, fits, after, _ => by
      subst same
      cases room with
      | zero => omega
      | succ less =>
          have read := readItem_bind formed (Nat.le_of_succ_le_succ fits) whole after
          simp only [Node.write, Expr.write, List.cons_append, List.append_assoc]
          exact read

/-- The nodes are read one after another, up to whatever ends them. -/
theorem rounds_writeAll : (nodes : List Node) -> AllWellFormed nodes -> ∀ {room},
    depthAll nodes + 2 ≤ room -> ∀ after, Ends room after ->
      Rounds (readItem room (statementOf room)) (writeAll nodes ++ after) nodes after
  | [], _, room, _, after, _ => .done after
  | node :: others, formed, room, fits, after, ends => by
      rcases fits_both fits with ⟨fitsNode, fitsOthers⟩
      have next (textual : node.isText = true) : ∀ other ∈ others.head?, other.isText = false :=
        fun other member => eq_false_of_ne_true fun also => formed.2.1 other member ⟨textual, also⟩
      have read := readItem_write node formed.1 fitsNode (writeAll others ++ after)
        fun textual => writeAll_shape ends (next textual)
      rw [writeAll, List.append_assoc]
      exact .round read (length_lt_append (write_ne_nil formed.1) _)
        (rounds_writeAll others formed.2.2 fitsOthers after ends)

/-- The reader of a tag has one level less than the tag, and so has the body. -/
theorem readAction_write : (action : Action) -> action.WellFormed -> ∀ {room},
    action.depth + 1 ≤ room -> ∀ after,
      readAction .standard room (readAll .standard room) (action.write ++ after) = .ok action after
  | .value expr, ⟨name, same, whole⟩, room, fits, after => by
      subst same
      simp only [Action.write, Expr.write, List.cons_append, List.append_assoc]
      exact readAction_value whole (Nat.lt_of_lt_of_le (Nat.succ_pos _) fits) _ after
  | .cond negated test holds fails, ⟨⟨name, same, whole⟩, formedHolds, formedFails⟩, room, fits,
      after => by
      subst same
      rcases fits_both fits with ⟨fitsHolds, fitsFails⟩
      have positive : 0 < room := Nat.lt_of_lt_of_le (Nat.succ_pos _) fitsHolds
      have readsHolds := readsBack_of_rounds (rounds_writeAll holds formedHolds fitsHolds)
      have readsFails := readsBack_of_rounds (rounds_writeAll fails formedFails fitsFails)
      simp only [Action.write, Expr.write, List.cons_append, List.append_assoc]
      rw [readAction_cond]
      cases fails with
      | nil => exact readCond_write negated whole positive readsHolds after
      | cons node others =>
          simp only [List.isEmpty_cons, Bool.false_eq_true, if_false, List.append_assoc]
          exact readCond_write_else negated whole positive readsHolds readsFails after
  | .loop pattern source body, ⟨formed, ⟨name, same, whole⟩, formedBody⟩, room, fits, after => by
      subst same
      rcases fits_both fits with ⟨fitsPattern, fitsBody⟩
      have reads := readsBack_of_rounds (rounds_writeAll body formedBody fitsBody)
      simp only [Action.write, Expr.write, List.cons_append, List.append_assoc]
      rw [readAction_loop]
      exact readLoop_write formed (Nat.lt_of_succ_lt fitsPattern) whole reads after
  | .choice subject clauses, ⟨⟨name, same, whole⟩, filled, formed⟩, room, fits, after => by
      subst same
      have positive : 0 < room := Nat.lt_of_lt_of_le (Nat.succ_pos _) fits
      have rounds := rounds_clauses clauses formed fits after
      rcases Clause.writeAll_shape filled (wordText "end" ++ after) with ⟨inside, shape⟩
      simp only [Action.write, Expr.write, List.cons_append, List.append_assoc]
      rw [shape] at rounds ⊢
      rw [readAction_choice]
      exact readChoice_write whole positive filled rounds
  | .callBlock name args body, formed, room, fits, after => by
      have call : (Expr.call name args).WellFormed :=
        ⟨formed.1, Expr.allWellFormed_of_isAssign formed.2.1⟩
      have small : (Expr.call name args).need ≤ room :=
        Nat.le_trans (Expr.need_call_of_isAssign name formed.2.1)
          (Nat.le_trans (Nat.le_add_left 2 _) fits)
      have reads := readsBack_of_rounds (rounds_writeAll body formed.2.2 fits)
      rw [Action.write, List.append_assoc, List.append_assoc, List.append_assoc]
      exact readAction_callBlock call small reads after

/-- The clauses are read one after another, up to the end of their block. -/
theorem rounds_clauses : (clauses : List Clause) -> Clause.AllWellFormed clauses -> ∀ {room},
    Clause.depthAll clauses + 2 ≤ room -> ∀ after,
      Rounds (readClause .standard room (readAll .standard room))
        (Clause.writeAll clauses ++ (wordText "end" ++ after)) clauses (wordText "end" ++ after)
  | [], _, room, _, after => .done _
  | .clause pattern body :: others, ⟨⟨formed, formedBody⟩, formedOthers⟩, room, fits, after => by
      rcases fits_both fits with ⟨fitsClause, fitsOthers⟩
      rcases fits_both fitsClause with ⟨fitsPattern, fitsBody⟩
      have reads := readsBack_of_rounds (rounds_writeAll body formedBody fitsBody)
      have read := readClause_write formed (Nat.lt_of_succ_lt fitsPattern) reads
        (ends_clauses formedOthers (Nat.lt_of_succ_lt fitsOthers) after)
      have filled : (Clause.clause pattern body).write ≠ [] := List.cons_ne_nil _ _
      have shorter := length_lt_append filled
        (Clause.writeAll others ++ (wordText "end" ++ after))
      simp only [Clause.writeAll, Clause.write, List.cons_append, List.append_assoc] at shorter ⊢
      exact .round read shorter (rounds_clauses others formedOthers fitsOthers after)

end

/-! ## Templates -/

/-- The text of a tree is read as the tree.  All but two of the levels of nesting
can be blocks and brackets of patterns around each other: one is for the tag
inside of the innermost block, and one for the place of an item in the innermost
brackets. -/
theorem parse_written {nodes : List Node} (formed : AllWellFormed nodes)
    (shallow : depthAll nodes ≤ 126) (template : Option String) :
    parse .standard template (String.ofList (writeAll nodes)) = .ok nodes := by
  have fits : depthAll nodes + 2 ≤ maxDepth := Nat.add_le_add_right shallow 2
  have rounds := rounds_writeAll nodes formed fits [] (.nil maxDepth)
  rw [List.append_nil] at rounds
  refine parse_of_rounds ?_ template
  rwa [String.toList_ofList]

/-- Every kind of block, one in another, with patterns that could be taken for
other tags. -/
def nestedBlocks : List Node :=
  [.text "a < b ",
    .comment "note",
    .bind (.tuple [.lit (.atom "ok"), .var "v"]) (.assign "x"),
    .print (.cond false (.assign "v")
      [.print (.loop (.list [.var "k", .wildcard]) (.assign "items")
        [.silent (.value (.assign "k"))])]
      [.text "no"]),
    .silent (.callBlock "box" [.assign "x", .assign "y"]
      [.print (.choice (.assign "x")
        [.clause (.lit (.num "-1")) [.text "neg"], .clause .wildcard []])])]

def nestedText : String :=
  "a < b <%#note%><% \x7b:ok, v\x7d = @x %><%= if @v do %>" ++
    "<%= for [k, _] <- @items do %><% @k %><% end %><% else %>no<% end %>" ++
    "<% box(@x, @y) do %><%= case @x do %><% -1 -> %>neg<% _ -> %><% end %><% end %>"

theorem parse_written_nestedBlocks : parse .standard none nestedText = .ok nestedBlocks := by
  have assign (name : String) (whole : Lexeme.identifier name.toList = .ok name []) :
      (Expr.assign name).IsAssign := ⟨name, rfl, whole⟩
  have loop : AllWellFormed [.print (.loop (.list [.var "k", .wildcard]) (.assign "items")
      [.silent (.value (.assign "k"))])] :=
    ⟨⟨⟨⟨rfl, by decide⟩, trivial, trivial⟩, assign "items" rfl,
      assign "k" rfl, by simp, trivial⟩, by simp, trivial⟩
  have choice : AllWellFormed [.print (.choice (.assign "x")
      [.clause (.lit (.num "-1")) [.text "neg"], .clause .wildcard []])] :=
    ⟨⟨assign "x" rfl, by simp, ⟨rfl, ⟨by decide, by decide⟩, by simp, trivial⟩,
      ⟨trivial, trivial⟩, trivial⟩, by simp, trivial⟩
  have comment : ¬['%', '>'] <:+: "note".toList := by
    decide
  have args : ∀ arg ∈ [Expr.assign "x", .assign "y"], arg.IsAssign := by
    simp only [List.forall_mem_cons]
    exact ⟨assign "x" rfl, assign "y" rfl, nofun⟩
  have formed : AllWellFormed nestedBlocks :=
    ⟨⟨by decide, by decide⟩, by simp [isText], comment, by simp [isText],
      ⟨⟨rfl, ⟨rfl, by decide⟩, trivial⟩, assign "x" rfl⟩, by simp [isText],
      ⟨assign "v" rfl, loop, ⟨by decide, by decide⟩, by simp, trivial⟩, by simp [isText],
      ⟨rfl, args, choice⟩, by simp, trivial⟩
  have text : nestedText = String.ofList (writeAll nestedBlocks) := by
    decide +kernel
  rw [text]
  exact parse_written formed (by decide) none

end Node
end HtmlTemplate
