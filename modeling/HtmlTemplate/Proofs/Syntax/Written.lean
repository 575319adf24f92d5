import HtmlTemplate.Syntax.TemplateReader
import Mathlib.Data.Bool.AllAny

namespace HtmlTemplate

/-!
# Expressions as they are written

An expression is written with one space on either side of a binary operator,
one space after an operator in front, a comma and a space between items, and
nothing else.  Parentheses are part of the tree, so none are added.

A tree can be written only if no operand is looser than its place allows and if
every name and literal is a text that its own reader takes whole.  Whether the
written text can be read again is then only a question of room, and `need` is
the exact amount.  It is not the height of the tree.  A chain of operators
takes as many levels as it has links, whatever stands in the operands.  The key
of an index is read with the room that the suffixes in front of it have left,
although they do not contain it.
-/

namespace BinaryOp

/-- The level of an operator in the table, the loosest first. -/
def level : BinaryOp -> Nat
  | .orWord | .orSign => 0
  | .andWord | .andSign => 1
  | .strict .equal | .strict .unequal => 2
  | .strict .less | .strict .greater | .strict .atMost | .strict .atLeast => 3
  | .strict .concat | .strict .range => 4
  | .strict .add | .strict .subtract => 5
  | .strict .multiply | .strict .divide => 6

theorem level_lt (op : BinaryOp) : op.level < 7 := by
  cases op with
  | strict op => cases op <;> decide
  | _ => decide

end BinaryOp

namespace Literal

/-- A literal as it is written. -/
def write : Literal -> List Char
  | .nil => "nil".toList
  | .bool true => "true".toList
  | .bool false => "false".toList
  | .num text => text.toList
  | .str spelling => '"' :: spelling.toList ++ ['"']
  | .atom name => ':' :: name.toList

/-- The literal is what its own reader reads from its whole text. -/
def Whole (literal : Literal) : Prop :=
  match literal with
  | .nil => True
  | .bool _ => True
  | .num _ => Lexeme.number literal.write = .ok literal []
  | .str _ => Lexeme.string literal.write = .ok literal []
  | .atom _ => Lexeme.atom literal.write = .ok literal []

end Literal

namespace Expr

mutual

/-- An expression as it is written. -/
@[simp]
def write : Expr -> List Char
  | .lit literal => literal.write
  | .assign name => '@' :: name.toList
  | .var name => name.toList
  | .list items => '[' :: (writeItems items ++ [']'])
  | .tuple items => '\x7b' :: (writeItems items ++ ['\x7d'])
  | .attr object name => write object ++ '.' :: name.toList
  | .index object key => write object ++ '[' :: (write key ++ [']'])
  | .call name args => name.toList ++ '(' :: (writeItems args ++ [')'])
  | .unary op operand => op.text.toList ++ ' ' :: write operand
  | .binary op left right => write left ++ ' ' :: (op.text.toList ++ ' ' :: write right)
  | .group inner => '(' :: (write inner ++ [')'])

/-- Items with commas between them. -/
@[simp]
def writeItems : List Expr -> List Char
  | [] => []
  | item :: others => write item ++ writeOthers others

/-- A comma and a space before each item. -/
@[simp]
def writeOthers : List Expr -> List Char
  | [] => []
  | item :: others => ',' :: ' ' :: (write item ++ writeOthers others)

end

/-- How tightly an expression holds together: the level of its operator, then
operators in front, suffixes and everything else. -/
@[simp]
def strength : Expr -> Nat
  | .binary op _ _ => op.level
  | .unary _ _ => 7
  | .attr _ _ => 8
  | .index _ _ => 8
  | _ => 9

mutual

/-- No operand is looser than its place allows, and names and literals are
texts that their readers take whole. -/
def WellFormed : Expr -> Prop
  | .lit literal => literal.Whole
  | .assign name => Lexeme.identifier name.toList = .ok name []
  | .var name => Lexeme.name name.toList = .ok name []
  | .list items => AllWellFormed items
  | .tuple items => AllWellFormed items
  | .attr object name =>
      8 ≤ object.strength ∧ WellFormed object ∧ Lexeme.identifier name.toList = .ok name []
  | .index object key => 8 ≤ object.strength ∧ WellFormed object ∧ WellFormed key
  | .call name args => Lexeme.name name.toList = .ok name [] ∧ AllWellFormed args
  | .unary _ operand => 7 ≤ operand.strength ∧ WellFormed operand
  | .binary op left right =>
      op.level ≤ left.strength ∧ WellFormed left ∧ op.level < right.strength ∧ WellFormed right
  | .group inner => WellFormed inner

def AllWellFormed : List Expr -> Prop
  | [] => True
  | expr :: others => WellFormed expr ∧ AllWellFormed others

end

/-- The number of suffixes at the end of an expression. -/
@[simp]
def suffixCount : Expr -> Nat
  | .attr object _ => suffixCount object + 1
  | .index object _ => suffixCount object + 1
  | _ => 0

/-- The number of links in a chain of operators of one level. -/
@[simp]
def linkCount (level : Nat) : Expr -> Nat
  | .binary op left _ => if op.level = level then linkCount level left + 1 else 0
  | _ => 0

mutual

/-- The room that an expression needs to be read. -/
@[simp]
def need : Expr -> Nat
  | .lit _ => 1
  | .assign _ => 1
  | .var _ => 1
  | .list items => needAll items + 1
  | .tuple items => needAll items + 1
  | .attr object _ => max (need object) (object.suffixCount + 2)
  | .index object key => max (need object) (object.suffixCount + 1 + need key)
  | .call _ args => needAll args + 1
  | .unary _ operand => need operand + 1
  | .binary op left right =>
      max (max (need left) (need right)) (linkCount op.level left + 1)
  | .group inner => need inner + 1

/-- The room that items need.  A place where there could be an item needs some,
too. -/
@[simp]
def needAll : List Expr -> Nat
  | [] => 1
  | expr :: others => max (need expr) (needAll others)

end

mutual

/-- The number of nodes on the longest path. -/
@[simp]
def height : Expr -> Nat
  | .lit _ => 1
  | .assign _ => 1
  | .var _ => 1
  | .list items => heightAll items + 1
  | .tuple items => heightAll items + 1
  | .attr object _ => height object + 1
  | .index object key => max (height object) (height key) + 1
  | .call _ args => heightAll args + 1
  | .unary _ operand => height operand + 1
  | .binary _ left right => max (height left) (height right) + 1
  | .group inner => height inner + 1

@[simp]
def heightAll : List Expr -> Nat
  | [] => 0
  | expr :: others => max (height expr) (heightAll others)

end

/-- Whether the last thing in an expression is the closing bracket of a list or
of a tuple.  White space after it is read along with it. -/
def endsInBracket : Expr -> Bool
  | .list _ => true
  | .tuple _ => true
  | .unary _ operand => endsInBracket operand
  | .binary _ _ right => endsInBracket right
  | _ => false

/-- What is left unread after an expression. -/
def restOf (expr : Expr) (after : List Char) : List Char :=
  if expr.endsInBracket then after.dropWhile Reader.isSpace else after

/-! ## In front of a text -/

/-- The closing brackets. -/
def closingBrackets : List Char := [')', ']', '\x7d']

/-- Signs that end an item.  No expression begins with one of them. -/
def closingSigns : List Char := ',' :: closingBrackets

theorem closingSigns_facts : ∀ c ∈ closingSigns, Reader.isSpace c = false ∧
    Lexeme.isNameStart c = false ∧ c ≠ '.' ∧ c ≠ '[' :=
  List.all_iff_forall_prop.mp (by decide)

theorem ne_comma_of_mem : ∀ c ∈ closingBrackets, c ≠ ',' :=
  List.all_iff_forall_prop.mp (by decide)

theorem mem_closingSigns {closer c : Char} (found : closer ∈ closingBrackets)
    (mark : c = ',' ∨ c = closer) : c ∈ closingSigns := by
  rcases mark with rfl | rfl
  · exact List.mem_cons_self ..
  · exact List.mem_cons_of_mem _ found

section Append

variable (object key inner operand left right : Expr) (items : List Expr) (name : String)
  (after : List Char)

theorem write_list_append :
    write (.list items) ++ after = '[' :: (writeItems items ++ ']' :: after) := by
  simp only [write, List.cons_append, List.append_assoc, List.nil_append]

theorem write_tuple_append :
    write (.tuple items) ++ after = '\x7b' :: (writeItems items ++ '\x7d' :: after) := by
  simp only [write, List.cons_append, List.append_assoc, List.nil_append]

theorem write_attr_append :
    write (.attr object name) ++ after = object.write ++ '.' :: (name.toList ++ after) := by
  simp only [write, List.cons_append, List.append_assoc]

theorem write_index_append :
    write (.index object key) ++ after = object.write ++ '[' :: (key.write ++ ']' :: after) := by
  simp only [write, List.cons_append, List.append_assoc, List.nil_append]

theorem write_call_append :
    write (.call name items) ++ after = name.toList ++ '(' :: (writeItems items ++ ')' :: after) := by
  simp only [write, List.cons_append, List.append_assoc, List.nil_append]

theorem write_unary_append (op : UnaryOp) :
    write (.unary op operand) ++ after = op.text.toList ++ ' ' :: (operand.write ++ after) := by
  simp only [write, List.cons_append, List.append_assoc]

theorem write_binary_append (op : BinaryOp) :
    write (.binary op left right) ++ after =
      left.write ++ ' ' :: (op.text.toList ++ ' ' :: (right.write ++ after)) := by
  simp only [write, List.cons_append, List.append_assoc]

theorem write_group_append :
    write (.group inner) ++ after = '(' :: (inner.write ++ ')' :: after) := by
  simp only [write, List.cons_append, List.append_assoc, List.nil_append]

theorem writeItems_cons_append :
    writeItems (inner :: items) ++ after = inner.write ++ (writeOthers items ++ after) := by
  simp only [writeItems, List.append_assoc]

theorem writeOthers_cons_append :
    writeOthers (inner :: items) ++ after =
      ',' :: ' ' :: (inner.write ++ (writeOthers items ++ after)) := by
  simp only [writeOthers, List.cons_append, List.append_assoc]

/-- The others begin with a comma or with the bracket. -/
theorem writeOthers_append_cons (closer : Char) :
    ∃ c tail, writeOthers items ++ closer :: after = c :: tail ∧ (c = ',' ∨ c = closer) := by
  cases items with
  | nil => exact ⟨closer, after, rfl, .inr rfl⟩
  | cons item others => exact ⟨',', _, rfl, .inl rfl⟩

end Append

/-! ## Room -/

theorem suffixCount_lt_need (expr : Expr) : expr.suffixCount < expr.need := by
  cases expr with
  | attr object name => simp only [suffixCount, need]; omega
  | index object key =>
      have positive := suffixCount_lt_need key
      simp only [suffixCount, need]
      omega
  | _ => simp only [suffixCount, need]; omega

theorem need_pos (expr : Expr) : 0 < expr.need :=
  Nat.lt_of_le_of_lt (Nat.zero_le _) (suffixCount_lt_need expr)

theorem suffixCount_lt_height : (expr : Expr) -> expr.suffixCount < expr.height
  | .attr object _ => Nat.succ_lt_succ (suffixCount_lt_height object)
  | .index object key => by
      have inner := suffixCount_lt_height object
      simp only [suffixCount, height]
      omega
  | .lit _ | .assign _ | .var _ | .list _ | .tuple _ | .call _ _ | .unary _ _ | .binary _ _ _
  | .group _ => by
      simp only [suffixCount, height]
      omega

theorem linkCount_lt_height (level : Nat) : (expr : Expr) -> expr.linkCount level < expr.height
  | .binary op left right => by
      have inner := linkCount_lt_height level left
      simp only [linkCount, height]
      split
      all_goals omega
  | .lit _ | .assign _ | .var _ | .list _ | .tuple _ | .attr _ _ | .index _ _ | .call _ _
  | .unary _ _ | .group _ => by
      simp only [linkCount, height]
      omega

mutual

/-- The most suffixes that stand in front of keys on a path. -/
def keyOffset : Expr -> Nat
  | .lit _ => 0
  | .assign _ => 0
  | .var _ => 0
  | .list items => keyOffsetAll items
  | .tuple items => keyOffsetAll items
  | .attr object _ => keyOffset object
  | .index object key => max (keyOffset object) (object.suffixCount + keyOffset key)
  | .call _ args => keyOffsetAll args
  | .unary _ operand => keyOffset operand
  | .binary _ left right => max (keyOffset left) (keyOffset right)
  | .group inner => keyOffset inner

def keyOffsetAll : List Expr -> Nat
  | [] => 0
  | expr :: others => max (keyOffset expr) (keyOffsetAll others)

end

mutual

/-- Apart from the suffixes in front of keys, an expression needs hardly more
room than it is high. -/
theorem need_le_height : (expr : Expr) -> expr.need ≤ expr.height + expr.keyOffset + 1
  | .lit _ => Nat.le_succ 1
  | .assign _ => Nat.le_succ 1
  | .var _ => Nat.le_succ 1
  | .list items => by
      have inner := needAll_le_heightAll items
      simp only [need, height, keyOffset]
      omega
  | .tuple items => by
      have inner := needAll_le_heightAll items
      simp only [need, height, keyOffset]
      omega
  | .attr object _ => by
      have inner := need_le_height object
      have suffixes := suffixCount_lt_height object
      simp only [need, height, keyOffset]
      omega
  | .index object key => by
      have first := need_le_height object
      have second := need_le_height key
      simp only [need, height, keyOffset]
      omega
  | .call _ args => by
      have inner := needAll_le_heightAll args
      simp only [need, height, keyOffset]
      omega
  | .unary _ operand => by
      have inner := need_le_height operand
      simp only [need, height, keyOffset]
      omega
  | .binary op left right => by
      have first := need_le_height left
      have second := need_le_height right
      have links := linkCount_lt_height op.level left
      simp only [need, height, keyOffset]
      omega
  | .group inner => by
      have inside := need_le_height inner
      simp only [need, height, keyOffset]
      omega

theorem needAll_le_heightAll : (exprs : List Expr) ->
    needAll exprs ≤ heightAll exprs + keyOffsetAll exprs + 1
  | [] => Nat.le_refl 1
  | expr :: others => by
      have first := need_le_height expr
      have second := needAll_le_heightAll others
      simp only [needAll, heightAll, keyOffsetAll]
      omega

end

/-! ## Repeated wrappers -/

section Repeated

variable {expr : Expr} (count : Nat)

/-- An expression in some pairs of parentheses. -/
def grouped (expr : Expr) : (count : Nat) -> Expr
  | 0 => expr
  | count + 1 => .group (grouped expr count)

theorem wellFormed_grouped (formed : expr.WellFormed) : (expr.grouped count).WellFormed := by
  induction count with
  | zero => exact formed
  | succ count inductionHypothesis => exact inductionHypothesis

/-- An expression with the same name after it several times. -/
def pointed (expr : Expr) (name : String) : (count : Nat) -> Expr
  | 0 => expr
  | count + 1 => .attr (pointed expr name count) name

theorem strength_pointed (tight : 8 ≤ expr.strength) (name : String) :
    8 ≤ (expr.pointed name count).strength := by
  cases count with
  | zero => exact tight
  | succ count => exact Nat.le_refl 8

theorem wellFormed_pointed (tight : 8 ≤ expr.strength) (formed : expr.WellFormed) {name : String}
    (read : Lexeme.identifier name.toList = .ok name []) :
    (expr.pointed name count).WellFormed := by
  induction count with
  | zero => exact formed
  | succ count inductionHypothesis =>
      exact ⟨strength_pointed count tight name, inductionHypothesis, read⟩

/-- A chain of additions that begins with an expression. -/
def summed (expr : Expr) : (count : Nat) -> Expr
  | 0 => expr
  | count + 1 => .binary (.strict .add) (summed expr count) (.lit (.num "1"))

theorem wellFormed_summed (tight : 8 ≤ expr.strength) (formed : expr.WellFormed) :
    (expr.summed count).WellFormed := by
  induction count with
  | zero => exact formed
  | succ count inductionHypothesis =>
      have loose : 5 ≤ (expr.summed count).strength := by
        cases count with
        | zero => exact Nat.le_trans (by decide) tight
        | succ count => exact Nat.le_refl 5
      exact ⟨loose, inductionHypothesis, by decide, rfl⟩

end Repeated

end Expr
end HtmlTemplate
