import HtmlTemplate.Proofs.Syntax.Lexemes

namespace HtmlTemplate
namespace Expr

/-!
# Operators and suffixes in front of a text

Some operators begin with others, a word may begin with the word of an operator,
and a point may begin a suffix or a range.  The tables here settle once what
each reader of an operator or a suffix makes of the texts that can stand in its
place: it takes its own operators in front of a space, and misses on all others
and on whatever can end an expression.
-/

open Reader

/-- The reader of the operators of one level. -/
def operatorAt (level : Nat) : Reader BinaryOp :=
  levels.getD level miss

/-- The readers from one level upwards. -/
def tower (inside : Nat -> Reader Expr) (level room : Nat) : Reader Expr :=
  (levels.drop level).foldr (fun op operand => chain op room operand)
    (prefixed room (suffixed inside))

theorem tower_eq_chain (inside : Nat -> Reader Expr) {level : Nat} (inTable : level < 7)
    (room : Nat) : tower inside level room =
      chain (operatorAt level) room (tower inside (level + 1) room) := by
  match level with
  | 0 | 1 | 2 | 3 | 4 | 5 | 6 => rfl

theorem level_cases {level : Nat} (inTable : level < 7) :
    level = 0 ∨ level = 1 ∨ level = 2 ∨ level = 3 ∨ level = 4 ∨ level = 5 ∨ level = 6 := by
  omega

theorem operatorAt_text (op : BinaryOp) (tail : List Char) :
    operatorAt op.level (op.text.toList ++ ' ' :: tail) = .ok op (' ' :: tail) := by
  cases op with
  | strict op => cases op <;> rfl
  | _ => rfl

theorem operatorAt_text_of_ne {op : BinaryOp} {level : Nat} (inTable : level < 7)
    (different : level ≠ op.level) (tail : List Char) :
    ∃ place, operatorAt level (op.text.toList ++ ' ' :: tail) = .miss place := by
  rcases level_cases inTable with rfl | rfl | rfl | rfl | rfl | rfl | rfl
  all_goals
    cases op with
    | strict op => cases op <;> first | exact ⟨_, rfl⟩ | exact absurd rfl different
    | _ => first | exact ⟨_, rfl⟩ | exact absurd rfl different

/-- Characters that can end an expression and begin no operator and no suffix. -/
def closers : List Char := '%' :: closingSigns

theorem operatorAt_closer {level : Nat} (inTable : level < 7) {c : Char} (closer : c ∈ closers)
    (tail : List Char) : ∃ place, operatorAt level (c :: tail) = .miss place := by
  simp only [closers, closingSigns, closingBrackets, List.mem_cons, List.not_mem_nil, or_false]
    at closer
  rcases closer with rfl | rfl | rfl | rfl | rfl
  all_goals
    rcases level_cases inTable with rfl | rfl | rfl | rfl | rfl | rfl | rfl
    all_goals exact ⟨_, rfl⟩

/-- No suffix begins at a place. -/
structure NoSuffix (source : List Char) : Prop where
  attr : ∃ place, attrSuffix source = .miss place
  bracket : ∃ place, char '[' source = .miss place

theorem NoSuffix.of_head {c : Char} (point : c ≠ '.') (bracket : c ≠ '[') (tail : List Char) :
    NoSuffix (c :: tail) where
  attr := by
    refine ⟨c :: tail, bind_of_miss ?_⟩
    simp only [char, if_neg point]
  bracket := ⟨c :: tail, by simp only [char, if_neg bracket]⟩

theorem NoSuffix.of_operator (op : BinaryOp) (tail : List Char) :
    NoSuffix (op.text.toList ++ ' ' :: tail) := by
  cases op with
  | strict op => cases op <;> exact ⟨⟨_, rfl⟩, ⟨_, rfl⟩⟩
  | _ => exact ⟨⟨_, rfl⟩, ⟨_, rfl⟩⟩

/-- What may stand after an operand: neither a suffix nor an operator of this
level or a tighter one. -/
structure Follow (level : Nat) (after : List Char) : Prop where
  mark : ∃ c tail, after = c :: tail ∧ c ∈ ' ' :: closingSigns
  noSuffix : NoSuffix (after.dropWhile isSpace)
  noOperator : ∀ other, level ≤ other -> other < 7 ->
    ∃ place, operatorAt other (after.dropWhile isSpace) = .miss place

namespace Follow

variable {level : Nat} {after : List Char}

theorem mono {other : Nat} (follow : Follow level after) (tighter : level ≤ other) :
    Follow other after where
  mark := follow.mark
  noSuffix := follow.noSuffix
  noOperator last above := follow.noOperator last (Nat.le_trans tighter above)

theorem junction (follow : Follow level after) : Lexeme.Junction after := by
  rcases follow.mark with ⟨c, tail, rfl, found⟩
  exact .mark tail (List.mem_cons_of_mem _ found)

theorem closer {c : Char} (closer : c ∈ closingSigns) (tail : List Char) :
    Follow 0 (c :: tail) := by
  have known := closingSigns_facts c closer
  have stays : (c :: tail).dropWhile isSpace = c :: tail := by
    simp only [List.dropWhile_cons, known.1, Bool.false_eq_true, if_false]
  refine ⟨⟨c, tail, rfl, List.mem_cons_of_mem _ closer⟩, ?_, ?_⟩
  · rw [stays]
    exact .of_head known.2.2.1 known.2.2.2 tail
  · rw [stays]
    exact fun other _ inTable => operatorAt_closer inTable (List.mem_cons_of_mem _ closer) tail

theorem closeTag (tail : List Char) : Follow 0 (' ' :: '%' :: tail) where
  mark := ⟨' ', _, rfl, by decide⟩
  noSuffix := .of_head (by decide) (by decide) tail
  noOperator _ _ inTable := operatorAt_closer inTable (by decide) tail

theorem dropWhile_operator (op : BinaryOp) (tail : List Char) :
    (' ' :: (op.text.toList ++ tail)).dropWhile isSpace = op.text.toList ++ tail := by
  cases op with
  | strict op => cases op <;> rfl
  | _ => rfl

theorem operator (op : BinaryOp) (tail : List Char) :
    Follow (op.level + 1) (' ' :: (op.text.toList ++ ' ' :: tail)) where
  mark := ⟨' ', _, rfl, by decide⟩
  noSuffix := by
    rw [dropWhile_operator]
    exact .of_operator op tail
  noOperator other tighter inTable := by
    rw [dropWhile_operator]
    exact operatorAt_text_of_ne inTable (by omega) tail

end Follow

end Expr
end HtmlTemplate
