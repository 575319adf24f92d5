import HtmlTemplate.Proofs.Syntax.Chains

namespace HtmlTemplate
namespace Expr

/-!
# Written expressions are read back

Every level of the reader reads a written expression exactly if there is the
room that the expression needs, and goes too deep otherwise.  The induction
follows the tree.  It has to carry more than the reading at one level: the
object of a suffix is read together with the suffixes after it, the left operand
of a chain together with the links after it, and the operand of an operator in
front together with the operators before it.
-/

open Reader

variable {expr : Expr} {level : Nat}

/-- The suffixes of an expression are read, and the loop stands where they end.
-/
def ReadsSuffixed (expr : Expr) : Prop :=
  ∀ rounds room after, room ≤ rounds -> Lexeme.Junction after ->
    Settles (suffixed (readRounds rounds) room (expr.write ++ after)) (expr.need ≤ room)
      (suffixes (readRounds rounds) (room - expr.suffixCount) expr (expr.restOf after))

/-- A level reads the expression in front of whatever can follow it. -/
def ReadsAt (level : Nat) (expr : Expr) : Prop :=
  ∀ rounds room after, room ≤ rounds -> Follow level after ->
    Settles (tower (readRounds rounds) level room (expr.write ++ after)) (expr.need ≤ room)
      (.ok expr (expr.restOf after))

/-- A level reads the expression as the beginning of a chain. -/
def ReadsLinksAt (level : Nat) (expr : Expr) : Prop :=
  ∀ rounds room after, room ≤ rounds -> Follow (level + 1) after ->
    ReadsLinks (tower (readRounds rounds) (level + 1) room)
      (link (operatorAt level) (tower (readRounds rounds) (level + 1) room))
      (operandNeed level expr ≤ room) (expr.write ++ after) expr (linkCount level expr)
      (expr.restOf after)

/-- What the induction carries. -/
structure Readable (expr : Expr) : Prop where
  suffixed : 8 ≤ expr.strength -> ReadsSuffixed expr
  ahead : 7 ≤ expr.strength -> ∃ ops core, Prefixed ops core expr ∧ ReadsSuffixed core
  links : ∀ level, level < 7 -> level ≤ expr.strength -> ReadsLinksAt level expr
  atLevel : ∀ level, level ≤ 7 -> level ≤ expr.strength -> ReadsAt level expr

/-! ## Levels -/

theorem dropWhile_restOf (expr : Expr) (after : List Char) :
    (expr.restOf after).dropWhile isSpace = after.dropWhile isSpace := by
  unfold restOf
  split
  · induction after with
    | nil => rfl
    | cons c tail inductionHypothesis =>
        rw [List.dropWhile_cons]
        split
        · exact inductionHypothesis
        · rename_i stays
          rw [List.dropWhile_cons, if_neg stays]
  · rfl

/-- A chain is read once its links are. -/
theorem readsAt_of_links (inTable : level < 7) (links : ReadsLinksAt level expr) :
    ReadsAt level expr := by
  intro rounds room after enough follow
  rw [tower_eq_chain _ inTable]
  rcases follow.noOperator level (Nat.le_refl level) inTable with ⟨place, missed⟩
  rw [← dropWhile_restOf expr] at missed
  have reads := links rounds room after enough (follow.mono (Nat.le_succ level))
  exact (reads.chain ⟨place, spaced_of_miss missed⟩).congr (need_le_iff level expr).symm

/-- An expression of a tighter level is a chain without links. -/
theorem links_of_readsAt (tighter : level < expr.strength) (reads : ReadsAt (level + 1) expr) :
    ReadsLinksAt level expr := by
  intro rounds room after enough follow
  have none := link_of_tighter tighter
  rw [none.1, none.2]
  exact .single (reads rounds room after enough follow)

/-- Looser levels read what a level reads. -/
theorem readsAt_of_looser {top : Nat} (inTable : top ≤ 7) (tight : top ≤ expr.strength)
    (reads : ReadsAt top expr) (looser : level ≤ top) : ReadsAt level expr := by
  induction looser using Nat.decreasingInduction with
  | self => exact reads
  | of_succ level below inductionHypothesis =>
      have tighter : level < expr.strength := Nat.lt_of_lt_of_le below tight
      exact readsAt_of_links (Nat.lt_of_lt_of_le below inTable)
        (links_of_readsAt tighter inductionHypothesis)

theorem noSuffix_restOf (expr : Expr) {after : List Char} (follow : Follow level after) :
    NoSuffix (expr.restOf after) := by
  unfold restOf
  split
  · exact follow.noSuffix
  · rcases follow.mark with ⟨c, tail, rfl, found⟩
    rcases List.mem_cons.mp found with rfl | closer
    · exact .of_head (by decide) (by decide) tail
    · have facts := closingSigns_facts c closer
      exact .of_head facts.2.2.1 facts.2.2.2 tail

/-- Above all levels stand the operators in front. -/
theorem readsAt_of_ahead {ops : List UnaryOp} {core : Expr} (ahead : Prefixed ops core expr)
    (reads : ReadsSuffixed core) : ReadsAt 7 expr := by
  intro rounds room after enough follow
  have less : room - ops.length ≤ rounds := Nat.le_trans (Nat.sub_le ..) enough
  have suffixed := reads rounds _ after less follow.junction
  refine ahead.settles follow.junction ?_
  refine (suffixed.trans fun fits => .of_eq ?_ trivial).congr (iff_of_eq (and_true _))
  have left := core.suffixCount_lt_need
  cases remaining : room - ops.length - core.suffixCount with
  | zero => omega
  | succ count => exact suffixes_of_noSuffix (noSuffix_restOf core follow) core

/-! ## Trees of operators -/

/-- Everything follows for an expression that no binary operator is at the top
of. -/
theorem readable_of_ahead {ops : List UnaryOp} {core : Expr} (tight : 7 ≤ expr.strength)
    (ahead : Prefixed ops core expr) (reads : ReadsSuffixed core) : Readable expr := by
  have top := readsAt_of_ahead ahead reads
  have atLevel (level : Nat) (inTable : level ≤ 7) : ReadsAt level expr :=
    readsAt_of_looser (Nat.le_refl 7) tight top inTable
  constructor
  · intro primary
    cases ahead with
    | bare _ _ => exact reads
    | op _ _ _ =>
        have impossible : 8 ≤ 7 := primary
        omega
  · intro _
    exact ⟨ops, core, ahead, reads⟩
  · intro level below _
    exact links_of_readsAt (Nat.lt_of_lt_of_le below tight) (atLevel (level + 1) below)
  · intro level inTable _
    exact atLevel level inTable

theorem readable_of_suffixed (tight : 8 ≤ expr.strength) (formed : expr.WellFormed)
    (reads : ReadsSuffixed expr) : Readable expr :=
  readable_of_ahead (Nat.le_of_succ_le tight) (.bare tight formed) reads

theorem readable_unary (op : UnaryOp) {operand : Expr} (tight : 7 ≤ operand.strength)
    (formed : operand.WellFormed) (readable : Readable operand) :
    Readable (.unary op operand) := by
  rcases readable.ahead tight with ⟨ops, core, ahead, reads⟩
  exact readable_of_ahead (Nat.le_refl 7) (.op op formed ahead) reads

/-- The right operand and its operator are one link more after the left one. -/
theorem links_binary (op : BinaryOp) {left right : Expr} (tight : op.level ≤ left.strength)
    (tighter : op.level < right.strength) (formed : right.WellFormed)
    (readableLeft : Readable left) (readableRight : Readable right) :
    ReadsLinksAt op.level (.binary op left right) := by
  intro rounds room after enough follow
  have links := readableLeft.links op.level op.level_lt tight rounds room _ enough
    (Follow.operator op (right.write ++ after))
  have operand := readableRight.atLevel (op.level + 1) op.level_lt tighter rounds room after enough
    follow
  have opening := opening_write right formed follow.junction
  have skipped := (dropWhile_restOf left
    (' ' :: (op.text.toList ++ ' ' :: (right.write ++ after)))).trans
    (Follow.dropWhile_operator op (' ' :: (right.write ++ after)))
  have sign := operatorAt_text op (right.write ++ after)
  rw [← skipped] at sign
  have spacedSign := spaced_of_ok sign
  have next : (' ' :: (right.write ++ after)).dropWhile isSpace = right.write ++ after :=
    opening.dropWhile_isSpace
  rw [next] at spacedSign
  have pair : Settles ((do
      let right ← tower (readRounds rounds) (op.level + 1) room
      return (op, right) : Reader (BinaryOp × Expr)) (right.write ++ after))
      (right.need ≤ room) (.ok (op, right) (right.restOf after)) :=
    operand.andThen rfl
  have read : Settles (link (operatorAt op.level) (tower (readRounds rounds) (op.level + 1) room)
      (left.restOf (' ' :: (op.text.toList ++ ' ' :: (right.write ++ after)))))
      (right.need ≤ room) (.ok (op, right) (right.restOf after)) :=
    pair.of_reply (bind_of_ok spacedSign)
  have shorter : (right.restOf after).length <
      (left.restOf (' ' :: (op.text.toList ++ ' ' :: (right.write ++ after)))).length := by
    have dropped := congrArg List.length skipped
    have first := (List.dropWhile_suffix isSpace
      (l := left.restOf (' ' :: (op.text.toList ++ ' ' :: (right.write ++ after))))).length_le
    have last : (right.restOf after).length ≤ after.length := by
      unfold restOf
      split
      · exact (List.dropWhile_suffix isSpace).length_le
      · exact Nat.le_refl _
    simp only [List.length_append, List.length_cons] at dropped
    omega
  have whole := links.snoc read shorter
  simp only [operandNeed, linkCount, if_true, Nat.max_le]
  rw [write_binary_append]
  exact whole

theorem readable_binary (op : BinaryOp) {left right : Expr} (tight : op.level ≤ left.strength)
    (tighter : op.level < right.strength) (formed : right.WellFormed)
    (readableLeft : Readable left) (readableRight : Readable right) :
    Readable (.binary op left right) := by
  have chained := links_binary op tight tighter formed readableLeft readableRight
  have top := readsAt_of_links op.level_lt chained
  have loose := op.level_lt
  have atLevel (level : Nat) (looser : level ≤ op.level) : ReadsAt level (.binary op left right) :=
    readsAt_of_looser (Nat.le_of_lt loose) (Nat.le_refl op.level) top looser
  constructor
  · intro primary
    have impossible : 8 ≤ op.level := primary
    omega
  · intro primary
    have impossible : 7 ≤ op.level := primary
    omega
  · intro level below looser
    rcases Nat.eq_or_lt_of_le looser with rfl | looser
    · exact chained
    · exact links_of_readsAt looser (atLevel (level + 1) looser)
  · intro level _ looser
    exact atLevel level looser

/-! ## Primary expressions and suffixes -/

theorem readsSuffixed_of_always (alone : expr.need = 1) (bare : expr.suffixCount = 0)
    (open' : expr.endsInBracket = false)
    (always : ∀ inside room after, Lexeme.Junction after ->
      primary inside room (expr.write ++ after) = .ok expr after) : ReadsSuffixed expr := by
  intro rounds room after enough junction
  have rest : expr.restOf after = after := by
    simp only [restOf, open', Bool.false_eq_true, if_false]
  have read : suffixed (readRounds rounds) room (expr.write ++ after) =
      suffixes (readRounds rounds) room expr after :=
    bind_of_ok (always _ room after junction)
  rw [alone, bare, rest, read]
  cases room with
  | zero => exact .of_tooDeep (tooDeep_suffixes_zero expr junction) (by omega)
  | succ less => exact .of_eq rfl (by omega)

theorem readsSuffixed_of_primary (bare : expr.suffixCount = 0)
    (reads : ∀ rounds room after, room ≤ rounds -> Lexeme.Junction after ->
      Settles (primary (readRounds rounds) room (expr.write ++ after)) (expr.need ≤ room)
        (.ok expr (expr.restOf after))) : ReadsSuffixed expr := by
  intro rounds room after enough junction
  rw [bare]
  exact (reads rounds room after enough junction).andThen rfl

/-- Inside of brackets an expression is read in front of a comma or of the
closing bracket. -/
theorem Readable.inside (readable : Readable expr) {rounds room : Nat} (enough : room < rounds)
    {c : Char} (mark : c ∈ closingSigns) (tail : List Char) :
    Settles (readRounds rounds room (expr.write ++ c :: tail)) (expr.need ≤ room)
      (.ok expr (c :: tail)) := by
  cases rounds with
  | zero => omega
  | succ rounds =>
      have reads := readable.atLevel 0 (Nat.zero_le 7) (Nat.zero_le _) rounds room _ (by omega)
        (Follow.closer mark tail)
      rw [restOf_cons (closingSigns_facts c mark).1] at reads
      exact reads

/-- The readers inside of brackets have one level less. -/
theorem readsItems_of_readable {exprs : List Expr}
    (readable : ∀ expr ∈ exprs, Readable expr) (formed : ∀ expr ∈ exprs, expr.WellFormed)
    {rounds : Nat} {closer : Char} (found : closer ∈ closingBrackets) {room : Nat}
    (enough : room < rounds) : ReadsItems (readRounds rounds room) id room closer exprs where
  known := found
  formed := formed
  reads expr member _ tail mark :=
    (readable expr member).inside enough (mem_closingSigns found mark) tail
  none tail := by
    cases rounds with
    | zero => omega
    | succ rounds =>
        exact ⟨_, settles_tower_closer (readRounds rounds) found tail (Nat.zero_le 7)⟩

theorem readsSuffixed_attr {object : Expr} {name : String} (reads : ReadsSuffixed object)
    (read : Lexeme.identifier name.toList = .ok name []) :
    ReadsSuffixed (.attr object name) := by
  intro rounds room after enough junction
  have first := reads rounds room _ enough (junction_attr read after)
  rw [restOf_cons (by decide)] at first
  rw [write_attr_append]
  have second (fits : object.need ≤ room) : Settles
      (suffixes (readRounds rounds) (room - object.suffixCount) object
        ('.' :: (name.toList ++ after))) (object.suffixCount + 2 ≤ room)
      (suffixes (readRounds rounds) (room - (object.suffixCount + 1)) (.attr object name)
        after) := by
    have left := object.suffixCount_lt_need
    have remaining : room - object.suffixCount = room - (object.suffixCount + 1) + 1 := by
      omega
    rw [remaining, suffixes_attr read junction]
    cases last : room - (object.suffixCount + 1) with
    | zero => exact .of_tooDeep (tooDeep_suffixes_zero _ junction) (by omega)
    | succ less => exact .of_eq rfl (by omega)
  exact (first.trans second).congr Nat.max_le.symm

theorem readsSuffixed_index {object key : Expr} (reads : ReadsSuffixed object)
    (readable : Readable key) (formed : key.WellFormed) :
    ReadsSuffixed (.index object key) := by
  intro rounds room after enough junction
  have bracket : Lexeme.Junction ('[' :: (key.write ++ ']' :: after)) := .mark _ (by decide)
  have first := reads rounds room _ enough bracket
  rw [restOf_cons (by decide)] at first
  rw [write_index_append]
  have second (fits : object.need ≤ room) : Settles
      (suffixes (readRounds rounds) (room - object.suffixCount) object
        ('[' :: (key.write ++ ']' :: after))) (object.suffixCount + 1 + key.need ≤ room)
      (suffixes (readRounds rounds) (room - (object.suffixCount + 1)) (.index object key)
        after) := by
    have left := object.suffixCount_lt_need
    have remaining : room - object.suffixCount = room - (object.suffixCount + 1) + 1 := by
      omega
    have less : room - (object.suffixCount + 1) < rounds := by
      omega
    have inner := readable.inside less (by decide : ']' ∈ closingSigns) after
    have opening := opening_write key formed (.mark after (by decide : ']' ∈ _))
    rw [remaining]
    exact (settles_suffixes_index opening inner object).congr (by omega)
  exact (first.trans second).congr Nat.max_le.symm

section Brackets

variable {exprs : List Expr} (readable : ∀ expr ∈ exprs, Readable expr)
  (formed : ∀ expr ∈ exprs, expr.WellFormed)

include readable formed

theorem readsSuffixed_list : ReadsSuffixed (.list exprs) := by
  refine readsSuffixed_of_primary rfl fun rounds room after enough _ => ?_
  have known (less : Nat) (same : room = less + 1) :=
    readsItems_of_readable readable formed (by decide : ']' ∈ closingBrackets)
      (by omega : less < rounds)
  rw [write_list_append]
  exact settles_primary_list known

theorem readsSuffixed_tuple : ReadsSuffixed (.tuple exprs) := by
  refine readsSuffixed_of_primary rfl fun rounds room after enough _ => ?_
  have known (less : Nat) (same : room = less + 1) :=
    readsItems_of_readable readable formed (by decide : '\x7d' ∈ closingBrackets)
      (by omega : less < rounds)
  rw [write_tuple_append]
  exact settles_primary_tuple known

theorem readsSuffixed_call {name : String} (read : Lexeme.name name.toList = .ok name []) :
    ReadsSuffixed (.call name exprs) := by
  refine readsSuffixed_of_primary rfl fun rounds room after enough _ => ?_
  have known (less : Nat) (same : room = less + 1) :=
    readsItems_of_readable readable formed (by decide : ')' ∈ closingBrackets)
      (by omega : less < rounds)
  rw [write_call_append]
  exact settles_primary_call read known

end Brackets

theorem readsSuffixed_group {inner : Expr} (readable : Readable inner)
    (formed : inner.WellFormed) : ReadsSuffixed (.group inner) := by
  refine readsSuffixed_of_primary rfl fun rounds room after enough _ => ?_
  have known (less : Nat) (same : room = less + 1) :=
    readsItems_of_readable (List.forall_mem_singleton.mpr readable)
      (List.forall_mem_singleton.mpr formed) (by decide : ')' ∈ closingBrackets)
      (by omega : less < rounds)
  rw [write_group_append]
  exact settles_primary_group known

/-! ## All trees -/

theorem wellFormed_of_mem {exprs : List Expr} (formed : AllWellFormed exprs) :
    ∀ expr ∈ exprs, expr.WellFormed := by
  induction exprs with
  | nil => exact fun _ impossible => nomatch impossible
  | cons expr others inductionHypothesis =>
      exact List.forall_mem_cons.mpr ⟨formed.1, inductionHypothesis formed.2⟩

mutual

/-- Every well-formed expression is read at all the levels that it may stand
at. -/
theorem readable_of_wellFormed : (expr : Expr) -> expr.WellFormed -> Readable expr
  | .lit _, formed =>
      readable_of_suffixed (Nat.le_succ 8) formed
        (readsSuffixed_of_always rfl rfl rfl fun _ _ _ junction => primary_lit formed junction)
  | .assign _, formed =>
      readable_of_suffixed (Nat.le_succ 8) formed
        (readsSuffixed_of_always rfl rfl rfl fun _ _ _ junction => primary_assign formed junction)
  | .var _, formed =>
      readable_of_suffixed (Nat.le_succ 8) formed
        (readsSuffixed_of_primary rfl fun _ _ _ _ junction => settles_primary_var formed junction)
  | .list items, formed =>
      readable_of_suffixed (Nat.le_succ 8) formed
        (readsSuffixed_list (readable_of_allWellFormed items formed) (wellFormed_of_mem formed))
  | .tuple items, formed =>
      readable_of_suffixed (Nat.le_succ 8) formed
        (readsSuffixed_tuple (readable_of_allWellFormed items formed) (wellFormed_of_mem formed))
  | .attr object _, formed =>
      readable_of_suffixed (Nat.le_refl 8) formed
        (readsSuffixed_attr ((readable_of_wellFormed object formed.2.1).suffixed formed.1)
          formed.2.2)
  | .index object key, formed =>
      readable_of_suffixed (Nat.le_refl 8) formed
        (readsSuffixed_index ((readable_of_wellFormed object formed.2.1).suffixed formed.1)
          (readable_of_wellFormed key formed.2.2) formed.2.2)
  | .call _ args, formed =>
      readable_of_suffixed (Nat.le_succ 8) formed
        (readsSuffixed_call (readable_of_allWellFormed args formed.2)
          (wellFormed_of_mem formed.2) formed.1)
  | .unary op operand, formed =>
      readable_unary op formed.1 formed.2 (readable_of_wellFormed operand formed.2)
  | .binary op left right, formed =>
      readable_binary op formed.1 formed.2.2.1 formed.2.2.2
        (readable_of_wellFormed left formed.2.1) (readable_of_wellFormed right formed.2.2.2)
  | .group inner, formed =>
      readable_of_suffixed (Nat.le_succ 8) formed
        (readsSuffixed_group (readable_of_wellFormed inner formed) formed)

theorem readable_of_allWellFormed : (exprs : List Expr) -> AllWellFormed exprs ->
    ∀ expr ∈ exprs, Readable expr
  | [], _ => fun _ impossible => nomatch impossible
  | expr :: others, formed => by
      intro other member
      cases member with
      | head => exact readable_of_wellFormed expr formed.1
      | tail _ member => exact readable_of_allWellFormed others formed.2 other member

end

end Expr
end HtmlTemplate
