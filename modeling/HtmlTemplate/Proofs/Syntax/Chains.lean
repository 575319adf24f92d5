import HtmlTemplate.Proofs.Syntax.Suffixes
import Mathlib.Data.Nat.Init

namespace HtmlTemplate
namespace Expr

/-!
# Reading operators

A chain reads all of its links before it counts them, and only the count is held
against the room.  So the links of one level are followed as rounds of a
repetition, and what room they need is settled by their operands alone.

Operators in front are counted before their operand is read.
-/

open Reader

variable {room : Nat} {source middle rest : List Char}

/-! ## Links -/

/-- An operator and the operand on its right. -/
def link (op : Reader BinaryOp) (operand : Reader Expr) : Reader (BinaryOp × Expr) := do
  let op ← spaced op
  let right ← operand
  return (op, right)

/-- Operands with operators between them, from the left. -/
def join (first : Expr) (others : List (BinaryOp × Expr)) : Expr :=
  others.foldl (fun left other => .binary other.1 left other.2) first

theorem chain_eq (op : Reader BinaryOp) (room : Nat) (operand : Reader Expr) :
    chain op room operand = (do
      let first ← operand
      let others ← many (link op operand)
      let _ ← deeper room others.length
      return join first others) :=
  rfl

/-- A first operand and then links, which are together an expression.  If they
do not fit, then one of the operands goes too deep. -/
structure ReadsLinks (operand : Reader Expr) (link : Reader (BinaryOp × Expr)) (fits : Prop)
    (source : List Char) (expr : Expr) (count : Nat) (rest : List Char) : Prop where
  ok : fits -> ∃ first middle others, operand source = .ok first middle ∧
    Rounds link middle others rest ∧ others.length = count ∧ join first others = expr
  tooDeep : ¬fits -> TooDeep (operand source) ∨ ∃ first middle others last,
    operand source = .ok first middle ∧ Rounds link middle others last ∧ TooDeep (link last)

namespace ReadsLinks

variable {op : Reader BinaryOp} {operand : Reader Expr} {round : Reader (BinaryOp × Expr)}
  {fits other : Prop} {expr right : Expr} {operator : BinaryOp} {count : Nat}

/-- An operand alone. -/
theorem single (settles : Settles (operand source) fits (.ok expr rest)) :
    ReadsLinks operand round fits source expr 0 rest where
  ok holds := ⟨expr, rest, [], settles.eq_of_fits holds, .done rest, rfl, rfl⟩
  tooDeep excess := .inl (settles.tooDeep_of_not excess)

/-- One link more. -/
theorem snoc (links : ReadsLinks operand round fits source expr count middle)
    (settles : Settles (round middle) other (.ok (operator, right) rest))
    (shorter : rest.length < middle.length) :
    ReadsLinks operand round (fits ∧ other) source (.binary operator expr right) (count + 1)
      rest where
  ok both := by
    rcases links.ok both.1 with ⟨first, start, others, read, rounds, size, joined⟩
    have next := rounds.snoc (settles.eq_of_fits both.2) shorter
    refine ⟨first, start, others ++ [(operator, right)], read, next, ?_, ?_⟩
    · rw [List.length_append, size, List.length_singleton]
    · rw [← joined]
      simp only [join, List.foldl_append, List.foldl_cons, List.foldl_nil]
  tooDeep excess := by
    by_cases holds : fits
    · rcases links.ok holds with ⟨first, start, others, read, rounds, _, _⟩
      have deep := settles.tooDeep_of_not fun inner => excess ⟨holds, inner⟩
      exact .inr ⟨first, start, others, middle, read, rounds, deep⟩
    · exact links.tooDeep holds

/-- A chain reads the links if no operator follows, and counts them. -/
theorem chain (links : ReadsLinks operand (link op operand) fits source expr count rest)
    (ends : ∃ place, spaced op rest = .miss place) :
    Settles (Expr.chain op room operand source) (fits ∧ count ≤ room) (.ok expr rest) := by
  rw [chain_eq]
  by_cases holds : fits
  · rcases links.ok holds with ⟨first, start, others, read, rounds, size, joined⟩
    rcases ends with ⟨place, missed⟩
    rw [bind_of_ok read, bind_of_ok (rounds.many_eq (bind_of_miss missed))]
    have counted : Settles ((do
        let _ ← deeper room others.length
        return join first others : Reader Expr) rest) (others.length ≤ room)
        (.ok (join first others) rest) :=
      (Settles.deeper room others.length rest).andThen rfl
    refine counted.congr' ?_ ?_
    · rw [size]
      exact ⟨fun enough => ⟨holds, enough⟩, fun both => both.2⟩
    · rw [joined]
  · refine .of_tooDeep ?_ fun both => holds both.1
    rcases links.tooDeep holds with ⟨place, failed⟩ | ⟨first, start, others, last, read, rounds, deep⟩
    · exact ⟨place, bind_of_fail failed⟩
    · rcases rounds.tooDeep_many deep with ⟨place, failed⟩
      exact ⟨place, (bind_of_ok read).trans (bind_of_fail failed)⟩

end ReadsLinks

/-- The room that the operands of one level need. -/
def operandNeed (level : Nat) : Expr -> Nat
  | .binary op left right =>
      if op.level = level then max (operandNeed level left) right.need
      else need (.binary op left right)
  | expr => expr.need

/-- An expression of a tighter level is an operand. -/
theorem link_of_tighter {expr : Expr} {level : Nat} (tighter : level < expr.strength) :
    operandNeed level expr = expr.need ∧ linkCount level expr = 0 := by
  cases expr with
  | binary op left right =>
      have other : op.level ≠ level := Nat.ne_of_gt tighter
      simp only [operandNeed, linkCount, if_neg other, and_self]
  | _ => exact ⟨rfl, rfl⟩

theorem need_le_iff (level : Nat) : (expr : Expr) ->
    (expr.need ≤ room ↔ operandNeed level expr ≤ room ∧ linkCount level expr ≤ room)
  | .binary op left right => by
      by_cases same : op.level = level
      · have links := need_le_iff level left
        simp only [need, operandNeed, linkCount, same, if_true, Nat.max_le, links]
        omega
      · simp only [operandNeed, linkCount, if_neg same, Nat.zero_le, and_true]
  | .lit _ | .assign _ | .var _ | .list _ | .tuple _ | .attr _ _ | .index _ _ | .call _ _
  | .unary _ _ | .group _ => by
      simp only [operandNeed, linkCount, Nat.zero_le, and_true]

/-! ## Operators in front -/

theorem spaced_readUnaryOp (op : UnaryOp) {expr : Expr} (formed : expr.WellFormed)
    (junction : Lexeme.Junction rest) :
    spaced readUnaryOp (op.text.toList ++ ' ' :: (expr.write ++ rest)) =
      .ok op (expr.write ++ rest) := by
  have start := (opening_unary op (expr.write ++ rest)).dropWhile_isSpace
  have found : readUnaryOp (op.text.toList ++ ' ' :: (expr.write ++ rest)) =
      .ok op (' ' :: (expr.write ++ rest)) := by
    cases op with
    | bang => rfl
    | not => rfl
    | minus => rfl
  rw [← start] at found
  have read := spaced_of_ok found
  have next : (' ' :: (expr.write ++ rest)).dropWhile isSpace = expr.write ++ rest :=
    (opening_write expr formed junction).dropWhile_isSpace
  rwa [next] at read

/-- Operators in front of an expression. -/
inductive Prefixed : List UnaryOp -> Expr -> Expr -> Prop where
  | bare {core : Expr} (tight : 8 ≤ core.strength) (formed : core.WellFormed) :
      Prefixed [] core core
  | op {ops : List UnaryOp} {core operand : Expr} (op : UnaryOp)
      (formed : operand.WellFormed) (others : Prefixed ops core operand) :
      Prefixed (op :: ops) core (.unary op operand)

namespace Prefixed

variable {ops : List UnaryOp} {core expr : Expr}

theorem foldr_eq (ahead : Prefixed ops core expr) : ops.foldr .unary core = expr := by
  induction ahead with
  | bare tight formed => rfl
  | op op formed others inductionHypothesis => rw [List.foldr_cons, inductionHypothesis]

theorem need_eq (ahead : Prefixed ops core expr) : expr.need = ops.length + core.need := by
  induction ahead with
  | bare tight formed => exact (Nat.zero_add _).symm
  | op op formed others inductionHypothesis =>
      simp only [need, inductionHypothesis, List.length_cons]
      omega

theorem restOf_eq (ahead : Prefixed ops core expr) (after : List Char) :
    expr.restOf after = core.restOf after := by
  induction ahead with
  | bare tight formed => rfl
  | op op formed others inductionHypothesis => exact inductionHypothesis

theorem core_strength (ahead : Prefixed ops core expr) : 8 ≤ core.strength := by
  induction ahead with
  | bare tight formed => exact tight
  | op op formed others inductionHypothesis => exact inductionHypothesis

theorem core_wellFormed (ahead : Prefixed ops core expr) : core.WellFormed := by
  induction ahead with
  | bare tight formed => exact formed
  | op op formed others inductionHypothesis => exact inductionHypothesis

theorem rounds (ahead : Prefixed ops core expr) (junction : Lexeme.Junction rest) :
    Rounds (spaced readUnaryOp) (expr.write ++ rest) ops (core.write ++ rest) := by
  induction ahead with
  | bare tight formed => exact .done _
  | @op ops core operand op formed others inductionHypothesis =>
      rw [write_unary_append]
      refine .round (spaced_readUnaryOp op formed junction) ?_ inductionHypothesis
      simp only [List.length_append, List.length_cons]
      omega

/-- The operand is read with the room that the operators leave. -/
theorem settles (ahead : Prefixed ops core expr) (junction : Lexeme.Junction rest)
    {operand : Nat -> Reader Expr}
    (reads : Settles (operand (room - ops.length) (core.write ++ rest))
      (core.need ≤ room - ops.length) (.ok core (core.restOf rest))) :
    Settles (Expr.prefixed room operand (expr.write ++ rest)) (expr.need ≤ room)
      (.ok expr (expr.restOf rest)) := by
  have opening := opening_of_strength core ahead.core_strength ahead.core_wellFormed junction
  rcases opening.readUnaryOp with ⟨place, missed⟩
  rw [← opening.dropWhile_isSpace] at missed
  have ops' := (ahead.rounds junction).many_eq (spaced_of_miss missed)
  have inner : Settles ((do
      let inner ← operand (room - ops.length)
      return ops.foldr .unary inner : Reader Expr) (core.write ++ rest))
      (core.need ≤ room - ops.length) (.ok (ops.foldr .unary core) (core.restOf rest)) :=
    reads.andThen rfl
  have whole : Settles (Expr.prefixed room operand (expr.write ++ rest))
      (ops.length ≤ room ∧ core.need ≤ room - ops.length)
      (.ok (ops.foldr .unary core) (core.restOf rest)) :=
    Settles.of_reply ((Settles.deeper room ops.length (core.write ++ rest)).bind fun _ => inner)
      (bind_of_ok ops')
  refine whole.congr' ?_ ?_
  · rw [ahead.need_eq]
    omega
  · rw [ahead.foldr_eq, ahead.restOf_eq]

end Prefixed

/-! ## The levels -/

/-- No expression begins with a closing bracket. -/
theorem settles_tower_closer (inside : Nat -> Reader Expr) {closer : Char}
    (found : closer ∈ closingBrackets) (tail : List Char) {level : Nat} (inTable : level ≤ 7) :
    Settles (tower inside level room (closer :: tail)) (1 ≤ room) (.miss (closer :: tail)) := by
  induction inTable using Nat.decreasingInduction with
  | self =>
      have opening : Opening ("not" :: blockWords) ['!', '-'] (closer :: tail) := by
        simp only [closingBrackets, List.mem_cons, List.not_mem_nil, or_false] at found
        rcases found with rfl | rfl | rfl
        all_goals exact .sign tail (by decide) (by decide) (by decide)
      rcases opening.readUnaryOp with ⟨place, missed⟩
      rw [← opening.dropWhile_isSpace] at missed
      have none := (Rounds.done (closer :: tail)).many_eq (spaced_of_miss missed)
      have primary : Settles (suffixed inside room (closer :: tail)) (1 ≤ room)
          (.miss (closer :: tail)) :=
        (settles_primary_closer found tail).bind_miss
      have stays := (Settles.deeper room 0 (closer :: tail)).eq_of_fits (Nat.zero_le room)
      exact Settles.of_reply primary.bind_miss ((bind_of_ok none).trans (bind_of_ok stays))
  | of_succ level below inductionHypothesis =>
      rw [tower_eq_chain inside below]
      exact inductionHypothesis.bind_miss

end Expr
end HtmlTemplate
