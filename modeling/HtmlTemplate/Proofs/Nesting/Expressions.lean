import HtmlTemplate.Proofs.Nesting.Paths
import HtmlTemplate.Proofs.Nesting.Yields
import HtmlTemplate.Proofs.Syntax.Operators
import Mathlib.Data.Nat.Init

namespace HtmlTemplate
namespace Expr

/-!
# Wrappers of the expressions that are read

With `n` levels of room there are at most `n` levels taken on a path.  The free
wrappers are bounded as well, though not by the room alone.  Each of the seven
levels of binary operators puts up to `n` of them around its first operand, and
the suffixes up to `n` more around a primary expression, before one bracket
takes a level.  Summed over all levels of room this makes `4 n ^ 2 + 7 n`.
-/

open Reader

/-- A bound of the wrappers on a path, with some levels of room. -/
def wrapperBound (room : Nat) : Nat := 4 * (room * room) + 7 * room

theorem wrapperBound_succ (room : Nat) :
    wrapperBound (room + 1) = wrapperBound room + 8 * room + 11 := by
  simp only [wrapperBound, Nat.mul_add, Nat.add_mul]
  omega

theorem wrapperBound_mono {less room : Nat} (within : less ≤ room) :
    wrapperBound less ≤ wrapperBound room := by
  induction within with
  | refl => exact Nat.le_refl _
  | step _ inductionHypothesis =>
      rw [Nat.succ_eq_add_one, wrapperBound_succ]
      omega

/-- What remains of the bound below the binary operators. -/
def operandBound (room : Nat) : Nat := 4 * (room * room)

theorem operandBound_succ (room : Nat) :
    operandBound (room + 1) = wrapperBound room + room + 4 := by
  simp only [operandBound, wrapperBound, Nat.mul_add, Nat.add_mul]
  omega

theorem operandBound_add (room levels : Nat) :
    operandBound room + levels ≤ operandBound (room + levels) := by
  simp only [operandBound, Nat.mul_add, Nat.add_mul]
  have square := Nat.le_mul_self levels
  omega

/-- The reader of what is inside of a bracket keeps the bounds of its room. -/
def Bounded (inside : Nat -> Reader Expr) : Prop :=
  ∀ room, Yields (inside room) (Within room (wrapperBound room))

/-! ## Items and arguments -/

section Values

variable {room total : Nat} {value : Reader Expr}

theorem keywordPair_yields (yields : Yields value (Within room total)) :
    Yields (keywordPair value) fun pair => Within room total pair.2 :=
  .andThen fun _ => yields.spaced.bind fun _ within => .pure within

theorem listItem_yields (yields : Yields value (Within room total)) :
    Yields (listItem value) (WithinItem room total) :=
  .orElse ((keywordPair_yields yields).bind fun pair within => .pure (.inr ⟨pair, rfl, within⟩))
    (yields.mono fun _ within => .inl within)

/-- The bounds of an argument before the keywords are collected. -/
def Argument.Within (room total : Nat) : Argument -> Prop
  | .positional value => Expr.Within room total value
  | .keyword pair => Expr.Within room total pair.2

theorem argument_yields (yields : Yields value (Within room total)) :
    Yields (argument value) (Argument.Within room total) :=
  .orElse ((keywordPair_yields yields).bind fun _ within => .pure within)
    (yields.bind fun _ within => .pure within)

theorem within_collectFrom {args : List Argument} (within : ∀ arg ∈ args, arg.Within room total)
    {positional keywords exprs : List Expr}
    (first : ∀ expr ∈ positional, WithinArgument room total expr)
    (second : ∀ item ∈ keywords, ∃ pair, item = ofKeyword pair ∧ Within room total pair.2)
    (found : collect?.go positional keywords args = some exprs) :
    ∀ expr ∈ exprs, WithinArgument room total expr := by
  induction args generalizing positional keywords with
  | nil =>
      simp only [collect?.go, Option.some.injEq] at found
      subst found
      intro expr member
      rcases List.mem_append.mp member with member | member
      · exact first expr (List.mem_reverse.mp member)
      · cases keywords with
        | nil => cases member
        | cons item others =>
            have same : expr = .list (item :: others).reverse := List.mem_singleton.mp member
            refine .inr ⟨_, same, by simp, fun item member => ?_⟩
            exact second item (List.mem_reverse.mp member)
  | cons arg others inductionHypothesis =>
      have rest := (List.forall_mem_cons.mp within).2
      have known := (List.forall_mem_cons.mp within).1
      cases arg with
      | positional value =>
          simp only [collect?.go] at found
          split at found
          · exact inductionHypothesis rest (List.forall_mem_cons.mpr ⟨.inl known, first⟩) second
              found
          · cases found
      | keyword pair =>
          simp only [collect?.go] at found
          exact inductionHypothesis rest first
            (List.forall_mem_cons.mpr ⟨⟨pair, rfl, known⟩, second⟩) found

theorem arguments_yields (yields : Yields value (Within room total)) :
    Yields (arguments value) fun args => ∀ arg ∈ args, WithinArgument room total arg := by
  refine .andThen fun start => .andThen fun _ => Yields.bind (Yields.commit
    ((argument_yields yields).spaced.separated.bind fun args within =>
      .andThen fun _ => .andThen fun _ => .pure within)) fun args within => ?_
  have none {good : Expr -> Prop} : ∀ expr ∈ ([] : List Expr), good expr :=
    fun _ impossible => nomatch impossible
  cases collected : collect? args with
  | none => exact .failAt start .positionalAfterKeyword
  | some exprs => exact .pure (within_collectFrom within none none collected)

end Values

/-! ## Operands -/

/-- The key of a suffix has one level less than the loop. -/
def Suffix.Within (room : Nat) : Suffix -> Prop
  | .attr _ => True
  | .index key => Expr.Within room (wrapperBound room) key

theorem suffix_yields {inside : Nat -> Reader Expr} (bounded : Bounded inside) (room : Nat) :
    Yields (attrSuffix <|> indexSuffix inside (room + 1)) (Suffix.Within room) := by
  refine .orElse ?_ (.nested fun less same => ?_)
  · exact .andThen fun _ => .andThen fun _ => .andThen fun _ => .pure True.intro
  · cases same
    refine .andThen fun _ => .bind (Yields.commit ?_) fun key within => .pure within
    exact (bounded room).spaced.bind fun _ within => .andThen fun _ => .pure within

section Operands

variable {inside : Nat -> Reader Expr} (bounded : Bounded inside) {room : Nat}

theorem le_operandBound (room : Nat) : room ≤ operandBound room := by
  have square := Nat.le_mul_self room
  simp only [operandBound]
  omega

include bounded in
/-- A primary expression leaves as many wrappers as there can be suffixes. -/
theorem primary_yields :
    Yields (primary inside room) (Within room (operandBound room - room)) := by
  have bracket (less : Nat) (same : room = less + 1) {expr : Expr}
      (within : Within (less + 1) (wrapperBound less + 3) expr) :
      Within room (operandBound room - room) expr := by
    subst same
    refine within.mono (Nat.le_refl _) ?_
    rw [operandBound_succ]
    omega
  refine .orElse (.andThen fun literal => .pure (.lit literal)) ?_
  refine .orElse (.andThen fun _ => .andThen fun name => .pure (.assign name)) ?_
  refine .orElse (.andThen fun name => .bind (.nested fun less same =>
    (arguments_yields (bounded less)).mono fun args within =>
      bracket less same (.call name within)) fun args within => .pure within) ?_
  refine .orElse (.andThen fun name => .pure (.var name)) ?_
  refine .orElse (.nested fun less same => .andThen fun _ => .bind
    (.commit ((listItem_yields (bounded less)).spaced.separated.bind fun _ within =>
      .andThen fun _ => .pure within)) fun items within => .andThen fun _ => .pure ?_) ?_
  · exact bracket less same ((Within.list within).mono (Nat.le_refl _) (by omega))
  refine .orElse (.nested fun less same => .andThen fun _ => .bind
    (.commit (bounded less).spaced.separated) fun items within => .andThen fun _ => .pure ?_) ?_
  · exact bracket less same ((Within.tuple within).mono (Nat.le_refl _) (by omega))
  refine .nested fun less same => .andThen fun _ => .bind
    (.commit (bounded less).spaced) fun inner within => .andThen fun _ => .pure ?_
  exact bracket less same (within.group.mono (Nat.le_refl _) (by omega))

include bounded in
theorem suffixes_yields (limit : Nat) {room : Nat} (deeper : room ≤ limit) {object : Expr}
    (within : Within limit (operandBound limit - room) object) :
    Yields (suffixes inside room object) (Within limit (operandBound limit)) := by
  induction room generalizing object with
  | zero =>
      refine .andThen fun start => .andThen fun suffix => ?_
      cases suffix with
      | none => exact .pure within
      | some suffix => exact .failAt start .tooDeep
  | succ room inductionHypothesis =>
      have small := le_operandBound limit
      refine .bind (suffix_yields bounded room).optional fun suffix known => ?_
      cases suffix with
      | none => exact .pure (within.mono (Nat.le_refl _) (Nat.sub_le ..))
      | some suffix =>
          refine inductionHypothesis (Nat.le_of_succ_le deeper) ?_
          have larger : operandBound limit - (room + 1) + 1 ≤ operandBound limit - room := by
            omega
          cases suffix with
          | attr name => exact (within.attr name).mono (Nat.le_refl _) larger
          | index key =>
              have keyWithin : Within room (wrapperBound room) key := known _ rfl
              refine (within.index keyWithin deeper ?_).mono (Nat.le_refl _) larger
              cases limit with
              | zero => cases deeper
              | succ less =>
                  have inner := wrapperBound_mono (Nat.le_of_succ_le_succ deeper)
                  rw [operandBound_succ]
                  omega

include bounded in
theorem suffixed_yields : Yields (suffixed inside room) (Within room (operandBound room)) :=
  (primary_yields bounded).bind fun _ within =>
    suffixes_yields bounded room (Nat.le_refl room) within

include bounded in
theorem prefixed_yields :
    Yields (prefixed room (suffixed inside)) (Within room (operandBound room)) := by
  refine .andThen fun ops => (Yields.deeper room ops.length).bind fun left sum => ?_
  refine (suffixed_yields bounded).bind fun inner within => .pure ?_
  have wrapped : Within (left + ops.length) (operandBound left + ops.length)
      (ops.foldr .unary inner) := by
    induction ops generalizing room with
    | nil => exact within
    | cons op others inductionHypothesis => exact (inductionHypothesis rfl).unary op
  rw [sum] at wrapped
  refine wrapped.mono (Nat.le_refl _) ?_
  rw [← sum]
  exact operandBound_add left ops.length

theorem chain_yields {op : Reader BinaryOp} {operand : Reader Expr} {total : Nat}
    (yields : Yields operand (Within room total)) :
    Yields (chain op room operand) (Within room (total + room)) := by
  refine yields.bind fun first within => ?_
  have link : Yields (do
      let op ← spaced op
      let right ← operand
      return (op, right)) fun other : BinaryOp × Expr => Within room total other.2 :=
    .andThen fun _ => yields.bind fun _ within => .pure within
  refine link.many.bind fun others known => (Yields.deeper room others.length).bind
    fun left sum => .pure ?_
  have joined (count : Nat) (expr : Expr) (before : Within room (total + count) expr) :
      Within room (total + count + others.length)
        (others.foldl (fun left other => .binary other.1 left other.2) expr) := by
    clear sum
    induction others generalizing count expr with
    | nil => exact before
    | cons other others inductionHypothesis =>
        have rest := List.forall_mem_cons.mp known
        have right := rest.1.mono (Nat.le_refl room) (Nat.le_add_right total count)
        have next := inductionHypothesis rest.2 (count + 1) _ (before.binary right other.1)
        refine next.mono (Nat.le_refl _) ?_
        simp only [List.length_cons]
        omega
  exact (joined 0 first within).mono (Nat.le_refl _) (by omega)

include bounded in
/-- Each level puts its operators around the operands of the next one. -/
theorem tower_yields {level : Nat} (inTable : level ≤ 7) :
    Yields (tower inside level room) (Within room (operandBound room + (7 - level) * room)) := by
  induction inTable using Nat.decreasingInduction with
  | self =>
      refine (prefixed_yields bounded).mono fun _ within => ?_
      exact within.mono (Nat.le_refl _) (Nat.le_add_right ..)
  | of_succ level below inductionHypothesis =>
      have left : 7 - level = 7 - (level + 1) + 1 := by
        omega
      rw [tower_eq_chain inside below, left, Nat.succ_mul, ← Nat.add_assoc]
      exact chain_yields inductionHypothesis

end Operands

/-- Readers with any number of rounds keep the bounds of their room. -/
theorem readRounds_bounded (rounds : Nat) : Bounded (readRounds rounds) := by
  induction rounds with
  | zero => exact fun _ => .fail .tooDeep
  | succ rounds inductionHypothesis =>
      intro room
      exact tower_yields inductionHypothesis (Nat.zero_le 7)

theorem read_yields (room : Nat) : Yields (read room) (Within room (wrapperBound room)) :=
  readRounds_bounded (room + 1) room

end Expr
end HtmlTemplate
