import HtmlTemplate.Proofs.Nesting.Expressions
import HtmlTemplate.Proofs.Syntax.Printed

namespace HtmlTemplate

/-!
# Wrappers of the templates that are read

Each tag takes a level for everything inside of it, and brackets of patterns
take one each.  So the levels that are taken on a path never exceed the limit of
nesting.  The free wrappers are not held against the limit, and they make all
the difference: an expression may be nested a hundred levels deep and still have
a hundred operators around it.
-/

open Reader

/-! ## Patterns -/

namespace Pattern

/-- No path has more brackets than there is room. -/
def Within (room : Nat) (pattern : Pattern) : Prop :=
  ∀ taken, pattern.Path taken -> taken ≤ room

theorem readName_yields (room : Nat) : Yields readName (Within room) := by
  intro source pattern rest read
  simp only [readName] at read
  split at read
  · split at read
    · cases read
      intro taken path
      cases path
      exact Nat.zero_le room
    · split at read
      · cases read
      · cases read
        intro taken path
        cases path
        exact Nat.zero_le room
  · cases read
  · cases read

theorem within_lit (room : Nat) (literal : Literal) : Within room (.lit literal) := by
  intro taken path
  cases path
  exact Nat.zero_le room

theorem readItems_yields {opening closing : Char} {item : Reader Pattern} {good : Pattern -> Prop}
    (yields : Yields item good) :
    Yields (readItems opening closing item) fun items => ∀ item ∈ items, good item :=
  .andThen fun _ => yields.spaced.separated.bind fun _ known =>
    .andThen fun _ => .andThen fun _ => .pure known

theorem read_yields (room : Nat) : Yields (read room) (Within room) := by
  induction room with
  | zero =>
      exact .orElse (.andThen fun literal => .pure (within_lit 0 literal))
        (.orElse (readName_yields 0) (.fail .tooDeep))
  | succ room inductionHypothesis =>
      refine .orElse (.andThen fun literal => .pure (within_lit _ literal))
        (.orElse (readName_yields _) (.orElse ?_ ?_))
      · refine (readItems_yields inductionHypothesis).bind fun items known => .pure ?_
        intro taken path
        cases path with
        | noElement => omega
        | element member path => exact Nat.succ_le_succ (known _ member _ path)
      · refine (readItems_yields inductionHypothesis).bind fun items known => .pure ?_
        intro taken path
        cases path with
        | noItem => omega
        | item member path => exact Nat.succ_le_succ (known _ member _ path)

end Pattern

/-! ## Tags -/

/-- The bounds hold on the paths of an action. -/
def Action.Within (room total : Nat) (action : Action) : Prop :=
  ∀ taken free, action.Path taken free -> taken ≤ room ∧ taken + free ≤ total

namespace Node

/-- The bounds hold on the paths of a node. -/
def Within (room total : Nat) (node : Node) : Prop :=
  ∀ taken free, node.Path taken free -> taken ≤ room ∧ taken + free ≤ total

/-- The bounds hold on the paths of all nodes. -/
def AllWithin (room total : Nat) (nodes : List Node) : Prop :=
  ∀ node ∈ nodes, node.Within room total

section Tags

variable {delimiters : Delimiters} {room total : Nat} {body : Reader (List Node)}
  (yields : Yields body (AllWithin room total)) (enough : Expr.wrapperBound room ≤ total)

theorem within_pattern {pattern : Pattern} (within : pattern.Within room)
    (enough : Expr.wrapperBound room ≤ total) {taken : Nat} (path : pattern.Path taken) :
    taken ≤ room ∧ taken + 0 ≤ total := by
  have bound := within taken path
  simp only [Expr.wrapperBound] at enough
  omega

include enough in
theorem expr_yields : Yields (Expr.read room) (Expr.Within room total) :=
  (Expr.read_yields room).mono fun _ within => within.mono (Nat.le_refl room) enough

include yields enough

theorem readCond_yields (negated : Bool) :
    Yields (readCond delimiters room body negated) (Action.Within room total) := by
  refine (expr_yields enough).spaced.bind fun test known => .andThen fun _ => ?_
  refine yields.bind fun holds first => .andThen fun other => ?_
  have last (fails : List Node) (second : AllWithin room total fails) : Yields (do
      closeBlock delimiters (if negated then "unless" else "if")
      return Action.cond negated test holds fails) (Action.Within room total) := by
    refine .andThen fun _ => .pure ?_
    intro taken free path
    cases path with
    | test _ _ _ path => exact known taken free path
    | holds _ _ _ member path => exact first _ member taken free path
    | fails _ _ _ member path => exact second _ member taken free path
  cases other with
  | none => exact last [] fun _ impossible => nomatch impossible
  | some _ => exact yields.bind last

theorem readLoop_yields :
    Yields (readLoop delimiters room body) (Action.Within room total) := by
  refine (Pattern.read_yields room).spaced.bind fun pattern first => .andThen fun _ => ?_
  refine (expr_yields enough).spaced.bind fun source second => .andThen fun _ => ?_
  refine yields.bind fun nodes third => .andThen fun _ => .pure ?_
  intro taken free path
  cases path with
  | item _ _ path => exact within_pattern first enough path
  | source _ _ path => exact second taken free path
  | round _ _ member path => exact third _ member taken free path

theorem readChoice_yields :
    Yields (readChoice delimiters room body) (Action.Within room total) := by
  refine (expr_yields enough).spaced.bind fun subject known => .andThen fun _ => .andThen fun _ => ?_
  have head : Yields (clauseHead room) (Pattern.Within room) :=
    (Pattern.read_yields room).spaced.bind fun _ within => .andThen fun _ => .pure within
  have clause : Yields (readClause delimiters room body) fun clause =>
      ∀ pattern nodes, clause = .clause pattern nodes ->
        pattern.Within room ∧ AllWithin room total nodes := by
    refine .andThen fun _ => head.bind fun pattern first => .andThen fun _ => ?_
    refine yields.bind fun nodes second => .pure ?_
    intro other others same
    cases same
    exact ⟨first, second⟩
  refine (clause.require _).bind fun first firstKnown => clause.many.bind fun others known' => ?_
  refine .andThen fun _ => .pure ?_
  have all := List.forall_mem_cons.mpr ⟨firstKnown, known'⟩
  intro taken free path
  cases path with
  | subject _ path => exact known taken free path
  | head _ member path => exact within_pattern (all _ member _ _ rfl).1 enough path
  | clause _ found member path => exact (all _ found _ _ rfl).2 _ member taken free path

theorem readPlain_yields :
    Yields (readPlain delimiters room body) (Action.Within room total) := by
  refine .andThen fun start => (expr_yields enough).bind fun expr known => .andThen fun block => ?_
  cases block with
  | none =>
      refine .andThen fun _ => .pure ?_
      intro taken free path
      cases path with
      | value path => exact known taken free path
  | some _ =>
      cases expr with
      | call name args =>
          refine .andThen fun _ => yields.bind fun nodes within => .andThen fun _ => .pure ?_
          intro taken free path
          cases path with
          | call _ path => exact known taken free path
          | block _ _ member path => exact within _ member taken free path
      | _ => exact .failAt start .blockWithoutCall

theorem readAction_yields :
    Yields (readAction delimiters room body) (Action.Within room total) := by
  refine .andThen fun word => ?_
  split
  · exact readCond_yields yields enough false
  · exact readCond_yields yields enough true
  · exact readLoop_yields yields enough
  · exact readChoice_yields yields enough
  · exact readPlain_yields yields enough

/-- The tag takes a level. -/
theorem readStatement_yields (printed : Bool) :
    Yields (readStatement delimiters room body printed) (Within (room + 1) (total + 1)) := by
  have action : Yields (readAction delimiters room body) fun action =>
      ∀ taken free, action.Path taken free -> taken + 1 ≤ room + 1 ∧ taken + 1 + free ≤ total + 1 := by
    refine (readAction_yields yields enough).mono fun action within taken free path => ?_
    have bounds := within taken free path
    omega
  cases printed with
  | true =>
      have noBinding : Yields (Reader.pure none : Reader (Option Pattern)) fun found =>
          found = none :=
        .pure rfl
      refine noBinding.bind fun found same => ?_
      subst same
      refine .andThen fun _ => action.bind fun action within => .pure ?_
      intro taken free path
      cases path with
      | print path => exact within _ _ path
  | false =>
      have head : Yields (bindingHead room) (Pattern.Within room) :=
        (Pattern.read_yields room).spaced.bind fun _ within =>
          .andThen fun _ => .andThen fun _ => .pure within
      refine head.optional.bind fun found known => ?_
      cases found with
      | none =>
          refine .andThen fun _ => action.bind fun action within => .pure ?_
          intro taken free path
          cases path with
          | silent path => exact within _ _ path
      | some pattern =>
          refine (expr_yields enough).spaced.bind fun expr within => .andThen fun _ => .pure ?_
          intro taken free path
          cases path with
          | target _ path =>
              have bounds := within_pattern (known pattern rfl) enough path
              omega
          | source _ path =>
              have bounds := within _ _ path
              omega

end Tags

/-! ## Templates -/

section Text

variable (delimiters : Delimiters) (room total : Nat)

theorem within_text (text : String) : Within room total (.text text) := by
  intro taken free path
  cases path
  omega

theorem readText_yields : Yields (readText delimiters) (Within room total) := by
  intro source node rest read
  simp only [readText] at read
  split at read
  · cases read
  · split at read
    · split at read
      · cases read
        exact within_text room total _
      · cases read
    · split at read
      · cases read
        exact within_text room total _
      · cases read
        exact within_text room total _

theorem readComment_yields : Yields (readComment delimiters) (Within room total) := by
  refine .andThen fun start => .andThen fun _ => .andThen fun _ => ?_
  intro source node rest read
  dsimp only at read
  split at read
  · cases read
    intro taken free path
    cases path
    omega
  · cases read

end Text

theorem readAll_succ_yields {delimiters : Delimiters} {room : Nat}
    (inner : Yields (readAll delimiters room) (AllWithin room (Expr.wrapperBound room))) :
    Yields (readAll delimiters (room + 1))
      (AllWithin (room + 1) (Expr.wrapperBound room + 1)) := by
  refine Yields.many (.orElse (readText_yields _ _ _) (.orElse (readComment_yields _ _ _) ?_))
  refine .andThen fun _ => .andThen fun _ => .andThen fun printed => .andThen fun _ => ?_
  exact readStatement_yields inner (Nat.le_refl _) printed.isSome

theorem readAll_yields (delimiters : Delimiters) (room : Nat) :
    Yields (readAll delimiters room) (AllWithin room (Expr.wrapperBound room)) := by
  induction room with
  | zero =>
      refine Yields.many (.orElse (readText_yields _ _ _) (.orElse (readComment_yields _ _ _) ?_))
      refine .andThen fun start => .andThen fun _ => .andThen fun _ => .andThen fun _ => ?_
      exact .failAt start .tooDeep
  | succ room inductionHypothesis =>
      refine (readAll_succ_yields inductionHypothesis).mono fun nodes within node member => ?_
      intro taken free path
      have bounds := within node member taken free path
      have larger := Expr.wrapperBound_succ room
      omega

/-- In every template that is read, no path from a node to a leaf takes more
than 128 levels.  The free wrappers are not part of this, so 128 is a bound for
all wrappers of a path only in trees without binary operators, suffixes and
keywords.  In any other tree there are at most 65406. -/
theorem wrappers_of_parse {delimiters : Delimiters} {template : Option String} {source : String}
    {nodes : List Node} (read : parse delimiters template source = .ok nodes) {node : Node}
    (member : node ∈ nodes) {taken free : Nat} (path : node.Path taken free) :
    taken ≤ 128 ∧ (node.Unchained -> taken + free ≤ 128) ∧ taken + free ≤ 65406 := by
  have yields := readAll_succ_yields (readAll_yields delimiters 127)
  have found : ∃ rest, readAll delimiters 128 source.toList = .ok nodes rest := by
    simp only [parse, maxDepth] at read
    split at read
    all_goals cases read
    rename_i found
    exact ⟨[], found⟩
  rcases found with ⟨rest, found⟩
  have bounds := yields _ _ _ found node member taken free path
  have whole : Expr.wrapperBound 127 + 1 = 65406 := rfl
  refine ⟨bounds.1, fun unchained => ?_, by omega⟩
  rw [path.free_eq_zero unchained]
  exact bounds.1

/-! ## Operators around brackets -/

/-- A number in some parentheses, and then some additions. -/
def nestedSum (groups sums : Nat) : Expr :=
  ((Expr.lit (.num "1")).grouped groups).summed sums

theorem need_grouped (expr : Expr) (groups : Nat) :
    (expr.grouped groups).need = expr.need + groups := by
  induction groups with
  | zero => rfl
  | succ groups inductionHypothesis =>
      simp only [Expr.grouped, Expr.need, inductionHypothesis]
      omega

theorem linkCount_nestedSum (groups sums : Nat) : (nestedSum groups sums).linkCount 5 = sums := by
  induction sums with
  | zero =>
      cases groups with
      | zero => rfl
      | succ groups => rfl
  | succ sums inductionHypothesis =>
      have step : (nestedSum groups (sums + 1)).linkCount 5 =
          (nestedSum groups sums).linkCount 5 + 1 := rfl
      rw [step, inductionHypothesis]

/-- The additions need as much room as there are of them, and no more for what
is in the parentheses. -/
theorem need_nestedSum (groups sums : Nat) :
    (nestedSum groups sums).need = max (groups + 1) sums := by
  induction sums with
  | zero =>
      have alone := need_grouped (.lit (.num "1")) groups
      have leaf : (Expr.lit (.num "1")).need = 1 := rfl
      have start : nestedSum groups 0 = (Expr.lit (.num "1")).grouped groups := rfl
      rw [start, alone, leaf]
      omega
  | succ sums inductionHypothesis =>
      have links := linkCount_nestedSum groups sums
      have step : (nestedSum groups (sums + 1)).need =
          max (max (nestedSum groups sums).need 1) ((nestedSum groups sums).linkCount 5 + 1) := rfl
      rw [step, links, inductionHypothesis]
      omega

theorem path_nestedSum (groups sums : Nat) : (nestedSum groups sums).Path groups sums := by
  induction sums with
  | zero =>
      induction groups with
      | zero => exact .lit (.num "1")
      | succ groups inductionHypothesis => exact .group inductionHypothesis
  | succ sums inductionHypothesis => exact .left (.strict .add) _ inductionHypothesis

theorem wellFormed_nestedSum (groups sums : Nat) : (nestedSum groups sums).WellFormed := by
  refine Expr.wellFormed_summed sums ?_ (Expr.wellFormed_grouped groups rfl)
  cases groups with
  | zero => exact Nat.le_succ 8
  | succ groups => exact Nat.le_succ 8

/-- Parentheses and additions are read independently of each other. -/
theorem parse_nestedSum {groups sums : Nat} (first : groups ≤ 126) (second : sums ≤ 127) :
    parse .standard none ("<%= " ++ String.ofList (nestedSum groups sums).write ++ " %>") =
      .ok [.print (.value (nestedSum groups sums))] := by
  refine parse_of_fits (wellFormed_nestedSum groups sums) ?_ none
  rw [need_nestedSum]
  omega

/-- A hundred parentheses and a hundred additions around them are two hundred
wrappers on one path. -/
theorem parse_nestedSum_hundred :
    ∃ node, parse .standard none ("<%= " ++ String.ofList (nestedSum 100 100).write ++ " %>") =
        .ok [node] ∧
      ∃ taken free, node.Path taken free ∧ 128 < taken + free := by
  refine ⟨.print (.value (nestedSum 100 100)), parse_nestedSum (by decide) (by decide), ?_⟩
  exact ⟨101, 100, .print (.value (path_nestedSum 100 100)), by decide⟩

/-- Three additions around two parentheses, and four parentheses alone. -/
theorem wrappers_of_parse_sum :
    (∃ node, parse .standard none ("<%= " ++ String.ofList (nestedSum 2 3).write ++ " %>") =
        .ok [node] ∧
      node.Path 3 3 ∧ 3 ≤ 128 ∧ 3 + 3 ≤ 65406) ∧
    ∃ node, parse .standard none ("<%= " ++ String.ofList (nestedSum 4 0).write ++ " %>") =
        .ok [node] ∧
      node.Path 5 0 ∧ node.Unchained ∧ 5 + 0 ≤ 128 := by
  constructor
  · have read := parse_nestedSum (by decide : 2 ≤ 126) (by decide : 3 ≤ 127)
    have path : Path (.print (.value (nestedSum 2 3))) 3 3 := .print (.value (path_nestedSum 2 3))
    have bounds := wrappers_of_parse read (List.mem_singleton_self _) path
    exact ⟨_, read, path, bounds.1, bounds.2.2⟩
  · have read := parse_nestedSum (by decide : 4 ≤ 126) (by decide : 0 ≤ 127)
    have path : Path (.print (.value (nestedSum 4 0))) 5 0 := .print (.value (path_nestedSum 4 0))
    have unchained : Unchained (.print (.value (nestedSum 4 0))) :=
      .print (.value (.group (.group (.group (.group (.lit _))))))
    have bounds := wrappers_of_parse read (List.mem_singleton_self _) path
    exact ⟨_, read, path, unchained, bounds.2.1 unchained⟩

end Node
end HtmlTemplate
