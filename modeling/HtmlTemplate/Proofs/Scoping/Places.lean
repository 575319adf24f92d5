import HtmlTemplate.Syntax.Tree

namespace HtmlTemplate

/-!
# What stands where

A template is taken apart into what its tags hold: expressions, patterns, and
the names of functions that are called with a block.  Each of them stands in a
scope, the patterns whose names it sees.  These are the patterns of earlier
bindings in the same block or in a block around it, and the patterns at the
head of the blocks around it.  Nothing else is in the scope: neither a binding
in a block that is finished, nor the pattern that belongs to the expression
itself.
-/

namespace Expr

mutual

/-- An expression and all expressions inside of it. -/
def parts : Expr -> List Expr
  | .lit literal => [.lit literal]
  | .assign name => [.assign name]
  | .var name => [.var name]
  | .list items => .list items :: partsOfAll items
  | .tuple items => .tuple items :: partsOfAll items
  | .attr object name => .attr object name :: parts object
  | .index object key => .index object key :: (parts object ++ parts key)
  | .call name args => .call name args :: partsOfAll args
  | .unary op operand => .unary op operand :: parts operand
  | .binary op left right => .binary op left right :: (parts left ++ parts right)
  | .group inner => .group inner :: parts inner

/-- Several expressions and all expressions inside of them. -/
def partsOfAll : List Expr -> List Expr
  | [] => []
  | expr :: rest => parts expr ++ partsOfAll rest

end

theorem mem_partsOfAll_iff {part : Expr} {exprs : List Expr} :
    part ∈ partsOfAll exprs ↔ ∃ expr ∈ exprs, part ∈ expr.parts := by
  induction exprs with
  | nil => simp [partsOfAll]
  | cons expr rest inductionHypothesis => simp [partsOfAll, inductionHypothesis]

end Expr

namespace Pattern

mutual

/-- The literals that a pattern compares with. -/
def literals : Pattern -> List Literal
  | .wildcard => []
  | .var _ => []
  | .lit literal => [literal]
  | .tuple items => literalsOfAll items
  | .list items => literalsOfAll items

/-- The literals that several patterns compare with. -/
def literalsOfAll : List Pattern -> List Literal
  | [] => []
  | pattern :: rest => literals pattern ++ literalsOfAll rest

end

end Pattern

/-- What a tag holds besides its blocks. -/
inductive Holding where
  | expr (expr : Expr)
  | pattern (pattern : Pattern)
  | function (name : String)

namespace Clause

/-- The pattern of a clause. -/
def pattern : Clause -> Pattern
  | .clause pattern _ => pattern

/-- The nodes of a clause. -/
def body : Clause -> List Node
  | .clause _ body => body

end Clause

namespace Action

/-- What a tag holds besides its blocks. -/
def holdings : Action -> List Holding
  | .value expr => [.expr expr]
  | .cond _ test _ _ => [.expr test]
  | .loop pattern source _ => [.expr source, .pattern pattern]
  | .choice subject clauses => .expr subject :: clauses.map fun clause => .pattern clause.pattern
  | .callBlock name args _ => .function name :: args.map .expr

/-- The blocks of a tag, each with the patterns at its head. -/
def blocks : Action -> List (List Pattern × List Node)
  | .value _ => []
  | .cond _ _ holds fails => [([], holds), ([], fails)]
  | .loop pattern _ body => [([pattern], body)]
  | .choice _ clauses => clauses.map fun clause => ([clause.pattern], clause.body)
  | .callBlock _ _ body => [([], body)]

end Action

namespace Node

/-- What a node holds besides its blocks. -/
def holdings : Node -> List Holding
  | .text _ => []
  | .comment _ => []
  | .print action => action.holdings
  | .silent action => action.holdings
  | .bind pattern expr => [.expr expr, .pattern pattern]

/-- The blocks of a node, each with the patterns at its head. -/
def blocks : Node -> List (List Pattern × List Node)
  | .print action => action.blocks
  | .silent action => action.blocks
  | .text _ => []
  | .comment _ => []
  | .bind _ _ => []

/-- The patterns whose names the nodes behind a node see. -/
def declared : Node -> List Pattern
  | .bind pattern _ => [pattern]
  | .text _ => []
  | .comment _ => []
  | .print _ => []
  | .silent _ => []

/-- Something stands in nodes, in a scope.  The scope begins with the patterns
that come last in the source. -/
inductive Stands : List Node -> List Pattern -> Holding -> Prop
  | here {node : Node} {rest : List Node} {holding : Holding} (held : holding ∈ node.holdings) :
      Stands (node :: rest) [] holding
  | behind {node : Node} {rest : List Node} {scope : List Pattern} {holding : Holding}
      (later : Stands rest scope holding) : Stands (node :: rest) (scope ++ node.declared) holding
  | inside {node : Node} {rest : List Node} {block : List Pattern × List Node}
      {scope : List Pattern} {holding : Holding} (member : block ∈ node.blocks)
      (inner : Stands block.2 scope holding) : Stands (node :: rest) (scope ++ block.1) holding

/-- A property of everything that stands in nodes. -/
def Everywhere (good : List Pattern -> Holding -> Prop) (nodes : List Node) : Prop :=
  ∀ scope holding, Stands nodes scope holding -> good scope holding

section Everywhere

variable {good : List Pattern -> Holding -> Prop} {node : Node} {nodes rest : List Node}

theorem everywhere_nil : Everywhere good [] :=
  fun _ _ impossible => nomatch impossible

theorem everywhere_cons_iff :
    Everywhere good (node :: rest) ↔
      (∀ holding ∈ node.holdings, good [] holding) ∧
      (∀ block ∈ node.blocks, Everywhere (fun scope => good (scope ++ block.1)) block.2) ∧
      Everywhere (fun scope => good (scope ++ node.declared)) rest := by
  constructor
  · intro everywhere
    exact ⟨fun holding held => everywhere [] holding (.here held),
      fun block member scope holding inner => everywhere _ holding (.inside member inner),
      fun scope holding later => everywhere _ holding (.behind later)⟩
  · rintro ⟨own, blocks, others⟩ scope holding stands
    cases stands with
    | here held => exact own holding held
    | behind later => exact others _ holding later
    | inside member inner => exact blocks _ member _ holding inner

end Everywhere

end Node
end HtmlTemplate
