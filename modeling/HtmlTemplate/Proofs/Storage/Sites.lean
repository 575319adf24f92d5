import HtmlTemplate.Proofs.Storage.Scoping

namespace HtmlTemplate

/-!
# The places of a compiled program

A compiled program is read as a row of sites, in the order of the source: its
blocks, and the places where a local is bound or read.  Where locals are
concerned, the sites are the occurrences of the template.  So a local is read
exactly where its name is used in the scope of its binder, and its number is
the number of the binder.
-/

/-- A block, or a place where a local is bound or read. -/
inductive Site where
  | binder (slot : Nat)
  | use (slot : Nat)
  | block (block : Block)

namespace Site

/-- A site of a local as an occurrence. -/
def occurrence? : Site -> Option Occurrence
  | .binder slot => some (.binder slot)
  | .use slot => some (.use (some slot))
  | .block _ => none

/-- A site that is a block. -/
def block? : Site -> Option Block
  | .block found => some found
  | _ => none

end Site

namespace Matcher

mutual

/-- The sites of a pattern. -/
def sites : Matcher -> List Site
  | .any => []
  | .bind slot => [.binder slot]
  | .same slot => [.use slot]
  | .equals _ => []
  | .tuple items => sitesOfAll items
  | .list items => sitesOfAll items

/-- The sites of several patterns. -/
def sitesOfAll : List Matcher -> List Site
  | [] => []
  | matcher :: rest => sites matcher ++ sitesOfAll rest

end

end Matcher

namespace Code

mutual

/-- The locals that an expression reads, in the order of the source. -/
def reads : Code -> List Nat
  | .const _ => []
  | .assign _ => []
  | .slot number => [number]
  | .list items => readsOfAll items
  | .tuple items => readsOfAll items
  | .attr object _ => reads object
  | .index object key => reads object ++ reads key
  | .call _ args => readsOfAll args
  | .unary _ operand => reads operand
  | .either left right => reads left ++ reads right
  | .both left right => reads left ++ reads right
  | .binary _ left right => reads left ++ reads right

/-- The locals that several expressions read. -/
def readsOfAll : List Code -> List Nat
  | [] => []
  | code :: rest => reads code ++ readsOfAll rest

end

end Code

namespace Block

mutual

/-- The sites of a block, itself first. -/
def sites : Block -> List Site
  | .block statements slots => .block (.block statements slots) :: sitesOfAll statements

/-- The sites of several statements. -/
def sitesOfAll : List Statement -> List Site
  | [] => []
  | statement :: rest => sitesOfStatement statement ++ sitesOfAll rest

/-- The sites of a statement. -/
def sitesOfStatement : Statement -> List Site
  | .print _ operation => sitesOfOperation operation
  | .eval operation => sitesOfOperation operation
  | .bind pattern code => code.reads.map .use ++ pattern.sites

/-- The sites of what a tag evaluates. -/
def sitesOfOperation : Operation -> List Site
  | .value code => code.reads.map .use
  | .cond _ test holds fails => test.reads.map .use ++ (sites holds ++ sites fails)
  | .loop pattern source body => source.reads.map .use ++ (pattern.sites ++ sites body)
  | .choice subject branches => subject.reads.map .use ++ sitesOfBranches branches
  | .callBlock _ args body => (Code.readsOfAll args).map .use ++ sites body

/-- The sites of the clauses of a choice. -/
def sitesOfBranches : List Branch -> List Site
  | [] => []
  | .branch pattern body :: rest => (pattern.sites ++ sites body) ++ sitesOfBranches rest

end

/-- Where a block and the blocks inside of it bind and read locals. -/
def occurrences (block : Block) : List Occurrence :=
  block.sites.filterMap Site.occurrence?

/-- A block and the blocks inside of it. -/
def blocks (block : Block) : List Block :=
  block.sites.filterMap Site.block?

theorem sitesOfAll_append (first second : List Statement) :
    sitesOfAll (first ++ second) = sitesOfAll first ++ sitesOfAll second := by
  induction first with
  | nil => rfl
  | cons statement rest inductionHypothesis =>
      simp only [List.cons_append, sitesOfAll, inductionHypothesis, List.append_assoc]

theorem sitesOfAll_singleton (statement : Statement) :
    sitesOfAll [statement] = sitesOfStatement statement :=
  List.append_nil _

end Block

/-! ## Uses -/

namespace Expr

/-- No name stands in a literal, in parentheses or behind a minus sign. -/
theorem uses_of_literal? : (expr : Expr) -> {value : Value} -> expr.literal? = some value ->
    expr.uses = []
  | .lit _, _, _ => by simp only [uses]
  | .unary .minus operand, value, found => by
      rcases Option.bind_eq_some_iff.mp found with ⟨_, inner, _⟩
      simp only [uses, uses_of_literal? operand inner]
  | .group inner, value, found => by
      simp only [uses, uses_of_literal? inner found]

variable {registry : Registry} {names : List (String × Nat)}

mutual

/-- A compiled expression reads the locals of the names that the expression
uses. -/
theorem reads_compile : (expr : Expr) -> {code : Code} ->
    compile registry names expr = .ok code ->
    code.reads.map some = expr.uses.map fun name => lookUp? name names
  | .lit literal, code, compiled => by
      rcases Except.bind_eq_ok.mp compiled with ⟨_, _, done⟩
      cases done
      rfl
  | .assign name, code, compiled => by
      cases compiled
      rfl
  | .var name, code, compiled => by
      simp only [compile] at compiled
      cases found : lookUp? name names with
      | none =>
          rw [found] at compiled
          cases compiled
      | some slot =>
          rw [found] at compiled
          cases compiled
          simp [Code.reads, uses, found]
  | .list items, code, compiled => by
      rcases Except.bind_eq_ok.mp compiled with ⟨_, inner, done⟩
      cases done
      exact readsOfAll_compile items inner
  | .tuple items, code, compiled => by
      rcases Except.bind_eq_ok.mp compiled with ⟨_, inner, done⟩
      cases done
      exact readsOfAll_compile items inner
  | .attr object name, code, compiled => by
      rcases Except.bind_eq_ok.mp compiled with ⟨_, inner, done⟩
      cases done
      simp only [Code.reads, uses, reads_compile object inner]
  | .index object key, code, compiled => by
      rcases Except.bind_eq_ok.mp compiled with ⟨_, first, compiled⟩
      rcases Except.bind_eq_ok.mp compiled with ⟨_, second, done⟩
      cases done
      simp only [Code.reads, uses, List.map_append, reads_compile object first,
        reads_compile key second]
  | .call name args, code, compiled => by
      rcases Except.bind_eq_ok.mp compiled with ⟨_, _, compiled⟩
      rcases Except.bind_eq_ok.mp compiled with ⟨_, inner, done⟩
      cases done
      exact readsOfAll_compile args inner
  | .unary op operand, code, compiled => by
      rcases Except.bind_eq_ok.mp compiled with ⟨_, inner, done⟩
      cases done
      simp only [Code.reads, uses, reads_compile operand inner]
  | .binary op left right, code, compiled => by
      rcases Except.bind_eq_ok.mp compiled with ⟨_, first, compiled⟩
      rcases Except.bind_eq_ok.mp compiled with ⟨_, second, done⟩
      cases op with
      | orWord | orSign | andWord | andSign | strict =>
          cases done
          simp only [Code.reads, uses, List.map_append, reads_compile left first,
            reads_compile right second]
  | .group inner, code, compiled => reads_compile inner compiled

theorem readsOfAll_compile : (exprs : List Expr) -> {codes : List Code} ->
    compileAll registry names exprs = .ok codes ->
    (Code.readsOfAll codes).map some = (usesOfAll exprs).map fun name => lookUp? name names
  | [], codes, compiled => by
      cases compiled
      rfl
  | expr :: rest, codes, compiled => by
      rcases Except.bind_eq_ok.mp compiled with ⟨_, first, compiled⟩
      rcases Except.bind_eq_ok.mp compiled with ⟨_, second, done⟩
      cases done
      simp only [Code.readsOfAll, usesOfAll, List.map_append, reads_compile expr first,
        readsOfAll_compile rest second]

end

end Expr

/-- Compiling between two layouts agrees with reading a row of mentions: the
occurrences are the same, and so are the names that are visible afterwards. -/
def Layout.Designates (layout after : Layout) (mentions : List Mention) (sites : List Site) :
    Prop :=
  ∀ own outer, ∃ own',
    (Scopes.mk layout.locals own layout.names outer).occurrences mentions =
        sites.filterMap Site.occurrence? ∧
      (Scopes.mk layout.locals own layout.names outer).afterAll mentions =
        ⟨after.locals, own', after.names, outer⟩

namespace Layout.Designates

variable {layout between after : Layout} {mentions rest : List Mention} {sites others : List Site}

theorem refl (layout : Layout) : Designates layout layout [] [] :=
  fun own _ => ⟨own, rfl, rfl⟩

theorem append (first : Designates layout between mentions sites)
    (second : Designates between after rest others) :
    Designates layout after (mentions ++ rest) (sites ++ others) := by
  intro own outer
  rcases first own outer with ⟨own', found, reached⟩
  rcases second own' outer with ⟨own'', found', reached'⟩
  refine ⟨own'', ?_, ?_⟩
  · rw [Scopes.occurrences_append, reached, found, found', List.filterMap_append]
  · rw [Scopes.afterAll_append, reached, reached']

/-- The end of a block takes the names of the block away, in the compiler as in
the row of mentions. -/
theorem inBlock (inner : Designates layout after mentions sites) :
    Designates layout { after with names := layout.names } (Mention.inBlock mentions) sites := by
  intro own outer
  rcases inner own (layout.names :: outer) with ⟨own', found, reached⟩
  refine ⟨own', ?_, ?_⟩
  · calc (Scopes.mk layout.locals own layout.names outer).occurrences (Mention.inBlock mentions)
      _ = (Scopes.mk layout.locals own layout.names (layout.names :: outer)).occurrences
            (mentions ++ [.leave]) := rfl
      _ = sites.filterMap Site.occurrence? := by
          rw [Scopes.occurrences_append, found]
          exact List.append_nil _
  · calc (Scopes.mk layout.locals own layout.names outer).afterAll (Mention.inBlock mentions)
      _ = (Scopes.mk layout.locals own layout.names (layout.names :: outer)).afterAll
            (mentions ++ [.leave]) := rfl
      _ = ⟨after.locals, own', layout.names, outer⟩ := by
          rw [Scopes.afterAll_append, reached]
          rfl

/-- Uses bind nothing. -/
theorem uses {names : List String} {reads : List Nat}
    (same : reads.map some = names.map fun name => lookUp? name layout.names) :
    Designates layout layout (names.map .use) (reads.map .use) := by
  intro own outer
  refine ⟨own, ?_, ?_⟩
  · have found : ∀ names : List String,
        (Scopes.mk layout.locals own layout.names outer).occurrences (names.map .use) =
          (names.map fun name => lookUp? name layout.names).map .use := by
      intro names
      induction names with
      | nil => rfl
      | cons name rest inductionHypothesis =>
          simp only [List.map_cons, Scopes.occurrences, Scopes.after, inductionHypothesis]
          rfl
    rw [found, ← same, List.map_map, List.filterMap_map, ← List.filterMap_eq_map]
    rfl
  · induction names generalizing reads with
    | nil => rfl
    | cons name rest inductionHypothesis =>
        cases reads with
        | nil => cases same
        | cons slot others => exact inductionHypothesis (List.cons.inj same).2

end Layout.Designates

namespace Pattern

mutual

/-- The names of a pattern get their locals in the order in which they come. -/
theorem designates : (pattern : Pattern) -> {bindings after : Bindings} -> {matcher : Matcher} ->
    compile bindings pattern = .ok (matcher, after) ->
    (names : List (String × Nat)) -> (outer : List (List (String × Nat))) ->
    (Scopes.mk bindings.next bindings.bound (bindings.bound ++ names) outer).occurrences
        (pattern.bindings.map .bind) = matcher.sites.filterMap Site.occurrence? ∧
      (Scopes.mk bindings.next bindings.bound (bindings.bound ++ names) outer).afterAll
        (pattern.bindings.map .bind) = ⟨after.next, after.bound, after.bound ++ names, outer⟩
  | .wildcard, bindings, after, matcher, compiled, names, outer => by
      simp only [compile] at compiled
      cases compiled
      exact ⟨rfl, rfl⟩
  | .var name, bindings, after, matcher, compiled, names, outer => by
      rcases compile_var compiled with ⟨slot, found, rfl, rfl⟩ | ⟨missing, rfl, rfl⟩
      · simp [Pattern.bindings, Scopes.occurrences, Scopes.occurrence?, Scopes.afterAll,
          Scopes.after, found, Matcher.sites, Site.occurrence?]
      · simp [Pattern.bindings, Scopes.occurrences, Scopes.occurrence?, Scopes.afterAll,
          Scopes.after, missing, Matcher.sites, Site.occurrence?]
  | .lit literal, bindings, after, matcher, compiled, names, outer => by
      rcases compile_lit compiled with ⟨_, _, rfl, rfl⟩
      exact ⟨rfl, rfl⟩
  | .tuple items, bindings, after, matcher, compiled, names, outer => by
      rcases compile_tuple compiled with ⟨_, inner, rfl⟩
      exact designatesAll items inner names outer
  | .list items, bindings, after, matcher, compiled, names, outer => by
      rcases compile_list compiled with ⟨_, inner, rfl⟩
      exact designatesAll items inner names outer

theorem designatesAll : (patterns : List Pattern) -> {bindings after : Bindings} ->
    {matchers : List Matcher} -> compileAll bindings patterns = .ok (matchers, after) ->
    (names : List (String × Nat)) -> (outer : List (List (String × Nat))) ->
    (Scopes.mk bindings.next bindings.bound (bindings.bound ++ names) outer).occurrences
        ((bindingsOfAll patterns).map .bind) =
          (Matcher.sitesOfAll matchers).filterMap Site.occurrence? ∧
      (Scopes.mk bindings.next bindings.bound (bindings.bound ++ names) outer).afterAll
        ((bindingsOfAll patterns).map .bind) =
          ⟨after.next, after.bound, after.bound ++ names, outer⟩
  | [], bindings, after, matchers, compiled, names, outer => by
      simp only [compileAll] at compiled
      cases compiled
      exact ⟨rfl, rfl⟩
  | pattern :: rest, bindings, after, matchers, compiled, names, outer => by
      rcases compileAll_cons compiled with ⟨_, between, _, first, second, rfl⟩
      have head := designates pattern first names outer
      have tail := designatesAll rest second names outer
      simp only [bindingsOfAll, List.map_append, Scopes.occurrences_append,
        Scopes.afterAll_append, head, tail, Matcher.sitesOfAll, List.filterMap_append, and_self]

end

end Pattern

namespace Layout

variable {layout after : Layout} {registry : Registry}

/-- A pattern that is declared. -/
theorem Designates.declare {pattern : Pattern} {matcher : Matcher} {bindings : Bindings}
    (compiled : pattern.compile ⟨layout.locals, []⟩ = .ok (matcher, bindings)) :
    Designates layout (layout.declare bindings) pattern.mentions matcher.sites := by
  intro own outer
  have read := pattern.designates compiled layout.names outer
  exact ⟨bindings.bound, read.1, read.2⟩

/-- What compiling nodes in any layout does with names. -/
def NodesDesignate (registry : Registry) (nodes : List Node) : Prop :=
  ∀ {layout after : Layout} {output : Output},
    Node.compileAll registry nodes layout = .ok (output, after) ->
      Designates layout after (Node.mentionsOfAll nodes) (Block.sitesOfAll output.statements)

/-- A block is itself no site of a local. -/
theorem Designates.toBlock {output : Output} {mentions : List Mention}
    (inner : Designates layout after mentions (Block.sitesOfAll output.statements)) :
    Designates layout after mentions output.toBlock.sites :=
  inner

theorem CompilesBlock.designates {nodes : List Node} {output : Output}
    (compiled : layout.CompilesBlock registry nodes output after)
    (inner : NodesDesignate registry nodes) :
    Designates layout after (Mention.inBlock (Node.mentionsOfAll nodes)) output.toBlock.sites := by
  rcases compiled with ⟨_, ran, rfl⟩
  exact (inner ran).toBlock.inBlock

theorem CompilesBody.designates {pattern : Pattern} {nodes : List Node} {matcher : Matcher}
    {output : Output} (compiled : layout.CompilesBody registry pattern nodes matcher output after)
    (inner : NodesDesignate registry nodes) :
    Designates layout after (Mention.inBlock (pattern.mentions ++ Node.mentionsOfAll nodes))
      (matcher.sites ++ output.toBlock.sites) := by
  rcases compiled with ⟨_, _, declared, ran, rfl⟩
  exact ((Designates.declare declared).append (inner ran).toBlock).inBlock

end Layout

namespace Node

variable {registry : Registry}

open Layout

theorem mentionsOfAction_of_literalText? {action : Action} {known : String}
    (literal : action.literalText? = some known) : mentionsOfAction action = [] := by
  cases action with
  | value expr =>
      rcases Option.bind_eq_some_iff.mp literal with ⟨value, found, _⟩
      simp only [mentionsOfAction, expr.uses_of_literal? found, List.map_nil]
  | _ => cases literal

mutual

/-- What a tag evaluates reads and binds locals where it uses and binds
names. -/
theorem compileAction_designates : (action : Action) -> {layout after : Layout} ->
    {operation : Operation} -> compileAction registry action layout = .ok (operation, after) ->
    Designates layout after (mentionsOfAction action) (Block.sitesOfOperation operation)
  | .value expr, layout, after, operation, compiled => by
      rcases compileAction_value compiled with ⟨_, inner, rfl, rfl⟩
      exact .uses (expr.reads_compile inner)
  | .cond negated test holds fails, layout, after, operation, compiled => by
      rcases compileAction_cond compiled with ⟨_, _, _, _, inner, first, second, rfl⟩
      exact (Designates.uses (test.reads_compile inner)).append
        ((first.designates (compileAll_designates holds)).append
          (second.designates (compileAll_designates fails)))
  | .loop pattern source body, layout, after, operation, compiled => by
      rcases compileAction_loop compiled with ⟨_, _, _, inner, block, rfl⟩
      exact (Designates.uses (source.reads_compile inner)).append
        (block.designates (compileAll_designates body))
  | .choice subject clauses, layout, after, operation, compiled => by
      rcases compileAction_choice compiled with ⟨_, _, inner, rest, rfl⟩
      exact (Designates.uses (subject.reads_compile inner)).append
        (compileClauses_designates clauses rest)
  | .callBlock name args body, layout, after, operation, compiled => by
      rcases compileAction_callBlock compiled with ⟨_, _, _, _, inner, block, rfl⟩
      exact (Designates.uses (Expr.readsOfAll_compile args inner)).append
        (block.designates (compileAll_designates body))

theorem compileClauses_designates : (clauses : List Clause) -> {layout after : Layout} ->
    {branches : List Branch} -> compileClauses registry clauses layout = .ok (branches, after) ->
    Designates layout after (mentionsOfClauses clauses) (Block.sitesOfBranches branches)
  | [], layout, after, branches, compiled => by
      cases compiled
      exact .refl _
  | .clause pattern body :: rest, layout, after, branches, compiled => by
      rcases compileClauses_cons compiled with ⟨_, _, _, _, first, second, rfl⟩
      exact (first.designates (compileAll_designates body)).append
        (compileClauses_designates rest second)

theorem compile_designates : (node : Node) -> {layout after : Layout} -> {output : Output} ->
    compile registry node layout = .ok (output, after) ->
    Designates layout after node.mentions (Block.sitesOfAll output.statements)
  | .text content, layout, after, output, compiled => by
      cases compiled
      exact .refl _
  | .comment _, layout, after, output, compiled => by
      cases compiled
      exact .refl _
  | .print action, layout, after, output, compiled => by
      rcases compile_print compiled with ⟨known, literal, rfl, rfl⟩ | ⟨_, _, _, ran, rfl, rfl⟩
      · rw [mentions, mentionsOfAction_of_literalText? literal, Output.ofText]
        exact .refl _
      · have inner := compileAction_designates action ran
        rw [Block.sitesOfAll_singleton]
        exact inner
  | .silent action, layout, after, output, compiled => by
      rcases compile_silent compiled with ⟨_, ran, rfl⟩
      rw [Block.sitesOfAll_singleton]
      exact compileAction_designates action ran
  | .bind pattern expr, layout, after, output, compiled => by
      rcases compile_bind compiled with ⟨_, _, _, inner, declared, rfl, rfl⟩
      rw [Block.sitesOfAll_singleton]
      exact (Designates.uses (expr.reads_compile inner)).append (.declare declared)

theorem compileAll_designates : (nodes : List Node) -> {layout after : Layout} ->
    {output : Output} -> compileAll registry nodes layout = .ok (output, after) ->
    Designates layout after (mentionsOfAll nodes) (Block.sitesOfAll output.statements)
  | [], layout, after, output, compiled => by
      cases compiled
      exact .refl _
  | node :: rest, layout, after, output, compiled => by
      rcases compileAll_cons compiled with ⟨_, _, _, first, second, rfl⟩
      have both := (compile_designates node first).append (compileAll_designates rest second)
      rw [Output.append, Block.sitesOfAll_append]
      exact both

end

end Node
end HtmlTemplate
