import HtmlTemplate.Proofs.Concatenation.Compiling
import HtmlTemplate.Proofs.Literals.Numerals
import HtmlTemplate.Proofs.Scoping.Places

namespace HtmlTemplate

/-!
# What the compiler accepts

Whether nodes compile depends on each thing that stands in them, and on nothing
else: names have to be visible, functions known, and literals have to denote a
value.  No other step of the compiler can fail, and none is skipped, so a block
that is never entered is judged like any other.
-/

/-- There is a function of the name. -/
def Registry.Knows (registry : Registry) (name : String) : Prop :=
  ∃ function, (name, function) ∈ registry

theorem Registry.knows_iff {registry : Registry} {name : String} :
    registry.Knows name ↔ ∃ target, Expr.resolve registry name = .ok target := by
  have known : registry.Knows name ↔ lookUp? name registry ≠ none := by
    rw [ne_eq, lookUp?_eq_none_iff, not_not, List.mem_map]
    exact ⟨fun ⟨function, member⟩ => ⟨_, member, rfl⟩,
      fun ⟨entry, member, same⟩ => ⟨entry.2, same ▸ member⟩⟩
  rw [known]
  unfold Expr.resolve Registry.find?
  cases lookUp? name registry with
  | none => exact iff_of_false (absurd rfl) nofun
  | some function => exact iff_of_true nofun ⟨_, rfl⟩

/-! ## Expressions -/

namespace Expr

/-- The expression itself is in order, whatever the expressions inside of it
are. -/
def Passes (registry : Registry) (visible : List String) : Expr -> Prop
  | .lit literal => literal.Denotes
  | .var name => name ∈ visible
  | .call name _ => registry.Knows name
  | _ => True

/-- A literal in parentheses or behind minus signs is in order if it has a
value. -/
theorem passes_of_literal? {registry : Registry} {visible : List String} : (expr : Expr) ->
    {value : Value} -> expr.literal? = some value ->
    ∀ part ∈ expr.parts, part.Passes registry visible
  | .lit literal, value, found => by
      rw [parts, List.forall_mem_singleton]
      exact ⟨value, literal?_lit.mp found⟩
  | .unary .minus operand, value, found => by
      rcases Option.bind_eq_some_iff.mp found with ⟨_, inner, _⟩
      exact List.forall_mem_cons.mpr ⟨trivial, passes_of_literal? operand inner⟩
  | .group inner, value, found =>
      List.forall_mem_cons.mpr ⟨trivial, passes_of_literal? inner found⟩

section Compile

variable {registry : Registry} {names : List (String × Nat)} {visible : List String}

theorem exists_bind_iff {ε α β : Type} {first : Except ε α} {next : α -> Except ε β} {good : Prop}
    (always : ∀ value, (∃ result, next value = .ok result) ↔ good) :
    (∃ result, first >>= next = .ok result) ↔ (∃ value, first = .ok value) ∧ good := by
  cases first with
  | error fault => exact iff_of_false nofun fun ⟨⟨_, impossible⟩, _⟩ => nomatch impossible
  | ok value => exact (always value).trans ⟨fun holds => ⟨⟨value, rfl⟩, holds⟩, And.right⟩

/-- A step after which nothing can fail. -/
theorem exists_bind_ok_iff {ε α β : Type} {first : Except ε α} {result : α -> β} :
    (∃ value, (first >>= fun value => .ok (result value)) = .ok value) ↔
      ∃ value, first = .ok value :=
  (exists_bind_iff fun _ => iff_of_true ⟨_, rfl⟩ trivial).trans (and_iff_left trivial)

mutual

/-- An expression compiles exactly if all its parts are in order. -/
theorem exists_compile_iff (same : ∀ name, name ∈ names.map Prod.fst ↔ name ∈ visible) :
    (expr : Expr) -> ((∃ code, compile registry names expr = .ok code) ↔
      ∀ part ∈ expr.parts, part.Passes registry visible)
  | .lit literal => by
      rw [parts, List.forall_mem_singleton]
      exact exists_bind_ok_iff
  | .assign name => by
      rw [parts, List.forall_mem_singleton]
      exact iff_of_true ⟨_, rfl⟩ trivial
  | .var name => by
      rw [parts, List.forall_mem_singleton, Passes, ← same name]
      simp only [compile]
      cases found : lookUp? name names with
      | none => exact iff_of_false nofun (lookUp?_eq_none_iff.mp found)
      | some slot => exact iff_of_true ⟨_, rfl⟩ (mem_names_of_lookUp? found)
  | .list items => by
      rw [parts, List.forall_mem_cons, ← exists_compileAll_iff same items]
      exact exists_bind_ok_iff.trans (and_iff_right trivial).symm
  | .tuple items => by
      rw [parts, List.forall_mem_cons, ← exists_compileAll_iff same items]
      exact exists_bind_ok_iff.trans (and_iff_right trivial).symm
  | .attr object name => by
      rw [parts, List.forall_mem_cons, ← exists_compile_iff same object]
      exact exists_bind_ok_iff.trans (and_iff_right trivial).symm
  | .index object key => by
      rw [parts, List.forall_mem_cons, List.forall_mem_append, ← exists_compile_iff same object,
        ← exists_compile_iff same key]
      exact (exists_bind_iff fun _ => exists_bind_ok_iff).trans (and_iff_right trivial).symm
  | .call name args => by
      rw [parts, List.forall_mem_cons, Passes, Registry.knows_iff, ← exists_compileAll_iff same args]
      exact exists_bind_iff fun _ => exists_bind_ok_iff
  | .unary op operand => by
      rw [parts, List.forall_mem_cons, ← exists_compile_iff same operand]
      exact exists_bind_ok_iff.trans (and_iff_right trivial).symm
  | .binary op left right => by
      rw [parts, List.forall_mem_cons, List.forall_mem_append, ← exists_compile_iff same left,
        ← exists_compile_iff same right]
      refine (exists_bind_iff fun left' => ?_).trans (and_iff_right trivial).symm
      cases op with
      | _ => exact exists_bind_ok_iff
  | .group inner => by
      rw [parts, List.forall_mem_cons, ← exists_compile_iff same inner]
      exact (and_iff_right trivial).symm

theorem exists_compileAll_iff (same : ∀ name, name ∈ names.map Prod.fst ↔ name ∈ visible) :
    (exprs : List Expr) -> ((∃ codes, compileAll registry names exprs = .ok codes) ↔
      ∀ part ∈ partsOfAll exprs, part.Passes registry visible)
  | [] => iff_of_true ⟨_, rfl⟩ fun _ impossible => nomatch impossible
  | expr :: rest => by
      rw [partsOfAll, List.forall_mem_append, ← exists_compile_iff same expr,
        ← exists_compileAll_iff same rest]
      exact exists_bind_iff fun _ => exists_bind_ok_iff

end

end Compile

end Expr

/-! ## Patterns -/

namespace Pattern

mutual

/-- A pattern compiles exactly if all its literals denote a value. -/
theorem exists_compile_iff : (pattern : Pattern) -> (bindings : Bindings) ->
    ((∃ result, compile bindings pattern = .ok result) ↔
      ∀ literal ∈ pattern.literals, literal.Denotes)
  | .wildcard, bindings => iff_of_true ⟨_, by rw [compile]⟩ fun _ impossible => nomatch impossible
  | .var name, bindings => by
      refine iff_of_true ?_ fun _ impossible => nomatch impossible
      rw [compile]
      split
      · exact ⟨_, rfl⟩
      · exact ⟨_, rfl⟩
  | .lit literal, bindings => by
      rw [literals, List.forall_mem_singleton, compile, Literal.Denotes]
      cases literal.denote with
      | ok value => exact iff_of_true ⟨_, rfl⟩ ⟨_, rfl⟩
      | error fault => exact iff_of_false nofun nofun
  | .tuple items, bindings => by
      rw [literals, ← exists_compileAll_iff items bindings, compile]
      cases compileAll bindings items with
      | ok result => exact iff_of_true ⟨_, rfl⟩ ⟨_, rfl⟩
      | error fault => exact iff_of_false nofun nofun
  | .list items, bindings => by
      rw [literals, ← exists_compileAll_iff items bindings, compile]
      cases compileAll bindings items with
      | ok result => exact iff_of_true ⟨_, rfl⟩ ⟨_, rfl⟩
      | error fault => exact iff_of_false nofun nofun

theorem exists_compileAll_iff : (patterns : List Pattern) -> (bindings : Bindings) ->
    ((∃ result, compileAll bindings patterns = .ok result) ↔
      ∀ literal ∈ literalsOfAll patterns, literal.Denotes)
  | [], bindings => iff_of_true ⟨_, by rw [compileAll]⟩ fun _ impossible => nomatch impossible
  | pattern :: rest, bindings => by
      rw [literalsOfAll, List.forall_mem_append, ← exists_compile_iff pattern bindings,
        compileAll]
      cases compile bindings pattern with
      | error fault => exact iff_of_false nofun fun ⟨⟨_, impossible⟩, _⟩ => nomatch impossible
      | ok first =>
          rw [← exists_compileAll_iff rest first.2]
          refine Iff.trans ?_ (and_iff_right ⟨_, rfl⟩).symm
          dsimp only
          cases compileAll first.2 rest with
          | ok result => exact iff_of_true ⟨_, rfl⟩ ⟨_, rfl⟩
          | error fault => exact iff_of_false nofun nofun

end

mutual

/-- The names that a pattern binds are those that are in it. -/
theorem mem_bound_iff : (pattern : Pattern) -> {bindings after : Bindings} ->
    {matcher : Matcher} -> compile bindings pattern = .ok (matcher, after) -> (name : String) ->
    (name ∈ after.bound.map Prod.fst ↔
      name ∈ pattern.bindings ∨ name ∈ bindings.bound.map Prod.fst)
  | .wildcard, bindings, after, matcher, compiled, name => by
      simp only [compile] at compiled
      cases compiled
      simp [Pattern.bindings]
  | .var own, bindings, after, matcher, compiled, name => by
      rcases compile_var compiled with ⟨slot, found, rfl, rfl⟩ | ⟨_, rfl, rfl⟩
      · rw [Pattern.bindings, List.mem_singleton]
        refine ⟨.inr, fun either => either.elim ?_ id⟩
        rintro rfl
        exact mem_names_of_lookUp? found
      · simp [Pattern.bindings]
  | .lit literal, bindings, after, matcher, compiled, name => by
      rcases compile_lit compiled with ⟨_, _, rfl, rfl⟩
      simp [Pattern.bindings]
  | .tuple items, bindings, after, matcher, compiled, name => by
      rcases compile_tuple compiled with ⟨_, inner, rfl⟩
      exact mem_boundOfAll_iff items inner name
  | .list items, bindings, after, matcher, compiled, name => by
      rcases compile_list compiled with ⟨_, inner, rfl⟩
      exact mem_boundOfAll_iff items inner name

theorem mem_boundOfAll_iff : (patterns : List Pattern) -> {bindings after : Bindings} ->
    {matchers : List Matcher} -> compileAll bindings patterns = .ok (matchers, after) ->
    (name : String) ->
    (name ∈ after.bound.map Prod.fst ↔
      name ∈ bindingsOfAll patterns ∨ name ∈ bindings.bound.map Prod.fst)
  | [], bindings, after, matchers, compiled, name => by
      simp only [compileAll] at compiled
      cases compiled
      simp [bindingsOfAll]
  | pattern :: rest, bindings, after, matchers, compiled, name => by
      rcases compileAll_cons compiled with ⟨_, _, _, first, second, rfl⟩
      rw [mem_boundOfAll_iff rest second name, mem_bound_iff pattern first name, bindingsOfAll,
        List.mem_append]
      exact or_left_comm.trans or_assoc.symm

end

end Pattern

/-! ## Nodes -/

open Compilation

/-- What a tag holds is in order, where some names are visible. -/
def Holding.Passes (registry : Registry) (visible : List String) : Holding -> Prop
  | .expr held => ∀ part ∈ held.parts, part.Passes registry visible
  | .pattern held => ∀ literal ∈ held.literals, literal.Denotes
  | .function name => registry.Knows name

/-- Everything in the nodes is in order, where some names are visible in front
of them. -/
def Node.AllPass (registry : Registry) (visible : List String) (nodes : List Node) : Prop :=
  Node.Everywhere
    (fun scope => Holding.Passes registry (scope.flatMap Pattern.bindings ++ visible)) nodes

/-- The names that are visible in a layout. -/
def Layout.Shows (layout : Layout) (visible : List String) : Prop :=
  ∀ name, name ∈ layout.names.map Prod.fst ↔ name ∈ visible

namespace Node

variable {registry : Registry} {visible : List String}

theorem allPass_cons_iff {node : Node} {rest : List Node} :
    AllPass registry visible (node :: rest) ↔
      (∀ holding ∈ node.holdings, holding.Passes registry visible) ∧
      (∀ block ∈ node.blocks,
        AllPass registry (block.1.flatMap Pattern.bindings ++ visible) block.2) ∧
      AllPass registry (node.declared.flatMap Pattern.bindings ++ visible) rest := by
  simp only [AllPass, everywhere_cons_iff, List.flatMap_append, List.append_assoc,
    List.flatMap_nil, List.nil_append]

end Node

namespace Layout

variable {registry : Registry} {visible : List String} {layout : Layout}

/-- What is known of compiling nodes: it fails only where something in them is
not in order. -/
def Accepts (registry : Registry) (nodes : List Node) : Prop :=
  ∀ {layout : Layout} {visible : List String}, layout.Shows visible ->
    ((∃ result, Node.compileAll registry nodes layout = .ok result) ↔
      Node.AllPass registry visible nodes)

theorem Shows.declare {pattern : Pattern} {matcher : Matcher} {bindings : Bindings}
    (shows' : layout.Shows visible)
    (compiled : pattern.compile ⟨layout.locals, []⟩ = .ok (matcher, bindings)) :
    (layout.declare bindings).Shows (pattern.bindings ++ visible) := by
  intro name
  rw [Layout.declare, List.map_append, List.mem_append, List.mem_append, shows' name,
    Pattern.mem_bound_iff pattern compiled name]
  simp

theorem exists_compileHere_iff (shows' : layout.Shows visible) (expr : Expr) :
    (∃ result, expr.compileHere registry layout = .ok result) ↔
      (Holding.expr expr).Passes registry visible := by
  rw [Holding.Passes, ← Expr.exists_compile_iff shows' expr]
  simp only [Expr.compileHere_eq_ok]
  exact ⟨fun ⟨_, code, compiled, _⟩ => ⟨code, compiled⟩,
    fun ⟨code, compiled⟩ => ⟨_, code, compiled, rfl⟩⟩

theorem exists_declare_iff (layout : Layout) (pattern : Pattern) :
    (∃ result, pattern.declare layout = .ok result) ↔
      (Holding.pattern pattern).Passes registry visible := by
  rw [Holding.Passes, ← Pattern.exists_compile_iff pattern ⟨layout.locals, []⟩]
  simp only [Pattern.declare_eq_ok]
  exact ⟨fun ⟨_, matcher, bindings, compiled, _⟩ => ⟨(matcher, bindings), compiled⟩,
    fun ⟨(matcher, bindings), compiled⟩ => ⟨_, matcher, bindings, compiled, rfl⟩⟩

section Steps

variable {α β : Type} {good : Prop}

/-- The second step may depend on what the first one did, but whether it fails
does not. -/
theorem exists_step_iff {first : Compilation α} {next : α -> Compilation β}
    (always : ∀ value after, first layout = .ok (value, after) ->
      ((∃ result, next value after = .ok result) ↔ good)) :
    (∃ result, (first >>= next) layout = .ok result) ↔
      (∃ result, first layout = .ok result) ∧ good := by
  simp only [bind_eq_ok]
  constructor
  · rintro ⟨result, value, after, ran, done⟩
    exact ⟨⟨_, ran⟩, (always value after ran).mp ⟨result, done⟩⟩
  · rintro ⟨⟨⟨value, after⟩, ran⟩, holds⟩
    rcases (always value after ran).mpr holds with ⟨result, done⟩
    exact ⟨result, value, after, ran, done⟩

theorem exists_last_iff {first : Compilation α} {last : α -> β} :
    (∃ result, (first >>= fun value => pure (last value)) layout = .ok result) ↔
      ∃ result, first layout = .ok result :=
  (exists_step_iff fun _ _ _ => iff_of_true ⟨_, rfl⟩ trivial).trans (and_iff_left trivial)

theorem exists_inScope_iff {step : Compilation α} :
    (∃ result, inScope step layout = .ok result) ↔ ∃ result, step layout = .ok result := by
  simp only [inScope_eq_ok]
  exact ⟨fun ⟨_, value, inner, ran, _⟩ => ⟨(value, inner), ran⟩,
    fun ⟨(value, inner), ran⟩ => ⟨_, value, inner, ran, rfl⟩⟩

end Steps

theorem exists_block_iff {nodes : List Node} (accepts : Accepts registry nodes)
    (shows' : layout.Shows visible) :
    (∃ result, inScope (Node.compileAll registry nodes) layout = .ok result) ↔
      Node.AllPass registry visible nodes :=
  exists_inScope_iff.trans (accepts shows')

theorem exists_body_iff {pattern : Pattern} {nodes : List Node}
    (accepts : Accepts registry nodes) (shows' : layout.Shows visible) :
    (∃ result, inScope (do
      let matcher ← pattern.declare
      let body ← Node.compileAll registry nodes
      return (matcher, body)) layout = .ok result) ↔
      (Holding.pattern pattern).Passes registry visible ∧
        Node.AllPass registry (pattern.bindings ++ visible) nodes := by
  rw [exists_inScope_iff, ← exists_declare_iff layout]
  refine exists_step_iff fun matcher after declared => ?_
  rcases Pattern.declare_eq_ok.mp declared with ⟨_, bindings, compiled, same⟩
  cases same
  exact exists_last_iff.trans (accepts (shows'.declare compiled))

theorem exists_compileAllHere_iff (shows' : layout.Shows visible) (exprs : List Expr) :
    (∃ result, Expr.compileAllHere registry exprs layout = .ok result) ↔
      ∀ expr ∈ exprs, (Holding.expr expr).Passes registry visible := by
  have parts : (∀ part ∈ Expr.partsOfAll exprs, part.Passes registry visible) ↔
      ∀ expr ∈ exprs, (Holding.expr expr).Passes registry visible := by
    simp only [Expr.mem_partsOfAll_iff, Holding.Passes, forall_exists_index, and_imp]
    exact ⟨fun passes expr member part inside => passes part expr member inside,
      fun passes part expr member inside => passes expr member part inside⟩
  rw [← parts, ← Expr.exists_compileAll_iff shows' exprs]
  simp only [Expr.compileAllHere_eq_ok]
  exact ⟨fun ⟨_, codes, compiled, _⟩ => ⟨codes, compiled⟩,
    fun ⟨codes, compiled⟩ => ⟨_, codes, compiled, rfl⟩⟩

theorem exists_resolve_iff (name : String) :
    (∃ result, (liftM (Expr.resolve registry name) : Compilation NamedFunction) layout =
      .ok result) ↔ (Holding.function name).Passes registry visible := by
  rw [Holding.Passes, Registry.knows_iff]
  simp only [lift_eq_ok]
  exact ⟨fun ⟨_, target, found, _⟩ => ⟨target, found⟩,
    fun ⟨target, found⟩ => ⟨_, target, found, rfl⟩⟩

end Layout

namespace Node

open Layout

variable {registry : Registry} {visible : List String}

/-- The end of a block leaves the names as they were. -/
theorem shows_of_inScope {α : Type} {step : Compilation α} {layout : Layout}
    {result : α × Layout} (shows' : layout.Shows visible)
    (ran : inScope step layout = .ok result) : result.2.Shows visible := by
  rcases inScope_eq_ok.mp ran with ⟨value, inner, _, rfl⟩
  exact shows'

theorem shows_of_compileAction {action : Action} {layout after : Layout} {operation : Operation}
    (shows' : layout.Shows visible)
    (ran : compileAction registry action layout = .ok (operation, after)) : after.Shows visible := by
  rw [Shows, (compileAction_grows action ran).2]
  exact shows'

/-- Behind a node its own names are visible besides. -/
theorem shows_of_compile {node : Node} {layout after : Layout} {output : Output}
    (shows' : layout.Shows visible)
    (ran : compile registry node layout = .ok (output, after)) :
    after.Shows (node.declared.flatMap Pattern.bindings ++ visible) := by
  cases node with
  | text content =>
      cases ran
      exact shows'
  | comment content =>
      cases ran
      exact shows'
  | print action =>
      rcases compile_print ran with ⟨_, _, _, rfl⟩ | ⟨_, between, _, inner, _, rfl⟩
      · exact shows'
      · have shows'' : between.Shows visible := shows_of_compileAction shows' inner
        exact shows''
  | silent action =>
      rcases compile_silent ran with ⟨_, ran, _⟩
      exact shows_of_compileAction shows' ran
  | bind pattern expr =>
      rcases compile_bind ran with ⟨_, _, _, _, declared, _, rfl⟩
      rw [Node.declared, List.flatMap_singleton]
      exact shows'.declare declared

/-- What a tag holds and its blocks are in order. -/
def ActionPasses (registry : Registry) (visible : List String) (action : Action) : Prop :=
  (∀ holding ∈ action.holdings, holding.Passes registry visible) ∧
    ∀ block ∈ action.blocks, AllPass registry (block.1.flatMap Pattern.bindings ++ visible) block.2

/-- A printed literal needs no compiling, but it would compile. -/
theorem actionPasses_of_literalText? {action : Action} {known : String}
    (found : action.literalText? = some known) : ActionPasses registry visible action := by
  cases action with
  | value expr =>
      rcases Option.bind_eq_some_iff.mp found with ⟨value, literal, _⟩
      refine ⟨List.forall_mem_singleton.mpr ?_, fun _ impossible => nomatch impossible⟩
      exact expr.passes_of_literal? literal
  | _ => cases found

mutual

theorem exists_compileAction_iff : (action : Action) -> {layout : Layout} ->
    {visible : List String} -> layout.Shows visible ->
    ((∃ result, compileAction registry action layout = .ok result) ↔
      ActionPasses registry visible action)
  | .value expr, layout, visible, shows' => by
      rw [ActionPasses, Action.holdings, Action.blocks, List.forall_mem_singleton]
      exact (exists_last_iff.trans (exists_compileHere_iff shows' expr)).trans
        (and_iff_left fun _ impossible => nomatch impossible).symm
  | .cond negated test holds fails, layout, visible, shows' => by
      rw [ActionPasses, Action.holdings, Action.blocks, List.forall_mem_singleton,
        List.forall_mem_cons, List.forall_mem_singleton, ← exists_compileHere_iff shows' test]
      refine exists_step_iff fun _ _ ran => ?_
      rcases Expr.compileHere_eq_ok.mp ran with ⟨_, _, same⟩
      cases same
      refine Iff.trans (exists_step_iff fun _ between ran => ?_)
        (and_congr_left' (exists_block_iff (exists_compileAll_iff holds) shows'))
      exact exists_last_iff.trans
        (exists_block_iff (exists_compileAll_iff fails) (shows_of_inScope shows' ran))
  | .loop pattern source body, layout, visible, shows' => by
      rw [ActionPasses, Action.holdings, Action.blocks, List.forall_mem_cons,
        List.forall_mem_singleton, List.forall_mem_singleton, List.flatMap_singleton, and_assoc,
        ← exists_compileHere_iff shows' source]
      refine exists_step_iff fun _ _ ran => ?_
      rcases Expr.compileHere_eq_ok.mp ran with ⟨_, _, same⟩
      cases same
      exact exists_last_iff.trans (exists_body_iff (exists_compileAll_iff body) shows')
  | .choice subject clauses, layout, visible, shows' => by
      rw [ActionPasses, Action.holdings, Action.blocks, List.forall_mem_cons, List.forall_mem_map,
        List.forall_mem_map, and_assoc, ← exists_compileHere_iff shows' subject]
      refine exists_step_iff fun _ _ ran => ?_
      rcases Expr.compileHere_eq_ok.mp ran with ⟨_, _, same⟩
      cases same
      refine (exists_last_iff.trans (exists_compileClauses_iff clauses shows')).trans ?_
      simp only [List.flatMap_singleton]
      exact forall₂_and
  | .callBlock name args body, layout, visible, shows' => by
      rw [ActionPasses, Action.holdings, Action.blocks, List.forall_mem_cons, List.forall_mem_map,
        List.forall_mem_singleton, and_assoc, ← exists_resolve_iff name]
      refine exists_step_iff fun _ _ ran => ?_
      rcases lift_eq_ok.mp ran with ⟨_, _, same⟩
      cases same
      rw [← exists_compileAllHere_iff shows' args]
      refine exists_step_iff fun _ _ ran => ?_
      rcases Expr.compileAllHere_eq_ok.mp ran with ⟨_, _, same⟩
      cases same
      exact exists_last_iff.trans (exists_block_iff (exists_compileAll_iff body) shows')

theorem exists_compileClauses_iff : (clauses : List Clause) -> {layout : Layout} ->
    {visible : List String} -> layout.Shows visible ->
    ((∃ result, compileClauses registry clauses layout = .ok result) ↔
      ∀ clause ∈ clauses, (Holding.pattern clause.pattern).Passes registry visible ∧
        AllPass registry (clause.pattern.bindings ++ visible) clause.body)
  | [], layout, visible, shows' =>
      iff_of_true ⟨_, rfl⟩ fun _ impossible => nomatch impossible
  | .clause pattern body :: rest, layout, visible, shows' => by
      rw [List.forall_mem_cons]
      refine Iff.trans (exists_step_iff fun _ _ ran => ?_)
        (and_congr_left' (exists_body_iff (exists_compileAll_iff body) shows'))
      exact exists_last_iff.trans
        (exists_compileClauses_iff rest (shows_of_inScope shows' ran))

theorem exists_compile_iff : (node : Node) -> {layout : Layout} -> {visible : List String} ->
    layout.Shows visible ->
    ((∃ result, compile registry node layout = .ok result) ↔
      (∀ holding ∈ node.holdings, holding.Passes registry visible) ∧
      ∀ block ∈ node.blocks, AllPass registry (block.1.flatMap Pattern.bindings ++ visible) block.2)
  | .text content, layout, visible, shows' => iff_of_true ⟨_, rfl⟩ ⟨nofun, nofun⟩
  | .comment _, layout, visible, shows' => iff_of_true ⟨_, rfl⟩ ⟨nofun, nofun⟩
  | .print action, layout, visible, shows' => by
      refine Iff.trans ?_ (exists_compileAction_iff action shows')
      cases literal : action.literalText? with
      | some known =>
          have passes : ∃ result, compileAction registry action layout = .ok result :=
            (exists_compileAction_iff action shows').mpr (actionPasses_of_literalText? literal)
          refine iff_of_true ?_ passes
          simp only [compile, literal]
          exact ⟨_, rfl⟩
      | none =>
          simp only [compile, literal]
          exact (exists_step_iff fun _ _ _ => iff_of_true ⟨_, rfl⟩ trivial).trans
            (and_iff_left trivial)
  | .silent action, layout, visible, shows' =>
      exists_last_iff.trans (exists_compileAction_iff action shows')
  | .bind pattern expr, layout, visible, shows' => by
      rw [holdings, blocks, List.forall_mem_cons, List.forall_mem_singleton,
        ← exists_compileHere_iff shows' expr]
      refine Iff.trans (exists_step_iff fun _ _ _ => ?_)
        (and_iff_left fun _ impossible => nomatch impossible).symm
      exact exists_last_iff.trans (exists_declare_iff _ pattern)

theorem exists_compileAll_iff : (nodes : List Node) -> Accepts registry nodes
  | [], layout, visible, shows' => iff_of_true ⟨_, rfl⟩ everywhere_nil
  | node :: rest, layout, visible, shows' => by
      rw [allPass_cons_iff, ← and_assoc, ← exists_compile_iff node shows']
      refine exists_step_iff fun output after ran => ?_
      exact exists_last_iff.trans (exists_compileAll_iff rest (shows_of_compile shows' ran))

end

end Node
end HtmlTemplate
