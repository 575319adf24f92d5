import HtmlTemplate.Proofs.Concatenation.Sources
import HtmlTemplate.Proofs.Rendering.Layout

namespace HtmlTemplate

/-!
# Compiling depends on nothing but the visible names

How many temporaries and locals were handed out before, and for which locals the
visible names stand, makes no difference to whether nodes compile.  So nodes
that compile on their own also compile after other nodes, where more names are
visible.
-/

/-! ## Names -/

section Names

variable {α β γ : Type}

/-- The names of some entries are among the names of others. -/
def Covered (entries : List (String × α)) (others : List (String × β)) : Prop :=
  entries.map Prod.fst ⊆ others.map Prod.fst

theorem lookUp?_eq_none_iff {name : String} {entries : List (String × α)} :
    lookUp? name entries = none ↔ name ∉ entries.map Prod.fst := by
  simp only [lookUp?, Option.map_eq_none_iff, List.find?_eq_none, List.mem_map, not_exists,
    beq_iff_eq]
  constructor
  · rintro absent entry ⟨member, same⟩
    exact absent entry member same
  · intro absent entry member same
    exact absent entry ⟨member, same⟩

/-- What is found stands under its name. -/
theorem mem_names_of_lookUp? {name : String} {entries : List (String × α)} {value : α}
    (found : lookUp? name entries = some value) : name ∈ entries.map Prod.fst := by
  by_contra absent
  rw [lookUp?_eq_none_iff.mpr absent] at found
  cases found

theorem exists_lookUp?_of_mem {name : String} {entries : List (String × α)}
    (member : name ∈ entries.map Prod.fst) : ∃ value, lookUp? name entries = some value := by
  rw [← Option.isSome_iff_exists, Option.isSome_iff_ne_none]
  exact fun absent => lookUp?_eq_none_iff.mp absent member

theorem lookUp?_cons (name other : String) (value : α) (rest : List (String × α)) :
    lookUp? name ((other, value) :: rest) = if other = name then some value else lookUp? name rest := by
  by_cases same : other = name
  · simp [lookUp?, same]
  · simp [lookUp?, same]

theorem lookUp?_append (name : String) (first second : List (String × α)) :
    lookUp? name (first ++ second) = (lookUp? name first).or (lookUp? name second) := by
  simp only [lookUp?, List.find?_append, Option.map_or]

theorem Covered.lookUp? {entries : List (String × α)} {others : List (String × β)}
    (covered : Covered entries others) {name : String} {found : α}
    (known : lookUp? name entries = some found) : ∃ other, lookUp? name others = some other :=
  exists_lookUp?_of_mem (covered (mem_names_of_lookUp? known))

theorem Covered.append {entries first : List (String × α)} {others second : List (String × β)}
    (covered : Covered entries others) (same : first.map Prod.fst = second.map Prod.fst) :
    Covered (first ++ entries) (second ++ others) := by
  simp only [Covered, List.map_append, same]
  exact List.append_subset.mpr ⟨List.subset_append_left _ _,
    List.Subset.trans covered (List.subset_append_right _ _)⟩

end Names

/-! ## Patterns and expressions -/

namespace Pattern

mutual

/-- The names that a pattern binds do not depend on the locals it is given. -/
theorem compile_elsewhere : (pattern : Pattern) -> {bindings after : Bindings} ->
    {matcher : Matcher} -> compile bindings pattern = .ok (matcher, after) ->
    {others : Bindings} -> bindings.bound.map Prod.fst = others.bound.map Prod.fst ->
    ∃ matcher' last, compile others pattern = .ok (matcher', last) ∧
      after.bound.map Prod.fst = last.bound.map Prod.fst
  | .wildcard, bindings, after, matcher, compiled, others, same => by
      simp only [compile] at compiled
      cases compiled
      exact ⟨_, _, rfl, same⟩
  | .var name, bindings, after, matcher, compiled, others, same => by
      rcases compile_var compiled with ⟨slot, found, rfl, rfl⟩ | ⟨missing, rfl, rfl⟩
      · have covered : Covered after.bound others.bound := by
          rw [Covered, same]
          exact List.Subset.refl _
        rcases covered.lookUp? found with ⟨other, found⟩
        refine ⟨.same other, others, ?_, same⟩
        simp only [compile, found]
      · rw [lookUp?_eq_none_iff, same, ← lookUp?_eq_none_iff] at missing
        refine ⟨.bind others.next, ⟨others.next + 1, (name, others.next) :: others.bound⟩, ?_, ?_⟩
        · simp only [compile, missing]
        · simp only [List.map_cons, same]
  | .lit literal, bindings, after, matcher, compiled, others, same => by
      rcases compile_lit compiled with ⟨value, denoted, rfl, rfl⟩
      refine ⟨.equals value, others, ?_, same⟩
      simp only [compile, denoted]
  | .tuple items, bindings, after, matcher, compiled, others, same => by
      rcases compile_tuple compiled with ⟨matchers, inner, rfl⟩
      rcases compileAll_elsewhere items inner same with ⟨matchers', last, compiled, same⟩
      refine ⟨.tuple matchers', last, ?_, same⟩
      simp only [compile, compiled]
  | .list items, bindings, after, matcher, compiled, others, same => by
      rcases compile_list compiled with ⟨matchers, inner, rfl⟩
      rcases compileAll_elsewhere items inner same with ⟨matchers', last, compiled, same⟩
      refine ⟨.list matchers', last, ?_, same⟩
      simp only [compile, compiled]

theorem compileAll_elsewhere : (patterns : List Pattern) -> {bindings after : Bindings} ->
    {matchers : List Matcher} -> compileAll bindings patterns = .ok (matchers, after) ->
    {others : Bindings} -> bindings.bound.map Prod.fst = others.bound.map Prod.fst ->
    ∃ matchers' last, compileAll others patterns = .ok (matchers', last) ∧
      after.bound.map Prod.fst = last.bound.map Prod.fst
  | [], bindings, after, matchers, compiled, others, same => by
      simp only [compileAll] at compiled
      cases compiled
      exact ⟨_, _, rfl, same⟩
  | pattern :: rest, bindings, after, matchers, compiled, others, same => by
      rcases compileAll_cons compiled with ⟨matcher, between, following, first, second, rfl⟩
      rcases compile_elsewhere pattern first same with ⟨matcher', middle, first, same⟩
      rcases compileAll_elsewhere rest second same with ⟨matchers', last, second, same⟩
      refine ⟨matcher' :: matchers', last, ?_, same⟩
      simp only [compileAll, first, second]

end

end Pattern

namespace Expr

variable {registry : Registry} {names others : List (String × Nat)}

mutual

/-- More names, or other locals for them, do no harm to an expression. -/
theorem compile_elsewhere : (expr : Expr) -> {code : Code} ->
    compile registry names expr = .ok code -> Covered names others ->
    ∃ code', compile registry others expr = .ok code'
  | .lit literal, code, compiled, covered => by
      rcases Except.bind_eq_ok.mp compiled with ⟨value, denoted, _⟩
      exact ⟨_, Except.bind_eq_ok.mpr ⟨value, denoted, rfl⟩⟩
  | .assign name, code, compiled, covered => ⟨_, rfl⟩
  | .var name, code, compiled, covered => by
      simp only [compile] at compiled ⊢
      split at compiled
      · rename_i slot found
        rcases covered.lookUp? found with ⟨other, found⟩
        rw [found]
        exact ⟨_, rfl⟩
      · cases compiled
  | .list items, code, compiled, covered => by
      rcases Except.bind_eq_ok.mp compiled with ⟨_, inner, _⟩
      rcases compileAll_elsewhere items inner covered with ⟨codes, inner⟩
      exact ⟨_, Except.bind_eq_ok.mpr ⟨codes, inner, rfl⟩⟩
  | .tuple items, code, compiled, covered => by
      rcases Except.bind_eq_ok.mp compiled with ⟨_, inner, _⟩
      rcases compileAll_elsewhere items inner covered with ⟨codes, inner⟩
      exact ⟨_, Except.bind_eq_ok.mpr ⟨codes, inner, rfl⟩⟩
  | .attr object name, code, compiled, covered => by
      rcases Except.bind_eq_ok.mp compiled with ⟨_, inner, _⟩
      rcases compile_elsewhere object inner covered with ⟨object', inner⟩
      exact ⟨_, Except.bind_eq_ok.mpr ⟨object', inner, rfl⟩⟩
  | .index object key, code, compiled, covered => by
      rcases Except.bind_eq_ok.mp compiled with ⟨_, first, compiled⟩
      rcases Except.bind_eq_ok.mp compiled with ⟨_, second, _⟩
      rcases compile_elsewhere object first covered with ⟨object', first⟩
      rcases compile_elsewhere key second covered with ⟨key', second⟩
      exact ⟨_, Except.bind_eq_ok.mpr ⟨object', first,
        Except.bind_eq_ok.mpr ⟨key', second, rfl⟩⟩⟩
  | .call name args, code, compiled, covered => by
      rcases Except.bind_eq_ok.mp compiled with ⟨target, found, compiled⟩
      rcases Except.bind_eq_ok.mp compiled with ⟨_, inner, _⟩
      rcases compileAll_elsewhere args inner covered with ⟨codes, inner⟩
      exact ⟨_, Except.bind_eq_ok.mpr ⟨target, found,
        Except.bind_eq_ok.mpr ⟨codes, inner, rfl⟩⟩⟩
  | .unary op operand, code, compiled, covered => by
      rcases Except.bind_eq_ok.mp compiled with ⟨_, inner, _⟩
      rcases compile_elsewhere operand inner covered with ⟨operand', inner⟩
      exact ⟨_, Except.bind_eq_ok.mpr ⟨operand', inner, rfl⟩⟩
  | .binary op left right, code, compiled, covered => by
      rcases Except.bind_eq_ok.mp compiled with ⟨_, first, compiled⟩
      rcases Except.bind_eq_ok.mp compiled with ⟨_, second, _⟩
      rcases compile_elsewhere left first covered with ⟨left', first⟩
      rcases compile_elsewhere right second covered with ⟨right', second⟩
      refine ⟨(match op with
        | .orWord => .either left' right'
        | .orSign => .either left' right'
        | .andWord => .both left' right'
        | .andSign => .both left' right'
        | .strict op => .binary op left' right'), ?_⟩
      refine Except.bind_eq_ok.mpr ⟨left', first, Except.bind_eq_ok.mpr ⟨right', second, ?_⟩⟩
      cases op with
      | _ => rfl
  | .group inner, code, compiled, covered => compile_elsewhere inner compiled covered

theorem compileAll_elsewhere : (exprs : List Expr) -> {codes : List Code} ->
    compileAll registry names exprs = .ok codes -> Covered names others ->
    ∃ codes', compileAll registry others exprs = .ok codes'
  | [], codes, compiled, covered => ⟨_, rfl⟩
  | expr :: rest, codes, compiled, covered => by
      rcases Except.bind_eq_ok.mp compiled with ⟨_, first, compiled⟩
      rcases Except.bind_eq_ok.mp compiled with ⟨_, second, _⟩
      rcases compile_elsewhere expr first covered with ⟨code', first⟩
      rcases compileAll_elsewhere rest second covered with ⟨codes', second⟩
      exact ⟨_, Except.bind_eq_ok.mpr ⟨code', first,
        Except.bind_eq_ok.mpr ⟨codes', second, rfl⟩⟩⟩

end

end Expr

/-! ## Nodes -/

open Compilation

namespace Layout

variable {registry : Registry} {layout other after : Layout} {nodes : List Node}

/-- What compiles in one layout also compiles in another one, where the same
names are visible and maybe more. -/
def NodesElsewhere (registry : Registry) (nodes : List Node) : Prop :=
  ∀ {layout other after : Layout} {output : Output},
    Node.compileAll registry nodes layout = .ok (output, after) ->
      Covered layout.names other.names ->
      ∃ result, Node.compileAll registry nodes other = .ok result

theorem declare_elsewhere {pattern : Pattern} {matcher : Matcher} {bindings : Bindings}
    (declared : pattern.compile ⟨layout.locals, []⟩ = .ok (matcher, bindings))
    (covered : Covered layout.names other.names) :
    ∃ matcher' last, pattern.declare other = .ok (matcher', last) ∧
      Covered (layout.declare bindings).names last.names := by
  have unbound : (Bindings.mk layout.locals []).bound.map Prod.fst =
      (Bindings.mk other.locals []).bound.map Prod.fst := rfl
  rcases Pattern.compile_elsewhere pattern declared unbound with
    ⟨matcher', last, compiled, same⟩
  exact ⟨matcher', other.declare last, Pattern.declare_eq_ok.mpr ⟨_, _, compiled, rfl⟩,
    covered.append same⟩

theorem CompilesBlock.elsewhere {output : Output}
    (compiled : layout.CompilesBlock registry nodes output after)
    (inner : NodesElsewhere registry nodes) (covered : Covered layout.names other.names) :
    ∃ output' last, inScope (Node.compileAll registry nodes) other = .ok (output', last) ∧
      last.names = other.names := by
  rcases compiled with ⟨_, ran, _⟩
  rcases inner ran covered with ⟨⟨output', last⟩, ran⟩
  exact ⟨output', _, inScope_eq_ok.mpr ⟨output', last, ran, rfl⟩, rfl⟩

theorem CompilesBody.elsewhere {pattern : Pattern} {matcher : Matcher} {output : Output}
    (compiled : layout.CompilesBody registry pattern nodes matcher output after)
    (inner : NodesElsewhere registry nodes) (covered : Covered layout.names other.names) :
    ∃ result last, inScope (do
      let matcher ← pattern.declare
      let body ← Node.compileAll registry nodes
      return (matcher, body)) other = .ok (result, last) ∧ last.names = other.names := by
  rcases compiled with ⟨bindings, _, declared, ran, _⟩
  rcases declare_elsewhere declared covered with ⟨matcher', middle, declared, covered⟩
  rcases inner ran covered with ⟨⟨output', last⟩, ran⟩
  refine ⟨(matcher', output'), _, inScope_eq_ok.mpr ⟨(matcher', output'), last, ?_, rfl⟩, rfl⟩
  exact bind_eq_ok.mpr ⟨_, _, declared, bind_eq_ok.mpr ⟨_, _, ran, rfl⟩⟩

end Layout

namespace Node

variable {registry : Registry}

mutual

theorem compileAction_elsewhere : (action : Action) -> {layout other after : Layout} ->
    {operation : Operation} -> compileAction registry action layout = .ok (operation, after) ->
    Covered layout.names other.names ->
    ∃ operation' last, compileAction registry action other = .ok (operation', last)
  | .value expr, layout, other, after, operation, compiled, covered => by
      rcases compileAction_value compiled with ⟨_, inner, _⟩
      rcases expr.compile_elsewhere inner covered with ⟨code, inner⟩
      exact ⟨_, _, bind_eq_ok.mpr ⟨code, other, Expr.compileHere_eq_ok.mpr ⟨_, inner, rfl⟩, rfl⟩⟩
  | .cond negated test holds fails, layout, other, after, operation, compiled, covered => by
      rcases compileAction_cond compiled with ⟨_, _, between, _, inner, first, second, _⟩
      rcases test.compile_elsewhere inner covered with ⟨code, inner⟩
      have same : between.names = layout.names := by
        rcases first with ⟨_, _, rfl⟩
        rfl
      rcases first.elsewhere (compileAll_elsewhere holds) covered with ⟨yes, middle, first, names⟩
      rw [← names, ← same] at covered
      rcases second.elsewhere (compileAll_elsewhere fails) covered with ⟨no, last, second, _⟩
      exact ⟨_, last, bind_eq_ok.mpr ⟨code, other, Expr.compileHere_eq_ok.mpr ⟨_, inner, rfl⟩,
        bind_eq_ok.mpr ⟨yes, middle, first, bind_eq_ok.mpr ⟨no, last, second, rfl⟩⟩⟩⟩
  | .loop pattern source body, layout, other, after, operation, compiled, covered => by
      rcases compileAction_loop compiled with ⟨_, _, _, inner, block, _⟩
      rcases source.compile_elsewhere inner covered with ⟨code, inner⟩
      rcases block.elsewhere (compileAll_elsewhere body) covered with ⟨result, last, block, _⟩
      exact ⟨_, last, bind_eq_ok.mpr ⟨code, other, Expr.compileHere_eq_ok.mpr ⟨_, inner, rfl⟩,
        bind_eq_ok.mpr ⟨result, last, block, rfl⟩⟩⟩
  | .choice subject clauses, layout, other, after, operation, compiled, covered => by
      rcases compileAction_choice compiled with ⟨_, _, inner, rest, _⟩
      rcases subject.compile_elsewhere inner covered with ⟨code, inner⟩
      rcases compileClauses_elsewhere clauses rest covered with ⟨branches, last, rest⟩
      exact ⟨_, last, bind_eq_ok.mpr ⟨code, other, Expr.compileHere_eq_ok.mpr ⟨_, inner, rfl⟩,
        bind_eq_ok.mpr ⟨branches, last, rest, rfl⟩⟩⟩
  | .callBlock name args body, layout, other, after, operation, compiled, covered => by
      rcases compileAction_callBlock compiled with ⟨target, _, _, found, inner, block, _⟩
      rcases Expr.compileAll_elsewhere args inner covered with ⟨codes, inner⟩
      rcases block.elsewhere (compileAll_elsewhere body) covered with ⟨output, last, block, _⟩
      exact ⟨_, last, bind_eq_ok.mpr ⟨target, other, lift_eq_ok.mpr ⟨_, found, rfl⟩,
        bind_eq_ok.mpr ⟨codes, other, Expr.compileAllHere_eq_ok.mpr ⟨_, inner, rfl⟩,
          bind_eq_ok.mpr ⟨output, last, block, rfl⟩⟩⟩⟩

theorem compileClauses_elsewhere : (clauses : List Clause) -> {layout other after : Layout} ->
    {branches : List Branch} -> compileClauses registry clauses layout = .ok (branches, after) ->
    Covered layout.names other.names ->
    ∃ branches' last, compileClauses registry clauses other = .ok (branches', last)
  | [], layout, other, after, branches, compiled, covered => ⟨_, _, rfl⟩
  | .clause pattern body :: rest, layout, other, after, branches, compiled, covered => by
      rcases compileClauses_cons compiled with ⟨_, _, between, _, first, second, _⟩
      have same : between.names = layout.names := by
        rcases first with ⟨_, _, _, _, rfl⟩
        rfl
      rcases first.elsewhere (compileAll_elsewhere body) covered with ⟨result, middle, first, names⟩
      rw [← names, ← same] at covered
      rcases compileClauses_elsewhere rest second covered with ⟨branches', last, second⟩
      exact ⟨_, last, bind_eq_ok.mpr ⟨result, middle, first,
        bind_eq_ok.mpr ⟨branches', last, second, rfl⟩⟩⟩

/-- The names that a node leaves visible are again covered. -/
theorem compile_elsewhere : (node : Node) -> {layout other after : Layout} -> {output : Output} ->
    compile registry node layout = .ok (output, after) -> Covered layout.names other.names ->
    ∃ output' last, compile registry node other = .ok (output', last) ∧
      Covered after.names last.names
  | .text content, layout, other, after, output, compiled, covered => by
      cases compiled
      exact ⟨_, other, rfl, covered⟩
  | .comment _, layout, other, after, output, compiled, covered => by
      cases compiled
      exact ⟨_, other, rfl, covered⟩
  | .print action, layout, other, after, output, compiled, covered => by
      rcases compile_print compiled with ⟨known, literal, _, rfl⟩ | ⟨_, between, none, ran, _, rfl⟩
      · refine ⟨.ofText known, other, ?_, covered⟩
        simp only [compile, literal]
        rfl
      · have same := (compileAction_grows action ran).2
        rcases compileAction_elsewhere action ran covered with ⟨operation, last, ran'⟩
        have same' := (compileAction_grows action ran').2
        refine ⟨⟨[.print last.temps operation], [.temp last.temps]⟩,
          { last with temps := last.temps + 1 }, ?_, ?_⟩
        · simp only [compile, none]
          exact bind_eq_ok.mpr ⟨operation, last, ran', rfl⟩
        · rw [same, same']
          exact covered
  | .silent action, layout, other, after, output, compiled, covered => by
      rcases compile_silent compiled with ⟨_, ran, _⟩
      have same := (compileAction_grows action ran).2
      rcases compileAction_elsewhere action ran covered with ⟨operation, last, ran'⟩
      have same' := (compileAction_grows action ran').2
      refine ⟨_, last, bind_eq_ok.mpr ⟨operation, last, ran', rfl⟩, ?_⟩
      rw [same, same']
      exact covered
  | .bind pattern expr, layout, other, after, output, compiled, covered => by
      rcases compile_bind compiled with ⟨_, _, bindings, inner, declared, _, rfl⟩
      rcases expr.compile_elsewhere inner covered with ⟨code, inner⟩
      rcases Layout.declare_elsewhere declared covered with ⟨matcher, last, declared, covered'⟩
      exact ⟨_, last, bind_eq_ok.mpr ⟨code, other, Expr.compileHere_eq_ok.mpr ⟨_, inner, rfl⟩,
        bind_eq_ok.mpr ⟨matcher, last, declared, rfl⟩⟩, covered'⟩

theorem compileAll_elsewhere : (nodes : List Node) -> Layout.NodesElsewhere registry nodes
  | [], layout, other, after, output, compiled, covered => ⟨_, rfl⟩
  | node :: rest, layout, other, after, output, compiled, covered => by
      rcases compileAll_cons compiled with ⟨_, between, _, first, second, _⟩
      rcases compile_elsewhere node first covered with ⟨output', middle, first, covered⟩
      rcases compileAll_elsewhere rest second covered with ⟨⟨others, last⟩, second⟩
      exact ⟨_, bind_eq_ok.mpr ⟨output', middle, first, bind_eq_ok.mpr ⟨others, last, second, rfl⟩⟩⟩

end

/-- The nodes of two templates in a row compile if the two do. -/
theorem Joined.compiles {first second whole : List Node} (joined : Joined first second whole)
    {layout between after : Layout} {output output' : Output}
    (compiled : compileAll registry first layout = .ok (output, between))
    (compiled' : compileAll registry second {} = .ok (output', after)) :
    ∃ result, compileAll registry whole layout = .ok result := by
  induction joined generalizing layout output with
  | apart second => exact compileAll_elsewhere second compiled' (List.nil_subset _)
  | merged left right second =>
      rcases compileAll_cons compiled' with ⟨_, middle, _, text, others, _⟩
      cases text
      have covered : Covered ({} : Layout).names layout.names := List.nil_subset _
      rcases compileAll_elsewhere second others covered with ⟨⟨rest, last⟩, others⟩
      exact ⟨_, bind_eq_ok.mpr ⟨_, layout, rfl, bind_eq_ok.mpr ⟨rest, last, others, rfl⟩⟩⟩
  | step node joined inductionHypothesis =>
      rcases compileAll_cons compiled with ⟨_, middle, _, head, rest, _⟩
      rcases inductionHypothesis rest compiled' with ⟨⟨others, last⟩, rest⟩
      exact ⟨_, bind_eq_ok.mpr ⟨_, middle, head, bind_eq_ok.mpr ⟨others, last, rest, rfl⟩⟩⟩

end Node
end HtmlTemplate
