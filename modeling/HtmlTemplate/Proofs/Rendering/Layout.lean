import HtmlTemplate.Proofs.Rendering.Evaluation
import HtmlTemplate.Proofs.Rendering.Packing

namespace HtmlTemplate

/-!
# What compiling does to the layout

Each construct of a template is compiled in one way, which the first part of
this module spells out as an inversion of the compiler: what its parts were
compiled to, and between which layouts.  The second part derives from it that
temporaries and locals are only ever handed out, that the names which are
visible stand for locals handed out before, and that the temporaries of a
block's own slots are new and all different.
-/

namespace Compilation

variable {α β : Type}

theorem bind_eq_ok {first : Compilation α} {next : α -> Compilation β} {layout : Layout}
    {result : β × Layout} :
    (first >>= next) layout = .ok result ↔
      ∃ value between, first layout = .ok (value, between) ∧ next value between = .ok result := by
  constructor
  · intro done
    rcases Except.bind_eq_ok.mp done with ⟨⟨value, between⟩, ran, done⟩
    exact ⟨value, between, ran, done⟩
  · rintro ⟨value, between, ran, done⟩
    exact Except.bind_eq_ok.mpr ⟨(value, between), ran, done⟩

theorem inScope_eq_ok {step : Compilation α} {layout : Layout} {result : α × Layout} :
    inScope step layout = .ok result ↔
      ∃ value inner, step layout = .ok (value, inner) ∧
        result = (value, { inner with names := layout.names }) := by
  constructor
  · intro done
    rcases bind_eq_ok.mp done with ⟨_, _, looked, done⟩
    cases looked
    rcases bind_eq_ok.mp done with ⟨value, inner, ran, done⟩
    cases done
    exact ⟨value, inner, ran, rfl⟩
  · rintro ⟨value, inner, ran, rfl⟩
    exact bind_eq_ok.mpr ⟨layout, layout, rfl, bind_eq_ok.mpr ⟨value, inner, ran, rfl⟩⟩

theorem lift_eq_ok {step : Except CompileFault α} {layout : Layout} {result : α × Layout} :
    (liftM step : Compilation α) layout = .ok result ↔
      ∃ value, step = .ok value ∧ result = (value, layout) := by
  cases step with
  | error fault =>
      constructor
      · intro impossible
        cases impossible
      · rintro ⟨_, impossible, _⟩
        cases impossible
  | ok value =>
      constructor
      · intro done
        cases done
        exact ⟨value, rfl, rfl⟩
      · rintro ⟨_, same, rfl⟩
        cases same
        rfl

end Compilation

open Compilation

namespace Expr

variable {registry : Registry}

theorem compileHere_eq_ok {expr : Expr} {layout : Layout} {result : Code × Layout} :
    expr.compileHere registry layout = .ok result ↔
      ∃ code, expr.compile registry layout.names = .ok code ∧ result = (code, layout) := by
  constructor
  · intro done
    rcases bind_eq_ok.mp done with ⟨_, _, looked, done⟩
    cases looked
    exact lift_eq_ok.mp done
  · intro compiled
    exact bind_eq_ok.mpr ⟨layout, layout, rfl, lift_eq_ok.mpr compiled⟩

theorem compileAllHere_eq_ok {exprs : List Expr} {layout : Layout} {result : List Code × Layout} :
    compileAllHere registry exprs layout = .ok result ↔
      ∃ codes, compileAll registry layout.names exprs = .ok codes ∧ result = (codes, layout) := by
  constructor
  · intro done
    rcases bind_eq_ok.mp done with ⟨_, _, looked, done⟩
    cases looked
    exact lift_eq_ok.mp done
  · intro compiled
    exact bind_eq_ok.mpr ⟨layout, layout, rfl, lift_eq_ok.mpr compiled⟩

end Expr

/-- The layout after a pattern was compiled and its names made visible. -/
def Layout.declare (layout : Layout) (bindings : Bindings) : Layout :=
  { layout with locals := bindings.next, names := bindings.bound ++ layout.names }

theorem Pattern.declare_eq_ok {pattern : Pattern} {layout : Layout} {result : Matcher × Layout} :
    pattern.declare layout = .ok result ↔
      ∃ matcher bindings, pattern.compile ⟨layout.locals, []⟩ = .ok (matcher, bindings) ∧
        result = (matcher, layout.declare bindings) := by
  constructor
  · intro done
    rcases bind_eq_ok.mp done with ⟨_, _, looked, done⟩
    cases looked
    rcases bind_eq_ok.mp done with ⟨⟨matcher, bindings⟩, _, ran, done⟩
    rcases lift_eq_ok.mp ran with ⟨_, compiled, same⟩
    cases same
    cases done
    exact ⟨matcher, bindings, compiled, rfl⟩
  · rintro ⟨matcher, bindings, compiled, rfl⟩
    exact bind_eq_ok.mpr ⟨layout, layout, rfl, bind_eq_ok.mpr
      ⟨(matcher, bindings), layout, lift_eq_ok.mpr ⟨_, compiled, rfl⟩, rfl⟩⟩

namespace Layout

/-- A block that is compiled in this layout, and the layout after it.  The
names of the block are not visible there. -/
def CompilesBlock (layout : Layout) (registry : Registry) (nodes : List Node) (output : Output)
    (after : Layout) : Prop :=
  ∃ inner, Node.compileAll registry nodes layout = .ok (output, inner) ∧
    after = { inner with names := layout.names }

/-- A pattern and a block that sees its names, compiled in this layout, and the
layout after it. -/
def CompilesBody (layout : Layout) (registry : Registry) (pattern : Pattern) (nodes : List Node)
    (matcher : Matcher) (output : Output) (after : Layout) : Prop :=
  ∃ bindings inner, pattern.compile ⟨layout.locals, []⟩ = .ok (matcher, bindings) ∧
    Node.compileAll registry nodes (layout.declare bindings) = .ok (output, inner) ∧
    after = { inner with names := layout.names }

theorem compilesBlock_of_inScope {layout after : Layout} {registry : Registry}
    {nodes : List Node} {output : Output}
    (compiled : inScope (Node.compileAll registry nodes) layout = .ok (output, after)) :
    layout.CompilesBlock registry nodes output after := by
  rcases inScope_eq_ok.mp compiled with ⟨_, inner, ran, same⟩
  cases same
  exact ⟨inner, ran, rfl⟩

theorem compilesBody_of_inScope {layout after : Layout} {registry : Registry}
    {pattern : Pattern} {nodes : List Node} {matcher : Matcher} {output : Output}
    (compiled : inScope (do
      let matcher ← pattern.declare
      let body ← Node.compileAll registry nodes
      return (matcher, body)) layout = .ok ((matcher, output), after)) :
    layout.CompilesBody registry pattern nodes matcher output after := by
  rcases inScope_eq_ok.mp compiled with ⟨_, inner, ran, same⟩
  cases same
  rcases bind_eq_ok.mp ran with ⟨_, _, declared, ran⟩
  rcases Pattern.declare_eq_ok.mp declared with ⟨_, bindings, first, same⟩
  cases same
  rcases bind_eq_ok.mp ran with ⟨_, _, second, done⟩
  cases done
  exact ⟨bindings, inner, first, second, rfl⟩

end Layout

namespace Node

variable {registry : Registry} {layout after : Layout}

theorem compileAction_value {expr : Expr} {operation : Operation}
    (compiled : compileAction registry (.value expr) layout = .ok (operation, after)) :
    ∃ code, expr.compile registry layout.names = .ok code ∧ operation = .value code ∧
      after = layout := by
  rcases bind_eq_ok.mp compiled with ⟨code, _, ran, done⟩
  rcases Expr.compileHere_eq_ok.mp ran with ⟨_, inner, same⟩
  cases same
  cases done
  exact ⟨code, inner, rfl, rfl⟩

theorem compileAction_cond {negated : Bool} {test : Expr} {holds fails : List Node}
    {operation : Operation}
    (compiled : compileAction registry (.cond negated test holds fails) layout =
      .ok (operation, after)) :
    ∃ code first between second, test.compile registry layout.names = .ok code ∧
      layout.CompilesBlock registry holds first between ∧
      between.CompilesBlock registry fails second after ∧
      operation = .cond negated code first.toBlock second.toBlock := by
  rcases bind_eq_ok.mp compiled with ⟨code, _, ran, compiled⟩
  rcases Expr.compileHere_eq_ok.mp ran with ⟨_, inner, same⟩
  cases same
  rcases bind_eq_ok.mp compiled with ⟨first, between, left, compiled⟩
  rcases bind_eq_ok.mp compiled with ⟨second, _, right, done⟩
  cases done
  exact ⟨code, first, between, second, inner, Layout.compilesBlock_of_inScope left,
    Layout.compilesBlock_of_inScope right, rfl⟩

theorem compileAction_loop {pattern : Pattern} {source : Expr} {body : List Node}
    {operation : Operation}
    (compiled : compileAction registry (.loop pattern source body) layout =
      .ok (operation, after)) :
    ∃ code matcher output, source.compile registry layout.names = .ok code ∧
      layout.CompilesBody registry pattern body matcher output after ∧
      operation = .loop matcher code output.toBlock := by
  rcases bind_eq_ok.mp compiled with ⟨code, _, ran, compiled⟩
  rcases Expr.compileHere_eq_ok.mp ran with ⟨_, inner, same⟩
  cases same
  rcases bind_eq_ok.mp compiled with ⟨⟨matcher, output⟩, _, block, done⟩
  cases done
  exact ⟨code, matcher, output, inner, Layout.compilesBody_of_inScope block, rfl⟩

theorem compileAction_choice {subject : Expr} {clauses : List Clause} {operation : Operation}
    (compiled : compileAction registry (.choice subject clauses) layout =
      .ok (operation, after)) :
    ∃ code branches, subject.compile registry layout.names = .ok code ∧
      compileClauses registry clauses layout = .ok (branches, after) ∧
      operation = .choice code branches := by
  rcases bind_eq_ok.mp compiled with ⟨code, _, ran, compiled⟩
  rcases Expr.compileHere_eq_ok.mp ran with ⟨_, inner, same⟩
  cases same
  rcases bind_eq_ok.mp compiled with ⟨branches, _, rest, done⟩
  cases done
  exact ⟨code, branches, inner, rest, rfl⟩

theorem compileAction_callBlock {name : String} {args : List Expr} {body : List Node}
    {operation : Operation}
    (compiled : compileAction registry (.callBlock name args body) layout =
      .ok (operation, after)) :
    ∃ target codes output, Expr.function registry name = .ok target ∧
      Expr.compileAll registry layout.names args = .ok codes ∧
      layout.CompilesBlock registry body output after ∧
      operation = .callBlock target codes output.toBlock := by
  rcases bind_eq_ok.mp compiled with ⟨target, _, ran, compiled⟩
  rcases lift_eq_ok.mp ran with ⟨_, found, same⟩
  cases same
  rcases bind_eq_ok.mp compiled with ⟨codes, _, ran, compiled⟩
  rcases Expr.compileAllHere_eq_ok.mp ran with ⟨_, inner, same⟩
  cases same
  rcases bind_eq_ok.mp compiled with ⟨output, _, block, done⟩
  cases done
  exact ⟨target, codes, output, found, inner, Layout.compilesBlock_of_inScope block, rfl⟩

theorem compileClauses_cons {pattern : Pattern} {body : List Node} {rest : List Clause}
    {branches : List Branch}
    (compiled : compileClauses registry (.clause pattern body :: rest) layout =
      .ok (branches, after)) :
    ∃ matcher output between others,
      layout.CompilesBody registry pattern body matcher output between ∧
      compileClauses registry rest between = .ok (others, after) ∧
      branches = .branch matcher output.toBlock :: others := by
  rcases bind_eq_ok.mp compiled with ⟨⟨matcher, output⟩, between, block, compiled⟩
  rcases bind_eq_ok.mp compiled with ⟨others, _, second, done⟩
  cases done
  exact ⟨matcher, output, between, others, Layout.compilesBody_of_inScope block, second, rfl⟩

/-- A printed tag becomes text, or a statement that fills the next temporary. -/
theorem compile_print {action : Action} {output : Output}
    (compiled : compile registry (.print action) layout = .ok (output, after)) :
    (∃ known, action.literalText? = some known ∧ output = .ofText known ∧ after = layout) ∨
    (∃ operation between, action.literalText? = none ∧
      compileAction registry action layout = .ok (operation, between) ∧
      output = ⟨[.print between.temps operation], [.temp between.temps]⟩ ∧
      after = { between with temps := between.temps + 1 }) := by
  simp only [compile] at compiled
  cases literal : action.literalText? with
  | some known =>
      rw [literal] at compiled
      cases compiled
      exact .inl ⟨known, rfl, rfl, rfl⟩
  | none =>
      rw [literal] at compiled
      rcases bind_eq_ok.mp compiled with ⟨operation, between, ran, compiled⟩
      cases compiled
      exact .inr ⟨operation, between, rfl, ran, rfl, rfl⟩

theorem compile_silent {action : Action} {output : Output}
    (compiled : compile registry (.silent action) layout = .ok (output, after)) :
    ∃ operation, compileAction registry action layout = .ok (operation, after) ∧
      output = ⟨[.eval operation], []⟩ := by
  rcases bind_eq_ok.mp compiled with ⟨operation, between, ran, done⟩
  cases done
  exact ⟨operation, ran, rfl⟩

theorem compile_bind {pattern : Pattern} {expr : Expr} {output : Output}
    (compiled : compile registry (.bind pattern expr) layout = .ok (output, after)) :
    ∃ code matcher bindings, expr.compile registry layout.names = .ok code ∧
      pattern.compile ⟨layout.locals, []⟩ = .ok (matcher, bindings) ∧
      output = ⟨[.bind matcher code], []⟩ ∧ after = layout.declare bindings := by
  rcases bind_eq_ok.mp compiled with ⟨code, _, ran, compiled⟩
  rcases Expr.compileHere_eq_ok.mp ran with ⟨_, inner, same⟩
  cases same
  rcases bind_eq_ok.mp compiled with ⟨matcher, _, ran, done⟩
  rcases Pattern.declare_eq_ok.mp ran with ⟨_, bindings, first, same⟩
  cases same
  cases done
  exact ⟨code, matcher, bindings, inner, first, rfl, rfl⟩

theorem compileAll_cons {node : Node} {rest : List Node} {output : Output}
    (compiled : compileAll registry (node :: rest) layout = .ok (output, after)) :
    ∃ first between second, compile registry node layout = .ok (first, between) ∧
      compileAll registry rest between = .ok (second, after) ∧ output = first.append second := by
  rcases bind_eq_ok.mp compiled with ⟨first, between, left, compiled⟩
  rcases bind_eq_ok.mp compiled with ⟨second, _, right, done⟩
  cases done
  exact ⟨first, between, second, left, right, rfl⟩

end Node

/-! ## Nothing is handed out twice -/

namespace Layout

/-- Temporaries and locals are only handed out, and the names that are visible
stand for locals handed out before. -/
structure Grows (before after : Layout) : Prop where
  temps_le : before.temps ≤ after.temps
  locals_le : before.locals ≤ after.locals
  visible : NamesBelow before.locals before.names -> NamesBelow after.locals after.names

theorem Grows.refl (layout : Layout) : Grows layout layout :=
  ⟨Nat.le_refl _, Nat.le_refl _, id⟩

theorem Grows.trans {first second third : Layout} (left : Grows first second)
    (right : Grows second third) : Grows first third where
  temps_le := Nat.le_trans left.temps_le right.temps_le
  locals_le := Nat.le_trans left.locals_le right.locals_le
  visible := right.visible ∘ left.visible

/-- The end of a block takes the names of the block away. -/
theorem Grows.close {before inner : Layout} (grows : Grows before inner) :
    Grows before { inner with names := before.names } where
  temps_le := grows.temps_le
  locals_le := grows.locals_le
  visible below := below.mono grows.locals_le

theorem Grows.declare {layout : Layout} {pattern : Pattern} {matcher : Matcher}
    {bindings : Bindings}
    (compiled : pattern.compile ⟨layout.locals, []⟩ = .ok (matcher, bindings)) :
    Grows layout (layout.declare bindings) := by
  have extends' := Pattern.compile_extends pattern compiled
  refine ⟨Nat.le_refl _, extends'.next_le, fun below => ?_⟩
  have own : NamesBelow bindings.next bindings.bound :=
    extends'.below fun _ impossible => nomatch impossible
  exact own.append (below.mono extends'.next_le)

theorem Grows.newTemp (layout : Layout) : Grows layout { layout with temps := layout.temps + 1 } :=
  ⟨Nat.le_succ _, Nat.le_refl _, id⟩

end Layout

/-- The temporaries of a contribution's slots are handed out between two
layouts, each for one slot. -/
structure Output.Fresh (before after : Layout) (output : Output) : Prop where
  between : ∀ temp ∈ output.slots.filterMap Slot.temp?, before.temps ≤ temp ∧ temp < after.temps
  nodup : (output.slots.filterMap Slot.temp?).Nodup

namespace Output.Fresh

variable {before between after : Layout}

theorem of_filterMap_eq_nil {output : Output}
    (none : output.slots.filterMap Slot.temp? = []) : Fresh before after output := by
  constructor
  · rw [none]
    intro temp impossible
    cases impossible
  · rw [none]
    exact .nil

theorem ofText (text : String) : Fresh before after (.ofText text) := by
  apply of_filterMap_eq_nil
  unfold Output.ofText
  split
  · rfl
  · rfl

theorem append {first second : Output} (left : Fresh before between first)
    (right : Fresh between after second) (grows : Layout.Grows before between)
    (grows' : Layout.Grows between after) : Fresh before after (first.append second) := by
  constructor
  · intro temp member
    rw [Output.append, List.filterMap_append] at member
    rcases List.mem_append.mp member with inFirst | inSecond
    · have range := left.between temp inFirst
      exact ⟨range.1, Nat.lt_of_lt_of_le range.2 grows'.temps_le⟩
    · have range := right.between temp inSecond
      exact ⟨Nat.le_trans grows.temps_le range.1, range.2⟩
  · rw [Output.append, List.filterMap_append, List.nodup_append]
    refine ⟨left.nodup, right.nodup, ?_⟩
    intro temp inFirst other inSecond same
    have low := (left.between temp inFirst).2
    have high := (right.between other inSecond).1
    omega

end Output.Fresh

namespace Layout

variable {registry : Registry} {layout after : Layout}

/-- What compiling nodes in any layout is known to do. -/
def NodesGrow (registry : Registry) (nodes : List Node) : Prop :=
  ∀ {layout after : Layout} {output : Output},
    Node.compileAll registry nodes layout = .ok (output, after) ->
      Grows layout after ∧ output.Fresh layout after

theorem CompilesBlock.grows {nodes : List Node} {output : Output}
    (compiled : layout.CompilesBlock registry nodes output after)
    (inner : NodesGrow registry nodes) : Grows layout after := by
  rcases compiled with ⟨_, ran, rfl⟩
  exact (inner ran).1.close

theorem CompilesBody.grows {pattern : Pattern} {nodes : List Node} {matcher : Matcher}
    {output : Output} (compiled : layout.CompilesBody registry pattern nodes matcher output after)
    (inner : NodesGrow registry nodes) : Grows layout after := by
  rcases compiled with ⟨_, _, declared, ran, rfl⟩
  exact ((Grows.declare declared).trans (inner ran).1).close

end Layout

namespace Node

variable {registry : Registry}

open Layout

mutual

/-- A tag hands out what its blocks need, and makes no names visible. -/
theorem compileAction_grows : (action : Action) -> {layout after : Layout} ->
    {operation : Operation} -> compileAction registry action layout = .ok (operation, after) ->
    Grows layout after ∧ after.names = layout.names
  | .value expr, layout, after, operation, compiled => by
      rcases compileAction_value compiled with ⟨_, _, _, rfl⟩
      exact ⟨.refl _, rfl⟩
  | .cond negated test holds fails, layout, after, operation, compiled => by
      rcases compileAction_cond compiled with ⟨_, _, between, _, _, first, second, _⟩
      have grows := (first.grows (compileAll_grows holds)).trans
        (second.grows (compileAll_grows fails))
      rcases first with ⟨_, _, rfl⟩
      rcases second with ⟨_, _, rfl⟩
      exact ⟨grows, rfl⟩
  | .loop pattern source body, layout, after, operation, compiled => by
      rcases compileAction_loop compiled with ⟨_, _, _, _, inner, _⟩
      have grows := inner.grows (compileAll_grows body)
      rcases inner with ⟨_, _, _, _, rfl⟩
      exact ⟨grows, rfl⟩
  | .choice subject clauses, layout, after, operation, compiled => by
      rcases compileAction_choice compiled with ⟨_, _, _, inner, _⟩
      exact compileClauses_grows clauses inner
  | .callBlock name args body, layout, after, operation, compiled => by
      rcases compileAction_callBlock compiled with ⟨_, _, _, _, _, inner, _⟩
      have grows := inner.grows (compileAll_grows body)
      rcases inner with ⟨_, _, rfl⟩
      exact ⟨grows, rfl⟩

theorem compileClauses_grows : (clauses : List Clause) -> {layout after : Layout} ->
    {branches : List Branch} -> compileClauses registry clauses layout = .ok (branches, after) ->
    Grows layout after ∧ after.names = layout.names
  | [], layout, after, branches, compiled => by
      cases compiled
      exact ⟨.refl _, rfl⟩
  | .clause pattern body :: rest, layout, after, branches, compiled => by
      rcases compileClauses_cons compiled with ⟨_, _, between, _, first, second, _⟩
      have grows := first.grows (compileAll_grows body)
      have others := compileClauses_grows rest second
      rcases first with ⟨_, _, _, _, rfl⟩
      exact ⟨grows.trans others.1, others.2⟩

theorem compile_grows : (node : Node) -> {layout after : Layout} -> {output : Output} ->
    compile registry node layout = .ok (output, after) ->
    Grows layout after ∧ output.Fresh layout after
  | .text content, layout, after, output, compiled => by
      cases compiled
      exact ⟨.refl _, .ofText content⟩
  | .comment _, layout, after, output, compiled => by
      cases compiled
      exact ⟨.refl _, .of_filterMap_eq_nil rfl⟩
  | .print action, layout, after, output, compiled => by
      rcases compile_print compiled with ⟨known, _, rfl, rfl⟩ | ⟨_, between, _, ran, rfl, rfl⟩
      · exact ⟨.refl _, .ofText known⟩
      · have grows := (compileAction_grows action ran).1
        refine ⟨grows.trans (.newTemp between), ?_, ?_⟩
        · intro temp member
          cases List.mem_singleton.mp member
          exact ⟨grows.temps_le, Nat.lt_succ_self _⟩
        · simp [Slot.temp?]
  | .silent action, layout, after, output, compiled => by
      rcases compile_silent compiled with ⟨_, ran, rfl⟩
      exact ⟨(compileAction_grows action ran).1, .of_filterMap_eq_nil rfl⟩
  | .bind pattern expr, layout, after, output, compiled => by
      rcases compile_bind compiled with ⟨_, _, _, _, declared, rfl, rfl⟩
      exact ⟨.declare declared, .of_filterMap_eq_nil rfl⟩

theorem compileAll_grows : (nodes : List Node) -> {layout after : Layout} -> {output : Output} ->
    compileAll registry nodes layout = .ok (output, after) ->
    Grows layout after ∧ output.Fresh layout after
  | [], layout, after, output, compiled => by
      cases compiled
      exact ⟨.refl _, .of_filterMap_eq_nil rfl⟩
  | node :: rest, layout, after, output, compiled => by
      rcases compileAll_cons compiled with ⟨_, _, _, first, second, rfl⟩
      have head := compile_grows node first
      have tail := compileAll_grows rest second
      exact ⟨head.1.trans tail.1, head.2.append tail.2 head.1 tail.1⟩

end

end Node
end HtmlTemplate
