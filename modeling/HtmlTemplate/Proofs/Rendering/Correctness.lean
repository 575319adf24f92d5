import HtmlTemplate.Proofs.Rendering.Literal
import HtmlTemplate.Proofs.Rendering.Simulation

namespace HtmlTemplate

/-!
# Compiled programs render what a walk renders

The main statement is that rendering a compiled template and walking the
template come to the same: the same markup or the same error, and the same
calls with the same arguments.  Functions are arbitrary, so nothing may depend
on what they answer.

The induction is on the template, and its statement is `Node.Follow`: on every
machine that is ready for them, the statements of some nodes follow a walk of
the nodes, and afterwards the slots of the nodes stand for the parts of the
walk.  Blocks, rounds of a loop and clauses are derived from it.
-/

namespace Follows

variable {α β γ δ : Type} {layout last : Layout} {scope : Scope} {machine : Machine}

/-- A step that makes no call comes before everything else. -/
theorem step {run : Run α} {result : α} {after : Machine} {next : α -> Run γ} {walk : Walk δ}
    {agree : γ -> δ -> Machine -> Prop} (ran : run machine = .ok result after)
    (kept : after.journal = machine.journal) (keeps : Keeps layout machine after)
    (continued : Follows layout after (next result) walk agree) :
    Follows layout machine (run >>= next) walk agree := by
  unfold Follows at continued ⊢
  simp only [Bind.bind, EStateM.bind, ran]
  rw [← kept]
  cases ended : walk after.journal with
  | error error journal =>
      rw [ended] at continued
      exact continued
  | ok expected journal =>
      rw [ended] at continued
      rcases continued with ⟨result', last, ran', kept', keeps', holds⟩
      exact ⟨result', last, ran', kept', keeps.trans keeps', holds⟩

/-- Matching with the locals of a pattern goes the way that matching with its
names goes.  After a match the names are visible. -/
theorem matching {pattern : Pattern} {matcher : Matcher} {bindings : Bindings}
    (compiled : pattern.compile ⟨layout.locals, []⟩ = .ok (matcher, bindings))
    (ready : Ready layout last scope machine) (room : bindings.next ≤ last.locals)
    {value : Value} {next : Bool -> Run γ} {hit : Scope -> Walk δ} {missed : Walk δ}
    {agree : γ -> δ -> Machine -> Prop}
    (yes : ∀ bound after, Keeps layout machine after ->
      Ready (layout.declare bindings) last (bound ++ scope) after ->
      Follows layout after (next true) (hit bound) agree)
    (no : ∀ after, Keeps layout machine after -> Follows layout after (next false) missed agree) :
    Follows layout machine (Run.matches? matcher value >>= next)
      (match pattern.match? [] value with
      | some bound => hit bound
      | none => missed) agree := by
  have nothing : NamesBelow layout.locals ([] : List (String × Nat)) :=
    fun _ impossible => nomatch impossible
  have enough : bindings.next ≤ machine.locals.size := Nat.le_trans room ready.locals_room
  have agrees := Pattern.run_agrees pattern compiled nothing machine.locals enough value
  rcases outcome : matcher.run machine.locals value with ⟨holds, locals⟩
  rw [outcome] at agrees
  rcases agrees with ⟨written, result⟩
  have ran : Run.matches? matcher value machine = .ok holds { machine with locals := locals } := by
    have unfolded : Run.matches? matcher value machine =
        .ok (matcher.run machine.locals value).1
          { machine with locals := (matcher.run machine.locals value).2 } := rfl
    rw [unfolded, outcome]
  have keeps : Keeps layout machine { machine with locals := locals } :=
    ⟨written.size_eq, rfl, written.below, fun _ _ => rfl⟩
  refine step ran rfl keeps ?_
  change pattern.match? [] value = _ at result
  rw [result]
  cases holds with
  | false => exact no _ keeps
  | true =>
      refine yes _ _ keeps ?_
      have shown := (ready.keeps keeps).scope_eq
      refine ⟨(Layout.Grows.declare compiled).visible ready.visible, ?_, ?_, ready.temps_room⟩
      · rw [← shown]
        exact Locals.scope_append locals bindings.bound layout.names
      · change last.locals ≤ locals.size
        rw [written.size_eq]
        exact ready.locals_room

/-- A loop follows a loop if each round does, wherever the rounds before have
left the machine. -/
theorem collect {step : Value -> Run (Option Value)} {step' : Value -> Walk (Option Value)}
    (round : ∀ item machine, Ready layout last scope machine ->
      Follows layout machine (step item) (step' item) Same) :
    (items done : List Value) -> (machine : Machine) -> Ready layout last scope machine ->
    Follows layout machine (Run.collect step done items) (Walk.collect step' items)
      fun result expected _ => result = done.reverse ++ expected
  | [], done, machine, _ => .pure (List.append_nil _).symm
  | item :: rest, done, machine, ready => by
      refine (round item machine ready).bind fun result expected after keeps same => ?_
      cases same
      cases result with
      | none =>
          have others := collect round rest done after (ready.keeps keeps)
          simp only [Option.toList_none, List.nil_append]
          rw [← bind_pure (Run.collect step done rest)]
          exact others.bind fun _ _ _ _ holds => .pure holds
      | some value =>
          have others := collect round rest (value :: done) after (ready.keeps keeps)
          simp only [Option.toList_some, List.singleton_append]
          rw [← bind_pure (Run.collect step (value :: done) rest)]
          refine others.bind fun result expected _ _ holds => .pure ?_
          rw [holds, List.reverse_cons, List.append_assoc, List.singleton_append]

end Follows

/-! ## Blocks -/

namespace Slot

theorem take_eq_ok (index : Nat) (machine : Machine) :
    Run.take index machine = .ok (machine.temp index)
      { machine with temps := machine.temps.setIfInBounds index .empty } :=
  rfl

/-- Joining slots that use different temporaries takes out what each one held
before, and touches no other temporary. -/
theorem mapM_output (slots : List Slot) (machine : Machine)
    (nodup : (slots.filterMap temp?).Nodup) :
    ∃ after, slots.mapM Slot.output machine =
        .ok (slots.map fun slot => (slot.piece machine.temp).toMarkup) after ∧
      after.journal = machine.journal ∧ after.locals = machine.locals ∧
      after.temps.size = machine.temps.size ∧
      ∀ index, index ∉ slots.filterMap temp? -> after.temp index = machine.temp index := by
  induction slots generalizing machine with
  | nil => exact ⟨machine, rfl, rfl, rfl, rfl, fun _ _ => rfl⟩
  | cons slot rest inductionHypothesis =>
      rw [List.mapM_cons]
      cases slot with
      | fixed text =>
          rcases inductionHypothesis machine nodup with ⟨after, ran, kept⟩
          refine ⟨after, ?_, kept⟩
          simp only [Bind.bind, EStateM.bind, output, Pure.pure, EStateM.pure, ran, List.map_cons]
          rfl
      | temp index =>
          have split : (index :: rest.filterMap temp?).Nodup := nodup
          rcases List.nodup_cons.mp split with ⟨absent, others⟩
          have emptied : ∀ other ∈ rest.filterMap temp?,
              Machine.temp { machine with temps := machine.temps.setIfInBounds index .empty } other =
                machine.temp other := by
            intro other member
            apply Machine.temp_setIfInBounds_of_ne
            rintro rfl
            exact absent member
          rcases inductionHypothesis
            { machine with temps := machine.temps.setIfInBounds index .empty } others with
            ⟨after, ran, journal, locals, size, kept⟩
          refine ⟨after, ?_, journal, locals, ?_, ?_⟩
          · have same := congrArg (List.map Piece.toMarkup) (map_piece_congr emptied)
            simp only [List.map_map] at same
            simp only [Bind.bind, EStateM.bind, output, take_eq_ok, ran, List.map_cons]
            exact congrArg (fun parts => EStateM.Result.ok (machine.temp index :: parts) after) same
          · rw [size, Array.size_setIfInBounds]
          · intro other absent'
            have unequal : index ≠ other ∧ other ∉ rest.filterMap temp? := by
              constructor
              · rintro rfl
                exact absent' (List.mem_cons_self ..)
              · intro member
                exact absent' (List.mem_cons_of_mem _ member)
            rw [kept other unequal.2]
            exact Machine.temp_setIfInBounds_of_ne unequal.1 machine .empty

end Slot
namespace Block

variable (context : Context)

theorem runAll_append (first second : List Statement) :
    runAll context (first ++ second) =
      runAll context first >>= fun _ => runAll context second := by
  induction first with
  | nil => exact (pure_bind ..).symm
  | cons statement rest inductionHypothesis =>
      simp only [List.cons_append, runAll, inductionHypothesis, bind_assoc]

theorem runAll_singleton (statement : Statement) :
    runAll context [statement] = runStatement context statement := by
  simp only [runAll]
  exact bind_pure (runStatement context statement)

end Block

namespace Node

variable (registry : Registry) (context : Context)

/-- The statements of some nodes follow a walk of the nodes, on any machine that
is ready for them. -/
def Follow (nodes : List Node) : Prop :=
  ∀ {layout after : Layout} {output : Output} {scope : Scope} {machine : Machine},
    compileAll registry nodes layout = .ok (output, after) -> Ready layout after scope machine ->
    Follows layout machine (Block.runAll context output.statements)
      (walkAll .compiled registry context scope nodes)
      fun _ parts last => output.slots.map (Slot.piece last.temp) = parts.flatMap Part.pieces

variable {registry context} {layout after : Layout} {scope : Scope} {machine : Machine}

/-- A whole block yields the markup of the parts. -/
theorem Follow.block {nodes : List Node} {output : Output} (follow : Follow registry context nodes)
    (compiled : compileAll registry nodes layout = .ok (output, after))
    (ready : Ready layout after scope machine) :
    Follows layout machine (Block.run context output.toBlock)
      (walkAll .compiled registry context scope nodes)
      fun content parts _ => content = Packing.joinKnown parts := by
  have fresh := (compileAll_grows nodes compiled).2
  rw [← bind_pure (walkAll .compiled registry context scope nodes)]
  refine (follow compiled ready).bind fun _ parts last keeps pieces => ?_
  have nodup : ((Slot.fuse output.slots).filterMap Slot.temp?).Nodup := by
    rw [Slot.filterMap_temp?_fuse]
    exact fresh.nodup
  rcases Slot.mapM_output (Slot.fuse output.slots) last nodup with
    ⟨emptied, ran, journal, locals, size, kept⟩
  have untouched : Keeps layout last emptied := by
    refine ⟨by rw [locals], size, fun _ _ => by rw [locals], fun index handed => kept index ?_⟩
    rw [Slot.filterMap_temp?_fuse]
    intro member
    have low := (fresh.between index member).1
    omega
  refine Follows.step ran journal untouched (.pure ?_)
  have joined : (Slot.fuse output.slots).map (fun slot => (slot.piece last.temp).toMarkup) =
      (Piece.fuse (parts.flatMap Part.pieces)).map Piece.toMarkup := by
    rw [← pieces, ← Slot.map_piece_fuse, List.map_map]
    rfl
  rw [joined]
  rfl

/-- A block inside of a tag yields the markup of its parts as a value. -/
theorem Follow.content {nodes : List Node} {output : Output}
    (follow : Follow registry context nodes)
    (compiled : layout.CompilesBlock registry nodes output after)
    (ready : Ready layout after scope machine) :
    Follows layout machine
      (do
        let content ← Block.run context output.toBlock
        return Value.markup content)
      (do
        let parts ← walkAll .compiled registry context scope nodes
        return Value.markup (Packing.compiled.pack parts)) Same := by
  rcases compiled with ⟨inner, ran, rfl⟩
  refine (follow.block ran ready.inside).bind fun content parts _ _ same => .pure ?_
  rw [same]
  rfl

/-- A pattern and a block that sees its names: a round of a loop, or a
clause. -/
theorem Follow.body {α : Type} {pattern : Pattern} {nodes : List Node} {matcher : Matcher}
    {output : Output} (follow : Follow registry context nodes)
    (compiled : layout.CompilesBody registry pattern nodes matcher output after)
    (ready : Ready layout after scope machine) (wrap : Value -> α) (value : Value)
    {otherwise : Run α} {otherwise' : Walk α}
    (missed : ∀ next, Keeps layout machine next ->
      Follows layout next otherwise otherwise' Same) :
    Follows layout machine
      (do
        let holds ← Run.matches? matcher value
        if holds then
          let content ← Block.run context output.toBlock
          return wrap (.markup content)
        else otherwise)
      (match pattern.match? [] value with
      | some bound => do
          let parts ← walkAll .compiled registry context (bound ++ scope) nodes
          return wrap (.markup (Packing.compiled.pack parts))
      | none => otherwise') Same := by
  rcases compiled with ⟨bindings, inner, declared, ran, rfl⟩
  have grows := (compileAll_grows nodes ran).1
  refine Follows.matching declared ready.inside grows.locals_le (fun bound next _ inside => ?_) ?_
  · refine Follows.earlier ?_ (.declare declared)
    refine (follow.block ran inside).bind fun content parts _ _ same => .pure ?_
    rw [same]
    rfl
  · exact fun next keeps => missed next keeps

end Node
/-! ## Templates -/

theorem Follows.eval {registry : Registry} {context : Context} {layout after : Layout}
    {scope : Scope} {machine : Machine} {expr : Expr} {code : Code}
    (compiled : expr.compile registry layout.names = .ok code)
    (ready : Ready layout after scope machine) :
    Follows layout machine (code.eval context) (expr.eval registry context scope) Same := by
  have same := Expr.eval_compile context expr compiled machine
  rw [ready.scope_eq] at same
  exact .of_onMachine same

theorem Follows.evalAll {registry : Registry} {context : Context} {layout after : Layout}
    {scope : Scope} {machine : Machine} {exprs : List Expr} {codes : List Code}
    (compiled : Expr.compileAll registry layout.names exprs = .ok codes)
    (ready : Ready layout after scope machine) :
    Follows layout machine (Code.evalAll context codes)
      (Expr.evalAll registry context scope exprs) Same := by
  have same := Expr.evalAll_compile context exprs compiled machine
  rw [ready.scope_eq] at same
  exact .of_onMachine same

/-- A literal prints its known text, and nothing is left to do for it at run
time. -/
theorem Part.pieces_of_literalText? {expr : Expr} {known : String} {content : Markup}
    (literal : expr.literalText? = some known) (same : known.toUTF8 = content.bytes) :
    (Part.mk (.print (.value expr)) content).pieces = Piece.ofText known := by
  have text : (Part.mk (.print (.value expr)) content).knownText? = some known := literal
  simp only [pieces, text, if_pos (congrArg ByteArray.data same)]

theorem Part.pieces_of_literalText?_eq_none {action : Action} (content : Markup)
    (unknown : action.literalText? = none) :
    (Part.mk (.print action) content).pieces = [.printed content] := by
  have text : (Part.mk (.print action) content).knownText? = none := unknown
  simp only [pieces, text]

theorem Output.map_piece_ofText (temps : Nat -> Markup) (text : String) :
    (ofText text).slots.map (Slot.piece temps) = Piece.ofText text := by
  unfold ofText Piece.ofText
  split <;> rfl

namespace Node

variable {registry : Registry} {context : Context}

/-- A literal is evaluated by the walk alone. -/
theorem follows_literal {action : Action} {layout after : Layout} {scope : Scope}
    {machine : Machine} {known : String} (literal : action.literalText? = some known)
    (ready : Ready layout after scope machine) :
    Follows layout machine (Block.runAll context (Output.ofText known).statements)
      (walk .compiled registry context scope (.print action))
      fun _ result last =>
        (Output.ofText known).slots.map (Slot.piece last.temp) = result.1.flatMap Part.pieces ∧
          last.locals.scope layout.names = result.2 := by
  cases action with
  | value expr =>
      rcases Expr.literalText?_spec literal with ⟨value, content, found, printed, same⟩
      have walked : walk .compiled registry context scope (.print (.value expr)) =
          pure ([⟨.print (.value expr), content⟩], scope) := by
        simp only [walk, walkAction, Expr.eval_of_literal? registry context scope expr found,
          pure_bind, printed]
        rfl
      rw [walked]
      refine .pure ⟨?_, ready.scope_eq⟩
      rw [Output.map_piece_ofText, List.flatMap_singleton,
        Part.pieces_of_literalText? literal same]
  | _ => cases literal

mutual

/-- What a tag evaluates is what a walk of the tag evaluates. -/
theorem follows_action : (action : Action) -> {layout after : Layout} ->
    {operation : Operation} -> {scope : Scope} -> {machine : Machine} ->
    compileAction registry action layout = .ok (operation, after) ->
    Ready layout after scope machine ->
    Follows layout machine (Block.runOperation context operation)
      (walkAction .compiled registry context scope action) Same
  | .value expr, layout, after, operation, scope, machine, compiled, ready => by
      rcases compileAction_value compiled with ⟨code, inner, rfl, rfl⟩
      simp only [Block.runOperation, walkAction]
      exact .eval inner ready
  | .cond negated test holds fails, layout, after, operation, scope, machine, compiled, ready => by
      rcases compileAction_cond compiled with ⟨code, first, between, second, inner, left, right, rfl⟩
      have growsLeft := left.grows (compileAll_grows holds)
      have growsRight := right.grows (compileAll_grows fails)
      have names : between.names = layout.names := by
        rcases left with ⟨_, _, rfl⟩
        rfl
      simp only [Block.runOperation, walkAction]
      refine (Follows.eval inner ready).bind fun value _ next keeps same => ?_
      cases same
      have inside := ready.keeps keeps
      split
      · exact Follow.content (follows holds) left (inside.first growsRight)
      · exact (Follow.content (follows fails) right (inside.later growsLeft names)).earlier growsLeft
  | .loop pattern source body, layout, after, operation, scope, machine, compiled, ready => by
      rcases compileAction_loop compiled with ⟨code, matcher, output, inner, block, rfl⟩
      simp only [Block.runOperation, walkAction]
      refine (Follows.eval inner ready).bind fun value _ next keeps same => ?_
      cases same
      refine (Follows.ofExcept value.enumerate).bind fun items _ next' keeps' same => ?_
      cases same
      refine (Follows.collect ?_ items [] next' ((ready.keeps keeps).keeps keeps')).bind
        fun results expected _ _ same => .pure ?_
      · intro item machine inside
        exact Follow.body (follows body) block inside some item fun _ _ => .pure rfl
      · rw [same]
        rfl
  | .choice subject clauses, layout, after, operation, scope, machine, compiled, ready => by
      rcases compileAction_choice compiled with ⟨code, branches, inner, rest, rfl⟩
      simp only [Block.runOperation, walkAction]
      refine (Follows.eval inner ready).bind fun value _ next keeps same => ?_
      cases same
      exact follows_clauses clauses rest (ready.keeps keeps) value
  | .callBlock name args body, layout, after, operation, scope, machine, compiled, ready => by
      rcases compileAction_callBlock compiled with ⟨target, codes, output, found, inner, block, rfl⟩
      simp only [Block.runOperation, walkAction, found]
      refine (Follows.evalAll inner ready).bind fun values _ next keeps same => ?_
      cases same
      rcases block with ⟨within, ran, rfl⟩
      refine (Follow.block (follows body) ran (ready.keeps keeps).inside).bind fun content parts last _ same => ?_
      rw [same]
      exact .invoke context target _

/-- Clauses are tried in order, by the run as by the walk. -/
theorem follows_clauses : (clauses : List Clause) -> {layout after : Layout} ->
    {branches : List Branch} -> {scope : Scope} -> {machine : Machine} ->
    compileClauses registry clauses layout = .ok (branches, after) ->
    Ready layout after scope machine -> (subject : Value) ->
    Follows layout machine (Block.runBranches context subject branches)
      (walkClauses .compiled registry context scope subject clauses) Same
  | [], layout, after, branches, scope, machine, compiled, ready, subject => by
      cases compiled
      exact .throw _
  | .clause pattern body :: rest, layout, after, branches, scope, machine, compiled, ready,
    subject => by
      rcases compileClauses_cons compiled with ⟨matcher, output, between, others, block, next, rfl⟩
      have grows := block.grows (compileAll_grows body)
      have growsRest := (compileClauses_grows rest next).1
      have names : between.names = layout.names := by
        rcases block with ⟨_, _, _, _, rfl⟩
        rfl
      simp only [Block.runBranches, walkClauses]
      refine Follow.body (follows body) block (ready.first growsRest) id subject fun last keeps => ?_
      have inside := (ready.keeps keeps).later grows names
      exact (follows_clauses rest next inside subject).earlier grows

/-- One node: its slots stand for its parts, and the names that are visible
after it stand for the scope after it. -/
theorem follows_node : (node : Node) -> {layout after : Layout} -> {output : Output} ->
    {scope : Scope} -> {machine : Machine} ->
    compile registry node layout = .ok (output, after) -> Ready layout after scope machine ->
    Follows layout machine (Block.runAll context output.statements)
      (walk .compiled registry context scope node)
      fun _ result last =>
        output.slots.map (Slot.piece last.temp) = result.1.flatMap Part.pieces ∧
          last.locals.scope after.names = result.2
  | .text content, layout, after, output, scope, machine, compiled, ready => by
      cases compiled
      have empty : Block.runAll context (Output.ofText content).statements = pure () := rfl
      simp only [walk, empty]
      refine .pure ⟨?_, ready.scope_eq⟩
      rw [Output.map_piece_ofText]
      simp [Part.pieces, Part.knownText?]
  | .comment _, layout, after, output, scope, machine, compiled, ready => by
      cases compiled
      exact .pure ⟨rfl, ready.scope_eq⟩
  | .print action, layout, after, output, scope, machine, compiled, ready => by
      rcases compile_print compiled with
        ⟨known, literal, rfl, rfl⟩ | ⟨operation, between, unknown, inner, rfl, rfl⟩
      · exact follows_literal literal ready
      · have grows := (compileAction_grows action inner).1
        have names := (compileAction_grows action inner).2
        have inside := ready.first (.newTemp between)
        simp only [Block.runAll_singleton, Block.runStatement, walk]
        refine (follows_action action inner inside).bind fun value _ next keeps same => ?_
        cases same
        rw [Value.print_eq_toMarkup]
        refine (Follows.ofExcept value.toMarkup).bind fun content _ last keeps' same => ?_
        cases same
        have room := ((ready.keeps keeps).keeps keeps').temps_room
        have filled : Keeps layout last
            { last with temps := last.temps.setIfInBounds between.temps content } := by
          refine ⟨rfl, Array.size_setIfInBounds, fun _ _ => rfl, fun index handed => ?_⟩
          have low := grows.temps_le
          apply Machine.temp_setIfInBounds_of_ne
          omega
        rw [← bind_pure (Run.fill between.temps content)]
        refine Follows.step rfl rfl filled (.pure ⟨?_, ?_⟩)
        · rw [List.flatMap_singleton, Part.pieces_of_literalText?_eq_none content unknown]
          exact congrArg (fun shown => [Piece.printed shown])
            (Machine.temp_setIfInBounds_self room content)
        · rw [names]
          exact ((ready.keeps keeps).keeps keeps').scope_eq
  | .silent action, layout, after, output, scope, machine, compiled, ready => by
      rcases compile_silent compiled with ⟨operation, inner, rfl⟩
      simp only [Block.runAll_singleton, Block.runStatement, walk]
      refine (follows_action action inner ready).bind fun _ _ next keeps _ => .pure ⟨rfl, ?_⟩
      rw [(compileAction_grows action inner).2]
      exact (ready.keeps keeps).scope_eq
  | .bind pattern expr, layout, after, output, scope, machine, compiled, ready => by
      rcases compile_bind compiled with ⟨code, matcher, bindings, inner, declared, rfl, rfl⟩
      simp only [Block.runAll_singleton, Block.runStatement, walk]
      refine (Follows.eval inner ready).bind fun value _ next keeps same => ?_
      cases same
      refine Follows.matching declared (ready.keeps keeps) (Nat.le_refl _) ?_ fun _ _ => .throw _
      exact fun bound last _ inside => .pure ⟨rfl, inside.scope_eq⟩

/-- Nodes in a row: the later ones leave alone what the slots of the earlier
ones take from. -/
theorem follows : (nodes : List Node) -> Follow registry context nodes
  | [], layout, after, output, scope, machine, compiled, ready => by
      cases compiled
      exact .pure rfl
  | node :: rest, layout, after, output, scope, machine, compiled, ready => by
      rcases compileAll_cons compiled with ⟨first, between, second, left, right, rfl⟩
      have head := compile_grows node left
      have grows := (compileAll_grows rest right).1
      simp only [Output.append, Block.runAll_append, walkAll]
      refine (follows_node node left (ready.first grows)).bind fun _ result next keeps shown => ?_
      have kept := ready.keeps keeps
      have inside : Ready between after result.2 next :=
        ⟨head.1.visible ready.visible, shown.2, kept.locals_room, kept.temps_room⟩
      rw [← bind_pure (Block.runAll context second.statements)]
      refine Follows.earlier ?_ head.1
      refine ((follows rest right inside).mono fun _ parts last keeps' holds => ?_).bind
        fun _ parts _ _ holds => .pure (holds : _ = (result.1 ++ parts).flatMap Part.pieces)
      have first' : first.slots.map (Slot.piece last.temp) = first.slots.map (Slot.piece next.temp) :=
        Slot.map_piece_congr fun index member =>
          keeps'.temp_eq index (head.2.between index member).2
      rw [List.map_append, List.flatMap_append, first', shown.1, holds]

end

end Node

namespace Program

variable {registry : Registry} {nodes : List Node} {program : Program}

/-- A program follows a walk of its template from the state in which a run
begins: no name is visible yet, and there is room for everything. -/
theorem follows_start (compiled : compile registry nodes = .ok program) (context : Context) :
    Follows {} program.start (program.block.run context)
      (Node.walkAll .compiled registry context [] nodes)
      fun content parts _ => content = Packing.joinKnown parts := by
  rcases Except.bind_eq_ok.mp compiled with ⟨⟨output, layout⟩, ran, done⟩
  cases done
  have ready : Ready {} layout [] (start ⟨output.toBlock, layout.temps, layout.locals⟩) := by
    refine ⟨?_, rfl, ?_, ?_⟩
    · intro entry impossible
      cases impossible
    · simp [start]
    · simp [start]
  exact Node.Follow.block (Node.follows nodes) ran ready

section Ends

variable {context : Context} {journal : Journal}

/-- A render joins the parts of the walk. -/
theorem render_of_ok (compiled : compile registry nodes = .ok program) {parts : List Part}
    (walked : Node.walkAll .compiled registry context [] nodes [] = .ok parts journal) :
    program.render context = (.ok (Packing.joinKnown parts), journal) := by
  have follows := follows_start compiled context
  simp only [Follows, start, walked] at follows
  rcases follows with ⟨content, after, ran, kept, _, same⟩
  simp only [render, EStateM.run, start, ran, kept, same]

/-- A render fails where the walk does. -/
theorem render_of_error (compiled : compile registry nodes = .ok program) {error : Error}
    (walked : Node.walkAll .compiled registry context [] nodes [] = .error error journal) :
    program.render context = (.error error, journal) := by
  have follows := follows_start compiled context
  simp only [Follows, start, walked] at follows
  rcases follows with ⟨after, ran, kept⟩
  simp only [render, EStateM.run, start, ran, kept]

end Ends

/-- Rendering a compiled template is walking the template: the same markup or
the same error, and the same calls in the same order. -/
theorem render_eq_walk (compiled : compile registry nodes = .ok program) (context : Context) :
    program.render context = Node.render .compiled registry context nodes := by
  have follows := follows_start compiled context
  simp only [Follows, start] at follows
  simp only [render, EStateM.run, Node.render, start]
  cases walked : Node.walkAll .compiled registry context [] nodes [] with
  | ok parts journal =>
      rw [walked] at follows
      rcases follows with ⟨content, after, ran, kept, _, same⟩
      simp only [ran, kept, same]
      rfl
  | error error journal =>
      rw [walked] at follows
      rcases follows with ⟨after, ran, kept⟩
      simp only [ran, kept]

/-- A loop inside which a name is bound again and a function is called. -/
theorem render_eq_walk_loop :
    let echo : TemplateFunction := ⟨fun _ _ args => .ok (.list args), fun _ => none⟩
    let body : List Node := [.bind (.var "x") (.call "echo" [.var "x", .lit (.num "1")]),
      .print (.value (.var "x")), .text ";"]
    let nodes : List Node := [.bind (.var "x") (.lit (.atom "a")),
      .print (.loop (.var "x") (.list [.var "x", .lit (.str "b")]) body),
      .print (.value (.var "x"))]
    ∃ program, compile [("echo", echo)] nodes = .ok program ∧
      program.render {} = Node.render .compiled [("echo", echo)] {} nodes :=
  ⟨_, rfl, render_eq_walk rfl {}⟩

end Program
end HtmlTemplate
