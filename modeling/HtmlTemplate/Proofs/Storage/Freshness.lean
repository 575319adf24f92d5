import HtmlTemplate.Proofs.Storage.Guarding

namespace HtmlTemplate

/-!
# Storage is never stale

Compiled programs are well formed, and every access of a compiled program is
sound, whatever the assigns and the functions are.  The induction is on the
template, and what it carries is `Guards`: nodes leave alone whatever was
handed out before they were compiled.  So a local keeps the value of its binder
while the names of the binder are visible, and a temporary keeps what its
statement printed until the slots of the block are joined.
-/

/-! ## Expressions and patterns -/

/-- Locals that were handed out before the layout and hold what was written to
them. -/
def Watch.Knows (watch : Watch) (layout : Layout) (slots : List Nat) : Prop :=
  ∀ slot ∈ slots, slot < layout.locals ∧ watch.Holds slot

namespace Watch.Knows

variable {watch after : Watch} {layout : Layout} {first second : List Nat}

theorem left (known : watch.Knows layout (first ++ second)) : watch.Knows layout first :=
  fun slot member => known slot (List.mem_append_left _ member)

theorem right (known : watch.Knows layout (first ++ second)) (untouched : Untouched layout watch after) :
    after.Knows layout second := by
  intro slot member
  have before := known slot (List.mem_append_right _ member)
  exact ⟨before.1, untouched.holds before.1 before.2⟩

end Watch.Knows

namespace Code

variable {context : Context} {layout : Layout}

mutual

/-- An expression makes sound accesses if it reads known locals. -/
theorem guarded : (code : Code) -> {watch : Watch} -> watch.Knows layout code.reads ->
    Guards layout watch (code.watch context) Unknown
  | .const _, _, _ => .pure trivial
  | .assign _, _, _ => .ofExcept _
  | .slot number, _, known => .readLocal (known number (List.mem_singleton.mpr rfl)).2
  | .list items, _, known => (guardedAll items known).bind fun _ _ _ _ => .pure trivial
  | .tuple items, _, known => (guardedAll items known).bind fun _ _ _ _ => .pure trivial
  | .attr object _, _, known => (guarded object known).bind fun _ _ _ _ => .ofExcept _
  | .index object key, _, known =>
      (guarded object known.left).bind fun _ _ untouched _ =>
        (guarded key (known.right untouched)).bind fun _ _ _ _ => .ofExcept _
  | .call function args, _, known =>
      (guardedAll args known).bind fun _ _ _ _ => .invoke context function _
  | .unary _ operand, _, known => (guarded operand known).bind fun _ _ _ _ => .ofExcept _
  | .either left right, _, known => by
      refine (guarded left known.left).bind fun _ _ untouched _ => ?_
      split
      · exact .pure trivial
      · exact guarded right (known.right untouched)
  | .both left right, _, known => by
      refine (guarded left known.left).bind fun _ _ untouched _ => ?_
      split
      · exact guarded right (known.right untouched)
      · exact .pure trivial
  | .binary _ left right, _, known =>
      (guarded left known.left).bind fun _ _ untouched _ =>
        (guarded right (known.right untouched)).bind fun _ _ _ _ => .ofExcept _

theorem guardedAll : (codes : List Code) -> {watch : Watch} ->
    watch.Knows layout (readsOfAll codes) -> Guards layout watch (Code.watchAll context codes) Unknown
  | [], _, _ => .pure trivial
  | code :: rest, _, known =>
      (guarded code known.left).bind fun _ _ untouched _ =>
        (guardedAll rest (known.right untouched)).bind fun _ _ _ _ => .pure trivial

end

end Code

namespace Settled

variable {registry : Registry} {layout last : Layout} {watch : Watch}

/-- The locals that the names of an expression stand for are known. -/
theorem knows (settled : Settled layout last watch) {names : List String} {reads : List Nat}
    (same : reads.map some = names.map fun name => lookUp? name layout.names) :
    watch.Knows layout reads := by
  intro slot member
  have found : some slot ∈ names.map fun name => lookUp? name layout.names := by
    rw [← same]
    exact List.mem_map_of_mem member
  rcases List.mem_map.mp found with ⟨name, _, designated⟩
  have entry := mem_of_lookUp? designated
  exact ⟨settled.visible _ entry, settled.holds _ entry⟩

theorem eval (settled : Settled layout last watch) {expr : Expr} {code : Code}
    (compiled : expr.compile registry layout.names = .ok code) (context : Context) :
    Guards layout watch (code.watch context) Unknown :=
  code.guarded (settled.knows (expr.reads_compile compiled))

theorem evalAll (settled : Settled layout last watch) {exprs : List Expr} {codes : List Code}
    (compiled : Expr.compileAll registry layout.names exprs = .ok codes) (context : Context) :
    Guards layout watch (Code.watchAll context codes) Unknown :=
  Code.guardedAll codes (settled.knows (Expr.readsOfAll_compile exprs compiled))

end Settled

namespace Pattern

/-- After a match all names of the pattern hold their values. -/
def Bound (bindings : Bindings) (holds : Bool) (watch : Watch) : Prop :=
  holds = true -> ∀ entry ∈ bindings.bound, watch.Holds entry.2

theorem Bound.failed (bindings : Bindings) (watch : Watch) : Bound bindings false watch :=
  fun impossible => nomatch impossible

mutual

/-- A pattern writes only locals that are new, and compares only with those
that it has written in the same attempt. -/
theorem guarded : (pattern : Pattern) -> {bindings after : Bindings} -> {matcher : Matcher} ->
    compile bindings pattern = .ok (matcher, after) ->
    NamesBelow bindings.next bindings.bound -> {watch : Watch} ->
    after.next ≤ watch.machine.locals.size -> (∀ entry ∈ bindings.bound, watch.Holds entry.2) ->
    (temps : Nat) -> (names : List (String × Nat)) -> (value : Value) ->
    Guards ⟨temps, bindings.next, names⟩ watch (matcher.watch value) (Bound after)
  | .wildcard, bindings, after, matcher, compiled, _, watch, _, held, temps, names, value => by
      simp only [compile] at compiled
      cases compiled
      simp only [Matcher.watch]
      exact .pure fun _ => held
  | .var name, bindings, after, matcher, compiled, below, watch, room, held, temps, names,
    value => by
      rcases compile_var compiled with ⟨slot, found, rfl, rfl⟩ | ⟨_, rfl, rfl⟩
      · have entry := mem_of_lookUp? found
        simp only [Matcher.watch]
        refine (Guards.readLocal (held _ entry)).bind fun _ _ untouched _ => .pure fun _ => ?_
        exact fun other member => untouched.holds (below other member) (held other member)
      · simp only [Matcher.watch]
        refine (Guards.writeLocal room value).bind fun _ _ untouched written => .pure fun _ => ?_
        intro other member
        rcases List.mem_cons.mp member with rfl | older
        · exact written
        · exact untouched.holds (below other older) (held other older)
  | .lit literal, bindings, after, matcher, compiled, _, watch, _, held, temps, names, value => by
      rcases compile_lit compiled with ⟨expected, _, rfl, rfl⟩
      simp only [Matcher.watch]
      exact .pure fun _ => held
  | .tuple patterns, bindings, after, matcher, compiled, below, watch, room, held, temps, names,
    value => by
      rcases compile_tuple compiled with ⟨matchers, inner, rfl⟩
      cases value with
      | tuple items =>
          simp only [Matcher.watch]
          split
          · rename_i same
            have counts := (length_compileAll patterns inner).symm.trans same
            exact guardedAll patterns inner below room held temps names items counts
          · exact .pure (.failed after watch)
      | _ =>
          simp only [Matcher.watch]
          exact .pure (.failed after watch)
  | .list patterns, bindings, after, matcher, compiled, below, watch, room, held, temps, names,
    value => by
      rcases compile_list compiled with ⟨matchers, inner, rfl⟩
      cases value with
      | list items =>
          simp only [Matcher.watch]
          split
          · rename_i same
            have counts := (length_compileAll patterns inner).symm.trans same
            exact guardedAll patterns inner below room held temps names items counts
          · exact .pure (.failed after watch)
      | _ =>
          simp only [Matcher.watch]
          exact .pure (.failed after watch)

theorem guardedAll : (patterns : List Pattern) -> {bindings after : Bindings} ->
    {matchers : List Matcher} -> compileAll bindings patterns = .ok (matchers, after) ->
    NamesBelow bindings.next bindings.bound -> {watch : Watch} ->
    after.next ≤ watch.machine.locals.size -> (∀ entry ∈ bindings.bound, watch.Holds entry.2) ->
    (temps : Nat) -> (names : List (String × Nat)) -> (items : List Value) ->
    patterns.length = items.length ->
    Guards ⟨temps, bindings.next, names⟩ watch (Matcher.watchAll matchers items) (Bound after)
  | [], bindings, after, matchers, compiled, _, watch, _, held, temps, names, items, _ => by
      simp only [compileAll] at compiled
      cases compiled
      simp only [Matcher.watchAll]
      exact .pure fun _ => held
  | pattern :: rest, bindings, after, matchers, compiled, below, watch, room, held, temps, names,
    item :: items, same => by
      rcases compileAll_cons compiled with ⟨matcher, between, others, first, second, rfl⟩
      have extends' := compile_extends pattern first
      have grows := (compileAll_extends rest second).next_le
      have head := guarded pattern first below (Nat.le_trans grows room) held temps names item
      simp only [Matcher.watchAll]
      refine head.bind fun holds next untouched bound => ?_
      cases holds with
      | false => exact .pure (.failed after next)
      | true =>
          have room' : after.next ≤ next.machine.locals.size := by
            rw [untouched.locals_size]
            exact room
          have tail := guardedAll rest second (extends'.below below) room' (bound rfl) temps names
            items (Nat.succ.inj same)
          exact tail.earlier ⟨Nat.le_refl _, extends'.next_le, fun below => below.mono extends'.next_le⟩

end

end Pattern

/-- After a match the names of the pattern are visible. -/
theorem Settled.matching {layout last : Layout} {watch : Watch} {pattern : Pattern}
    {matcher : Matcher} {bindings : Bindings} (settled : Settled layout last watch)
    (compiled : pattern.compile ⟨layout.locals, []⟩ = .ok (matcher, bindings))
    (room : bindings.next ≤ last.locals) (value : Value) :
    Guards layout watch (matcher.watch value) fun holds after =>
      holds = true -> Settled (layout.declare bindings) last after := by
  have nothing : NamesBelow layout.locals ([] : List (String × Nat)) :=
    fun _ impossible => nomatch impossible
  have guarded := pattern.guarded compiled nothing (Nat.le_trans room settled.locals_room)
    (fun _ impossible => nomatch impossible) layout.temps layout.names value
  refine guarded.mono fun holds after untouched bound matched => ?_
  have kept := settled.untouched untouched
  refine ⟨(Layout.Grows.declare compiled).visible settled.visible, fun entry member => ?_,
    kept.locals_room, kept.temps_room⟩
  rcases List.mem_append.mp member with own | older
  · exact bound matched entry own
  · exact kept.holds entry older

/-! ## Blocks -/

/-- Joining slots takes out temporaries that are filled, each one once. -/
theorem Slot.guardedAll {layout : Layout} : (slots : List Slot) -> {watch : Watch} ->
    (slots.filterMap temp?).Nodup -> (∀ temp ∈ slots.filterMap temp?, layout.temps ≤ temp) ->
    (∀ temp ∈ slots.filterMap temp?, watch.Filled temp) ->
    Guards layout watch (slots.mapM Slot.watch) Unknown
  | [], _, _, _, _ => .pure trivial
  | .fixed text :: rest, watch, nodup, newer, filled => by
      simp only [List.mapM_cons, Slot.watch, pure_bind]
      exact (guardedAll rest nodup newer filled).bind fun _ _ _ _ => .pure trivial
  | .temp index :: rest, watch, nodup, newer, filled => by
      have split : (index :: rest.filterMap temp?).Nodup := nodup
      rcases List.nodup_cons.mp split with ⟨absent, others⟩
      have first : index ∈ (Slot.temp index :: rest).filterMap temp? := List.mem_cons_self ..
      simp only [List.mapM_cons, Slot.watch]
      refine (Guards.take (newer index first) (filled index first)).bind fun _ after _ kept => ?_
      refine (guardedAll rest others (fun temp member => newer temp (List.mem_cons_of_mem _ member))
        fun temp member => kept temp ?_ (filled temp (List.mem_cons_of_mem _ member))).bind
        fun _ _ _ _ => .pure trivial
      rintro rfl
      exact absent member

namespace Block

variable (context : Context)

theorem watchAll_append (first second : List Statement) :
    watchAll context (first ++ second) =
      watchAll context first >>= fun _ => watchAll context second := by
  induction first with
  | nil => exact (pure_bind ..).symm
  | cons statement rest inductionHypothesis =>
      simp only [List.cons_append, watchAll, inductionHypothesis, bind_assoc]

theorem watchAll_singleton (statement : Statement) :
    watchAll context [statement] = watchStatement context statement := by
  simp only [watchAll]
  exact bind_pure (watchStatement context statement)

end Block

namespace Node

variable (registry : Registry) (context : Context)

/-- The statements of some nodes make sound accesses, and afterwards the slots
of the nodes find what was printed for them. -/
def Guarded (nodes : List Node) : Prop :=
  ∀ {layout after : Layout} {output : Output} {watch : Watch},
    compileAll registry nodes layout = .ok (output, after) -> Settled layout after watch ->
    Guards layout watch (Block.watchAll context output.statements)
      fun _ last => ∀ temp ∈ output.slots.filterMap Slot.temp?, last.Filled temp

variable {registry context} {layout after : Layout} {watch : Watch}

theorem Guarded.block {nodes : List Node} {output : Output}
    (guarded : Guarded registry context nodes)
    (compiled : compileAll registry nodes layout = .ok (output, after))
    (settled : Settled layout after watch) :
    Guards layout watch (output.toBlock.watch context) Unknown := by
  have fresh := (compileAll_grows nodes compiled).2
  have slots := Slot.filterMap_temp?_fuse output.slots
  refine .activation ((guarded compiled settled.enter).bind fun _ last _ filled => ?_)
  refine (Slot.guardedAll (Slot.fuse output.slots) ?_ ?_ ?_).bind fun _ _ _ _ => .pure trivial
  · rw [slots]
    exact fresh.nodup
  · rw [slots]
    exact fun temp member => (fresh.between temp member).1
  · rw [slots]
    exact filled

/-- A block inside of a tag. -/
theorem Guarded.content {nodes : List Node} {output : Output}
    (guarded : Guarded registry context nodes)
    (compiled : layout.CompilesBlock registry nodes output after)
    (settled : Settled layout after watch) :
    Guards layout watch (output.toBlock.watch context) Unknown := by
  rcases compiled with ⟨inner, ran, rfl⟩
  exact guarded.block ran settled.inside

/-- A pattern and a block that sees its names. -/
theorem Guarded.body {α : Type} {pattern : Pattern} {nodes : List Node} {matcher : Matcher}
    {output : Output} (guarded : Guarded registry context nodes)
    (compiled : layout.CompilesBody registry pattern nodes matcher output after)
    (settled : Settled layout after watch) (wrap : Value -> α) (value : Value)
    {otherwise : Watching α}
    (missed : ∀ next, Untouched layout watch next -> Guards layout next otherwise Unknown) :
    Guards layout watch
      (do
        let holds ← matcher.watch value
        if holds then
          let content ← output.toBlock.watch context
          return wrap (.markup content)
        else otherwise) Unknown := by
  rcases compiled with ⟨bindings, inner, declared, ran, rfl⟩
  have grows := (compileAll_grows nodes ran).1
  refine (settled.inside.matching declared grows.locals_le value).bind
    fun holds next untouched visible => ?_
  cases holds with
  | false => exact missed next untouched
  | true =>
      refine Guards.earlier ?_ (.declare declared)
      exact (guarded.block ran (visible rfl)).bind fun _ _ _ _ => .pure trivial

/-- Text needs no storage. -/
theorem guarded_ofText (text : String) (settled : Settled layout after watch) :
    Guards layout watch (Block.watchAll context (Output.ofText text).statements)
      fun _ last => (∀ temp ∈ (Output.ofText text).slots.filterMap Slot.temp?, last.Filled temp) ∧
        ∀ entry ∈ layout.names, last.Holds entry.2 := by
  have none : (Output.ofText text).slots.filterMap Slot.temp? = [] := by
    unfold Output.ofText
    split <;> rfl
  refine Guards.pure ⟨?_, settled.holds⟩
  rw [none]
  exact fun _ impossible => nomatch impossible

mutual

/-- What a tag evaluates makes sound accesses. -/
theorem action_guarded : (action : Action) -> {layout after : Layout} -> {operation : Operation} ->
    {watch : Watch} -> compileAction registry action layout = .ok (operation, after) ->
    Settled layout after watch ->
    Guards layout watch (Block.watchOperation context operation) Unknown
  | .value expr, layout, after, operation, watch, compiled, settled => by
      rcases compileAction_value compiled with ⟨code, inner, rfl, rfl⟩
      exact settled.eval inner context
  | .cond negated test holds fails, layout, after, operation, watch, compiled, settled => by
      rcases compileAction_cond compiled with ⟨code, first, between, second, inner, left, right, rfl⟩
      have growsLeft := left.grows (compileAll_grows holds)
      have growsRight := right.grows (compileAll_grows fails)
      have names : between.names = layout.names := by
        rcases left with ⟨_, _, rfl⟩
        rfl
      simp only [Block.watchOperation]
      refine (settled.eval inner context).bind fun value next untouched _ => ?_
      have kept := settled.untouched untouched
      split
      · exact (Guarded.content (guarded holds) left (kept.first growsRight)).bind
          fun _ _ _ _ => .pure trivial
      · refine Guards.earlier ?_ growsLeft
        exact (Guarded.content (guarded fails) right (kept.later growsLeft names)).bind
          fun _ _ _ _ => .pure trivial
  | .loop pattern source body, layout, after, operation, watch, compiled, settled => by
      rcases compileAction_loop compiled with ⟨code, matcher, output, inner, block, rfl⟩
      simp only [Block.watchOperation]
      refine (settled.eval inner context).bind fun value next untouched _ => ?_
      refine (Guards.ofExcept value.enumerate).bind fun items next' untouched' _ => ?_
      have kept := (settled.untouched untouched).untouched untouched'
      refine (Guards.collect ?_ items [] next' kept).bind fun _ _ _ _ => .pure trivial
      intro item watch settled
      exact .activation (Guarded.body (guarded body) block settled.enter some item
        fun _ _ => .pure trivial)
  | .choice subject clauses, layout, after, operation, watch, compiled, settled => by
      rcases compileAction_choice compiled with ⟨code, branches, inner, rest, rfl⟩
      simp only [Block.watchOperation]
      refine (settled.eval inner context).bind fun value next untouched _ => ?_
      exact clauses_guarded clauses rest (settled.untouched untouched) value
  | .callBlock name args body, layout, after, operation, watch, compiled, settled => by
      rcases compileAction_callBlock compiled with ⟨target, codes, output, _, inner, block, rfl⟩
      simp only [Block.watchOperation]
      refine (settled.evalAll inner context).bind fun values next untouched _ => ?_
      exact (Guarded.content (guarded body) block (settled.untouched untouched)).bind
        fun _ _ _ _ => .invoke context target _

/-- Clauses are tried in order.  What a clause that does not match has bound is
newer than everything that the next one sees. -/
theorem clauses_guarded : (clauses : List Clause) -> {layout after : Layout} ->
    {branches : List Branch} -> {watch : Watch} ->
    compileClauses registry clauses layout = .ok (branches, after) ->
    Settled layout after watch -> (subject : Value) ->
    Guards layout watch (Block.watchBranches context subject branches) Unknown
  | [], layout, after, branches, watch, compiled, settled, subject => by
      cases compiled
      exact .throw _
  | .clause pattern body :: rest, layout, after, branches, watch, compiled, settled, subject => by
      rcases compileClauses_cons compiled with ⟨matcher, output, between, others, block, next, rfl⟩
      have grows := block.grows (compileAll_grows body)
      have growsRest := (compileClauses_grows rest next).1
      have names : between.names = layout.names := by
        rcases block with ⟨_, _, _, _, rfl⟩
        rfl
      simp only [Block.watchBranches]
      refine Guarded.body (guarded body) block (settled.first growsRest) id subject
        fun last untouched => ?_
      have kept := (settled.untouched untouched).later grows names
      exact (clauses_guarded rest next kept subject).earlier grows

/-- One node: its slots find what was printed for them, and the names that are
visible after it hold their values. -/
theorem node_guarded : (node : Node) -> {layout after : Layout} -> {output : Output} ->
    {watch : Watch} -> compile registry node layout = .ok (output, after) ->
    Settled layout after watch ->
    Guards layout watch (Block.watchAll context output.statements)
      fun _ last => (∀ temp ∈ output.slots.filterMap Slot.temp?, last.Filled temp) ∧
        ∀ entry ∈ after.names, last.Holds entry.2
  | .text content, layout, after, output, watch, compiled, settled => by
      cases compiled
      exact guarded_ofText content settled
  | .comment _, layout, after, output, watch, compiled, settled => by
      cases compiled
      exact .pure ⟨fun _ impossible => (nomatch impossible), settled.holds⟩
  | .print action, layout, after, output, watch, compiled, settled => by
      rcases compile_print compiled with
        ⟨known, _, rfl, rfl⟩ | ⟨operation, between, _, inner, rfl, rfl⟩
      · exact guarded_ofText known settled
      · have grows := (compileAction_grows action inner).1
        have names := (compileAction_grows action inner).2
        rw [Block.watchAll_singleton, Block.watchStatement]
        refine (action_guarded action inner (settled.first (.newTemp between))).bind
          fun value next untouched _ => ?_
        refine (Guards.ofExcept value.print).bind fun content next' untouched' _ => ?_
        have kept := (settled.untouched untouched).untouched untouched'
        refine (Guards.fill grows.temps_le kept.temps_room content).mono
          fun _ last untouched'' filled => ⟨fun temp member => ?_, ?_⟩
        · cases List.mem_singleton.mp member
          exact filled
        · rw [names]
          exact (kept.untouched untouched'').holds
  | .silent action, layout, after, output, watch, compiled, settled => by
      rcases compile_silent compiled with ⟨operation, inner, rfl⟩
      rw [Block.watchAll_singleton, Block.watchStatement]
      refine (action_guarded action inner settled).bind fun value next untouched _ =>
        .pure ⟨fun _ impossible => (nomatch impossible), ?_⟩
      rw [(compileAction_grows action inner).2]
      exact (settled.untouched untouched).holds
  | .bind pattern expr, layout, after, output, watch, compiled, settled => by
      rcases compile_bind compiled with ⟨code, matcher, bindings, inner, declared, rfl, rfl⟩
      rw [Block.watchAll_singleton, Block.watchStatement]
      refine (settled.eval inner context).bind fun value next untouched _ => ?_
      refine ((settled.untouched untouched).matching declared (Nat.le_refl _) value).bind
        fun holds last _ visible => ?_
      cases holds with
      | false => exact .throw _
      | true => exact .pure ⟨fun _ impossible => (nomatch impossible), (visible rfl).holds⟩

/-- Nodes in a row: the later ones leave alone what the slots of the earlier
ones take from. -/
theorem guarded : (nodes : List Node) -> Guarded registry context nodes
  | [], layout, after, output, watch, compiled, settled => by
      cases compiled
      exact .pure fun _ impossible => nomatch impossible
  | node :: rest, layout, after, output, watch, compiled, settled => by
      rcases compileAll_cons compiled with ⟨first, between, second, left, right, rfl⟩
      have head := compile_grows node left
      have grows := (compileAll_grows rest right).1
      rw [Output.append, Block.watchAll_append]
      refine (node_guarded node left (settled.first grows)).bind
        fun _ next untouched known => Guards.earlier ?_ head.1
      have kept := settled.untouched untouched
      have inside : Settled between after next :=
        ⟨head.1.visible settled.visible, known.2, kept.locals_room, kept.temps_room⟩
      refine (guarded rest right inside).mono fun _ last untouched' filled temp member => ?_
      rw [List.filterMap_append] at member
      rcases List.mem_append.mp member with inFirst | inSecond
      · exact untouched'.filled (head.2.between temp inFirst).2 (known.1 temp inFirst)
      · exact filled temp inSecond

end

end Node

namespace Program

variable {registry : Registry} {nodes : List Node} {program : Program}

/-- A render begins with enough room, and no local is visible. -/
theorem access_sound (compiled : compile registry nodes = .ok program) (context : Context) :
    ∀ access ∈ (program.watch context).2, access.Sound := by
  rcases Except.bind_eq_ok.mp compiled with ⟨⟨output, layout⟩, ran, done⟩
  cases done
  have settled : Settled {} layout
      { machine := start ⟨output.toBlock, layout.temps, layout.locals⟩ } := by
    refine ⟨fun _ impossible => (nomatch impossible), fun _ impossible => (nomatch impossible),
      ?_, ?_⟩
    · simp [start]
    · simp [start]
  have guards : Guards {} { machine := start ⟨output.toBlock, layout.temps, layout.locals⟩ }
      (output.toBlock.watch context) Unknown := Node.Guarded.block (Node.guarded nodes) ran settled
  have guarded := guards fun _ impossible => nomatch impossible
  simp only [watch]
  cases ended : output.toBlock.watch context
      { machine := start ⟨output.toBlock, layout.temps, layout.locals⟩ } with
  | ok markup after =>
      rw [ended] at guarded
      exact guarded.1
  | error error after =>
      rw [ended] at guarded
      exact guarded

/-- A compiled program is well formed, its locals are bound and read where
lexical scoping says, and no access of a render meets anything stale. -/
theorem storage_fresh (compiled : compile registry nodes = .ok program) :
    program.WellFormed ∧ program.block.occurrences = Node.occurrences nodes ∧
      ∀ context, (program.watch context).1 = program.render context ∧
        ∀ access ∈ (program.watch context).2, access.Sound :=
  ⟨wellFormed_of_compile compiled, (occurrences_eq compiled).1,
    fun context => ⟨program.watch_fst context, access_sound compiled context⟩⟩

/-- A loop that binds a name again, compares it in its pattern, and binds a name
in every round; and a clause that may bind the name before it fails. -/
theorem storage_fresh_rebinding :
    let body : List Node := [.bind (.var "y") (.var "x"), .print (.value (.var "y"))]
    let clauses : List Clause := [.clause (.list [.var "x", .lit .nil]) [],
      .clause .wildcard [.print (.value (.var "x"))]]
    let nodes : List Node := [.bind (.var "x") (.lit (.atom "a")),
      .print (.loop (.tuple [.var "x", .var "x"]) (.assign "pairs") body),
      .print (.choice (.var "x") clauses)]
    ∃ program, compile [] nodes = .ok program ∧ program.WellFormed ∧
      program.block.occurrences = Node.occurrences nodes ∧
      ∀ context, (program.watch context).1 = program.render context ∧
        ∀ access ∈ (program.watch context).2, access.Sound := by
  intro body clauses nodes
  have compiles : (compile [] nodes).isOk = true := by decide +kernel
  cases compiled : compile [] nodes with
  | error fault =>
      rw [compiled] at compiles
      cases compiles
  | ok program => exact ⟨program, rfl, storage_fresh compiled⟩

end Program
end HtmlTemplate
