import HtmlTemplate.Proofs.Concatenation.Compiling
import HtmlTemplate.Proofs.Rendering.Packing
import HtmlTemplate.Proofs.Storage.Sites

namespace HtmlTemplate

/-!
# Walks see the visible names only

A walk of nodes that compile looks up no other names than those that were
visible when they were compiled.  What else is in the scope makes no difference
to it, and neither do the calls that were made before if no function answers
differently because of them.
-/

/-- No function answers differently because of the calls made before. -/
def Registry.Stateless (registry : Registry) : Prop :=
  ∀ {name : String} {target : NamedFunction}, registry.find? name = some target ->
    ∀ context journal journal' args,
      target.function.respond context journal args = target.function.respond context journal' args

namespace Walk

variable {α β γ δ : Type}

/-- Whatever was called before, both walks end with the same error or with
results that agree. -/
def Corresponds (walk : Walk α) (other : Walk β) (agree : α -> β -> Prop) : Prop :=
  ∀ journal journal',
    (∃ result after result' after', walk journal = .ok result after ∧
      other journal' = .ok result' after' ∧ agree result result') ∨
    ∃ error after after', walk journal = .error error after ∧ other journal' = .error error after'

namespace Corresponds

variable {walk : Walk α} {other : Walk β} {agree : α -> β -> Prop}

theorem pure {result : α} {result' : β} (holds : agree result result') :
    Corresponds (Pure.pure result) (Pure.pure result') agree :=
  fun journal journal' => .inl ⟨result, journal, result', journal', rfl, rfl, holds⟩

theorem throw (error : Error) :
    Corresponds (MonadExcept.throw error : Walk α) (MonadExcept.throw error : Walk β) agree :=
  fun journal journal' => .inr ⟨error, journal, journal', rfl, rfl⟩

theorem ofExcept (result : Except Error α) :
    Corresponds (Walk.ofExcept result) (Walk.ofExcept result) Eq := by
  cases result with
  | ok value => exact .pure rfl
  | error error => exact .throw error

theorem ofReference (result : Except CompileFault α) :
    Corresponds (Walk.ofReference result) (Walk.ofReference result) Eq := by
  cases result with
  | ok value => exact .pure rfl
  | error fault => exact .throw (.compile fault)

theorem bind {next : α -> Walk γ} {next' : β -> Walk δ} {agree' : γ -> δ -> Prop}
    (first : Corresponds walk other agree)
    (second : ∀ result result', agree result result' ->
      Corresponds (next result) (next' result') agree') :
    Corresponds (walk >>= next) (other >>= next') agree' := by
  intro journal journal'
  simp only [Bind.bind, EStateM.bind]
  rcases first journal journal' with
    ⟨result, after, result', after', ended, ended', holds⟩ | ⟨error, after, after', ended, ended'⟩
  · simp only [ended, ended']
    exact second result result' holds after after'
  · simp only [ended, ended']
    exact .inr ⟨error, after, after', rfl, rfl⟩

/-- Walks with the same result go on with it. -/
theorem andThen {other : Walk α} {next : α -> Walk γ} {next' : α -> Walk δ}
    {agree' : γ -> δ -> Prop} (first : Corresponds walk other Eq)
    (second : ∀ result, Corresponds (next result) (next' result) agree') :
    Corresponds (walk >>= next) (other >>= next') agree' :=
  first.bind fun result _ same => same ▸ second result

theorem invoke {registry : Registry} (stateless : registry.Stateless) {name : String}
    {target : NamedFunction} (found : registry.find? name = some target) (context : Context)
    (args : List Value) :
    Corresponds (Walk.invoke context target args) (Walk.invoke context target args) Eq := by
  intro journal journal'
  have called (journal : Journal) : Walk.invoke context target args journal =
      Walk.ofExcept (target.function.respond context journal args)
        (⟨target.name, args, target.function.note args⟩ :: journal) := rfl
  rw [called, called, stateless found context journal journal' args]
  exact ofExcept _ _ _

theorem collect {step step' : Value -> Walk (Option Value)}
    (each : ∀ item, Corresponds (step item) (step' item) Eq) (items : List Value) :
    Corresponds (Walk.collect step items) (Walk.collect step' items) Eq := by
  induction items with
  | nil => exact .pure rfl
  | cons item rest inductionHypothesis =>
      exact (each item).andThen fun result => inductionHypothesis.andThen fun others => .pure rfl

end Corresponds
end Walk

open Walk

/-! ## Expressions -/

namespace Expr

variable {registry : Registry} {context : Context} {scope other : Scope}

/-- A call of a function that the registry has, or the fault that it has
none. -/
theorem invoke_congr {α : Type} {agree : α -> α -> Prop} (stateless : registry.Stateless)
    (context : Context) (name : String) {args args' : NamedFunction -> Walk α}
    (each : ∀ target, (∀ values, Corresponds (invoke context target values)
      (invoke context target values) Eq) -> Corresponds (args target) (args' target) agree) :
    Corresponds (Walk.ofReference (function registry name) >>= args)
      (Walk.ofReference (function registry name) >>= args') agree := by
  cases known : registry.find? name with
  | none =>
      have failed : Corresponds (Walk.ofReference (function registry name))
          (Walk.ofReference (function registry name)) fun _ _ => False := by
        simp only [function, known]
        exact .throw _
      exact failed.bind fun _ _ impossible => nomatch impossible
  | some target =>
      simp only [function, known]
      exact each target fun values => .invoke stateless known context values

mutual

/-- An expression sees the names that it uses. -/
theorem eval_congr (stateless : registry.Stateless) : (expr : Expr) ->
    (∀ name ∈ expr.uses, lookUp? name scope = lookUp? name other) ->
    Corresponds (eval registry context scope expr) (eval registry context other expr) Eq
  | .lit literal, seen => .ofReference literal.denote
  | .assign name, seen => .ofExcept (context.assigns.fetch name)
  | .var name, seen => by
      have same := seen name (List.mem_singleton_self name)
      simp only [eval, Scope.fetch, same]
      exact .ofReference _
  | .list items, seen => (evalAll_congr stateless items seen).andThen fun _ => .pure rfl
  | .tuple items, seen => (evalAll_congr stateless items seen).andThen fun _ => .pure rfl
  | .attr object name, seen =>
      (eval_congr stateless object seen).andThen fun object => .ofExcept (object.field name)
  | .index object key, seen => by
      rcases List.forall_mem_append.mp seen with ⟨first, second⟩
      exact (eval_congr stateless object first).andThen fun object =>
        (eval_congr stateless key second).andThen fun key => .ofExcept (object.index key)
  | .call name args, seen =>
      invoke_congr stateless context name fun target answers =>
        (evalAll_congr stateless args seen).andThen answers
  | .unary op operand, seen =>
      (eval_congr stateless operand seen).andThen fun operand => .ofExcept (op.apply operand)
  | .binary op left right, seen => by
      rcases List.forall_mem_append.mp seen with ⟨first, second⟩
      have right' := eval_congr stateless right second
      refine (eval_congr stateless left first).andThen fun left => ?_
      have choice (holds : Bool) {yes no yes' no' : Walk Value} (first : Corresponds yes yes' Eq)
          (second : Corresponds no no' Eq) :
          Corresponds (if holds then yes else no) (if holds then yes' else no') Eq := by
        cases holds with
        | true => exact first
        | false => exact second
      cases op with
      | orWord => exact choice _ (.pure rfl) right'
      | orSign => exact choice _ (.pure rfl) right'
      | andWord => exact choice _ right' (.pure rfl)
      | andSign => exact choice _ right' (.pure rfl)
      | strict op => exact right'.andThen fun right => .ofExcept (op.apply left right)
  | .group inner, seen => eval_congr stateless inner seen

theorem evalAll_congr (stateless : registry.Stateless) : (exprs : List Expr) ->
    (∀ name ∈ usesOfAll exprs, lookUp? name scope = lookUp? name other) ->
    Corresponds (evalAll registry context scope exprs) (evalAll registry context other exprs) Eq
  | [], seen => .pure rfl
  | expr :: rest, seen => by
      rcases List.forall_mem_append.mp seen with ⟨first, second⟩
      exact (eval_congr stateless expr first).andThen fun value =>
        (evalAll_congr stateless rest second).andThen fun values => .pure rfl

end

end Expr

/-! ## Scopes -/

/-- Two scopes give the same values to some names. -/
def SeenAlike (names : List (String × Nat)) (scope other : Scope) : Prop :=
  ∀ name ∈ names.map Prod.fst, lookUp? name scope = lookUp? name other

theorem SeenAlike.nil (scope other : Scope) : SeenAlike [] scope other :=
  fun _ impossible => nomatch impossible

/-- A pattern that matches gives values to the names that it was compiled
with. -/
theorem Pattern.names_of_match {pattern : Pattern} {next : Nat} {matcher : Matcher}
    {bindings : Bindings} (compiled : pattern.compile ⟨next, []⟩ = .ok (matcher, bindings))
    {value : Value} {bound : Scope} (found : pattern.match? [] value = some bound) :
    bound.map Prod.fst = bindings.bound.map Prod.fst := by
  have locals : ∃ locals : Locals, bindings.next ≤ locals.size :=
    ⟨Array.replicate bindings.next .nil, Nat.le_of_eq Array.size_replicate.symm⟩
  rcases locals with ⟨locals, room⟩
  have agrees := pattern.run_agrees compiled (fun _ impossible => nomatch impossible) locals room
    value
  have result := agrees.result
  rw [show locals.scope ([] : List (String × Nat)) = [] from rfl, found] at result
  split at result
  · cases result
    exact List.map_map
  · cases result

/-- The names of a pattern hide what was visible before. -/
theorem SeenAlike.declare {names own : List (String × Nat)} {scope other bound : Scope}
    (seen : SeenAlike names scope other) (same : bound.map Prod.fst = own.map Prod.fst) :
    SeenAlike (own ++ names) (bound ++ scope) (bound ++ other) := by
  intro name member
  rw [lookUp?_append, lookUp?_append]
  cases found : lookUp? name bound with
  | some value => rfl
  | none =>
      have absent := lookUp?_eq_none_iff.mp found
      rw [same] at absent
      rw [List.map_append, List.mem_append] at member
      rw [Option.none_or, Option.none_or, seen name (member.resolve_left absent)]

namespace Expr

variable {registry : Registry} {context : Context} {scope other : Scope}
  {names : List (String × Nat)}

theorem mem_of_reads {reads : List Nat} {uses : List String}
    (same : reads.map some = uses.map fun name => lookUp? name names) {name : String}
    (used : name ∈ uses) : name ∈ names.map Prod.fst := by
  have found : lookUp? name names ∈ reads.map some := by
    rw [same]
    exact List.mem_map_of_mem used
  rcases List.mem_map.mp found with ⟨slot, _, known⟩
  exact mem_names_of_lookUp? known.symm

theorem eval_of_compile (stateless : registry.Stateless) {expr : Expr} {code : Code}
    (compiled : expr.compile registry names = .ok code) (seen : SeenAlike names scope other) :
    Corresponds (expr.eval registry context scope) (expr.eval registry context other) Eq :=
  eval_congr stateless expr fun name used =>
    seen name (mem_of_reads (reads_compile expr compiled) used)

theorem evalAll_of_compile (stateless : registry.Stateless) {exprs : List Expr} {codes : List Code}
    (compiled : compileAll registry names exprs = .ok codes) (seen : SeenAlike names scope other) :
    Corresponds (evalAll registry context scope exprs) (evalAll registry context other exprs) Eq :=
  evalAll_congr stateless exprs fun name used =>
    seen name (mem_of_reads (readsOfAll_compile exprs compiled) used)

end Expr

/-! ## Nodes -/

namespace Node

variable {registry : Registry} {context : Context} {packing : Packing}

/-- A walk of nodes that compile sees the visible names only. -/
def SeesVisible (packing : Packing) (registry : Registry) (context : Context)
    (nodes : List Node) : Prop :=
  ∀ {layout after : Layout} {output : Output} {scope other : Scope},
    compileAll registry nodes layout = .ok (output, after) ->
      SeenAlike layout.names scope other ->
      Corresponds (walkAll packing registry context scope nodes)
        (walkAll packing registry context other nodes) Eq

/-- A round of a loop, or a clause. -/
theorem SeesVisible.body {α : Type} {nodes : List Node}
    (sees : SeesVisible packing registry context nodes) {layout after : Layout}
    {pattern : Pattern} {matcher : Matcher} {output : Output} {scope other : Scope}
    (compiled : layout.CompilesBody registry pattern nodes matcher output after)
    (seen : SeenAlike layout.names scope other) (wrap : Value -> α) (value : Value)
    {missed missed' : Walk α} (otherwise : Corresponds missed missed' Eq) :
    Corresponds
      (match pattern.match? [] value with
      | some bound => do
          let parts ← walkAll packing registry context (bound ++ scope) nodes
          return wrap (.markup (packing.pack parts))
      | none => missed)
      (match pattern.match? [] value with
      | some bound => do
          let parts ← walkAll packing registry context (bound ++ other) nodes
          return wrap (.markup (packing.pack parts))
      | none => missed') Eq := by
  rcases compiled with ⟨bindings, _, declared, ran, _⟩
  cases found : pattern.match? [] value with
  | none => exact otherwise
  | some bound =>
      have names := Pattern.names_of_match declared found
      exact (sees ran (seen.declare names)).andThen fun parts => .pure rfl

mutual

theorem walkAction_congr (stateless : registry.Stateless) : (action : Action) ->
    {layout after : Layout} -> {operation : Operation} -> {scope other : Scope} ->
    compileAction registry action layout = .ok (operation, after) ->
    SeenAlike layout.names scope other ->
    Corresponds (walkAction packing registry context scope action)
      (walkAction packing registry context other action) Eq
  | .value expr, layout, after, operation, scope, other, compiled, seen => by
      rcases compileAction_value compiled with ⟨_, inner, _⟩
      exact Expr.eval_of_compile stateless inner seen
  | .cond negated test holds fails, layout, after, operation, scope, other, compiled, seen => by
      rcases compileAction_cond compiled with ⟨_, _, _, _, inner, first, second, _⟩
      rcases first with ⟨_, first, rfl⟩
      rcases second with ⟨_, second, _⟩
      refine (Expr.eval_of_compile stateless inner seen).andThen fun test => ?_
      have yes := walkAll_congr stateless holds first seen
      have no := walkAll_congr stateless fails second seen
      split
      · exact yes.andThen fun parts => .pure rfl
      · exact no.andThen fun parts => .pure rfl
  | .loop pattern source body, layout, after, operation, scope, other, compiled, seen => by
      rcases compileAction_loop compiled with ⟨_, _, _, inner, block, _⟩
      have sees : SeesVisible packing registry context body := walkAll_congr stateless body
      refine (Expr.eval_of_compile stateless inner seen).andThen fun source => ?_
      refine (Corresponds.ofExcept source.enumerate).andThen fun items => ?_
      refine (Corresponds.collect (fun item => ?_) items).andThen fun results => .pure rfl
      exact sees.body block seen some item (.pure rfl)
  | .choice subject clauses, layout, after, operation, scope, other, compiled, seen => by
      rcases compileAction_choice compiled with ⟨_, _, inner, rest, _⟩
      exact (Expr.eval_of_compile stateless inner seen).andThen fun subject =>
        walkClauses_congr stateless clauses subject rest seen
  | .callBlock name args body, layout, after, operation, scope, other, compiled, seen => by
      rcases compileAction_callBlock compiled with ⟨_, _, _, _, inner, ⟨_, block, _⟩, _⟩
      refine Expr.invoke_congr stateless context name fun target answers => ?_
      refine (Expr.evalAll_of_compile stateless inner seen).andThen fun args => ?_
      exact (walkAll_congr stateless body block seen).andThen fun parts => answers _

theorem walkClauses_congr (stateless : registry.Stateless) : (clauses : List Clause) ->
    (subject : Value) -> {layout after : Layout} -> {branches : List Branch} ->
    {scope other : Scope} -> compileClauses registry clauses layout = .ok (branches, after) ->
    SeenAlike layout.names scope other ->
    Corresponds (walkClauses packing registry context scope subject clauses)
      (walkClauses packing registry context other subject clauses) Eq
  | [], subject, layout, after, branches, scope, other, compiled, seen => .throw _
  | .clause pattern body :: rest, subject, layout, after, branches, scope, other, compiled,
      seen => by
      rcases compileClauses_cons compiled with ⟨_, _, between, _, first, second, _⟩
      have sees : SeesVisible packing registry context body := walkAll_congr stateless body
      have same : between.names = layout.names := by
        rcases first with ⟨_, _, _, _, rfl⟩
        rfl
      refine sees.body first seen id subject ?_
      rw [← same] at seen
      exact walkClauses_congr stateless rest subject second seen

/-- A printed tag, also one that is known before the render. -/
theorem walkPrint_congr {action : Action} {names : List (String × Nat)} {scope other : Scope}
    (walked : Corresponds (walkAction packing registry context scope action)
      (walkAction packing registry context other action) Eq)
    (seen : SeenAlike names scope other) :
    Corresponds (walk packing registry context scope (.print action))
      (walk packing registry context other (.print action))
      fun result result' => result.1 = result'.1 ∧ SeenAlike names result.2 result'.2 :=
  walked.andThen fun value => (Corresponds.ofExcept value.toMarkup).andThen fun _ =>
    .pure ⟨rfl, seen⟩

/-- After a node the scopes agree on the names that are visible then. -/
theorem walk_congr (stateless : registry.Stateless) : (node : Node) -> {layout after : Layout} ->
    {output : Output} -> {scope other : Scope} ->
    compile registry node layout = .ok (output, after) -> SeenAlike layout.names scope other ->
    Corresponds (walk packing registry context scope node)
      (walk packing registry context other node)
      fun result result' => result.1 = result'.1 ∧ SeenAlike after.names result.2 result'.2
  | .text content, layout, after, output, scope, other, compiled, seen => by
      cases compiled
      exact .pure ⟨rfl, seen⟩
  | .comment _, layout, after, output, scope, other, compiled, seen => by
      cases compiled
      exact .pure ⟨rfl, seen⟩
  | .print action, layout, after, output, scope, other, compiled, seen => by
      rcases compile_print compiled with ⟨known, literal, _, rfl⟩ | ⟨_, between, _, ran, _, rfl⟩
      · refine walkPrint_congr ?_ seen
        cases action with
        | value expr =>
            rcases Option.bind_eq_some_iff.mp literal with ⟨value, constant, _⟩
            refine Expr.eval_congr stateless expr fun name used => ?_
            rw [expr.uses_of_literal? constant] at used
            cases used
        | _ => cases literal
      · refine walkPrint_congr (walkAction_congr stateless action ran seen) ?_
        have same := (compileAction_grows action ran).2
        rw [same]
        exact seen
  | .silent action, layout, after, output, scope, other, compiled, seen => by
      rcases compile_silent compiled with ⟨_, ran, _⟩
      have same := (compileAction_grows action ran).2
      refine (walkAction_congr stateless action ran seen).andThen fun value => .pure ⟨rfl, ?_⟩
      rw [same]
      exact seen
  | .bind pattern expr, layout, after, output, scope, other, compiled, seen => by
      rcases compile_bind compiled with ⟨_, _, bindings, inner, declared, _, rfl⟩
      refine (Expr.eval_of_compile stateless inner seen).andThen fun value => ?_
      cases found : pattern.match? [] value with
      | none => exact .throw _
      | some bound => exact .pure ⟨rfl, seen.declare (Pattern.names_of_match declared found)⟩

theorem walkAll_congr (stateless : registry.Stateless) : (nodes : List Node) ->
    SeesVisible packing registry context nodes
  | [], layout, after, output, scope, other, compiled, seen => .pure rfl
  | node :: rest, layout, after, output, scope, other, compiled, seen => by
      rcases compileAll_cons compiled with ⟨_, between, _, first, second, _⟩
      refine (walk_congr stateless node first seen).bind ?_
      rintro ⟨parts, scope⟩ ⟨parts', scope'⟩ ⟨same, seen⟩
      cases same
      exact (walkAll_congr stateless rest second seen).andThen fun others => .pure rfl

end

end Node
end HtmlTemplate
