import HtmlTemplate.Proofs.Rendering.TreeWalk
import HtmlTemplate.Proofs.Scoping.Places

namespace HtmlTemplate

/-!
# Two walks in lockstep

Two walks of the same nodes with different assigns do the same, as long as the
assigns agree on the names that stand in the nodes.  The walks begin with the
same calls and end with the same calls, and they can differ only if both fetch a
name that neither of them has: the error lists the names that are there.

The relation speaks of single walks and says nothing of scopes, since both walks
bind the same values to the same names.
-/

namespace Context

/-- The same context with other assigns. -/
def withAssigns (context : Context) (assigns : Assigns) : Context :=
  { context with assigns := assigns }

end Context

/-- No function looks at the assigns. -/
def Registry.IgnoresAssigns (registry : Registry) : Prop :=
  ∀ {name : String} {target : NamedFunction}, registry.find? name = some target ->
    ∀ context assigns journal args, target.function.respond (context.withAssigns assigns) journal
      args = target.function.respond context journal args

namespace Walk

variable {α β : Type}

/-- Both walks do the same, or both miss an assign of the same name. -/
def Lockstep (walk other : Walk α) : Prop :=
  ∀ journal, other journal = walk journal ∨ ∃ name available available' after,
    walk journal = .error (.missingAssign name available) after ∧
      other journal = .error (.missingAssign name available') after

namespace Lockstep

variable {walk other : Walk α}

theorem refl (walk : Walk α) : Lockstep walk walk :=
  fun _ => .inl rfl

theorem bind {next next' : α -> Walk β} (first : Lockstep walk other)
    (second : ∀ result, Lockstep (next result) (next' result)) :
    Lockstep (walk >>= next) (other >>= next') := by
  intro journal
  simp only [Bind.bind, EStateM.bind]
  rcases first journal with same | ⟨name, available, available', after, missed, missed'⟩
  · rw [same]
    cases walk journal with
    | ok result after => exact second result after
    | error error after => exact .inl rfl
  · simp only [missed, missed']
    exact .inr ⟨name, available, available', after, rfl, rfl⟩

theorem fetch {assigns assigns' : Assigns} {name : String}
    (same : assigns'.get? name = assigns.get? name) :
    Lockstep (Walk.ofExcept (assigns.fetch name)) (Walk.ofExcept (assigns'.fetch name)) := by
  intro journal
  simp only [Assigns.fetch, same]
  cases assigns.get? name with
  | some value => exact .inl rfl
  | none => exact .inr ⟨name, assigns.names, assigns'.names, journal, rfl, rfl⟩

theorem invoke {registry : Registry} (ignores : registry.IgnoresAssigns) {name : String}
    {target : NamedFunction} (found : registry.find? name = some target) (context : Context)
    (assigns : Assigns) (args : List Value) :
    Lockstep (Walk.invoke context target args)
      (Walk.invoke (context.withAssigns assigns) target args) := by
  intro journal
  have called (context : Context) : Walk.invoke context target args journal =
      Walk.ofExcept (target.function.respond context journal args)
        (⟨target.name, args, target.function.note args⟩ :: journal) := rfl
  rw [called, called, ignores found context assigns journal args]
  exact .inl rfl

theorem collect {step step' : Value -> Walk (Option Value)}
    (each : ∀ item, Lockstep (step item) (step' item)) (items : List Value) :
    Lockstep (Walk.collect step items) (Walk.collect step' items) := by
  induction items with
  | nil => exact .refl _
  | cons item rest inductionHypothesis =>
      exact (each item).bind fun _ => inductionHypothesis.bind fun _ => .refl _

end Lockstep
end Walk

open Walk

/-! ## Expressions -/

/-- Assigns agree on the names that stand in an expression. -/
def Expr.Alike (assigns assigns' : Assigns) (exprs : List Expr) : Prop :=
  ∀ name, .assign name ∈ exprs -> assigns'.get? name = assigns.get? name

namespace Expr

variable {registry : Registry} {context : Context} {assigns : Assigns} {scope : Scope}

theorem Alike.append {first second : List Expr}
    (alike : Alike context.assigns assigns (first ++ second)) :
    Alike context.assigns assigns first ∧ Alike context.assigns assigns second :=
  ⟨fun name member => alike name (List.mem_append_left second member),
    fun name member => alike name (List.mem_append_right first member)⟩

theorem Alike.tail {first : Expr} {rest : List Expr}
    (alike : Alike context.assigns assigns (first :: rest)) :
    Alike context.assigns assigns rest :=
  fun name member => alike name (List.mem_cons_of_mem first member)

/-- A call of a function that the registry has, or the fault that it has
none. -/
theorem invoke_lockstep {α : Type} (ignores : registry.IgnoresAssigns) (context : Context)
    (assigns : Assigns) (name : String) {next next' : NamedFunction -> Walk α}
    (each : ∀ target, (∀ args, Lockstep (invoke context target args)
      (invoke (context.withAssigns assigns) target args)) ->
        Lockstep (next target) (next' target)) :
    Lockstep (Walk.ofReference (function registry name) >>= next)
      (Walk.ofReference (function registry name) >>= next') := by
  cases known : registry.find? name with
  | none =>
      simp only [function, known]
      exact .refl _
  | some target =>
      simp only [function, known]
      exact each target fun args => .invoke ignores known context assigns args

mutual

/-- Evaluating an expression depends on the assigns that it names. -/
theorem eval_lockstep (ignores : registry.IgnoresAssigns) : (expr : Expr) ->
    Alike context.assigns assigns expr.parts ->
    Lockstep (eval registry context scope expr)
      (eval registry (context.withAssigns assigns) scope expr)
  | .lit _, _ => .refl _
  | .assign _, alike => .fetch (alike _ (List.mem_singleton_self _))
  | .var _, _ => .refl _
  | .list items, alike => (evalAll_lockstep ignores items alike.tail).bind fun _ => .refl _
  | .tuple items, alike => (evalAll_lockstep ignores items alike.tail).bind fun _ => .refl _
  | .attr object _, alike => (eval_lockstep ignores object alike.tail).bind fun _ => .refl _
  | .index object key, alike =>
      (eval_lockstep ignores object alike.tail.append.1).bind fun _ =>
        (eval_lockstep ignores key alike.tail.append.2).bind fun _ => .refl _
  | .call name args, alike =>
      invoke_lockstep ignores context assigns name fun _ answers =>
        (evalAll_lockstep ignores args alike.tail).bind answers
  | .unary _ operand, alike => (eval_lockstep ignores operand alike.tail).bind fun _ => .refl _
  | .binary op left right, alike => by
      have right' := eval_lockstep ignores right alike.tail.append.2
      refine (eval_lockstep ignores left alike.tail.append.1).bind fun left => ?_
      have choice (holds : Bool) {yes no yes' no' : Walk Value} (first : Lockstep yes yes')
          (second : Lockstep no no') :
          Lockstep (if holds then yes else no) (if holds then yes' else no') := by
        cases holds with
        | true => exact first
        | false => exact second
      cases op with
      | orWord => exact choice _ (.refl _) right'
      | orSign => exact choice _ (.refl _) right'
      | andWord => exact choice _ right' (.refl _)
      | andSign => exact choice _ right' (.refl _)
      | strict op => exact right'.bind fun _ => .refl _
  | .group inner, alike => eval_lockstep ignores inner alike.tail

theorem evalAll_lockstep (ignores : registry.IgnoresAssigns) : (exprs : List Expr) ->
    Alike context.assigns assigns (partsOfAll exprs) ->
    Lockstep (evalAll registry context scope exprs)
      (evalAll registry (context.withAssigns assigns) scope exprs)
  | [], _ => .refl _
  | expr :: rest, alike =>
      (eval_lockstep ignores expr alike.append.1).bind fun _ =>
        (evalAll_lockstep ignores rest alike.append.2).bind fun _ => .refl _

end

end Expr

/-! ## Nodes -/

/-- Assigns agree on the names that stand in what a tag holds. -/
def Holding.Alike (assigns assigns' : Assigns) : Holding -> Prop
  | .expr held => Expr.Alike assigns assigns' held.parts
  | _ => True

namespace Node

/-- Assigns agree on the names that stand in nodes. -/
def AllAlike (assigns assigns' : Assigns) (nodes : List Node) : Prop :=
  Everywhere (fun _ => Holding.Alike assigns assigns') nodes

variable {packing : Packing} {registry : Registry} {context : Context} {assigns : Assigns}

/-- A round of a loop, or a clause. -/
theorem body_lockstep {α : Type} {nodes : List Node}
    (walked : ∀ scope, Lockstep (walkAll packing registry context scope nodes)
      (walkAll packing registry (context.withAssigns assigns) scope nodes))
    (pattern : Pattern) (value : Value) (scope : Scope) (wrap : Value -> α)
    {missed missed' : Walk α} (otherwise : Lockstep missed missed') :
    Lockstep
      (match pattern.match? [] value with
      | some bound => do
          let parts ← walkAll packing registry context (bound ++ scope) nodes
          return wrap (.markup (packing.pack parts))
      | none => missed)
      (match pattern.match? [] value with
      | some bound => do
          let parts ← walkAll packing registry (context.withAssigns assigns) (bound ++ scope) nodes
          return wrap (.markup (packing.pack parts))
      | none => missed') := by
  cases pattern.match? [] value with
  | none => exact otherwise
  | some bound => exact (walked _).bind fun _ => .refl _

mutual

theorem walkAction_lockstep (ignores : registry.IgnoresAssigns) : (action : Action) ->
    (scope : Scope) ->
    (∀ holding ∈ action.holdings, holding.Alike context.assigns assigns) ->
    (∀ block ∈ action.blocks, AllAlike context.assigns assigns block.2) ->
    Lockstep (walkAction packing registry context scope action)
      (walkAction packing registry (context.withAssigns assigns) scope action)
  | .value expr, _, held, _ =>
      Expr.eval_lockstep ignores expr (held (.expr expr) (List.mem_singleton_self _))
  | .cond negated test holds fails, scope, held, inner => by
      have yes := walkAll_lockstep ignores holds scope (inner ([], holds) List.mem_cons_self)
      have no := walkAll_lockstep ignores fails scope
        (inner ([], fails) (List.mem_cons_of_mem _ List.mem_cons_self))
      refine (Expr.eval_lockstep ignores test (held (.expr test) List.mem_cons_self)).bind
        fun test => ?_
      split
      · exact yes.bind fun _ => .refl _
      · exact no.bind fun _ => .refl _
  | .loop pattern source body, scope, held, inner => by
      have walked (scope : Scope) := walkAll_lockstep ignores body scope
        (inner ([pattern], body) List.mem_cons_self)
      refine (Expr.eval_lockstep ignores source (held (.expr source) List.mem_cons_self)).bind
        fun source => ?_
      refine (Lockstep.refl _).bind fun items => ?_
      refine (Lockstep.collect (fun item => ?_) items).bind fun _ => .refl _
      exact body_lockstep walked pattern item scope some (.refl _)
  | .choice subject clauses, scope, held, inner => by
      have bodies : ∀ clause ∈ clauses, AllAlike context.assigns assigns clause.body :=
        fun clause member => inner _ (List.mem_map_of_mem member)
      refine (Expr.eval_lockstep ignores subject (held (.expr subject) List.mem_cons_self)).bind
        fun subject => ?_
      exact walkClauses_lockstep ignores clauses scope subject bodies
  | .callBlock name args body, scope, held, inner => by
      have passed : Expr.Alike context.assigns assigns (Expr.partsOfAll args) := by
        intro known member
        rcases Expr.mem_partsOfAll_iff.mp member with ⟨arg, inside, part⟩
        exact held (.expr arg) (List.mem_cons_of_mem _ (List.mem_map_of_mem inside)) known part
      refine Expr.invoke_lockstep ignores context assigns name fun target answers => ?_
      refine (Expr.evalAll_lockstep ignores args passed).bind fun args => ?_
      exact (walkAll_lockstep ignores body scope (inner ([], body) List.mem_cons_self)).bind
        fun parts => answers _

theorem walkClauses_lockstep (ignores : registry.IgnoresAssigns) : (clauses : List Clause) ->
    (scope : Scope) -> (subject : Value) ->
    (∀ clause ∈ clauses, AllAlike context.assigns assigns clause.body) ->
    Lockstep (walkClauses packing registry context scope subject clauses)
      (walkClauses packing registry (context.withAssigns assigns) scope subject clauses)
  | [], _, _, _ => .refl _
  | .clause pattern body :: rest, scope, subject, inner => by
      rcases List.forall_mem_cons.mp inner with ⟨first, others⟩
      exact body_lockstep (fun scope => walkAll_lockstep ignores body scope first) pattern subject
        scope id (walkClauses_lockstep ignores rest scope subject others)

theorem walk_lockstep (ignores : registry.IgnoresAssigns) : (node : Node) -> (scope : Scope) ->
    (∀ holding ∈ node.holdings, holding.Alike context.assigns assigns) ->
    (∀ block ∈ node.blocks, AllAlike context.assigns assigns block.2) ->
    Lockstep (walk packing registry context scope node)
      (walk packing registry (context.withAssigns assigns) scope node)
  | .text _, _, _, _ => .refl _
  | .comment _, _, _, _ => .refl _
  | .print action, scope, held, inner =>
      (walkAction_lockstep ignores action scope held inner).bind fun _ => .refl _
  | .silent action, scope, held, inner =>
      (walkAction_lockstep ignores action scope held inner).bind fun _ => .refl _
  | .bind _ expr, _, held, _ =>
      (Expr.eval_lockstep ignores expr (held (.expr expr) List.mem_cons_self)).bind
        fun _ => .refl _

/-- Walking nodes depends on the assigns that they name. -/
theorem walkAll_lockstep (ignores : registry.IgnoresAssigns) : (nodes : List Node) ->
    (scope : Scope) -> AllAlike context.assigns assigns nodes ->
    Lockstep (walkAll packing registry context scope nodes)
      (walkAll packing registry (context.withAssigns assigns) scope nodes)
  | [], _, _ => .refl _
  | node :: rest, scope, alike => by
      rcases everywhere_cons_iff.mp alike with ⟨held, inner, others⟩
      exact (walk_lockstep ignores node scope held inner).bind fun result =>
        (walkAll_lockstep ignores rest result.2 others).bind fun _ => .refl _

end

end Node
end HtmlTemplate
