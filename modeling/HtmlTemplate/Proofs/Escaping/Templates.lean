import HtmlTemplate.Proofs.Escaping.Values
import HtmlTemplate.Proofs.Rendering.Correctness

namespace HtmlTemplate

/-!
# Templates without calls inject nothing

A template is plain if it calls no function, builds no tuple and has only
neutral text.  If such a template is rendered with untrusted assigns, then
everything that it prints is neutral: an assign cannot reach the output as a
tag, as the end of an attribute value, or as the beginning of an entity that
was not written out in full.

Registry, configuration and tokens are arbitrary.  The argument is about the
walk of the template, whose values are all harmless; the compiled program
renders the same.
-/

namespace Expr

mutual

/-- There are no calls and no tuples.  The pairs of a keyword list are
tuples. -/
def Plain : Expr -> Prop
  | .lit _ => True
  | .assign _ => True
  | .var _ => True
  | .list items => AllPlain items
  | .tuple _ => False
  | .attr object _ => Plain object
  | .index object key => Plain object ∧ Plain key
  | .call _ _ => False
  | .unary _ operand => Plain operand
  | .binary _ left right => Plain left ∧ Plain right
  | .group inner => Plain inner

def AllPlain : List Expr -> Prop
  | [] => True
  | expr :: rest => Plain expr ∧ AllPlain rest

end

end Expr

namespace Node

mutual

/-- The expressions are plain, and no block is given to a call. -/
def PlainAction : Action -> Prop
  | .value expr => expr.Plain
  | .cond _ test holds fails => test.Plain ∧ AllPlain holds ∧ AllPlain fails
  | .loop _ source body => source.Plain ∧ AllPlain body
  | .choice subject clauses => subject.Plain ∧ PlainClauses clauses
  | .callBlock _ _ _ => False

def PlainClauses : List Clause -> Prop
  | [] => True
  | .clause _ body :: rest => AllPlain body ∧ PlainClauses rest

/-- Text is neutral, and so are the parts of a tag.  A comment is not
printed. -/
def Plain : Node -> Prop
  | .text content => NeutralText content
  | .comment _ => True
  | .print action => PlainAction action
  | .silent action => PlainAction action
  | .bind _ expr => expr.Plain

def AllPlain : List Node -> Prop
  | [] => True
  | node :: rest => Plain node ∧ AllPlain rest

end

end Node

namespace Walk

variable {α β : Type}

/-- If a walk succeeds, its result is of a kind. -/
def Yields (walk : Walk α) (good : α -> Prop) : Prop :=
  ∀ journal result after, walk journal = .ok result after -> good result

namespace Yields

variable {good : α -> Prop}

theorem pure {result : α} (holds : good result) : Yields (Pure.pure result) good := by
  intro journal found after ran
  cases ran
  exact holds

theorem throw (error : Error) : Yields (MonadExcept.throw error) good := by
  intro journal found after ran
  cases ran

theorem bind {walk : Walk α} {rest : α -> Walk β} {good' : β -> Prop} (first : Yields walk good)
    (second : ∀ result, good result -> Yields (rest result) good') :
    Yields (walk >>= rest) good' := by
  intro journal found after ran
  simp only [Bind.bind, EStateM.bind] at ran
  split at ran
  · rename_i head
    exact second _ (first _ _ _ head) _ _ _ ran
  · cases ran

theorem ofExcept {result : Except Error α} (holds : ∀ found, result = .ok found -> good found) :
    Yields (Walk.ofExcept result) good := by
  cases result with
  | ok found => exact .pure (holds found rfl)
  | error error => exact .throw error

theorem ofReference {result : Except CompileFault α}
    (holds : ∀ found, result = .ok found -> good found) :
    Yields (Walk.ofReference result) good := by
  cases result with
  | ok found => exact .pure (holds found rfl)
  | error fault => exact .throw _

theorem collect {step : Value -> Walk (Option Value)} {kind kept : Value -> Prop}
    (round : ∀ item, kind item -> Yields (step item) fun result => ∀ value ∈ result, kept value) :
    (items : List Value) -> (∀ item ∈ items, kind item) ->
    Yields (Walk.collect step items) fun results => ∀ value ∈ results, kept value
  | [], _ => .pure (List.forall_mem_nil _)
  | item :: rest, each => by
      have head := List.forall_mem_cons.mp each
      refine (round item head.1).bind fun result good => ?_
      refine (collect round rest head.2).bind fun others good' => .pure ?_
      intro value member
      rcases List.mem_append.mp member with inFirst | inRest
      · exact good value (Option.mem_toList.mp inFirst)
      · exact good' value inRest

end Yields
end Walk

/-- The values that occur while a plain template is rendered. -/
abbrev Value.Kept (value : Value) : Prop :=
  value.Harmless Markup.IsNeutral

/-- Names stand for such values only. -/
def Scope.Kept (scope : Scope) : Prop :=
  ∀ entry ∈ scope, entry.2.Kept

theorem Scope.Kept.nil : Scope.Kept [] :=
  List.forall_mem_nil _

theorem Scope.Kept.append {first second : Scope} (left : first.Kept) (right : second.Kept) :
    Scope.Kept (first ++ second) :=
  List.forall_mem_append.mpr ⟨left, right⟩

theorem Literal.kept {literal : Literal} {value : Value} (denoted : literal.denote = .ok value) :
    value.Kept := by
  have scalar := isScalar_of_denote denoted
  cases value with
  | nil => exact .nil
  | bool flag => exact .bool flag
  | int number => exact .int number
  | float number => exact .float number
  | str text => exact .str text
  | atom name => exact .atom name
  | _ => cases scalar

namespace Pattern

mutual

/-- A pattern binds parts of the value that it matches. -/
theorem kept_match? : (pattern : Pattern) -> {bound result : Scope} -> {value : Value} ->
    bound.Kept -> value.Kept -> pattern.match? bound value = some result -> result.Kept
  | .wildcard, bound, result, value, before, kept, matched => by
      cases matched
      exact before
  | .var name, bound, result, value, before, kept, matched => by
      simp only [match?] at matched
      split at matched
      · split at matched
        · cases matched
          exact before
        · cases matched
      · cases matched
        exact List.forall_mem_cons.mpr ⟨kept, before⟩
  | .lit literal, bound, result, value, before, kept, matched => by
      simp only [match?] at matched
      split at matched
      · split at matched
        · cases matched
          exact before
        · cases matched
      · cases matched
  | .tuple patterns, bound, result, value, before, kept, matched => by
      cases kept with
      | tuple _ inner => exact kept_matchAll? patterns before inner matched
      | _ => cases matched
  | .list patterns, bound, result, value, before, kept, matched => by
      cases kept with
      | list inner => exact kept_matchAll? patterns before inner matched
      | _ => cases matched

theorem kept_matchAll? : (patterns : List Pattern) -> {bound result : Scope} ->
    {items : List Value} -> bound.Kept -> (∀ item ∈ items, item.Kept) ->
    matchAll? bound patterns items = some result -> result.Kept
  | [], bound, result, items, before, inner, matched => by
      cases items with
      | nil =>
          cases matched
          exact before
      | cons _ _ => cases matched
  | pattern :: patterns, bound, result, items, before, inner, matched => by
      cases items with
      | nil => cases matched
      | cons item items =>
          have both := List.forall_mem_cons.mp inner
          simp only [matchAll?] at matched
          split at matched
          · rename_i between head
            exact kept_matchAll? patterns (kept_match? pattern before both.1 head) both.2 matched
          · cases matched

end

end Pattern

namespace Expr

variable {registry : Registry} {context : Context} {scope : Scope}

mutual

/-- Plain expressions evaluate to harmless values. -/
theorem eval_kept (assigns : Scope.Kept context.assigns.entries) (visible : scope.Kept) :
    (expr : Expr) -> expr.Plain -> (expr.eval registry context scope).Yields Value.Kept
  | .lit literal, plain => .ofReference fun _ denoted => Literal.kept denoted
  | .assign name, plain => by
      refine .ofExcept fun value fetched => ?_
      exact Value.Harmless.lookUp? assigns ((Assigns.fetch_eq_ok_iff ..).mp fetched)
  | .var name, plain => by
      refine .ofReference fun value fetched => ?_
      unfold Scope.fetch at fetched
      split at fetched
      · rename_i found
        cases fetched
        exact Value.Harmless.lookUp? visible found
      · cases fetched
  | .list items, plain => by
      refine (evalAll_kept assigns visible items plain).bind fun values inner => ?_
      exact .pure (.list inner)
  | .attr object name, plain => by
      refine (eval_kept assigns visible object plain).bind fun value kept => ?_
      exact .ofExcept fun _ found => kept.field found
  | .index object key, plain => by
      refine (eval_kept assigns visible object plain.1).bind fun value kept => ?_
      refine (eval_kept assigns visible key plain.2).bind fun _ _ => ?_
      exact .ofExcept fun _ found => kept.index found
  | .unary op operand, plain => by
      refine (eval_kept assigns visible operand plain).bind fun _ _ => ?_
      exact .ofExcept fun _ applied => .unary applied
  | .binary op left right, plain => by
      have right' := eval_kept assigns visible right plain.2
      refine (eval_kept assigns visible left plain.1).bind fun value kept => ?_
      cases op with
      | strict op =>
          refine right'.bind fun _ _ => ?_
          exact .ofExcept fun _ applied => .binary applied
      | orWord | orSign =>
          simp only
          split
          · exact .pure kept
          · exact right'
      | andWord | andSign =>
          simp only
          split
          · exact right'
          · exact .pure kept
  | .group inner, plain => eval_kept assigns visible inner plain

theorem evalAll_kept (assigns : Scope.Kept context.assigns.entries) (visible : scope.Kept) :
    (exprs : List Expr) -> AllPlain exprs ->
    (evalAll registry context scope exprs).Yields fun values => ∀ value ∈ values, value.Kept
  | [], plain => .pure (List.forall_mem_nil _)
  | expr :: rest, plain => by
      refine (eval_kept assigns visible expr plain.1).bind fun value head => ?_
      refine (evalAll_kept assigns visible rest plain.2).bind fun values tail => ?_
      exact .pure (List.forall_mem_cons.mpr ⟨head, tail⟩)

end

end Expr

/-- Joining neutral parts yields neutral markup, however they are packed. -/
theorem Packing.isNeutral_pack (packing : Packing) {parts : List Part}
    (each : ∀ part ∈ parts, part.content.IsNeutral) : (packing.pack parts).IsNeutral := by
  rw [Markup.IsNeutral, packing.bytes_pack]
  refine Markup.isNeutral_concat fun content member => ?_
  rcases List.mem_map.mp member with ⟨part, inside, rfl⟩
  exact each part inside

namespace Node

variable {packing : Packing} {registry : Registry} {context : Context}

mutual

theorem walkAction_kept (assigns : Scope.Kept context.assigns.entries) :
    (action : Action) -> {scope : Scope} -> scope.Kept -> PlainAction action ->
    (walkAction packing registry context scope action).Yields Value.Kept
  | .value expr, scope, visible, plain => Expr.eval_kept assigns visible expr plain
  | .cond negated test holds fails, scope, visible, plain => by
      refine (Expr.eval_kept assigns visible test plain.1).bind fun _ _ => ?_
      split
      · refine (walkAll_kept assigns holds visible plain.2.1).bind fun parts each => ?_
        exact .pure (.markup (packing.isNeutral_pack each))
      · refine (walkAll_kept assigns fails visible plain.2.2).bind fun parts each => ?_
        exact .pure (.markup (packing.isNeutral_pack each))
  | .loop pattern source body, scope, visible, plain => by
      refine (Expr.eval_kept assigns visible source plain.1).bind fun value kept => ?_
      refine (Walk.Yields.ofExcept fun _ read => kept.enumerate read).bind fun items each => ?_
      refine (Walk.Yields.collect (fun item inside => ?_) items each).bind fun _ results =>
        .pure (.list results)
      split
      · rename_i bound matched
        have inner := Pattern.kept_match? pattern .nil inside
          matched
        refine (walkAll_kept assigns body (inner.append visible) plain.2).bind fun parts each => ?_
        refine .pure fun value same => ?_
        cases same
        exact .markup (packing.isNeutral_pack each)
      · refine .pure fun value impossible => ?_
        cases impossible
  | .choice subject clauses, scope, visible, plain => by
      refine (Expr.eval_kept assigns visible subject plain.1).bind fun value kept => ?_
      exact walkClauses_kept assigns clauses visible kept plain.2

theorem walkClauses_kept (assigns : Scope.Kept context.assigns.entries) :
    (clauses : List Clause) -> {scope : Scope} -> {subject : Value} -> scope.Kept ->
    subject.Kept -> PlainClauses clauses ->
    (walkClauses packing registry context scope subject clauses).Yields Value.Kept
  | [], scope, subject, visible, kept, plain => .throw _
  | .clause pattern body :: rest, scope, subject, visible, kept, plain => by
      simp only [walkClauses]
      split
      · rename_i bound matched
        have inner := Pattern.kept_match? pattern .nil kept
          matched
        refine (walkAll_kept assigns body (inner.append visible) plain.1).bind fun parts each => ?_
        exact .pure (.markup (packing.isNeutral_pack each))
      · exact walkClauses_kept assigns rest visible kept plain.2

/-- A node prints neutral markup, and binds names to harmless values. -/
theorem walk_kept (assigns : Scope.Kept context.assigns.entries) :
    (node : Node) -> {scope : Scope} -> scope.Kept -> node.Plain ->
    (walk packing registry context scope node).Yields fun result =>
      (∀ part ∈ result.1, part.content.IsNeutral) ∧ result.2.Kept
  | .text content, scope, visible, plain => by
      refine .pure ⟨?_, visible⟩
      exact List.forall_mem_singleton.mpr (Markup.isNeutral_raw plain)
  | .comment _, scope, visible, plain => .pure ⟨List.forall_mem_nil _, visible⟩
  | .print action, scope, visible, plain => by
      refine (walkAction_kept assigns action visible plain).bind fun value kept => ?_
      refine (Walk.Yields.ofExcept fun _ printed => kept.toMarkup printed).bind
        fun content neutral => ?_
      exact .pure ⟨List.forall_mem_singleton.mpr neutral, visible⟩
  | .silent action, scope, visible, plain => by
      refine (walkAction_kept assigns action visible plain).bind fun _ _ => ?_
      exact .pure ⟨List.forall_mem_nil _, visible⟩
  | .bind pattern expr, scope, visible, plain => by
      refine (Expr.eval_kept assigns visible expr plain).bind fun value kept => ?_
      split
      · rename_i bound matched
        have inner := Pattern.kept_match? pattern .nil kept
          matched
        exact .pure ⟨List.forall_mem_nil _, inner.append visible⟩
      · exact .throw _

theorem walkAll_kept (assigns : Scope.Kept context.assigns.entries) :
    (nodes : List Node) -> {scope : Scope} -> scope.Kept -> AllPlain nodes ->
    (walkAll packing registry context scope nodes).Yields fun parts =>
      ∀ part ∈ parts, part.content.IsNeutral
  | [], scope, visible, plain => .pure (List.forall_mem_nil _)
  | node :: rest, scope, visible, plain => by
      refine (walk_kept assigns node visible plain.1).bind fun result first => ?_
      refine (walkAll_kept assigns rest first.2 plain.2).bind fun others second => ?_
      exact .pure (List.forall_mem_append.mpr ⟨first.1, second⟩)

end

end Node

namespace Program

variable {registry : Registry} {nodes : List Node} {program : Program} {context : Context}
  {content : Markup} {journal : Journal}

/-- A plain template that is rendered with untrusted assigns prints neutral
bytes only. -/
theorem neutral_of_untrusted (compiled : compile registry nodes = .ok program)
    (plain : Node.AllPlain nodes)
    (untrusted : ∀ entry ∈ context.assigns.entries, entry.2.Untrusted)
    (rendered : program.render context = (.ok content, journal)) :
    Neutral content.bytes.data.toList := by
  have assigns : Scope.Kept context.assigns.entries :=
    fun entry member => (untrusted entry member).mono fun _ impossible => nomatch impossible
  have follows := follows_start compiled context
  simp only [Follows, start] at follows
  simp only [render, EStateM.run, start] at rendered
  cases walked : Node.walkAll .compiled registry context [] nodes [] with
  | ok parts after =>
      rw [walked] at follows
      rcases follows with ⟨found, last, ran, _, _, same⟩
      rw [ran] at rendered
      cases rendered
      rw [same]
      have each := Node.walkAll_kept assigns nodes .nil plain _ _ _ walked
      exact Packing.compiled.isNeutral_pack each
  | error error after =>
      rw [walked] at follows
      rcases follows with ⟨last, ran, _⟩
      rw [ran] at rendered
      cases rendered

/-- Rows of an assign that try to open a tag and to end an attribute. -/
theorem neutral_of_untrusted_rows :
    let body : List Node := [.text "row: ", .print (.value (.var "x"))]
    let nodes : List Node := [.print (.loop (.var "x") (.assign "rows") body)]
    let context : Context := { assigns := ⟨[("rows", .list [.str "<b>", .str "\" x"])]⟩ }
    ∃ program content, compile [] nodes = .ok program ∧ Node.AllPlain nodes ∧
      (∀ entry ∈ context.assigns.entries, entry.2.Untrusted) ∧
      program.render context = (.ok content, []) ∧ Neutral content.bytes.data.toList := by
  intro body nodes context
  have plain : Node.AllPlain nodes :=
    ⟨⟨trivial, (by decide : NeutralText "row: "), trivial, trivial⟩, trivial⟩
  have untrusted : ∀ entry ∈ context.assigns.entries, entry.2.Untrusted := by
    refine List.forall_mem_singleton.mpr (.list ?_)
    exact List.forall_mem_cons.mpr ⟨.str _, List.forall_mem_singleton.mpr (.str _)⟩
  refine ⟨_, _, rfl, plain, untrusted, rfl, ?_⟩
  exact neutral_of_untrusted (rfl : compile [] nodes = _) plain untrusted rfl

end Program
end HtmlTemplate
