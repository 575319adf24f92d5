import HtmlTemplate.Program.Body
import HtmlTemplate.Program.Denotation
import HtmlTemplate.Value.Access
import HtmlTemplate.Context

namespace HtmlTemplate

/-!
# Walking a template

A template can be rendered without being compiled.  A walk visits the nodes in
the order of the source and keeps the values of the names in a scope.  A
binding adds to the scope, the end of a block takes its bindings away, and
every round of a loop begins with the scope around the loop.  Whatever is
printed is evaluated when it is reached.

The walk knows neither temporaries nor locals, it prints literals like any
other expression, and it fails where it reaches a name that is not bound or a
literal that denotes nothing.

A block yields its parts in order.  How the bytes of the parts are cut into the
pieces of one markup is not fixed here, since equality of markup does not see
it; a `Packing` is any way to do so that keeps the bytes.
-/

/-- The values of the names that are visible, the innermost binding first. -/
abbrev Scope := List (String × Value)

/-- A computation of a walk.  All that it changes is the journal. -/
abbrev Walk := EStateM Error Journal

namespace Walk

variable {α : Type}

/-- Succeed or fail without a call. -/
def ofExcept : Except Error α -> Walk α
  | .ok result => pure result
  | .error error => throw error

/-- Use what a part of the template refers to, or fail because it does not
exist. -/
def ofReference : Except CompileFault α -> Walk α
  | .ok result => pure result
  | .error fault => throw (.compile fault)

/-- Call a function and enter the call in the journal, whatever it answers. -/
def invoke (context : Context) (target : NamedFunction) (args : List Value) : Walk Value := do
  let journal ← get
  set (⟨target.name, args, target.function.note args⟩ :: journal : Journal)
  ofExcept (target.function.respond context journal args)

/-- What a step yields for the values it does not skip, in order. -/
def collect (step : Value -> Walk (Option Value)) : List Value -> Walk (List Value)
  | [] => return []
  | item :: rest => do
      let result ← step item
      let others ← collect step rest
      return result.toList ++ others

end Walk

namespace Scope

/-- The value of a name. -/
def fetch (scope : Scope) (name : String) : Except CompileFault Value :=
  match lookUp? name scope with
  | some value => .ok value
  | none => .error (.undefinedVariable name)

end Scope

namespace Pattern

mutual

/-- Match a value.  `bound` holds the names of the same pattern that have a
value already; a name that comes again has to meet an equal one. -/
def match? (bound : Scope) : Pattern -> Value -> Option Scope
  | .wildcard, _ => some bound
  | .var name, value =>
      match lookUp? name bound with
      | some first => if first == value then some bound else none
      | none => some ((name, value) :: bound)
  | .lit literal, value =>
      match literal.denote with
      | .ok expected => if expected == value then some bound else none
      | .error _ => none
  | .tuple patterns, .tuple items => matchAll? bound patterns items
  | .list patterns, .list items => matchAll? bound patterns items
  | _, _ => none

/-- Match values one by one.  There have to be as many as there are patterns. -/
def matchAll? (bound : Scope) : List Pattern -> List Value -> Option Scope
  | [], [] => some bound
  | pattern :: patterns, item :: items =>
      match match? bound pattern item with
      | some bound => matchAll? bound patterns items
      | none => none
  | _, _ => none

end

end Pattern

namespace Expr

variable (registry : Registry) (context : Context) (scope : Scope)

/-- The function of a name. -/
def function (name : String) : Except CompileFault NamedFunction :=
  match registry.find? name with
  | some function => .ok function
  | none => .error (.undefinedFunction name)

mutual

/-- Evaluate an expression. -/
def eval : Expr -> Walk Value
  | .lit literal => Walk.ofReference literal.denote
  | .assign name => Walk.ofExcept (context.assigns.fetch name)
  | .var name => Walk.ofReference (scope.fetch name)
  | .list items => do
      let items ← evalAll items
      return .list items
  | .tuple items => do
      let items ← evalAll items
      return .tuple items
  | .attr object name => do
      let object ← eval object
      Walk.ofExcept (object.field name)
  | .index object key => do
      let object ← eval object
      let key ← eval key
      Walk.ofExcept (object.index key)
  | .call name args => do
      let target ← Walk.ofReference (function registry name)
      let args ← evalAll args
      Walk.invoke context target args
  | .unary op operand => do
      let operand ← eval operand
      Walk.ofExcept (op.apply operand)
  | .binary op left right => do
      let left ← eval left
      match op with
      | .orWord => if left.isTruthy then return left else eval right
      | .orSign => if left.isTruthy then return left else eval right
      | .andWord => if left.isTruthy then eval right else return left
      | .andSign => if left.isTruthy then eval right else return left
      | .strict op => do
          let right ← eval right
          Walk.ofExcept (op.apply left right)
  | .group inner => eval inner

/-- Evaluate expressions in order. -/
def evalAll : List Expr -> Walk (List Value)
  | [] => return []
  | expr :: rest => do
      let value ← eval expr
      let values ← evalAll rest
      return value :: values

end

end Expr

/-- A printed part of a block: the node and what it printed. -/
structure Part where
  node : Node
  content : Markup

/-- A way to join the parts of a block to one markup.  It keeps their bytes. -/
structure Packing where
  pack : List Part -> Markup
  bytes_pack : ∀ parts, (pack parts).bytes = (Markup.concat (parts.map Part.content)).bytes

namespace Node

variable (packing : Packing) (registry : Registry) (context : Context)

mutual

/-- Evaluate what a tag stands for.  Blocks yield markup, a loop a list of
it. -/
def walkAction (scope : Scope) : Action -> Walk Value
  | .value expr => expr.eval registry context scope
  | .cond negated test holds fails => do
      let test ← test.eval registry context scope
      if test.isTruthy != negated then
        let parts ← walkAll scope holds
        return .markup (packing.pack parts)
      else
        let parts ← walkAll scope fails
        return .markup (packing.pack parts)
  | .loop pattern source body => do
      let source ← source.eval registry context scope
      let items ← Walk.ofExcept source.enumerate
      let results ← Walk.collect (fun item =>
        match pattern.match? [] item with
        | some bound => do
            let parts ← walkAll (bound ++ scope) body
            return some (.markup (packing.pack parts))
        | none => return none) items
      return .list results
  | .choice subject clauses => do
      let subject ← subject.eval registry context scope
      walkClauses scope subject clauses
  | .callBlock name args body => do
      let target ← Walk.ofReference (Expr.function registry name)
      let args ← Expr.evalAll registry context scope args
      let parts ← walkAll scope body
      Walk.invoke context target (Body.attach args (.markup (packing.pack parts)))

/-- Walk the first clause that a value matches. -/
def walkClauses (scope : Scope) (subject : Value) : List Clause -> Walk Value
  | [] => throw (.noCaseClause subject.display)
  | .clause pattern body :: rest =>
      match pattern.match? [] subject with
      | some bound => do
          let parts ← walkAll (bound ++ scope) body
          return .markup (packing.pack parts)
      | none => walkClauses scope subject rest

/-- Walk one node: what it prints, and the scope after it. -/
def walk (scope : Scope) : Node -> Walk (List Part × Scope)
  | .text content => return ([⟨.text content, .raw content⟩], scope)
  | .comment _ => return ([], scope)
  | .print action => do
      let value ← walkAction scope action
      let content ← Walk.ofExcept value.toMarkup
      return ([⟨.print action, content⟩], scope)
  | .silent action => do
      let _ ← walkAction scope action
      return ([], scope)
  | .bind pattern expr => do
      let value ← expr.eval registry context scope
      match pattern.match? [] value with
      | some bound => return ([], bound ++ scope)
      | none => throw (.noMatch value.display)

/-- Walk the nodes of a block in order. -/
def walkAll (scope : Scope) : List Node -> Walk (List Part)
  | [] => return []
  | node :: rest => do
      let (parts, scope) ← walk scope node
      let others ← walkAll scope rest
      return parts ++ others

end

/-- Render a template by walking it.  The journal comes with the result, also
with an error. -/
def render (nodes : List Node) : Except Error Markup × Journal :=
  match walkAll packing registry context [] nodes [] with
  | .ok parts journal => (.ok (packing.pack parts), journal)
  | .error error journal => (.error error, journal)

end Node
end HtmlTemplate
