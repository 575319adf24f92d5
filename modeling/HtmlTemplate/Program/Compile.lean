import HtmlTemplate.Program.Basic
import HtmlTemplate.Program.Denotation

namespace HtmlTemplate

/-!
# Compiling templates

A template is compiled against a registry of functions.  Printed expressions
get a temporary each, and a slot in the block they stand in; text, and literals
whose text is known, become fixed slots.  A name is visible from its binding to
the end of the block around it, and a new binding hides an old one.

Expressions bind nothing, so they are compiled without any state.  Patterns
hand out locals, and blocks hand out temporaries besides.
-/

/-- The locals handed out so far, and those that the names of the pattern in
progress were given. -/
structure Bindings where
  next : Nat
  bound : List (String × Nat) := []

/-- Temporaries and locals handed out so far, across all blocks, and the names
that are visible, the innermost first. -/
structure Layout where
  temps : Nat := 0
  locals : Nat := 0
  names : List (String × Nat) := []

/-- A compilation step. -/
abbrev Compilation := StateT Layout (Except CompileFault)

namespace Pattern

mutual

/-- Compile a pattern. -/
def compile (bindings : Bindings) : Pattern -> Except CompileFault (Matcher × Bindings)
  | .wildcard => .ok (.any, bindings)
  | .var name =>
      match lookUp? name bindings.bound with
      | some slot => .ok (.same slot, bindings)
      | none =>
          let bound := (name, bindings.next) :: bindings.bound
          .ok (.bind bindings.next, ⟨bindings.next + 1, bound⟩)
  | .lit literal =>
      match literal.denote with
      | .ok value => .ok (.equals value, bindings)
      | .error fault => .error fault
  | .tuple items =>
      match compileAll bindings items with
      | .ok (matchers, bindings) => .ok (.tuple matchers, bindings)
      | .error fault => .error fault
  | .list items =>
      match compileAll bindings items with
      | .ok (matchers, bindings) => .ok (.list matchers, bindings)
      | .error fault => .error fault

/-- Compile several patterns that bind names together. -/
def compileAll (bindings : Bindings) :
    List Pattern -> Except CompileFault (List Matcher × Bindings)
  | [] => .ok ([], bindings)
  | pattern :: rest =>
      match compile bindings pattern with
      | .error fault => .error fault
      | .ok (matcher, bindings) =>
          match compileAll bindings rest with
          | .ok (matchers, bindings) => .ok (matcher :: matchers, bindings)
          | .error fault => .error fault

end

/-- Compile a pattern and make its names visible. -/
def declare (pattern : Pattern) : Compilation Matcher := do
  let layout ← get
  let (matcher, bindings) ← (pattern.compile ⟨layout.locals, []⟩ : Except CompileFault _)
  set { layout with locals := bindings.next, names := bindings.bound ++ layout.names }
  return matcher

end Pattern

namespace Expr

/-- The function of a name. -/
def resolve (registry : Registry) (name : String) : Except CompileFault NamedFunction :=
  match registry.find? name with
  | some function => .ok function
  | none => .error (.undefinedFunction name)

mutual

/-- Compile an expression, given the functions and the visible names. -/
def compile (registry : Registry) (names : List (String × Nat)) : Expr -> Except CompileFault Code
  | .lit literal => do
      let value ← literal.denote
      return .const value
  | .assign name => return .assign name
  | .var name =>
      match lookUp? name names with
      | some slot => return .slot slot
      | none => throw (.undefinedVariable name)
  | .list items => do
      let items ← compileAll registry names items
      return .list items
  | .tuple items => do
      let items ← compileAll registry names items
      return .tuple items
  | .attr object name => do
      let object ← compile registry names object
      return .attr object name
  | .index object key => do
      let object ← compile registry names object
      let key ← compile registry names key
      return .index object key
  | .call name args => do
      let function ← resolve registry name
      let args ← compileAll registry names args
      return .call function args
  | .unary op operand => do
      let operand ← compile registry names operand
      return .unary op operand
  | .binary op left right => do
      let left ← compile registry names left
      let right ← compile registry names right
      match op with
      | .orWord => return .either left right
      | .orSign => return .either left right
      | .andWord => return .both left right
      | .andSign => return .both left right
      | .strict op => return .binary op left right
  | .group inner => compile registry names inner

/-- Compile several expressions in order. -/
def compileAll (registry : Registry) (names : List (String × Nat)) :
    List Expr -> Except CompileFault (List Code)
  | [] => return []
  | expr :: rest => do
      let code ← compile registry names expr
      let codes ← compileAll registry names rest
      return code :: codes

end

/-- Compile an expression with the names that are visible now. -/
def compileHere (registry : Registry) (expr : Expr) : Compilation Code := do
  let layout ← get
  (expr.compile registry layout.names : Except CompileFault _)

/-- Compile several expressions with the names that are visible now. -/
def compileAllHere (registry : Registry) (exprs : List Expr) : Compilation (List Code) := do
  let layout ← get
  (compileAll registry layout.names exprs : Except CompileFault _)

end Expr

namespace Compilation

/-- A new temporary. -/
def newTemp : Compilation Nat := do
  let layout ← get
  set { layout with temps := layout.temps + 1 }
  return layout.temps

/-- Run a step whose names are not visible afterwards. -/
def inScope {α : Type} (step : Compilation α) : Compilation α := do
  let before ← get
  let result ← step
  modify fun layout => { layout with names := before.names }
  return result

end Compilation

/-- What nodes contribute to the block they stand in. -/
structure Output where
  statements : List Statement := []
  slots : List Slot := []

namespace Output

/-- A text, unless it is empty. -/
def ofText (text : String) : Output :=
  { slots := if text.isEmpty then [] else [.fixed text] }

/-- One contribution after another. -/
def append (first second : Output) : Output :=
  ⟨first.statements ++ second.statements, first.slots ++ second.slots⟩

/-- The block of all contributions. -/
def toBlock (output : Output) : Block :=
  .block output.statements (Slot.fuse output.slots)

end Output

namespace Node

mutual

/-- Compile what a tag evaluates. -/
def compileAction (registry : Registry) : Action -> Compilation Operation
  | .value expr => do
      let code ← expr.compileHere registry
      return .value code
  | .cond negated test holds fails => do
      let test ← test.compileHere registry
      let holds ← Compilation.inScope (compileAll registry holds)
      let fails ← Compilation.inScope (compileAll registry fails)
      return .cond negated test holds.toBlock fails.toBlock
  | .loop pattern source body => do
      let source ← source.compileHere registry
      let (matcher, body) ← Compilation.inScope (do
        let matcher ← pattern.declare
        let body ← compileAll registry body
        return (matcher, body))
      return .loop matcher source body.toBlock
  | .choice subject clauses => do
      let subject ← subject.compileHere registry
      let branches ← compileClauses registry clauses
      return .choice subject branches
  | .callBlock name args body => do
      let function ← (Expr.resolve registry name : Except CompileFault _)
      let args ← Expr.compileAllHere registry args
      let body ← Compilation.inScope (compileAll registry body)
      return .callBlock function args body.toBlock

/-- Compile the clauses of a choice in order. -/
def compileClauses (registry : Registry) : List Clause -> Compilation (List Branch)
  | [] => return []
  | .clause pattern body :: rest => do
      let (matcher, body) ← Compilation.inScope (do
        let matcher ← pattern.declare
        let body ← compileAll registry body
        return (matcher, body))
      let branches ← compileClauses registry rest
      return .branch matcher body.toBlock :: branches

/-- Compile one node. -/
def compile (registry : Registry) : Node -> Compilation Output
  | .text content => return .ofText content
  | .comment _ => return {}
  | .print action => do
      match action.literalText? with
      | some known => return .ofText known
      | none =>
          let operation ← compileAction registry action
          let temp ← Compilation.newTemp
          return { statements := [.print temp operation], slots := [.temp temp] }
  | .silent action => do
      let operation ← compileAction registry action
      return { statements := [.eval operation] }
  | .bind pattern expr => do
      let code ← expr.compileHere registry
      let matcher ← pattern.declare
      return { statements := [.bind matcher code] }

/-- Compile nodes in order. -/
def compileAll (registry : Registry) : List Node -> Compilation Output
  | [] => return {}
  | node :: rest => do
      let first ← compile registry node
      let second ← compileAll registry rest
      return first.append second

end

end Node

/-- Compile a template. -/
def Program.compile (registry : Registry) (nodes : List Node) : Except CompileFault Program := do
  let (output, layout) ← (Node.compileAll registry nodes).run {}
  return ⟨output.toBlock, layout.temps, layout.locals⟩

end HtmlTemplate
