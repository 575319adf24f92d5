import HtmlTemplate.Program.Body
import HtmlTemplate.Program.Matching
import HtmlTemplate.Value.Access
import HtmlTemplate.Value.Conversion
import HtmlTemplate.Value.Operator

namespace HtmlTemplate

/-!
# Running programs

A block runs its statements in order and then joins its slots, which empties
the temporaries it uses; so a block that runs again starts afresh.  The first
error ends the whole run, and the calls made until then stay in the journal.

Expressions change nothing but the journal.  Only statements write locals and
temporaries.
-/

/-- What a run changes: locals, temporaries and the journal of calls. -/
structure Machine where
  locals : Locals
  temps : Array Markup
  journal : Journal := []

/-- A computation of a run.  It keeps what was changed before an error. -/
abbrev Run := EStateM Error Machine

namespace Run

/-- Succeed or fail without any change. -/
def ofExcept {α : Type} : Except Error α -> Run α
  | .ok result => pure result
  | .error error => throw error

/-- The value of a local. -/
def readLocal (slot : Nat) : Run Value := do
  let machine ← get
  return machine.locals.read slot

/-- Match a value, and keep what was bound. -/
def matches? (matcher : Matcher) (value : Value) : Run Bool := do
  let machine ← get
  let (holds, locals) := matcher.run machine.locals value
  set { machine with locals := locals }
  return holds

/-- Fill a temporary. -/
def fill (temp : Nat) (content : Markup) : Run Unit :=
  modify fun machine => { machine with temps := machine.temps.setIfInBounds temp content }

/-- Take out what a temporary holds. -/
def take (temp : Nat) : Run Markup := do
  let machine ← get
  let content := machine.temps.getD temp .empty
  set { machine with temps := machine.temps.setIfInBounds temp .empty }
  return content

/-- Call a function and enter the call in the journal, whatever it answers. -/
def invoke (context : Context) (target : NamedFunction) (args : List Value) : Run Value := do
  let machine ← get
  set { machine with journal := ⟨target.name, args, target.function.note args⟩ :: machine.journal }
  ofExcept (target.function.respond context machine.journal args)

/-- What a step yields for the values it does not skip, in order.  `done` holds
the results so far, the latest one first. -/
def collect (step : Value -> Run (Option Value)) (done : List Value) :
    List Value -> Run (List Value)
  | [] => return done.reverse
  | item :: rest => do
      match ← step item with
      | some result => collect step (result :: done) rest
      | none => collect step done rest

end Run

namespace Code

mutual

/-- Evaluate an expression. -/
def eval (context : Context) : Code -> Run Value
  | .const value => return value
  | .assign name => Run.ofExcept (context.assigns.fetch name)
  | .slot number => Run.readLocal number
  | .list items => do
      let items ← evalAll context items
      return .list items
  | .tuple items => do
      let items ← evalAll context items
      return .tuple items
  | .attr object name => do
      let object ← eval context object
      Run.ofExcept (object.field name)
  | .index object key => do
      let object ← eval context object
      let key ← eval context key
      Run.ofExcept (object.index key)
  | .call function args => do
      let args ← evalAll context args
      Run.invoke context function args
  | .unary op operand => do
      let operand ← eval context operand
      Run.ofExcept (op.apply operand)
  | .either left right => do
      let left ← eval context left
      if left.isTruthy then return left else eval context right
  | .both left right => do
      let left ← eval context left
      if left.isTruthy then eval context right else return left
  | .binary op left right => do
      let left ← eval context left
      let right ← eval context right
      Run.ofExcept (op.apply left right)

/-- Evaluate expressions in order. -/
def evalAll (context : Context) : List Code -> Run (List Value)
  | [] => return []
  | code :: rest => do
      let value ← eval context code
      let values ← evalAll context rest
      return value :: values

end

end Code

namespace Slot

/-- The output of a slot.  A temporary is empty afterwards. -/
def output : Slot -> Run Markup
  | .fixed content => return .raw content
  | .temp index => Run.take index

end Slot

namespace Block

mutual

/-- Run a block and join its output. -/
def run (context : Context) : Block -> Run Markup
  | .block statements slots => do
      runAll context statements
      let parts ← slots.mapM Slot.output
      return .concat parts

/-- Run statements in order. -/
def runAll (context : Context) : List Statement -> Run Unit
  | [] => return ()
  | statement :: rest => do
      runStatement context statement
      runAll context rest

/-- Run one statement. -/
def runStatement (context : Context) : Statement -> Run Unit
  | .print temp operation => do
      let value ← runOperation context operation
      let content ← Run.ofExcept value.print
      Run.fill temp content
  | .eval operation => do
      let _ ← runOperation context operation
      return ()
  | .bind pattern code => do
      let value ← code.eval context
      let holds ← Run.matches? pattern value
      if holds then return () else throw (.noMatch value.display)

/-- Evaluate what a tag stands for.  Blocks yield markup, a loop a list of
it. -/
def runOperation (context : Context) : Operation -> Run Value
  | .value code => code.eval context
  | .cond negated test holds fails => do
      let test ← test.eval context
      if test.isTruthy != negated then
        let content ← run context holds
        return .markup content
      else
        let content ← run context fails
        return .markup content
  | .loop pattern source body => do
      let source ← source.eval context
      let items ← Run.ofExcept source.enumerate
      let results ← Run.collect (fun item => do
        let holds ← Run.matches? pattern item
        if holds then
          let content ← run context body
          return some (.markup content)
        else return none) [] items
      return .list results
  | .choice subject branches => do
      let subject ← subject.eval context
      runBranches context subject branches
  | .callBlock function args body => do
      let args ← Code.evalAll context args
      let content ← run context body
      Run.invoke context function (Body.attach args (.markup content))

/-- Run the first clause that a value matches. -/
def runBranches (context : Context) (subject : Value) : List Branch -> Run Value
  | [] => throw (.noCaseClause subject.display)
  | .branch pattern body :: rest => do
      let holds ← Run.matches? pattern subject
      if holds then
        let content ← run context body
        return .markup content
      else runBranches context subject rest

end

end Block

namespace Program

/-- The state in which a run begins: locals are `nil` and temporaries empty. -/
def start (program : Program) : Machine :=
  { locals := Array.replicate program.locals .nil
    temps := Array.replicate program.temps .empty }

/-- Render a program.  The journal comes with the result, also with an error. -/
def render (program : Program) (context : Context) : Except Error Markup × Journal :=
  match (program.block.run context).run program.start with
  | .ok markup machine => (.ok markup, machine.journal)
  | .error error machine => (.error error, machine.journal)

end Program
end HtmlTemplate
