import HtmlTemplate.Program.Render

namespace HtmlTemplate

/-!
# Watching a run

A run can be watched while it uses its storage.  The watched run is the run,
with a record of what it does beside the machine: which activations of blocks
and rounds of loops are in progress, what was written to locals and to
temporaries so far and where, and what every access met.  The record is only
written, so a watched run does what the run does, which is the last part of
this module.  Nothing here presumes that a program was compiled.

An access is sound if it stays within the storage and if what it meets is what
was written last to that place, by an activation that matters: a local has to
be written by an activation that is still in progress, so by no earlier round
of a loop, and a temporary by the very activation that takes it out.
-/

/-- A value that was written to a place, and the activations that were in
progress then. -/
structure Stored (α : Type) where
  value : α
  path : List Nat

/-- An access to the storage.  A write knows how many places there are.  A read
knows what the place holds, what was written to it last in this render, if
anything was, and the activations in progress. -/
inductive Access where
  | write (slot size : Nat)
  | read (slot : Nat) (found : Option Value) (last : Option (Stored Value)) (path : List Nat)
  | fill (temp size : Nat)
  | take (temp : Nat) (found : Option Markup) (last : Option (Stored Markup)) (path : List Nat)

/-- An access that is in range and meets nothing stale. -/
def Access.Sound : Access -> Prop
  | .write slot size => slot < size
  | .read _ found last path =>
      ∃ stored, last = some stored ∧ found = some stored.value ∧ stored.path <:+ path
  | .fill temp size => temp < size
  | .take _ found last path =>
      ∃ stored, last = some stored ∧ found = some stored.value ∧ stored.path = path

/-- A machine and the record of a run.  Activations are numbered in the order
in which they begin, and `path` holds those in progress, the innermost first.
Writes, fills and accesses come with the latest one first. -/
structure Watch where
  machine : Machine
  begun : Nat := 0
  path : List Nat := []
  writes : List (Nat × Stored Value) := []
  fills : List (Nat × Stored Markup) := []
  accesses : List Access := []

/-- The record when an activation begins. -/
def Watch.enter (watch : Watch) : Watch :=
  { watch with begun := watch.begun + 1, path := watch.begun :: watch.path }

/-- A computation of a watched run. -/
abbrev Watching := EStateM Error Watch

namespace Watching

variable {α : Type}

/-- A step that uses neither locals nor temporaries. -/
def unseen (step : Run α) : Watching α := fun watch =>
  match step watch.machine with
  | .ok result machine => .ok result { watch with machine := machine }
  | .error error machine => .error error { watch with machine := machine }

/-- The value of a local. -/
def readLocal (slot : Nat) : Watching Value := do
  modify fun watch => { watch with
    accesses := .read slot watch.machine.locals[slot]? (watch.writes.lookup slot) watch.path ::
      watch.accesses }
  unseen (Run.readLocal slot)

/-- Give a local a value. -/
def writeLocal (slot : Nat) (value : Value) : Watching Unit :=
  modify fun watch => { watch with
    machine := { watch.machine with locals := watch.machine.locals.write slot value }
    writes := (slot, ⟨value, watch.path⟩) :: watch.writes
    accesses := .write slot watch.machine.locals.size :: watch.accesses }

/-- Fill a temporary. -/
def fill (temp : Nat) (content : Markup) : Watching Unit := do
  modify fun watch => { watch with
    fills := (temp, ⟨content, watch.path⟩) :: watch.fills
    accesses := .fill temp watch.machine.temps.size :: watch.accesses }
  unseen (Run.fill temp content)

/-- Take out what a temporary holds. -/
def take (temp : Nat) : Watching Markup := do
  modify fun watch => { watch with
    accesses := .take temp watch.machine.temps[temp]? (watch.fills.lookup temp) watch.path ::
      watch.accesses }
  unseen (Run.take temp)

/-- An activation: a block that runs, or a round of a loop. -/
def activation (step : Watching α) : Watching α := do
  let before ← get
  set before.enter
  let result ← step
  modify fun watch => { watch with path := before.path }
  return result

theorem activation_eq (step : Watching α) (watch : Watch) :
    activation step watch =
      match step watch.enter with
      | .ok result after => .ok result { after with path := watch.path }
      | .error error after => .error error after := by
  have entered : activation step watch = (do
      let result ← step
      modify fun last => { last with path := watch.path }
      return result : Watching α) watch.enter := rfl
  rw [entered]
  simp only [Bind.bind, EStateM.bind]
  cases step watch.enter <;> rfl

/-- What a step yields for the values it does not skip, in order. -/
def collect (step : Value -> Watching (Option Value)) (done : List Value) :
    List Value -> Watching (List Value)
  | [] => return done.reverse
  | item :: rest => do
      match ← step item with
      | some result => collect step (result :: done) rest
      | none => collect step done rest

end Watching

namespace Matcher

mutual

/-- Match a value. -/
def watch : Matcher -> Value -> Watching Bool
  | .any, _ => return true
  | .bind slot, value => do
      Watching.writeLocal slot value
      return true
  | .same slot, value => do
      let first ← Watching.readLocal slot
      return first == value
  | .equals expected, value => return expected == value
  | .tuple matchers, .tuple items =>
      if matchers.length = items.length then watchAll matchers items else return false
  | .list matchers, .list items =>
      if matchers.length = items.length then watchAll matchers items else return false
  | _, _ => return false

/-- Match as many values as there are patterns, in order. -/
def watchAll : List Matcher -> List Value -> Watching Bool
  | matcher :: matchers, item :: items => do
      let holds ← watch matcher item
      if holds then watchAll matchers items else return false
  | _, _ => return true

end

end Matcher

namespace Code

mutual

/-- Evaluate an expression. -/
def watch (context : Context) : Code -> Watching Value
  | .const value => return value
  | .assign name => Watching.unseen (Run.ofExcept (context.assigns.fetch name))
  | .slot number => Watching.readLocal number
  | .list items => do
      let items ← watchAll context items
      return .list items
  | .tuple items => do
      let items ← watchAll context items
      return .tuple items
  | .attr object name => do
      let object ← watch context object
      Watching.unseen (Run.ofExcept (object.field name))
  | .index object key => do
      let object ← watch context object
      let key ← watch context key
      Watching.unseen (Run.ofExcept (object.index key))
  | .call function args => do
      let args ← watchAll context args
      Watching.unseen (Run.invoke context function args)
  | .unary op operand => do
      let operand ← watch context operand
      Watching.unseen (Run.ofExcept (op.apply operand))
  | .either left right => do
      let left ← watch context left
      if left.isTruthy then return left else watch context right
  | .both left right => do
      let left ← watch context left
      if left.isTruthy then watch context right else return left
  | .binary op left right => do
      let left ← watch context left
      let right ← watch context right
      Watching.unseen (Run.ofExcept (op.apply left right))

/-- Evaluate expressions in order. -/
def watchAll (context : Context) : List Code -> Watching (List Value)
  | [] => return []
  | code :: rest => do
      let value ← watch context code
      let values ← watchAll context rest
      return value :: values

end

end Code

/-- The output of a slot. -/
def Slot.watch : Slot -> Watching Markup
  | .fixed content => return .raw content
  | .temp index => Watching.take index

namespace Block

mutual

/-- Run a block and join its output. -/
def watch (context : Context) : Block -> Watching Markup
  | .block statements slots => Watching.activation do
      watchAll context statements
      let parts ← slots.mapM Slot.watch
      return .concat parts

/-- Run statements in order. -/
def watchAll (context : Context) : List Statement -> Watching Unit
  | [] => return ()
  | statement :: rest => do
      watchStatement context statement
      watchAll context rest

/-- Run one statement. -/
def watchStatement (context : Context) : Statement -> Watching Unit
  | .print temp operation => do
      let value ← watchOperation context operation
      let content ← Watching.unseen (Run.ofExcept value.print)
      Watching.fill temp content
  | .eval operation => do
      let _ ← watchOperation context operation
      return ()
  | .bind pattern code => do
      let value ← code.watch context
      let holds ← pattern.watch value
      if holds then return () else throw (.noMatch value.display)

/-- Evaluate what a tag stands for. -/
def watchOperation (context : Context) : Operation -> Watching Value
  | .value code => code.watch context
  | .cond negated test holds fails => do
      let test ← test.watch context
      if test.isTruthy != negated then
        let content ← watch context holds
        return .markup content
      else
        let content ← watch context fails
        return .markup content
  | .loop pattern source body => do
      let source ← source.watch context
      let items ← Watching.unseen (Run.ofExcept source.enumerate)
      let results ← Watching.collect (fun item => Watching.activation do
        let holds ← pattern.watch item
        if holds then
          let content ← watch context body
          return some (.markup content)
        else return none) [] items
      return .list results
  | .choice subject branches => do
      let subject ← subject.watch context
      watchBranches context subject branches
  | .callBlock function args body => do
      let args ← Code.watchAll context args
      let content ← watch context body
      Watching.unseen (Run.invoke context function (Body.attach args (.markup content)))

/-- Run the first clause that a value matches. -/
def watchBranches (context : Context) (subject : Value) : List Branch -> Watching Value
  | [] => throw (.noCaseClause subject.display)
  | .branch pattern body :: rest => do
      let holds ← pattern.watch subject
      if holds then
        let content ← watch context body
        return .markup content
      else watchBranches context subject rest

end

end Block

/-- Watch a program being rendered.  The accesses come with what is rendered,
also with an error. -/
def Program.watch (program : Program) (context : Context) :
    (Except Error Markup × Journal) × List Access :=
  match program.block.watch context { machine := program.start } with
  | .ok markup watch => ((.ok markup, watch.machine.journal), watch.accesses)
  | .error error watch => ((.error error, watch.machine.journal), watch.accesses)

/-! ## A watched run does what the run does -/

/-- A result without the record. -/
def Watching.erase {α : Type} : EStateM.Result Error Watch α -> EStateM.Result Error Machine α
  | .ok result watch => .ok result watch.machine
  | .error error watch => .error error watch.machine

/-- A watched step without its record is a step of the run. -/
def Watching.Erases {α : Type} (watched : Watching α) (run : Run α) : Prop :=
  ∀ watch, erase (watched watch) = run watch.machine

namespace Watching.Erases

variable {α β : Type}

theorem pure (result : α) : Erases (Pure.pure result) (Pure.pure result) :=
  fun _ => rfl

theorem throw (error : Error) :
    Erases (MonadExcept.throw error : Watching α) (MonadExcept.throw error) :=
  fun _ => rfl

theorem bind {watched : Watching α} {run : Run α} {next : α -> Watching β} {rest : α -> Run β}
    (first : Erases watched run) (second : ∀ result, Erases (next result) (rest result)) :
    Erases (watched >>= next) (run >>= rest) := by
  intro watch
  have here := first watch
  simp only [Bind.bind, EStateM.bind]
  cases ended : watched watch with
  | ok result after =>
      rw [ended] at here
      rw [← here]
      exact second result after
  | error error after =>
      rw [ended] at here
      rw [← here]
      rfl

theorem unseen (run : Run α) : Erases (Watching.unseen run) run := by
  intro watch
  simp only [Watching.unseen]
  cases run watch.machine <;> rfl

theorem readLocal (slot : Nat) : Erases (Watching.readLocal slot) (Run.readLocal slot) :=
  fun _ => rfl

theorem fill (temp : Nat) (content : Markup) :
    Erases (Watching.fill temp content) (Run.fill temp content) :=
  fun _ => rfl

theorem take (temp : Nat) : Erases (Watching.take temp) (Run.take temp) :=
  fun _ => rfl

theorem activation {watched : Watching α} {run : Run α} (inner : Erases watched run) :
    Erases (Watching.activation watched) run := by
  intro watch
  have here : erase (watched watch.enter) = run watch.machine := inner watch.enter
  rw [← here, activation_eq]
  cases watched watch.enter with
  | ok result after => rfl
  | error error after => rfl

theorem collect {step : Value -> Watching (Option Value)} {step' : Value -> Run (Option Value)}
    (round : ∀ item, Erases (step item) (step' item)) (items done : List Value) :
    Erases (Watching.collect step done items) (Run.collect step' done items) := by
  induction items generalizing done with
  | nil => exact .pure _
  | cons item rest inductionHypothesis =>
      refine (round item).bind fun result => ?_
      cases result with
      | none => exact inductionHypothesis done
      | some value => exact inductionHypothesis (value :: done)

end Watching.Erases

namespace Matcher

/-- Match several values, and keep what was bound. -/
def runAllHere (matchers : List Matcher) (items : List Value) : Run Bool := fun machine =>
  .ok (runAll machine.locals matchers items).1
    { machine with locals := (runAll machine.locals matchers items).2 }

theorem runAllHere_cons (matcher : Matcher) (matchers : List Matcher) (item : Value)
    (items : List Value) :
    runAllHere (matcher :: matchers) (item :: items) = (do
      let holds ← Run.matches? matcher item
      if holds then runAllHere matchers items else return false) := by
  funext machine
  have first : Run.matches? matcher item machine =
      .ok (run machine.locals matcher item).1
        { machine with locals := (run machine.locals matcher item).2 } := rfl
  simp only [Bind.bind, EStateM.bind, first, runAllHere, runAll]
  rcases run machine.locals matcher item with ⟨holds, locals⟩
  cases holds <;> rfl

theorem matches?_sequence (matchers : List Matcher) (items : List Value) :
    Run.matches? (.tuple matchers) (.tuple items) =
        (if matchers.length = items.length then runAllHere matchers items else return false) ∧
      Run.matches? (.list matchers) (.list items) =
        (if matchers.length = items.length then runAllHere matchers items else return false) := by
  constructor
  · funext machine
    simp only [Run.matches?, run]
    split <;> rfl
  · funext machine
    simp only [Run.matches?, run]
    split <;> rfl

mutual

theorem watch_erases : (matcher : Matcher) -> (value : Value) ->
    Watching.Erases (matcher.watch value) (Run.matches? matcher value)
  | .any, _ => fun _ => rfl
  | .bind _, _ => fun _ => rfl
  | .same _, _ => fun _ => rfl
  | .equals _, _ => fun _ => rfl
  | .tuple matchers, value => by
      cases value with
      | tuple items =>
          simp only [(matches?_sequence matchers items).1, watch]
          split
          · exact watchAll_erases matchers items
          · exact .pure false
      | _ => exact fun _ => rfl
  | .list matchers, value => by
      cases value with
      | list items =>
          simp only [(matches?_sequence matchers items).2, watch]
          split
          · exact watchAll_erases matchers items
          · exact .pure false
      | _ => exact fun _ => rfl

theorem watchAll_erases : (matchers : List Matcher) -> (items : List Value) ->
    Watching.Erases (watchAll matchers items) (runAllHere matchers items)
  | [], _ => fun _ => rfl
  | _ :: _, [] => fun _ => rfl
  | matcher :: matchers, item :: items => by
      rw [runAllHere_cons, watchAll]
      refine (watch_erases matcher item).bind fun holds => ?_
      split
      · exact watchAll_erases matchers items
      · exact .pure false

end

end Matcher

namespace Code

variable {context : Context}

open Watching

mutual

theorem watch_erases : (code : Code) -> Erases (code.watch context) (code.eval context)
  | .const value => .pure value
  | .assign name => .unseen _
  | .slot number => .readLocal number
  | .list items => (watchAll_erases items).bind fun _ => .pure _
  | .tuple items => (watchAll_erases items).bind fun _ => .pure _
  | .attr object name => (watch_erases object).bind fun _ => .unseen _
  | .index object key =>
      (watch_erases object).bind fun _ => (watch_erases key).bind fun _ => .unseen _
  | .call function args => (watchAll_erases args).bind fun _ => .unseen _
  | .unary op operand => (watch_erases operand).bind fun _ => .unseen _
  | .either left right => by
      refine (watch_erases left).bind fun value => ?_
      split
      · exact .pure value
      · exact watch_erases right
  | .both left right => by
      refine (watch_erases left).bind fun value => ?_
      split
      · exact watch_erases right
      · exact .pure value
  | .binary op left right =>
      (watch_erases left).bind fun _ => (watch_erases right).bind fun _ => .unseen _

theorem watchAll_erases : (codes : List Code) ->
    Erases (Code.watchAll context codes) (Code.evalAll context codes)
  | [] => .pure []
  | code :: rest => (watch_erases code).bind fun _ => (watchAll_erases rest).bind fun _ => .pure _

end

end Code

theorem Slot.watch_erases : (slot : Slot) -> Watching.Erases slot.watch slot.output
  | .fixed _ => .pure _
  | .temp index => .take index

theorem Slot.mapM_watch_erases : (slots : List Slot) ->
    Watching.Erases (slots.mapM Slot.watch) (slots.mapM Slot.output)
  | [] => .pure []
  | slot :: rest => by
      rw [List.mapM_cons, List.mapM_cons]
      exact slot.watch_erases.bind fun _ => (mapM_watch_erases rest).bind fun _ => .pure _

namespace Block

variable {context : Context}

open Watching

mutual

theorem watch_erases : (block : Block) -> Erases (block.watch context) (block.run context)
  | .block statements slots =>
      .activation ((watchAll_erases statements).bind fun _ =>
        (Slot.mapM_watch_erases slots).bind fun _ => .pure _)

theorem watchAll_erases : (statements : List Statement) ->
    Erases (Block.watchAll context statements) (Block.runAll context statements)
  | [] => .pure ()
  | statement :: rest => (watchStatement_erases statement).bind fun _ => watchAll_erases rest

theorem watchStatement_erases : (statement : Statement) ->
    Erases (Block.watchStatement context statement) (Block.runStatement context statement)
  | .print temp operation =>
      (watchOperation_erases operation).bind fun _ => (Erases.unseen _).bind fun _ => .fill temp _
  | .eval operation => (watchOperation_erases operation).bind fun _ => .pure ()
  | .bind pattern code => by
      refine code.watch_erases.bind fun value => (pattern.watch_erases value).bind fun holds => ?_
      split
      · exact .pure ()
      · exact .throw _

theorem watchOperation_erases : (operation : Operation) ->
    Erases (Block.watchOperation context operation) (Block.runOperation context operation)
  | .value code => code.watch_erases
  | .cond negated test holds fails => by
      refine test.watch_erases.bind fun value => ?_
      split
      · exact (watch_erases holds).bind fun _ => .pure _
      · exact (watch_erases fails).bind fun _ => .pure _
  | .loop pattern source body => by
      refine source.watch_erases.bind fun value => (Erases.unseen _).bind fun items => ?_
      refine (Erases.collect (fun item => .activation ?_) items []).bind fun _ => .pure _
      refine (pattern.watch_erases item).bind fun holds => ?_
      split
      · exact (watch_erases body).bind fun _ => .pure _
      · exact .pure none
  | .choice subject branches =>
      subject.watch_erases.bind fun value => watchBranches_erases value branches
  | .callBlock function args body =>
      (Code.watchAll_erases args).bind fun _ => (watch_erases body).bind fun _ => .unseen _

theorem watchBranches_erases (subject : Value) : (branches : List Branch) ->
    Erases (Block.watchBranches context subject branches)
      (Block.runBranches context subject branches)
  | [] => .throw _
  | .branch pattern body :: rest => by
      refine (pattern.watch_erases subject).bind fun holds => ?_
      split
      · exact (watch_erases body).bind fun _ => .pure _
      · exact watchBranches_erases subject rest

end

end Block

/-- Watching a program renders it. -/
theorem Program.watch_fst (program : Program) (context : Context) :
    (program.watch context).1 = program.render context := by
  have same : Watching.Erases (program.block.watch context) (program.block.run context) :=
    program.block.watch_erases
  simp only [watch, render, EStateM.run]
  rw [← same { machine := program.start }]
  cases program.block.watch context { machine := program.start } <;> rfl

end HtmlTemplate
