import HtmlTemplate.Program.Render
import HtmlTemplate.Proofs.Rendering.Matching

namespace HtmlTemplate

/-!
# Evaluating compiled expressions

Compiled expressions leave locals and temporaries alone.  Running one on a
machine is therefore the same as evaluating the expression on the journal of
the machine, in the scope that the locals of the visible names hold.  This is
an equation between computations: it covers the results, the errors and the
calls that were made before either.
-/

namespace Walk

variable {α β : Type}

/-- A walk on the journal of a machine.  The rest of the machine stays. -/
def onMachine (walk : Walk α) : Run α := fun machine =>
  match walk machine.journal with
  | .ok result journal => .ok result { machine with journal := journal }
  | .error error journal => .error error { machine with journal := journal }

theorem pure_onMachine (result : α) (machine : Machine) :
    (pure result : Run α) machine = (pure result : Walk α).onMachine machine :=
  rfl

theorem ofExcept_onMachine (result : Except Error α) (machine : Machine) :
    Run.ofExcept result machine = (ofExcept result).onMachine machine := by
  cases result <;> rfl

/-- Two steps correspond if the first ones do and the second ones do on every
journal that the first can leave behind. -/
theorem bind_onMachine {machine : Machine} {run : Run α} {walk : Walk α} {next : α -> Run β}
    {rest : α -> Walk β} (first : run machine = walk.onMachine machine)
    (second : ∀ result journal, next result { machine with journal := journal } =
      (rest result).onMachine { machine with journal := journal }) :
    (run >>= next) machine = (walk >>= rest).onMachine machine := by
  simp only [bind, EStateM.bind, first, onMachine]
  cases walk machine.journal with
  | ok result journal => exact second result journal
  | error error journal => rfl

theorem invoke_onMachine (context : Context) (target : NamedFunction) (args : List Value)
    (machine : Machine) :
    Run.invoke context target args machine = (invoke context target args).onMachine machine := by
  have called : Run.invoke context target args machine =
      Run.ofExcept (target.function.respond context machine.journal args)
        { machine with
          journal := ⟨target.name, args, target.function.note args⟩ :: machine.journal } :=
    rfl
  have walked : invoke context target args machine.journal =
      ofExcept (target.function.respond context machine.journal args)
        (⟨target.name, args, target.function.note args⟩ :: machine.journal) :=
    rfl
  simp only [onMachine, called, walked]
  cases target.function.respond context machine.journal args <;> rfl

end Walk

/-- A step that can fail has succeeded if both of its parts have. -/
theorem Except.bind_eq_ok {ε α β : Type} {first : Except ε α} {next : α -> Except ε β}
    {result : β} :
    (first >>= next) = .ok result ↔ ∃ value, first = .ok value ∧ next value = .ok result := by
  cases first with
  | error fault =>
      constructor
      · intro impossible
        cases impossible
      · rintro ⟨_, impossible, _⟩
        cases impossible
  | ok value =>
      constructor
      · intro done
        exact ⟨value, rfl, done⟩
      · rintro ⟨_, same, done⟩
        cases same
        exact done

namespace Expr

/-- The compiler and the walk find the same function under a name. -/
theorem resolve_eq_function (registry : Registry) (name : String) :
    resolve registry name = function registry name := rfl

variable {registry : Registry} {names : List (String × Nat)} (context : Context)

mutual

/-- Running a compiled expression is evaluating the expression. -/
theorem eval_compile : (expr : Expr) -> {code : Code} ->
    expr.compile registry names = .ok code -> (machine : Machine) ->
    code.eval context machine =
      (expr.eval registry context (machine.locals.scope names)).onMachine machine
  | .lit literal, code, compiled, machine => by
      simp only [compile, Except.bind_eq_ok] at compiled
      rcases compiled with ⟨value, denoted, done⟩
      cases done
      simp only [Code.eval, eval, denoted]
      exact Walk.pure_onMachine value machine
  | .assign name, code, compiled, machine => by
      cases compiled
      exact Walk.ofExcept_onMachine _ machine
  | .var name, code, compiled, machine => by
      simp only [compile] at compiled
      split at compiled
      · rename_i slot found
        cases compiled
        simp only [Code.eval, eval, Scope.fetch, Locals.lookUp?_scope, found, Option.map_some]
        rfl
      · cases compiled
  | .list items, code, compiled, machine => by
      simp only [compile, Except.bind_eq_ok] at compiled
      rcases compiled with ⟨codes, inner, done⟩
      cases done
      simp only [Code.eval, eval]
      exact Walk.bind_onMachine (evalAll_compile items inner machine) fun _ _ => rfl
  | .tuple items, code, compiled, machine => by
      simp only [compile, Except.bind_eq_ok] at compiled
      rcases compiled with ⟨codes, inner, done⟩
      cases done
      simp only [Code.eval, eval]
      exact Walk.bind_onMachine (evalAll_compile items inner machine) fun _ _ => rfl
  | .attr object name, code, compiled, machine => by
      simp only [compile, Except.bind_eq_ok] at compiled
      rcases compiled with ⟨inner, first, done⟩
      cases done
      simp only [Code.eval, eval]
      exact Walk.bind_onMachine (eval_compile object first machine) fun _ _ =>
        Walk.ofExcept_onMachine _ _
  | .index object key, code, compiled, machine => by
      simp only [compile, Except.bind_eq_ok] at compiled
      rcases compiled with ⟨left, first, right, second, done⟩
      cases done
      simp only [Code.eval, eval]
      refine Walk.bind_onMachine (eval_compile object first machine) fun _ journal => ?_
      exact Walk.bind_onMachine (eval_compile key second { machine with journal := journal })
        fun _ _ => Walk.ofExcept_onMachine _ _
  | .call name args, code, compiled, machine => by
      simp only [compile, Except.bind_eq_ok, resolve_eq_function] at compiled
      rcases compiled with ⟨target, found, codes, inner, done⟩
      cases done
      simp only [Code.eval, eval, found]
      exact Walk.bind_onMachine (evalAll_compile args inner machine) fun _ _ =>
        Walk.invoke_onMachine context target _ _
  | .unary op operand, code, compiled, machine => by
      simp only [compile, Except.bind_eq_ok] at compiled
      rcases compiled with ⟨inner, first, done⟩
      cases done
      simp only [Code.eval, eval]
      exact Walk.bind_onMachine (eval_compile operand first machine) fun _ _ =>
        Walk.ofExcept_onMachine _ _
  | .binary op left right, code, compiled, machine => by
      simp only [compile, Except.bind_eq_ok] at compiled
      rcases compiled with ⟨leftCode, first, rightCode, second, done⟩
      have left' := eval_compile left first machine
      have right' : ∀ journal, rightCode.eval context { machine with journal := journal } =
          (right.eval registry context (machine.locals.scope names)).onMachine
            { machine with journal := journal } :=
        fun journal => eval_compile right second { machine with journal := journal }
      cases op with
      | strict op =>
          cases done
          simp only [Code.eval, eval]
          refine Walk.bind_onMachine left' fun _ journal => ?_
          exact Walk.bind_onMachine (right' journal) fun _ _ => Walk.ofExcept_onMachine _ _
      | orWord | orSign =>
          cases done
          simp only [Code.eval, eval]
          refine Walk.bind_onMachine left' fun value journal => ?_
          split
          · rfl
          · exact right' journal
      | andWord | andSign =>
          cases done
          simp only [Code.eval, eval]
          refine Walk.bind_onMachine left' fun value journal => ?_
          split
          · exact right' journal
          · rfl
  | .group inner, code, compiled, machine => by
      simp only [compile] at compiled
      simp only [eval]
      exact eval_compile inner compiled machine

theorem evalAll_compile : (exprs : List Expr) -> {codes : List Code} ->
    compileAll registry names exprs = .ok codes -> (machine : Machine) ->
    Code.evalAll context codes machine =
      (evalAll registry context (machine.locals.scope names) exprs).onMachine machine
  | [], codes, compiled, machine => by
      cases compiled
      exact Walk.pure_onMachine [] machine
  | expr :: rest, codes, compiled, machine => by
      simp only [compileAll, Except.bind_eq_ok] at compiled
      rcases compiled with ⟨code, first, others, second, done⟩
      cases done
      simp only [Code.evalAll, evalAll]
      refine Walk.bind_onMachine (eval_compile expr first machine) fun _ journal => ?_
      exact Walk.bind_onMachine (evalAll_compile rest second { machine with journal := journal })
        fun _ _ => rfl

end

end Expr
end HtmlTemplate
