import HtmlTemplate.Helper.Trust
import HtmlTemplate.Proofs.Display.Values
import HtmlTemplate.Proofs.Rendering.Literal

namespace HtmlTemplate

/-!
# Literals that are printed beforehand

A tag whose text is known when the template is compiled leaves no trace in the
program: the text is written and the expression is dropped, unevaluated.  That is
sound because evaluating it could only have had one outcome.  Conversely nothing
is dropped that would have failed: literals behind minus signs and in parentheses
either have a known text or are refused, by the compiler or by the render.
-/

namespace Expr

/-- A literal behind any number of minus signs and in any number of
parentheses. -/
inductive Signed : Expr -> Prop where
  | lit (literal : Literal) : Signed (.lit literal)
  | minus {operand : Expr} (signed : Signed operand) : Signed (.unary .minus operand)
  | group {inner : Expr} (signed : Signed inner) : Signed (.group inner)

/-- Whatever there is to refer to, the expression does not compile, or evaluating
it fails in every state and leaves the state as it was. -/
def Refused (expr : Expr) : Prop :=
  ∀ registry names, (∃ fault, expr.compile registry names = .error fault) ∨
    ∃ code, expr.compile registry names = .ok code ∧
      ∀ context machine, ∃ error, code.eval context machine = .error error machine

/-! ## One outcome -/

/-- Where the value of an expression is known, it is the one that evaluating the
expression yields. -/
theorem evaluatesTo_of_literal? : (expr : Expr) -> {value : Value} ->
    expr.literal? = some value -> expr.EvaluatesTo value
  | .lit literal, value, known => evaluatesTo_lit (literal?_lit.mp known)
  | .unary .minus operand, value, known => by
      rcases Option.bind_eq_some_iff.mp known with ⟨inner, found, negated⟩
      exact (evaluatesTo_of_literal? operand found).unary (UnaryOp.apply_of_negate? negated)
  | .group inner, value, known => evaluatesTo_of_literal? inner known

/-! ## Failures are not lost -/

theorem compile_unary {registry : Registry} {names : List (String × Nat)} {expr : Expr} {code : Code}
    (compiled : expr.compile registry names = .ok code) (op : UnaryOp) :
    (Expr.unary op expr).compile registry names = .ok (.unary op code) := by
  simp only [compile, compiled]
  rfl

theorem refused_lit {literal : Literal} {fault : CompileFault}
    (faulty : literal.denote = .error fault) : Refused (.lit literal) := by
  intro registry names
  refine .inl ⟨fault, ?_⟩
  simp only [compile, faulty]
  rfl

/-- What fails, fails behind an operator too. -/
theorem Refused.unary {expr : Expr} (refused : Refused expr) (op : UnaryOp) :
    Refused (.unary op expr) := by
  intro registry names
  rcases refused registry names with ⟨fault, compiled⟩ | ⟨code, compiled, fails⟩
  · refine .inl ⟨fault, ?_⟩
    simp only [compile, compiled]
    rfl
  · refine .inr ⟨.unary op code, compile_unary compiled op, fun context machine => ?_⟩
    rcases fails context machine with ⟨error, failed⟩
    refine ⟨error, ?_⟩
    simp only [Code.eval, Bind.bind, EStateM.bind, failed]

/-- An operand may have a value that the operator does not take. -/
theorem EvaluatesTo.refused_unary {expr : Expr} {value : Value} (evaluates : expr.EvaluatesTo value)
    {op : UnaryOp} {error : Error} (applied : op.apply value = .error error) :
    Refused (.unary op expr) := by
  intro registry names
  rcases evaluates registry names with ⟨code, compiled, evaluated⟩
  refine .inr ⟨.unary op code, compile_unary compiled op, fun context machine => ⟨error, ?_⟩⟩
  simp only [Code.eval, Bind.bind, EStateM.bind, evaluated, applied]
  rfl

theorem Signed.refused {expr : Expr} (signed : Signed expr) (unknown : expr.literal? = none) :
    Refused expr := by
  induction signed with
  | lit literal =>
      cases denoted : literal.denote with
      | error fault => exact refused_lit denoted
      | ok value => cases unknown.symm.trans (literal?_lit.mpr denoted)
  | @minus operand signed inductionHypothesis =>
      cases found : operand.literal? with
      | none => exact (inductionHypothesis found).unary .minus
      | some value =>
          have negated : UnaryOp.negate? value = none := by
            simpa only [literal?, found, Option.bind_eq_bind, Option.bind_some] using unknown
          have applied : UnaryOp.minus.apply value = .error (value.badOperand "-") := by
            simp only [UnaryOp.apply, negated]
          exact (evaluatesTo_of_literal? operand found).refused_unary applied
  | group signed inductionHypothesis => exact inductionHypothesis unknown

/-- The value of a literal can always be printed, so its text is known together
with its value. -/
theorem literalText?_eq_none_iff {expr : Expr} :
    expr.literalText? = none ↔ expr.literal? = none := by
  constructor
  · intro unknown
    cases found : expr.literal? with
    | none => rfl
    | some value =>
        rcases Value.toMarkup_of_isScalar (isScalar_of_literal? expr found) with ⟨text, printed⟩
        simp only [literalText?, found, Option.bind_eq_bind, Option.bind_some, printed] at unknown
        cases unknown
  · intro unknown
    rw [literalText?, unknown]
    rfl

end Expr

/-- If the text of a tag is known beforehand, the tag holds an expression that
compiles, that is evaluated in every state without any change or call, and whose
value gives the text on each way to the output.  If the text of a literal
with signs and parentheses is not known, the expression is refused. -/
theorem Action.known_text_agrees (action : Action) :
    (∀ text, action.literalText? = some text ->
      ∃ expr value content, action = .value expr ∧ expr.EvaluatesTo value ∧
        value.print = .ok content ∧ value.toMarkup = .ok content ∧
        Trust.htmlEscape [value] = .ok (.markup content) ∧ content.bytes = text.toUTF8) ∧
    ∀ expr, action = .value expr -> expr.Signed -> action.literalText? = none ->
      expr.Refused := by
  constructor
  · intro text known
    cases action with
    | value expr =>
        rcases Expr.literalText?_spec known with ⟨value, content, found, converted, same⟩
        have printed : value.print = .ok content := by
          rw [Value.print_eq_toMarkup, converted]
        have escaped : Trust.htmlEscape [value] = .ok (.markup content) := by
          change (do
            let content ← value.print
            return Value.markup content : Except Error Value) = _
          rw [printed]
          rfl
        exact ⟨expr, value, content, rfl, Expr.evaluatesTo_of_literal? expr found, printed,
          converted, escaped, same.symm⟩
    | _ => cases known
  · rintro expr rfl signed unknown
    exact signed.refused (Expr.literalText?_eq_none_iff.mp unknown)

/-- Two signs cancel out around a parenthesis, and a string has no negative. -/
theorem Action.known_text_agrees_signs :
    let number : Expr := .unary .minus (.group (.unary .minus (.lit (.num "1_000"))))
    let word : Expr := .unary .minus (.lit (.str "a"))
    (Action.value number).literalText? = some "1000" ∧
      (∃ value content, number.EvaluatesTo value ∧ value.print = .ok content ∧
        content.bytes = "1000".toUTF8) ∧
      word.Signed ∧ (Action.value word).literalText? = none ∧ word.Refused := by
  intro number word
  have known : (Action.value number).literalText? = some "1000" := by decide +kernel
  have unknown : (Action.value word).literalText? = none := by decide +kernel
  have signed : word.Signed := .minus (.lit _)
  rcases (Action.known_text_agrees (.value number)).1 _ known with
    ⟨expr, value, content, held, evaluates, printed, _, _, same⟩
  rw [← Action.value.inj held] at evaluates
  exact ⟨known, ⟨value, content, evaluates, printed, same⟩, signed, unknown,
    (Action.known_text_agrees (.value word)).2 word rfl signed unknown⟩

end HtmlTemplate
