import HtmlTemplate.Proofs.Rendering.TreeWalk

namespace HtmlTemplate

/-!
# Literals before and during a render

The text of a literal is known when a template is compiled.  A walk evaluates
the literal like any other expression and prints the value.  Both give the same
bytes: the evaluation makes no call and cannot fail, and the value is one that
is printed as plain text.
-/

namespace Markup

theorem toText_raw (text : String) : (raw text).toText = text := by
  rw [toText_eq, bytes_raw, Utf8.decode_toUTF8]

end Markup

namespace Value

/-- What a printed expression goes through is the conversion to markup: the
two kinds of values that are treated at once are converted in the same way. -/
theorem print_eq_toMarkup (value : Value) : value.print = value.toMarkup := by
  cases value <;> rfl

/-- Values that literals denote. -/
def isScalar : Value -> Bool
  | .nil => true
  | .bool _ => true
  | .int _ => true
  | .float _ => true
  | .str _ => true
  | .atom _ => true
  | _ => false

theorem toMarkup_of_isScalar {value : Value} (scalar : value.isScalar = true) :
    ∃ text, value.toMarkup = .ok (.raw text) := by
  cases value with
  | nil => exact ⟨"", rfl⟩
  | bool flag => exact ⟨_, rfl⟩
  | int number => exact ⟨_, rfl⟩
  | float number => exact ⟨_, rfl⟩
  | str text => exact ⟨_, rfl⟩
  | atom name => exact ⟨_, rfl⟩
  | _ => cases scalar

end Value

theorem Literal.isScalar_readNumber {text : String} {value : Value}
    (denoted : readNumber text = .ok value) : value.isScalar = true := by
  simp only [readNumber] at denoted
  split at denoted
  · split at denoted
    · cases denoted
      rfl
    · cases denoted
  · simp only [readInteger] at denoted
    split at denoted
    · cases denoted
    · split at denoted
      · cases denoted
        rfl
      · cases denoted

theorem Literal.isScalar_of_denote {literal : Literal} {value : Value}
    (denoted : literal.denote = .ok value) : value.isScalar = true := by
  cases literal with
  | nil =>
      cases denoted
      rfl
  | bool flag =>
      cases denoted
      rfl
  | num text => exact isScalar_readNumber denoted
  | str spelling =>
      simp only [denote] at denoted
      split at denoted
      · cases denoted
        rfl
      · cases denoted
  | atom name =>
      cases denoted
      rfl

theorem UnaryOp.isScalar_of_negate? {operand value : Value}
    (negated : negate? operand = some value) : value.isScalar = true := by
  cases operand with
  | int number =>
      rcases Option.map_eq_some_iff.mp negated with ⟨_, _, rfl⟩
      rfl
  | float number =>
      cases negated
      rfl
  | _ => cases negated

theorem UnaryOp.apply_of_negate? {operand value : Value}
    (negated : negate? operand = some value) : UnaryOp.minus.apply operand = .ok value := by
  simp only [apply, negated]

namespace Expr

theorem isScalar_of_literal? : (expr : Expr) -> {value : Value} ->
    expr.literal? = some value -> value.isScalar = true
  | .lit literal, value, known => Literal.isScalar_of_denote (literal?_lit.mp known)
  | .unary .minus operand, value, known => by
      rcases Option.bind_eq_some_iff.mp known with ⟨_, _, negated⟩
      exact UnaryOp.isScalar_of_negate? negated
  | .group inner, value, known => isScalar_of_literal? inner known

/-- Evaluating a literal makes no call and does not fail. -/
theorem eval_of_literal? (registry : Registry) (context : Context) (scope : Scope) :
    (expr : Expr) -> {value : Value} -> expr.literal? = some value ->
    expr.eval registry context scope = pure value
  | .lit literal, value, known => by
      simp only [eval, literal?_lit.mp known]
      rfl
  | .unary .minus operand, value, known => by
      rcases Option.bind_eq_some_iff.mp known with ⟨inner, found, negated⟩
      simp only [eval, eval_of_literal? registry context scope operand found]
      change Walk.ofExcept (UnaryOp.minus.apply inner) = _
      rw [UnaryOp.apply_of_negate? negated]
      rfl
  | .group inner, value, known => by
      simp only [eval]
      exact eval_of_literal? registry context scope inner known

/-- The known text of a literal has the bytes of what its value prints. -/
theorem literalText?_spec {expr : Expr} {known : String} (literal : expr.literalText? = some known) :
    ∃ value content, expr.literal? = some value ∧ value.toMarkup = .ok content ∧
      known.toUTF8 = content.bytes := by
  rcases Option.bind_eq_some_iff.mp literal with ⟨value, found, literal⟩
  rcases Value.toMarkup_of_isScalar (isScalar_of_literal? expr found) with ⟨text, printed⟩
  rw [printed] at literal
  cases literal
  refine ⟨value, .raw text, found, printed, ?_⟩
  rw [Markup.toText_raw, Markup.bytes_raw]

end Expr
end HtmlTemplate
