import HtmlTemplate.Proofs.Display.Integers
import HtmlTemplate.Proofs.Display.Quotation
import HtmlTemplate.Proofs.Rendering.Layout
import HtmlTemplate.Value.Display

namespace HtmlTemplate

/-!
# Displayed values are read back

A value is displayed the way a pattern is written that matches nothing but the
value.  So what is known of written patterns applies to the text: in a tag it is
neither the head of a clause nor the end of a block, and it is read as one
expression.  The expression holds no name and calls no function.  It is compiled
against every registry, and the result is the value itself, whatever it is
evaluated with.

Maps, markup, dates and objects are displayed in notations that templates do not
read, and floats are left out.
-/

open Reader

/-! ## Expressions that have a value of their own -/

namespace Expr

/-- The expression compiles whatever there is to refer to, and evaluating it
yields the value and changes nothing. -/
def EvaluatesTo (expr : Expr) (value : Value) : Prop :=
  ∀ registry names, ∃ code, expr.compile registry names = .ok code ∧
    ∀ context machine, code.eval context machine = .ok value machine

/-- The expressions compile, and evaluating them yields the values. -/
def AllEvaluateTo (exprs : List Expr) (values : List Value) : Prop :=
  ∀ registry names, ∃ codes, compileAll registry names exprs = .ok codes ∧
    ∀ context machine, Code.evalAll context codes machine = .ok values machine

section Evaluation

variable {expr : Expr} {exprs : List Expr} {value : Value} {values : List Value}

theorem evaluatesTo_lit {literal : Literal} (denotes : literal.denote = .ok value) :
    (Expr.lit literal).EvaluatesTo value := by
  intro registry names
  refine ⟨.const value, ?_, fun _ _ => rfl⟩
  simp only [compile, denotes]
  rfl

theorem EvaluatesTo.unary {op : UnaryOp} {result : Value} (evaluates : expr.EvaluatesTo value)
    (applied : op.apply value = .ok result) : (Expr.unary op expr).EvaluatesTo result := by
  intro registry names
  rcases evaluates registry names with ⟨code, compiled, evaluated⟩
  refine ⟨.unary op code, ?_, fun context machine => ?_⟩
  · simp only [compile, compiled]
    rfl
  · simp only [Code.eval, Bind.bind, EStateM.bind, evaluated, applied]
    rfl

theorem AllEvaluateTo.list (evaluate : AllEvaluateTo exprs values) :
    (Expr.list exprs).EvaluatesTo (.list values) := by
  intro registry names
  rcases evaluate registry names with ⟨codes, compiled, evaluated⟩
  refine ⟨.list codes, ?_, fun context machine => ?_⟩
  · simp only [compile, compiled]
    rfl
  · simp only [Code.eval, Bind.bind, EStateM.bind, evaluated]
    rfl

theorem AllEvaluateTo.tuple (evaluate : AllEvaluateTo exprs values) :
    (Expr.tuple exprs).EvaluatesTo (.tuple values) := by
  intro registry names
  rcases evaluate registry names with ⟨codes, compiled, evaluated⟩
  refine ⟨.tuple codes, ?_, fun context machine => ?_⟩
  · simp only [compile, compiled]
    rfl
  · simp only [Code.eval, Bind.bind, EStateM.bind, evaluated]
    rfl

theorem allEvaluateTo_nil : AllEvaluateTo [] [] :=
  fun _ _ => ⟨[], rfl, fun _ _ => rfl⟩

theorem EvaluatesTo.cons (first : expr.EvaluatesTo value) (others : AllEvaluateTo exprs values) :
    AllEvaluateTo (expr :: exprs) (value :: values) := by
  intro registry names
  rcases first registry names with ⟨code, compiled, evaluated⟩
  rcases others registry names with ⟨codes, compiledAll, evaluatedAll⟩
  refine ⟨code :: codes, ?_, fun context machine => ?_⟩
  · simp only [compileAll, compiled, compiledAll]
    rfl
  · simp only [Code.evalAll, Bind.bind, EStateM.bind, evaluated, evaluatedAll]
    rfl

/-- A template that prints the expression compiles, whether its text is known
beforehand or not. -/
theorem EvaluatesTo.exists_program (evaluates : expr.EvaluatesTo value) (registry : Registry) :
    ∃ program, Program.compile registry [.print (.value expr)] = .ok program := by
  rcases evaluates registry [] with ⟨code, compiled, _⟩
  have here : expr.compileHere registry {} = .ok (code, {}) :=
    compileHere_eq_ok.mpr ⟨code, compiled, rfl⟩
  have ran : ∃ output layout, Node.compileAll registry [.print (.value expr)] {} =
      .ok (output, layout) := by
    cases known : (Action.value expr).literalText? with
    | some text =>
        simp only [Node.compileAll, Node.compile, known]
        exact ⟨_, _, rfl⟩
    | none =>
        simp only [Node.compileAll, Node.compile, known, Node.compileAction, Bind.bind, StateT.bind,
          Except.bind, here]
        exact ⟨_, _, rfl⟩
  rcases ran with ⟨output, layout, ran⟩
  refine ⟨⟨output.toBlock, layout.temps, layout.locals⟩, ?_⟩
  simp only [Program.compile, StateT.run, ran]
  rfl

end Evaluation

end Expr

namespace Value

/-! ## Values that can be written -/

mutual

/-- The template language can write the value. -/
def IsWritable : Value -> Prop
  | .nil => True
  | .bool _ => True
  | .int value => value ≠ Int64.minValue
  | .str _ => True
  | .atom name => Lexeme.identifier name.toList = .ok name []
  | .list items => AllWritable items
  | .tuple items => AllWritable items
  | _ => False

def AllWritable : List Value -> Prop
  | [] => True
  | item :: others => IsWritable item ∧ AllWritable others

end

mutual

/-- The number of lists and tuples around each other. -/
def depth : Value -> Nat
  | .list items => depthAll items + 1
  | .tuple items => depthAll items + 1
  | _ => 0

def depthAll : List Value -> Nat
  | [] => 0
  | item :: others => max (depth item) (depthAll others)

end

mutual

/-- The pattern that is written like the value is displayed.  A value that cannot
be written has none, and a wildcard stands in its place. -/
def pattern : Value -> Pattern
  | .nil => .lit .nil
  | .bool value => .lit (.bool value)
  | .int value => .lit (.num (toString value.toInt))
  | .str content => .lit (Quoted.literal content)
  | .atom name => .lit (.atom name)
  | .list items => .list (patterns items)
  | .tuple items => .tuple (patterns items)
  | _ => .wildcard

def patterns : List Value -> List Pattern
  | [] => []
  | item :: others => pattern item :: patterns others

end

/-! ## The text -/

mutual

theorem toList_displayTo : (value : Value) -> value.IsWritable -> ∀ text,
    (displayTo text value).toList = text.toList ++ value.pattern.write
  | .nil, _, text => by
      simp only [displayTo, String.toList_append]
      rfl
  | .bool value, _, text => by
      cases value with
      | true =>
          simp only [displayTo, String.toList_append]
          rfl
      | false =>
          simp only [displayTo, String.toList_append]
          rfl
  | .int value, _, text => by
      simp only [displayTo, String.toList_append]
      rfl
  | .str content, _, text => by
      simp only [displayTo, String.toList_append, pattern, Pattern.write, Quoted.write_literal,
        Quoted.quote, String.toList_ofList]
  | .atom name, _, text => by
      simp only [displayTo, String.toList_append, List.append_assoc]
      rfl
  | .list items, writable, text => by
      simp only [displayTo, String.toList_append, toList_displayItemsTo items writable,
        List.append_assoc]
      rfl
  | .tuple items, writable, text => by
      simp only [displayTo, String.toList_append, toList_displayItemsTo items writable,
        List.append_assoc]
      rfl

theorem toList_displayItemsTo : (items : List Value) -> AllWritable items -> ∀ text,
    (displayItemsTo text items).toList = text.toList ++ Pattern.writeItems (patterns items)
  | [], _, text => by
      simp only [displayItemsTo, patterns, Pattern.writeItems, List.append_nil]
  | [item], writable, text => by
      simp only [displayItemsTo, toList_displayTo item writable.1, patterns, Pattern.writeItems,
        Pattern.writeOthers, List.append_nil]
  | item :: next :: others, writable, text => by
      simp only [displayItemsTo, toList_displayItemsTo (next :: others) writable.2,
        String.toList_append, toList_displayTo item writable.1, List.append_assoc]
      rfl

end

theorem display_eq {value : Value} (writable : value.IsWritable) :
    value.display = String.ofList value.pattern.write := by
  have text := toList_displayTo value writable ""
  rw [← String.toList_inj, String.toList_ofList, display, text]
  rfl

mutual

theorem depth_pattern : (value : Value) -> value.pattern.depth = value.depth
  | .list items => congrArg (· + 1) (depthAll_patterns items)
  | .tuple items => congrArg (· + 1) (depthAll_patterns items)
  | .nil | .bool _ | .int _ | .float _ | .str _ | .atom _ | .map _ | .markup _ | .date _
  | .time _ | .dateTime _ | .zonedDateTime _ | .object _ _ => rfl

theorem depthAll_patterns : (items : List Value) ->
    Pattern.depthAll (patterns items) = depthAll items
  | [] => rfl
  | item :: others => congrArg₂ max (depth_pattern item) (depthAll_patterns others)

end

mutual

theorem wellFormed_pattern : (value : Value) -> value.IsWritable -> value.pattern.WellFormed
  | .nil, _ => trivial
  | .bool _, _ => trivial
  | .int _, above => wholeInPattern_int above
  | .str content, _ => Quoted.whole_literal content
  | .atom _, known => (bind_of_ok rfl).trans (bind_of_ok known)
  | .list items, writable => allWellFormed_patterns items writable
  | .tuple items, writable => allWellFormed_patterns items writable

theorem allWellFormed_patterns : (items : List Value) -> AllWritable items ->
    Pattern.AllWellFormed (patterns items)
  | [], _ => trivial
  | item :: others, writable =>
      ⟨wellFormed_pattern item writable.1, allWellFormed_patterns others writable.2⟩

end

/-! ## The meaning -/

/-- The expression of a negative integer negates the number of its magnitude. -/
theorem evaluatesTo_int {value : Int64} (above : value ≠ Int64.minValue) :
    (Literal.num (toString value.toInt)).toExpr.EvaluatesTo (.int value) := by
  rcases exists_magnitude above with ⟨magnitude, small, ⟨same, shape⟩ | ⟨same, shape⟩⟩
  · have denotes := Literal.denote_toDigits small
    rw [← shape, String.ofList_toList, ← same, Int64.ofInt_toInt] at denotes
    have nonempty : Nat.toDigits 10 magnitude ≠ [] := Nat.toDigits_ne_nil
    rcases List.exists_cons_of_ne_nil nonempty with ⟨c, tail, digits⟩
    have unsigned : c ≠ '-' := by
      rintro rfl
      have digit := Literal.isDigit_of_mem magnitude '-' (digits ▸ List.mem_cons_self ..)
      exact absurd digit (by decide)
    rw [Literal.toExpr_of_ne (shape.trans digits) unsigned]
    exact Expr.evaluatesTo_lit denotes
  · have whole : (Int64.ofInt magnitude).toInt = magnitude :=
      Int64.toInt_ofInt_of_le (by omega) (by omega)
    have range : int64? value.toInt = some (Int64.ofInt value.toInt) :=
      Literal.int64?_of_range (by omega) (by omega)
    have negated : UnaryOp.minus.apply (.int (Int64.ofInt magnitude)) = .ok (.int value) := by
      simp only [UnaryOp.apply, UnaryOp.negate?, whole, ← same, range, Option.map_some,
        Int64.ofInt_toInt]
    rw [Literal.toExpr_of_minus shape]
    exact (Expr.evaluatesTo_lit (Literal.denote_toDigits small)).unary negated

mutual

/-- The expression that is read from the text of a value has this value. -/
theorem evaluatesTo_pattern : (value : Value) -> value.IsWritable ->
    value.pattern.toExpr.EvaluatesTo value
  | .nil, _ => Expr.evaluatesTo_lit rfl
  | .bool _, _ => Expr.evaluatesTo_lit rfl
  | .int _, above => evaluatesTo_int above
  | .str content, _ => by
      have denotes := Literal.denote_str (Quoted.spelled_literal content)
      rw [String.ofList_toList] at denotes
      exact Expr.evaluatesTo_lit denotes
  | .atom _, _ => Expr.evaluatesTo_lit rfl
  | .list items, writable => (evaluateTo_patterns items writable).list
  | .tuple items, writable => (evaluateTo_patterns items writable).tuple

theorem evaluateTo_patterns : (items : List Value) -> AllWritable items ->
    Expr.AllEvaluateTo (Pattern.toExprs (patterns items)) items
  | [], _ => Expr.allEvaluateTo_nil
  | item :: others, writable =>
      (evaluatesTo_pattern item writable.1).cons (evaluateTo_patterns others writable.2)

end

/-! ## Templates -/

/-- The text of a value in a tag that prints it is read as an expression, the
template compiles, and the expression evaluates to the value. -/
theorem parse_display {value : Value} (writable : value.IsWritable) (shallow : value.depth ≤ 100)
    (template : Option String) :
    ∃ expr, Node.parse .standard template ("<%= " ++ value.display ++ " %>") =
        .ok [.print (.value expr)] ∧
      ∀ registry, (∃ program, Program.compile registry [.print (.value expr)] = .ok program) ∧
        ∃ code, expr.compile registry [] = .ok code ∧
          ∀ context machine, code.eval context machine = .ok value machine := by
  have evaluates := evaluatesTo_pattern value writable
  have low : value.pattern.depth ≤ 125 := by
    rw [depth_pattern]
    omega
  refine ⟨value.pattern.toExpr, ?_, fun registry =>
    ⟨evaluates.exists_program registry, evaluates registry []⟩⟩
  rw [display_eq writable]
  exact Node.parse_pattern (wellFormed_pattern value writable) low template

/-- An atom that is a word of the language, a negative integer, a string that holds
a quote and a delimiter, and a pair that could be a keyword. -/
def nested : Value :=
  .tuple [.atom "nil", .int (-5), .str "say \"hi\"\n%>",
    .list [.tuple [.atom "do", .bool true], .nil]]

theorem parse_display_nested :
    ∃ expr, Node.parse .standard none
        "<%= \x7b:nil, -5, \"say \\\"hi\\\"\\n%>\", [\x7b:do, true\x7d, nil]\x7d %>" =
          .ok [.print (.value expr)] ∧
      ∀ registry, (∃ program, Program.compile registry [.print (.value expr)] = .ok program) ∧
        ∃ code, expr.compile registry [] = .ok code ∧
          ∀ context machine, code.eval context machine = .ok nested machine := by
  have above : (-5 : Int64) ≠ Int64.minValue := by
    decide
  have writable : nested.IsWritable :=
    ⟨rfl, above, trivial, ⟨⟨rfl, trivial, trivial⟩, trivial, trivial⟩, trivial⟩
  have source : "<%= " ++ nested.display ++ " %>" =
      "<%= \x7b:nil, -5, \"say \\\"hi\\\"\\n%>\", [\x7b:do, true\x7d, nil]\x7d %>" := by
    decide +kernel
  have read := parse_display writable (by decide) none
  rwa [source] at read

end Value
end HtmlTemplate
