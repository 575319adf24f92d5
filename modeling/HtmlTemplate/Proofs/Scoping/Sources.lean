import HtmlTemplate.Proofs.Scoping.Acceptance
import HtmlTemplate.Syntax.Source

namespace HtmlTemplate

/-!
# Which sources compile

The literals of a template that was read are what their readers hand over, so
their numbers have the shape of numbers.  With this the conditions of the
compiler become conditions on the source: on the names in scope, the functions
that are registered, the size of integers and the escapes of strings.
-/

open Reader

/-! ## Literals that are read -/

namespace Lexeme

theorem word_yields (good : Literal -> Prop) (nil : good .nil) (bool : ∀ value, good (.bool value)) :
    Yields word good :=
  .orElse (.andThen fun _ => .pure nil)
    (.orElse (.andThen fun _ => .pure (bool false)) (.andThen fun _ => .pure (bool true)))

theorem literal_yields : Yields literal Literal.IsUnsigned := by
  refine .orElse (word_yields _ trivial fun _ => trivial) (.orElse ?_ (.orElse ?_ ?_))
  · refine number_yields.mono fun literal shape => ?_
    rcases shape with ⟨text, rfl, shape⟩
    exact shape
  · exact .andThen fun _ => .andThen fun _ => .andThen fun _ => .pure trivial
  · exact .andThen fun _ => .andThen fun _ => .pure trivial

theorem patternLiteral_yields : Yields patternLiteral Literal.IsSigned := by
  refine .orElse (word_yields _ trivial fun _ => trivial) (.orElse ?_ (.orElse ?_ ?_))
  · refine signedNumber_yields.mono fun literal shape => ?_
    rcases shape with ⟨text, rfl, shape⟩
    exact shape
  · exact .andThen fun _ => .andThen fun _ => .andThen fun _ => .pure trivial
  · exact .andThen fun _ => .andThen fun _ => .pure trivial

end Lexeme

namespace Expr

/-- All literals of an expression have the shape that their reader gives them. -/
def Shaped (expr : Expr) : Prop :=
  ∀ literal, .lit literal ∈ expr.parts -> literal.IsUnsigned

/-- All literals of several expressions have this shape. -/
def AllShaped (exprs : List Expr) : Prop :=
  ∀ expr ∈ exprs, expr.Shaped

theorem allShaped_nil : AllShaped [] :=
  List.forall_mem_nil _

namespace Shaped

variable {object key operand left right inner : Expr} {items : List Expr}

theorem ofParts (shaped : AllShaped items) {literal : Literal}
    (member : .lit literal ∈ partsOfAll items) : literal.IsUnsigned := by
  rcases mem_partsOfAll_iff.mp member with ⟨item, inside, member⟩
  exact shaped item inside literal member

theorem lit {literal : Literal} (shape : literal.IsUnsigned) : Shaped (.lit literal) := by
  intro other member
  cases List.mem_singleton.mp member
  exact shape

theorem assign (name : String) : Shaped (.assign name) :=
  fun _ impossible => nomatch impossible

theorem var (name : String) : Shaped (.var name) :=
  fun _ impossible => nomatch impossible

theorem list (shaped : AllShaped items) : Shaped (.list items) := by
  rintro literal (_ | ⟨_, member⟩)
  exact ofParts shaped member

theorem tuple (shaped : AllShaped items) : Shaped (.tuple items) := by
  rintro literal (_ | ⟨_, member⟩)
  exact ofParts shaped member

theorem attr (shaped : object.Shaped) (name : String) : Shaped (.attr object name) := by
  rintro literal (_ | ⟨_, member⟩)
  exact shaped literal member

theorem index (first : object.Shaped) (second : key.Shaped) : Shaped (.index object key) := by
  rintro literal (_ | ⟨_, member⟩)
  exact (List.mem_append.mp member).elim (first literal) (second literal)

theorem call (name : String) (shaped : AllShaped items) : Shaped (.call name items) := by
  rintro literal (_ | ⟨_, member⟩)
  exact ofParts shaped member

theorem unary (op : UnaryOp) (shaped : operand.Shaped) : Shaped (.unary op operand) := by
  rintro literal (_ | ⟨_, member⟩)
  exact shaped literal member

theorem binary (op : BinaryOp) (first : left.Shaped) (second : right.Shaped) :
    Shaped (.binary op left right) := by
  rintro literal (_ | ⟨_, member⟩)
  exact (List.mem_append.mp member).elim (first literal) (second literal)

theorem group (shaped : inner.Shaped) : Shaped (.group inner) := by
  rintro literal (_ | ⟨_, member⟩)
  exact shaped literal member

/-- A keyword pair adds nothing but an atom. -/
theorem ofKeyword {pair : String × Expr} (shaped : pair.2.Shaped) : (ofKeyword pair).Shaped := by
  refine tuple fun item member => ?_
  rcases List.mem_cons.mp member with rfl | member
  · exact lit trivial
  · cases List.mem_singleton.mp member
    exact shaped

end Shaped

/-! ## Expressions that are read -/

/-- The expression of an argument has the shape. -/
def Argument.Shaped : Argument -> Prop
  | .positional value => value.Shaped
  | .keyword pair => pair.2.Shaped

theorem shaped_collectFrom {args : List Argument} (shaped : ∀ arg ∈ args, arg.Shaped)
    {positional keywords exprs : List Expr} (first : AllShaped positional)
    (second : AllShaped keywords) (found : collect?.go positional keywords args = some exprs) :
    AllShaped exprs := by
  induction args generalizing positional keywords with
  | nil =>
      simp only [collect?.go, Option.some.injEq] at found
      subst found
      intro expr member
      rcases List.mem_append.mp member with member | member
      · exact first expr (List.mem_reverse.mp member)
      · split at member
        · cases member
        · cases List.mem_singleton.mp member
          exact .list fun item inside => second item (List.mem_reverse.mp inside)
  | cons arg others inductionHypothesis =>
      rcases List.forall_mem_cons.mp shaped with ⟨known, rest⟩
      cases arg with
      | positional value =>
          simp only [collect?.go] at found
          split at found
          · exact inductionHypothesis rest (List.forall_mem_cons.mpr ⟨known, first⟩) second found
          · cases found
      | keyword pair =>
          have pair : (ofKeyword pair).Shaped := Shaped.ofKeyword known
          exact inductionHypothesis rest first (List.forall_mem_cons.mpr ⟨pair, second⟩) found

section Values

variable {value : Reader Expr} (yields : Yields value Shaped)

include yields

theorem keywordPair_shaped : Yields (keywordPair value) fun pair => pair.2.Shaped :=
  .andThen fun _ => yields.spaced.bind fun _ shaped => .pure shaped

theorem listItem_shaped : Yields (listItem value) Shaped :=
  .orElse ((keywordPair_shaped yields).bind fun _ shaped => .pure shaped.ofKeyword) yields

theorem argument_shaped : Yields (argument value) Argument.Shaped :=
  .orElse ((keywordPair_shaped yields).bind fun _ shaped => .pure shaped)
    (yields.bind fun _ shaped => .pure shaped)

theorem arguments_shaped : Yields (arguments value) AllShaped := by
  refine .andThen fun start => .andThen fun _ => Yields.bind (Yields.commit
    ((argument_shaped yields).spaced.separated.bind fun args known =>
      .andThen fun _ => .andThen fun _ => .pure known)) fun args known => ?_
  cases collected : collect? args with
  | none => exact .failAt start .positionalAfterKeyword
  | some exprs => exact .pure (shaped_collectFrom known allShaped_nil allShaped_nil collected)

end Values

section Operands

variable {inside : Nat -> Reader Expr} (shaped : ∀ room, Yields (inside room) Shaped) {room : Nat}

include shaped

theorem primary_shaped : Yields (primary inside room) Shaped := by
  refine .orElse (Lexeme.literal_yields.bind fun _ shape => .pure (.lit shape)) ?_
  refine .orElse (.andThen fun _ => .andThen fun name => .pure (.assign name)) ?_
  refine .orElse (.andThen fun name => .bind (.nested fun less _ =>
    arguments_shaped (shaped less)) fun args known => .pure (.call name known)) ?_
  refine .orElse (.andThen fun name => .pure (.var name)) ?_
  refine .orElse (.nested fun less _ => .andThen fun _ => .bind
    (.commit ((listItem_shaped (shaped less)).spaced.separated.bind fun _ known =>
      .andThen fun _ => .pure known)) fun items known => .andThen fun _ => .pure (.list known)) ?_
  refine .orElse (.nested fun less _ => .andThen fun _ => .bind
    (.commit (shaped less).spaced.separated) fun items known =>
      .andThen fun _ => .pure (.tuple known)) ?_
  exact .nested fun less _ => .andThen fun _ => .bind (.commit (shaped less).spaced)
    fun inner known => .andThen fun _ => .pure (.group known)

theorem suffix_shaped (room : Nat) :
    Yields (attrSuffix <|> indexSuffix inside room) fun suffix =>
      ∀ object : Expr, object.Shaped -> (suffix.apply object).Shaped := by
  refine .orElse ?_ (.nested fun less _ => ?_)
  · exact .andThen fun _ => .andThen fun _ => .andThen fun name =>
      .pure fun _ known => known.attr name
  · refine .andThen fun _ => .bind (Yields.commit ?_) fun key known =>
      .pure fun _ known' => .index known' known
    exact (shaped less).spaced.bind fun _ known => .andThen fun _ => .pure known

theorem suffixes_shaped {object : Expr} (known : object.Shaped) :
    Yields (suffixes inside room object) Shaped := by
  induction room generalizing object with
  | zero =>
      refine .andThen fun start => .andThen fun suffix => ?_
      cases suffix with
      | none => exact .pure known
      | some suffix => exact .failAt start .tooDeep
  | succ room inductionHypothesis =>
      refine .bind (suffix_shaped shaped (room + 1)).optional fun suffix applied => ?_
      cases suffix with
      | none => exact .pure known
      | some suffix => exact inductionHypothesis (applied suffix rfl object known)

theorem suffixed_shaped : Yields (suffixed inside room) Shaped :=
  (primary_shaped shaped).bind fun _ known => suffixes_shaped shaped known

theorem prefixed_shaped : Yields (prefixed room (suffixed inside)) Shaped := by
  refine .andThen fun ops => .andThen fun left => ?_
  refine (suffixed_shaped shaped).bind fun inner known => .pure ?_
  induction ops with
  | nil => exact known
  | cons op others inductionHypothesis => exact inductionHypothesis.unary op

omit shaped in
theorem chain_shaped {op : Reader BinaryOp} {operand : Reader Expr}
    (yields : Yields operand Shaped) : Yields (chain op room operand) Shaped := by
  refine yields.bind fun first known => ?_
  have link : Yields (do
      let op ← spaced op
      let right ← operand
      return (op, right)) fun other : BinaryOp × Expr => other.2.Shaped :=
    .andThen fun _ => yields.bind fun _ known => .pure known
  refine link.many.bind fun others linked => .andThen fun _ => .pure ?_
  induction others generalizing first with
  | nil => exact known
  | cons other others inductionHypothesis =>
      rcases List.forall_mem_cons.mp linked with ⟨right, linked⟩
      exact inductionHypothesis _ (known.binary other.1 right) linked

theorem readWith_shaped : Yields (readWith inside room) Shaped := by
  unfold readWith
  induction levels with
  | nil => exact prefixed_shaped shaped
  | cons op others inductionHypothesis => exact chain_shaped inductionHypothesis

end Operands

theorem readRounds_shaped (rounds room : Nat) : Yields (readRounds rounds room) Shaped := by
  induction rounds generalizing room with
  | zero => exact .fail .tooDeep
  | succ rounds inductionHypothesis => exact readWith_shaped inductionHypothesis

theorem read_shaped (room : Nat) : Yields (read room) Shaped :=
  readRounds_shaped (room + 1) room

end Expr

/-! ## Patterns that are read -/

namespace Pattern

/-- All literals of a pattern have the shape that their reader gives them. -/
def Shaped (pattern : Pattern) : Prop :=
  ∀ literal ∈ pattern.literals, literal.IsSigned

theorem shaped_items {items : List Pattern} (shaped : ∀ item ∈ items, item.Shaped) :
    ∀ literal ∈ literalsOfAll items, literal.IsSigned := by
  induction items with
  | nil => exact List.forall_mem_nil _
  | cons item rest inductionHypothesis =>
      rcases List.forall_mem_cons.mp shaped with ⟨first, others⟩
      exact List.forall_mem_append.mpr ⟨first, inductionHypothesis others⟩

theorem lit_shaped : Yields (do
    let literal ← Lexeme.patternLiteral
    return Pattern.lit literal) Shaped :=
  Lexeme.patternLiteral_yields.bind fun _ shape => .pure (List.forall_mem_singleton.mpr shape)

theorem readName_shaped : Yields readName Shaped := by
  have noLiteral {pattern : Pattern} (none : pattern.literals = []) : pattern.Shaped := by
    rw [Shaped, none]
    exact List.forall_mem_nil _
  intro source pattern rest read
  simp only [readName] at read
  split at read
  · split at read
    · cases read
      exact noLiteral rfl
    · split at read
      · cases read
      · cases read
        exact noLiteral rfl
  · cases read
  · cases read

theorem read_shaped (room : Nat) : Yields (read room) Shaped := by
  induction room with
  | zero => exact .orElse lit_shaped (.orElse readName_shaped (.fail .tooDeep))
  | succ room inductionHypothesis =>
      have items (opening closing : Char) : Yields (readItems opening closing (read room))
          fun items => ∀ item ∈ items, item.Shaped :=
        .andThen fun _ => inductionHypothesis.spaced.separated.bind fun _ known =>
          .andThen fun _ => .andThen fun _ => .pure known
      refine .orElse lit_shaped (.orElse readName_shaped (.orElse ?_ ?_))
      · exact (items _ _).bind fun _ known => .pure (shaped_items known)
      · exact (items _ _).bind fun _ known => .pure (shaped_items known)

end Pattern

/-! ## Templates that are read -/

/-- What a tag holds has the shape that its reader gives it. -/
def Holding.Shaped : Holding -> Prop
  | .expr held => held.Shaped
  | .pattern held => held.Shaped
  | .function _ => True

namespace Node

/-- Everything in the nodes has the shape that its reader gives it. -/
def AllShaped (nodes : List Node) : Prop :=
  Everywhere (fun _ => Holding.Shaped) nodes

/-- Everything in a tag has this shape. -/
def ActionShaped (action : Action) : Prop :=
  (∀ holding ∈ action.holdings, holding.Shaped) ∧ ∀ block ∈ action.blocks, AllShaped block.2

/-- Everything in a node has this shape. -/
def Shaped (node : Node) : Prop :=
  (∀ holding ∈ node.holdings, holding.Shaped) ∧ ∀ block ∈ node.blocks, AllShaped block.2

theorem allShaped_of_forall {nodes : List Node} (shaped : ∀ node ∈ nodes, node.Shaped) :
    AllShaped nodes := by
  induction nodes with
  | nil => exact everywhere_nil
  | cons node rest inductionHypothesis =>
      rcases List.forall_mem_cons.mp shaped with ⟨first, others⟩
      exact everywhere_cons_iff.mpr ⟨first.1, first.2, inductionHypothesis others⟩

section Tags

variable {delimiters : Delimiters} {room : Nat} {body : Reader (List Node)}
  (yields : Yields body AllShaped)

include yields

theorem readCond_shaped (negated : Bool) :
    Yields (readCond delimiters room body negated) ActionShaped := by
  refine (Expr.read_shaped room).spaced.bind fun test known => .andThen fun _ => ?_
  refine yields.bind fun holds first => .andThen fun other => ?_
  have last (fails : List Node) (second : AllShaped fails) : Yields (do
      closeBlock delimiters (if negated then "unless" else "if")
      return Action.cond negated test holds fails) ActionShaped :=
    .andThen fun _ => .pure ⟨List.forall_mem_singleton.mpr known,
      List.forall_mem_cons.mpr ⟨first, List.forall_mem_singleton.mpr second⟩⟩
  cases other with
  | none => exact last [] everywhere_nil
  | some _ => exact yields.bind last

theorem readLoop_shaped : Yields (readLoop delimiters room body) ActionShaped := by
  refine (Pattern.read_shaped room).spaced.bind fun pattern first => .andThen fun _ => ?_
  refine (Expr.read_shaped room).spaced.bind fun source second => .andThen fun _ => ?_
  refine yields.bind fun nodes third => .andThen fun _ => .pure ⟨?_, ?_⟩
  · exact List.forall_mem_cons.mpr ⟨second, List.forall_mem_singleton.mpr first⟩
  · exact List.forall_mem_singleton.mpr third

theorem readClause_shaped : Yields (readClause delimiters room body) fun clause =>
    clause.pattern.Shaped ∧ AllShaped clause.body := by
  have head : Yields (clauseHead room) Pattern.Shaped :=
    (Pattern.read_shaped room).spaced.bind fun _ known => .andThen fun _ => .pure known
  exact .andThen fun _ => head.bind fun _ first => .andThen fun _ =>
    yields.bind fun _ second => .pure ⟨first, second⟩

theorem readChoice_shaped : Yields (readChoice delimiters room body) ActionShaped := by
  refine (Expr.read_shaped room).spaced.bind fun subject known => .andThen fun _ =>
    .andThen fun _ => ?_
  have clause := @readClause_shaped delimiters room _ yields
  refine (clause.require _).bind fun first firstKnown => clause.many.bind fun others known' => ?_
  have all : ∀ clause ∈ first :: others, clause.pattern.Shaped ∧ AllShaped clause.body :=
    List.forall_mem_cons.mpr ⟨firstKnown, known'⟩
  refine .andThen fun _ => .pure ⟨List.forall_mem_cons.mpr ⟨known, ?_⟩, ?_⟩
  · exact List.forall_mem_map.mpr fun clause member => (all clause member).1
  · exact List.forall_mem_map.mpr fun clause member => (all clause member).2

theorem readPlain_shaped : Yields (readPlain delimiters room body) ActionShaped := by
  refine .andThen fun start => (Expr.read_shaped room).bind fun expr known =>
    .andThen fun block => ?_
  cases block with
  | none =>
      exact .andThen fun _ => .pure ⟨List.forall_mem_singleton.mpr known,
        fun _ impossible => nomatch impossible⟩
  | some _ =>
      cases expr with
      | call name args =>
          refine .andThen fun _ => yields.bind fun nodes inner => .andThen fun _ => .pure ⟨?_, ?_⟩
          · refine List.forall_mem_cons.mpr ⟨trivial, List.forall_mem_map.mpr fun arg member => ?_⟩
            exact fun literal part => known literal
              (List.mem_cons_of_mem _ (Expr.mem_partsOfAll_iff.mpr ⟨arg, member, part⟩))
          · exact List.forall_mem_singleton.mpr inner
      | _ => exact .failAt start .blockWithoutCall

theorem readAction_shaped : Yields (readAction delimiters room body) ActionShaped := by
  refine .andThen fun word => ?_
  split
  · exact readCond_shaped yields false
  · exact readCond_shaped yields true
  · exact readLoop_shaped yields
  · exact readChoice_shaped yields
  · exact readPlain_shaped yields

theorem readStatement_shaped (printed : Bool) :
    Yields (readStatement delimiters room body printed) Shaped := by
  have action := @readAction_shaped delimiters room _ yields
  cases printed with
  | true =>
      have noBinding : Yields (Reader.pure none : Reader (Option Pattern)) fun found =>
          found = none :=
        .pure rfl
      refine noBinding.bind fun found same => ?_
      subst same
      exact .andThen fun _ => action.bind fun _ known => .pure known
  | false =>
      have head : Yields (bindingHead room) Pattern.Shaped :=
        (Pattern.read_shaped room).spaced.bind fun _ known =>
          .andThen fun _ => .andThen fun _ => .pure known
      refine head.optional.bind fun found known => ?_
      cases found with
      | none => exact .andThen fun _ => action.bind fun _ known => .pure known
      | some pattern =>
          refine (Expr.read_shaped room).spaced.bind fun expr known' =>
            .andThen fun _ => .pure ⟨?_, ?_⟩
          · exact List.forall_mem_cons.mpr
              ⟨known', List.forall_mem_singleton.mpr (known pattern rfl)⟩
          · exact fun _ impossible => nomatch impossible

end Tags

theorem readText_shaped (delimiters : Delimiters) : Yields (readText delimiters) Shaped := by
  have text (content : String) : Shaped (.text content) :=
    ⟨List.forall_mem_nil _, List.forall_mem_nil _⟩
  intro source node rest read
  simp only [readText] at read
  split at read
  · cases read
  · split at read
    · split at read
      · cases read
        exact text _
      · cases read
    · split at read
      · cases read
        exact text _
      · cases read
        exact text _

theorem readComment_shaped (delimiters : Delimiters) :
    Yields (readComment delimiters) Shaped := by
  refine .andThen fun start => .andThen fun _ => .andThen fun _ => ?_
  intro source node rest read
  dsimp only at read
  split at read
  · cases read
    exact ⟨List.forall_mem_nil _, List.forall_mem_nil _⟩
  · cases read

theorem readAll_shaped (delimiters : Delimiters) (room : Nat) :
    Yields (readAll delimiters room) AllShaped := by
  suffices single : Yields (readAll delimiters room) (fun nodes => ∀ node ∈ nodes, node.Shaped) from
    single.mono fun _ => allShaped_of_forall
  induction room with
  | zero =>
      refine .many (.orElse (readText_shaped _) (.orElse (readComment_shaped _) ?_))
      exact .andThen fun start => .andThen fun _ => .andThen fun _ => .andThen fun _ =>
        .failAt start .tooDeep
  | succ room inductionHypothesis =>
      refine .many (.orElse (readText_shaped _) (.orElse (readComment_shaped _) ?_))
      exact .andThen fun _ => .andThen fun _ => .andThen fun printed => .andThen fun _ =>
        readStatement_shaped (inductionHypothesis.mono fun _ => allShaped_of_forall) _

theorem shaped_of_parse {delimiters : Delimiters} {template : Option String} {source : String}
    {nodes : List Node} (read : parse delimiters template source = .ok nodes) :
    AllShaped nodes := by
  simp only [parse] at read
  split at read
  all_goals cases read
  rename_i found
  exact readAll_shaped _ _ _ _ _ found

/-! ## Templates that compile -/

/-- Every name is visible where it is used, every function is known, and every
literal denotes a value. -/
structure WellScoped (registry : Registry) (nodes : List Node) : Prop where
  names : ∀ {scope expr name}, Stands nodes scope (.expr expr) -> .var name ∈ expr.parts ->
    ∃ pattern ∈ scope, name ∈ pattern.bindings
  functions : ∀ {scope expr name args}, Stands nodes scope (.expr expr) ->
    .call name args ∈ expr.parts -> registry.Knows name
  blockFunctions : ∀ {scope name}, Stands nodes scope (.function name) -> registry.Knows name
  literals : ∀ {scope expr literal}, Stands nodes scope (.expr expr) ->
    .lit literal ∈ expr.parts -> literal.InOrder
  patternLiterals : ∀ {scope pattern literal}, Stands nodes scope (.pattern pattern) ->
    literal ∈ pattern.literals -> literal.InOrderSigned

theorem allPass_of_wellScoped {registry : Registry} {nodes : List Node} (shaped : AllShaped nodes)
    (ordered : WellScoped registry nodes) : AllPass registry [] nodes := by
  intro scope holding stands
  have known : holding.Shaped := shaped scope holding stands
  rw [List.append_nil]
  cases holding with
  | expr held =>
      intro part member
      cases part with
      | lit literal =>
          exact (Literal.denotes_iff (known literal member)).mpr (ordered.literals stands member)
      | var name => exact List.mem_flatMap.mpr (ordered.names stands member)
      | call name args => exact ordered.functions stands member
      | _ => exact trivial
  | pattern held =>
      intro literal member
      exact (Literal.denotes_signed_iff (known literal member)).mpr
        (ordered.patternLiterals stands member)
  | function name => exact ordered.blockFunctions stands

theorem wellScoped_of_allPass {registry : Registry} {nodes : List Node} (shaped : AllShaped nodes)
    (passes : AllPass registry [] nodes) : WellScoped registry nodes := by
  have held {scope : List Pattern} {expr part : Expr} (stands : Stands nodes scope (.expr expr))
      (member : part ∈ expr.parts) :
      part.Passes registry (scope.flatMap Pattern.bindings) := by
    rw [← List.append_nil (scope.flatMap Pattern.bindings)]
    exact passes scope _ stands part member
  constructor
  case names =>
    intro scope expr name stands member
    exact List.mem_flatMap.mp (held stands member)
  case functions =>
    intro scope expr name args stands member
    exact held stands member
  case blockFunctions =>
    intro scope name stands
    exact passes scope _ stands
  case literals =>
    intro scope expr literal stands member
    have shape : literal.IsUnsigned := shaped scope _ stands literal member
    exact (Literal.denotes_iff shape).mp (held stands member)
  case patternLiterals =>
    intro scope pattern literal stands member
    have shape : literal.IsSigned := shaped scope _ stands literal member
    exact (Literal.denotes_signed_iff shape).mp (passes scope _ stands literal member)

/-- A template that was read compiles exactly if it is well scoped. -/
theorem exists_compile_iff_wellScoped {delimiters : Delimiters} {template : Option String}
    {source : String} {nodes : List Node} (read : parse delimiters template source = .ok nodes)
    (registry : Registry) :
    (∃ program, Program.compile registry nodes = .ok program) ↔ WellScoped registry nodes := by
  have shaped : AllShaped nodes := shaped_of_parse read
  have bare : Layout.Shows {} [] := fun _ => Iff.rfl
  have compiles : (∃ program, Program.compile registry nodes = .ok program) ↔
      AllPass registry [] nodes := by
    refine Iff.trans ?_ (exists_compileAll_iff nodes bare)
    simp only [Program.compile]
    exact Expr.exists_bind_ok_iff
  exact compiles.trans ⟨wellScoped_of_allPass shaped, allPass_of_wellScoped shaped⟩

/-- An earlier binding, a pattern at the head of a block, and the smallest
integer. -/
theorem exists_compile_iff_wellScoped_rows :
    let source := "<% x = [] %><%= for [y, -9223372036854775808] <- @rows do %><%= x + y %><% end %>"
    ∃ nodes, parse .standard none source = .ok nodes ∧
      (∃ program, Program.compile [] nodes = .ok program) ∧ WellScoped [] nodes := by
  intro source
  have compiles : ((parse .standard none source).toOption.bind fun nodes =>
      (Program.compile [] nodes).toOption).isSome = true := by
    decide +kernel
  cases read : parse .standard none source with
  | error fault =>
      rw [read] at compiles
      cases compiles
  | ok nodes =>
      rw [read] at compiles
      cases compiled : Program.compile [] nodes with
      | error fault =>
          simp [Except.toOption, compiled] at compiles
      | ok program =>
          have found : ∃ program, Program.compile [] nodes = .ok program := ⟨program, compiled⟩
          exact ⟨nodes, rfl, found, (exists_compile_iff_wellScoped read []).mp found⟩

end Node
end HtmlTemplate
