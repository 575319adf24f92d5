import HtmlTemplate.Syntax.ExprReader

namespace HtmlTemplate

/-!
# Wrappers on the way to a leaf

A path leads from a node to a leaf of its tree, and every tag, block, bracket,
call, suffix and operator that it enters is a wrapper.  Two kinds are told
apart.  What is inside of a bracket, of a call, of a key or after an operator in
front is read with one level less, so these wrappers take a level.  A binary
operator and a suffix are put around operands that were read before, and the
pair of a keyword and the list of the keywords of a call are put around values
without a bracket of their own.  These are free.

A path counts both kinds, so the number of its wrappers is the sum.
-/

namespace Expr

/-- A pair of an atom and a value, which a keyword may stand for. -/
def isPair : Expr -> Bool
  | .tuple [.lit (.atom _), _] => true
  | _ => false

/-- A list of pairs, which the keywords of a call may stand for. -/
def isKeywords : Expr -> Bool
  | .list (item :: others) => isPair item && others.all isPair
  | _ => false

/-- A path from an expression to a leaf, with the levels that its wrappers take
and the number of its free wrappers. -/
inductive Path : Expr -> (taken free : Nat) -> Prop where
  | lit (literal : Literal) : Path (.lit literal) 0 0
  | assign (name : String) : Path (.assign name) 0 0
  | var (name : String) : Path (.var name) 0 0
  | noItem : Path (.list []) 1 0
  | item {items : List Expr} {item : Expr} {taken free : Nat} (member : item ∈ items)
      (plain : isPair item = false) (path : Path item taken free) :
      Path (.list items) (taken + 1) free
  | pair {items : List Expr} {item : Expr} {taken free : Nat} (member : item ∈ items)
      (keyword : isPair item = true) (path : Path item (taken + 1) free) :
      Path (.list items) (taken + 1) (free + 1)
  | noElement : Path (.tuple []) 1 0
  | element {items : List Expr} {item : Expr} {taken free : Nat} (member : item ∈ items)
      (path : Path item taken free) : Path (.tuple items) (taken + 1) free
  | noArgument (name : String) : Path (.call name []) 1 0
  | argument {args : List Expr} {arg : Expr} {taken free : Nat} (name : String)
      (member : arg ∈ args) (plain : isKeywords arg = false) (path : Path arg taken free) :
      Path (.call name args) (taken + 1) free
  | keywords {args : List Expr} {arg : Expr} {taken free : Nat} (name : String)
      (member : arg ∈ args) (keyword : isKeywords arg = true) (path : Path arg (taken + 1) free) :
      Path (.call name args) (taken + 1) (free + 1)
  | attr {object : Expr} {taken free : Nat} (name : String) (path : Path object taken free) :
      Path (.attr object name) taken (free + 1)
  | object {object : Expr} {taken free : Nat} (key : Expr) (path : Path object taken free) :
      Path (.index object key) taken (free + 1)
  | key {key : Expr} {taken free : Nat} (object : Expr) (path : Path key taken free) :
      Path (.index object key) (taken + 1) free
  | unary {operand : Expr} {taken free : Nat} (op : UnaryOp) (path : Path operand taken free) :
      Path (.unary op operand) (taken + 1) free
  | left {left : Expr} {taken free : Nat} (op : BinaryOp) (right : Expr)
      (path : Path left taken free) : Path (.binary op left right) taken (free + 1)
  | right {right : Expr} {taken free : Nat} (op : BinaryOp) (left : Expr)
      (path : Path right taken free) : Path (.binary op left right) taken (free + 1)
  | group {inner : Expr} {taken free : Nat} (path : Path inner taken free) :
      Path (.group inner) (taken + 1) free

/-- No path takes more levels than there is room, and none has more wrappers
than the total. -/
def Within (room total : Nat) (expr : Expr) : Prop :=
  ∀ taken free, Path expr taken free -> taken ≤ room ∧ taken + free ≤ total

namespace Within

variable {room total more : Nat} {expr object key left right : Expr} {exprs : List Expr}

theorem mono {wider : Nat} (within : Within room total expr) (deeper : room ≤ wider)
    (larger : total ≤ more) : Within wider more expr := by
  intro taken free path
  have bounds := within taken free path
  omega

theorem lit (literal : Literal) : Within room total (.lit literal) := by
  intro taken free path
  cases path
  omega

theorem assign (name : String) : Within room total (.assign name) := by
  intro taken free path
  cases path
  omega

theorem var (name : String) : Within room total (.var name) := by
  intro taken free path
  cases path
  omega

theorem group (within : Within room total expr) : Within (room + 1) (total + 1) (.group expr) := by
  intro taken free path
  cases path with
  | group path =>
      have bounds := within _ _ path
      omega

theorem unary (within : Within room total expr) (op : UnaryOp) :
    Within (room + 1) (total + 1) (.unary op expr) := by
  intro taken free path
  cases path with
  | unary _ path =>
      have bounds := within _ _ path
      omega

theorem attr (within : Within room total object) (name : String) :
    Within room (total + 1) (.attr object name) := by
  intro taken free path
  cases path with
  | attr _ path =>
      have bounds := within _ _ path
      omega

theorem index {less inner : Nat} (first : Within room total object) (second : Within less inner key)
    (deeper : less < room) (larger : inner ≤ total) :
    Within room (total + 1) (.index object key) := by
  intro taken free path
  cases path with
  | object _ path =>
      have bounds := first _ _ path
      omega
  | key _ path =>
      have bounds := second _ _ path
      omega

theorem binary (first : Within room total left) (second : Within room total right)
    (op : BinaryOp) : Within room (total + 1) (.binary op left right) := by
  intro taken free path
  cases path with
  | left _ _ path =>
      have bounds := first _ _ path
      omega
  | right _ _ path =>
      have bounds := second _ _ path
      omega

theorem tuple (within : ∀ expr ∈ exprs, Within room total expr) :
    Within (room + 1) (total + 1) (.tuple exprs) := by
  intro taken free path
  cases path with
  | noElement => omega
  | element member path =>
      have bounds := within _ member _ _ path
      omega

end Within

/-! ## Keywords -/

/-- The bounds hold for an item of a list, or for the value of the keyword that
the item stands for. -/
def WithinItem (room total : Nat) (item : Expr) : Prop :=
  Within room total item ∨ ∃ pair, item = ofKeyword pair ∧ Within room total pair.2

/-- The bounds hold for an argument, or for the values of the keywords that the
argument stands for. -/
def WithinArgument (room total : Nat) (arg : Expr) : Prop :=
  Within room total arg ∨ ∃ items, arg = .list items ∧ items ≠ [] ∧
    ∀ item ∈ items, ∃ pair, item = ofKeyword pair ∧ Within room total pair.2

section Keywords

variable {room total taken free : Nat}

/-- The tuple of a pair is a wrapper more than its value has. -/
theorem within_ofKeyword {pair : String × Expr} (within : Within room total pair.2)
    (path : Path (ofKeyword pair) (taken + 1) free) : taken ≤ room ∧ taken + free ≤ total := by
  cases path with
  | element member path =>
      simp only [List.mem_cons, List.not_mem_nil, or_false] at member
      rcases member with rfl | rfl
      · cases path
        omega
      · exact within _ _ path

theorem within_pair {item : Expr} (within : WithinItem room total item)
    (path : Path item (taken + 1) free) : taken ≤ room ∧ taken + free ≤ total := by
  rcases within with within | ⟨pair, rfl, within⟩
  · have bounds := within _ _ path
    omega
  · exact within_ofKeyword within path

theorem Within.list {items : List Expr} (within : ∀ item ∈ items, WithinItem room total item) :
    Within (room + 1) (total + 2) (.list items) := by
  intro taken free path
  cases path with
  | noItem => omega
  | item member plain path =>
      rcases within _ member with within | ⟨pair, rfl, _⟩
      · have bounds := within _ _ path
        omega
      · cases plain
  | pair member keyword path =>
      have bounds := within_pair (within _ member) path
      omega

theorem isKeywords_ofKeyword {items : List Expr} (nonempty : items ≠ [])
    (keywords : ∀ item ∈ items, isPair item = true) : isKeywords (.list items) = true := by
  cases items with
  | nil => exact absurd rfl nonempty
  | cons item others =>
      simp only [isKeywords, Bool.and_eq_true, List.all_eq_true]
      exact List.forall_mem_cons.mp keywords

theorem Within.call {args : List Expr} (name : String)
    (within : ∀ arg ∈ args, WithinArgument room total arg) :
    Within (room + 1) (total + 3) (.call name args) := by
  intro taken free path
  cases path with
  | noArgument => omega
  | argument _ member plain path =>
      rcases within _ member with within | ⟨items, rfl, nonempty, pairs⟩
      · have bounds := within _ _ path
        omega
      · have keywords : isKeywords (.list items) = true := by
          refine isKeywords_ofKeyword nonempty fun item member => ?_
          rcases pairs item member with ⟨pair, rfl, _⟩
          rfl
        rw [keywords] at plain
        cases plain
  | keywords _ member keyword path =>
      rcases within _ member with within | ⟨items, rfl, nonempty, pairs⟩
      · have bounds := within _ _ path
        omega
      · have list : Within (room + 1) (total + 2) (.list items) :=
          Within.list fun item member => .inr (pairs item member)
        have bounds := list _ _ path
        omega

end Keywords

end Expr

/-! ## Patterns and nodes -/

/-- A path from a pattern to a leaf, with the brackets on it. -/
inductive Pattern.Path : Pattern -> (taken : Nat) -> Prop where
  | wildcard : Path .wildcard 0
  | var (name : String) : Path (.var name) 0
  | lit (literal : Literal) : Path (.lit literal) 0
  | noElement : Path (.tuple []) 1
  | element {items : List Pattern} {item : Pattern} {taken : Nat} (member : item ∈ items)
      (path : Path item taken) : Path (.tuple items) (taken + 1)
  | noItem : Path (.list []) 1
  | item {items : List Pattern} {item : Pattern} {taken : Nat} (member : item ∈ items)
      (path : Path item taken) : Path (.list items) (taken + 1)

mutual

/-- A path from a node to a leaf.  The tag takes a level. -/
inductive Node.Path : Node -> (taken free : Nat) -> Prop where
  | text (text : String) : Node.Path (.text text) 0 0
  | comment (text : String) : Node.Path (.comment text) 0 0
  | print {action : Action} {taken free : Nat} (path : Action.Path action taken free) :
      Node.Path (.print action) (taken + 1) free
  | silent {action : Action} {taken free : Nat} (path : Action.Path action taken free) :
      Node.Path (.silent action) (taken + 1) free
  | target {pattern : Pattern} {taken : Nat} (expr : Expr) (path : pattern.Path taken) :
      Node.Path (.bind pattern expr) (taken + 1) 0
  | source {expr : Expr} {taken free : Nat} (pattern : Pattern) (path : expr.Path taken free) :
      Node.Path (.bind pattern expr) (taken + 1) free

/-- A path from the inside of a tag to a leaf.  It may lead through the nodes of
a block, each of which is inside of the tag as well. -/
inductive Action.Path : Action -> (taken free : Nat) -> Prop where
  | value {expr : Expr} {taken free : Nat} (path : expr.Path taken free) :
      Action.Path (.value expr) taken free
  | test {test : Expr} {taken free : Nat} (negated : Bool) (holds fails : List Node)
      (path : test.Path taken free) : Action.Path (.cond negated test holds fails) taken free
  | holds {holds : List Node} {node : Node} {taken free : Nat} (negated : Bool) (test : Expr)
      (fails : List Node) (member : node ∈ holds) (path : Node.Path node taken free) :
      Action.Path (.cond negated test holds fails) taken free
  | fails {fails : List Node} {node : Node} {taken free : Nat} (negated : Bool) (test : Expr)
      (holds : List Node) (member : node ∈ fails) (path : Node.Path node taken free) :
      Action.Path (.cond negated test holds fails) taken free
  | item {pattern : Pattern} {taken : Nat} (source : Expr) (body : List Node)
      (path : pattern.Path taken) : Action.Path (.loop pattern source body) taken 0
  | source {source : Expr} {taken free : Nat} (pattern : Pattern) (body : List Node)
      (path : source.Path taken free) : Action.Path (.loop pattern source body) taken free
  | round {body : List Node} {node : Node} {taken free : Nat} (pattern : Pattern) (source : Expr)
      (member : node ∈ body) (path : Node.Path node taken free) :
      Action.Path (.loop pattern source body) taken free
  | subject {subject : Expr} {taken free : Nat} (clauses : List Clause)
      (path : subject.Path taken free) : Action.Path (.choice subject clauses) taken free
  | head {clauses : List Clause} {pattern : Pattern} {body : List Node} {taken : Nat}
      (subject : Expr) (member : .clause pattern body ∈ clauses) (path : pattern.Path taken) :
      Action.Path (.choice subject clauses) taken 0
  | clause {clauses : List Clause} {pattern : Pattern} {body : List Node} {node : Node}
      {taken free : Nat} (subject : Expr) (found : .clause pattern body ∈ clauses)
      (member : node ∈ body) (path : Node.Path node taken free) :
      Action.Path (.choice subject clauses) taken free
  | call {name : String} {args : List Expr} {taken free : Nat} (body : List Node)
      (path : Expr.Path (.call name args) taken free) :
      Action.Path (.callBlock name args body) taken free
  | block {body : List Node} {node : Node} {taken free : Nat} (name : String)
      (args : List Expr) (member : node ∈ body) (path : Node.Path node taken free) :
      Action.Path (.callBlock name args body) taken free

end

/-! ## Trees without free wrappers -/

/-- An expression without binary operators, suffixes and keywords. -/
inductive Expr.Unchained : Expr -> Prop where
  | lit (literal : Literal) : Unchained (.lit literal)
  | assign (name : String) : Unchained (.assign name)
  | var (name : String) : Unchained (.var name)
  | list {items : List Expr} (plain : ∀ item ∈ items, isPair item = false)
      (inner : ∀ item ∈ items, Unchained item) : Unchained (.list items)
  | tuple {items : List Expr} (inner : ∀ item ∈ items, Unchained item) : Unchained (.tuple items)
  | call {args : List Expr} (name : String) (plain : ∀ arg ∈ args, isKeywords arg = false)
      (inner : ∀ arg ∈ args, Unchained arg) : Unchained (.call name args)
  | unary {operand : Expr} (op : UnaryOp) (inner : Unchained operand) :
      Unchained (.unary op operand)
  | group {expr : Expr} (inner : Unchained expr) : Unchained (.group expr)

/-- A path through such an expression has no free wrapper. -/
theorem Expr.Path.free_eq_zero {expr : Expr} {taken free : Nat} (path : expr.Path taken free)
    (unchained : expr.Unchained) : free = 0 := by
  induction path with
  | lit | assign | var | noItem | noElement | noArgument => rfl
  | item member _ _ inductionHypothesis =>
      cases unchained with
      | list plain inner => exact inductionHypothesis (inner _ member)
  | pair member keyword =>
      cases unchained with
      | list plain inner =>
          rw [plain _ member] at keyword
          cases keyword
  | element member _ inductionHypothesis =>
      cases unchained with
      | tuple inner => exact inductionHypothesis (inner _ member)
  | argument _ member _ _ inductionHypothesis =>
      cases unchained with
      | call _ plain inner => exact inductionHypothesis (inner _ member)
  | keywords _ member keyword =>
      cases unchained with
      | call _ plain inner =>
          rw [plain _ member] at keyword
          cases keyword
  | attr | object | key | left | right => cases unchained
  | unary _ _ inductionHypothesis =>
      cases unchained with
      | unary _ inner => exact inductionHypothesis inner
  | group _ inductionHypothesis =>
      cases unchained with
      | group inner => exact inductionHypothesis inner

mutual

/-- A node all of whose expressions are such. -/
inductive Node.Unchained : Node -> Prop where
  | text (text : String) : Node.Unchained (.text text)
  | comment (text : String) : Node.Unchained (.comment text)
  | print {action : Action} (inner : Action.Unchained action) : Node.Unchained (.print action)
  | silent {action : Action} (inner : Action.Unchained action) : Node.Unchained (.silent action)
  | bind {expr : Expr} (pattern : Pattern) (inner : expr.Unchained) :
      Node.Unchained (.bind pattern expr)

/-- The inside of a tag all of whose expressions are such. -/
inductive Action.Unchained : Action -> Prop where
  | value {expr : Expr} (inner : expr.Unchained) : Action.Unchained (.value expr)
  | cond {test : Expr} {holds fails : List Node} (negated : Bool) (inner : test.Unchained)
      (first : ∀ node ∈ holds, Node.Unchained node) (second : ∀ node ∈ fails, Node.Unchained node) :
      Action.Unchained (.cond negated test holds fails)
  | loop {source : Expr} {body : List Node} (pattern : Pattern) (inner : source.Unchained)
      (each : ∀ node ∈ body, Node.Unchained node) : Action.Unchained (.loop pattern source body)
  | choice {subject : Expr} {clauses : List Clause} (inner : subject.Unchained)
      (each : ∀ pattern body, .clause pattern body ∈ clauses -> ∀ node ∈ body, Node.Unchained node) :
      Action.Unchained (.choice subject clauses)
  | callBlock {name : String} {args : List Expr} {body : List Node}
      (inner : Expr.Unchained (.call name args)) (each : ∀ node ∈ body, Node.Unchained node) :
      Action.Unchained (.callBlock name args body)

end

mutual

theorem Node.Path.free_eq_zero : {node : Node} -> {taken free : Nat} -> Node.Path node taken free ->
    Node.Unchained node -> free = 0
  | _, _, _, .text _, _ => rfl
  | _, _, _, .comment _, _ => rfl
  | _, _, _, .print path, .print inner => path.free_eq_zero inner
  | _, _, _, .silent path, .silent inner => path.free_eq_zero inner
  | _, _, _, .target _ _, _ => rfl
  | _, _, _, .source _ path, .bind _ inner => path.free_eq_zero inner

theorem Action.Path.free_eq_zero : {action : Action} -> {taken free : Nat} ->
    Action.Path action taken free -> Action.Unchained action -> free = 0
  | _, _, _, .value path, .value inner => path.free_eq_zero inner
  | _, _, _, .test _ _ _ path, .cond _ inner _ _ => path.free_eq_zero inner
  | _, _, _, .holds _ _ _ member path, .cond _ _ first _ => path.free_eq_zero (first _ member)
  | _, _, _, .fails _ _ _ member path, .cond _ _ _ second => path.free_eq_zero (second _ member)
  | _, _, _, .item _ _ _, _ => rfl
  | _, _, _, .source _ _ path, .loop _ inner _ => path.free_eq_zero inner
  | _, _, _, .round _ _ member path, .loop _ _ each => path.free_eq_zero (each _ member)
  | _, _, _, .subject _ path, .choice inner _ => path.free_eq_zero inner
  | _, _, _, .head _ _ _, _ => rfl
  | _, _, _, .clause _ found member path, .choice _ each =>
      path.free_eq_zero (each _ _ found _ member)
  | _, _, _, .call _ path, .callBlock inner _ => path.free_eq_zero inner
  | _, _, _, .block _ _ member path, .callBlock _ each => path.free_eq_zero (each _ member)

end

end HtmlTemplate
