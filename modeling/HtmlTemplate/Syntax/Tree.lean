namespace HtmlTemplate

/-!
# Template trees

A template is a list of nodes: text, comments and tags.  A tag holds an
expression or a block, and a block holds nodes again.  Blocks stand only at
the head of a tag, never inside an expression, so expressions have a type of
their own.

Literals keep the text they were written with.  What they denote is decided
when the template is compiled.
-/

/-- A literal.  A number keeps its digits, and in a pattern its sign; a string
keeps what stands between its quotes. -/
inductive Literal where
  | nil
  | bool (value : Bool)
  | num (text : String)
  | str (spelling : String)
  | atom (name : String)
  deriving DecidableEq, Repr

/-- What a value is matched against. -/
inductive Pattern where
  | wildcard
  | var (name : String)
  | lit (literal : Literal)
  | tuple (items : List Pattern)
  | list (items : List Pattern)

/-- Operators in front of an operand. -/
inductive UnaryOp where
  | bang
  | not
  | minus
  deriving DecidableEq, Repr

/-- Operators between two operands that need the values of both. -/
inductive Operator where
  | equal
  | unequal
  | atMost
  | atLeast
  | less
  | greater
  | concat
  | range
  | add
  | subtract
  | multiply
  | divide
  deriving DecidableEq, Repr

/-- Operators between two operands.  `or` and `and` have two spellings each,
and may leave their right operand unevaluated. -/
inductive BinaryOp where
  | orWord
  | orSign
  | andWord
  | andSign
  | strict (op : Operator)
  deriving DecidableEq, Repr

/-- An expression.  Keyword arguments are a last argument that is a list of
pairs of an atom and a value. -/
inductive Expr where
  | lit (literal : Literal)
  | assign (name : String)
  | var (name : String)
  | list (items : List Expr)
  | tuple (items : List Expr)
  | attr (object : Expr) (name : String)
  | index (object key : Expr)
  | call (name : String) (args : List Expr)
  | unary (op : UnaryOp) (operand : Expr)
  | binary (op : BinaryOp) (left right : Expr)
  | group (inner : Expr)

mutual

/-- What a tag evaluates: an expression or a block. -/
inductive Action where
  | value (expr : Expr)
  | cond (negated : Bool) (test : Expr) (holds fails : List Node)
  | loop (pattern : Pattern) (source : Expr) (body : List Node)
  | choice (subject : Expr) (clauses : List Clause)
  | callBlock (name : String) (args : List Expr) (body : List Node)

/-- A pattern and what follows it in a `case` block. -/
inductive Clause where
  | clause (pattern : Pattern) (body : List Node)

/-- A piece of a template. -/
inductive Node where
  | text (text : String)
  | comment (text : String)
  | print (action : Action)
  | silent (action : Action)
  | bind (pattern : Pattern) (expr : Expr)

end

namespace UnaryOp

/-- The operator as it is written. -/
def text : UnaryOp -> String
  | .bang => "!"
  | .not => "not"
  | .minus => "-"

end UnaryOp

namespace Operator

/-- The operator as it is written. -/
def text : Operator -> String
  | .equal => "=="
  | .unequal => "!="
  | .atMost => "<="
  | .atLeast => ">="
  | .less => "<"
  | .greater => ">"
  | .concat => "<>"
  | .range => ".."
  | .add => "+"
  | .subtract => "-"
  | .multiply => "*"
  | .divide => "/"

end Operator

namespace BinaryOp

/-- The operator as it is written. -/
def text : BinaryOp -> String
  | .orWord => "or"
  | .orSign => "||"
  | .andWord => "and"
  | .andSign => "&&"
  | .strict op => op.text

end BinaryOp

namespace Pattern

mutual

/-- The names that a pattern binds, in source order, a repeated name once for
each place it stands in. -/
def bindings : Pattern -> List String
  | .wildcard => []
  | .var name => [name]
  | .lit _ => []
  | .tuple items => bindingsOfAll items
  | .list items => bindingsOfAll items

/-- The names that several patterns bind. -/
def bindingsOfAll : List Pattern -> List String
  | [] => []
  | pattern :: rest => bindings pattern ++ bindingsOfAll rest

end

end Pattern

/-- The two delimiters of a tag. -/
structure Delimiters where
  opening : String
  closing : String
  deriving DecidableEq, Repr

namespace Delimiters

/-- The delimiters that are used unless a configuration names others. -/
def standard : Delimiters := ⟨"<%", "%>"⟩

end Delimiters
end HtmlTemplate
