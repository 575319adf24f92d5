import HtmlTemplate.Syntax.Lexeme

namespace HtmlTemplate
namespace Expr

/-!
# Reading expressions

Binary operators come in seven levels, all of them associating to the left.
Above them stand the operators in front of an operand, then the suffixes
`.name` and `[key]`, then the primary expressions.

Every wrapper around an expression takes one level of nesting: each bracket
and call, each suffix, each operator in front, and each further operand of a
chain.  The readers here are given the reader `inside` of an expression with
less room, and the recursion is tied at the end of the module.
-/

open Reader

/-- A sign that stands for an operator. -/
def signFor {α : Type} (text : String) (op : α) : Reader α := do
  exactly text.toList
  return op

/-- A sign that is no operator if one of some characters follows it. -/
def signUnless {α : Type} (text : String) (next : List Char) (op : α) : Reader α := do
  exactly text.toList
  notAhead (satisfy next.contains)
  return op

/-- A word that stands for an operator. -/
def wordFor {α : Type} (text : String) (op : α) : Reader α := do
  Lexeme.keyword text
  return op

/-- A level of operators that need both operands. -/
def strictLevel (op : Reader Operator) : Reader BinaryOp := do
  let op ← op
  return .strict op

/-- The levels of binary operators, loosest first. -/
def levels : List (Reader BinaryOp) :=
  [ signFor "||" BinaryOp.orSign <|> wordFor "or" BinaryOp.orWord,
    signFor "&&" BinaryOp.andSign <|> wordFor "and" BinaryOp.andWord,
    strictLevel (signFor "==" Operator.equal <|> signFor "!=" Operator.unequal),
    strictLevel (signFor "<=" Operator.atMost <|> signFor ">=" Operator.atLeast <|>
      signUnless "<" ['<', '>', '-', '='] Operator.less <|> signFor ">" Operator.greater),
    strictLevel (signFor "<>" Operator.concat <|> signUnless ".." ['.'] Operator.range),
    strictLevel (signFor "+" Operator.add <|> signUnless "-" ['>'] Operator.subtract),
    strictLevel (signFor "*" Operator.multiply <|> signFor "/" Operator.divide) ]

/-- Operands with operators of one level between them. -/
def chain (op : Reader BinaryOp) (room : Nat) (operand : Reader Expr) : Reader Expr := do
  let first ← operand
  let others ← many (do
    let op ← spaced op
    let right ← operand
    return (op, right))
  let _ ← deeper room others.length
  return others.foldl (fun left other => .binary other.1 left other.2) first

/-- An operator in front of an operand. -/
def readUnaryOp : Reader UnaryOp :=
  signUnless "!" ['='] UnaryOp.bang <|> wordFor "not" UnaryOp.not <|> signFor "-" UnaryOp.minus

/-- Operators in front of an operand, and the operand with the room that they
leave. -/
def prefixed (room : Nat) (operand : Nat -> Reader Expr) : Reader Expr := do
  let ops ← many (spaced readUnaryOp)
  let room ← deeper room ops.length
  let inner ← operand room
  return ops.foldr .unary inner

/-- `key:` in front of a value.  The colon follows the name directly. -/
def keywordKey : Reader String := do
  let key ← Lexeme.identifier
  char ':'
  notAhead (char ':')
  return key

/-- A key and its value. -/
def keywordPair (value : Reader Expr) : Reader (String × Expr) := do
  let key ← keywordKey
  let value ← spaced value
  return (key, value)

/-- The pair of an atom and a value that a keyword stands for. -/
def ofKeyword (pair : String × Expr) : Expr :=
  .tuple [.lit (.atom pair.1), pair.2]

/-- An argument of a call. -/
inductive Argument where
  | positional (value : Expr)
  | keyword (pair : String × Expr)

/-- The arguments of a call, if no positional one follows a keyword.  The
keywords become one last argument. -/
def collect? (args : List Argument) : Option (List Expr) :=
  let rec go (positional : List Expr) (keywords : List Expr) :
      List Argument -> Option (List Expr)
    | [] =>
        some (positional.reverse ++ if keywords.isEmpty then [] else [.list keywords.reverse])
    | .positional value :: rest =>
        if keywords.isEmpty then go (value :: positional) keywords rest else none
    | .keyword pair :: rest => go positional (ofKeyword pair :: keywords) rest
  go [] [] args

/-- One argument of a call. -/
def argument (value : Reader Expr) : Reader Argument :=
  (do let pair ← keywordPair value; return Argument.keyword pair) <|>
  (do let value ← value; return Argument.positional value)

/-- The arguments of a call with their parentheses. -/
def arguments (value : Reader Expr) : Reader (List Expr) := do
  let start ← here
  char '('
  let args ← commit (do
    let args ← separated (spaced (argument value))
    spaces
    char ')'
    return args)
  match collect? args with
  | some args => return args
  | none => failAt start .positionalAfterKeyword

/-- An item of a list: a value, or a keyword pair. -/
def listItem (value : Reader Expr) : Reader Expr :=
  (do let pair ← keywordPair value; return ofKeyword pair) <|> value

/-- The expressions that no operator is part of. -/
def primary (inside : Nat -> Reader Expr) (room : Nat) : Reader Expr :=
  (do let literal ← Lexeme.literal; return Expr.lit literal) <|>
  (do char '@'; let name ← commit Lexeme.identifier; return Expr.assign name) <|>
  (do
    let name ← Lexeme.name
    let args ← nested room fun room => arguments (inside room)
    return Expr.call name args) <|>
  (do let name ← Lexeme.name; return Expr.var name) <|>
  (nested room fun room => do
    spaced (char '[')
    let items ← commit (do
      let items ← separated (spaced (listItem (inside room)))
      let _ ← optional (char ',')
      return items)
    commit (spaced (char ']'))
    return Expr.list items) <|>
  (nested room fun room => do
    char '{'
    let items ← commit (separated (spaced (inside room)))
    commit (spaced (char '}'))
    return Expr.tuple items) <|>
  (nested room fun room => do
    char '('
    let inner ← commit (spaced (inside room))
    commit (char ')')
    return Expr.group inner)

/-- What follows an expression and wraps it. -/
inductive Suffix where
  | attr (name : String)
  | index (key : Expr)

/-- The expression with its suffix. -/
def Suffix.apply (object : Expr) : Suffix -> Expr
  | .attr name => .attr object name
  | .index key => .index object key

/-- `.name`, unless the point begins a range. -/
def attrSuffix : Reader Suffix := do
  char '.'
  notAhead (char '.')
  let name ← commit Lexeme.identifier
  return .attr name

/-- `[key]`. -/
def indexSuffix (inside : Nat -> Reader Expr) (room : Nat) : Reader Suffix :=
  nested room fun room => do
    char '['
    let key ← commit (do
      let key ← spaced (inside room)
      char ']'
      return key)
    return .index key

/-- All suffixes of an expression.  Each leaves one level less. -/
def suffixes (inside : Nat -> Reader Expr) : (room : Nat) -> Expr -> Reader Expr
  | 0, object => do
      let start ← here
      let suffix ← optional (attrSuffix <|> indexSuffix inside 0)
      match suffix with
      | none => return object
      | some _ => failAt start .tooDeep
  | room + 1, object => do
      let suffix ← optional (attrSuffix <|> indexSuffix inside (room + 1))
      match suffix with
      | none => return object
      | some suffix => suffixes inside room (suffix.apply object)

/-- A primary expression with its suffixes. -/
def suffixed (inside : Nat -> Reader Expr) (room : Nat) : Reader Expr := do
  let object ← primary inside room
  suffixes inside room object

/-- An expression whose brackets, calls and keys are read by `inside`. -/
def readWith (inside : Nat -> Reader Expr) (room : Nat) : Reader Expr :=
  levels.foldr (fun op operand => chain op room operand) (prefixed room (suffixed inside))

/-- Tie the recursion: everything inside an expression has less room than the
expression, so as many rounds as there are levels suffice. -/
def readRounds : (rounds : Nat) -> (room : Nat) -> Reader Expr
  | 0, _ => fail .tooDeep
  | rounds + 1, room => readWith (readRounds rounds) room

/-- An expression, with room for some levels of nesting. -/
def read (room : Nat) : Reader Expr :=
  readRounds (room + 1) room

end Expr
end HtmlTemplate
