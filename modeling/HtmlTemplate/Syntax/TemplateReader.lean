import HtmlTemplate.Syntax.ExprReader
import HtmlTemplate.Syntax.PatternReader

namespace HtmlTemplate
namespace Node

/-!
# Reading templates

Text goes up to the next opening delimiter.  A delimiter that a percent sign
follows stands for itself, one that a hash follows begins a comment, and any
other begins a tag.  `end`, `else` and `pattern ->` belong to the block around
them, so they end the list of nodes instead of beginning a tag.

Each tag takes one level of nesting for everything inside it, the nodes of its
block included.
-/

open Reader

/-- Split a source at the first place where a text stands.  `before` is what
was passed, last character first. -/
def splitAt? (text before : List Char) : List Char -> Option (List Char × List Char)
  | [] => if text.isEmpty then some (before.reverse, []) else none
  | c :: rest =>
      if text.isPrefixOf (c :: rest) then some (before.reverse, c :: rest)
      else splitAt? text (c :: before) rest

/-- The opening delimiter. -/
def opening (delimiters : Delimiters) : Reader Unit :=
  exactly delimiters.opening.toList

/-- The closing delimiter. -/
def closing (delimiters : Delimiters) : Reader Unit :=
  exactly delimiters.closing.toList

/-- Text up to the next opening delimiter, or a delimiter that stands for
itself. -/
def readText (delimiters : Delimiters) : Reader Node :=
  fun source =>
    let start := delimiters.opening.toList
    if source.isEmpty then .miss source
    else if start.isPrefixOf source then
      match source.drop start.length with
      | '%' :: rest => .ok (.text delimiters.opening) rest
      | _ => .miss source
    else
      match splitAt? start [] source with
      | some (content, rest) => .ok (.text (String.ofList content)) rest
      | none => .ok (.text (String.ofList source)) []

/-- A comment, up to the first closing delimiter. -/
def readComment (delimiters : Delimiters) : Reader Node := do
  let start ← here
  opening delimiters
  char '#'
  fun source =>
    match splitAt? delimiters.closing.toList [] source with
    | some (content, rest) =>
        .ok (.comment (String.ofList content)) (rest.drop delimiters.closing.length)
    | none => .fail start (some .unclosedComment)

/-- The head of a clause: a pattern and an arrow. -/
def clauseHead (room : Nat) : Reader Pattern := do
  let pattern ← spaced (Pattern.read room)
  exactly ['-', '>']
  return pattern

/-- What a tag begins with that closes or continues a block. -/
def terminator (room : Nat) : Reader Unit := do
  spaces
  Lexeme.keyword "end" <|> Lexeme.keyword "else" <|> (do let _ ← clauseHead room)

/-- `pattern =` at the start of a silent tag. -/
def bindingHead (room : Nat) : Reader Pattern := do
  let pattern ← spaced (Pattern.read room)
  char '='
  notAhead (satisfy ['=', '~', '>'].contains)
  return pattern

/-- The end of a tag, which has to follow. -/
def closeTag (delimiters : Delimiters) : Reader Unit :=
  commit (do spaces; closing delimiters)

/-- `do` and the end of its tag. -/
def openBlock (delimiters : Delimiters) : Reader Unit := do
  require .missingDo (spaced (Lexeme.keyword "do"))
  closeTag delimiters

/-- A tag that holds one word. -/
def wordTag (delimiters : Delimiters) (word : String) : Reader Unit := do
  opening delimiters
  spaced (Lexeme.keyword word)
  closing delimiters

/-- The tag that ends a block. -/
def closeBlock (delimiters : Delimiters) (block : String) : Reader Unit :=
  require (.missingEnd block) (wordTag delimiters "end")

/-- One clause of a `case` block. -/
def readClause (delimiters : Delimiters) (room : Nat) (body : Reader (List Node)) :
    Reader Clause := do
  opening delimiters
  let pattern ← clauseHead room
  closeTag delimiters
  let nodes ← body
  return .clause pattern nodes

/-- `if` and `unless`, after the word. -/
def readCond (delimiters : Delimiters) (room : Nat) (body : Reader (List Node))
    (negated : Bool) : Reader Action := do
  let test ← spaced (Expr.read room)
  openBlock delimiters
  let holds ← body
  let other ← optional (wordTag delimiters "else")
  let fails ← if other.isSome then body else Reader.pure []
  closeBlock delimiters (if negated then "unless" else "if")
  return .cond negated test holds fails

/-- `for`, after the word. -/
def readLoop (delimiters : Delimiters) (room : Nat) (body : Reader (List Node)) :
    Reader Action := do
  let pattern ← spaced (Pattern.read room)
  require .missingArrow (exactly ['<', '-'])
  let source ← spaced (Expr.read room)
  openBlock delimiters
  let nodes ← body
  closeBlock delimiters "for"
  return .loop pattern source nodes

/-- `case`, after the word.  White space before the first clause is dropped. -/
def readChoice (delimiters : Delimiters) (room : Nat) (body : Reader (List Node)) :
    Reader Action := do
  let subject ← spaced (Expr.read room)
  openBlock delimiters
  spaces
  let first ← require .missingClause (readClause delimiters room body)
  let others ← many (readClause delimiters room body)
  closeBlock delimiters "case"
  return .choice subject (first :: others)

/-- An expression, or a call with a block. -/
def readPlain (delimiters : Delimiters) (room : Nat) (body : Reader (List Node)) :
    Reader Action := do
  let start ← here
  let expr ← Expr.read room
  let block ← optional (spaced (Lexeme.keyword "do"))
  match block, expr with
  | none, _ =>
      closeTag delimiters
      return .value expr
  | some _, .call name args =>
      closeTag delimiters
      let nodes ← body
      closeBlock delimiters name
      return .callBlock name args nodes
  | some _, _ => failAt start .blockWithoutCall

/-- The head of a tag, up to the end of the tag or of its block. -/
def readAction (delimiters : Delimiters) (room : Nat) (body : Reader (List Node)) :
    Reader Action :=
  (do
    let word ← optional (Lexeme.identifierWhere ["if", "unless", "for", "case"].contains)
    match word with
    | some "if" => readCond delimiters room body false
    | some "unless" => readCond delimiters room body true
    | some "for" => readLoop delimiters room body
    | some "case" => readChoice delimiters room body
    | _ => readPlain delimiters room body)

/-- The inside of a tag. -/
def readStatement (delimiters : Delimiters) (room : Nat) (body : Reader (List Node))
    (printed : Bool) : Reader Node := do
  let binding ← if printed then Reader.pure none else optional (bindingHead room)
  match binding with
  | some pattern =>
      let expr ← spaced (Expr.read room)
      closeTag delimiters
      return .bind pattern expr
  | none =>
      spaces
      let action ← readAction delimiters room body
      return if printed then .print action else .silent action

/-- A tag.  `room` is the room around it, and `inside` reads what is inside. -/
def readTag (delimiters : Delimiters) (room : Nat) (inside : Nat -> Bool -> Reader Node) :
    Reader Node := do
  let start ← here
  opening delimiters
  let printed ← optional (char '=')
  notAhead (terminator room)
  match room with
  | 0 => failAt start .tooDeep
  | room + 1 => inside room printed.isSome

/-- The nodes of a template or of a block. -/
def readAll (delimiters : Delimiters) : (room : Nat) -> Reader (List Node)
  | 0 =>
      many (readText delimiters <|> readComment delimiters <|>
        readTag delimiters 0 fun _ _ => miss)
  | room + 1 =>
      many (readText delimiters <|> readComment delimiters <|>
        readTag delimiters (room + 1) fun _ printed =>
          readStatement delimiters room (readAll delimiters room) printed)

/-- How deeply a template may be nested. -/
def maxDepth : Nat := 128

end Node
end HtmlTemplate
