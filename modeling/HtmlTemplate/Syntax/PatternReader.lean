import HtmlTemplate.Syntax.Lexeme

namespace HtmlTemplate
namespace Pattern

/-!
# Reading patterns

A name that begins with an underscore matches anything and binds nothing.
Tuples and lists take one level of nesting each, and no comma may follow the
last item.
-/

open Reader

/-- A name, or a wildcard. -/
def readName : Reader Pattern :=
  fun source =>
    match Lexeme.identifier source with
    | .ok name rest =>
        if name.toList.head? = some '_' then .ok .wildcard rest
        else if Lexeme.reserved.contains name then .miss source
        else .ok (.var name) rest
    | .miss place => .miss place
    | .fail place cause => .fail place cause

/-- Items between two brackets. -/
def readItems (opening closing : Char) (item : Reader Pattern) : Reader (List Pattern) := do
  char opening
  let items ← separated (spaced item)
  spaces
  char closing
  return items

/-- A pattern, with room for some levels of nesting. -/
def read : Nat -> Reader Pattern
  | 0 => (do let literal ← Lexeme.patternLiteral; return .lit literal) <|> readName <|>
      fail .tooDeep
  | room + 1 =>
      (do let literal ← Lexeme.patternLiteral; return .lit literal) <|> readName <|>
      (do let items ← readItems '{' '}' (read room); return .tuple items) <|>
      (do let items ← readItems '[' ']' (read room); return .list items)

end Pattern
end HtmlTemplate
