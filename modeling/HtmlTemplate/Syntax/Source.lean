import HtmlTemplate.Syntax.TemplateReader
import HtmlTemplate.Text.Quoted

namespace HtmlTemplate

/-!
# Sources

A source is read as a whole.  Where that is not possible, the fault names the
place where reading stopped: the line, counted from one, and the characters
before it on that line.
-/

namespace SyntaxFault

/-- How many characters an excerpt shows. -/
def excerptLength : Nat := 40

/-- The quoted beginning of what is left to read. -/
def excerptOf (rest : List Char) : String :=
  match rest[excerptLength]? with
  | some _ => String.ofList (Quoted.quoteChars (rest.take excerptLength)) ++ "..."
  | none => String.ofList (Quoted.quoteChars rest)

/-- A line, last character first, without the carriage return that belongs to
its end. -/
def withoutReturn : List Char -> List Char
  | '\r' :: line => line
  | line => line

/-- The lines of a text without their ends.  A text that ends with a line feed
has no further line behind it.  `line` is the line in progress, last character
first. -/
def linesFrom (line : List Char) : List Char -> List (List Char)
  | [] => if line.isEmpty then [] else [line.reverse]
  | c :: rest =>
      if c = '\n' then (withoutReturn line).reverse :: linesFrom [] rest
      else linesFrom (c :: line) rest

/-- The row and the column that are reached after some text, both counted from
zero.  Behind a line feed they are those of a line that is none of the lines. -/
def placeAfter (before : List Char) : Nat × Nat :=
  let last := (linesFrom [] before).zipIdx.getLast?.getD ([], 0)
  if before.getLast? = some '\n' then (last.2 + 1, 0) else (last.2, last.1.length)

/-- The fault of a source of which `rest` could not be read. -/
def ofRest (template : Option String) (cause : Option SyntaxCause) (source rest : List Char) :
    SyntaxFault :=
  let place := placeAfter (source.take (source.length - rest.length))
  { cause := cause
    template := template
    row := place.1 + 1
    column := place.2
    excerpt := excerptOf rest }

end SyntaxFault

namespace Node

/-- Read a whole source.  Text that no node can be read from is a fault
without a cause. -/
def parse (delimiters : Delimiters) (template : Option String) (source : String) :
    Except SyntaxFault (List Node) :=
  let chars := source.toList
  match readAll delimiters maxDepth chars with
  | .ok nodes [] => .ok nodes
  | .ok _ rest => .error (SyntaxFault.ofRest template none chars rest)
  | .miss rest => .error (SyntaxFault.ofRest template none chars rest)
  | .fail rest cause => .error (SyntaxFault.ofRest template cause chars rest)

end Node
end HtmlTemplate
