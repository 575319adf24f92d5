import HtmlTemplate.Value.Basic

namespace HtmlTemplate

/-!
# The body of a call

A function that is called with a block receives the rendered block as one more
keyword, `do`, at the end of its arguments.  The two functions here put it there
and take it out again.
-/

namespace Body

/-- The key of a body. -/
def key : String := "do"

/-- The keyword pair of a body. -/
def pair (body : Value) : Value :=
  Value.keywordPair key body

/-- Whether a value is a keyword list with at least one pair. -/
def isOptionList (value : Value) : Bool :=
  match value.asKeywords? with
  | some pairs => !pairs.isEmpty
  | none => false

/-- Arguments with a body: at the end of the last argument, if that is a
keyword list that is not empty, else in a keyword list of its own. -/
def attach (args : List Value) (body : Value) : List Value :=
  match args.getLast? with
  | some (.list items) =>
      if isOptionList (.list items) then args.dropLast ++ [.list (items ++ [pair body])]
      else args ++ [.list [pair body]]
  | _ => args ++ [.list [pair body]]

/-- The body in the last argument, if there is one, and the other arguments.
Every `do` is taken out of the keyword list, and the first one counts.  A list
that is left empty is dropped. -/
def detach (args : List Value) : Option Value × List Value :=
  match args.getLast?.bind Value.asKeywords? with
  | some pairs =>
      match lookUp? key pairs with
      | some body =>
          let rest := pairs.filter fun entry => entry.1 != key
          let kept := if rest.isEmpty then [] else [Value.keywords rest]
          (some body, args.dropLast ++ kept)
      | none => (none, args)
  | none => (none, args)

end Body
end HtmlTemplate
