import HtmlTemplate.Context
import HtmlTemplate.Syntax.Tree

namespace HtmlTemplate

/-!
# Programs

A compiled template.  A block holds statements, which run in source order, and
slots, from which its output is joined once all of them have run.  A printed
expression fills a numbered temporary, and a slot of the same block takes it
out.  Names have become numbered locals, shared by all blocks.
-/

/-- A compiled pattern.  A name stands for a local: the first time it is bound,
and every further time in the same pattern the value has to be the same. -/
inductive Matcher where
  | any
  | bind (slot : Nat)
  | same (slot : Nat)
  | equals (value : Value)
  | tuple (items : List Matcher)
  | list (items : List Matcher)

/-- A compiled expression. -/
inductive Code where
  | const (value : Value)
  | assign (name : String)
  | slot (index : Nat)
  | list (items : List Code)
  | tuple (items : List Code)
  | attr (object : Code) (name : String)
  | index (object key : Code)
  | call (function : NamedFunction) (args : List Code)
  | unary (op : UnaryOp) (operand : Code)
  | either (left right : Code)
  | both (left right : Code)
  | binary (op : Operator) (left right : Code)

/-- A part of a block's output: fixed text, or what a temporary holds. -/
inductive Slot where
  | fixed (text : String)
  | temp (index : Nat)
  deriving DecidableEq, Repr

mutual

/-- What a statement evaluates. -/
inductive Operation where
  | value (code : Code)
  | cond (negated : Bool) (test : Code) (holds fails : Block)
  | loop (pattern : Matcher) (source : Code) (body : Block)
  | choice (subject : Code) (branches : List Branch)
  | callBlock (function : NamedFunction) (args : List Code) (body : Block)

/-- A clause of a choice. -/
inductive Branch where
  | branch (pattern : Matcher) (body : Block)

/-- One step of a block. -/
inductive Statement where
  | print (temp : Nat) (operation : Operation)
  | eval (operation : Operation)
  | bind (pattern : Matcher) (code : Code)

/-- Statements and the slots of their output. -/
inductive Block where
  | block (statements : List Statement) (slots : List Slot)

end

/-- A block and the numbers of temporaries and locals that it uses. -/
structure Program where
  block : Block
  temps : Nat
  locals : Nat

namespace Slot

/-- The run of text in progress as a slot, unless it is empty. -/
def ofRun (run : String) : List Slot :=
  if run.isEmpty then [] else [.fixed run]

/-- Join neighbouring texts.  `run` is the text in progress. -/
def fuseFrom (run : String) : List Slot -> List Slot
  | [] => ofRun run
  | .fixed text :: rest => fuseFrom (run ++ text) rest
  | .temp index :: rest => ofRun run ++ .temp index :: fuseFrom "" rest

/-- Join neighbouring texts, so that no two are next to each other. -/
def fuse (slots : List Slot) : List Slot :=
  fuseFrom "" slots

end Slot
end HtmlTemplate
