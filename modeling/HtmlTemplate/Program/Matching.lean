import HtmlTemplate.Program.Basic
import HtmlTemplate.Value.Equality

namespace HtmlTemplate

/-!
# Matching values

A value is matched from left to right, and matching stops at the first part
that differs.  The locals that were bound until then keep their new values; no
expression can see them, since a clause that does not match is not entered.
-/

/-- The values of the locals, by number. -/
abbrev Locals := Array Value

namespace Locals

/-- The value of a local. -/
def read (locals : Locals) (slot : Nat) : Value :=
  locals.getD slot .nil

/-- Give a local a value. -/
def write (locals : Locals) (slot : Nat) (value : Value) : Locals :=
  locals.setIfInBounds slot value

end Locals

namespace Matcher

mutual

/-- Match a value.  The result says whether it matches, and holds the locals
after the attempt. -/
def run (locals : Locals) : Matcher -> Value -> Bool × Locals
  | .any, _ => (true, locals)
  | .bind slot, value => (true, locals.write slot value)
  | .same slot, value => (locals.read slot == value, locals)
  | .equals expected, value => (expected == value, locals)
  | .tuple matchers, .tuple items =>
      if matchers.length = items.length then runAll locals matchers items else (false, locals)
  | .list matchers, .list items =>
      if matchers.length = items.length then runAll locals matchers items else (false, locals)
  | _, _ => (false, locals)

/-- Match as many values as there are patterns, in order. -/
def runAll (locals : Locals) : List Matcher -> List Value -> Bool × Locals
  | matcher :: matchers, item :: items =>
      match run locals matcher item with
      | (true, locals) => runAll locals matchers items
      | (false, locals) => (false, locals)
  | _, _ => (true, locals)

end

end Matcher
end HtmlTemplate
