import HtmlTemplate.Program.Compile
import HtmlTemplate.Program.Matching
import HtmlTemplate.Proofs.Rendering.TreeWalk

namespace HtmlTemplate

/-!
# Matching with locals and matching with names

A compiled pattern writes locals while it is matched, and what it wrote stays
there when the match fails half way.  A walk collects names instead and drops
them on a failure.  The two agree because a pattern is only given locals that
were not handed out before: nothing that is visible outside of it can change,
and among its own locals the ones written so far are below the next one.
-/

namespace Locals

theorem size_write (locals : Locals) (slot : Nat) (value : Value) :
    (locals.write slot value).size = locals.size := by
  simp only [write, Array.size_setIfInBounds]

theorem read_write_self {locals : Locals} {slot : Nat} (inside : slot < locals.size)
    (value : Value) : (locals.write slot value).read slot = value := by
  simp [read, write, inside]

theorem read_write_of_ne {slot other : Nat} (different : slot ≠ other) (locals : Locals)
    (value : Value) : (locals.write slot value).read other = locals.read other := by
  simp [read, write, Array.getElem?_setIfInBounds_ne different]

/-- The names that stand for locals, with the values of the locals. -/
def scope (locals : Locals) (names : List (String × Nat)) : Scope :=
  names.map fun entry => (entry.1, locals.read entry.2)

theorem lookUp?_scope (locals : Locals) (name : String) (names : List (String × Nat)) :
    lookUp? name (locals.scope names) = (lookUp? name names).map locals.read := by
  simp only [lookUp?, scope, List.find?_map, Option.map_map]
  rfl

theorem scope_append (locals : Locals) (first second : List (String × Nat)) :
    locals.scope (first ++ second) = locals.scope first ++ locals.scope second :=
  List.map_append

/-- A scope depends on the locals of its own names only. -/
theorem scope_congr {locals others : Locals} {names : List (String × Nat)}
    (same : ∀ entry ∈ names, others.read entry.2 = locals.read entry.2) :
    others.scope names = locals.scope names :=
  List.map_congr_left fun entry member => by rw [same entry member]

end Locals

/-- All names stand for locals that were handed out before `next`. -/
def NamesBelow (next : Nat) (names : List (String × Nat)) : Prop :=
  ∀ entry ∈ names, entry.2 < next

theorem NamesBelow.mono {first second : Nat} {names : List (String × Nat)}
    (below : NamesBelow first names) (le : first ≤ second) : NamesBelow second names :=
  fun entry member => Nat.lt_of_lt_of_le (below entry member) le

theorem NamesBelow.append {next : Nat} {first second : List (String × Nat)}
    (left : NamesBelow next first) (right : NamesBelow next second) :
    NamesBelow next (first ++ second) := by
  intro entry member
  rcases List.mem_append.mp member with inFirst | inSecond
  · exact left entry inFirst
  · exact right entry inSecond

/-- Locals after an attempt that could write from `first` up to `last`. -/
structure WrittenBetween (first last : Nat) (before after : Locals) : Prop where
  size_eq : after.size = before.size
  below : ∀ slot < first, after.read slot = before.read slot
  above : ∀ slot, last ≤ slot -> after.read slot = before.read slot

namespace WrittenBetween

variable {first middle last : Nat} {before between after : Locals}

theorem refl (locals : Locals) : WrittenBetween first last locals locals :=
  ⟨rfl, fun _ _ => rfl, fun _ _ => rfl⟩

theorem trans (firstPart : WrittenBetween first middle before between)
    (secondPart : WrittenBetween middle last between after)
    (le : first ≤ middle) (le' : middle ≤ last) : WrittenBetween first last before after where
  size_eq := secondPart.size_eq.trans firstPart.size_eq
  below slot smaller := (secondPart.below slot (Nat.lt_of_lt_of_le smaller le)).trans
    (firstPart.below slot smaller)
  above slot larger := (secondPart.above slot larger).trans
    (firstPart.above slot (Nat.le_trans le' larger))

/-- An attempt that stops early has written less than it could. -/
theorem widen (part : WrittenBetween first middle before after) (le : middle ≤ last) :
    WrittenBetween first last before after where
  size_eq := part.size_eq
  below := part.below
  above slot larger := part.above slot (Nat.le_trans le larger)

theorem write (slot : Nat) (locals : Locals) (value : Value) :
    WrittenBetween slot (slot + 1) locals (locals.write slot value) where
  size_eq := locals.size_write slot value
  below _ smaller := Locals.read_write_of_ne (Nat.ne_of_gt smaller) locals value
  above _ larger := Locals.read_write_of_ne (Nat.ne_of_lt larger) locals value

/-- Names that had their locals before keep their values. -/
theorem scope_eq {names : List (String × Nat)} (part : WrittenBetween first last before after)
    (below : NamesBelow first names) : after.scope names = before.scope names :=
  Locals.scope_congr fun entry member => part.below entry.2 (below entry member)

end WrittenBetween

namespace Pattern

/-- What compiling a pattern does to the locals handed out so far. -/
structure Extends (before after : Bindings) : Prop where
  next_le : before.next ≤ after.next
  below : NamesBelow before.next before.bound -> NamesBelow after.next after.bound

theorem Extends.refl (bindings : Bindings) : Extends bindings bindings :=
  ⟨Nat.le_refl _, id⟩

theorem Extends.trans {first second third : Bindings} (left : Extends first second)
    (right : Extends second third) : Extends first third :=
  ⟨Nat.le_trans left.next_le right.next_le, right.below ∘ left.below⟩

/-- A name gets the next local, or the one it has already. -/
theorem compile_var {bindings after : Bindings} {name : String} {matcher : Matcher}
    (compiled : compile bindings (.var name) = .ok (matcher, after)) :
    (∃ slot, lookUp? name bindings.bound = some slot ∧ matcher = .same slot ∧
      after = bindings) ∨
    (lookUp? name bindings.bound = none ∧ matcher = .bind bindings.next ∧
      after = ⟨bindings.next + 1, (name, bindings.next) :: bindings.bound⟩) := by
  simp only [compile] at compiled
  split at compiled
  · rename_i slot found
    cases compiled
    exact .inl ⟨slot, found, rfl, rfl⟩
  · rename_i missing
    cases compiled
    exact .inr ⟨missing, rfl, rfl⟩

theorem compile_lit {bindings after : Bindings} {literal : Literal} {matcher : Matcher}
    (compiled : compile bindings (.lit literal) = .ok (matcher, after)) :
    ∃ value, literal.denote = .ok value ∧ matcher = .equals value ∧ after = bindings := by
  simp only [compile] at compiled
  split at compiled
  · rename_i value denoted
    cases compiled
    exact ⟨value, denoted, rfl, rfl⟩
  · cases compiled

theorem compile_tuple {bindings after : Bindings} {items : List Pattern} {matcher : Matcher}
    (compiled : compile bindings (.tuple items) = .ok (matcher, after)) :
    ∃ matchers, compileAll bindings items = .ok (matchers, after) ∧
      matcher = .tuple matchers := by
  simp only [compile] at compiled
  split at compiled
  · rename_i matchers rest inner
    cases compiled
    exact ⟨matchers, inner, rfl⟩
  · cases compiled

theorem compile_list {bindings after : Bindings} {items : List Pattern} {matcher : Matcher}
    (compiled : compile bindings (.list items) = .ok (matcher, after)) :
    ∃ matchers, compileAll bindings items = .ok (matchers, after) ∧
      matcher = .list matchers := by
  simp only [compile] at compiled
  split at compiled
  · rename_i matchers rest inner
    cases compiled
    exact ⟨matchers, inner, rfl⟩
  · cases compiled

theorem compileAll_cons {bindings after : Bindings} {pattern : Pattern} {rest : List Pattern}
    {matchers : List Matcher}
    (compiled : compileAll bindings (pattern :: rest) = .ok (matchers, after)) :
    ∃ matcher between others, compile bindings pattern = .ok (matcher, between) ∧
      compileAll between rest = .ok (others, after) ∧ matchers = matcher :: others := by
  simp only [compileAll] at compiled
  split at compiled
  · cases compiled
  · rename_i matcher between first
    split at compiled
    · rename_i others last second
      cases compiled
      exact ⟨matcher, between, others, first, second, rfl⟩
    · cases compiled

mutual

/-- Compiling a pattern only hands out more locals. -/
theorem compile_extends : (pattern : Pattern) -> {bindings after : Bindings} ->
    {matcher : Matcher} -> compile bindings pattern = .ok (matcher, after) ->
    Extends bindings after
  | .wildcard, bindings, after, matcher, compiled => by
      simp only [compile] at compiled
      cases compiled
      exact .refl bindings
  | .var name, bindings, after, matcher, compiled => by
      rcases compile_var compiled with ⟨slot, _, _, rfl⟩ | ⟨_, _, rfl⟩
      · exact .refl _
      · refine ⟨Nat.le_succ _, fun below entry member => ?_⟩
        rcases List.mem_cons.mp member with rfl | older
        · exact Nat.lt_succ_self _
        · exact Nat.lt_succ_of_lt (below entry older)
  | .lit literal, bindings, after, matcher, compiled => by
      rcases compile_lit compiled with ⟨_, _, _, rfl⟩
      exact .refl _
  | .tuple items, bindings, after, matcher, compiled => by
      rcases compile_tuple compiled with ⟨_, inner, _⟩
      exact compileAll_extends items inner
  | .list items, bindings, after, matcher, compiled => by
      rcases compile_list compiled with ⟨_, inner, _⟩
      exact compileAll_extends items inner

theorem compileAll_extends : (patterns : List Pattern) -> {bindings after : Bindings} ->
    {matchers : List Matcher} -> compileAll bindings patterns = .ok (matchers, after) ->
    Extends bindings after
  | [], bindings, after, matchers, compiled => by
      simp only [compileAll] at compiled
      cases compiled
      exact .refl bindings
  | pattern :: rest, bindings, after, matchers, compiled => by
      rcases compileAll_cons compiled with ⟨_, between, _, first, second, _⟩
      exact (compile_extends pattern first).trans (compileAll_extends rest second)

end

/-- An attempt to match with locals comes to what the match with names comes
to: it succeeds with the same names, and it writes nothing but its own locals. -/
structure Agrees (bindings after : Bindings) (locals : Locals) (outcome : Bool × Locals)
    (expected : Option Scope) : Prop where
  written : WrittenBetween bindings.next after.next locals outcome.2
  result : expected = if outcome.1 then some (outcome.2.scope after.bound) else none

/-- A comparison that writes nothing. -/
theorem Agrees.test (bindings : Bindings) (locals : Locals) (holds : Bool) :
    Agrees bindings bindings locals (holds, locals)
      (if holds then some (locals.scope bindings.bound) else none) :=
  ⟨.refl locals, rfl⟩

theorem Agrees.failure {bindings after : Bindings} (locals : Locals) :
    Agrees bindings after locals (false, locals) none :=
  ⟨.refl locals, rfl⟩

theorem length_compileAll : (patterns : List Pattern) -> {bindings after : Bindings} ->
    {matchers : List Matcher} -> compileAll bindings patterns = .ok (matchers, after) ->
    matchers.length = patterns.length
  | [], _, _, _, compiled => by
      simp only [compileAll] at compiled
      cases compiled
      rfl
  | _ :: rest, _, _, _, compiled => by
      rcases compileAll_cons compiled with ⟨_, _, _, _, second, rfl⟩
      simp only [List.length_cons, length_compileAll rest second]

/-- The walk notices a wrong number of values only at the end, while a compiled
pattern counts them first. -/
theorem matchAll?_of_length_ne : (bound : Scope) -> (patterns : List Pattern) ->
    (items : List Value) -> patterns.length ≠ items.length ->
    matchAll? bound patterns items = none
  | _, [], [], different => absurd rfl different
  | _, [], _ :: _, _ => rfl
  | _, _ :: _, [], _ => rfl
  | bound, pattern :: patterns, item :: items, different => by
      have rest : patterns.length ≠ items.length := fun same =>
        different (by simp only [List.length_cons, same])
      simp only [matchAll?]
      split
      · exact matchAll?_of_length_ne _ patterns items rest
      · rfl

mutual

/-- A compiled pattern matches as the pattern does, whatever it was given
before: names that are bound already are compared with their locals. -/
theorem run_agrees : (pattern : Pattern) -> {bindings after : Bindings} -> {matcher : Matcher} ->
    compile bindings pattern = .ok (matcher, after) ->
    NamesBelow bindings.next bindings.bound -> (locals : Locals) -> after.next ≤ locals.size ->
    (value : Value) -> Agrees bindings after locals (matcher.run locals value)
      (match? (locals.scope bindings.bound) pattern value)
  | .wildcard, bindings, after, matcher, compiled, _, locals, _, value => by
      simp only [compile] at compiled
      cases compiled
      simp only [Matcher.run, match?]
      exact .test bindings locals true
  | .var name, bindings, after, matcher, compiled, below, locals, room, value => by
      rcases compile_var compiled with ⟨slot, found, rfl, rfl⟩ | ⟨missing, rfl, rfl⟩
      · simp only [Matcher.run, match?, Locals.lookUp?_scope, found, Option.map_some]
        exact .test after locals _
      · simp only [Matcher.run, match?, Locals.lookUp?_scope, missing, Option.map_none]
        have written := WrittenBetween.write bindings.next locals value
        refine ⟨written, ?_⟩
        have inside : bindings.next < locals.size := room
        -- The names from before keep their values, since their locals are older.
        have older : (locals.write bindings.next value).scope bindings.bound =
            locals.scope bindings.bound := written.scope_eq below
        simp only [if_true, Locals.scope, List.map_cons, Locals.read_write_self inside]
        exact congrArg (fun scope => some ((name, value) :: scope)) older.symm
  | .lit literal, bindings, after, matcher, compiled, _, locals, _, value => by
      rcases compile_lit compiled with ⟨expected, denoted, rfl, rfl⟩
      simp only [Matcher.run, match?, denoted]
      exact .test after locals _
  | .tuple patterns, bindings, after, matcher, compiled, below, locals, room, value => by
      rcases compile_tuple compiled with ⟨matchers, inner, rfl⟩
      cases value with
      | tuple items =>
          simp only [Matcher.run, match?, length_compileAll patterns inner]
          split
          · rename_i same
            exact runAll_agrees patterns inner below locals room items same
          · rename_i different
            rw [matchAll?_of_length_ne _ patterns items different]
            exact .failure locals
      | _ => exact .failure locals
  | .list patterns, bindings, after, matcher, compiled, below, locals, room, value => by
      rcases compile_list compiled with ⟨matchers, inner, rfl⟩
      cases value with
      | list items =>
          simp only [Matcher.run, match?, length_compileAll patterns inner]
          split
          · rename_i same
            exact runAll_agrees patterns inner below locals room items same
          · rename_i different
            rw [matchAll?_of_length_ne _ patterns items different]
            exact .failure locals
      | _ => exact .failure locals

theorem runAll_agrees : (patterns : List Pattern) -> {bindings after : Bindings} ->
    {matchers : List Matcher} -> compileAll bindings patterns = .ok (matchers, after) ->
    NamesBelow bindings.next bindings.bound -> (locals : Locals) -> after.next ≤ locals.size ->
    (items : List Value) -> patterns.length = items.length ->
    Agrees bindings after locals (Matcher.runAll locals matchers items)
      (matchAll? (locals.scope bindings.bound) patterns items)
  | [], bindings, after, matchers, compiled, _, locals, _, [], _ => by
      simp only [compileAll] at compiled
      cases compiled
      simp only [Matcher.runAll, matchAll?]
      exact .test bindings locals true
  | pattern :: rest, bindings, after, matchers, compiled, below, locals, room, item :: items,
      same => by
      rcases compileAll_cons compiled with ⟨matcher, between, others, first, second, rfl⟩
      have extends' := compile_extends pattern first
      have grows := compileAll_extends rest second
      have head := run_agrees pattern first below locals (Nat.le_trans grows.next_le room) item
      simp only [Matcher.runAll, matchAll?]
      rcases outcome : matcher.run locals item with ⟨holds, next⟩
      rw [outcome] at head
      rcases head with ⟨written, result⟩
      rw [result]
      cases holds with
      | false => exact ⟨written.widen grows.next_le, rfl⟩
      | true =>
          have room' : after.next ≤ next.size := by rw [written.size_eq]; exact room
          have tail := runAll_agrees rest second (extends'.below below) next room' items
            (Nat.succ.inj same)
          exact ⟨.trans written tail.written extends'.next_le grows.next_le, tail.result⟩

end

end Pattern
end HtmlTemplate
