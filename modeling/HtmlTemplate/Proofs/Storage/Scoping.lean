import HtmlTemplate.Proofs.Rendering.Layout

namespace HtmlTemplate

/-!
# What lexical scoping designates

The names of a template are resolved here without compiling it.  A template is
read as a row of mentions: where a block begins and ends, where a pattern
begins, which names it binds and which names expressions use.  Going through
the row with the names that are visible gives every binder a number, in the
order of the source, and tells for every use which binder it designates: the
latest one of the name whose block is still open.

The compiler has to agree.  The second part lists, in the same order, the
places of a compiled program where a local is bound or read, and shows that
they are the occurrences of the template: the number of a local is the number
of its binder.
-/

/-- A place where a name is bound for the first time in its pattern, or used.
A use designates a binder by its number, if the name is visible at all. -/
inductive Occurrence where
  | binder (number : Nat)
  | use (designated : Option Nat)
  deriving DecidableEq, Repr

/-- What the names of a template depend on: `enter` and `leave` enclose a block
together with the pattern that stands before it, `pattern` begins a pattern. -/
inductive Mention where
  | enter
  | leave
  | pattern
  | bind (name : String)
  | use (name : String)
  deriving DecidableEq, Repr

/-- The names that are visible while a template is read, the innermost binding
first, and those around each block that is open.  `own` holds the names of the
pattern in progress, `next` is the number of the next binder. -/
structure Scopes where
  next : Nat := 0
  own : List (String × Nat) := []
  visible : List (String × Nat) := []
  outer : List (List (String × Nat)) := []

namespace Scopes

/-- The names after a mention. -/
def after (scopes : Scopes) : Mention -> Scopes
  | .enter => { scopes with outer := scopes.visible :: scopes.outer }
  | .leave =>
      match scopes.outer with
      | [] => scopes
      | visible :: outer => { scopes with visible := visible, outer := outer }
  | .pattern => { scopes with own := [] }
  | .bind name =>
      match lookUp? name scopes.own with
      | some _ => scopes
      | none =>
          { scopes with
            next := scopes.next + 1
            own := (name, scopes.next) :: scopes.own
            visible := (name, scopes.next) :: scopes.visible }
  | .use _ => scopes

/-- The occurrence that a mention is.  A name that comes again in its pattern
is compared with the first one, so it is a use. -/
def occurrence? (scopes : Scopes) : Mention -> Option Occurrence
  | .bind name =>
      match lookUp? name scopes.own with
      | some binder => some (.use (some binder))
      | none => some (.binder scopes.next)
  | .use name => some (.use (lookUp? name scopes.visible))
  | _ => none

/-- The names after a row of mentions. -/
def afterAll (scopes : Scopes) (mentions : List Mention) : Scopes :=
  mentions.foldl after scopes

/-- The occurrences in a row of mentions. -/
def occurrences (scopes : Scopes) : List Mention -> List Occurrence
  | [] => []
  | mention :: rest => (scopes.occurrence? mention).toList ++ (scopes.after mention).occurrences rest

end Scopes

namespace Expr

mutual

/-- The names that an expression uses, in the order of the source. -/
def uses : Expr -> List String
  | .lit _ => []
  | .assign _ => []
  | .var name => [name]
  | .list items => usesOfAll items
  | .tuple items => usesOfAll items
  | .attr object _ => uses object
  | .index object key => uses object ++ uses key
  | .call _ args => usesOfAll args
  | .unary _ operand => uses operand
  | .binary _ left right => uses left ++ uses right
  | .group inner => uses inner

/-- The names that several expressions use. -/
def usesOfAll : List Expr -> List String
  | [] => []
  | expr :: rest => uses expr ++ usesOfAll rest

end

end Expr

/-- The mentions in a pattern. -/
def Pattern.mentions (pattern : Pattern) : List Mention :=
  .pattern :: pattern.bindings.map .bind

/-- The mentions in a block, together with the pattern before it. -/
def Mention.inBlock (mentions : List Mention) : List Mention :=
  .enter :: (mentions ++ [.leave])

namespace Node

open Mention (inBlock)

mutual

/-- The mentions in what a tag evaluates. -/
def mentionsOfAction : Action -> List Mention
  | .value expr => expr.uses.map .use
  | .cond _ test holds fails =>
      test.uses.map .use ++ (inBlock (mentionsOfAll holds) ++ inBlock (mentionsOfAll fails))
  | .loop pattern source body =>
      source.uses.map .use ++ inBlock (pattern.mentions ++ mentionsOfAll body)
  | .choice subject clauses => subject.uses.map .use ++ mentionsOfClauses clauses
  | .callBlock _ args body => (Expr.usesOfAll args).map .use ++ inBlock (mentionsOfAll body)

/-- The mentions in the clauses of a choice. -/
def mentionsOfClauses : List Clause -> List Mention
  | [] => []
  | .clause pattern body :: rest =>
      inBlock (pattern.mentions ++ mentionsOfAll body) ++ mentionsOfClauses rest

/-- The mentions in a node.  The value of a binding comes before its pattern,
since it does not see the names that are bound. -/
def mentions : Node -> List Mention
  | .text _ => []
  | .comment _ => []
  | .print action => mentionsOfAction action
  | .silent action => mentionsOfAction action
  | .bind pattern expr => expr.uses.map .use ++ pattern.mentions

/-- The mentions in several nodes. -/
def mentionsOfAll : List Node -> List Mention
  | [] => []
  | node :: rest => mentions node ++ mentionsOfAll rest

end

/-- Where a template binds and uses names, with what the uses designate. -/
def occurrences (nodes : List Node) : List Occurrence :=
  Scopes.occurrences {} (mentionsOfAll nodes)

end Node

/-! ## Binders are numbered one after the other -/

/-- The numbers from `low` up to `high`, `high` itself left out. -/
def numbersBetween (low high : Nat) : List Nat :=
  List.range' low (high - low)

theorem numbersBetween_self (low : Nat) : numbersBetween low low = [] := by
  simp [numbersBetween]

theorem numbersBetween_succ (low : Nat) : numbersBetween low (low + 1) = [low] := by
  simp [numbersBetween]

theorem numbersBetween_zero (high : Nat) : numbersBetween 0 high = List.range high := by
  simp [numbersBetween, List.range_eq_range']

theorem numbersBetween_append {low middle high : Nat} (le : low ≤ middle) (le' : middle ≤ high) :
    numbersBetween low middle ++ numbersBetween middle high = numbersBetween low high := by
  have joined := List.range'_append_1 (s := low) (m := middle - low) (n := high - middle)
  rw [show low + (middle - low) = middle by omega,
    show middle - low + (high - middle) = high - low by omega] at joined
  exact joined

theorem mem_of_lookUp? {α : Type} {key : String} {entries : List (String × α)} {value : α}
    (found : lookUp? key entries = some value) : (key, value) ∈ entries := by
  rcases Option.map_eq_some_iff.mp found with ⟨entry, first, rfl⟩
  have same : entry.1 = key := by simpa using List.find?_some first
  rw [← same]
  exact List.mem_of_find?_eq_some first

namespace Occurrence

/-- The number of a binder. -/
def binder? : Occurrence -> Option Nat
  | .binder number => some number
  | .use _ => none

/-- The number that a use designates. -/
def designated? : Occurrence -> Option Nat
  | .binder _ => none
  | .use designated => designated

end Occurrence

namespace Scopes

theorem occurrences_append (scopes : Scopes) (first second : List Mention) :
    scopes.occurrences (first ++ second) =
      scopes.occurrences first ++ (scopes.afterAll first).occurrences second := by
  induction first generalizing scopes with
  | nil => rfl
  | cons mention rest inductionHypothesis =>
      simp only [List.cons_append, occurrences, inductionHypothesis, List.append_assoc, afterAll,
        List.foldl_cons]

theorem afterAll_append (scopes : Scopes) (first second : List Mention) :
    scopes.afterAll (first ++ second) = (scopes.afterAll first).afterAll second := by
  simp only [afterAll, List.foldl_append]

/-- Binders get consecutive numbers. -/
theorem binders (mentions : List Mention) (scopes : Scopes) :
    scopes.next ≤ (scopes.afterAll mentions).next ∧
      (scopes.occurrences mentions).filterMap Occurrence.binder? =
        numbersBetween scopes.next (scopes.afterAll mentions).next := by
  induction mentions generalizing scopes with
  | nil => exact ⟨Nat.le_refl _, (numbersBetween_self _).symm⟩
  | cons mention rest inductionHypothesis =>
      have others := inductionHypothesis (scopes.after mention)
      have first : scopes.next ≤ (scopes.after mention).next ∧
          (scopes.occurrence? mention).toList.filterMap Occurrence.binder? =
            numbersBetween scopes.next (scopes.after mention).next := by
        cases mention with
        | bind name =>
            simp only [after, occurrence?]
            cases lookUp? name scopes.own with
            | none => exact ⟨Nat.le_succ _, (numbersBetween_succ _).symm⟩
            | some _ => exact ⟨Nat.le_refl _, (numbersBetween_self _).symm⟩
        | leave =>
            simp only [after, occurrence?]
            split
            · exact ⟨Nat.le_refl _, (numbersBetween_self _).symm⟩
            · exact ⟨Nat.le_refl _, (numbersBetween_self _).symm⟩
        | enter | pattern | use => exact ⟨Nat.le_refl _, (numbersBetween_self _).symm⟩
      refine ⟨Nat.le_trans first.1 others.1, ?_⟩
      rw [occurrences, List.filterMap_append, first.2, others.2]
      exact numbersBetween_append first.1 others.1

/-- Every name that is known stands for a binder that was numbered before. -/
structure Below (scopes : Scopes) : Prop where
  own : NamesBelow scopes.next scopes.own
  visible : NamesBelow scopes.next scopes.visible
  outer : ∀ names ∈ scopes.outer, NamesBelow scopes.next names

theorem Below.after {scopes : Scopes} (below : Below scopes) (mention : Mention) :
    Below (scopes.after mention) := by
  cases mention with
  | enter =>
      refine ⟨below.own, below.visible, fun names member => ?_⟩
      rcases List.mem_cons.mp member with rfl | older
      · exact below.visible
      · exact below.outer names older
  | leave =>
      rcases scopes with ⟨next, own, visible, outer⟩
      cases outer with
      | nil => exact below
      | cons names outer =>
          exact ⟨below.own, below.outer names (List.mem_cons_self ..),
            fun names member => below.outer names (List.mem_cons_of_mem _ member)⟩
  | pattern => exact ⟨fun _ impossible => (nomatch impossible), below.visible, below.outer⟩
  | bind name =>
      simp only [Scopes.after]
      cases lookUp? name scopes.own with
      | some _ => exact below
      | none =>
          have newest : NamesBelow (scopes.next + 1) [(name, scopes.next)] := by
            intro entry member
            cases List.mem_singleton.mp member
            exact Nat.lt_succ_self _
          have le := Nat.le_succ scopes.next
          exact ⟨newest.append (below.own.mono le), newest.append (below.visible.mono le),
            fun names member => (below.outer names member).mono le⟩
  | use _ => exact below

/-- A use designates a binder that comes before it. -/
theorem Below.designated_lt {scopes : Scopes} (below : Below scopes) (mentions : List Mention)
    {number : Nat}
    (used : number ∈ (scopes.occurrences mentions).filterMap Occurrence.designated?) :
    number < (scopes.afterAll mentions).next := by
  induction mentions generalizing scopes with
  | nil => cases used
  | cons mention rest inductionHypothesis =>
      have le := (binders rest (scopes.after mention)).1
      rw [occurrences, List.filterMap_append, List.mem_append] at used
      rcases used with here | later
      · refine Nat.lt_of_lt_of_le (?_ : number < (scopes.after mention).next) le
        cases mention with
        | bind name =>
            simp only [Scopes.after, occurrence?] at here ⊢
            cases found : lookUp? name scopes.own with
            | none => simp [found, Occurrence.designated?] at here
            | some binder =>
                simp only [found, Option.toList_some, List.filterMap_cons,
                  Occurrence.designated?, List.filterMap_nil, List.mem_singleton] at here
                subst here
                exact below.own _ (mem_of_lookUp? found)
        | use name =>
            simp only [Scopes.after, occurrence?] at here ⊢
            cases found : lookUp? name scopes.visible with
            | none => simp [found, Occurrence.designated?] at here
            | some binder =>
                simp only [found, Option.toList_some, List.filterMap_cons,
                  Occurrence.designated?, List.filterMap_nil, List.mem_singleton] at here
                subst here
                exact below.visible _ (mem_of_lookUp? found)
        | enter | leave | pattern => cases here
      · exact inductionHypothesis (below.after mention) later

end Scopes
end HtmlTemplate
