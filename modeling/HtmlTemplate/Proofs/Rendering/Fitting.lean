import HtmlTemplate.Proofs.Scoping.Acceptance

namespace HtmlTemplate

/-!
# When a value fits a pattern

A value has the shape of a pattern if they agree place by place; then each name
in the pattern stands where some part of the value stands.  The value fits if
the names can be given values such that a name has the value of its first place
and equals those of all others.

A compiled pattern finds out just that.  If it matches, the local of each name
holds the value of the first place, and whether it matches or not, no local is
changed that the pattern does not declare.
-/

/-! ## Fitting -/

namespace Pattern

mutual

/-- A value has the shape of a pattern.  `met` lists the names of the pattern in
source order, each with the value in its place. -/
inductive Meets : Pattern -> Value -> Scope -> Prop where
  | wildcard (value : Value) : Meets .wildcard value []
  | var (name : String) (value : Value) : Meets (.var name) value [(name, value)]
  | lit {literal : Literal} {expected value : Value} (denoted : literal.denote = .ok expected)
      (equal : (expected == value) = true) : Meets (.lit literal) value []
  | tuple {patterns : List Pattern} {items : List Value} {met : Scope}
      (inner : MeetsAll patterns items met) : Meets (.tuple patterns) (.tuple items) met
  | list {patterns : List Pattern} {items : List Value} {met : Scope}
      (inner : MeetsAll patterns items met) : Meets (.list patterns) (.list items) met

/-- Values have the shapes of patterns one by one, and there are as many. -/
inductive MeetsAll : List Pattern -> List Value -> Scope -> Prop where
  | nil : MeetsAll [] [] []
  | cons {pattern : Pattern} {patterns : List Pattern} {item : Value} {items : List Value}
      {met others : Scope} (first : Meets pattern item met)
      (rest : MeetsAll patterns items others) :
      MeetsAll (pattern :: patterns) (item :: items) (met ++ others)

end

end Pattern

namespace Scope

/-- Names meet values as an assignment says: a name that was not seen before
meets its own value, and one that was seen meets an equal one. -/
def Respects (assignment : String -> Value) : List String -> Scope -> Prop
  | _, [] => True
  | seen, (name, value) :: rest =>
      (if name ∈ seen then (assignment name == value) = true else assignment name = value) ∧
        Respects assignment (name :: seen) rest

/-- Take up names with the values that they meet, unless a name that is known
already meets a value that differs. -/
def admit? (bound : Scope) : Scope -> Option Scope
  | [] => some bound
  | (name, value) :: rest =>
      match lookUp? name bound with
      | some first => if first == value then admit? bound rest else none
      | none => admit? ((name, value) :: bound) rest

theorem admit?_append (bound first second : Scope) :
    bound.admit? (first ++ second) = bound.admit? first >>= fun known => known.admit? second := by
  induction first generalizing bound with
  | nil => rfl
  | cons entry rest inductionHypothesis =>
      rcases entry with ⟨name, value⟩
      simp only [List.cons_append, admit?]
      split
      · split
        · exact inductionHypothesis bound
        · rfl
      · exact inductionHypothesis _

variable {bound met after : Scope}

/-- What is known of a name in the end is what was known of it before, or else
the value that it meets first. -/
theorem lookUp?_of_admit? (admitted : bound.admit? met = some after) (name : String) :
    lookUp? name after = (lookUp? name bound).or (lookUp? name met) := by
  induction met generalizing bound with
  | nil =>
      cases admitted
      exact (Option.or_none).symm
  | cons entry rest inductionHypothesis =>
      rcases entry with ⟨own, value⟩
      simp only [admit?] at admitted
      rw [lookUp?_cons]
      split at admitted
      · rename_i first known
        split at admitted
        · rw [inductionHypothesis admitted]
          split
          · rename_i same
            rw [← same, known, Option.some_or, Option.some_or]
          · rfl
        · cases admitted
      · rename_i unknown
        rw [inductionHypothesis admitted, lookUp?_cons]
        split
        · rename_i same
          rw [← same, unknown, Option.some_or, Option.none_or]
        · rfl

/-- The names that were seen are those that are known. -/
def Knows (bound : Scope) (seen : List String) : Prop :=
  ∀ name, name ∈ seen ↔ ∃ first, lookUp? name bound = some first

theorem Knows.nil : Knows [] [] :=
  fun _ => iff_of_false (List.not_mem_nil) fun ⟨_, impossible⟩ => nomatch impossible

theorem Knows.again {seen : List String} {name : String} {first : Value}
    (knows : bound.Knows seen) (known : lookUp? name bound = some first) :
    bound.Knows (name :: seen) := by
  intro other
  rw [List.mem_cons, knows other]
  refine or_iff_right_of_imp ?_
  rintro rfl
  exact ⟨first, known⟩

theorem Knows.cons {seen : List String} (knows : bound.Knows seen) (name : String)
    (value : Value) : Knows ((name, value) :: bound) (name :: seen) := by
  intro other
  rw [List.mem_cons, knows other, lookUp?_cons]
  by_cases same : name = other
  · simp [same]
  · simp [same, Ne.symm same]

theorem respects_of_admit? {seen : List String} (knows : bound.Knows seen)
    (admitted : bound.admit? met = some after) {assignment : String -> Value}
    (assigns : ∀ name value, lookUp? name after = some value -> assignment name = value) :
    Respects assignment seen met := by
  induction met generalizing bound seen with
  | nil => trivial
  | cons entry rest inductionHypothesis =>
      rcases entry with ⟨name, value⟩
      simp only [admit?] at admitted
      split at admitted
      · rename_i first known
        split at admitted
        · rename_i equal
          have kept : lookUp? name after = some first := by
            rw [lookUp?_of_admit? admitted, known, Option.some_or]
          refine ⟨?_, inductionHypothesis (knows.again known) admitted⟩
          rw [if_pos ((knows name).mpr ⟨first, known⟩), assigns name first kept]
          exact equal
        · cases admitted
      · rename_i unknown
        have unseen : name ∉ seen := by
          rw [knows name, unknown]
          exact fun ⟨_, impossible⟩ => nomatch impossible
        have kept : lookUp? name after = some value := by
          rw [lookUp?_of_admit? admitted, lookUp?_cons, if_pos rfl, Option.some_or]
        refine ⟨?_, inductionHypothesis (knows.cons name value) admitted⟩
        rw [if_neg unseen]
        exact assigns name value kept

theorem exists_admit?_of_respects {seen : List String} (knows : bound.Knows seen)
    {assignment : String -> Value}
    (assigns : ∀ name first, lookUp? name bound = some first -> assignment name = first)
    (respects : Respects assignment seen met) : ∃ after, bound.admit? met = some after := by
  induction met generalizing bound seen with
  | nil => exact ⟨bound, rfl⟩
  | cons entry rest inductionHypothesis =>
      rcases entry with ⟨name, value⟩
      rcases respects with ⟨own, others⟩
      simp only [admit?]
      cases known : lookUp? name bound with
      | some first =>
          rw [if_pos ((knows name).mpr ⟨first, known⟩), assigns name first known] at own
          simp only [own, if_true]
          exact inductionHypothesis (knows.again known) assigns others
      | none =>
          have unseen : name ∉ seen := by
            rw [knows name, known]
            exact fun ⟨_, impossible⟩ => nomatch impossible
          rw [if_neg unseen] at own
          refine inductionHypothesis (knows.cons name value) (fun other first found => ?_) others
          rw [lookUp?_cons] at found
          split at found
          · rename_i same
            cases found
            rw [← same, own]
          · exact assigns other first found

/-- Names can be taken up if and only if there is an assignment that says what
they meet. -/
theorem exists_admit?_iff :
    (∃ after, admit? [] met = some after) ↔ ∃ assignment, Respects assignment [] met := by
  constructor
  · rintro ⟨after, admitted⟩
    refine ⟨fun name => (lookUp? name after).getD .nil, respects_of_admit? .nil admitted ?_⟩
    intro name value found
    rw [found, Option.getD_some]
  · rintro ⟨assignment, respects⟩
    exact exists_admit?_of_respects .nil (fun _ _ impossible => nomatch impossible) respects

end Scope

/-! ## Matching finds the shape -/

namespace Pattern

mutual

/-- Matching takes up the names of a value that has the shape of the pattern. -/
theorem match?_eq_some_iff : (pattern : Pattern) -> (bound : Scope) -> (value : Value) ->
    (after : Scope) -> (match? bound pattern value = some after ↔
      ∃ met, Meets pattern value met ∧ bound.admit? met = some after)
  | .wildcard, bound, value, after => by
      rw [match?]
      refine ⟨fun done => ⟨[], .wildcard value, done⟩, ?_⟩
      rintro ⟨_, ⟨⟩, done⟩
      exact done
  | .var name, bound, value, after => by
      have single : match? bound (.var name) value = bound.admit? [(name, value)] := by
        rw [match?, Scope.admit?]
        rfl
      rw [single]
      refine ⟨fun done => ⟨_, .var name value, done⟩, ?_⟩
      rintro ⟨_, ⟨⟩, done⟩
      exact done
  | .lit literal, bound, value, after => by
      rw [match?]
      constructor
      · intro done
        split at done
        · rename_i expected denoted
          split at done
          · rename_i equal
            exact ⟨[], .lit denoted equal, done⟩
          · cases done
        · cases done
      · rintro ⟨_, meets, done⟩
        cases meets with
        | lit denoted equal => simp only [denoted, equal, if_true, ← done, Scope.admit?]
  | .tuple patterns, bound, value, after => by
      cases value with
      | tuple items =>
          rw [match?, matchAll?_eq_some_iff patterns bound items after]
          constructor
          · rintro ⟨met, inner, done⟩
            exact ⟨met, .tuple inner, done⟩
          · rintro ⟨met, meets, done⟩
            cases meets with
            | tuple inner => exact ⟨met, inner, done⟩
      | _ => exact iff_of_false nofun nofun
  | .list patterns, bound, value, after => by
      cases value with
      | list items =>
          rw [match?, matchAll?_eq_some_iff patterns bound items after]
          constructor
          · rintro ⟨met, inner, done⟩
            exact ⟨met, .list inner, done⟩
          · rintro ⟨met, meets, done⟩
            cases meets with
            | list inner => exact ⟨met, inner, done⟩
      | _ => exact iff_of_false nofun nofun

theorem matchAll?_eq_some_iff : (patterns : List Pattern) -> (bound : Scope) ->
    (items : List Value) -> (after : Scope) -> (matchAll? bound patterns items = some after ↔
      ∃ met, MeetsAll patterns items met ∧ bound.admit? met = some after)
  | [], bound, [], after => by
      rw [matchAll?]
      refine ⟨fun done => ⟨[], .nil, done⟩, ?_⟩
      rintro ⟨_, ⟨⟩, done⟩
      exact done
  | [], _, _ :: _, _ => iff_of_false nofun nofun
  | _ :: _, _, [], _ => iff_of_false nofun nofun
  | pattern :: patterns, bound, item :: items, after => by
      rw [matchAll?]
      constructor
      · intro done
        split at done
        · rename_i between head
          rcases (match?_eq_some_iff pattern bound item between).mp head with ⟨met, first, own⟩
          rcases (matchAll?_eq_some_iff patterns between items after).mp done with
            ⟨others, rest, last⟩
          refine ⟨met ++ others, .cons first rest, ?_⟩
          rw [Scope.admit?_append, own]
          exact last
        · cases done
      · rintro ⟨_, meets, done⟩
        cases meets with
        | cons first rest =>
            rename_i met others
            rw [Scope.admit?_append] at done
            rcases Option.bind_eq_some_iff.mp done with ⟨between, own, last⟩
            rw [(match?_eq_some_iff pattern bound item between).mpr ⟨met, first, own⟩]
            exact (matchAll?_eq_some_iff patterns between items after).mpr ⟨others, rest, last⟩

end

mutual

/-- The names that a value meets are those that the pattern binds. -/
theorem Meets.names : (pattern : Pattern) -> {value : Value} -> {met : Scope} ->
    Meets pattern value met -> met.map Prod.fst = pattern.bindings
  | .wildcard, _, _, .wildcard _ => rfl
  | .var _, _, _, .var _ _ => rfl
  | .lit _, _, _, .lit _ _ => rfl
  | .tuple patterns, _, _, .tuple inner => MeetsAll.names patterns inner
  | .list patterns, _, _, .list inner => MeetsAll.names patterns inner

theorem MeetsAll.names : (patterns : List Pattern) -> {items : List Value} -> {met : Scope} ->
    MeetsAll patterns items met -> met.map Prod.fst = bindingsOfAll patterns
  | [], _, _, .nil => rfl
  | pattern :: patterns, _, _, .cons first rest => by
      rw [List.map_append, Meets.names pattern first, MeetsAll.names patterns rest, bindingsOfAll]

end

mutual

/-- What the names meet is settled by the shape. -/
theorem Meets.unique : (pattern : Pattern) -> {value : Value} -> {met other : Scope} ->
    Meets pattern value met -> Meets pattern value other -> met = other
  | .wildcard, _, _, _, .wildcard _, .wildcard _ => rfl
  | .var _, _, _, _, .var _ _, .var _ _ => rfl
  | .lit _, _, _, _, .lit _ _, .lit _ _ => rfl
  | .tuple patterns, _, _, _, .tuple inner, .tuple inner' => MeetsAll.unique patterns inner inner'
  | .list patterns, _, _, _, .list inner, .list inner' => MeetsAll.unique patterns inner inner'

theorem MeetsAll.unique : (patterns : List Pattern) -> {items : List Value} ->
    {met other : Scope} -> MeetsAll patterns items met -> MeetsAll patterns items other ->
    met = other
  | [], _, _, _, .nil, .nil => rfl
  | pattern :: patterns, _, _, _, .cons first rest, .cons first' rest' => by
      rw [Meets.unique pattern first first', MeetsAll.unique patterns rest rest']

end

/-- A pattern matches if and only if there is an assignment under which the value
fits. -/
theorem exists_match?_iff {pattern : Pattern} {value : Value} :
    (∃ scope, match? [] pattern value = some scope) ↔
      ∃ assignment met, pattern.Meets value met ∧ Scope.Respects assignment [] met := by
  simp only [match?_eq_some_iff]
  constructor
  · rintro ⟨scope, met, meets, admitted⟩
    rcases Scope.exists_admit?_iff.mp ⟨scope, admitted⟩ with ⟨assignment, respects⟩
    exact ⟨assignment, met, meets, respects⟩
  · rintro ⟨assignment, met, meets, respects⟩
    rcases Scope.exists_admit?_iff.mpr ⟨assignment, respects⟩ with ⟨scope, admitted⟩
    exact ⟨scope, met, meets, admitted⟩

/-- A pattern that matches gives each name the value that it meets first. -/
theorem lookUp?_of_match? {pattern : Pattern} {value : Value} {met scope : Scope}
    (matched : match? [] pattern value = some scope) (meets : Meets pattern value met)
    {name : String} (member : name ∈ pattern.bindings) :
    ∃ first, lookUp? name met = some first ∧ lookUp? name scope = some first := by
  rcases (match?_eq_some_iff pattern [] value scope).mp matched with ⟨own, meets', admitted⟩
  cases Meets.unique pattern meets meets'
  rw [← Meets.names pattern meets] at member
  rcases exists_lookUp?_of_mem member with ⟨first, found⟩
  refine ⟨first, found, ?_⟩
  rw [Scope.lookUp?_of_admit? admitted name, found]
  rfl

/-! ## Declared locals -/

/-- Locals are handed out to names, and a name that has one keeps it. -/
structure Assigns (before after : Bindings) : Prop where
  keeps : ∀ name slot, lookUp? name before.bound = some slot ->
    lookUp? name after.bound = some slot
  names : ∀ slot, before.next ≤ slot -> slot < after.next ->
    ∃ name, lookUp? name after.bound = some slot

theorem Assigns.refl (bindings : Bindings) : Assigns bindings bindings :=
  ⟨fun _ _ known => known, fun _ from' below => absurd below (Nat.not_lt.mpr from')⟩

theorem Assigns.trans {first second third : Bindings} (left : Assigns first second)
    (right : Assigns second third) : Assigns first third := by
  refine ⟨fun name slot known => right.keeps name slot (left.keeps name slot known), ?_⟩
  intro slot from' below
  by_cases early : slot < second.next
  · rcases left.names slot from' early with ⟨name, known⟩
    exact ⟨name, right.keeps name slot known⟩
  · exact right.names slot (Nat.not_lt.mp early) below

mutual

theorem compile_assigns : (pattern : Pattern) -> {bindings after : Bindings} ->
    {matcher : Matcher} -> compile bindings pattern = .ok (matcher, after) ->
    Assigns bindings after
  | .wildcard, bindings, after, matcher, compiled => by
      simp only [compile] at compiled
      cases compiled
      exact .refl bindings
  | .var name, bindings, after, matcher, compiled => by
      rcases compile_var compiled with ⟨slot, _, _, rfl⟩ | ⟨missing, _, rfl⟩
      · exact .refl _
      · constructor
        · intro other slot known
          rw [lookUp?_cons, if_neg, known]
          rintro rfl
          rw [missing] at known
          cases known
        · intro slot from' below
          have same : bindings.next = slot := by
            dsimp only at below
            omega
          exact ⟨name, by rw [lookUp?_cons, if_pos rfl, same]⟩
  | .lit literal, bindings, after, matcher, compiled => by
      rcases compile_lit compiled with ⟨_, _, _, rfl⟩
      exact .refl _
  | .tuple items, bindings, after, matcher, compiled => by
      rcases compile_tuple compiled with ⟨_, inner, _⟩
      exact compileAll_assigns items inner
  | .list items, bindings, after, matcher, compiled => by
      rcases compile_list compiled with ⟨_, inner, _⟩
      exact compileAll_assigns items inner

theorem compileAll_assigns : (patterns : List Pattern) -> {bindings after : Bindings} ->
    {matchers : List Matcher} -> compileAll bindings patterns = .ok (matchers, after) ->
    Assigns bindings after
  | [], bindings, after, matchers, compiled => by
      simp only [compileAll] at compiled
      cases compiled
      exact .refl bindings
  | pattern :: rest, bindings, after, matchers, compiled => by
      rcases compileAll_cons compiled with ⟨_, between, _, first, second, _⟩
      exact (compile_assigns pattern first).trans (compileAll_assigns rest second)

end

/-! ## Compiled patterns -/

/-- What matching a value comes to, where `names` says which locals stand for
names. -/
structure Decides (pattern : Pattern) (names : List (String × Nat)) (value : Value)
    (locals : Locals) (outcome : Bool × Locals) : Prop where
  /-- It succeeds if and only if there is an assignment under which the value
  fits. -/
  holds_iff : outcome.1 = true ↔
    ∃ assignment met, pattern.Meets value met ∧ Scope.Respects assignment [] met
  /-- If it succeeds, each name has a local with the value that it meets first. -/
  binds : outcome.1 = true -> ∀ met, pattern.Meets value met -> ∀ name ∈ pattern.bindings,
    ∃ slot first, lookUp? name names = some slot ∧ lookUp? name met = some first ∧
      outcome.2.read slot = first
  /-- In any case the other locals keep their values. -/
  keeps : ∀ slot, (∀ name ∈ pattern.bindings, lookUp? name names ≠ some slot) ->
    outcome.2.read slot = locals.read slot

variable {layout after : Layout} {pattern : Pattern} {matcher : Matcher} {locals : Locals}

/-- The locals that a pattern is given beyond those of before belong to its
names. -/
theorem exists_binding_of_slot {bindings : Bindings}
    (compiled : compile ⟨layout.locals, []⟩ pattern = .ok (matcher, bindings)) {slot : Nat}
    (from' : layout.locals ≤ slot) (below : slot < bindings.next) :
    ∃ name ∈ pattern.bindings, lookUp? name bindings.bound = some slot := by
  rcases (compile_assigns pattern compiled).names slot from' below with ⟨name, found⟩
  refine ⟨name, ?_, found⟩
  have bound := mem_names_of_lookUp? found
  rw [mem_bound_iff pattern compiled name] at bound
  simpa using bound

/-- A pattern that is declared in any layout matches the values that fit it. -/
theorem decides_of_declare (declared : pattern.declare layout = .ok (matcher, after))
    (room : after.locals ≤ locals.size) (value : Value) :
    pattern.Decides after.names value locals (matcher.run locals value) := by
  rcases declare_eq_ok.mp declared with ⟨_, bindings, compiled, same⟩
  cases same
  have agrees := run_agrees pattern compiled (fun _ impossible => nomatch impossible) locals room
    value
  have result : match? [] pattern value =
      if (matcher.run locals value).1 then
        some ((matcher.run locals value).2.scope bindings.bound) else none := agrees.result
  have known {name : String} {slot : Nat} (found : lookUp? name bindings.bound = some slot) :
      lookUp? name (layout.declare bindings).names = some slot := by
    rw [Layout.declare, lookUp?_append, found, Option.some_or]
  refine ⟨?_, fun holds met meets name member => ?_, fun slot undeclared => ?_⟩
  · rw [← exists_match?_iff, result]
    cases (matcher.run locals value).1 with
    | true => exact iff_of_true rfl ⟨_, rfl⟩
    | false => simp
  · rw [holds, if_pos rfl] at result
    rcases lookUp?_of_match? result meets member with ⟨first, found, stored⟩
    rw [Locals.lookUp?_scope] at stored
    rcases Option.map_eq_some_iff.mp stored with ⟨slot, declared, same⟩
    exact ⟨slot, first, known declared, found, same⟩
  · by_cases below : slot < layout.locals
    · exact agrees.written.below slot below
    · refine agrees.written.above slot (Nat.not_lt.mp fun early => ?_)
      rcases exists_binding_of_slot compiled (Nat.not_lt.mp below) early with ⟨name, member, found⟩
      exact undeclared name member (known found)

/-- A name that is bound outside already, comes twice, and meets equal values. -/
theorem decides_of_declare_repeated :
    let layout : Layout := { locals := 1, names := [("x", 0)] }
    let pattern : Pattern := .tuple [.var "x", .list [.var "x", .wildcard], .lit (.num "1")]
    let value : Value := .tuple [.str "a", .list [.str "a", .nil], .int 1]
    let locals : Locals := #[.nil, .nil]
    ∃ matcher after, pattern.declare layout = .ok (matcher, after) ∧ after.locals ≤ locals.size ∧
      (matcher.run locals value).1 = true ∧
      pattern.Decides after.names value locals (matcher.run locals value) := by
  intro layout pattern value locals
  exact ⟨_, _, rfl, Nat.le_refl _, rfl, decides_of_declare rfl (Nat.le_refl _) value⟩

end Pattern
end HtmlTemplate
