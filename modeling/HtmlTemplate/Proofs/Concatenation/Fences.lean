import HtmlTemplate.Proofs.Syntax.Lookahead

namespace HtmlTemplate
namespace Reader

/-!
# Readers that stay in front of a fence

Inside a tag a percent sign can only stand in a string.  The first percent sign
outside of strings is therefore a fence: the readers of what a tag holds never
get past it, and whatever they answer, they answer without having seen what
stands behind it.  Such readers are called steady, and the rules here show that
readers composed of steady ones are steady.

A source without a fence is not read to the end of its tag, since the closing
delimiter begins with a percent sign.  That is why a steady reader also has to
keep a source without a fence from getting one.
-/

variable {α β : Type} {source rest : List Char}

/-- What follows the string that a source begins inside of, if the string is
closed. -/
def afterString : List Char -> Option (List Char)
  | [] => none
  | '\\' :: _ :: rest => afterString rest
  | ['\\'] => none
  | '"' :: rest => some rest
  | _ :: rest => afterString rest

/-- A percent sign stands outside of strings. -/
inductive Fenced : List Char -> Prop where
  | fence (rest : List Char) : Fenced ('%' :: rest)
  | step {c : Char} {rest : List Char} (mark : c ≠ '"') (fenced : Fenced rest) : Fenced (c :: rest)
  | string {inside rest : List Char} (closed : afterString inside = some rest)
      (fenced : Fenced rest) : Fenced ('"' :: inside)

theorem suffix_of_afterString {inside : List Char} (closed : afterString inside = some rest) :
    rest <:+ inside := by
  induction inside using afterString.induct with
  | case1 => cases closed
  | case2 c tail inductionHypothesis =>
      exact (inductionHypothesis closed).trans ((List.suffix_cons ..).trans (List.suffix_cons ..))
  | case3 => cases closed
  | case4 tail =>
      cases closed
      exact List.suffix_cons ..
  | case5 c tail escaped last quote inductionHypothesis =>
      rw [afterString] at closed
      · exact (inductionHypothesis closed).trans (List.suffix_cons ..)
      · exact escaped
      · exact last
      · exact quote

theorem Fenced.percent_mem (fenced : Fenced source) : '%' ∈ source := by
  induction fenced with
  | fence rest => exact List.mem_cons_self ..
  | step mark fenced inductionHypothesis => exact List.mem_cons_of_mem _ inductionHypothesis
  | string closed fenced inductionHypothesis =>
      exact List.mem_cons_of_mem _ ((suffix_of_afterString closed).subset inductionHypothesis)

theorem Fenced.ne_nil (fenced : Fenced source) : source ≠ [] := by
  rintro rfl
  cases fenced

theorem fenced_cons_iff {c : Char} (percent : c ≠ '%') (mark : c ≠ '"') :
    Fenced (c :: rest) ↔ Fenced rest := by
  constructor
  · intro fenced
    cases fenced with
    | fence => exact absurd rfl percent
    | step _ fenced => exact fenced
    | string => exact absurd rfl mark
  · exact .step mark

theorem fenced_string_iff {inside : List Char} :
    Fenced ('"' :: inside) ↔ ∃ rest, afterString inside = some rest ∧ Fenced rest := by
  constructor
  · intro fenced
    cases fenced with
    | step mark => exact absurd rfl mark
    | string closed fenced => exact ⟨_, closed, fenced⟩
  · rintro ⟨rest, closed, fenced⟩
    exact .string closed fenced

theorem fenced_append_iff {text : List Char} (plain : ∀ c ∈ text, c ≠ '%' ∧ c ≠ '"') :
    Fenced (text ++ rest) ↔ Fenced rest := by
  induction text with
  | nil => exact Iff.rfl
  | cons c others inductionHypothesis =>
      have first := plain c (List.mem_cons_self ..)
      rw [List.cons_append, fenced_cons_iff first.1 first.2]
      exact inductionHypothesis fun other member => plain other (List.mem_cons_of_mem _ member)

/-! ## Runs of characters -/

section Runs

variable {accepts : Char -> Bool} (percent : accepts '%' = false) (quote : accepts '"' = false)
include percent quote

theorem fenced_cons_of_accepts {c : Char} (accepted : accepts c = true) :
    Fenced (c :: rest) ↔ Fenced rest := by
  apply fenced_cons_iff
  · rintro rfl
    rw [percent] at accepted
    cases accepted
  · rintro rfl
    rw [quote] at accepted
    cases accepted

theorem fenced_dropWhile_iff (source : List Char) :
    Fenced (source.dropWhile accepts) ↔ Fenced source := by
  induction source with
  | nil => exact Iff.rfl
  | cons c rest inductionHypothesis =>
      by_cases accepted : accepts c = true
      · rw [List.dropWhile_cons_of_pos accepted, inductionHypothesis,
          fenced_cons_of_accepts percent quote accepted]
      · rw [List.dropWhile_cons_of_neg accepted]

theorem Fenced.dropWhile_append (fenced : Fenced source) (extra : List Char) :
    (source ++ extra).dropWhile accepts = source.dropWhile accepts ++ extra := by
  have inside := ((fenced_dropWhile_iff percent quote source).mpr fenced).ne_nil
  rw [List.dropWhile_append, if_neg]
  simpa using inside

theorem Fenced.takeWhile_append (fenced : Fenced source) (extra : List Char) :
    (source ++ extra).takeWhile accepts = source.takeWhile accepts := by
  induction source with
  | nil => cases fenced
  | cons c rest inductionHypothesis =>
      by_cases accepted : accepts c = true
      · have inside := (fenced_cons_of_accepts percent quote accepted).mp fenced
        rw [List.cons_append, List.takeWhile_cons_of_pos accepted,
          List.takeWhile_cons_of_pos accepted, inductionHypothesis inside]
      · rw [List.cons_append, List.takeWhile_cons_of_neg accepted,
          List.takeWhile_cons_of_neg accepted]

end Runs

/-! ## Steady readers -/

/-- The second reply is the first one, in front of more text.  Where reading
stopped does not matter. -/
def Extends (extra : List Char) : Reply α -> Reply α -> Prop
  | .ok value rest, longer => longer = .ok value (rest ++ extra)
  | .miss _, longer => ∃ place, longer = .miss place
  | .fail _ _, longer => ∃ place cause, longer = .fail place cause

/-- From a fenced source the readers read the same, whatever stands after the
source for the second one.  What is left of a source is an end of it, and it is
fenced if the source is. -/
structure Alike (reader other : Reader α) : Prop where
  kept : ∀ {source : List Char} {value : α} {rest : List Char}, reader source = .ok value rest ->
    rest <:+ source ∧ (Fenced rest ↔ Fenced source)
  grows : ∀ {source : List Char}, Fenced source -> ∀ extra,
    Extends extra (reader source) (other (source ++ extra))

/-- A reader that never looks behind a fence. -/
def Steady (reader : Reader α) : Prop :=
  Alike reader reader

/-- A reader that takes at least one character. -/
structure Shortens (reader : Reader α) : Prop where
  shorter : ∀ {source : List Char} {value : α} {rest : List Char},
    reader source = .ok value rest -> rest.length < source.length

namespace Alike

variable {reader other : Reader α} {value : α}

theorem fenced (alike : Alike reader other) (ended : Fenced source)
    (read : reader source = .ok value rest) : Fenced rest :=
  (alike.kept read).2.mpr ended

theorem reads (alike : Alike reader other) (ended : Fenced source)
    (read : reader source = .ok value rest) (extra : List Char) :
    other (source ++ extra) = .ok value (rest ++ extra) := by
  have longer := alike.grows ended extra
  rw [read] at longer
  exact longer

theorem misses (alike : Alike reader other) (ended : Fenced source) {place : List Char}
    (missed : reader source = .miss place) (extra : List Char) :
    ∃ place, other (source ++ extra) = .miss place := by
  have longer := alike.grows ended extra
  rw [missed] at longer
  exact longer

theorem fails (alike : Alike reader other) (ended : Fenced source) {place : List Char}
    {cause : Option SyntaxCause} (failed : reader source = .fail place cause)
    (extra : List Char) : ∃ place cause, other (source ++ extra) = .fail place cause := by
  have longer := alike.grows ended extra
  rw [failed] at longer
  exact longer

/-- Both readers read, both miss or both fail. -/
theorem outcomes (alike : Alike reader other) (ended : Fenced source) (extra : List Char) :
    (∃ value rest, reader source = .ok value rest ∧
      other (source ++ extra) = .ok value (rest ++ extra)) ∨
    (∃ place place', reader source = .miss place ∧ other (source ++ extra) = .miss place') ∨
    ∃ place cause place' cause', reader source = .fail place cause ∧
      other (source ++ extra) = .fail place' cause' := by
  cases found : reader source with
  | ok value rest => exact .inl ⟨value, rest, rfl, alike.reads ended found extra⟩
  | miss place =>
      rcases alike.misses ended found extra with ⟨place', missed⟩
      exact .inr (.inl ⟨place, place', rfl, missed⟩)
  | fail place cause =>
      rcases alike.fails ended found extra with ⟨place', cause', failed⟩
      exact .inr (.inr ⟨place, cause, place', cause', rfl, failed⟩)

theorem bind {next next' : α -> Reader β} (first : Alike reader other)
    (second : ∀ value, Alike (next value) (next' value)) :
    Alike (reader >>= next) (other >>= next') := by
  constructor
  · intro source last rest read
    rcases eq_ok_of_bind read with ⟨value, middle, found, read⟩
    have before := first.kept found
    have after := (second value).kept read
    exact ⟨after.1.trans before.1, after.2.trans before.2⟩
  · intro source ended extra
    rcases first.outcomes ended extra with
      ⟨value, middle, read, longer⟩ | ⟨_, _, missed, longer⟩ | ⟨_, _, _, _, failed, longer⟩
    · rw [bind_of_ok read, bind_of_ok longer]
      exact (second value).grows (first.fenced ended read) extra
    · rw [bind_of_miss missed]
      exact ⟨_, bind_of_miss longer⟩
    · rw [bind_of_fail failed]
      exact ⟨_, _, bind_of_fail longer⟩

/-- Where a failure points makes no difference. -/
theorem failAt (place place' : List Char) (cause : SyntaxCause) :
    Alike (Reader.failAt place cause : Reader α) (Reader.failAt place' cause) := by
  constructor
  · intro source value rest impossible
    cases impossible
  · intro source ended extra
    exact ⟨place', some cause, rfl⟩

end Alike

namespace Steady

variable {reader second : Reader α}

theorem pure (value : α) : Steady (Pure.pure value : Reader α) := by
  constructor
  · intro source found rest read
    cases read
    exact ⟨List.suffix_rfl, Iff.rfl⟩
  · intro source ended extra
    rfl

theorem fail (cause : SyntaxCause) : Steady (Reader.fail cause : Reader α) := by
  constructor
  · intro source value rest impossible
    cases impossible
  · intro source ended extra
    exact ⟨_, _, rfl⟩

theorem bind {next : α -> Reader β} (first : Steady reader)
    (second : ∀ value, Steady (next value)) : Steady (reader >>= next) :=
  Alike.bind first second

/-- The place where reading stands is only good for failures. -/
theorem here {next : List Char -> Reader α} (each : ∀ start start', Alike (next start) (next start')) :
    Steady (Reader.here >>= next) := by
  constructor
  · intro source value rest read
    exact (each source source).kept read
  · intro source ended extra
    exact (each source (source ++ extra)).grows ended extra

theorem orElse (first : Steady reader) (other : Steady second) : Steady (reader <|> second) := by
  constructor
  · intro source value rest read
    cases found : reader source with
    | ok value middle =>
        rw [orElse_of_ok found] at read
        cases read
        exact first.kept found
    | miss place =>
        rw [orElse_of_miss found] at read
        exact other.kept read
    | fail place cause =>
        rw [orElse_of_fail found] at read
        cases read
  · intro source ended extra
    rcases first.outcomes ended extra with
      ⟨_, _, read, longer⟩ | ⟨_, _, missed, longer⟩ | ⟨_, _, _, _, failed, longer⟩
    · rw [orElse_of_ok read]
      exact orElse_of_ok longer
    · rw [orElse_of_miss missed, orElse_of_miss longer]
      exact other.grows ended extra
    · rw [orElse_of_fail failed]
      exact ⟨_, _, orElse_of_fail longer⟩

theorem optional (steady : Steady reader) : Steady (Reader.optional reader) := by
  constructor
  · intro source value rest read
    simp only [Reader.optional] at read
    split at read
    · rename_i found
      cases read
      exact steady.kept found
    · cases read
      exact ⟨List.suffix_rfl, Iff.rfl⟩
    · cases read
  · intro source ended extra
    rcases steady.outcomes ended extra with
      ⟨_, _, read, longer⟩ | ⟨_, _, missed, longer⟩ | ⟨_, _, _, _, failed, longer⟩
    · simp only [Reader.optional, read, longer]
      exact rfl
    · simp only [Reader.optional, missed, longer]
      exact rfl
    · simp only [Reader.optional, failed, longer]
      exact ⟨_, _, rfl⟩

theorem commit (steady : Steady reader) : Steady (Reader.commit reader) := by
  constructor
  · intro source value rest read
    simp only [Reader.commit] at read
    split at read
    · cases read
    · exact steady.kept read
  · intro source ended extra
    rcases steady.outcomes ended extra with
      ⟨_, _, read, longer⟩ | ⟨_, _, missed, longer⟩ | ⟨_, _, _, _, failed, longer⟩
    · simp only [Reader.commit, read, longer]
      exact rfl
    · simp only [Reader.commit, missed, longer]
      exact ⟨_, _, rfl⟩
    · simp only [Reader.commit, failed, longer]
      exact ⟨_, _, rfl⟩

theorem require (cause : SyntaxCause) (steady : Steady reader) :
    Steady (Reader.require cause reader) := by
  constructor
  · intro source value rest read
    simp only [Reader.require] at read
    split at read
    · cases read
    · exact steady.kept read
  · intro source ended extra
    rcases steady.outcomes ended extra with
      ⟨_, _, read, longer⟩ | ⟨_, _, missed, longer⟩ | ⟨_, _, _, _, failed, longer⟩
    · simp only [Reader.require, read, longer]
      exact rfl
    · simp only [Reader.require, missed, longer]
      exact ⟨_, _, rfl⟩
    · simp only [Reader.require, failed, longer]
      exact ⟨_, _, rfl⟩

theorem notAhead (steady : Steady reader) : Steady (Reader.notAhead reader) := by
  constructor
  · intro source value rest read
    simp only [Reader.notAhead] at read
    split at read
    · cases read
    · cases read
      exact ⟨List.suffix_rfl, Iff.rfl⟩
    · cases read
  · intro source ended extra
    rcases steady.outcomes ended extra with
      ⟨_, _, read, longer⟩ | ⟨_, _, missed, longer⟩ | ⟨_, _, _, _, failed, longer⟩
    · simp only [Reader.notAhead, read, longer]
      exact ⟨_, rfl⟩
    · simp only [Reader.notAhead, missed, longer]
      exact rfl
    · simp only [Reader.notAhead, failed, longer]
      exact ⟨_, _, rfl⟩

/-! ### Characters -/

theorem satisfy {accepts : Char -> Bool} (percent : accepts '%' = false)
    (quote : accepts '"' = false) : Steady (Reader.satisfy accepts) := by
  constructor
  · intro source value rest read
    cases source with
    | nil => cases read
    | cons c tail =>
        by_cases accepted : accepts c = true
        · simp only [Reader.satisfy, if_pos accepted] at read
          cases read
          exact ⟨List.suffix_cons .., (fenced_cons_of_accepts percent quote accepted).symm⟩
        · simp only [Reader.satisfy, if_neg accepted] at read
          cases read
  · intro source ended extra
    cases source with
    | nil => cases ended
    | cons c tail =>
        by_cases accepted : accepts c = true
        · simp only [Reader.satisfy, List.cons_append, if_pos accepted]
          rfl
        · simp only [Reader.satisfy, List.cons_append, if_neg accepted]
          exact ⟨_, rfl⟩

theorem char {c : Char} (percent : c ≠ '%') (quote : c ≠ '"') : Steady (Reader.char c) := by
  constructor
  · intro source value rest read
    cases eq_of_char read
    exact ⟨List.suffix_cons .., (fenced_cons_iff percent quote).symm⟩
  · intro source ended extra
    cases source with
    | nil => cases ended
    | cons found tail =>
        by_cases same : found = c
        · simp only [Reader.char, List.cons_append, if_pos same]
          rfl
        · simp only [Reader.char, List.cons_append, if_neg same]
          exact ⟨_, rfl⟩

/-- A text without percent signs and quotes. -/
theorem exactly {text : List Char} (percent : text.contains '%' = false)
    (quote : text.contains '"' = false) : Steady (Reader.exactly text) := by
  have plain : ∀ c ∈ text, c ≠ '%' ∧ c ≠ '"' := by
    intro c member
    constructor
    · rintro rfl
      rw [List.contains_iff_mem.mpr member] at percent
      cases percent
    · rintro rfl
      rw [List.contains_iff_mem.mpr member] at quote
      cases quote
  constructor
  · intro source value rest read
    simp only [Reader.exactly] at read
    split at read
    · rename_i found
      cases read
      rcases List.isPrefixOf_iff_prefix.mp found with ⟨tail, rfl⟩
      rw [List.drop_left, fenced_append_iff plain]
      exact ⟨List.suffix_append .., Iff.rfl⟩
    · cases read
  · intro source ended extra
    simp only [Reader.exactly]
    by_cases found : text.isPrefixOf source = true
    · rcases List.isPrefixOf_iff_prefix.mp found with ⟨tail, rfl⟩
      have longer : text.isPrefixOf (text ++ tail ++ extra) = true := by
        rw [List.isPrefixOf_iff_prefix, List.append_assoc]
        exact List.prefix_append _ _
      rw [if_pos found, if_pos longer, List.append_assoc, List.drop_left, List.drop_left]
      rfl
    · have longer : ¬text.isPrefixOf (source ++ extra) = true := by
        rw [List.isPrefixOf_iff_prefix] at found ⊢
        intro begins
        -- A source that ends within the text would have no percent sign.
        rcases List.prefix_or_prefix_of_prefix begins (List.prefix_append source extra) with
          whole | part
        · exact found whole
        · exact (plain '%' (part.subset ended.percent_mem)).1 rfl
      rw [if_neg found, if_neg longer]
      exact ⟨_, rfl⟩

/-- A run of characters, as a value or not. -/
theorem takeWhile {accepts : Char -> Bool} (percent : accepts '%' = false)
    (quote : accepts '"' = false) (wrap : List Char -> α) :
    Steady fun source => .ok (wrap (source.takeWhile accepts)) (source.dropWhile accepts) := by
  constructor
  · intro source value rest read
    cases read
    exact ⟨List.dropWhile_suffix _, fenced_dropWhile_iff percent quote source⟩
  · intro source ended extra
    simp only [ended.dropWhile_append percent quote, ended.takeWhile_append percent quote]
    rfl

theorem isSpace_facts : isSpace '%' = false ∧ isSpace '"' = false := by
  decide

theorem spaces : Steady Reader.spaces :=
  takeWhile isSpace_facts.1 isSpace_facts.2 fun _ => ()

theorem spaced (steady : Steady reader) : Steady (Reader.spaced reader) :=
  spaces.bind fun _ => steady.bind fun value => spaces.bind fun _ => .pure value

theorem nested {room : Nat} {inside : Nat -> Reader α} (steady : ∀ room, Steady (inside room)) :
    Steady (Reader.nested room inside) := by
  cases room with
  | zero => exact .fail .tooDeep
  | succ room => exact steady room

theorem deeper (room levels : Nat) : Steady (Reader.deeper room levels) := by
  unfold Reader.deeper
  split
  · exact .pure _
  · exact .fail .tooDeep

end Steady

/-! ### Repetitions -/

namespace Shortens

variable {reader second : Reader α}

theorem andThen {next : α -> Reader β} (first : Shortens reader)
    (second : ∀ value {source : List Char} {last : β} {rest : List Char},
      next value source = .ok last rest -> rest <:+ source) : Shortens (reader >>= next) := by
  constructor
  intro source last rest read
  rcases eq_ok_of_bind read with ⟨value, middle, found, read⟩
  exact Nat.lt_of_le_of_lt (second value read).length_le (first.shorter found)

theorem bind {next : α -> Reader β} (first : Shortens reader)
    (second : ∀ value, Steady (next value)) : Shortens (reader >>= next) :=
  first.andThen fun value => fun read => ((second value).kept read).1

/-- What comes first may also take nothing. -/
theorem after {next : α -> Reader β} (first : Steady reader)
    (second : ∀ value, Shortens (next value)) : Shortens (reader >>= next) := by
  constructor
  intro source last rest read
  rcases eq_ok_of_bind read with ⟨value, middle, found, read⟩
  exact Nat.lt_of_lt_of_le ((second value).shorter read) (first.kept found).1.length_le

theorem orElse (first : Shortens reader) (other : Shortens second) :
    Shortens (reader <|> second) := by
  constructor
  intro source value rest read
  cases found : reader source with
  | ok value middle =>
      rw [orElse_of_ok found] at read
      cases read
      exact first.shorter found
  | miss place =>
      rw [orElse_of_miss found] at read
      exact other.shorter read
  | fail place cause =>
      rw [orElse_of_fail found] at read
      cases read

theorem exactly {text : List Char} (inside : text ≠ []) : Shortens (Reader.exactly text) := by
  constructor
  intro source value rest read
  simp only [Reader.exactly] at read
  split at read
  · rename_i found
    cases read
    rcases List.isPrefixOf_iff_prefix.mp found with ⟨tail, rfl⟩
    have size := List.length_pos_iff.mpr inside
    rw [List.drop_left, List.length_append]
    omega
  · cases read

/-- A repetition reads rounds until its reader misses or fails. -/
theorem many_cases (shortens : Shortens reader) (source : List Char) :
    ∃ values rest, Rounds reader source values rest ∧
      ((∃ place, reader rest = .miss place ∧ many reader source = .ok values rest) ∨
        ∃ place cause, reader rest = .fail place cause ∧ many reader source = .fail place cause) := by
  have stops : ∀ size source, source.length ≤ size -> ∃ values rest,
      Rounds reader source values rest ∧ ∀ value middle, reader rest ≠ .ok value middle := by
    intro size
    induction size with
    | zero =>
        intro source bound
        refine ⟨[], source, .done source, fun value middle read => ?_⟩
        have shorter := shortens.shorter read
        omega
    | succ size inductionHypothesis =>
        intro source bound
        cases read : reader source with
        | ok value middle =>
            have shorter := shortens.shorter read
            rcases inductionHypothesis middle (by omega) with ⟨values, rest, others, last⟩
            exact ⟨value :: values, rest, .round read shorter others, last⟩
        | miss place =>
            refine ⟨[], source, .done source, fun value middle found => ?_⟩
            rw [read] at found
            cases found
        | fail place cause =>
            refine ⟨[], source, .done source, fun value middle found => ?_⟩
            rw [read] at found
            cases found
  rcases stops source.length source (Nat.le_refl _) with ⟨values, rest, rounds, last⟩
  refine ⟨values, rest, rounds, ?_⟩
  cases read : reader rest with
  | ok value middle => exact absurd read (last value middle)
  | miss place => exact .inl ⟨place, rfl, rounds.many_eq read⟩
  | fail place cause =>
      rcases rounds.manyFrom_eq [] (Nat.le_refl _) with ⟨left, _, same⟩
      exact .inr ⟨place, cause, rfl, by rw [many, same, Rounds.manyFrom_of_fail read]⟩

theorem rounds_of_many (shortens : Shortens reader) {values : List α}
    (read : many reader source = .ok values rest) :
    Rounds reader source values rest ∧ ∃ place, reader rest = .miss place := by
  rcases shortens.many_cases source with
    ⟨found, last, rounds, ⟨place, missed, all⟩ | ⟨place, cause, _, failed⟩⟩
  · rw [read] at all
    cases all
    exact ⟨rounds, place, missed⟩
  · rw [read] at failed
    cases failed

end Shortens

namespace Steady

variable {reader : Reader α}

/-- The rounds of a steady reader are the same in front of more text. -/
theorem rounds_append (steady : Steady reader) {values : List α}
    (rounds : Rounds reader source values rest) :
    rest <:+ source ∧ (Fenced rest ↔ Fenced source) ∧
      (Fenced source -> ∀ extra, Rounds reader (source ++ extra) values (rest ++ extra)) := by
  induction rounds with
  | done source => exact ⟨List.suffix_rfl, Iff.rfl, fun _ extra => .done _⟩
  | round read shorter others inductionHypothesis =>
      have kept := steady.kept read
      rcases inductionHypothesis with ⟨size, same, longer⟩
      refine ⟨size.trans kept.1, same.trans kept.2, fun ended extra => ?_⟩
      refine .round (steady.reads ended read extra) ?_ (longer (kept.2.mpr ended) extra)
      simp only [List.length_append]
      omega

theorem many (steady : Steady reader) (shortens : Shortens reader) :
    Steady (Reader.many reader) := by
  constructor
  · intro source values rest read
    rcases shortens.rounds_of_many read with ⟨rounds, _⟩
    have kept := steady.rounds_append rounds
    exact ⟨kept.1, kept.2.1⟩
  · intro source ended extra
    rcases shortens.many_cases source with
      ⟨values, rest, rounds, ⟨place, missed, all⟩ | ⟨place, cause, failed, all⟩⟩
    · rcases steady.rounds_append rounds with ⟨_, same, longer⟩
      rcases steady.misses (same.mpr ended) missed extra with ⟨place, missed⟩
      rw [all]
      exact (longer ended extra).many_eq missed
    · rcases steady.rounds_append rounds with ⟨_, same, longer⟩
      rcases steady.fails (same.mpr ended) failed extra with ⟨place, cause, failed⟩
      rcases (longer ended extra).manyFrom_eq [] (Nat.le_refl _) with ⟨left, _, found⟩
      rw [all]
      exact ⟨place, cause, by rw [Reader.many, found, Rounds.manyFrom_of_fail failed]⟩

theorem separatedFrom_kept (steady : Steady reader) {values found : List α}
    {budget : List Char} (read : Reader.separatedFrom reader values budget source = .ok found rest) :
    rest <:+ source ∧ (Fenced rest ↔ Fenced source) := by
  induction budget generalizing values source with
  | nil =>
      cases read
      exact ⟨List.suffix_rfl, Iff.rfl⟩
  | cons first budget inductionHypothesis =>
      simp only [Reader.separatedFrom] at read
      split at read
      · rename_i item
        have same : Fenced (',' :: item) ↔ Fenced item := fenced_cons_iff (by decide) (by decide)
        split at read
        · rename_i middle accepted
          have before := steady.kept accepted
          have after := inductionHypothesis read
          exact ⟨(after.1.trans before.1).trans (List.suffix_cons ..),
            (after.2.trans before.2).trans same.symm⟩
        · cases read
          exact ⟨List.suffix_rfl, Iff.rfl⟩
        · cases read
      · cases read
        exact ⟨List.suffix_rfl, Iff.rfl⟩

/-- The budget of a separated repetition does not matter if it is large
enough. -/
theorem separatedFrom (steady : Steady reader) {values : List α} {budget more : List Char}
    (enough : source.length ≤ budget.length) (ended : Fenced source)
    (enough' : (source ++ extra).length ≤ more.length) :
    Extends extra (Reader.separatedFrom reader values budget source)
      (Reader.separatedFrom reader values more (source ++ extra)) := by
  induction budget generalizing values source more with
  | nil => exact absurd (List.eq_nil_of_length_eq_zero (Nat.le_zero.mp enough)) ended.ne_nil
  | cons first budget inductionHypothesis =>
      cases source with
      | nil => cases ended
      | cons c tail =>
          by_cases comma : c = ','
          · subst comma
            have inside := (fenced_cons_iff (by decide) (by decide)).mp ended
            cases more with
            | nil => cases enough'
            | cons other more =>
                simp only [Reader.separatedFrom, List.cons_append]
                rcases steady.outcomes inside extra with
                  ⟨_, _, read, longer⟩ | ⟨_, _, missed, longer⟩ | ⟨_, _, _, _, failed, longer⟩
                · have shorter := (steady.kept read).1.length_le
                  rw [read, longer]
                  refine inductionHypothesis ?_ (steady.fenced inside read) ?_
                  · simp only [List.length_cons] at enough
                    omega
                  · simp only [List.length_cons, List.length_append] at enough' ⊢
                    omega
                · rw [missed, longer]
                  rfl
                · rw [failed, longer]
                  exact ⟨_, _, rfl⟩
          · rw [List.cons_append, Pattern.separatedFrom_of_ne comma,
              Pattern.separatedFrom_of_ne comma]
            rfl

theorem separated (steady : Steady reader) : Steady (Reader.separated reader) := by
  constructor
  · intro source values rest read
    simp only [Reader.separated] at read
    split at read
    · rename_i found
      have before := steady.kept found
      have after := steady.separatedFrom_kept read
      exact ⟨after.1.trans before.1, after.2.trans before.2⟩
    · cases read
      exact ⟨List.suffix_rfl, Iff.rfl⟩
    · cases read
  · intro source ended extra
    rcases steady.outcomes ended extra with
      ⟨_, middle, read, longer⟩ | ⟨_, _, missed, longer⟩ | ⟨_, _, _, _, failed, longer⟩
    · simp only [Reader.separated, read, longer]
      exact steady.separatedFrom (Nat.le_refl _) (steady.fenced ended read) (Nat.le_refl _)
    · simp only [Reader.separated, missed, longer]
      rfl
    · simp only [Reader.separated, failed, longer]
      exact ⟨_, _, rfl⟩

end Steady
end Reader
end HtmlTemplate
