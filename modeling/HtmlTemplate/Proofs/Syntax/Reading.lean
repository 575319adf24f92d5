import HtmlTemplate.Syntax.Reader
import Mathlib.Data.Bool.AllAny

namespace HtmlTemplate

/-!
# How readers compose

What a composed reader answers follows from what its parts answer.  Three of
the notions introduced here carry the later arguments.

A reply settles an outcome under a condition if it is that outcome where the
condition holds, and the fault of too deep a nesting everywhere else.  This
treats the sources that are read and the ones that are refused at once, and the
conditions of composed readers are conjunctions.

A reader is local before a text if the text makes no difference to what it
reads from a source in front of it.

The rounds of a repetition are described by what they read, without the budget
that bounds their number.
-/

namespace Reader

variable {α β : Type} {source rest place : List Char}

section Composition

variable {reader first second : Reader α} {next : α -> Reader β} {value : α}
  {cause : Option SyntaxCause}

theorem bind_of_ok (read : first source = .ok value rest) :
    (first >>= next) source = next value rest := by
  simp only [Bind.bind, bind, read]

theorem bind_of_miss (missed : first source = .miss place) :
    (first >>= next) source = .miss place := by
  simp only [Bind.bind, bind, missed]

theorem bind_of_fail (failed : first source = .fail place cause) :
    (first >>= next) source = .fail place cause := by
  simp only [Bind.bind, bind, failed]

theorem eq_ok_of_bind {last : β} (read : (first >>= next) source = .ok last rest) :
    ∃ value middle, first source = .ok value middle ∧ next value middle = .ok last rest := by
  simp only [Bind.bind, bind] at read
  split at read
  · rename_i value middle found
    exact ⟨value, middle, found, read⟩
  · cases read
  · cases read

theorem eq_of_char {c : Char} {result : Unit} (read : char c source = .ok result rest) :
    source = c :: rest := by
  simp only [char] at read
  split at read
  · split at read
    · rename_i same
      cases read
      rw [same]
    · cases read
  · cases read

theorem orElse_of_ok (read : first source = .ok value rest) :
    (first <|> second) source = .ok value rest := by
  simp only [HOrElse.hOrElse, OrElse.orElse, orElse, read]

theorem orElse_of_miss (missed : first source = .miss place) :
    (first <|> second) source = second source := by
  simp only [HOrElse.hOrElse, OrElse.orElse, orElse, missed]

theorem orElse_of_fail (failed : first source = .fail place cause) :
    (first <|> second) source = .fail place cause := by
  simp only [HOrElse.hOrElse, OrElse.orElse, orElse, failed]

theorem optional_of_ok (read : reader source = .ok value rest) :
    optional reader source = .ok (some value) rest := by
  simp only [optional, read]

theorem optional_of_miss (missed : reader source = .miss place) :
    optional reader source = .ok none source := by
  simp only [optional, missed]

theorem optional_of_fail (failed : reader source = .fail place cause) :
    optional reader source = .fail place cause := by
  simp only [optional, failed]

theorem commit_of_ok (read : reader source = .ok value rest) :
    commit reader source = .ok value rest := by
  simp only [commit, read]

theorem notAhead_of_miss (missed : reader source = .miss place) :
    notAhead reader source = .ok () source := by
  simp only [notAhead, missed]

theorem spaced_of_ok (read : reader (source.dropWhile isSpace) = .ok value rest) :
    spaced reader source = .ok value (rest.dropWhile isSpace) := by
  simp only [spaced, Bind.bind, bind, spaces, read]
  rfl

theorem spaced_of_miss (missed : reader (source.dropWhile isSpace) = .miss place) :
    spaced reader source = .miss place := by
  simp only [spaced, Bind.bind, bind, spaces, missed]

theorem spaced_of_fail (failed : reader (source.dropWhile isSpace) = .fail place cause) :
    spaced reader source = .fail place cause := by
  simp only [spaced, Bind.bind, bind, spaces, failed]

end Composition

/-! ## Replies under a condition -/

/-- The fault of too deep a nesting. -/
def TooDeep (reply : Reply α) : Prop :=
  ∃ place, reply = .fail place (some .tooDeep)

/-- The reply is the outcome if the condition holds, and otherwise the fault of
too deep a nesting. -/
structure Settles (reply : Reply α) (fits : Prop) (outcome : Reply α) : Prop where
  eq_of_fits : fits -> reply = outcome
  tooDeep_of_not : ¬fits -> TooDeep reply

namespace Settles

variable {reply outcome : Reply α} {fits other : Prop}

theorem of_eq (same : reply = outcome) (holds : fits) : Settles reply fits outcome :=
  ⟨fun _ => same, fun excess => absurd holds excess⟩

theorem of_tooDeep (deep : TooDeep reply) (excess : ¬fits) : Settles reply fits outcome :=
  ⟨fun holds => absurd holds excess, fun _ => deep⟩

theorem congr (settles : Settles reply fits outcome) (same : fits ↔ other) :
    Settles reply other outcome :=
  ⟨fun holds => settles.eq_of_fits (same.mpr holds),
    fun excess => settles.tooDeep_of_not fun holds => excess (same.mp holds)⟩

theorem congr' {last : Reply α} (settles : Settles reply fits outcome) (same : fits ↔ other)
    (equal : outcome = last) : Settles reply other last :=
  equal ▸ settles.congr same

theorem of_reply {first : Reply α} (settles : Settles reply fits outcome)
    (same : first = reply) : Settles first fits outcome :=
  same ▸ settles

theorem trans {last : Reply α} (first : Settles reply fits outcome)
    (second : fits -> Settles outcome other last) : Settles reply (fits ∧ other) last := by
  constructor
  · intro both
    rw [first.eq_of_fits both.1, (second both.1).eq_of_fits both.2]
  · intro excess
    by_cases holds : fits
    · rw [first.eq_of_fits holds]
      exact (second holds).tooDeep_of_not fun inner => excess ⟨holds, inner⟩
    · exact first.tooDeep_of_not holds

theorem bind {reader : Reader α} {next : α -> Reader β} {value : α} {last : Reply β}
    (first : Settles (reader source) fits (.ok value rest))
    (second : fits -> Settles (next value rest) other last) :
    Settles ((reader >>= next) source) (fits ∧ other) last := by
  constructor
  · intro both
    rw [bind_of_ok (first.eq_of_fits both.1), (second both.1).eq_of_fits both.2]
  · intro excess
    by_cases holds : fits
    · rw [bind_of_ok (first.eq_of_fits holds)]
      exact (second holds).tooDeep_of_not fun inner => excess ⟨holds, inner⟩
    · rcases first.tooDeep_of_not holds with ⟨place, failed⟩
      exact ⟨place, bind_of_fail failed⟩

/-- What is done after a reading does not matter to the condition. -/
theorem andThen {reader : Reader α} {next : α -> Reader β} {value : α} {last : Reply β}
    (first : Settles (reader source) fits (.ok value rest)) (second : next value rest = last) :
    Settles ((reader >>= next) source) fits last :=
  (first.bind fun _ => of_eq second trivial).congr (iff_of_eq (and_true fits))

theorem bind_miss {reader : Reader α} {next : α -> Reader β}
    (settles : Settles (reader source) fits (.miss place)) :
    Settles ((reader >>= next) source) fits (.miss place) := by
  constructor
  · intro holds
    exact bind_of_miss (settles.eq_of_fits holds)
  · intro excess
    rcases settles.tooDeep_of_not excess with ⟨place, failed⟩
    exact ⟨place, bind_of_fail failed⟩

theorem commit {reader : Reader α} {value : α}
    (settles : Settles (reader source) fits (.ok value rest)) :
    Settles (Reader.commit reader source) fits (.ok value rest) := by
  constructor
  · intro holds
    exact commit_of_ok (settles.eq_of_fits holds)
  · intro excess
    rcases settles.tooDeep_of_not excess with ⟨place, failed⟩
    exact ⟨place, by simp only [Reader.commit, failed]⟩

theorem optional {reader : Reader α} {value : α}
    (settles : Settles (reader source) fits (.ok value rest)) :
    Settles (Reader.optional reader source) fits (.ok (some value) rest) := by
  constructor
  · intro holds
    exact optional_of_ok (settles.eq_of_fits holds)
  · intro excess
    rcases settles.tooDeep_of_not excess with ⟨place, failed⟩
    exact ⟨place, optional_of_fail failed⟩

theorem orElse {reader second : Reader α} {value : α}
    (settles : Settles (reader source) fits (.ok value rest)) :
    Settles ((reader <|> second) source) fits (.ok value rest) := by
  constructor
  · intro holds
    exact orElse_of_ok (settles.eq_of_fits holds)
  · intro excess
    rcases settles.tooDeep_of_not excess with ⟨place, failed⟩
    exact ⟨place, orElse_of_fail failed⟩

theorem spaced {reader : Reader α} {value : α}
    (settles : Settles (reader (source.dropWhile isSpace)) fits (.ok value rest)) :
    Settles (Reader.spaced reader source) fits (.ok value (rest.dropWhile isSpace)) := by
  constructor
  · intro holds
    exact spaced_of_ok (settles.eq_of_fits holds)
  · intro excess
    rcases settles.tooDeep_of_not excess with ⟨place, failed⟩
    exact ⟨place, spaced_of_fail failed⟩

theorem deeper (room levels : Nat) (source : List Char) :
    Settles (Reader.deeper room levels source) (levels ≤ room) (.ok (room - levels) source) := by
  unfold Reader.deeper
  by_cases holds : levels ≤ room
  · rw [if_pos holds]
    exact of_eq rfl holds
  · rw [if_neg holds]
    exact of_tooDeep ⟨source, rfl⟩ holds

/-- Reading one level deeper takes one level more. -/
theorem nested {room levels : Nat} {deep : Nat -> Reader α} {source : List Char}
    {last : Reply α}
    (settles : ∀ less, room = less + 1 -> Settles (deep less source) (levels ≤ less) last) :
    Settles (Reader.nested room deep source) (levels + 1 ≤ room) last := by
  cases room with
  | zero => exact of_tooDeep ⟨source, rfl⟩ (Nat.not_succ_le_zero levels)
  | succ less => exact (settles less rfl).congr Nat.succ_le_succ_iff.symm

end Settles

/-! ## Rounds of a repetition -/

/-- A reader reads some values one after another and takes something from the
source for each of them. -/
inductive Rounds (reader : Reader α) : List Char -> List α -> List Char -> Prop where
  | done (source : List Char) : Rounds reader source [] source
  | round {source middle rest : List Char} {value : α} {values : List α}
      (read : reader source = .ok value middle) (shorter : middle.length < source.length)
      (others : Rounds reader middle values rest) : Rounds reader source (value :: values) rest

namespace Rounds

variable {reader : Reader α} {values : List α}

/-- As many rounds as there are characters can be afforded. -/
theorem manyFrom_eq (rounds : Rounds reader source values rest) (before : List α)
    {budget : List Char} (enough : source.length ≤ budget.length) :
    ∃ left, rest.length ≤ left.length ∧
      manyFrom reader before budget source =
        manyFrom reader (values.reverse ++ before) left rest := by
  induction rounds generalizing before budget with
  | done source => exact ⟨budget, enough, rfl⟩
  | @round source middle rest value values read shorter others inductionHypothesis =>
      cases budget with
      | nil =>
          have empty : source.length ≤ 0 := enough
          omega
      | cons c budget =>
          have afford : middle.length ≤ budget.length := by
            have size : source.length ≤ budget.length + 1 := enough
            omega
          rcases inductionHypothesis (value :: before) afford with ⟨left, enough', same⟩
          refine ⟨left, enough', ?_⟩
          simp only [manyFrom, read, same, List.reverse_cons, List.append_assoc,
            List.singleton_append]

theorem manyFrom_of_miss {before : List α} {budget : List Char}
    (missed : reader source = .miss place) :
    manyFrom reader before budget source = .ok before.reverse source := by
  cases budget with
  | nil => simp only [manyFrom, missed]
  | cons c budget => simp only [manyFrom, missed]

theorem manyFrom_of_fail {before : List α} {budget : List Char} {cause : Option SyntaxCause}
    (failed : reader source = .fail place cause) :
    manyFrom reader before budget source = .fail place cause := by
  cases budget with
  | nil => simp only [manyFrom, failed]
  | cons c budget => simp only [manyFrom, failed]

theorem snoc {value : α} (rounds : Rounds reader source values rest)
    {last : List Char} (read : reader rest = .ok value last) (shorter : last.length < rest.length) :
    Rounds reader source (values ++ [value]) last := by
  induction rounds with
  | done source => exact .round read shorter (.done last)
  | round first less others inductionHypothesis =>
      exact .round first less (inductionHypothesis read shorter)

/-- A round that goes too deep ends the whole repetition. -/
theorem tooDeep_many (rounds : Rounds reader source values rest) (deep : TooDeep (reader rest)) :
    TooDeep (many reader source) := by
  rcases deep with ⟨place, failed⟩
  rcases rounds.manyFrom_eq [] (Nat.le_refl _) with ⟨left, _, same⟩
  exact ⟨place, by rw [many, same, manyFrom_of_fail failed]⟩

/-- The repetition reads the rounds if nothing more can be read after them. -/
theorem many_eq (rounds : Rounds reader source values rest)
    (missed : reader rest = .miss place) : many reader source = .ok values rest := by
  rcases rounds.manyFrom_eq [] (Nat.le_refl _) with ⟨left, _, same⟩
  rw [many, same, manyFrom_of_miss missed, List.append_nil, List.reverse_reverse]

end Rounds

/-! ## Texts that make no difference -/

section Stops

variable {accepts : Char -> Bool} {c : Char}

theorem takeWhile_append_cons (refused : accepts c = false) (source tail : List Char) :
    (source ++ c :: tail).takeWhile accepts = source.takeWhile accepts := by
  induction source with
  | nil => simp [refused]
  | cons head rest inductionHypothesis =>
      simp only [List.cons_append, List.takeWhile_cons, inductionHypothesis]

theorem dropWhile_append_cons (refused : accepts c = false) (source tail : List Char) :
    (source ++ c :: tail).dropWhile accepts = source.dropWhile accepts ++ c :: tail := by
  induction source with
  | nil => simp [refused]
  | cons head rest inductionHypothesis =>
      simp only [List.cons_append, List.dropWhile_cons, inductionHypothesis]
      split <;> rfl

end Stops

/-- The reader reads from a source in front of a text what it reads from the
source alone. -/
def Local (text : List Char) (reader : Reader α) : Prop :=
  ∀ source, match reader source with
    | .ok value rest => reader (source ++ text) = .ok value (rest ++ text)
    | .miss _ => ∃ place, reader (source ++ text) = .miss place
    | .fail _ _ => True

namespace Local

variable {text : List Char} {reader : Reader α} {value : α}

theorem ok (near : Local text reader) (read : reader source = .ok value rest) :
    reader (source ++ text) = .ok value (rest ++ text) := by
  have same := near source
  rw [read] at same
  exact same

theorem miss (near : Local text reader) (missed : reader source = .miss place) :
    ∃ place, reader (source ++ text) = .miss place := by
  have same := near source
  rw [missed] at same
  exact same

theorem pure (value : α) : Local text (Pure.pure value : Reader α) :=
  fun _ => rfl

theorem bind {next : α -> Reader β} (first : Local text reader)
    (second : ∀ value, Local text (next value)) : Local text (reader >>= next) := by
  intro source
  cases read : reader source with
  | ok value rest =>
      rw [bind_of_ok read, bind_of_ok (first.ok read)]
      exact second value rest
  | miss place =>
      rw [bind_of_miss read]
      rcases first.miss read with ⟨place, missed⟩
      exact ⟨place, bind_of_miss missed⟩
  | fail place cause =>
      rw [bind_of_fail read]
      trivial

theorem optional (near : Local text reader) : Local text (Reader.optional reader) := by
  intro source
  cases read : reader source with
  | ok value rest =>
      rw [optional_of_ok read]
      exact optional_of_ok (near.ok read)
  | miss place =>
      rw [optional_of_miss read]
      rcases near.miss read with ⟨place, missed⟩
      exact optional_of_miss missed
  | fail place cause =>
      rw [optional_of_fail read]
      trivial

theorem satisfy {accepts : Char -> Bool} {c : Char} {tail : List Char}
    (refused : accepts c = false) : Local (c :: tail) (Reader.satisfy accepts) := by
  intro source
  cases source with
  | nil =>
      refine ⟨c :: tail, ?_⟩
      simp only [Reader.satisfy, List.nil_append, refused, Bool.false_eq_true, if_false]
  | cons head rest =>
      by_cases accepted : accepts head = true
      · simp only [Reader.satisfy, List.cons_append, if_pos accepted]
      · simp only [Reader.satisfy, List.cons_append, if_neg accepted]
        exact ⟨_, rfl⟩

theorem takeWhile (accepts : Char -> Bool) {c : Char} {tail : List Char}
    (refused : accepts c = false) (wrap : List Char -> List Char) :
    Local (c :: tail) fun source =>
      .ok (wrap (source.takeWhile accepts)) (source.dropWhile accepts) := by
  intro source
  simp only [takeWhile_append_cons refused, dropWhile_append_cons refused]

end Local
end Reader
end HtmlTemplate
