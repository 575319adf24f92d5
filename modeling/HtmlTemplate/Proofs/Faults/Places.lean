import HtmlTemplate.Syntax.Reader
import Mathlib.Data.List.Infix

namespace HtmlTemplate

/-!
# Where readers stop

Every reply names the source that is left: behind what was read, or where
reading missed or failed.  A failure may name a place that was passed before, so
what is left is not always a suffix of the source that the reader was given.  It
is a suffix of the whole source, and this is what composes.
-/

variable {α β : Type}

/-- The source that is left after a reply. -/
def Reply.left : Reply α -> List Char
  | .ok _ rest => rest
  | .miss place => place
  | .fail place _ => place

namespace Reader

/-- Somewhere inside the whole source, the reader leaves a suffix of it. -/
def StopsInside (whole : List Char) (reader : Reader α) : Prop :=
  ∀ source, source <:+ whole -> (reader source).left <:+ whole

namespace StopsInside

variable {whole : List Char} {reader second : Reader α}

/-- What is left after each kind of reply. -/
theorem outcomes (stops : StopsInside whole reader) {source : List Char}
    (inside : source <:+ whole) :
    (∃ value rest, reader source = .ok value rest ∧ rest <:+ whole) ∨
      (∃ place, reader source = .miss place ∧ place <:+ whole) ∨
      ∃ place cause, reader source = .fail place cause ∧ place <:+ whole := by
  have stopped := stops source inside
  cases read : reader source with
  | ok value rest =>
      rw [read] at stopped
      exact .inl ⟨value, rest, rfl, stopped⟩
  | miss place =>
      rw [read] at stopped
      exact .inr (.inl ⟨place, rfl, stopped⟩)
  | fail place cause =>
      rw [read] at stopped
      exact .inr (.inr ⟨place, cause, rfl, stopped⟩)

theorem pure (value : α) : StopsInside whole (Pure.pure value : Reader α) :=
  fun _ inside => inside

theorem miss : StopsInside whole (Reader.miss : Reader α) :=
  fun _ inside => inside

theorem fail (cause : SyntaxCause) : StopsInside whole (Reader.fail cause : Reader α) :=
  fun _ inside => inside

/-- A place that was passed before is good for a failure. -/
theorem failAt {place : List Char} (passed : place <:+ whole) (cause : SyntaxCause) :
    StopsInside whole (Reader.failAt place cause : Reader α) :=
  fun _ _ => passed

theorem bind {next : α -> Reader β} (first : StopsInside whole reader)
    (then' : ∀ value, StopsInside whole (next value)) : StopsInside whole (reader >>= next) := by
  intro source inside
  rcases first.outcomes inside with
    ⟨value, rest, read, stopped⟩ | ⟨_, read, stopped⟩ | ⟨_, _, read, stopped⟩
  · simp only [Bind.bind, Reader.bind, read]
    exact then' value rest stopped
  · simp only [Bind.bind, Reader.bind, read]
    exact stopped
  · simp only [Bind.bind, Reader.bind, read]
    exact stopped

/-- The place where reading stands is kept for later failures. -/
theorem here {next : List Char -> Reader α}
    (then' : ∀ start, start <:+ whole -> StopsInside whole (next start)) :
    StopsInside whole (Reader.here >>= next) :=
  fun source inside => then' source inside source inside

theorem orElse (first : StopsInside whole reader) (other : StopsInside whole second) :
    StopsInside whole (reader <|> second) := by
  intro source inside
  simp only [HOrElse.hOrElse, OrElse.orElse, Reader.orElse]
  rcases first.outcomes inside with
    ⟨_, _, read, stopped⟩ | ⟨_, read, _⟩ | ⟨_, _, read, stopped⟩
  · rw [read]
    exact stopped
  · rw [read]
    exact other source inside
  · rw [read]
    exact stopped

theorem optional (stops : StopsInside whole reader) :
    StopsInside whole (Reader.optional reader) := by
  intro source inside
  rcases stops.outcomes inside with
    ⟨_, _, read, stopped⟩ | ⟨_, read, _⟩ | ⟨_, _, read, stopped⟩
  all_goals simp only [Reader.optional, read]
  · exact stopped
  · exact inside
  · exact stopped

theorem commit (stops : StopsInside whole reader) : StopsInside whole (Reader.commit reader) := by
  intro source inside
  rcases stops.outcomes inside with
    ⟨_, _, read, stopped⟩ | ⟨_, read, stopped⟩ | ⟨_, _, read, stopped⟩
  all_goals
    simp only [Reader.commit, read]
    exact stopped

theorem require (cause : SyntaxCause) (stops : StopsInside whole reader) :
    StopsInside whole (Reader.require cause reader) := by
  intro source inside
  rcases stops.outcomes inside with
    ⟨_, _, read, stopped⟩ | ⟨_, read, _⟩ | ⟨_, _, read, stopped⟩
  all_goals simp only [Reader.require, read]
  · exact stopped
  · exact inside
  · exact stopped

theorem notAhead (stops : StopsInside whole reader) :
    StopsInside whole (Reader.notAhead reader) := by
  intro source inside
  rcases stops.outcomes inside with
    ⟨_, _, read, _⟩ | ⟨_, read, _⟩ | ⟨_, _, read, stopped⟩
  all_goals simp only [Reader.notAhead, read]
  · exact inside
  · exact inside
  · exact stopped

/-! ## Characters -/

theorem satisfy (accepts : Char -> Bool) : StopsInside whole (Reader.satisfy accepts) := by
  intro source inside
  cases source with
  | nil => exact inside
  | cons c rest =>
      simp only [Reader.satisfy]
      split
      · exact (List.suffix_cons c rest).trans inside
      · exact inside

theorem char (c : Char) : StopsInside whole (Reader.char c) := by
  intro source inside
  cases source with
  | nil => exact inside
  | cons found rest =>
      simp only [Reader.char]
      split
      · exact (List.suffix_cons found rest).trans inside
      · exact inside

theorem exactly (text : List Char) : StopsInside whole (Reader.exactly text) := by
  intro source inside
  simp only [Reader.exactly]
  split
  · exact (List.drop_suffix text.length source).trans inside
  · exact inside

/-- A run of characters, as a value or not. -/
theorem takeWhile (accepts : Char -> Bool) (wrap : List Char -> α) :
    StopsInside whole fun source =>
      .ok (wrap (source.takeWhile accepts)) (source.dropWhile accepts) :=
  fun _ inside => (List.dropWhile_suffix accepts).trans inside

theorem spaces : StopsInside whole Reader.spaces :=
  takeWhile isSpace fun _ => ()

theorem spaced (stops : StopsInside whole reader) : StopsInside whole (Reader.spaced reader) :=
  spaces.bind fun _ => stops.bind fun value => spaces.bind fun _ => pure value

/-! ## Levels -/

theorem nested {room : Nat} {deep : Nat -> Reader α}
    (stops : ∀ less, StopsInside whole (deep less)) :
    StopsInside whole (Reader.nested room deep) := by
  cases room with
  | zero => exact fail .tooDeep
  | succ less => exact stops less

theorem deeper (room levels : Nat) : StopsInside whole (Reader.deeper room levels) := by
  unfold Reader.deeper
  split
  · exact pure _
  · exact fail .tooDeep

/-! ## Repetitions -/

theorem manyFrom (stops : StopsInside whole reader) (values : List α) (budget : List Char) :
    StopsInside whole (Reader.manyFrom reader values budget) := by
  induction budget generalizing values with
  | nil =>
      intro source inside
      rcases stops.outcomes inside with
        ⟨_, _, read, _⟩ | ⟨_, read, _⟩ | ⟨_, _, read, stopped⟩
      all_goals simp only [Reader.manyFrom, read]
      · exact inside
      · exact inside
      · exact stopped
  | cons c budget inductionHypothesis =>
      intro source inside
      rcases stops.outcomes inside with
        ⟨value, rest, read, stopped⟩ | ⟨_, read, _⟩ | ⟨_, _, read, stopped⟩
      all_goals simp only [Reader.manyFrom, read]
      · exact inductionHypothesis (value :: values) rest stopped
      · exact inside
      · exact stopped

theorem many (stops : StopsInside whole reader) : StopsInside whole (Reader.many reader) :=
  fun source => stops.manyFrom [] source source

theorem separatedFrom (stops : StopsInside whole reader) (values : List α) (budget : List Char) :
    StopsInside whole (Reader.separatedFrom reader values budget) := by
  induction budget generalizing values with
  | nil => exact fun _ inside => inside
  | cons c budget inductionHypothesis =>
      intro source inside
      simp only [Reader.separatedFrom]
      split
      · rename_i item
        rcases stops.outcomes ((List.suffix_cons ',' item).trans inside) with
          ⟨value, rest, read, stopped⟩ | ⟨_, read, _⟩ | ⟨_, _, read, stopped⟩
        all_goals simp only [read]
        · exact inductionHypothesis (value :: values) rest stopped
        · exact inside
        · exact stopped
      · exact inside

theorem separated (stops : StopsInside whole reader) :
    StopsInside whole (Reader.separated reader) := by
  intro source inside
  rcases stops.outcomes inside with
    ⟨value, rest, read, stopped⟩ | ⟨_, read, _⟩ | ⟨_, _, read, stopped⟩
  all_goals simp only [Reader.separated, read]
  · exact stops.separatedFrom [value] rest rest stopped
  · exact inside
  · exact stopped

end StopsInside
end Reader
end HtmlTemplate
