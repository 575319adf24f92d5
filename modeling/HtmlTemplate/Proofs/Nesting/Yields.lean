import HtmlTemplate.Syntax.Reader

namespace HtmlTemplate
namespace Reader

/-!
# What a reader can read

A predicate of all values that a reader ever reads, from any source, follows
the way the reader is composed.  Misses and failures satisfy all predicates.
-/

/-- Every value that the reader reads satisfies the predicate. -/
def Yields {α : Type} (reader : Reader α) (good : α -> Prop) : Prop :=
  ∀ source value rest, reader source = .ok value rest -> good value

namespace Yields

variable {α β : Type} {reader second : Reader α} {good : α -> Prop} {better : β -> Prop}

theorem mono {other : α -> Prop} (yields : Yields reader good)
    (implied : ∀ value, good value -> other value) : Yields reader other :=
  fun source value rest read => implied value (yields source value rest read)

theorem trivial (reader : Reader α) : Yields reader fun _ => True :=
  fun _ _ _ _ => True.intro

theorem pure {value : α} (holds : good value) : Yields (Pure.pure value : Reader α) good := by
  intro source found rest read
  cases read
  exact holds

theorem fail (cause : SyntaxCause) : Yields (Reader.fail cause) good := by
  intro source value rest read
  cases read

theorem failAt (place : List Char) (cause : SyntaxCause) :
    Yields (Reader.failAt place cause) good := by
  intro source value rest read
  cases read

theorem bind {next : α -> Reader β} (first : Yields reader good)
    (then' : ∀ value, good value -> Yields (next value) better) :
    Yields (reader >>= next) better := by
  intro source value rest read
  simp only [Bind.bind, Reader.bind] at read
  split at read
  · rename_i middle left found
    exact then' middle (first _ _ _ found) left value rest read
  · cases read
  · cases read

/-- What was read first does not matter. -/
theorem andThen {next : α -> Reader β} (then' : ∀ value, Yields (next value) better) :
    Yields (reader >>= next) better :=
  (trivial reader).bind fun value _ => then' value

theorem orElse (first : Yields reader good) (other : Yields second good) :
    Yields (reader <|> second) good := by
  intro source value rest read
  simp only [HOrElse.hOrElse, OrElse.orElse, Reader.orElse] at read
  split at read
  · exact other _ _ _ read
  · exact first _ _ _ read

theorem optional (yields : Yields reader good) :
    Yields (Reader.optional reader) fun found => ∀ value ∈ found, good value := by
  intro source found rest read
  simp only [Reader.optional] at read
  split at read
  · rename_i value left accepted
    cases read
    intro other same
    cases same
    exact yields _ _ _ accepted
  · cases read
    intro other same
    cases same
  · cases read

theorem commit (yields : Yields reader good) : Yields (Reader.commit reader) good := by
  intro source value rest read
  simp only [Reader.commit] at read
  split at read
  · cases read
  · exact yields _ _ _ read

theorem require (cause : SyntaxCause) (yields : Yields reader good) :
    Yields (Reader.require cause reader) good := by
  intro source value rest read
  simp only [Reader.require] at read
  split at read
  · cases read
  · exact yields _ _ _ read

theorem spaced (yields : Yields reader good) : Yields (Reader.spaced reader) good :=
  andThen fun _ => yields.bind fun _ holds => andThen fun _ => pure holds

theorem nested {room : Nat} {deep : Nat -> Reader α}
    (yields : ∀ less, room = less + 1 -> Yields (deep less) good) :
    Yields (Reader.nested room deep) good := by
  cases room with
  | zero => exact fail .tooDeep
  | succ less => exact yields less rfl

theorem deeper (room levels : Nat) :
    Yields (Reader.deeper room levels) fun left => left + levels = room := by
  intro source value rest read
  simp only [Reader.deeper] at read
  split at read
  · rename_i enough
    cases read
    exact Nat.sub_add_cancel enough
  · cases read

theorem manyFrom (yields : Yields reader good) (before budget : List _)
    (known : ∀ value ∈ before, good value) :
    Yields (Reader.manyFrom reader before budget) fun values => ∀ value ∈ values, good value := by
  intro source values rest read
  induction budget generalizing before source with
  | nil =>
      simp only [Reader.manyFrom] at read
      split at read
      · cases read
      · cases read
        exact fun value member => known value (List.mem_reverse.mp member)
      · cases read
  | cons c budget inductionHypothesis =>
      simp only [Reader.manyFrom] at read
      split at read
      · rename_i value left found
        refine inductionHypothesis (value :: before) ?_ left read
        exact List.forall_mem_cons.mpr ⟨yields _ _ _ found, known⟩
      · cases read
        exact fun value member => known value (List.mem_reverse.mp member)
      · cases read

theorem many (yields : Yields reader good) :
    Yields (Reader.many reader) fun values => ∀ value ∈ values, good value :=
  fun source => manyFrom yields [] source (fun _ impossible => nomatch impossible) source

theorem separatedFrom (yields : Yields reader good) (before budget : List _)
    (known : ∀ value ∈ before, good value) :
    Yields (Reader.separatedFrom reader before budget) fun values =>
      ∀ value ∈ values, good value := by
  have done : ∀ value ∈ before.reverse, good value :=
    fun value member => known value (List.mem_reverse.mp member)
  intro source values rest read
  induction budget generalizing before source with
  | nil =>
      cases read
      exact done
  | cons c budget inductionHypothesis =>
      simp only [Reader.separatedFrom] at read
      split at read
      · split at read
        · rename_i value left found
          have known' := List.forall_mem_cons.mpr ⟨yields _ _ _ found, known⟩
          exact inductionHypothesis (value :: before) known'
            (fun value member => known' value (List.mem_reverse.mp member)) left read
        · cases read
          exact done
        · cases read
      · cases read
        exact done

theorem separated (yields : Yields reader good) :
    Yields (Reader.separated reader) fun values => ∀ value ∈ values, good value := by
  intro source values rest read
  simp only [Reader.separated] at read
  split at read
  · rename_i value left found
    refine separatedFrom yields [value] left ?_ left values rest read
    exact List.forall_mem_singleton.mpr (yields _ _ _ found)
  · cases read
    exact fun _ impossible => nomatch impossible
  · cases read

end Yields
end Reader
end HtmlTemplate
