import HtmlTemplate.Markup

namespace HtmlTemplate
namespace Markup

/-!
# A markup holds what was pushed

Pushing drops empty texts, moves single pieces out of what is pushed and keeps
the rest nested, so the shape of a markup says little about how it came about.
Its content says it all: the bytes of what was pushed, in order.  Each view of a
markup shows this content, and none of them sees the shape.
-/

/-! ## Views -/

section Sink

variable {ε σ : Type}

/-- Writing to a sink: it has received the content afterwards, or a beginning
of it if there was an error. -/
def Delivers (received : σ -> ByteArray) (content : ByteArray) (write : EStateM ε σ Unit) : Prop :=
  ∀ state, match write state with
    | .ok _ after => received after = received state ++ content
    | .error _ after => ∃ front back, content = front ++ back ∧
        received after = received state ++ front

variable {received : σ -> ByteArray} {write : ByteArray -> EStateM ε σ Unit}

/-- Nothing is written after an error. -/
theorem foldl_writeNext_error (leaves : List ByteArray) (error : ε) (state : σ) :
    leaves.foldl (writeNext write) (.error error state) = .error error state := by
  induction leaves with
  | nil => rfl
  | cons leaf rest inductionHypothesis => exact inductionHypothesis

theorem delivers_foldl (delivers : ∀ content, Delivers received content (write content))
    (leaves : List ByteArray) :
    Delivers received (leaves.foldl (· ++ ·) .empty) fun start =>
      leaves.foldl (writeNext write) (.ok () start) := by
  induction leaves with
  | nil => exact fun _ => ByteArray.append_empty.symm
  | cons leaf rest inductionHypothesis =>
      intro state
      have first := delivers leaf state
      simp only [List.foldl_cons, ByteArray.empty_append, writeNext]
      rw [Chunk.foldl_leaves]
      cases written : write leaf state with
      | ok _ between =>
          have others := inductionHypothesis between
          simp only [written] at first others ⊢
          cases finished : rest.foldl (writeNext write) (.ok () between) with
          | ok _ after =>
              simp only [finished] at others ⊢
              rw [others, first, ByteArray.append_assoc]
          | error error after =>
              simp only [finished] at others ⊢
              rcases others with ⟨front, back, whole, others⟩
              refine ⟨leaf ++ front, back, ?_, ?_⟩
              · rw [whole, ByteArray.append_assoc]
              · rw [others, first, ByteArray.append_assoc]
      | error error between =>
          simp only [written] at first
          rcases first with ⟨front, back, whole, first⟩
          rw [foldl_writeNext_error]
          refine ⟨front, back ++ rest.foldl (· ++ ·) .empty, ?_, first⟩
          rw [whole, ByteArray.append_assoc]

theorem foldl_writeNext_ok (succeeds : ∀ content state, ∃ after, write content state = .ok () after)
    (leaves : List ByteArray) (state : σ) :
    ∃ after, leaves.foldl (writeNext write) (.ok () state) = .ok () after := by
  induction leaves generalizing state with
  | nil => exact ⟨state, rfl⟩
  | cons leaf rest inductionHypothesis =>
      rcases succeeds leaf state with ⟨between, written⟩
      rw [List.foldl_cons, writeNext, written]
      exact inductionHypothesis between

theorem writeTo_eq (markup : Markup) (write : ByteArray -> EStateM ε σ Unit) :
    markup.writeTo write = fun start => markup.leaves.foldl (writeNext write) (.ok () start) :=
  funext fun _ => Chunk.walkAll_eq_foldl _ _ _

theorem writeTo_delivers (delivers : ∀ content, Delivers received content (write content))
    (markup : Markup) : Delivers received markup.bytes (markup.writeTo write) := by
  rw [writeTo_eq, bytes_eq]
  exact delivers_foldl delivers markup.leaves

/-- Writing fails only if one of the writes does. -/
theorem writeTo_succeeds (succeeds : ∀ content state, ∃ after, write content state = .ok () after)
    (markup : Markup) (state : σ) : ∃ after, markup.writeTo write state = .ok () after := by
  rw [writeTo_eq]
  exact foldl_writeNext_ok succeeds markup.leaves state

end Sink

theorem length_eq (markup : Markup) : markup.length = markup.bytes.size := by
  have sizes (leaves : List ByteArray) (bytes : ByteArray) :
      leaves.foldl (fun length content => length + content.size) bytes.size =
        (leaves.foldl (· ++ ·) bytes).size := by
    induction leaves generalizing bytes with
    | nil => rfl
    | cons leaf rest inductionHypothesis =>
        rw [List.foldl_cons, List.foldl_cons, ← inductionHypothesis, ByteArray.size_append]
  rw [bytes_eq, ← sizes]
  exact Chunk.walkAll_eq_foldl _ _ _

theorem intoText_eq (markup : Markup) : markup.intoText = Utf8.decode markup.bytes := by
  unfold intoText Utf8.decode
  cases String.fromUTF8? markup.bytes with
  | some text => rfl
  | none => rfl

/-- Markup is compared by its bytes. -/
theorem beq_iff {first second : Markup} : first == second ↔ first.bytes = second.bytes := by
  have compared : (first == second) = (first.bytes.data == second.bytes.data) := rfl
  rw [compared, beq_iff_eq, ByteArray.ext_iff]

/-- Each view of a markup shows the same content. -/
structure Holds (markup : Markup) (content : ByteArray) : Prop where
  bytes : markup.bytes = content
  length : markup.length = content.size
  isEmpty : markup.isEmpty = true ↔ content = .empty
  display : markup.display? = some (Utf8.decode content)
  intoText : markup.intoText = Utf8.decode content
  written : ∀ {ε σ : Type} {received : σ -> ByteArray} {write : ByteArray -> EStateM ε σ Unit},
    (∀ content, Delivers received content (write content)) ->
      Delivers received content (markup.writeTo write)
  succeeds : ∀ {ε σ : Type} {write : ByteArray -> EStateM ε σ Unit},
    (∀ content state, ∃ after, write content state = .ok () after) ->
      ∀ state, ∃ after, markup.writeTo write state = .ok () after

theorem holds_bytes (markup : Markup) : markup.Holds markup.bytes where
  bytes := rfl
  length := markup.length_eq
  isEmpty := by
    rw [isEmpty, beq_iff_eq, length_eq, ByteArray.size_eq_zero_iff]
  display := markup.display?_eq
  intoText := markup.intoText_eq
  written := fun delivers => markup.writeTo_delivers delivers
  succeeds := fun succeeds => markup.writeTo_succeeds succeeds

/-! ## Pushes -/

/-- Something that is pushed.  Trusted text is pushed alike, whether it is
owned, shared or known beforehand, and a markup may itself have been built by
pushes. -/
inductive Push where
  | trusted (text : String)
  | escaped (text : String)
  | byte (value : UInt8)
  | markup (pushes : List Push)

namespace Push

mutual

/-- Push something onto a markup. -/
def onto (target : Markup) : Push -> Markup
  | .trusted text => target.pushRaw text
  | .escaped text => target.pushEscaped text
  | .byte value => target.pushByte value
  | .markup pushes => target.push (allOnto .empty pushes)

/-- Push several things onto a markup, one after the other. -/
def allOnto (target : Markup) : List Push -> Markup
  | [] => target
  | push :: rest => allOnto (onto target push) rest

end

mutual

/-- The content of what is pushed. -/
def content : Push -> ByteArray
  | .trusted text => text.toUTF8
  | .escaped text => (Entity.escape text).toUTF8
  | .byte value => ByteArray.empty.push value
  | .markup pushes => contents pushes

/-- The content of several things, in order. -/
def contents : List Push -> ByteArray
  | [] => .empty
  | push :: rest => content push ++ contents rest

end

mutual

/-- The text that is pushed, unless there is a single byte at any depth. -/
def text? : Push -> Option String
  | .trusted text => some text
  | .escaped text => some (Entity.escape text)
  | .byte _ => none
  | .markup pushes => texts? pushes

/-- The text of several things, in order. -/
def texts? : List Push -> Option String
  | [] => some ""
  | push :: rest => do
      let first ← text? push
      let others ← texts? rest
      return first ++ others

end

mutual

theorem bytes_onto (target : Markup) : (push : Push) ->
    (push.onto target).bytes = target.bytes ++ push.content
  | .trusted text => target.bytes_pushRaw text
  | .escaped text => target.bytes_pushEscaped text
  | .byte value => by
      rw [onto, bytes_pushByte, content]
      apply ByteArray.ext
      simp
  | .markup pushes => by
      rw [onto, bytes_push, bytes_allOnto .empty pushes, bytes_empty, ByteArray.empty_append,
        content]

theorem bytes_allOnto (target : Markup) : (pushes : List Push) ->
    (allOnto target pushes).bytes = target.bytes ++ contents pushes
  | [] => ByteArray.append_empty.symm
  | push :: rest => by
      rw [allOnto, bytes_allOnto _ rest, bytes_onto target push, contents, ByteArray.append_assoc]

end

mutual

theorem toUTF8_of_text? {text : String} : (push : Push) -> push.text? = some text ->
    text.toUTF8 = push.content
  | .trusted _, shown => by
      cases shown
      rfl
  | .escaped _, shown => by
      cases shown
      rfl
  | .markup pushes, shown => toUTF8_of_texts? pushes shown

theorem toUTF8_of_texts? {text : String} : (pushes : List Push) -> texts? pushes = some text ->
    text.toUTF8 = contents pushes
  | [], shown => by
      cases shown
      rfl
  | push :: rest, shown => by
      rcases Option.bind_eq_some_iff.mp shown with ⟨first, own, shown⟩
      rcases Option.bind_eq_some_iff.mp shown with ⟨others, later, done⟩
      cases done
      rw [contents, ← toUTF8_of_text? push own, ← toUTF8_of_texts? rest later]
      exact String.toByteArray_append

end

/-- The markup that pushes build. -/
def build (pushes : List Push) : Markup :=
  allOnto .empty pushes

/-- A markup that was built by pushes holds the content of the pushes.  Markup
is equal exactly if its content is, and if no single byte was pushed the text is
the pushed text. -/
theorem build_holds (pushes : List Push) :
    (build pushes).Holds (contents pushes) ∧
      (∀ others, build pushes == build others ↔ contents pushes = contents others) ∧
      ∀ text, texts? pushes = some text ->
        (build pushes).display? = some text ∧ (build pushes).intoText = text := by
  have bytes (pushes : List Push) : (build pushes).bytes = contents pushes := by
    rw [build, bytes_allOnto, bytes_empty, ByteArray.empty_append]
  refine ⟨bytes pushes ▸ (build pushes).holds_bytes, fun others => ?_, fun text shown => ?_⟩
  · rw [← bytes pushes, ← bytes others]
    exact beq_iff
  · rw [display?_eq, intoText_eq, bytes pushes, ← toUTF8_of_texts? pushes shown,
      Utf8.decode_toUTF8]
    exact ⟨rfl, rfl⟩

/-- Two bytes that only together are a character, in different markups. -/
example : (build [.byte 0xC3, .markup [.byte 0xA9, .markup [.escaped "&"]]]).display? =
    some "é&amp;" := by
  decide +kernel

end Push
end Markup
end HtmlTemplate
