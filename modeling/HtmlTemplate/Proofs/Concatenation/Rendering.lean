import HtmlTemplate.Environment
import HtmlTemplate.Proofs.Concatenation.Walking
import HtmlTemplate.Proofs.Rendering.Correctness

namespace HtmlTemplate

/-!
# Sources in a row render in a row

The source of one template followed by the source of another compiles, and it
renders the bytes of the one and then the bytes of the other.  Nothing that the
first template leaves behind reaches the second one: not the names that it bound
and not, without functions that look back, the calls that it made.
-/

open Walk

namespace Part

/-- The bytes of several parts. -/
def bytesOf (parts : List Part) : ByteArray :=
  (Markup.concat (parts.map Part.content)).bytes

theorem bytesOf_nil : bytesOf [] = .empty := rfl

theorem bytesOf_append (first second : List Part) :
    bytesOf (first ++ second) = bytesOf first ++ bytesOf second := by
  simp only [bytesOf, List.map_append, Markup.bytes_concat_append]

theorem bytesOf_text (text : String) : bytesOf [⟨.text text, .raw text⟩] = text.toUTF8 := by
  simp [bytesOf]

end Part

namespace Node

variable {registry : Registry} {context : Context} {packing : Packing}

/-- Walking the nodes of two templates in a row is walking those of the first
and then those of the second, as if nothing had come before. -/
theorem Joined.walks (stateless : registry.Stateless) {first second whole : List Node}
    (joined : Joined first second whole) {layout between after : Layout} {output output' : Output}
    {scope other : Scope} (compiled : compileAll registry first layout = .ok (output, between))
    (compiled' : compileAll registry second {} = .ok (output', after))
    (seen : SeenAlike layout.names scope other) :
    Corresponds (walkAll packing registry context scope whole)
      (do
        let parts ← walkAll packing registry context other first
        let others ← walkAll packing registry context [] second
        return (parts, others))
      fun parts pair => Part.bytesOf parts = Part.bytesOf pair.1 ++ Part.bytesOf pair.2 := by
  induction joined generalizing layout output scope other with
  | apart second =>
      simp only [walkAll, pure_bind]
      rw [← bind_pure (walkAll packing registry context scope second)]
      refine (walkAll_congr stateless second compiled' (.nil scope [])).andThen fun parts => ?_
      exact .pure (Part.bytesOf_append [] parts)
  | merged left right second =>
      rcases compileAll_cons compiled' with ⟨_, _, _, text, others, _⟩
      cases text
      simp only [walkAll, walk, pure_bind, bind_assoc]
      refine (walkAll_congr stateless second others (.nil scope [])).andThen fun parts => ?_
      refine .pure ?_
      have joined : (left ++ right).toUTF8 = left.toUTF8 ++ right.toUTF8 :=
        String.toByteArray_append
      simp only [Part.bytesOf_append, Part.bytesOf_text, Part.bytesOf_nil, joined,
        ByteArray.append_empty, ByteArray.append_assoc]
  | step node joined inductionHypothesis =>
      rename_i first second whole
      rcases compileAll_cons compiled with ⟨_, middle, _, head, rest, _⟩
      simp only [walkAll, bind_assoc, pure_bind]
      refine (walk_congr stateless node head seen).bind ?_
      rintro ⟨parts, scope⟩ ⟨_, other⟩ ⟨rfl, seen⟩
      dsimp only at seen ⊢
      have regrouped : (do
            let front ← walkAll packing registry context other first
            let others ← walkAll packing registry context [] second
            return (parts ++ front, others)) =
          (do
            let front ← walkAll packing registry context other first
            let others ← walkAll packing registry context [] second
            return (front, others)) >>= fun pair => return (parts ++ pair.1, pair.2) := by
        simp only [bind_assoc, pure_bind]
      rw [regrouped]
      refine (inductionHypothesis rest compiled' seen).bind fun all pair holds => .pure ?_
      rw [Part.bytesOf_append, Part.bytesOf_append, holds, ByteArray.append_assoc]

end Node

/-! ## Programs -/

namespace Walk

variable {α β γ : Type}

/-- How a walk ends that begins without calls. -/
def answer (walk : Walk α) : Except Error α :=
  match walk [] with
  | .ok result _ => .ok result
  | .error error _ => .error error

theorem Corresponds.map_answer {walk : Walk α} {other : Walk β} {agree : α -> β -> Prop}
    (corresponds : Corresponds walk other agree) {show' : α -> γ} {show'' : β -> γ}
    (same : ∀ result result', agree result result' -> show' result = show'' result') :
    walk.answer.map show' = other.answer.map show'' := by
  rcases corresponds [] [] with
    ⟨result, after, result', after', ended, ended', holds⟩ | ⟨error, after, after', ended, ended'⟩
  · simp only [answer, ended, ended', Except.map, same result result' holds]
  · simp only [answer, ended, ended', Except.map]

/-- What comes second may as well begin without calls, if calls make no
difference to it. -/
theorem answer_bind (walk : Walk α) {next : α -> Walk β}
    (each : ∀ result, Corresponds (next result) (next result) Eq) :
    (walk >>= next).answer = walk.answer >>= fun result => (next result).answer := by
  simp only [answer, Bind.bind, EStateM.bind, Except.bind]
  cases walk [] with
  | error error after => rfl
  | ok result after =>
      rcases each result after [] with
        ⟨value, last, value', last', ended, ended', same⟩ | ⟨error, last, last', ended, ended'⟩
      · simp only [ended, ended', same]
      · simp only [ended, ended']

theorem answer_pure (result : α) : (pure result : Walk α).answer = .ok result := rfl

end Walk

namespace Program

variable {registry : Registry} {nodes first second whole : List Node}
  {program before after : Program}

/-- A program renders the bytes of the parts of a walk, or it fails as the walk
does. -/
theorem bytes_render (compiled : compile registry nodes = .ok program) (context : Context) :
    (program.render context).1.map Markup.bytes =
      (Node.walkAll .compiled registry context [] nodes).answer.map Part.bytesOf := by
  simp only [answer]
  cases walked : Node.walkAll .compiled registry context [] nodes [] with
  | ok parts journal =>
      rw [render_of_ok compiled walked]
      exact congrArg Except.ok (Packing.bytes_joinKnown parts)
  | error error journal =>
      rw [render_of_error compiled walked]
      rfl

theorem exists_compileAll (compiled : compile registry nodes = .ok program) :
    ∃ output layout, Node.compileAll registry nodes {} = .ok (output, layout) := by
  rcases Except.bind_eq_ok.mp compiled with ⟨⟨output, layout⟩, ran, _⟩
  exact ⟨output, layout, ran⟩

theorem compile_joined (joined : Node.Joined first second whole)
    (compiled : compile registry first = .ok before)
    (compiled' : compile registry second = .ok after) :
    ∃ program, compile registry whole = .ok program := by
  rcases exists_compileAll compiled with ⟨_, _, ran⟩
  rcases exists_compileAll compiled' with ⟨_, _, ran'⟩
  rcases joined.compiles ran ran' with ⟨⟨output, layout⟩, all⟩
  exact ⟨_, Except.bind_eq_ok.mpr ⟨(output, layout), all, rfl⟩⟩

/-- The nodes of two programs in a row render what the one renders and then what
the other renders. -/
theorem render_joined (stateless : registry.Stateless) (joined : Node.Joined first second whole)
    (compiled : compile registry first = .ok before)
    (compiled' : compile registry second = .ok after)
    (all : compile registry whole = .ok program) (context : Context) :
    (program.render context).1.map Markup.bytes = (do
      let front ← (before.render context).1.map Markup.bytes
      let back ← (after.render context).1.map Markup.bytes
      return front ++ back) := by
  rcases exists_compileAll compiled with ⟨_, _, ran⟩
  rcases exists_compileAll compiled' with ⟨_, _, ran'⟩
  have nothing : SeenAlike ({} : Layout).names [] [] := .nil [] []
  have alone : Corresponds (Node.walkAll .compiled registry context [] second)
      (Node.walkAll .compiled registry context [] second) Eq :=
    Node.walkAll_congr stateless second ran' nothing
  calc
    (program.render context).1.map Markup.bytes
        = (Node.walkAll .compiled registry context [] whole).answer.map Part.bytesOf :=
          bytes_render all context
    _ = Except.map (fun pair => Part.bytesOf pair.1 ++ Part.bytesOf pair.2) (Walk.answer (do
          let parts ← Node.walkAll .compiled registry context [] first
          let others ← Node.walkAll .compiled registry context [] second
          return (parts, others))) :=
          (joined.walks stateless ran ran' nothing).map_answer fun _ _ holds => holds
    _ = (do
          let front ← (Node.walkAll .compiled registry context [] first).answer.map Part.bytesOf
          let back ← (Node.walkAll .compiled registry context [] second).answer.map Part.bytesOf
          return front ++ back) := by
          rw [answer_bind _ fun parts => alone.andThen fun others => .pure rfl]
          simp only [answer_bind _ fun _ => Corresponds.pure rfl, answer_pure]
          cases (Node.walkAll .compiled registry context [] first).answer with
          | error error => rfl
          | ok parts =>
              cases (Node.walkAll .compiled registry context [] second).answer with
              | error error => rfl
              | ok others => rfl
    _ = (do
          let front ← (before.render context).1.map Markup.bytes
          let back ← (after.render context).1.map Markup.bytes
          return front ++ back) := by
          rw [bytes_render compiled context, bytes_render compiled' context]

end Program

/-! ## Templates -/

theorem Registry.stateless_of_forall {registry : Registry}
    (each : ∀ entry ∈ registry, ∀ context journal journal' args,
      entry.2.respond context journal args = entry.2.respond context journal' args) :
    registry.Stateless := by
  intro name target found context journal journal' args
  rcases Option.map_eq_some_iff.mp found with ⟨function, known, rfl⟩
  exact each _ (mem_of_lookUp? known) context journal journal' args

/-- None of the built-in helpers looks at the calls made before. -/
theorem BuiltIn.stateless : registry.Stateless := by
  apply Registry.stateless_of_forall
  simp only [registry, List.forall_mem_cons, ofArguments, ofContext, List.not_mem_nil,
    false_implies, implies_true, and_self]

namespace Environment

variable {environment : Environment}

theorem compile_eq_ok_iff {name : Option String} {source : String} {template : Template} :
    environment.compile name source = .ok template ↔ ∃ nodes program,
      Node.parse environment.config.delimiters name source = .ok nodes ∧
        Program.compile environment.functions nodes = .ok program ∧
        template = ⟨name, program, environment.config⟩ := by
  simp only [compile]
  constructor
  · intro compiled
    split at compiled
    · cases compiled
    · rename_i nodes read
      split at compiled
      · cases compiled
      · rename_i program ran
        cases compiled
        exact ⟨nodes, program, read, ran, rfl⟩
  · rintro ⟨nodes, program, read, ran, rfl⟩
    simp only [read, ran]

/-- Compiling and rendering takes sources in a row to bytes in a row, as long as
no opening delimiter comes into being between them.  If the first template
fails, the whole fails with its error, and otherwise if the second fails, with
the error of the second. -/
theorem compile_append (standard : environment.config.delimiters = .standard)
    (stateless : environment.functions.Stateless) {name name' : Option String}
    {first second : String} {before after : Template}
    (compiled : environment.compile name first = .ok before)
    (compiled' : environment.compile name' second = .ok after)
    (apart : ¬(first.toList.getLast? = some '<' ∧ second.toList.head? = some '%'))
    (name'' : Option String) :
    ∃ whole, environment.compile name'' (first ++ second) = .ok whole ∧
      ∀ assigns tokens, (whole.render assigns tokens).result.map Markup.bytes = (do
        let front ← (before.render assigns tokens).result.map Markup.bytes
        let back ← (after.render assigns tokens).result.map Markup.bytes
        return front ++ back) := by
  rcases compile_eq_ok_iff.mp compiled with ⟨nodes, program, read, ran, rfl⟩
  rcases compile_eq_ok_iff.mp compiled' with ⟨nodes', program', read', ran', rfl⟩
  rw [standard] at read read'
  rcases Node.parse_append apart read read' name'' with ⟨whole, joined, all⟩
  rcases Program.compile_joined joined ran ran' with ⟨result, compiled⟩
  refine ⟨⟨name'', result, environment.config⟩, ?_, fun assigns tokens => ?_⟩
  · exact compile_eq_ok_iff.mpr ⟨whole, result, by rw [standard]; exact all, compiled, rfl⟩
  · exact Program.render_joined stateless joined ran ran' compiled
      ⟨assigns, environment.config, tokens⟩

/-- A text that goes on over the seam, after a name that only the first template
binds. -/
theorem compile_append_seam :
    let first := "<% x = \"a\" %><%= x %> & "
    let second := "b<%# x %><%= raw(\"<\") %>"
    ∃ before after whole, compile {} none first = .ok before ∧
      compile {} none second = .ok after ∧ compile {} none (first ++ second) = .ok whole ∧
      ∀ assigns tokens, (whole.render assigns tokens).result.map Markup.bytes = (do
        let front ← (before.render assigns tokens).result.map Markup.bytes
        let back ← (after.render assigns tokens).result.map Markup.bytes
        return front ++ back) := by
  intro first second
  have compiles : (compile {} none first).isOk = true ∧ (compile {} none second).isOk = true := by
    decide +kernel
  have apart : ¬(first.toList.getLast? = some '<' ∧ second.toList.head? = some '%') := by
    decide
  rcases compiles with ⟨compiles, compiles'⟩
  cases compiled : compile {} none first with
  | error error =>
      rw [compiled] at compiles
      cases compiles
  | ok before =>
      cases compiled' : compile {} none second with
      | error error =>
          rw [compiled'] at compiles'
          cases compiles'
      | ok after =>
          rcases compile_append rfl BuiltIn.stateless compiled compiled' apart none with
            ⟨whole, all, renders⟩
          exact ⟨before, after, whole, rfl, rfl, all, renders⟩

end Environment
end HtmlTemplate
