import HtmlTemplate.Proofs.Concatenation.Rendering
import HtmlTemplate.Proofs.Dependence.Walking
import HtmlTemplate.Proofs.Syntax.Printed

namespace HtmlTemplate

/-!
# A render depends on the assigns that its template names

None of the built-in helpers looks at the assigns, although each of them is
called with all that the render can see.  So what a template does not name has
no influence on its output, and none on which error ends the render.  It can
only be listed among the names that are there, where another name is missing.
-/

/-! ## The helpers -/

namespace Link

variable (context : Context) (assigns : Assigns)

theorem linkFunction_withAssigns (args : List Value) :
    linkFunction (context.withAssigns assigns) args = linkFunction context args := rfl

theorem buttonFunction_withAssigns (args : List Value) :
    buttonFunction (context.withAssigns assigns) args = buttonFunction context args := rfl

end Link

namespace Form

variable (context : Context) (assigns : Assigns)

theorem formTag_withAssigns (args : List Value) :
    formTag (context.withAssigns assigns) args = formTag context args := rfl

theorem csrfMetaTag_withAssigns (args : List Value) :
    csrfMetaTag (context.withAssigns assigns) args = csrfMetaTag context args := rfl

theorem csrfTokenValue_withAssigns (args : List Value) :
    csrfTokenValue (context.withAssigns assigns) args = csrfTokenValue context args := rfl

end Form

theorem Registry.ignoresAssigns_of_forall {registry : Registry}
    (each : ∀ entry ∈ registry, ∀ context assigns journal args,
      entry.2.respond (context.withAssigns assigns) journal args =
        entry.2.respond context journal args) :
    registry.IgnoresAssigns := by
  intro name target found context assigns journal args
  rcases Option.map_eq_some_iff.mp found with ⟨function, known, rfl⟩
  exact each _ (mem_of_lookUp? known) context assigns journal args

/-- None of the built-in helpers looks at the assigns. -/
theorem BuiltIn.ignoresAssigns : registry.IgnoresAssigns := by
  apply Registry.ignoresAssigns_of_forall
  simp only [registry, List.forall_mem_cons, ofArguments, ofContext,
    Link.linkFunction_withAssigns, Link.buttonFunction_withAssigns, Form.formTag_withAssigns,
    Form.csrfMetaTag_withAssigns, Form.csrfTokenValue_withAssigns, List.not_mem_nil,
    false_implies, implies_true, and_self]

/-! ## Templates -/

/-- The nodes use the assign of a name. -/
def Node.Names (nodes : List Node) (name : String) : Prop :=
  ∃ scope expr, Stands nodes scope (.expr expr) ∧ .assign name ∈ expr.parts

theorem Node.allAlike_of_names {nodes : List Node} {assigns assigns' : Assigns}
    (same : ∀ name, Names nodes name -> assigns'.get? name = assigns.get? name) :
    AllAlike assigns assigns' nodes := by
  intro scope holding stands
  cases holding with
  | expr held => exact fun name member => same name ⟨scope, held, stands, member⟩
  | pattern _ => exact trivial
  | function _ => exact trivial

/-- The renders end alike, after the same calls. -/
def Outcome.Alike (outcome other : Outcome) : Prop :=
  other.journal = outcome.journal ∧
    (other.result = outcome.result ∨ ∃ name available available',
      outcome.result = .error (.missingAssign name available) ∧
        other.result = .error (.missingAssign name available'))

/-- Renders of a compiled program with assigns that agree on what it names. -/
theorem Program.render_agrees {registry : Registry} (ignores : registry.IgnoresAssigns)
    {nodes : List Node} {program : Program} (compiled : compile registry nodes = .ok program)
    (context : Context) {assigns : Assigns}
    (alike : Node.AllAlike context.assigns assigns nodes) :
    Outcome.Alike ⟨(program.render context).1, (program.render context).2⟩
      ⟨(program.render (context.withAssigns assigns)).1,
        (program.render (context.withAssigns assigns)).2⟩ := by
  have walked : Walk.Lockstep (Node.walkAll .compiled registry context [] nodes)
      (Node.walkAll .compiled registry (context.withAssigns assigns) [] nodes) :=
    Node.walkAll_lockstep ignores nodes [] alike
  rcases walked [] with same | ⟨name, available, available', after, missed, missed'⟩
  · cases ended : Node.walkAll .compiled registry context [] nodes [] with
    | ok parts journal =>
        rw [render_of_ok compiled ended, render_of_ok compiled (same.trans ended)]
        exact ⟨rfl, .inl rfl⟩
    | error error journal =>
        rw [render_of_error compiled ended, render_of_error compiled (same.trans ended)]
        exact ⟨rfl, .inl rfl⟩
  · rw [render_of_error compiled missed, render_of_error compiled missed']
    exact ⟨rfl, .inr ⟨name, available, available', rfl, rfl⟩⟩

namespace Environment

variable {environment : Environment}

/-- With the built-in helpers a render depends on nothing in the assigns but
the values of the names in its template. -/
theorem render_alike (builtIn : environment.functions = BuiltIn.registry)
    {name : Option String} {source : String} {nodes : List Node} {template : Template}
    (read : Node.parse environment.config.delimiters name source = .ok nodes)
    (compiled : environment.compile name source = .ok template) {assigns assigns' : Assigns}
    (same : ∀ name, Node.Names nodes name -> assigns'.get? name = assigns.get? name)
    (tokens : Option TokenSource) :
    Outcome.Alike (template.render assigns tokens) (template.render assigns' tokens) := by
  rcases compile_eq_ok_iff.mp compiled with ⟨nodes', program, read', ran, rfl⟩
  cases read.symm.trans read'
  rw [builtIn] at ran
  exact Program.render_agrees BuiltIn.ignoresAssigns ran ⟨assigns, environment.config, tokens⟩
    (Node.allAlike_of_names same)

/-- A name that the template misses, beside one that it does not use. -/
theorem render_alike_missing :
    let source := "<%= @title %>"
    let assigns : Assigns := ⟨[("author", .str "x")]⟩
    let environment : Environment := {}
    ∃ nodes template, Node.parse environment.config.delimiters none source = .ok nodes ∧
      environment.compile none source = .ok template ∧
      (∀ name, Node.Names nodes name -> assigns.get? name = Assigns.get? {} name) ∧
      ∀ tokens, Outcome.Alike (template.render {} tokens) (template.render assigns tokens) := by
  intro source assigns environment
  have text : "<%= " ++ String.ofList (Expr.assign "title").write ++ " %>" = source := by
    decide +kernel
  have formed : (Expr.assign "title").WellFormed := rfl
  have read := Node.parse_of_fits formed (by decide) none
  rw [text] at read
  have compiles : (environment.compile none source).isOk = true := by
    decide +kernel
  have named : ∀ other, Node.Names [.print (.value (.assign "title"))] other ->
      other = "title" := by
    rintro other ⟨scope, expr, stands, member⟩
    cases stands with
    | here held =>
        cases List.mem_singleton.mp held
        cases List.mem_singleton.mp member
        rfl
    | behind later => cases later
    | inside impossible _ => cases impossible
  have same : ∀ other, Node.Names [.print (.value (.assign "title"))] other ->
      assigns.get? other = Assigns.get? {} other := by
    intro other used
    rw [named other used]
    simp [assigns, Assigns.get?, lookUp?]
  cases compiled : environment.compile none source with
  | error error =>
      rw [compiled] at compiles
      cases compiles
  | ok template =>
      exact ⟨_, template, read, rfl, same, @render_alike environment rfl none source _ template read
        compiled _ _ same⟩

end Environment
end HtmlTemplate
