import HtmlTemplate.Helper.Submission

namespace HtmlTemplate

/-!
# Tokens go along with what is submitted

Links, buttons and forms decide on their own whether a token goes along.  The
statement about them is one: with `get` the source of tokens makes no difference
and nothing is added, with any other method a token goes along unless the
options decline it, and where none can be had the helper fails.

What a helper answers depends on the source of tokens in one place only.  A
`Plan` names this place and what stands before and behind it, so that the
statement is proved once, and of each helper it remains to be shown that it
follows a plan.
-/

namespace Submission

/-! ## What the options say -/

/-- The value of the first option whose key is the atom of a name. -/
def first? (name : String) : Options -> Option Value
  | [] => none
  | (.atom other, value) :: rest => if other = name then some value else first? name rest
  | (.str _, _) :: rest => first? name rest

theorem first?_eq (name : String) (options : Options) :
    first? name options = options.get? name := by
  induction options with
  | nil => rfl
  | cons option rest inductionHypothesis =>
      rcases option with ⟨key, value⟩
      cases key with
      | str text => exact inductionHypothesis
      | atom other =>
          rw [first?]
          split
          · rename_i same
            simp [Options.get?, OptionKey.names, same]
          · rename_i different
            rw [inductionHypothesis]
            simp [Options.get?, OptionKey.names, different]

/-- The method that options ask for, in lower case.  There is none if the value
holds no options or the method is not a text. -/
def asked? (fallback : String) (options : Value) : Option String := do
  let given ← Options.read? options
  match first? "method" given with
  | none => some fallback
  | some .nil => some fallback
  | some (.str text) => some (text.map Char.toLower)
  | some (.atom name) => some (name.map Char.toLower)
  | some (.markup content) => some ((Utf8.decode content.bytes).map Char.toLower)
  | some _ => none

/-- What the first option `csrf_token` says. -/
def choice? (options : Value) : Option Value := do
  let given ← Options.read? options
  first? "csrf_token" given

theorem choice?_eq {options : Value} {given : Options} (read : Options.read? options = some given) :
    choice? options = given.get? "csrf_token" := by
  simp only [choice?, read, Option.bind_eq_bind, Option.bind_some, first?_eq]

/-- A token has to come from the source. -/
def WantsToken (options : Value) : Prop :=
  choice? options = none ∨ choice? options = some (.bool true)

/-- The text of a destination: a string as it is, markup flattened, and a pair
of a scheme and the rest with a colon between them, unless the scheme marks the
rest as markup. -/
inductive Flattens : Value -> String -> Prop where
  | text (text : String) : Flattens (.str text) text
  | markup (content : Markup) : Flattens (.markup content) (Utf8.decode content.bytes)
  | scheme {scheme : String} (plain : scheme ≠ "safe") (rest : String) :
      Flattens (.tuple [.atom scheme, .str rest]) (scheme ++ ":" ++ rest)
  | safe {payload : Value} {content : Markup} (trusted : Trust.raw payload = .ok content) :
      Flattens (.tuple [.atom "safe", payload]) (Utf8.decode content.bytes)

/-- The text of the destination that the first option `to` names. -/
def Reaches (options : Value) (destination : String) : Prop :=
  ∃ given target, Options.read? options = some given ∧ first? "to" given = some target ∧
    Flattens target destination

/-- How a helper deals with tokens.  `respond` is its answer for a source of
tokens, and `Shows` says which markup goes with a method and a token. -/
structure Guarded (fallback : String) (options : Value) (Reaches : String -> Prop)
    (respond : Option TokenSource -> Except Error Markup)
    (Shows : String -> Option String -> Markup -> Prop) : Prop where
  /-- Options without a method are refused. -/
  unasked : asked? fallback options = none -> ∀ tokens, ∃ error, respond tokens = .error error
  /-- With `get` no token is asked for and none is added. -/
  get : asked? fallback options = some "get" ->
    (∀ tokens others, respond tokens = respond others) ∧
      ∀ tokens markup, respond tokens = .ok markup -> Shows "get" none markup
  /-- Without a source the helper fails. -/
  unsourced : ∀ method, asked? fallback options = some method -> method ≠ "get" ->
    WantsToken options -> ∃ error, respond none = .error error
  /-- The helper fails where the source fails for the destination. -/
  refused : ∀ method, asked? fallback options = some method -> method ≠ "get" ->
    WantsToken options -> ∀ source destination error, Reaches destination ->
      source.token (some destination) = .error error -> ∃ error, respond (some source) = .error error
  /-- Otherwise the token of the source is shown. -/
  sourced : ∀ method, asked? fallback options = some method -> method ≠ "get" ->
    WantsToken options -> ∀ source markup, respond (some source) = .ok markup ->
      ∃ destination token, Reaches destination ∧
        source.token (some destination) = .ok token ∧ Shows method (some token) markup
  /-- A token that is declined is neither asked for nor added. -/
  declined : ∀ method, asked? fallback options = some method -> method ≠ "get" ->
    choice? options = some (.bool false) ->
      (∀ tokens others, respond tokens = respond others) ∧
        ∀ tokens markup, respond tokens = .ok markup -> Shows method none markup
  /-- A token that is given takes the place of the one from the source. -/
  given : ∀ method token, asked? fallback options = some method -> method ≠ "get" ->
    choice? options = some (.str token) ->
      (∀ tokens others, respond tokens = respond others) ∧
        ∀ tokens markup, respond tokens = .ok markup -> Shows method (some token) markup

/-! ## Plans -/

/-- What is decided before a token is asked for: the method, where it goes, and
the answers without and with a token. -/
structure Plan where
  method : String
  destination : String
  plain : Except Error Markup
  guarded : Option String -> Except Error Markup

/-- The answer of a plan for a source of tokens. -/
def Plan.respond (helper : String) (options : Value) (plan : Plan) (context : Context) :
    Except Error Markup :=
  if plan.method = "get" then plan.plain
  else do
    let token? ← token helper context plan.destination (choice? options)
    plan.guarded token?

section Guarded

variable {fallback : String} {options : Value} {Reaches : String -> Prop}
  {respond : Option TokenSource -> Except Error Markup}
  {Shows : String -> Option String -> Markup -> Prop}

/-- A helper that fails whatever the source is guards everything. -/
theorem Guarded.of_error (error : Error) (fails : ∀ tokens, respond tokens = .error error) :
    Guarded fallback options Reaches respond Shows where
  unasked _ tokens := ⟨error, fails tokens⟩
  get _ := ⟨fun tokens others => by rw [fails, fails], fun tokens markup done => by
    rw [fails] at done
    cases done⟩
  unsourced _ _ _ _ := ⟨error, fails none⟩
  refused _ _ _ _ source _ _ _ _ := ⟨error, fails (some source)⟩
  sourced _ _ _ _ source markup done := by
    rw [fails] at done
    cases done
  declined _ _ _ _ := ⟨fun tokens others => by rw [fails, fails], fun tokens markup done => by
    rw [fails] at done
    cases done⟩
  given _ _ _ _ _ := ⟨fun tokens others => by rw [fails, fails], fun tokens markup done => by
    rw [fails] at done
    cases done⟩

/-- A helper that follows a plan guards what the plan shows. -/
theorem Guarded.of_plan (helper : String) (context : Context) (plan : Plan)
    (follows : ∀ tokens, respond tokens =
      plan.respond helper options { context with tokens := tokens })
    (asked : asked? fallback options = some plan.method)
    (reaches : ∀ destination, Reaches destination ↔ destination = plan.destination)
    (plain : ∀ markup, plan.plain = .ok markup -> plan.method = "get" ->
      Shows "get" none markup)
    (guarded : ∀ token? markup, plan.guarded token? = .ok markup -> plan.method ≠ "get" ->
      Shows plan.method token? markup) :
    Guarded fallback options Reaches respond Shows := by
  -- Once the choice is known, so is the one place where the source matters.
  have chosen (other : plan.method ≠ "get") (tokens : Option TokenSource) :
      respond tokens = (token helper { context with tokens := tokens } plan.destination
        (choice? options)) >>= plan.guarded := by
    rw [follows, Plan.respond, if_neg other]
  have fixed (token? : Option String) (other : plan.method ≠ "get")
      (same : ∀ tokens, token helper { context with tokens := tokens } plan.destination
        (choice? options) = .ok token?) :
      (∀ tokens others, respond tokens = respond others) ∧
        ∀ tokens markup, respond tokens = .ok markup -> Shows plan.method token? markup := by
    have answer (tokens : Option TokenSource) : respond tokens = plan.guarded token? := by
      rw [chosen other, same]
      rfl
    refine ⟨fun tokens others => by rw [answer, answer], fun tokens markup done => ?_⟩
    rw [answer] at done
    exact guarded token? markup done other
  have asks (wants : WantsToken options) (tokens : Option TokenSource) :
      token helper { context with tokens := tokens } plan.destination (choice? options) =
        (Context.csrfToken { context with tokens := tokens } (some plan.destination)).map some := by
    rcases wants with absent | affirmed
    · rw [absent]
      rfl
    · rw [affirmed]
      rfl
  constructor
  case unasked =>
    intro absent
    rw [asked] at absent
    cases absent
  case get =>
    intro isGet
    rw [asked, Option.some.injEq] at isGet
    have answer (tokens : Option TokenSource) : respond tokens = plan.plain := by
      rw [follows, Plan.respond, if_pos isGet]
    refine ⟨fun tokens others => by rw [answer, answer], fun tokens markup done => ?_⟩
    rw [answer] at done
    exact plain markup done isGet
  case unsourced =>
    intro method found other wants
    cases asked.symm.trans found
    rw [chosen other, asks wants]
    exact ⟨_, rfl⟩
  case refused =>
    intro method found other wants source destination error reached failed
    cases asked.symm.trans found
    cases (reaches destination).mp reached
    rw [chosen other, asks wants]
    simp only [Context.csrfToken, failed]
    exact ⟨_, rfl⟩
  case sourced =>
    intro method found other wants source markup done
    cases asked.symm.trans found
    rw [chosen other, asks wants] at done
    cases drawn : source.token (some plan.destination) with
    | error error =>
        simp only [Context.csrfToken, drawn] at done
        cases done
    | ok token =>
        simp only [Context.csrfToken, drawn] at done
        exact ⟨plan.destination, token, (reaches _).mpr rfl, drawn,
          guarded (some token) markup done other⟩
  case declined =>
    intro method found other declines
    cases asked.symm.trans found
    exact fixed none other fun tokens => by rw [declines]; rfl
  case given =>
    intro method token found other gives
    cases asked.symm.trans found
    exact fixed (some token) other fun tokens => by rw [gives]; rfl

end Guarded

end Submission
end HtmlTemplate
