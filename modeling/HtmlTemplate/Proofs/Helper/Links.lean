import HtmlTemplate.Helper.Link
import HtmlTemplate.Proofs.Helper.Tokens
import HtmlTemplate.Proofs.Helper.Written

namespace HtmlTemplate

/-!
# Links and buttons

A link or a button is prepared from its options alone: they say where it goes
and with which method.  Only then may a token be asked for, and what is written
begins with the attributes that follow from these three.
-/

namespace Submission

theorem asked?_of_method {helper fallback found : String} {value : Value} {given : Options}
    (read : Options.read? value = some given)
    (decided : method helper fallback (given.get? "method") = .ok found) :
    asked? fallback value = some found := by
  simp only [asked?, read, Option.bind_eq_bind, Option.bind_some, first?_eq]
  revert decided
  cases given.get? "method" with
  | none =>
      intro decided
      cases decided
      rfl
  | some option =>
      cases option <;> intro decided <;> cases decided <;> rfl

/-! ## What is written -/

/-- The attributes in which a script finds what it has to submit.  A token comes
first. -/
def dataAttributes (token? : Option String) (method : String) (destination : ByteArray) :
    ByteArray :=
  (match token? with
    | some token => (" data-csrf=\"" ++ Entity.escape token ++ "\"").toUTF8
    | none => .empty) ++
  (" data-method=\"" ++ Entity.escape method ++ "\"").toUTF8 ++
  (" data-to=\"".toUTF8 ++ destination ++ "\"".toUTF8)

/-- A destination that was accepted can be written into any attribute. -/
theorem accepted_prints {helper : String} {target accepted : Value}
    (accepts : acceptDestination helper target = .ok accepted) :
    ∃ content, accepted.print = .ok content ∧ Attribute.Prints accepted content := by
  have ofStr (text : String) : ∃ content, Value.print (.str text) = .ok content ∧
      Attribute.Prints (.str text) content :=
    ⟨.escape text, rfl, Attribute.prints_str text⟩
  have ofMarkup (content : Markup) : ∃ content', Value.print (.markup content) = .ok content' ∧
      Attribute.Prints (.markup content) content' :=
    ⟨content, rfl, Attribute.prints_markup content⟩
  unfold acceptDestination at accepts
  split at accepts
  · split at accepts
    · cases accepts
    · cases accepts
      exact ofStr _
  · cases accepts
    exact ofMarkup _
  · rename_i payload
    split at accepts
    · cases trusted : Trust.raw payload with
      | error error =>
          rw [trusted] at accepts
          cases accepts
      | ok content =>
          rw [trusted] at accepts
          cases accepts
          exact ofMarkup content
    · split at accepts
      · cases accepts
        exact ofStr _
      · cases accepts
  · cases accepts

/-- A destination is there and is accepted, or the helper fails. -/
theorem requireDestination_eq_ok {helper : String} {missing : Complaint} {to? : Option Value}
    {accepted : Value} (required : requireDestination helper missing to? = .ok accepted) :
    ∃ target, to? = some target ∧ acceptDestination helper target = .ok accepted := by
  unfold requireDestination at required
  split at required
  · cases required
  · cases required
  · exact ⟨_, rfl, required⟩

/-- The helper's name matters to the fault of a destination alone. -/
theorem acceptDestination_eq_ok {helper other : String} {target accepted : Value}
    (accepts : acceptDestination helper target = .ok accepted) :
    acceptDestination other target = .ok accepted := by
  unfold acceptDestination at accepts ⊢
  split at accepts
  · split at accepts
    · cases accepts
    · rename_i harmless
      rw [if_neg harmless]
      exact accepts
  · exact accepts
  · split at accepts
    · rename_i same
      rw [if_pos same]
      exact accepts
    · rename_i different
      rw [if_neg different]
      split at accepts
      · exact accepts
      · cases accepts
  · cases accepts

end Submission

namespace Link

open Submission

/-- The options that become attributes as they are. -/
def remaining (given : Options) : Options :=
  ((given.without "to").without "method").without "csrf_token"

/-- The data attributes as the option that yields them. -/
def dataValue (token? : Option String) (method : String) (destination : Value) : Value :=
  Options.toValue ((token?.map fun token => (OptionKey.atom "csrf", Value.str token)).toList ++
    (Options.single "method" (.str method) ++ Options.single "to" destination))

theorem submissionData_eq {context : Context} {destination : Value} {method : String}
    (other : method ≠ "get") (choice? : Option Value) :
    submissionData context destination method choice? = do
      let token? ← token "link" context (destinationText destination) choice?
      return dataValue token? method destination := by
  simp only [submissionData, if_neg other]
  congr 1
  funext token?
  cases token? <;> rfl

/-- Each entry below `data` becomes an attribute of its own. -/
theorem ofOption_data {content : Markup} {destination : Value} (token? : Option String)
    (method : String) (prints : Attribute.Prints destination content) :
    Attribute.ofOption none (.atom "data") (dataValue token? method destination) =
      .ok ((token?.map fun token => Attribute.assigned "data-csrf" (.escape token)).toList ++
        [Attribute.assigned "data-method" (.escape method),
          Attribute.assigned "data-to" content]) := by
  have data : Attribute.fullName none (.atom "data") = "data" :=
    Attribute.fullName_atom (by decide)
  have name (word : String) (plain : '_' ∉ word.toList) :
      Attribute.fullName (some "data") (.atom word) = "data-" ++ word := by
    simp only [Attribute.fullName, Attribute.baseName, Attribute.dashed_eq plain]
    rfl
  have csrf := name "csrf" (by decide)
  have verb := name "method" (by decide)
  have target := name "to" (by decide)
  have readable : ∃ read, Options.read Attribute.helper (dataValue token? method destination) =
      .ok read := ⟨_, Options.read_eq_ok.mpr (Options.read?_toValue _)⟩
  rcases readable with ⟨read, readable⟩
  have printsText (text : String) := Attribute.prints_str text
  have nests : Attribute.nests none (.atom "data") = true := by decide
  unfold Attribute.Prints at prints printsText
  unfold dataValue Options.toValue at readable ⊢
  rw [Attribute.ofOption, if_pos nests, readable, data]
  cases token? with
  | none =>
      simp only [Option.map_none, Option.toList_none, List.nil_append, Options.single,
        List.singleton_append, List.map_cons, List.map_nil, OptionKey.toValue,
        Attribute.ofItems, Attribute.ofItem, prints, printsText, verb, target]
      rfl
  | some token =>
      simp only [Option.map_some, Option.toList_some, Options.single,
        List.singleton_append, List.map_cons, List.map_nil, OptionKey.toValue,
        Attribute.ofItems, Attribute.ofItem, prints, printsText, csrf, verb, target]
      rfl

/-- The data attributes are written as they are spelled out. -/
theorem writes_data {content : Markup} {destination : Value} (token? : Option String)
    (method : String) (prints : Attribute.Prints destination content) :
    Attribute.Writes (Options.single "data" (dataValue token? method destination))
      (dataAttributes token? method content.bytes) := by
  have csrf : Entity.escape "data-csrf" = "data-csrf" := by decide
  have verb : Entity.escape "data-method" = "data-method" := by decide
  have target : Entity.escape "data-to" = "data-to" := by decide
  refine ⟨_, Attribute.ofOptions_single.mpr (ofOption_data token? method prints), ?_⟩
  cases token? <;>
    simp [dataAttributes, Attribute.bytes_assigned, csrf, verb, target, ByteArray.append_assoc]

/-- What links and buttons find out before they ask for a token: their options,
the destination and the method. -/
def prepare (helper : String) (missing : Complaint) (fallback : String) (options : Value) :
    Except Error (Options × Value × String) := do
  let given ← Options.read helper options
  let accepted ← requireDestination helper missing (given.get? "to")
  let method ← Submission.method helper fallback (given.get? "method")
  return (given, accepted, method)

theorem prepare_eq_ok {helper fallback method : String} {missing : Complaint} {options : Value}
    {given : Options} {accepted : Value}
    (prepared : prepare helper missing fallback options = .ok (given, accepted, method)) :
    Options.read? options = some given ∧
      (∃ target, given.get? "to" = some target ∧ acceptDestination helper target = .ok accepted) ∧
      asked? fallback options = some method := by
  simp only [prepare, Except.bind_eq_ok, Options.read_eq_ok] at prepared
  rcases prepared with ⟨_, read, _, required, _, decided, done⟩
  cases done
  exact ⟨read, requireDestination_eq_ok required, asked?_of_method read decided⟩

/-- The options that a link puts in front of the remaining ones. -/
def ownOptions (method : String) (token? : Option String) (given : Options)
    (accepted : Value) : Options :=
  if method = "get" then Options.single "href" accepted
  else Options.single "data" (dataValue token? method accepted) ++
    Options.single "href" accepted ++
      if (given.get? "rel").isSome then [] else Options.single "rel" (.str "nofollow")

theorem get?_remaining {name : String} (other : name ≠ "to" ∧ name ≠ "method" ∧
    name ≠ "csrf_token") (given : Options) : (remaining given).get? name = given.get? name := by
  rw [remaining, Options.get?_without_of_ne other.2.2, Options.get?_without_of_ne other.2.1,
    Options.get?_without_of_ne other.1]

/-- Prepare, ask for a token unless the method is `get`, and answer. -/
def submit (helper : String) (missing : Complaint) (fallback : String)
    (answer : Options -> Value -> String -> Option String -> Except Error Markup)
    (context : Context) (options : Value) : Except Error Markup := do
  let (given, accepted, method) ← prepare helper missing fallback options
  if method = "get" then answer given accepted method none
  else
    let token? ← token "link" context (destinationText accepted) (given.get? "csrf_token")
    answer given accepted method token?

/-- What a link is written as once the token is known. -/
def linkAnswer (text : Value) (given : Options) (accepted : Value) (method : String)
    (token? : Option String) : Except Error Markup :=
  Element.around "a" text
    (Options.toValue (ownOptions method token? given accepted ++ remaining given))

/-- What a button is written as once the token is known. -/
def buttonAnswer (text : Value) (given : Options) (accepted : Value) (method : String)
    (token? : Option String) : Except Error Markup :=
  Element.around "button" text (Options.toValue
    (Options.single "data" (dataValue token? method accepted) ++ remaining given))

theorem link_eq (context : Context) (text options : Value) :
    link context text options =
      submit "link" .destinationMissing "get" (linkAnswer text) context options := by
  simp only [link, submit, prepare, bind_assoc, pure_bind, Options.take]
  congr 1
  funext given
  rw [Options.get?_without_of_ne (by decide), Options.get?_without_of_ne (by decide),
    Options.get?_without_of_ne (by decide)]
  congr 1
  funext accepted
  congr 1
  funext method
  by_cases isGet : method = "get"
  · rw [if_pos isGet, if_pos isGet, linkAnswer, ownOptions, if_pos isGet]
    rfl
  · rw [if_neg isGet, if_neg isGet, submissionData_eq isGet, bind_assoc]
    congr 1
    funext token?
    rw [pure_bind, linkAnswer, ownOptions, if_neg isGet, ← get?_remaining (by decide) given]
    rfl

theorem button_eq (context : Context) (text options : Value) :
    button context text options =
      submit "button" .destinationRequired "post" (buttonAnswer text) context options := by
  simp only [button, submit, prepare, bind_assoc, pure_bind, Options.take]
  congr 1
  funext given
  rw [Options.get?_without_of_ne (by decide), Options.get?_without_of_ne (by decide),
    Options.get?_without_of_ne (by decide)]
  congr 1
  funext accepted
  congr 1
  funext method
  by_cases isGet : method = "get"
  · rw [if_pos isGet, submissionData, if_pos isGet]
    rfl
  · rw [if_neg isGet, submissionData_eq isGet, bind_assoc]
    congr 1

/-- The attributes that a link has of itself. -/
def ownAttributes (method : String) (token? : Option String) (given : Options)
    (destination : ByteArray) : ByteArray :=
  if method = "get" then " href=\"".toUTF8 ++ destination ++ "\"".toUTF8
  else dataAttributes token? method destination ++
    (" href=\"".toUTF8 ++ destination ++ "\"".toUTF8) ++
    if (given.get? "rel").isSome then .empty else " rel=\"nofollow\"".toUTF8

theorem writes_ownOptions {content : Markup} {accepted : Value} (method : String)
    (token? : Option String) (given : Options) (prints : Attribute.Prints accepted content) :
    Attribute.Writes (ownOptions method token? given accepted)
      (ownAttributes method token? given content.bytes) := by
  have href := Attribute.Writes.single "href" (by decide) (by decide) prints
  have rel := Attribute.Writes.text "rel" "nofollow" (by decide) (by decide)
  have data := writes_data token? method prints
  unfold ownOptions ownAttributes
  by_cases isGet : method = "get"
  · rw [if_pos isGet, if_pos isGet]
    exact href
  · rw [if_neg isGet, if_neg isGet]
    refine (data.append href).append ?_
    split
    · exact .nil
    · exact rel

/-- What a link or a button is made from: its options, the value that is its
destination, and what is written for that. -/
structure Destined (options : Value) (given : Options) (target : Value) (destination : Markup) :
    Prop where
  read : Options.read? options = some given
  first : given.get? "to" = some target
  accepted : ∃ accepted, acceptDestination "link" target = .ok accepted ∧
    accepted.print = .ok destination

/-- A link with a method and perhaps a token. -/
def Shows (text options : Value) (method : String) (token? : Option String) (markup : Markup) :
    Prop :=
  ∃ given target destination, Destined options given target destination ∧
    Element.Consists "a" (ownAttributes method token? given destination.bytes) (remaining given)
      text markup

/-- A button with a method and perhaps a token. -/
def ShowsButton (text options : Value) (method : String) (token? : Option String)
    (markup : Markup) : Prop :=
  ∃ given target destination, Destined options given target destination ∧
    Element.Consists "button" (dataAttributes token? method destination.bytes) (remaining given)
      text markup

/-- What is told to the source of tokens is the text of the destination. -/
theorem flattens_iff {helper destination : String} {target accepted : Value}
    (accepts : acceptDestination helper target = .ok accepted) :
    Flattens target destination ↔ destination = destinationText accepted := by
  constructor
  · intro flattens
    cases flattens with
    | text text =>
        change (if runsScript _ then _ else _) = _ at accepts
        split at accepts
        · cases accepts
        · cases accepts
          rfl
    | markup content =>
        cases accepts
        exact content.toText_eq.symm
    | scheme plain rest =>
        rw [acceptDestination, if_neg plain] at accepts
        cases accepts
        rfl
    | safe trusted =>
        change (Trust.raw _).map Value.markup = _ at accepts
        rw [trusted] at accepts
        cases accepts
        exact (Markup.toText_eq _).symm
  · rintro rfl
    unfold acceptDestination at accepts
    split at accepts
    · split at accepts
      · cases accepts
      · cases accepts
        exact .text _
    · cases accepts
      rw [destinationText, Markup.toText_eq]
      exact .markup _
    · rename_i scheme payload
      split at accepts
      · rename_i same
        cases same
        cases trusted : Trust.raw payload with
        | error error =>
            rw [trusted] at accepts
            cases accepts
        | ok content =>
            rw [trusted] at accepts
            cases accepts
            rw [destinationText, Markup.toText_eq]
            exact .safe trusted
      · rename_i plain
        split at accepts
        · cases accepts
          exact .scheme plain _
        · cases accepts
    · cases accepts

theorem reaches_iff {options accepted target : Value} {given : Options} {helper : String}
    (read : Options.read? options = some given) (first : given.get? "to" = some target)
    (accepts : acceptDestination helper target = .ok accepted) (destination : String) :
    Reaches options destination ↔ destination = destinationText accepted := by
  rw [← first?_eq] at first
  rw [← flattens_iff accepts]
  constructor
  · rintro ⟨_, _, read', first', flattens⟩
    cases read.symm.trans read'
    cases first.symm.trans first'
    exact flattens
  · intro flattens
    exact ⟨given, target, read, first, flattens⟩

/-- An answer shows markup for what was prepared. -/
def Answers (options : Value)
    (answer : Options -> Value -> String -> Option String -> Except Error Markup)
    (Shows : String -> Option String -> Markup -> Prop) : Prop :=
  ∀ given target accepted destination method token? markup, Destined options given target destination ->
    Attribute.Prints accepted destination ->
    answer given accepted method token? = .ok markup -> Shows method token? markup

theorem linkAnswer_shows (text options : Value) :
    Answers options (linkAnswer text) (Shows text options) := by
  intro given target accepted destination method token? markup destined prints written
  exact ⟨given, target, destination, destined, Element.consists_of_around (by decide)
    (writes_ownOptions method token? given prints) written⟩

theorem buttonAnswer_shows (text options : Value) :
    Answers options (buttonAnswer text) (ShowsButton text options) := by
  intro given target accepted destination method token? markup destined prints written
  exact ⟨given, target, destination, destined, Element.consists_of_around (by decide)
    (writes_data token? method prints) written⟩

section Submit

variable {helper fallback : String} {missing : Complaint} {options : Value}
  {answer : Options -> Value -> String -> Option String -> Except Error Markup}
  {Shows : String -> Option String -> Markup -> Prop} (context : Context)
  (answers : Answers options answer Shows)

include answers

theorem guarded_submit :
    Guarded fallback options (Reaches options)
      (fun tokens => submit helper missing fallback answer { context with tokens := tokens } options)
      Shows := by
  cases prepared : prepare helper missing fallback options with
  | error error =>
      refine .of_error error fun tokens => ?_
      rw [submit, prepared]
      rfl
  | ok found =>
      rcases found with ⟨given, accepted, method⟩
      rcases prepare_eq_ok prepared with ⟨read, ⟨target, first, accepts⟩, asked⟩
      rcases accepted_prints accepts with ⟨content, printed, prints⟩
      have destined : Destined options given target content :=
        ⟨read, first, accepted, acceptDestination_eq_ok accepts, printed⟩
      refine .of_plan "link" context
        ⟨method, destinationText accepted, answer given accepted method none,
          answer given accepted method⟩
        (fun tokens => ?_) asked (reaches_iff read first accepts) (fun markup done isGet => ?_)
        fun token? markup done _ => answers _ _ _ _ _ _ _ destined prints done
      · rw [submit, prepared, Plan.respond, choice?_eq read]
        rfl
      · cases isGet
        exact answers _ _ _ _ _ _ _ destined prints done

/-- Whatever is submitted successfully shows some method. -/
theorem exists_of_submit {markup : Markup}
    (done : submit helper missing fallback answer context options = .ok markup) :
    ∃ method token?, Shows method token? markup := by
  simp only [submit, Except.bind_eq_ok] at done
  rcases done with ⟨⟨given, accepted, method⟩, prepared, done⟩
  rcases prepare_eq_ok prepared with ⟨read, ⟨target, first, accepts⟩, _⟩
  rcases accepted_prints accepts with ⟨content, printed, prints⟩
  have destined : Destined options given target content :=
    ⟨read, first, accepted, acceptDestination_eq_ok accepts, printed⟩
  split at done
  · exact ⟨_, _, answers _ _ _ _ _ _ _ destined prints done⟩
  · rcases Except.bind_eq_ok.mp done with ⟨token?, _, done⟩
    exact ⟨_, _, answers _ _ _ _ _ _ _ destined prints done⟩

end Submit

theorem link_guarded (context : Context) (text options : Value) :
    Guarded "get" options (Reaches options)
      (fun tokens => link { context with tokens := tokens } text options)
      (Shows text options) := by
  simp only [link_eq]
  exact guarded_submit context (linkAnswer_shows text options)

theorem button_guarded (context : Context) (text options : Value) :
    Guarded "post" options (Reaches options)
      (fun tokens => button { context with tokens := tokens } text options)
      (ShowsButton text options) := by
  simp only [button_eq]
  exact guarded_submit context (buttonAnswer_shows text options)

end Link
end HtmlTemplate
