import HtmlTemplate.Helper.Form
import HtmlTemplate.Proofs.Helper.Links

namespace HtmlTemplate

/-!
# Forms

A form is sent with `get` or `post`.  Another method goes into a hidden input
behind the opening tag, and a token into one more.  The last statement of this
module says of links, buttons and forms together that a token goes along with
every method but `get`.
-/

namespace Form

open Submission

theorem asked?_of_methodOf {found : String} {value : Value} {given : Options}
    (read : Options.read? value = some given)
    (decided : methodOf given = .ok found) : asked? "post" value = some found := by
  simp only [asked?, read, Option.bind_eq_bind, Option.bind_some, first?_eq, ← Markup.toText_eq]
  simp only [methodOf] at decided
  revert decided
  cases given.get? "method" with
  | none =>
      intro decided
      cases decided
      rfl
  | some option =>
      cases option <;> intro decided <;> cases decided <;> rfl

/-- The options of a form that it does not take out at once. -/
def untaken (given : Options) : Options :=
  ((given.without Body.key).without "csrf_token").without "multipart"

theorem get?_untaken {name : String} (other : name ≠ Body.key ∧ name ≠ "csrf_token" ∧
    name ≠ "multipart") (given : Options) : (untaken given).get? name = given.get? name := by
  rw [untaken, Options.get?_without_of_ne other.2.2, Options.get?_without_of_ne other.2.1,
    Options.get?_without_of_ne other.1]

/-- The options of a form that become attributes as they are. -/
def remaining (method : String) (given : Options) : Options :=
  if method = "get" then untaken given else (untaken given).without "method"

/-- Whether the encoding of file uploads is asked for, and not another one. -/
def encodes (given : Options) : Bool :=
  (given.get? "multipart").any Value.isTruthy && (given.get? "enctype").isNone

/-- The options that a form puts in front of the remaining ones. -/
def ownOptions (action method : String) (given : Options) : Options :=
  Options.single "action" (.str action) ++
    (if encodes given then Options.single "enctype" (.str "multipart/form-data") else []) ++
    (if method = "get" then [] else Options.single "method" (.str "post"))

/-- The attributes that a form has of itself. -/
def ownAttributes (action method : String) (given : Options) : ByteArray :=
  (" action=\"" ++ Entity.escape action ++ "\"").toUTF8 ++
    (if encodes given then " enctype=\"multipart/form-data\"".toUTF8 else .empty) ++
    (if method = "get" then .empty else " method=\"post\"".toUTF8)

theorem writes_ownOptions (action method : String) (given : Options) :
    Attribute.Writes (ownOptions action method given) (ownAttributes action method given) := by
  have target := Attribute.Writes.text "action" action (by decide) (by decide)
  have encoding := Attribute.Writes.text "enctype" "multipart/form-data" (by decide) (by decide)
  have verb := Attribute.Writes.text "method" "post" (by decide) (by decide)
  unfold ownOptions ownAttributes
  refine (target.append ?_).append ?_
  · split
    · exact encoding
    · exact .nil
  · split
    · exact .nil
    · exact verb

/-- A hidden input as it stands in a page. -/
def hiddenTag (name value : String) : ByteArray :=
  ("<input name=\"" ++ Entity.escape name ++ "\" type=\"hidden\" value=\"" ++
    Entity.escape value ++ "\">").toUTF8

@[simp] theorem bytes_hiddenInput (name value : String) :
    (hiddenInput name value).bytes = hiddenTag name value := by
  simp [hiddenInput, hiddenTag, ByteArray.append_assoc]

/-- The hidden inputs behind the opening tag: the method that a browser cannot
send, and the token. -/
def hidden (config : Config) (method : String) (token? : Option String) : ByteArray :=
  (if method = "get" ∨ method = "post" then .empty else hiddenTag config.methodParam method) ++
    match token? with
    | some token => hiddenTag config.csrfParam token
    | none => .empty

/-- What stands between the hidden inputs and the end of a form, and its end. -/
def inside : Option Value -> Except Error ByteArray
  | none => .ok .empty
  | some body => do
      let inner ← body.print
      return inner.bytes ++ "</form>".toUTF8

/-- A form with a method and perhaps a token. -/
def Shows (config : Config) (action : String) (options : Value) (method : String)
    (token? : Option String) (markup : Markup) : Prop :=
  ∃ given others body, Options.read? options = some given ∧
    Attribute.ofOptions (remaining method given) = .ok others ∧
    inside (given.get? Body.key) = .ok body ∧
    markup.bytes = "<form".toUTF8 ++ ownAttributes action method given ++
      (Markup.concat others).bytes ++ ">".toUTF8 ++ hidden config method token? ++ body

/-- The hidden inputs as one markup. -/
def hiddenMarkup (config : Config) (method : String) (token? : Option String) : Markup :=
  let override :=
    if method = "get" ∨ method = "post" then Markup.empty
    else Markup.empty.push (hiddenInput config.methodParam method)
  match token? with
  | some token => override.push (hiddenInput config.csrfParam token)
  | none => override

theorem bytes_hiddenMarkup (config : Config) (method : String) (token? : Option String) :
    (hiddenMarkup config method token?).bytes = hidden config method token? := by
  unfold hiddenMarkup hidden
  cases token? <;> split <;> simp

/-- What a form is written as once the token is known. -/
def answer (config : Config) (action : String) (given : Options) (method : String)
    (token? : Option String) : Except Error Markup := do
  let start ← Element.opening "form"
    (Options.toValue (ownOptions action method given ++ remaining method given))
  let start := start.push (hiddenMarkup config method token?)
  match given.get? Body.key with
  | some body => do
      let inner ← body.print
      return (start.push inner).pushRaw "</form>"
  | none => return start

theorem shows_of_answer {config : Config} {action : String} {options : Value} {given : Options}
    {method : String} {token? : Option String} {markup : Markup}
    (read : Options.read? options = some given)
    (done : answer config action given method token? = .ok markup) :
    Shows config action options method token? markup := by
  simp only [answer, Except.bind_eq_ok] at done
  rcases done with ⟨start, opened, done⟩
  rcases Element.opening_eq_ok (by decide) (writes_ownOptions action method given) opened with
    ⟨others, right, bytes⟩
  have tag : "<" ++ "form" = "<form" := by decide
  rw [tag] at bytes
  rcases given' : given.get? Body.key with _ | body
  · rw [given'] at done
    cases done
    refine ⟨given, others, .empty, read, right, by rw [given']; rfl, ?_⟩
    simp [bytes, bytes_hiddenMarkup, ByteArray.append_assoc]
  · rw [given'] at done
    simp only [Except.bind_eq_ok] at done
    rcases done with ⟨inner, printed, done⟩
    cases done
    refine ⟨given, others, inner.bytes ++ "</form>".toUTF8, read, right, ?_, ?_⟩
    · rw [given', inside, printed]
      rfl
    · simp [bytes, bytes_hiddenMarkup, ByteArray.append_assoc]

theorem withEncoding_eq (given rest : Options)
    (same : rest.get? "enctype" = given.get? "enctype") :
    withEncoding ((given.get? "multipart").any Value.isTruthy) rest =
      (if encodes given then Options.single "enctype" (.str "multipart/form-data") else []) ++
        rest := by
  unfold withEncoding encodes Options.putNew
  rw [same]
  cases (given.get? "multipart").any Value.isTruthy <;> cases given.get? "enctype" <;> rfl

/-- The token is the only thing for which a form looks at its context besides
the names of its parameters. -/
theorem form_eq (context : Context) (action : String) (options : Value) :
    form context action options = (do
      let given ← Options.read "form_tag" options
      let method ← methodOf given
      if method = "get" then answer context.config action given method none
      else
        let token? ← token "form_tag" context action (given.get? "csrf_token")
        answer context.config action given method token?) := by
  have enctype (given : Options) : (untaken given).get? "enctype" = given.get? "enctype" :=
    get?_untaken (by decide) given
  have verb (given : Options) : methodOf (untaken given) = methodOf given := by
    rw [methodOf, methodOf, get?_untaken (by decide)]
  simp only [form, Options.take]
  congr 1
  funext given
  rw [Options.get?_without_of_ne (by decide), Options.get?_without_of_ne (by decide),
    Options.get?_without_of_ne (by decide), ← untaken, verb]
  congr 1
  funext method
  by_cases isGet : method = "get"
  · rw [if_pos isGet, if_pos isGet, pure_bind, withEncoding_eq given _ (enctype given)]
    cases body : given.get? Body.key <;>
      simp only [answer, ownOptions, remaining, hiddenMarkup, body, if_pos isGet,
        if_pos (Or.inl isGet), List.append_assoc, List.nil_append]
  · rw [if_neg isGet, if_neg isGet, hiddenInputs, bind_assoc]
    congr 1
    funext token?
    have fresh : ((untaken given).without "method").putNew "method" (.str "post") =
        Options.single "method" (.str "post") ++ (untaken given).without "method" := by
      rw [Options.putNew, Options.get?_without_self]
      rfl
    have encoding : Options.get? "enctype"
        (Options.single "method" (.str "post") ++ (untaken given).without "method") =
          given.get? "enctype" :=
      (Options.get?_without_of_ne (by decide) _).trans (enctype given)
    have verb' : (method = "get" ∨ method = "post") = (method = "post") := by
      simp only [isGet, false_or]
    cases token? <;> cases body : given.get? Body.key <;>
      simp only [answer, ownOptions, remaining, hiddenMarkup, body, if_neg isGet, verb',
        List.append_assoc, pure_bind, fresh, withEncoding_eq given _ encoding]

/-- Whatever form is written shows some method. -/
theorem exists_of_form {context : Context} {action : String} {options : Value} {markup : Markup}
    (done : form context action options = .ok markup) :
    ∃ method token?, Shows context.config action options method token? markup := by
  simp only [form_eq, Except.bind_eq_ok, Options.read_eq_ok] at done
  rcases done with ⟨given, read, method, _, done⟩
  split at done
  · exact ⟨_, _, shows_of_answer read done⟩
  · rcases Except.bind_eq_ok.mp done with ⟨token?, _, done⟩
    exact ⟨_, _, shows_of_answer read done⟩

theorem form_guarded (context : Context) (action : String) (options : Value) :
    Guarded "post" options (· = action)
      (fun tokens => form { context with tokens := tokens } action options)
      (Shows context.config action options) := by
  cases read : Options.read? options with
  | none =>
      refine .of_error (.function "form_tag" (.keywordListExpected options.display)) fun tokens => ?_
      rw [form_eq, Options.read, read]
      rfl
  | some given =>
      have first : Options.read "form_tag" options = .ok given := Options.read_eq_ok.mpr read
      cases decided : methodOf given with
      | error error =>
          refine .of_error error fun tokens => ?_
          rw [form_eq, first]
          change (methodOf given >>= _) = _
          rw [decided]
          rfl
      | ok method =>
          refine .of_plan "form_tag" context
            ⟨method, action, answer context.config action given method none,
              answer context.config action given method⟩
            (fun tokens => ?_) (asked?_of_methodOf read decided) (fun _ => Iff.rfl)
            (fun markup done isGet => ?_) fun token? markup done _ => shows_of_answer read done
          · rw [form_eq, first, Plan.respond, choice?_eq read]
            change (methodOf given >>= _) = _
            rw [decided]
            rfl
          · cases isGet
            exact shows_of_answer read done

end Form

/-- Links, buttons and forms let a token go along with every method but `get`.
Links and buttons have it in their first attribute, `data-csrf`, and forms in a
hidden input behind the opening tag.  A form that is not sent with `get` says
`post` in the first attribute of the name `method`, and a method other than that
stands in a hidden input too. -/
theorem Submission.token_goes_along (context : Context) (text options : Value) (action : String) :
    Guarded "get" options (Reaches options)
        (fun tokens => Link.link { context with tokens := tokens } text options)
        (Link.Shows text options) ∧
      Guarded "post" options (Reaches options)
        (fun tokens => Link.button { context with tokens := tokens } text options)
        (Link.ShowsButton text options) ∧
      Guarded "post" options (· = action)
        (fun tokens => Form.form { context with tokens := tokens } action options)
        (Form.Shows context.config action options) :=
  ⟨Link.link_guarded context text options, Link.button_guarded context text options,
    Form.form_guarded context action options⟩

/-- A link and a form with a token that has to be escaped, and a button that
brings its own. -/
theorem Submission.token_goes_along_static :
    let context : Context := { tokens := some (TokenSource.static "T<0>K") }
    let delete : Value := .keywords [("to", .str "/posts/1"), ("method", .atom "DELETE")]
    let run : Value := .keywords [("csrf_token", .str "own"), ("to", .str "/run"), ("id", .str "a")]
    let put : Value := .keywords [("method", .str "put"), ("multipart", .bool true)]
    (∃ link, Link.link context (.str "Delete") delete = .ok link ∧
      link.bytes = ("<a data-csrf=\"T&lt;0&gt;K\" data-method=\"delete\" data-to=\"/posts/1\"" ++
        " href=\"/posts/1\" rel=\"nofollow\">Delete</a>").toUTF8) ∧
    (∃ button, Link.button context (.str "Go") run = .ok button ∧
      button.bytes = ("<button data-csrf=\"own\" data-method=\"post\" data-to=\"/run\"" ++
        " id=\"a\">Go</button>").toUTF8) ∧
    ∃ form, Form.form context "/posts" put = .ok form ∧
      form.bytes = ("<form action=\"/posts\" enctype=\"multipart/form-data\" method=\"post\">" ++
        "<input name=\"_method\" type=\"hidden\" value=\"put\">" ++
        "<input name=\"_csrf_token\" type=\"hidden\" value=\"T&lt;0&gt;K\">").toUTF8 := by
  intro context delete run put
  have ran {result : Except Error Markup} (succeeds : result.isOk = true) :
      ∃ markup, result = .ok markup := by
    cases result with
    | error error => cases succeeds
    | ok markup => exact ⟨markup, rfl⟩
  have equal {left right : ByteArray} (lists : left.data.toList = right.data.toList) :
      left = right := ByteArray.ext (Array.toList_inj.mp lists)
  refine ⟨?_, ?_, ?_⟩
  · have succeeds : (Link.link context (.str "Delete") delete).isOk = true := by decide +kernel
    rcases ran succeeds with ⟨link, done⟩
    have goes := (token_goes_along context (.str "Delete") delete "").1
    rcases goes.sourced "delete" (by decide +kernel) (by decide) (.inl rfl) _ link done with
      ⟨_, token, _, drawn, _, _, _, destined, _, _, found, printed, bytes⟩
    rcases destined with ⟨read, first, accepted, accepts, shown⟩
    cases drawn
    cases read
    cases first
    cases accepts
    cases shown
    cases found
    cases printed
    exact ⟨link, done, bytes.trans (equal (by decide +kernel))⟩
  · have succeeds : (Link.button context (.str "Go") run).isOk = true := by decide +kernel
    rcases ran succeeds with ⟨button, done⟩
    have goes := (token_goes_along context (.str "Go") run "").2.1
    rcases (goes.given "post" "own" rfl (by decide) rfl).2 context.tokens button done with
      ⟨_, _, _, destined, _, _, found, printed, bytes⟩
    rcases destined with ⟨read, first, accepted, accepts, shown⟩
    cases read
    cases first
    cases accepts
    cases shown
    cases found
    cases printed
    exact ⟨button, done, bytes.trans (equal (by decide +kernel))⟩
  · have succeeds : (Form.form context "/posts" put).isOk = true := by decide +kernel
    rcases ran succeeds with ⟨form, done⟩
    have goes := (token_goes_along context .nil put "/posts").2.2
    rcases goes.sourced "put" (by decide +kernel) (by decide) (.inl rfl) _ form done with
      ⟨_, token, _, drawn, _, _, _, read, found, closed, bytes⟩
    cases drawn
    cases read
    cases found
    cases closed
    exact ⟨form, done, bytes.trans (equal (by decide +kernel))⟩

end HtmlTemplate
