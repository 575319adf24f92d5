import HtmlTemplate.Helper.Form
import HtmlTemplate.Helper.Link
import HtmlTemplate.Proofs.Helper.Written

namespace HtmlTemplate

/-!
# Which body a helper receives

The body of a call travels as an option: it is put at the end of the keyword
list that the arguments end in, or into a new one, and the helper takes it out
again.  Whatever the arguments are, the helper gets them back as the caller
wrote them, without any `do`.

The body arrives as well, unless the caller wrote a `do` of his own.  The first
`do` counts, and the one of the caller comes first.  For a form this also
concerns a `do` among options that are no keyword list.
-/

namespace Value

theorem asKeyword?_eq_some_iff {item : Value} {pair : String × Value} :
    item.asKeyword? = some pair ↔ item = keywordPair pair.1 pair.2 := by
  constructor
  · intro read
    unfold asKeyword? at read
    split at read
    · cases read
      rfl
    · cases read
  · rintro rfl
    rfl

/-- Keyword lists are the lists of pairs of an atom and a value. -/
theorem asKeywords?_eq_some_iff {value : Value} {pairs : List (String × Value)} :
    value.asKeywords? = some pairs ↔ value = keywords pairs := by
  have items (values : List Value) : values.mapM asKeyword? = some pairs ↔
      values = pairs.map fun pair => keywordPair pair.1 pair.2 := by
    induction values generalizing pairs with
    | nil => cases pairs <;> simp
    | cons item rest inductionHypothesis =>
        simp only [List.mapM_cons, Option.bind_eq_bind, Option.bind_eq_some_iff,
          asKeyword?_eq_some_iff, inductionHypothesis, Option.pure_def, Option.some.injEq]
        constructor
        · rintro ⟨pair, rfl, others, rfl, rfl⟩
          rfl
        · intro same
          cases pairs with
          | nil => cases same
          | cons pair others =>
              cases same
              exact ⟨pair, rfl, others, rfl, rfl⟩
  cases value with
  | list values =>
      rw [keywords, list.injEq]
      exact items values
  | _ => simp [asKeywords?, keywords]

end Value

namespace Body

variable {args front rest : List Value} {pairs : List (String × Value)} {body own : Value}

/-- A keyword list at the end of arguments, if anything is in it. -/
def optionList : List (String × Value) -> List Value
  | [] => []
  | pairs => [Value.keywords pairs]

/-- Arguments without the pairs of a keyword list at their end that have the key
of a body.  If one of these is found, the first one counts as the body that the
caller wrote. -/
inductive Parts : List Value -> Option Value -> List Value -> Prop where
  | plain {args : List Value}
      (absent : ∀ front pairs, args = front ++ [Value.keywords pairs] -> lookUp? key pairs = none) :
      Parts args none args
  | given {pairs : List (String × Value)} {own : Value} (front : List Value)
      (found : lookUp? key pairs = some own) :
      Parts (front ++ [Value.keywords pairs]) (some own)
        (front ++ optionList (pairs.filter fun entry => entry.1 != key))

/-! ## Putting a body in and taking it out -/

theorem attach_of_keywords (front : List Value) (filled : pairs ≠ []) (body : Value) :
    attach (front ++ [Value.keywords pairs]) body =
      front ++ [Value.keywords (pairs ++ [(key, body)])] := by
  have read : (Value.keywords pairs).asKeywords? = some pairs :=
    Value.asKeywords?_eq_some_iff.mpr rfl
  have options : isOptionList (Value.keywords pairs) = true := by
    simp [isOptionList, read, filled]
  unfold Value.keywords at options
  simp [attach, Value.keywords, options, pair]

theorem attach_of_ne (args : List Value) (body : Value)
    (other : ∀ front pairs, args = front ++ [Value.keywords pairs] -> pairs = []) :
    attach args body = args ++ [Value.keywords [(key, body)]] := by
  unfold attach
  split
  · rename_i items last
    rcases List.getLast?_eq_some_iff.mp last with ⟨front, rfl⟩
    refine if_neg fun options => ?_
    unfold isOptionList at options
    split at options
    · rename_i pairs read
      cases other front pairs (by rw [Value.asKeywords?_eq_some_iff.mp read])
      cases options
    · cases options
  · rfl

theorem detach_of_lookUp? (front : List Value) (found : lookUp? key pairs = some own) :
    detach (front ++ [Value.keywords pairs]) =
      (some own, front ++ optionList (pairs.filter fun entry => entry.1 != key)) := by
  have read : (Value.keywords pairs).asKeywords? = some pairs :=
    Value.asKeywords?_eq_some_iff.mpr rfl
  simp only [detach, List.getLast?_concat, Option.bind_some, read, found, List.dropLast_concat]
  cases pairs.filter fun entry => entry.1 != key <;> rfl

theorem lookUp?_append_single (pairs : List (String × Value)) (body : Value) :
    lookUp? key (pairs ++ [(key, body)]) = some ((lookUp? key pairs).getD body) := by
  unfold lookUp?
  rw [List.find?_append]
  cases pairs.find? fun entry => entry.1 == key <;> simp

theorem filter_append_single (pairs : List (String × Value)) (body : Value) :
    (pairs ++ [(key, body)]).filter (fun entry => entry.1 != key) =
      pairs.filter fun entry => entry.1 != key := by
  simp

theorem filter_of_lookUp? (absent : lookUp? key pairs = none) :
    pairs.filter (fun entry => entry.1 != key) = pairs := by
  rw [List.filter_eq_self]
  simpa [lookUp?] using absent

theorem parts_of_absent (front : List Value) {pairs : List (String × Value)}
    (absent : lookUp? key pairs = none) :
    Parts (front ++ [Value.keywords pairs]) none (front ++ [Value.keywords pairs]) := by
  refine .plain fun front' pairs' same => ?_
  have last := (List.append_inj' same rfl).2
  rw [List.singleton_inj] at last
  have read := Value.asKeywords?_eq_some_iff.mpr last
  rw [Value.asKeywords?_eq_some_iff.mpr rfl] at read
  cases read
  exact absent

/-- The arguments come back without any `do`, together with the body of the
caller if there was one, and with the body of the call if not. -/
theorem exists_detach_attach (args : List Value) (body : Value) :
    ∃ own? rest, Parts args own? rest ∧
      detach (attach args body) = (some (own?.getD body), rest) := by
  by_cases options : ∃ front pairs, args = front ++ [Value.keywords pairs] ∧ pairs ≠ []
  · rcases options with ⟨front, pairs, rfl, filled⟩
    have together := detach_of_lookUp? front (lookUp?_append_single pairs body)
    rw [← attach_of_keywords front filled body, filter_append_single] at together
    cases found : lookUp? key pairs with
    | some own =>
        refine ⟨some own, _, .given front found, ?_⟩
        rw [together, found, Option.getD_some]
    | none =>
        refine ⟨none, _, parts_of_absent front found, ?_⟩
        rw [together, found, filter_of_lookUp? found]
        cases pairs with
        | nil => exact absurd rfl filled
        | cons pair others => rfl
  · have empty (front : List Value) (pairs : List (String × Value))
        (same : args = front ++ [Value.keywords pairs]) : pairs = [] :=
      Classical.byContradiction fun filled => options ⟨front, pairs, same, filled⟩
    refine ⟨none, args, .plain fun front pairs same => ?_, ?_⟩
    · rw [empty front pairs same]
      rfl
    · have alone : lookUp? key [(key, body)] = some body := rfl
      have nothing : [(key, body)].filter (fun entry => entry.1 != key) = [] := rfl
      rw [attach_of_ne args body empty, detach_of_lookUp? args alone, nothing]
      exact congrArg (Prod.mk (some body)) (List.append_nil args)

/-! ## The helpers -/

/-- The helpers that take a body run with this body and the other arguments.  A
form looks for a body among its options first. -/
structure Received (args : List Value) (body : Value) (rest : List Value) : Prop where
  contentTag : Element.contentTag args = do
    Arguments.checkCount "content_tag" 1 2 rest
    let name ← Arguments.text "content_tag" (Arguments.valueAt rest 0)
    let written ← Element.around name body (Arguments.valueAt rest 1)
    return .markup written
  textAndOptions : ∀ helper, Link.textAndOptions helper args = do
    Arguments.checkCount helper 0 1 rest
    return (body, Arguments.valueAt rest 0)
  formTag : ∀ context, Form.formTag context args = do
    Arguments.checkCount "form_tag" 1 2 rest
    let action ← Arguments.text "form_tag" (Arguments.valueAt rest 0)
    let options ← Options.read "form_tag" (Arguments.valueAt rest 1)
    let written ← Form.form context action
      (Options.toValue (options.without key ++ .single key ((options.get? key).getD body)))
    return .markup written

theorem get?_append_single (options : Options) (body : Value) :
    Options.get? key (options ++ .single key body) = some ((options.get? key).getD body) := by
  unfold Options.get? Options.single
  rw [List.find?_append]
  cases options.find? fun option => option.1.names key <;> simp [OptionKey.names]

theorem without_append_single (options : Options) (body : Value) :
    Options.without key (options ++ .single key body) = options.without key := by
  simp [Options.without, Options.single, OptionKey.names]

/-- A form has one body, the first one. -/
theorem form_append_single (context : Context) (action : String) (options : Options)
    (body : Value) :
    Form.form context action (Options.toValue (options ++ .single key body)) =
      Form.form context action (Options.toValue
        (options.without key ++ .single key ((options.get? key).getD body))) := by
  have taken (options : Options) : Options.read "form_tag" options.toValue = .ok options :=
    Options.read_eq_ok.mpr (Options.read?_toValue options)
  have first : Options.take key (options ++ .single key body) =
      Options.take key (options.without key ++ .single key ((options.get? key).getD body)) := by
    simp only [Options.take, get?_append_single, without_append_single, Options.get?_without_self,
      Option.getD_none]
    simp [Options.without]
  unfold Form.form
  rw [taken, taken]
  simp only [bind, Except.bind, first]

theorem received_of_detach {args rest : List Value} {body : Value}
    (detached : detach args = (some body, rest)) : Received args body rest where
  contentTag := by
    simp only [Element.contentTag, detached]
  textAndOptions helper := by
    simp only [Link.textAndOptions, detached]
  formTag context := by
    simp only [Form.formTag, detached]
    refine bind_congr fun _ => bind_congr fun action => bind_congr fun options => ?_
    rw [← form_append_single]

/-- Arguments that a body was added to come back as they were, without any `do`,
and so does the body, unless the caller wrote one.  The helpers receive the body
that comes back.  A form prefers one among its options, which it also finds in
a map. -/
theorem attached_received (args : List Value) (body : Value) :
    ∃ own? rest, Parts args own? rest ∧
      detach (attach args body) = (some (own?.getD body), rest) ∧
      Received (attach args body) (own?.getD body) rest := by
  rcases exists_detach_attach args body with ⟨own?, rest, parts, detached⟩
  exact ⟨own?, rest, parts, detached, received_of_detach detached⟩

/-- The content of an element is lost if there is a `do` among its options. -/
theorem attached_behind_own :
    (detach (attach [.str "p", .keywords [("do", .str "x")]] (.markup (.raw "B")))).1 =
        some (.str "x") ∧
      ∃ output, Element.contentTag
          (attach [.str "p", .keywords [("do", .str "x")]] (.markup (.raw "B"))) =
            .ok (.markup output) ∧
        output.bytes = "<p>x</p>".toUTF8 :=
  ⟨rfl, _, rfl, by decide +kernel⟩

end Body
end HtmlTemplate
