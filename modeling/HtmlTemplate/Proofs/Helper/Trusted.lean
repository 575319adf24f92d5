import HtmlTemplate.Proofs.Escaping.Neutral
import HtmlTemplate.Proofs.Helper.Forms
import HtmlTemplate.Proofs.Rendering.Literal

namespace HtmlTemplate

/-!
# Where helpers put markup

A helper that is given markup writes its bytes as they are, wherever the markup
is still a value when it is written: in attributes at any depth of nesting, as
content, as the text and the destination of links and buttons, and as the body
of a form.

In three places the markup has become text by then and is escaped once more: as
an entry of a class list, as the source that the function `img_tag` is given and
as the action that the function `form_tag` is given.  There the bytes survive
only if nothing in them had to be escaped.
-/

namespace Markup

/-- Some bytes stand in those of a markup. -/
def Includes (output : Markup) (bytes : ByteArray) : Prop :=
  bytes.data.toList <:+: output.bytes.data.toList

instance (output : Markup) (bytes : ByteArray) : Decidable (output.Includes bytes) :=
  inferInstanceAs (Decidable (_ <:+: _))

theorem includes_of_eq {output : Markup} (before after : ByteArray) {middle : ByteArray}
    (split : output.bytes = before ++ middle ++ after) : output.Includes middle := by
  refine ⟨before.data.toList, after.data.toList, ?_⟩
  rw [split]
  simp

/-- Parts that are joined stand in the result. -/
theorem includes_concat {part : Markup} {parts : List Markup} (member : part ∈ parts) :
    (concat parts).Includes part.bytes := by
  rcases List.append_of_mem member with ⟨first, rest, rfl⟩
  refine includes_of_eq (concat first).bytes (concat rest).bytes ?_
  rw [bytes_concat_append, bytes_concat_cons, ByteArray.append_assoc]

/-- Markup survives being turned into text and escaped if and only if it is text
in which nothing has to be escaped. -/
theorem escape_toText_eq_iff {content : Markup} :
    (Entity.escape content.toText).toUTF8 = content.bytes ↔
      ∃ text : String, content.bytes = text.toUTF8 ∧ ∀ c ∈ text.toList, Entity.ofChar? c = none := by
  constructor
  · intro same
    have read : Entity.escape content.toText = content.toText := by
      calc Entity.escape content.toText
          _ = Utf8.decode (Entity.escape content.toText).toUTF8 := (Utf8.decode_toUTF8 _).symm
          _ = Utf8.decode content.bytes := by rw [same]
          _ = content.toText := content.toText_eq.symm
    exact ⟨content.toText, by rw [← same, read], Entity.escape_eq_self_iff.mp read⟩
  · rintro ⟨text, same, plain⟩
    rw [toText_eq, same, Utf8.decode_toUTF8, Entity.escape_eq_self_iff.mpr plain]

end Markup

namespace Attribute

/-- What is written for one member of a list is part of what is written for the
list. -/
theorem subset_of_mem {α β : Type} (one : α -> Except Error (List β))
    {all : List α -> Except Error (List β)}
    (step : ∀ item rest, all (item :: rest) = (do
      let first ← one item
      let others ← all rest
      return first ++ others))
    {items : List α} {parts : List β} (written : all items = .ok parts) {item : α}
    (member : item ∈ items) : ∃ own, one item = .ok own ∧ own ⊆ parts := by
  induction items generalizing parts with
  | nil => cases member
  | cons head rest inductionHypothesis =>
      simp only [step, Except.bind_eq_ok] at written
      rcases written with ⟨first, ran, others, tail, done⟩
      cases done
      rcases List.mem_cons.mp member with rfl | later
      · exact ⟨first, ran, List.subset_append_left ..⟩
      · rcases inductionHypothesis tail later with ⟨own, found, within⟩
        exact ⟨own, found, List.Subset.trans within (List.subset_append_right ..)⟩

/-- A value stands under an option, or among the options nested below it, and
`name` is the name of its attribute. -/
inductive Nested (value : Value) : Option String -> OptionKey -> Value -> String -> Prop where
  | here {above : Option String} {key : OptionKey} :
      Nested value above key value (fullName above key)
  | item {above : Option String} {key inner : OptionKey} {items : List Value}
      {pair under : Value} {name : String} (nests : nests above key = true)
      (member : pair ∈ items) (read : Options.readPair? pair = some (inner, under))
      (nested : Nested value (some (fullName above key)) inner under name) :
      Nested value above key (.list items) name
  | entry {above : Option String} {key : OptionKey} {entries : List (String × Value)}
      {word : String} {under : Value} {name : String} (nests : nests above key = true)
      (member : (word, under) ∈ entries)
      (nested : Nested value (some (fullName above key)) (.atom word) under name) :
      Nested value above key (.map entries) name

theorem ofItem_of_readPair? {above : Option String} {pair under : Value} {key : OptionKey}
    (read : Options.readPair? pair = some (key, under)) :
    ofItem above pair = ofOption above key under := by
  unfold Options.readPair? at read
  split at read
  · cases read
    rw [ofItem]
  · cases read
    rw [ofItem]
  · cases read

/-- Markup that stands under an option at any depth becomes an attribute as it
is. -/
theorem mem_of_nested {content : Markup} {above : Option String} {key : OptionKey}
    {value : Value} {name : String} {parts : List Markup}
    (nested : Nested (.markup content) above key value name)
    (written : ofOption above key value = .ok parts) : assigned name content ∈ parts := by
  induction nested generalizing parts with
  | here =>
      cases written
      exact List.mem_singleton_self _
  | item nests member read nested inductionHypothesis =>
      rw [ofOption, if_pos nests] at written
      rcases Except.bind_eq_ok.mp written with ⟨_, _, written⟩
      rcases subset_of_mem (ofItem _) (fun _ _ => by rw [ofItems]) written member with ⟨own, found, within⟩
      rw [ofItem_of_readPair? read] at found
      exact within (inductionHypothesis found)
  | entry nests member nested inductionHypothesis =>
      rw [ofOption, if_pos nests] at written
      rcases subset_of_mem (fun entry => ofOption _ (.atom entry.1) entry.2)
        (fun _ _ => by rw [ofEntries]) written member with ⟨own, found, within⟩
      exact within (inductionHypothesis found)

/-- A value is a list or stands in it at any depth. -/
inductive Listed (value : Value) : Value -> Prop where
  | here : Listed value value
  | deeper {items : List Value} {item : Value} (member : item ∈ items)
      (listed : Listed value item) : Listed value (.list items)

/-- Markup in a class list has become its text. -/
theorem mem_of_listed {content : Markup} {value : Value} {classes : List String}
    (listed : Listed (.markup content) value) (named : classNames value = .ok classes) :
    content.toText ∈ classes := by
  induction listed generalizing classes with
  | here =>
      cases named
      exact List.mem_singleton_self _
  | deeper member listed inductionHypothesis =>
      rw [classNames] at named
      rcases subset_of_mem classNames (fun _ _ => by rw [classNamesOfAll]) named member with
        ⟨own, found, within⟩
      exact within (inductionHypothesis found)

theorem exists_intercalate {text : String} {texts : List String} (member : text ∈ texts) :
    ∃ before after, " ".intercalate texts = before ++ text ++ after := by
  induction texts with
  | nil => cases member
  | cons first rest inductionHypothesis =>
      cases rest with
      | nil =>
          cases List.mem_singleton.mp member
          exact ⟨"", "", by simp⟩
      | cons second others =>
          rw [String.intercalate_cons_cons]
          rcases List.mem_cons.mp member with rfl | later
          · exact ⟨"", " " ++ " ".intercalate (second :: others), by simp [String.append_assoc]⟩
          · rcases inductionHypothesis later with ⟨before, after, same⟩
            exact ⟨first ++ " " ++ before, after, by rw [same]; simp [String.append_assoc]⟩

/-- An attribute of an option is part of what is written for all options. -/
theorem includes_write {attributes : Value} {options : Options} {key : OptionKey} {value : Value}
    {output : Markup} (read : Options.read? attributes = some options)
    (member : (key, value) ∈ options) (written : write attributes = .ok output) :
    ∃ own, ofOption none key value = .ok own ∧ ∀ part ∈ own, output.Includes part.bytes := by
  rcases write_eq_ok.mp written with ⟨_, parts, read', all, rfl⟩
  cases read.symm.trans read'
  rcases subset_of_mem (fun option => ofOption none option.1 option.2)
    (fun _ _ => by rw [ofOptions]) all member with ⟨own, found, within⟩
  exact ⟨own, found, fun part inside => Markup.includes_concat (within inside)⟩

end Attribute

/-- Where the bytes of a markup stand that helpers were given. -/
structure Markup.Placed (content : Markup) : Prop where
  /-- An attribute, at the top or nested below others. -/
  attributeValue : ∀ {attributes options key value name output},
    Options.read? attributes = some options -> (key, value) ∈ options ->
      Attribute.Nested (.markup content) none key value name ->
        Attribute.write attributes = .ok output ->
          output.Includes ((" " ++ Entity.escape name ++ "=\"").toUTF8 ++ content.bytes ++
            "\"".toUTF8)
  /-- The content of an element. -/
  element : ∀ {name attributes output},
    Element.around name (.markup content) attributes = .ok output ->
      ∃ start, Element.opening name attributes = .ok start ∧
        output.bytes = start.bytes ++ content.bytes ++ ("</" ++ Entity.escape name ++ ">").toUTF8
  linkText : ∀ {context options output},
    Link.link context (.markup content) options = .ok output ->
      output.Includes (">".toUTF8 ++ content.bytes ++ "</a>".toUTF8)
  linkDestination : ∀ {context text options given output},
    Options.read? options = some given -> given.get? "to" = some (.markup content) ->
      Link.link context text options = .ok output ->
        output.Includes (" href=\"".toUTF8 ++ content.bytes ++ "\"".toUTF8)
  buttonText : ∀ {context options output},
    Link.button context (.markup content) options = .ok output ->
      output.Includes (">".toUTF8 ++ content.bytes ++ "</button>".toUTF8)
  buttonDestination : ∀ {context text options given output},
    Options.read? options = some given -> given.get? "to" = some (.markup content) ->
      Link.button context text options = .ok output ->
        output.Includes (" data-to=\"".toUTF8 ++ content.bytes ++ "\"".toUTF8)
  formBody : ∀ {context action options given output},
    Options.read? options = some given -> given.get? Body.key = some (.markup content) ->
      Form.form context action options = .ok output ->
        output.Includes (content.bytes ++ "</form>".toUTF8)
  /-- A class list shows the text of the markup, escaped once more. -/
  className : ∀ {attributes options items output},
    Options.read? attributes = some options -> (.atom "class", .list items) ∈ options ->
      Attribute.Listed (.markup content) (.list items) ->
        Attribute.write attributes = .ok output ->
          ∃ before after, output.Includes
            (" class=\"" ++ Entity.escape (before ++ content.toText ++ after) ++ "\"").toUTF8
  /-- So does the source of an image. -/
  imageSource : ∀ {rest options result},
    Options.read? (rest.getD 0 .nil) = some options -> options.get? "src" = none ->
      Element.imgTag (.markup content :: rest) = .ok result ->
        ∃ output, result = .markup output ∧
          output.Includes (" src=\"" ++ Entity.escape content.toText ++ "\"").toUTF8
  /-- So does the action of a form. -/
  formAction : ∀ {context rest result},
    Form.formTag context (.markup content :: rest) = .ok result ->
      ∃ output, result = .markup output ∧
        output.Includes (" action=\"" ++ Entity.escape content.toText ++ "\"").toUTF8
  /-- Text that is escaped once more is the same if nothing had to be escaped. -/
  survives : (Entity.escape content.toText).toUTF8 = content.bytes ↔
    ∃ text : String, content.bytes = text.toUTF8 ∧ ∀ c ∈ text.toList, Entity.ofChar? c = none

namespace Markup

variable {content output : Markup}

/-- The content of an element stands between its tags. -/
theorem includes_of_consists {name closing : String} {own : ByteArray} {rest : Options}
    (closes : "</" ++ name ++ ">" = closing)
    (consists : Element.Consists name own rest (.markup content) output) :
    output.Includes (">".toUTF8 ++ content.bytes ++ closing.toUTF8) := by
  rcases consists with ⟨others, inner, _, printed, bytes⟩
  cases printed
  rw [closes] at bytes
  refine includes_of_eq (("<" ++ name).toUTF8 ++ own ++ (concat others).bytes) .empty ?_
  rw [bytes, ByteArray.append_empty]
  simp only [ByteArray.append_assoc]

/-- A part of the attributes of an element stands in it. -/
theorem includes_own {name : String} {own : ByteArray} {rest : Options} {text : Value}
    (consists : Element.Consists name own rest text output) (before after : ByteArray)
    {part : ByteArray} (split : own = before ++ part ++ after) : output.Includes part := by
  rcases consists with ⟨others, inner, _, _, bytes⟩
  refine includes_of_eq (("<" ++ name).toUTF8 ++ before) (after ++
    ((concat others).bytes ++ (">".toUTF8 ++ (inner.bytes ++ ("</" ++ name ++ ">").toUTF8)))) ?_
  rw [bytes, split]
  simp only [ByteArray.append_assoc]

theorem eq_of_destined {options : Value} {given given' : Options} {target : Value}
    {destination : Markup} (destined : Link.Destined options given target destination)
    (read : Options.read? options = some given')
    (first : given'.get? "to" = some (.markup content)) : destination = content := by
  cases destined.read.symm.trans read
  cases destined.first.symm.trans first
  rcases destined.accepted with ⟨_, accepts, printed⟩
  cases accepts
  cases printed
  rfl

end Markup

/-- The first argument stays where it is when a body is taken out. -/
theorem Body.detach_cons (content : Markup) (rest : List Value) :
    ∃ others, (detach (.markup content :: rest)).2 = .markup content :: others := by
  cases rest with
  | nil => exact ⟨[], rfl⟩
  | cons second others =>
      unfold detach
      split
      · split
        · exact ⟨_, rfl⟩
        · exact ⟨_, rfl⟩
      · exact ⟨_, rfl⟩

namespace Markup

variable {content : Markup}

theorem Placed.of_imgTag {rest : List Value} {options : Options} {result : Value}
    (read : Options.read? (rest.getD 0 .nil) = some options)
    (absent : options.get? "src" = none)
    (done : Element.imgTag (.markup content :: rest) = .ok result) :
    ∃ output, result = .markup output ∧
      output.Includes (" src=\"" ++ Entity.escape content.toText ++ "\"").toUTF8 := by
  simp only [Element.imgTag, Except.bind_eq_ok] at done
  rcases done with ⟨_, _, source, named, output, written, done⟩
  cases named
  cases done
  refine ⟨output, rfl, ?_⟩
  have found : Options.read "img_tag" (Arguments.valueAt (.markup content :: rest) 1) =
      .ok options := Options.read_eq_ok.mpr read
  simp only [Element.image, found, Except.bind_eq_ok] at written
  rcases written with ⟨_, same, opened⟩
  cases same
  have front : options.putNew "src" (.str content.toText) =
      Options.single "src" (.str content.toText) ++ options := by
    rw [Options.putNew, absent]
    rfl
  rw [front] at opened
  have source : Attribute.Writes (Options.single "src" (.str content.toText))
      (" src=\"" ++ Entity.escape content.toText ++ "\"").toUTF8 :=
    Attribute.Writes.text "src" _ (by decide) (by decide)
  rcases Element.opening_eq_ok (by decide) source opened with ⟨others, _, bytes⟩
  rw [ByteArray.append_assoc] at bytes
  exact includes_of_eq _ _ bytes

theorem Placed.of_formTag {context : Context} {rest : List Value} {result : Value}
    (done : Form.formTag context (.markup content :: rest) = .ok result) :
    ∃ output, result = .markup output ∧
      output.Includes (" action=\"" ++ Entity.escape content.toText ++ "\"").toUTF8 := by
  rcases Body.detach_cons content rest with ⟨others, same⟩
  rcases detached : Body.detach (.markup content :: rest) with ⟨body?, args⟩
  rw [detached] at same
  cases same
  simp only [Form.formTag, detached, Except.bind_eq_ok] at done
  rcases done with ⟨_, _, action, named, options, _, output, written, done⟩
  cases named
  cases done
  refine ⟨output, rfl, ?_⟩
  rcases Form.exists_of_form written with ⟨method, token?, given, _, _, _, _, _, bytes⟩
  rw [Form.ownAttributes] at bytes
  simp only [ByteArray.append_assoc] at bytes
  rw [← ByteArray.append_assoc] at bytes
  exact includes_of_eq _ _ bytes

/-- Helpers keep the bytes of markup, but for class lists, the source of an image
and the action of a form, which show its text escaped once more. -/
theorem placed (content : Markup) : content.Placed where
  attributeValue read member nested written := by
    rcases Attribute.includes_write read member written with ⟨own, found, inside⟩
    have stands := inside _ (Attribute.mem_of_nested nested found)
    rwa [Attribute.bytes_assigned] at stands
  element written := by
    simp only [Element.around, Except.bind_eq_ok] at written
    rcases written with ⟨start, opened, inner, printed, done⟩
    cases printed
    cases done
    refine ⟨start, opened, ?_⟩
    simp [Element.closing, ByteArray.append_assoc]
  linkText written := by
    rw [Link.link_eq] at written
    rcases Link.exists_of_submit _ (Link.linkAnswer_shows _ _) written with
      ⟨method, token?, given, target, destination, _, consists⟩
    exact includes_of_consists (by decide) consists
  linkDestination read first written := by
    rw [Link.link_eq] at written
    rcases Link.exists_of_submit _ (Link.linkAnswer_shows _ _) written with
      ⟨method, token?, given, target, destination, destined, consists⟩
    cases eq_of_destined destined read first
    unfold Link.ownAttributes at consists
    split at consists
    · refine includes_own consists .empty .empty ?_
      rw [ByteArray.empty_append, ByteArray.append_empty]
    · exact includes_own consists _ _ rfl
  buttonText written := by
    rw [Link.button_eq] at written
    rcases Link.exists_of_submit _ (Link.buttonAnswer_shows _ _) written with
      ⟨method, token?, given, target, destination, _, consists⟩
    exact includes_of_consists (by decide) consists
  buttonDestination read first written := by
    rw [Link.button_eq] at written
    rcases Link.exists_of_submit _ (Link.buttonAnswer_shows _ _) written with
      ⟨method, token?, given, target, destination, destined, consists⟩
    cases eq_of_destined destined read first
    exact includes_own consists _ .empty ByteArray.append_empty.symm
  formBody read first written := by
    rcases Form.exists_of_form written with
      ⟨method, token?, given, others, body, read', _, printed, bytes⟩
    cases read.symm.trans read'
    rw [first] at printed
    cases printed
    exact includes_of_eq _ .empty (bytes.trans ByteArray.append_empty.symm)
  className read member listed written := by
    rcases Attribute.includes_write read member written with ⟨own, found, inside⟩
    have plain : ¬Attribute.nests none (.atom "class") = true := by decide
    have named : OptionKey.names "class" (.atom "class") = true := by decide
    rw [Attribute.ofOption, if_neg plain, if_pos named] at found
    rcases Except.bind_eq_ok.mp found with ⟨classes, collected, done⟩
    cases done
    have member := Attribute.mem_of_listed listed collected
    rcases Attribute.exists_intercalate member with ⟨before, after, same⟩
    refine ⟨before, after, ?_⟩
    have shown := inside _ (List.mem_singleton_self _)
    have unchanged : Entity.escape "class" = "class" := by decide
    rw [Attribute.fullName_atom (by decide), Attribute.bytes_assigned, unchanged, same,
      bytes_escape] at shown
    simpa using shown
  imageSource := Placed.of_imgTag
  formAction := Placed.of_formTag
  survives := escape_toText_eq_iff

/-- An entity in a class list is escaped again. -/
theorem class_entry_escaped_again :
    ∃ output, Attribute.write
        (Value.keywords [("class", .list [.markup (.raw "&lt;")])]) = .ok output ∧
      output.bytes = " class=\"&amp;lt;\"".toUTF8 ∧ ¬output.Includes "&lt;".toUTF8 :=
  ⟨_, rfl, by decide +kernel, by decide +kernel⟩

end Markup
end HtmlTemplate
