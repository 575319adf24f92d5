import HtmlTemplate.Helper.Element
import HtmlTemplate.Proofs.Rendering.Evaluation
import HtmlTemplate.Proofs.Rendering.Packing

namespace HtmlTemplate

/-!
# What helpers write

Helpers put options of their own in front of the ones they were given and hand
all of them to one writer.  Nothing is lost on the way through a keyword list,
and the attributes come out in the order of the options, so an element consists
of the attributes of the helper, those of the remaining options and the content.
-/

namespace Options

theorem readPair?_pair (option : OptionKey × Value) :
    readPair? (.tuple [option.1.toValue, option.2]) = some option := by
  rcases option with ⟨key, value⟩
  cases key <;> rfl

/-- Options are read back from their keyword list. -/
theorem read?_toValue (options : Options) : read? options.toValue = some options := by
  have pairs : (options.map fun option => Value.tuple [option.1.toValue, option.2]).mapM
      readPair? = some options := by
    induction options with
    | nil => rfl
    | cons option rest inductionHypothesis =>
        simp only [List.map_cons, List.mapM_cons, readPair?_pair, inductionHypothesis]
        rfl
  exact pairs

theorem read_eq_ok {helper : String} {value : Value} {options : Options} :
    read helper value = .ok options ↔ read? value = some options := by
  unfold read
  cases read? value <;> simp

theorem names_eq_false {name other : String} (different : name ≠ other) {key : OptionKey}
    (names : key.names name = true) : key.names other = false := by
  cases key with
  | atom found =>
      simp only [OptionKey.names, beq_iff_eq] at names
      simp [OptionKey.names, names, different]
  | str text => rfl

/-- Taking out the options of one name leaves those of every other name. -/
theorem get?_without_of_ne {name other : String} (different : name ≠ other)
    (options : Options) : (options.without other).get? name = options.get? name := by
  simp only [get?, without, List.find?_filter]
  congr 2
  funext option
  by_cases named : option.1.names name = true
  · simp [names_eq_false different named, named]
  · simp [named]

end Options

namespace Attribute

theorem dashed_eq {name : String} (plain : '_' ∉ name.toList) : dashed name = name := by
  have same : name.toList.map (fun c => if c = '_' then '-' else c) = name.toList.map id := by
    refine List.map_congr_left fun c member => if_neg ?_
    rintro rfl
    exact plain member
  apply String.toList_injective
  rw [dashed, String.toList_map, same, List.map_id]

/-- The name of an attribute whose option is an atom without underscores. -/
theorem fullName_atom {name : String} (plain : '_' ∉ name.toList) :
    fullName none (.atom name) = name :=
  dashed_eq plain

/-- A value becomes one attribute under every key, always with the same content. -/
def Prints (value : Value) (content : Markup) : Prop :=
  ∀ above key, ofOption above key value = .ok [assigned (fullName above key) content]

theorem prints_str (text : String) : Prints (.str text) (.escape text) :=
  fun _ _ => rfl

theorem prints_markup (content : Markup) : Prints (.markup content) content :=
  fun _ _ => rfl

theorem ofOptions_cons {option : OptionKey × Value} {rest : Options} {parts : List Markup} :
    ofOptions (option :: rest) = .ok parts ↔
      ∃ first others, ofOption none option.1 option.2 = .ok first ∧
        ofOptions rest = .ok others ∧ parts = first ++ others := by
  rcases option with ⟨key, value⟩
  simp only [ofOptions, Except.bind_eq_ok]
  constructor
  · rintro ⟨first, written, others, tail, done⟩
    cases done
    exact ⟨first, others, written, tail, rfl⟩
  · rintro ⟨first, others, written, tail, rfl⟩
    exact ⟨first, written, others, tail, rfl⟩

/-- Attributes come in the order of their options. -/
theorem ofOptions_append {first second : Options} {parts : List Markup} :
    ofOptions (first ++ second) = .ok parts ↔
      ∃ own others, ofOptions first = .ok own ∧ ofOptions second = .ok others ∧
        parts = own ++ others := by
  induction first generalizing parts with
  | nil => simp [ofOptions]
  | cons option rest inductionHypothesis =>
      simp only [List.cons_append, ofOptions_cons, inductionHypothesis]
      constructor
      · rintro ⟨head, _, written, ⟨own, others, left, right, rfl⟩, rfl⟩
        exact ⟨head ++ own, others, ⟨head, own, written, left, rfl⟩, right,
          (List.append_assoc ..).symm⟩
      · rintro ⟨_, others, ⟨head, own, written, left, rfl⟩, right, rfl⟩
        exact ⟨head, own ++ others, written, ⟨own, others, left, right, rfl⟩,
          List.append_assoc ..⟩

theorem ofOptions_single {name : String} {value : Value} {parts : List Markup} :
    ofOptions (Options.single name value) = .ok parts ↔
      ofOption none (.atom name) value = .ok parts := by
  rw [Options.single, ofOptions_cons]
  constructor
  · rintro ⟨first, others, written, done, rfl⟩
    cases done
    rwa [List.append_nil]
  · intro written
    exact ⟨parts, [], written, rfl, (List.append_nil parts).symm⟩

theorem write_eq_ok {attributes : Value} {markup : Markup} :
    write attributes = .ok markup ↔
      ∃ options parts, Options.read? attributes = some options ∧
        ofOptions options = .ok parts ∧ markup = .concat parts := by
  simp only [write, Except.bind_eq_ok, Options.read_eq_ok]
  constructor
  · rintro ⟨options, read, parts, written, done⟩
    cases done
    exact ⟨options, parts, read, written, rfl⟩
  · rintro ⟨options, parts, read, written, rfl⟩
    exact ⟨options, read, parts, written, rfl⟩

/-- An attribute stands in a tag as its name, escaped, and its content between
double quotes. -/
theorem bytes_assigned (name : String) (content : Markup) :
    (assigned name content).bytes =
      (" " ++ Entity.escape name ++ "=\"").toUTF8 ++ content.bytes ++ "\"".toUTF8 := by
  simp [assigned, bare, ByteArray.append_assoc]

/-- Options stand in a tag as some bytes. -/
def Writes (options : Options) (bytes : ByteArray) : Prop :=
  ∃ parts, ofOptions options = .ok parts ∧ (Markup.concat parts).bytes = bytes

namespace Writes

variable {first second : Options} {left right : ByteArray}

theorem nil : Writes [] .empty :=
  ⟨[], rfl, rfl⟩

theorem append (before : Writes first left) (behind : Writes second right) :
    Writes (first ++ second) (left ++ right) := by
  rcases before with ⟨own, written, rfl⟩
  rcases behind with ⟨others, written', rfl⟩
  exact ⟨own ++ others, ofOptions_append.mpr ⟨own, others, written, written', rfl⟩,
    Markup.bytes_concat_append own others⟩

/-- An option whose name nothing is replaced in. -/
theorem single (name : String) {value : Value} {content : Markup} (plain : '_' ∉ name.toList)
    (same : Entity.escape name = name) (prints : Prints value content) :
    Writes (Options.single name value)
      ((" " ++ name ++ "=\"").toUTF8 ++ content.bytes ++ "\"".toUTF8) := by
  refine ⟨[assigned name content], ?_, ?_⟩
  · rw [ofOptions_single, prints, fullName_atom plain]
  · simp [bytes_assigned, same]

theorem text (name value : String) (plain : '_' ∉ name.toList) (same : Entity.escape name = name) :
    Writes (Options.single name (.str value))
      (" " ++ name ++ "=\"" ++ Entity.escape value ++ "\"").toUTF8 := by
  have whole : (" " ++ name ++ "=\"" ++ Entity.escape value ++ "\"").toUTF8 =
      (" " ++ name ++ "=\"").toUTF8 ++ (Markup.escape value).bytes ++ "\"".toUTF8 := by
    simp
  rw [whole]
  exact single name plain same (prints_str value)

end Writes

end Attribute

namespace Element

/-- Attributes of a helper stand in the opening tag in front of those of the
remaining options. -/
theorem opening_eq_ok {name : String} (plain : Entity.escape name = name) {first rest : Options}
    {own : ByteArray} {markup : Markup} (writes : Attribute.Writes first own)
    (opened : opening name (first ++ rest).toValue = .ok markup) :
    ∃ others, Attribute.ofOptions rest = .ok others ∧
      markup.bytes = ("<" ++ name).toUTF8 ++ own ++ (Markup.concat others).bytes ++ ">".toUTF8 := by
  rcases writes with ⟨front, written, rfl⟩
  simp only [opening, Except.bind_eq_ok, Attribute.write_eq_ok, Options.read?_toValue] at opened
  rcases opened with ⟨_, ⟨_, parts, same, found, rfl⟩, done⟩
  cases same
  cases done
  rcases Attribute.ofOptions_append.mp found with ⟨_, others, left, right, rfl⟩
  cases written.symm.trans left
  refine ⟨others, right, ?_⟩
  simp [plain, Markup.bytes_concat_append, ByteArray.append_assoc]

/-- An element that is written with attributes of its own in front of those of
some options. -/
def Consists (name : String) (own : ByteArray) (rest : Options) (content : Value)
    (markup : Markup) : Prop :=
  ∃ others inner, Attribute.ofOptions rest = .ok others ∧ content.print = .ok inner ∧
    markup.bytes = ("<" ++ name).toUTF8 ++ own ++ (Markup.concat others).bytes ++ ">".toUTF8 ++
      inner.bytes ++ ("</" ++ name ++ ">").toUTF8

theorem consists_of_around {name : String} (plain : Entity.escape name = name) {content : Value}
    {first rest : Options} {own : ByteArray} {markup : Markup}
    (writes : Attribute.Writes first own)
    (written : around name content (first ++ rest).toValue = .ok markup) :
    Consists name own rest content markup := by
  simp only [around, Except.bind_eq_ok] at written
  rcases written with ⟨start, opened, inner, printed, done⟩
  cases done
  rcases opening_eq_ok plain writes opened with ⟨others, found, bytes⟩
  refine ⟨others, inner, found, printed, ?_⟩
  simp [bytes, closing, plain, ByteArray.append_assoc]

end Element
end HtmlTemplate
