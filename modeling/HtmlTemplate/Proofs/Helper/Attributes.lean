import HtmlTemplate.Proofs.Escaping.Bytes
import HtmlTemplate.Proofs.Helper.Trusted
import HtmlTemplate.Text.CharClass

namespace HtmlTemplate

/-!
# Attributes are read back

Written attributes can be read without knowing the options: one after the other
is a space and a name, with a value between double quotes or without one.  If
every key consists of the characters of names, the reader finds the attributes
that the options stand for, whatever the values are.

Options stand for one attribute each, except that options below `data`, `aria`
and `phx` are listed with all keys on the way to them, and options that are
switched off for none.
-/

namespace OptionKey

/-- A key as it was given. -/
def text : OptionKey -> String
  | .atom name => name
  | .str text => text

/-- Letters, digits, dashes, underscores, colons and points. -/
def isNameChar (c : Char) : Bool :=
  CharClass.isAlphanumeric c || ['-', '_', ':', '.'].contains c

/-- A key that is not empty and consists of the characters of names. -/
def IsName (key : OptionKey) : Prop :=
  key.text ≠ "" ∧ ∀ c ∈ key.text.toList, isNameChar c = true

instance (key : OptionKey) : Decidable key.IsName :=
  decidable_of_iff (key.text ≠ "" ∧ key.text.toList.all isNameChar = true)
    (and_congr_right fun _ => List.all_eq_true)

end OptionKey

namespace Attribute

/-! ## What options stand for -/

/-- An attribute: the key of its option, the keys above it, the outermost first,
and the bytes of the value, unless it is a bare name. -/
structure Entry where
  above : List OptionKey
  key : OptionKey
  value : Option (List UInt8)

/-- All keys of an attribute. -/
def Entry.keys (entry : Entry) : List OptionKey :=
  entry.above ++ [entry.key]

/-- The names of keys, joined with dashes. -/
def nameOf (keys : List OptionKey) : String :=
  "-".intercalate (keys.map baseName)

mutual

/-- The classes of an entry of a class list, without the empty and the falsy ones. -/
def classesOf : Value -> List String
  | .str text => if text.isEmpty then [] else [text]
  | .atom name => if name.isEmpty then [] else [name]
  | .list items => classesOfAll items
  | _ => []

/-- The classes of a class list. -/
def classesOfAll : List Value -> List String
  | [] => []
  | item :: rest => classesOf item ++ classesOfAll rest

end

/-- Whether lists and maps hold further options. -/
def holdsOptions (above : List OptionKey) (key : OptionKey) : Bool :=
  !above.isEmpty || ["data", "aria", "phx"].any fun name => key.names name

mutual

/-- The attributes that an option stands for. -/
def entries (above : List OptionKey) (key : OptionKey) : Value -> List Entry
  | .list items =>
      if holdsOptions above key then entriesOfPairs (above ++ [key]) items
      else if key = .atom "class" then
        [⟨above, key, some (Utf8.bytes (" ".intercalate (classesOfAll items)))⟩]
      else [⟨above, key, some (Value.list items).plain⟩]
  | .map fields =>
      if holdsOptions above key then entriesOfFields (above ++ [key]) fields
      else [⟨above, key, some (Value.map fields).plain⟩]
  | .bool true => [⟨above, key, none⟩]
  | .bool false => []
  | .nil => []
  | value => [⟨above, key, some value.plain⟩]

/-- The attributes that the pair of a key and a value stands for. -/
def entriesOfPair (above : List OptionKey) : Value -> List Entry
  | .tuple [.atom name, value] => entries above (.atom name) value
  | .tuple [.str text, value] => entries above (.str text) value
  | _ => []

/-- The attributes that the pairs of a list stand for. -/
def entriesOfPairs (above : List OptionKey) : List Value -> List Entry
  | [] => []
  | item :: rest => entriesOfPair above item ++ entriesOfPairs above rest

/-- The attributes that the fields of a map stand for. -/
def entriesOfFields (above : List OptionKey) : List (String × Value) -> List Entry
  | [] => []
  | (name, value) :: rest => entries above (.atom name) value ++ entriesOfFields above rest

end

/-- The attributes that all options together stand for. -/
def entriesOf : Value -> List Entry
  | .list items => entriesOfPairs [] items
  | .map fields => entriesOfFields [] fields
  | _ => []

/-! ## Reading attributes -/

/-- A name and the bytes of a value, unless the name is bare. -/
abbrev Reading := List UInt8 × Option (List UInt8)

/-- Names end before spaces and equals signs, and brackets, quotes and
ampersands are no part of them either. -/
def isNameByte (byte : UInt8) : Bool :=
  !(32 :: 61 :: Entity.significant).contains byte

/-- Whether a byte is no double quote. -/
def isQuotedByte (byte : UInt8) : Bool :=
  byte != 34

/-- The value that a name may have, and what is left. -/
def readValue? : List UInt8 -> Option (Option (List UInt8) × List UInt8)
  | 61 :: 34 :: quoted =>
      match quoted.dropWhile isQuotedByte with
      | [] => none
      | _ :: rest => some (some (Entity.unescapeBytes (quoted.takeWhile isQuotedByte)), rest)
  | rest => some (none, rest)

/-- The first attribute, and what is left. -/
def readOne? : List UInt8 -> Option (Reading × List UInt8)
  | 32 :: text =>
      if text.takeWhile isNameByte = [] then none
      else (readValue? (text.dropWhile isNameByte)).map fun (value, rest) =>
        ((text.takeWhile isNameByte, value), rest)
  | _ => none

theorem length_readValue? {bytes rest : List UInt8} {value : Option (List UInt8)}
    (read : readValue? bytes = some (value, rest)) : rest.length ≤ bytes.length := by
  unfold readValue? at read
  split at read
  · rename_i quoted
    have shorter := (List.dropWhile_suffix isQuotedByte (l := quoted)).length_le
    split at read
    · cases read
    · rename_i found
      cases read
      rw [found] at shorter
      simp only [List.length_cons] at shorter ⊢
      omega
  · cases read
    exact Nat.le_refl _

theorem length_readOne? {bytes rest : List UInt8} {reading : Reading}
    (read : readOne? bytes = some (reading, rest)) : rest.length < bytes.length := by
  unfold readOne? at read
  split at read
  · rename_i text
    split at read
    · cases read
    · rcases Option.map_eq_some_iff.mp read with ⟨⟨value, left⟩, found, same⟩
      cases same
      have named := (List.dropWhile_suffix isNameByte (l := text)).length_le
      have valued := length_readValue? found
      simp only [List.length_cons]
      omega
  · cases read

/-- All attributes, if there is nothing else. -/
def readAll? (bytes : List UInt8) : Option (List Reading) :=
  if bytes = [] then some []
  else
    match _read : readOne? bytes with
    | none => none
    | some (reading, rest) => (readAll? rest).map (reading :: ·)
termination_by bytes.length
decreasing_by exact length_readOne? _read

/-! ## Names -/

theorem not_mem_of_isNameChar {c : Char} (accepted : OptionKey.isNameChar c = true) :
    ∀ byte ∈ String.utf8EncodeChar c, isNameByte byte = true := by
  have ends : ∀ byte ∈ 32 :: 61 :: Entity.significant,
      byte.toNat < 128 ∧ OptionKey.isNameChar (Char.ofNat byte.toNat) = false :=
    List.all_iff_forall_prop.mp (by decide)
  intro byte member
  refine Classical.byContradiction fun refused => ?_
  have special : byte ∈ 32 :: 61 :: Entity.significant := by
    simpa only [isNameByte, Bool.not_eq_true', List.contains_iff_mem, Bool.not_eq_false] using refused
  rcases ends byte special with ⟨ascii, no⟩
  rw [← Utf8.toNat_of_mem_encodeChar member ascii, Char.ofNat_toNat, accepted] at no
  cases no

theorem isNameChar_baseName {key : OptionKey} (named : key.IsName) :
    ∀ c ∈ (baseName key).toList, OptionKey.isNameChar c = true := by
  cases key with
  | str text => exact named.2
  | atom name =>
      intro c member
      rw [baseName, dashed, String.toList_map] at member
      rcases List.mem_map.mp member with ⟨original, inside, rfl⟩
      split
      · decide
      · exact named.2 original inside

theorem baseName_ne_empty {key : OptionKey} (named : key.IsName) : baseName key ≠ "" := by
  cases key with
  | str text => exact named.1
  | atom name =>
      intro empty
      refine named.1 (String.toList_injective ?_)
      have chars := congrArg String.toList empty
      rw [baseName, dashed, String.toList_map] at chars
      exact List.map_eq_nil_iff.mp chars

theorem nameOf_cons_cons (key next : OptionKey) (rest : List OptionKey) :
    nameOf (key :: next :: rest) = baseName key ++ "-" ++ nameOf (next :: rest) := by
  simp only [nameOf, List.map_cons, String.intercalate_cons_cons]

theorem nameOf_singleton (key : OptionKey) : nameOf [key] = baseName key := by
  simp [nameOf]

theorem isNameChar_nameOf {keys : List OptionKey} (named : ∀ key ∈ keys, key.IsName) :
    ∀ c ∈ (nameOf keys).toList, OptionKey.isNameChar c = true := by
  induction keys with
  | nil => exact fun _ impossible => nomatch impossible
  | cons key rest inductionHypothesis =>
      have head := isNameChar_baseName (named key (List.mem_cons_self ..))
      cases rest with
      | nil =>
          rw [nameOf_singleton]
          exact head
      | cons next others =>
          rw [nameOf_cons_cons]
          simp only [String.toList_append, List.forall_mem_append]
          exact ⟨⟨head, List.all_iff_forall_prop.mp (by decide)⟩,
            inductionHypothesis fun other member => named other (List.mem_cons_of_mem _ member)⟩

theorem nameOf_ne_empty {keys : List OptionKey} (named : ∀ key ∈ keys, key.IsName)
    (filled : keys ≠ []) : nameOf keys ≠ "" := by
  cases keys with
  | nil => exact absurd rfl filled
  | cons key rest =>
      have head := baseName_ne_empty (named key (List.mem_cons_self ..))
      cases rest with
      | nil =>
          rw [nameOf_singleton]
          exact head
      | cons next others =>
          rw [nameOf_cons_cons]
          simp [head]

/-- The name that is handed down to the options below some keys. -/
def nameAbove : List OptionKey -> Option String
  | [] => none
  | keys => some (nameOf keys)

theorem nameAbove_cons (key : OptionKey) (rest : List OptionKey) :
    nameAbove (key :: rest) = some (nameOf (key :: rest)) :=
  rfl

theorem nameOf_concat (keys : List OptionKey) (key : OptionKey) :
    nameOf (keys ++ [key]) = fullName (nameAbove keys) key := by
  induction keys with
  | nil => exact nameOf_singleton key
  | cons first rest inductionHypothesis =>
      cases rest with
      | nil =>
          rw [List.singleton_append, nameOf_cons_cons, nameOf_singleton, nameAbove_cons,
            nameOf_singleton, fullName]
      | cons next others =>
          simp only [List.cons_append] at inductionHypothesis ⊢
          rw [nameOf_cons_cons, inductionHypothesis, nameAbove_cons, nameAbove_cons, fullName,
            fullName, nameOf_cons_cons]
          simp only [String.append_assoc]

theorem nameAbove_concat (keys : List OptionKey) (key : OptionKey) :
    nameAbove (keys ++ [key]) = some (fullName (nameAbove keys) key) := by
  rw [← nameOf_concat]
  cases keys <;> rfl

theorem nests_nameAbove (keys : List OptionKey) (key : OptionKey) :
    nests (nameAbove keys) key = holdsOptions keys key := by
  cases keys <;> rfl

/-! ## What is written -/

/-- The bytes of an attribute. -/
def Entry.write (entry : Entry) : List UInt8 :=
  32 :: Entity.escapeBytes (Utf8.bytes (nameOf entry.keys)) ++
    match entry.value with
    | none => []
    | some value => 61 :: 34 :: Entity.escapeBytes value ++ [34]

/-- The bytes of parts in a row. -/
def bytesOf (parts : List Markup) : List UInt8 :=
  (Markup.concat parts).bytes.data.toList

theorem bytesOf_append (first second : List Markup) :
    bytesOf (first ++ second) = bytesOf first ++ bytesOf second :=
  Value.ByteRun.bytes_concat_append first second

theorem bytesOf_bare (above : List OptionKey) (key : OptionKey) :
    bytesOf [bare (fullName (nameAbove above) key)] = Entry.write ⟨above, key, none⟩ := by
  simp only [Entry.write, Entry.keys, nameOf_concat, ← Entity.bytes_escape]
  simp [bytesOf, bare, Utf8.bytes]
  rfl

theorem bytesOf_assigned {content : Markup} {value : List UInt8} (above : List OptionKey)
    (key : OptionKey) (printed : content.bytes.data.toList = Entity.escapeBytes value) :
    bytesOf [assigned (fullName (nameAbove above) key) content] =
      Entry.write ⟨above, key, some value⟩ := by
  simp only [Entry.write, Entry.keys, nameOf_concat, ← Entity.bytes_escape, ← printed]
  simp [bytesOf, bytes_assigned, Utf8.bytes]
  rfl

theorem bytesOf_printed {above : List OptionKey} {key : OptionKey} {value : Value}
    {parts : List Markup} (ordinary : value.Ordinary)
    (written : ofPrinted (fullName (nameAbove above) key) value = .ok parts) :
    bytesOf parts = Entry.write ⟨above, key, some value.plain⟩ := by
  rcases Except.bind_eq_ok.mp written with ⟨content, printed, done⟩
  cases done
  exact bytesOf_assigned above key (Value.bytes_of_print ordinary printed)

/-- Two steps whose parts are joined. -/
theorem joined_eq_ok {α : Type} {first second : Except Error (List α)} {parts : List α} :
    (do
      let own ← first
      let others ← second
      return own ++ others) = .ok parts ↔
      ∃ own others, first = .ok own ∧ second = .ok others ∧ parts = own ++ others := by
  simp only [Except.bind_eq_ok]
  constructor
  · rintro ⟨own, left, others, right, done⟩
    cases done
    exact ⟨own, others, left, right, rfl⟩
  · rintro ⟨own, others, left, right, rfl⟩
    exact ⟨own, left, others, right, rfl⟩

mutual

theorem classNames_eq : (value : Value) -> {classes : List String} -> value.Ordinary ->
    classNames value = .ok classes -> classes = classesOf value
  | .list items, classes, ordinary, named => by
      cases ordinary with
      | list inner =>
          rw [classNames] at named
          rw [classesOf]
          exact classNamesOfAll_eq items inner named
  | .str text, _, _, named => by
      cases named
      rw [classesOf]
  | .atom name, _, _, named => by
      cases named
      rw [classesOf]
  | .nil, _, _, named => by
      cases named
      rfl
  | .bool false, _, _, named => by
      cases named
      rfl
  | .bool true, _, _, named => by cases named
  | .markup _, _, ordinary, _ => by cases ordinary
  | .int _, _, _, named => by cases named
  | .float _, _, _, named => by cases named
  | .tuple _, _, _, named => by cases named
  | .map _, _, _, named => by cases named
  | .date _, _, _, named => by cases named
  | .time _, _, _, named => by cases named
  | .dateTime _, _, _, named => by cases named
  | .zonedDateTime _, _, _, named => by cases named
  | .object _ _, _, _, named => by cases named

theorem classNamesOfAll_eq : (items : List Value) -> {classes : List String} ->
    (∀ item ∈ items, item.Ordinary) -> classNamesOfAll items = .ok classes ->
    classes = classesOfAll items
  | [], _, _, named => by
      cases named
      rfl
  | item :: rest, classes, inner, named => by
      rw [classNamesOfAll] at named
      rcases joined_eq_ok.mp named with ⟨own, others, first, second, rfl⟩
      rw [classesOfAll, classNames_eq item (inner item (List.mem_cons_self ..)) first,
        classNamesOfAll_eq rest (fun other member => inner other (List.mem_cons_of_mem _ member))
          second]

end

/-- A value is written under every key as the attributes that it stands for. -/
def WrittenBelow (value : Value) : Prop :=
  ∀ above key parts, ofOption (nameAbove above) key value = .ok parts ->
    bytesOf parts = (entries above key value).flatMap Entry.write

/-- A pair is written as the attributes that it stands for. -/
def WrittenPair (pair : Value) : Prop :=
  ∀ above parts, ofItem (nameAbove above) pair = .ok parts ->
    bytesOf parts = (entriesOfPair above pair).flatMap Entry.write

theorem bytesOf_ofItems (above : List OptionKey) {items : List Value}
    (each : ∀ item ∈ items, WrittenPair item) {parts : List Markup}
    (written : ofItems (nameAbove above) items = .ok parts) :
    bytesOf parts = (entriesOfPairs above items).flatMap Entry.write := by
  induction items generalizing parts with
  | nil =>
      cases written
      rfl
  | cons item rest inductionHypothesis =>
      rw [ofItems] at written
      rcases joined_eq_ok.mp written with ⟨own, others, first, second, rfl⟩
      have tail := inductionHypothesis
        (fun other member => each other (List.mem_cons_of_mem _ member)) second
      rw [entriesOfPairs, List.flatMap_append, bytesOf_append, tail,
        each item (List.mem_cons_self ..) above own first]

theorem bytesOf_ofEntries (above : List OptionKey) {fields : List (String × Value)}
    (each : ∀ field ∈ fields, WrittenBelow field.2) {parts : List Markup}
    (written : ofEntries (nameAbove above) fields = .ok parts) :
    bytesOf parts = (entriesOfFields above fields).flatMap Entry.write := by
  induction fields generalizing parts with
  | nil =>
      cases written
      rfl
  | cons field rest inductionHypothesis =>
      rw [ofEntries] at written
      rcases joined_eq_ok.mp written with ⟨own, others, first, second, rfl⟩
      have tail := inductionHypothesis
        (fun other member => each other (List.mem_cons_of_mem _ member)) second
      rw [entriesOfFields, List.flatMap_append, bytesOf_append, tail,
        each field (List.mem_cons_self ..) above (.atom field.1) own first]

theorem writtenBelow_list {items : List Value} (inner : ∀ item ∈ items, item.Ordinary)
    (each : ∀ item ∈ items, WrittenPair item) : WrittenBelow (.list items) := by
  intro above key parts written
  rw [ofOption, nests_nameAbove] at written
  rw [entries]
  split at written
  · rename_i nested
    rcases Except.bind_eq_ok.mp written with ⟨_, _, below⟩
    rw [← nameAbove_concat] at below
    rw [if_pos nested]
    exact bytesOf_ofItems (above ++ [key]) each below
  · rename_i plain
    rw [if_neg plain]
    split at written
    · rename_i named
      rcases Except.bind_eq_ok.mp written with ⟨classes, found, done⟩
      cases done
      cases classNamesOfAll_eq items inner found
      have same : key = .atom "class" := by
        cases key with
        | atom name => rw [beq_iff_eq.mp (named : (name == "class") = true)]
        | str text => cases named
      rw [if_pos same, List.flatMap_singleton]
      refine bytesOf_assigned above key ?_
      rw [← Entity.bytes_escape, Markup.bytes_escape]
      rfl
    · rename_i other
      have different : key ≠ .atom "class" := by
        rintro rfl
        exact other rfl
      rw [if_neg different, List.flatMap_singleton]
      exact bytesOf_printed (.list inner) written

theorem writtenBelow_map {fields : List (String × Value)}
    (inner : ∀ field ∈ fields, field.2.Ordinary)
    (each : ∀ field ∈ fields, WrittenBelow field.2) : WrittenBelow (.map fields) := by
  intro above key parts written
  rw [ofOption, nests_nameAbove] at written
  rw [entries]
  split at written
  · rename_i nested
    rw [← nameAbove_concat] at written
    rw [if_pos nested]
    exact bytesOf_ofEntries (above ++ [key]) each written
  · rename_i plain
    rw [if_neg plain, List.flatMap_singleton]
    exact bytesOf_printed (.map inner) written

theorem writtenPair_tuple {items : List Value} (each : ∀ item ∈ items, WrittenBelow item) :
    WrittenPair (.tuple items) := by
  intro above parts written
  unfold ofItem at written
  split at written
  · rename_i same
    cases same
    exact each _ (by simp) above _ parts written
  · rename_i same
    cases same
    exact each _ (by simp) above _ parts written
  · rename_i noAtom noText
    cases written
    unfold entriesOfPair
    split
    · rename_i same
      exact (noAtom _ _ same).elim
    · rename_i same
      exact (noText _ _ same).elim
    · rfl

/-- An ordinary value is written as what it stands for, as an option and as the
pair of one. -/
theorem written_of_ordinary {value : Value} (ordinary : value.Ordinary) :
    WrittenBelow value ∧ WrittenPair value := by
  induction ordinary with
  | list inner inductionHypothesis =>
      refine ⟨writtenBelow_list inner fun item member => (inductionHypothesis item member).2, ?_⟩
      rintro above parts ⟨⟩
      rfl
  | map inner inductionHypothesis =>
      refine ⟨writtenBelow_map inner fun field member => (inductionHypothesis field member).1, ?_⟩
      rintro above parts ⟨⟩
      rfl
  | tuple unmarked inner inductionHypothesis =>
      refine ⟨fun above key parts written => ?_, ?_⟩
      · exact (bytesOf_printed (.tuple unmarked inner) written).trans (List.append_nil _).symm
      · exact writtenPair_tuple fun item member => (inductionHypothesis item member).1
  | nil =>
      constructor
      · rintro above key parts ⟨⟩
        rfl
      · rintro above parts ⟨⟩
        rfl
  | bool flag =>
      constructor
      · intro above key parts written
        cases flag with
        | false =>
            cases written
            rfl
        | true =>
            cases written
            exact (bytesOf_bare above key).trans (List.append_nil _).symm
      · rintro above parts ⟨⟩
        rfl
  | int | float | str | atom | date | time | dateTime | zonedDateTime =>
      constructor
      · intro above key parts written
        exact (bytesOf_printed (by constructor) written).trans (List.append_nil _).symm
      · rintro above parts ⟨⟩
        rfl

theorem ofOptions_of_mapM {items : List Value} {options : Options}
    (read : items.mapM Options.readPair? = some options) :
    ofOptions options = ofItems none items := by
  induction items generalizing options with
  | nil =>
      cases read
      rfl
  | cons item rest inductionHypothesis =>
      rw [List.mapM_cons] at read
      rcases Option.bind_eq_some_iff.mp read with ⟨option, first, read⟩
      rcases Option.bind_eq_some_iff.mp read with ⟨others, second, done⟩
      cases done
      rw [ofItems, ofItem_of_readPair? first, ← inductionHypothesis second]
      rfl

theorem ofOptions_map (fields : List (String × Value)) :
    ofOptions (fields.map fun field => (.atom field.1, field.2)) = ofEntries none fields := by
  induction fields with
  | nil => rfl
  | cons field rest inductionHypothesis =>
      rw [List.map_cons, ofOptions, inductionHypothesis, ofEntries]

/-- Options are written as the attributes that they stand for. -/
theorem bytes_write {attributes : Value} {output : Markup} (ordinary : attributes.Ordinary)
    (written : write attributes = .ok output) :
    output.bytes.data.toList = (entriesOf attributes).flatMap Entry.write := by
  rcases write_eq_ok.mp written with ⟨options, parts, read, found, rfl⟩
  cases ordinary with
  | nil =>
      cases read
      cases found
      rfl
  | list inner =>
      rw [ofOptions_of_mapM read] at found
      have each := fun item member => (written_of_ordinary (inner item member)).2
      exact bytesOf_ofItems [] each found
  | map inner =>
      cases read
      rw [ofOptions_map] at found
      have each := fun field member => (written_of_ordinary (inner field member)).1
      exact bytesOf_ofEntries [] each found
  | _ => cases read

/-! ## What is read back -/

/-- An attribute as it is read. -/
def Entry.reading (entry : Entry) : Reading :=
  (Utf8.bytes (nameOf entry.keys), entry.value)

theorem isNameByte_nameOf {keys : List OptionKey} (named : ∀ key ∈ keys, key.IsName) :
    ∀ byte ∈ Utf8.bytes (nameOf keys), isNameByte byte = true := by
  rw [Utf8.bytes_eq_flatMap]
  intro byte member
  rcases List.mem_flatMap.mp member with ⟨c, inside, found⟩
  exact not_mem_of_isNameChar (isNameChar_nameOf named c inside) byte found

theorem bytes_ne_nil {text : String} (filled : text ≠ "") : Utf8.bytes text ≠ [] := by
  intro empty
  refine filled (String.toByteArray_inj.mp ?_)
  exact ByteArray.ext (Array.toList_inj.mp empty)

theorem escapeBytes_nameOf {keys : List OptionKey} (named : ∀ key ∈ keys, key.IsName) :
    Entity.escapeBytes (Utf8.bytes (nameOf keys)) = Utf8.bytes (nameOf keys) := by
  refine Entity.escapeBytes_of_forall fun byte member special => ?_
  have accepted := isNameByte_nameOf named byte member
  have inside : byte ∈ 32 :: 61 :: Entity.significant :=
    List.mem_cons_of_mem _ (List.mem_cons_of_mem _ special)
  rw [isNameByte, List.contains_iff_mem.mpr inside] at accepted
  cases accepted

theorem readValue?_write (value rest : List UInt8) :
    readValue? (61 :: 34 :: Entity.escapeBytes value ++ 34 :: rest) = some (some value, rest) := by
  have quoted : ∀ byte ∈ Entity.escapeBytes value, isQuotedByte byte = true := by
    intro byte member
    have bracket := Entity.not_mem_delimiters_escapeBytes value byte member
    refine bne_iff_ne.mpr ?_
    rintro rfl
    exact bracket (by decide)
  have ends : isQuotedByte 34 = false := rfl
  simp only [List.cons_append, readValue?, List.takeWhile_append_of_pos quoted,
    List.dropWhile_append_of_pos quoted, List.takeWhile_cons, List.dropWhile_cons, ends,
    Bool.false_eq_true, if_false, List.append_nil, Entity.unescapeBytes_escapeBytes]

/-- What may follow an attribute: nothing, or the space of the next one. -/
def Follows (rest : List UInt8) : Prop :=
  rest = [] ∨ ∃ tail, rest = 32 :: tail

theorem readOne?_cons {name after rest : List UInt8} {value : Option (List UInt8)}
    (named : ∀ byte ∈ name, isNameByte byte = true) (filled : name ≠ [])
    (ends : ∀ byte ∈ after.head?, isNameByte byte = false)
    (read : readValue? after = some (value, rest)) :
    readOne? (32 :: (name ++ after)) = some ((name, value), rest) := by
  have taken : (name ++ after).takeWhile isNameByte = name := by
    rw [List.takeWhile_append_of_pos named]
    cases after with
    | nil => simp
    | cons byte tail => simp [ends byte rfl]
  have left : (name ++ after).dropWhile isNameByte = after := by
    rw [List.dropWhile_append_of_pos named]
    cases after with
    | nil => rfl
    | cons byte tail => simp [ends byte rfl]
  simp only [readOne?, taken, left, if_neg filled, read, Option.map_some]

theorem readOne?_write {entry : Entry} (named : ∀ key ∈ entry.keys, key.IsName)
    {rest : List UInt8} (follows : Follows rest) :
    readOne? (entry.write ++ rest) = some (entry.reading, rest) := by
  have name := isNameByte_nameOf named
  have filled : Utf8.bytes (nameOf entry.keys) ≠ [] :=
    bytes_ne_nil (nameOf_ne_empty named
      (List.append_ne_nil_of_right_ne_nil _ (List.cons_ne_nil _ _)))
  rw [Entry.write, escapeBytes_nameOf named, Entry.reading]
  cases entry.value with
  | none =>
      rw [List.append_nil, List.cons_append]
      rcases follows with rfl | ⟨tail, rfl⟩
      · exact readOne?_cons name filled (fun _ impossible => nomatch impossible) rfl
      · refine readOne?_cons name filled (fun byte first => ?_) rfl
        cases first
        rfl
  | some value =>
      simp only [List.cons_append, List.append_assoc]
      refine readOne?_cons name filled (fun byte first => ?_) (readValue?_write value rest)
      cases first
      rfl

/-- Attributes that were written are read back. -/
theorem readAll?_write {entries : List Entry}
    (named : ∀ entry ∈ entries, ∀ key ∈ entry.keys, key.IsName) :
    readAll? (entries.flatMap Entry.write) = some (entries.map Entry.reading) := by
  induction entries with
  | nil =>
      rw [List.flatMap_nil, readAll?]
      rfl
  | cons entry rest inductionHypothesis =>
      have follows : Follows (rest.flatMap Entry.write) := by
        cases rest with
        | nil => exact .inl rfl
        | cons next others => exact .inr ⟨_, rfl⟩
      have first := readOne?_write (named entry (List.mem_cons_self ..)) follows
      have later := inductionHypothesis fun other member =>
        named other (List.mem_cons_of_mem _ member)
      have filled : entry.write ++ rest.flatMap Entry.write ≠ [] := List.cons_ne_nil _ _
      rw [List.flatMap_cons, readAll?, if_neg filled]
      split
      · rename_i nothing
        rw [first] at nothing
        cases nothing
      · rename_i found
        rw [first] at found
        cases found
        rw [later]
        rfl

/-- Reading written options gives the attributes that they stand for, and there
is nothing else. -/
theorem attributes_read_back {attributes : Value} {output : Markup} (ordinary : attributes.Ordinary)
    (named : ∀ entry ∈ entriesOf attributes, ∀ key ∈ entry.keys, key.IsName)
    (written : write attributes = .ok output) :
    readAll? output.bytes.data.toList = some ((entriesOf attributes).map Entry.reading) := by
  rw [bytes_write ordinary written]
  exact readAll?_write named

/-- A value that tries to end the attribute, options in options below `data`, a
class list, a bare name and bytes that are no text. -/
theorem attributes_read_back_mixed :
    let inner : Value := .keywords [("user_id", .int 7), ("on", .map [("a", .str "&quot;")])]
    let attributes : Value := .keywords [("title", .str "\" x=\"<b>"), ("data", inner),
      ("class", .list [.str "a", .nil, .list [.atom "b", .str ""]]), ("hidden", .bool true),
      ("disabled", .bool false), ("alt", .list [.int 255, .int 34, .str "'"])]
    ∃ output, attributes.Ordinary ∧
      (∀ entry ∈ entriesOf attributes, ∀ key ∈ entry.keys, key.IsName) ∧
      write attributes = .ok output ∧
      readAll? output.bytes.data.toList = some [
        (Utf8.bytes "title", some (Utf8.bytes "\" x=\"<b>")),
        (Utf8.bytes "data-user-id", some (Utf8.bytes "7")),
        (Utf8.bytes "data-on-a", some (Utf8.bytes "&quot;")),
        (Utf8.bytes "class", some (Utf8.bytes "a b")),
        (Utf8.bytes "hidden", none),
        (Utf8.bytes "alt", some [255, 34, 39])] := by
  intro inner attributes
  have ordinary : attributes.Ordinary := by
    refine .keywords (by decide) ?_
    simp only [List.forall_mem_cons]
    refine ⟨.str _, .keywords (by decide) ?_, .list ?_, .bool _, .bool _, .list ?_, nofun⟩
    · simp only [List.forall_mem_cons]
      exact ⟨.int _, .map (List.forall_mem_singleton.mpr (.str _)), nofun⟩
    · simp only [List.forall_mem_cons]
      refine ⟨.str _, .nil, .list ?_, nofun⟩
      exact List.forall_mem_cons.mpr ⟨.atom _, List.forall_mem_singleton.mpr (.str _)⟩
    · simp only [List.forall_mem_cons]
      exact ⟨.int _, .int _, .str _, nofun⟩
  have named : ∀ entry ∈ entriesOf attributes, ∀ key ∈ entry.keys, key.IsName := by
    decide +kernel
  refine ⟨_, ordinary, named, rfl, ?_⟩
  exact (attributes_read_back ordinary named rfl).trans (by decide +kernel)

end Attribute
end HtmlTemplate
