import HtmlTemplate.Proofs.Concatenation.Blocks
import HtmlTemplate.Syntax.Source

namespace HtmlTemplate
namespace Node

/-!
# Two sources in a row

A source that is read to its end is read the same in front of another source,
up to its last node.  If that is a text, the text may go on with the text at the
beginning of the other source, and the two are one node.  This holds unless an
opening delimiter comes into being where the sources meet.
-/

open Reader

variable {source rest : List Char} {node : Node} {room : Nat}

/-! ## Splitting -/

section Splitting

variable {text before content : List Char}

/-- What is in front of the place and what stands there. -/
theorem eq_of_splitAt (inside : text ≠ [])
    (found : splitAt? text before source = some (content, rest)) :
    ∃ passed, content = before.reverse ++ passed ∧ source = passed ++ rest ∧ text <+: rest := by
  induction source generalizing before with
  | nil =>
      simp only [splitAt?, List.isEmpty_iff, if_neg inside, reduceCtorEq] at found
  | cons c tail inductionHypothesis =>
      by_cases begins : text.isPrefixOf (c :: tail) = true
      · simp only [splitAt?, if_pos begins, Option.some.injEq, Prod.mk.injEq] at found
        rcases found with ⟨rfl, rfl⟩
        exact ⟨[], (List.append_nil _).symm, rfl, List.isPrefixOf_iff_prefix.mp begins⟩
      · rw [splitAt?, if_neg begins] at found
        rcases inductionHypothesis found with ⟨passed, rfl, rfl, there⟩
        exact ⟨c :: passed, by simp, rfl, there⟩

/-- A place that is found stays the first one. -/
theorem splitAt_append (inside : text ≠ [])
    (found : splitAt? text before source = some (content, rest)) (extra : List Char) :
    splitAt? text before (source ++ extra) = some (content, rest ++ extra) := by
  induction source generalizing before with
  | nil =>
      simp only [splitAt?, List.isEmpty_iff, if_neg inside, reduceCtorEq] at found
  | cons c tail inductionHypothesis =>
      by_cases begins : text.isPrefixOf (c :: tail) = true
      · simp only [splitAt?, if_pos begins, Option.some.injEq, Prod.mk.injEq] at found
        rcases found with ⟨rfl, rfl⟩
        have longer : text.isPrefixOf (c :: (tail ++ extra)) = true := by
          rw [List.isPrefixOf_iff_prefix] at begins ⊢
          exact begins.trans (List.prefix_append (c :: tail) extra)
        rw [List.cons_append, splitAt?, if_pos longer]
      · rw [splitAt?, if_neg begins] at found
        -- The text is found later on, so the source is long enough to tell.
        rcases eq_of_splitAt inside found with ⟨passed, _, rfl, there⟩
        have later : ¬text.isPrefixOf (c :: (passed ++ rest ++ extra)) = true := by
          rw [List.isPrefixOf_iff_prefix] at begins ⊢
          intro early
          refine begins (List.prefix_of_prefix_length_le early
            (List.prefix_append (c :: (passed ++ rest)) extra) ?_)
          have size := there.length_le
          simp only [List.length_cons, List.length_append]
          omega
        rw [List.cons_append, splitAt?, if_neg later]
        exact inductionHypothesis found

theorem splitAt_eq_map (text before source : List Char) :
    splitAt? text before source =
      (splitAt? text [] source).map fun found => (before.reverse ++ found.1, found.2) := by
  induction source generalizing before with
  | nil =>
      simp only [splitAt?]
      split
      · simp
      · rfl
  | cons c tail inductionHypothesis =>
      simp only [splitAt?]
      split
      · simp
      · rw [inductionHypothesis (c :: before), inductionHypothesis [c], Option.map_map]
        refine congrArg (fun wrap => (splitAt? text [] tail).map wrap) (funext fun found => ?_)
        simp

end Splitting

/-- The opening delimiter begins in neither part nor between them. -/
def Apart (first second : List Char) : Prop :=
  ¬(first.getLast? = some '<' ∧ second.head? = some '%')

theorem Apart.of_suffix {second : List Char} (apart : Apart source second)
    (suffix : rest <:+ source) : Apart rest second := by
  rintro ⟨last, head⟩
  rcases suffix with ⟨passed, rfl⟩
  refine apart ⟨?_, head⟩
  rw [List.getLast?_append, last, Option.some_or]

theorem splitAt_of_none {before second : List Char}
    (none : splitAt? ['<', '%'] before source = none) (apart : Apart source second) :
    splitAt? ['<', '%'] before (source ++ second) =
      splitAt? ['<', '%'] (source.reverse ++ before) second := by
  induction source generalizing before with
  | nil => rfl
  | cons c tail inductionHypothesis =>
      simp only [splitAt?] at none
      split at none
      · cases none
      · rename_i different
        have still : ¬(['<', '%'] : List Char).isPrefixOf (c :: (tail ++ second)) = true := by
          rw [List.isPrefixOf_iff_prefix] at different ⊢
          intro begins
          cases tail with
          | nil =>
              -- The delimiter would begin at the end of the first part.
              rcases begins with ⟨after, same⟩
              cases same
              exact apart ⟨rfl, rfl⟩
          | cons d others =>
              refine different (List.prefix_of_prefix_length_le begins
                (List.prefix_append (c :: d :: others) second) ?_)
              simp
        have shorter : Apart tail second := apart.of_suffix (List.suffix_cons ..)
        rw [List.cons_append, splitAt?, if_neg still, inductionHypothesis none shorter,
          List.reverse_cons, List.append_assoc, List.singleton_append]

/-! ## Texts -/

theorem readText_of_split (delimiters : Delimiters) {content : List Char} (inside : content ≠ [])
    (found : splitAt? delimiters.opening.toList [] source = some (content, rest)) :
    readText delimiters source = .ok (.text (String.ofList content)) rest := by
  cases source with
  | nil =>
      simp only [splitAt?] at found
      split at found
      · cases found
        exact absurd rfl inside
      · cases found
  | cons c tail =>
      have later : ¬delimiters.opening.toList.isPrefixOf (c :: tail) = true := by
        intro begins
        simp only [splitAt?, if_pos begins, Option.some.injEq, Prod.mk.injEq] at found
        exact inside found.1.symm
      simp only [readText, List.isEmpty_cons, Bool.false_eq_true, if_false, if_neg later, found]

theorem readText_of_none (delimiters : Delimiters) (inside : source ≠ [])
    (none : splitAt? delimiters.opening.toList [] source = none) :
    readText delimiters source = .ok (.text (String.ofList source)) [] := by
  cases source with
  | nil => exact absurd rfl inside
  | cons c tail =>
      have later : ¬delimiters.opening.toList.isPrefixOf (c :: tail) = true := by
        intro begins
        simp only [splitAt?, if_pos begins, reduceCtorEq] at none
      simp only [readText, List.isEmpty_cons, Bool.false_eq_true, if_false, if_neg later, none]

/-- A source begins with a delimiter that stands for itself, with a tag or a
comment, or with some other text. -/
inductive Beginning : List Char -> Prop where
  | nothing : Beginning []
  | escape (rest : List Char) : Beginning ('<' :: '%' :: '%' :: rest)
  | tag {inside : List Char} (other : inside.head? ≠ some '%') : Beginning ('<' :: '%' :: inside)
  | split {source content rest : List Char} (filled : content ≠ [])
      (found : splitAt? ['<', '%'] [] source = some (content, rest)) : Beginning source
  | whole {source : List Char} (filled : source ≠ [])
      (absent : splitAt? ['<', '%'] [] source = none) : Beginning source

theorem beginning (source : List Char) : Beginning source := by
  cases source with
  | nil => exact .nothing
  | cons c tail =>
      cases found : splitAt? ['<', '%'] [] (c :: tail) with
      | none => exact .whole (List.cons_ne_nil _ _) found
      | some pair =>
          rcases pair with ⟨content, rest⟩
          rcases eq_of_splitAt (by decide) found with ⟨_, rfl, same, there⟩
          by_cases filled : content = []
          · subst filled
            rcases there with ⟨inside, rfl⟩
            rw [same]
            by_cases percent : inside.head? = some '%'
            · rcases List.head?_eq_some_iff.mp percent with ⟨others, rfl⟩
              exact .escape others
            · exact .tag percent
          · exact .split filled found

theorem readText_of_tag (inside : List Char) (other : inside.head? ≠ some '%') :
    ∃ place, readText .standard ('<' :: '%' :: inside) = .miss place := by
  refine ⟨'<' :: '%' :: inside, ?_⟩
  cases inside with
  | nil => rfl
  | cons c tail =>
      have different : c ≠ '%' := by
        rintro rfl
        exact other rfl
      have start : Delimiters.standard.opening.toList = ['<', '%'] := rfl
      have begins : (['<', '%'] : List Char).isPrefixOf ('<' :: '%' :: c :: tail) = true := rfl
      simp only [readText, start, List.isEmpty_cons, Bool.false_eq_true, if_false, if_pos begins]
      split
      · rename_i same
        cases same
        exact absurd rfl different
      · rfl

/-! ## Comments -/

theorem readComment_of_ne (inside : List Char) (other : inside.head? ≠ some '#') :
    ∃ place, readComment .standard ('<' :: '%' :: inside) = .miss place := by
  have missed : char '#' inside = .miss inside := by
    cases inside with
    | nil => rfl
    | cons c tail =>
        refine if_neg ?_
        rintro rfl
        exact other rfl
  exact ⟨_, (bind_of_ok rfl).trans ((bind_of_ok (opening_tag inside)).trans (bind_of_miss missed))⟩

section Split

variable {inside content : List Char}

theorem readComment_of_split (found : splitAt? ['%', '>'] [] inside = some (content, rest)) :
    readComment .standard ('<' :: '%' :: '#' :: inside) =
      .ok (.comment (String.ofList content)) (rest.drop 2) := by
  have closing : Delimiters.standard.closing.toList = ['%', '>'] := rfl
  have hash : char '#' ('#' :: inside) = .ok () inside := rfl
  refine (bind_of_ok rfl).trans ((bind_of_ok (opening_tag _)).trans ((bind_of_ok hash).trans ?_))
  simp only [closing, found]
  rfl

theorem readComment_of_none (none : splitAt? ['%', '>'] [] inside = none) :
    readComment .standard ('<' :: '%' :: '#' :: inside) =
      .fail ('<' :: '%' :: '#' :: inside) (some .unclosedComment) := by
  have closing : Delimiters.standard.closing.toList = ['%', '>'] := rfl
  have hash : char '#' ('#' :: inside) = .ok () inside := rfl
  refine (bind_of_ok rfl).trans ((bind_of_ok (opening_tag _)).trans ((bind_of_ok hash).trans ?_))
  simp only [closing, none]

end Split

/-- A comment ends at its first closing delimiter, whatever follows. -/
theorem readComment_cases (inside : List Char) :
    (∃ content rest, rest <:+ inside ∧ ∀ extra,
      readComment .standard ('<' :: '%' :: '#' :: (inside ++ extra)) =
        .ok (.comment (String.ofList content)) (rest ++ extra)) ∨
      ∃ place cause, readComment .standard ('<' :: '%' :: '#' :: inside) = .fail place cause := by
  cases found : splitAt? ['%', '>'] [] inside with
  | none => exact .inr ⟨_, _, readComment_of_none found⟩
  | some pair =>
      rcases pair with ⟨content, rest⟩
      rcases eq_of_splitAt (by decide) found with ⟨passed, _, rfl, tail, rfl⟩
      refine .inl ⟨content, tail, ?_, fun extra => ?_⟩
      · exact (List.suffix_append ['%', '>'] tail).trans (List.suffix_append passed _)
      · exact readComment_of_split (splitAt_append (by decide) found extra)

/-! ## Tags -/

section Items

variable {statement : Nat -> Bool -> Reader Node}
  (each : ∀ less printed, room = less + 1 -> Carries Fenced Anything (statement less printed))

/-- A node of a template or of a block. -/
def readItem (room : Nat) (statement : Nat -> Bool -> Reader Node) : Reader Node :=
  readText .standard <|> readComment .standard <|> readTag .standard room statement

/-- A comment is neither text nor a tag. -/
theorem readItem_comment (inside : List Char) :
    readItem room statement ('<' :: '%' :: '#' :: inside) =
      readComment .standard ('<' :: '%' :: '#' :: inside) := by
  rcases readText_of_tag ('#' :: inside) (by simp) with ⟨_, noText⟩
  rw [readItem, orElse_of_miss noText]
  rcases readComment_cases inside with ⟨content, rest, _, reads⟩ | ⟨place, cause, failed⟩
  · have whole := reads []
    rw [List.append_nil, List.append_nil] at whole
    rw [whole, orElse_of_ok whole]
  · rw [failed, orElse_of_fail failed]

theorem readItem_tag (inside : List Char) (percent : inside.head? ≠ some '%')
    (hash : inside.head? ≠ some '#') :
    readItem room statement ('<' :: '%' :: inside) =
      readTag .standard room statement ('<' :: '%' :: inside) := by
  rcases readText_of_tag inside percent with ⟨_, noText⟩
  rcases readComment_of_ne inside hash with ⟨_, noComment⟩
  exact (orElse_of_miss noText).trans (orElse_of_miss noComment)

section Each

include each

/-- What follows the opening delimiter of a tag. -/
theorem passes_inside (start start' : List Char) : Passes Fenced Anything
    (do
      let printed ← optional (char '=')
      notAhead (terminator room)
      match room with
      | 0 => failAt start .tooDeep
      | room + 1 => statement room printed.isSome)
    (do
      let printed ← optional (char '=')
      notAhead (terminator room)
      match room with
      | 0 => failAt start' .tooDeep
      | room + 1 => statement room printed.isSome) := by
  have sign : Steady (char '=') := .char (by decide) (by decide)
  refine Passes.bind sign.optional.carries fun printed => ?_
  refine Passes.bind (steady_terminator room).notAhead.carries fun _ => ?_
  cases room with
  | zero => exact Carries.failAt start start' _
  | succ less => exact each less printed.isSome rfl

theorem carries_readTag : Carries Tagged Anything (readTag .standard room statement) :=
  .here fun start start' => Passes.bind carries_opening fun _ => passes_inside each start start'

theorem suffix_of_readTag {inside : List Char}
    (read : readTag .standard room statement ('<' :: '%' :: inside) = .ok node rest) :
    rest <:+ inside := by
  rcases eq_ok_of_bind read with ⟨start, _, begun, read⟩
  cases begun
  rcases eq_ok_of_bind read with ⟨_, _, opened, read⟩
  cases opening_eq_ok_iff.mp opened
  exact (passes_inside each _ []).suffix read

/-- A node is read the same with more text after it, unless it is a text that
goes up to the end of the source. -/
theorem readItem_grows (read : readItem room statement source = .ok node rest) :
    rest <:+ source ∧ rest.length < source.length ∧
      ((∀ extra, readItem room statement (source ++ extra) = .ok node (rest ++ extra)) ∨
        splitAt? ['<', '%'] [] source = none ∧ node = .text (String.ofList source) ∧ rest = []) := by
  cases beginning source with
  | nothing => cases read
  | escape after =>
      cases read
      refine ⟨List.suffix_append ['<', '%', '%'] _, ?_, .inl fun extra => orElse_of_ok rfl⟩
      simp only [List.length_cons]
      omega
  | split filled found =>
      rename_i content after
      rw [readItem, orElse_of_ok (readText_of_split .standard filled found)] at read
      cases read
      rcases eq_of_splitAt (by decide) found with ⟨_, rfl, rfl, _⟩
      refine ⟨List.suffix_append _ _, ?_, .inl fun extra => ?_⟩
      · have size := List.length_pos_iff.mpr filled
        rw [List.length_append]
        omega
      · exact orElse_of_ok (readText_of_split .standard filled (splitAt_append (by decide) found extra))
  | whole filled absent =>
      rw [readItem, orElse_of_ok (readText_of_none .standard filled absent)] at read
      cases read
      exact ⟨List.nil_suffix, List.length_pos_iff.mpr filled, .inr ⟨absent, rfl, rfl⟩⟩
  | @tag inside percent =>
      by_cases hash : inside.head? = some '#'
      · rcases List.head?_eq_some_iff.mp hash with ⟨after, rfl⟩
        rw [readItem_comment] at read
        rcases readComment_cases after with ⟨content, last, part, reads⟩ | ⟨place, cause, failed⟩
        · have whole := reads []
          rw [List.append_nil, List.append_nil, read] at whole
          cases whole
          refine ⟨part.trans (List.suffix_append ['<', '%', '#'] after), ?_, .inl fun extra => ?_⟩
          · have size := part.length_le
            simp only [List.length_cons]
            omega
          · exact (readItem_comment (after ++ extra)).trans (reads extra)
        · rw [failed] at read
          cases read
      · rw [readItem_tag inside percent hash] at read
        have part := suffix_of_readTag each read
        rcases (carries_readTag each).grows read trivial with ⟨⟨_, same, ended⟩, longer⟩
        cases same
        refine ⟨part.trans (List.suffix_append ['<', '%'] inside), ?_, .inl fun extra => ?_⟩
        · have size := part.length_le
          simp only [List.length_cons]
          omega
        · cases inside with
          | nil => cases ended
          | cons c tail => exact (readItem_tag (c :: (tail ++ extra)) percent hash).trans (longer extra)

theorem shortens_readItem : Shortens (readItem room statement) :=
  ⟨fun read => (readItem_grows each read).2.1⟩

theorem carries_readItem : Carries (· ≠ []) (· ≠ []) (readItem room statement) := by
  constructor
  · intro source node rest read
    exact (readItem_grows each read).1
  · intro source node rest read filled
    rcases readItem_grows each read with ⟨_, shorter, longer | ⟨_, _, rfl⟩⟩
    · refine ⟨?_, longer⟩
      rintro rfl
      exact Nat.not_lt_zero _ shorter
    · exact absurd rfl filled

end Each

/-! ## Blocks -/

/-- What closes or continues a block does not begin with an equals sign. -/
theorem terminator_equals {inside : List Char} {result : Unit} :
    terminator room ('=' :: inside) ≠ .ok result rest := by
  intro read
  have noWord (word : String) : Lexeme.keyword word ('=' :: inside) = .miss ('=' :: inside) :=
    Lexeme.keyword_of_head (by decide) word
  have noLiteral : Lexeme.patternLiteral ('=' :: inside) = .miss ('=' :: inside) := rfl
  have noName : Pattern.readName ('=' :: inside) = .miss ('=' :: inside) :=
    Pattern.readName_of_head (by decide) inside
  have noPattern (pattern : Pattern) (after : List Char) :
      Pattern.read room ('=' :: inside) ≠ .ok pattern after := by
    cases room with
    | zero =>
        rw [Pattern.read_zero_of_none noLiteral noName]
        exact nofun
    | succ less =>
        rw [Pattern.read_succ_of_none noLiteral noName,
          orElse_of_miss (bind_of_miss (Pattern.readItems_of_miss rfl)),
          bind_of_miss (Pattern.readItems_of_miss rfl)]
        exact nofun
  have alone : terminator room ('=' :: inside) =
      (do let _ ← clauseHead room : Reader Unit) ('=' :: inside) :=
    (bind_of_ok rfl).trans ((orElse_of_miss (noWord "end")).trans (orElse_of_miss (noWord "else")))
  rw [alone] at read
  rcases eq_ok_of_bind read with ⟨_, _, head, _⟩
  rcases eq_ok_of_bind head with ⟨_, _, found, _⟩
  rcases eq_ok_of_bind found with ⟨_, _, skipped, found⟩
  cases skipped
  rcases eq_ok_of_bind found with ⟨pattern, after, found, _⟩
  exact noPattern pattern after found

/-- No node begins where a tag closes or continues a block, and none begins
there with more text either. -/
theorem readItem_misses {place : List Char} (stops : Stops room source)
    (missed : readItem room statement source = .miss place) (extra : List Char) :
    ∃ place, readItem room statement (source ++ extra) = .miss place := by
  rcases stops with ⟨inside, last, rfl, ended, found⟩
  cases inside with
  | nil => cases ended
  | cons c tail =>
      have noEscape : c ≠ '%' := by
        rintro rfl
        cases missed
      have noHash : c ≠ '#' := by
        rintro rfl
        rw [readItem_comment] at missed
        rcases readComment_cases tail with ⟨_, _, _, reads⟩ | ⟨_, _, failed⟩
        · have whole := reads []
          rw [List.append_nil, missed] at whole
          cases whole
        · rw [failed] at missed
          cases missed
      have noSign : c ≠ '=' := by
        rintro rfl
        exact terminator_equals found
      have unsigned : char '=' (c :: (tail ++ extra)) = .miss (c :: (tail ++ extra)) :=
        if_neg noSign
      have terminated : terminator room (c :: (tail ++ extra)) = .ok () (last ++ extra) :=
        (steady_terminator room).reads ended found extra
      have ahead : notAhead (terminator room) (c :: (tail ++ extra)) =
          .miss (c :: (tail ++ extra)) := by
        simp only [notAhead, terminated]
      refine ⟨c :: (tail ++ extra),
        (readItem_tag _ (by simpa using noEscape) (by simpa using noHash)).trans ?_⟩
      refine (bind_of_ok rfl).trans ((bind_of_ok (opening_tag _)).trans ?_)
      exact (bind_of_ok (optional_of_miss unsigned)).trans (bind_of_miss ahead)

theorem contained_many
    (each : ∀ less printed, room = less + 1 -> Carries Fenced Anything (statement less printed)) :
    Contained room (many (readItem room statement)) := by
  have shortens := shortens_readItem each
  constructor
  · refine ((carries_readItem each).many shortens (fun _ => ne_nil_of_stops) ?_).mono
      (fun _ _ => trivial) fun _ stops => stops
    intro source place stops missed
    exact readItem_misses stops missed
  · intro source place missed
    rcases shortens.many_cases source with
      ⟨values, rest, _, ⟨_, _, all⟩ | ⟨_, _, _, all⟩⟩
    · rw [missed] at all
      cases all
    · rw [missed] at all
      cases all

end Items

/-- What a tag holds, given the room around it. -/
def statementOf : (room : Nat) -> Nat -> Bool -> Reader Node
  | 0 => fun _ _ => miss
  | room + 1 => fun _ printed => readStatement .standard room (readAll .standard room) printed

theorem readAll_eq (room : Nat) :
    readAll .standard room = many (readItem room (statementOf room)) := by
  cases room with
  | zero => rfl
  | succ room => rfl

theorem carries_statementOf (room : Nat) : ∀ less printed, room = less + 1 ->
    Carries Fenced Anything (statementOf room less printed) := by
  induction room with
  | zero =>
      intro less printed impossible
      cases impossible
  | succ room inductionHypothesis =>
      intro less printed _
      have contained := contained_many inductionHypothesis
      rw [← readAll_eq] at contained
      exact carries_readStatement contained printed

/-! ## Whole sources -/

/-- The nodes of two sources one after the other, where two texts that meet are
one text. -/
inductive Joined : List Node -> List Node -> List Node -> Prop where
  | apart (second : List Node) : Joined [] second second
  | merged (left right : String) (second : List Node) :
      Joined [.text left] (.text right :: second) (.text (left ++ right) :: second)
  | step (node : Node) {first second whole : List Node} (joined : Joined first second whole) :
      Joined (node :: first) second (node :: whole)

section Seam

variable {second : List Char} {nodes others : List Node}
  {statement : Nat -> Bool -> Reader Node}

theorem eq_nil_of_rounds (rounds : Rounds (readItem room statement) [] nodes rest) :
    nodes = [] := by
  cases rounds with
  | done => rfl
  | round read shorter _ => exact absurd shorter (Nat.not_lt_zero _)

/-- Text in front of a source without a tag is one text with it. -/
theorem rounds_text_of_none (filled : source ≠ [])
    (split : splitAt? ['<', '%'] [] (source ++ second) = none)
    (found : splitAt? ['<', '%'] [] second = none)
    (follow : Rounds (readItem room statement) second others []) :
    ∃ whole, Joined [.text (String.ofList source)] others whole ∧
      Rounds (readItem room statement) (source ++ second) whole [] := by
  have whole : source ++ second ≠ [] := by
    simp [filled]
  have all : readItem room statement (source ++ second) =
      .ok (.text (String.ofList (source ++ second))) [] :=
    orElse_of_ok (readText_of_none .standard whole split)
  have joined : Rounds (readItem room statement) (source ++ second)
      [.text (String.ofList (source ++ second))] [] :=
    .round all (List.length_pos_iff.mpr whole) (.done [])
  cases follow with
  | done =>
      rw [List.append_nil] at joined ⊢
      exact ⟨_, .step _ (.apart []), joined⟩
  | round read shorter rounds =>
      have text : readItem room statement second = .ok (.text (String.ofList second)) [] :=
        orElse_of_ok (readText_of_none .standard (List.ne_nil_of_length_pos (by omega)) found)
      rw [text] at read
      cases read
      cases eq_nil_of_rounds rounds
      rw [String.ofList_append] at joined
      exact ⟨_, .merged _ _ [], joined⟩

/-- Text in front of a source with a tag becomes a part of the text in front of
the tag. -/
theorem rounds_text_of_split (filled : source ≠ []) {content after : List Char}
    (split : splitAt? ['<', '%'] [] (source ++ (content ++ after)) =
      some (source ++ content, after))
    (found : splitAt? ['<', '%'] [] (content ++ after) = some (content, after))
    (follow : Rounds (readItem room statement) (content ++ after) others []) :
    ∃ whole, Joined [.text (String.ofList source)] others whole ∧
      Rounds (readItem room statement) (source ++ (content ++ after)) whole [] := by
  have size := List.length_pos_iff.mpr filled
  have all : readItem room statement (source ++ (content ++ after)) =
      .ok (.text (String.ofList (source ++ content))) after :=
    orElse_of_ok (readText_of_split .standard (by simp [filled]) split)
  have shorter : after.length < (source ++ (content ++ after)).length := by
    simp only [List.length_append]
    omega
  by_cases empty : content = []
  · subst empty
    rw [List.append_nil] at all
    exact ⟨_, .step _ (.apart others), .round all shorter follow⟩
  · have text : readItem room statement (content ++ after) =
        .ok (.text (String.ofList content)) after :=
      orElse_of_ok (readText_of_split .standard empty found)
    generalize beginning : content ++ after = second at follow text
    cases follow with
    | done => exact absurd (List.append_eq_nil_iff.mp beginning).1 empty
    | round read _ rounds =>
        rw [text] at read
        cases read
        rw [String.ofList_append] at all
        rw [← beginning]
        exact ⟨_, .merged _ _ _, .round all shorter rounds⟩

/-- Text in front of a source becomes a part of its first text, or a node of its
own if the source does not begin with one. -/
theorem rounds_append_text (filled : source ≠ [])
    (absent : splitAt? ['<', '%'] [] source = none) (apart : Apart source second)
    (follow : Rounds (readItem room statement) second others []) :
    ∃ whole, Joined [.text (String.ofList source)] others whole ∧
      Rounds (readItem room statement) (source ++ second) whole [] := by
  have split : splitAt? ['<', '%'] [] (source ++ second) =
      (splitAt? ['<', '%'] [] second).map fun found => (source ++ found.1, found.2) := by
    rw [splitAt_of_none absent apart, splitAt_eq_map, List.append_nil, List.reverse_reverse]
  cases found : splitAt? ['<', '%'] [] second with
  | none =>
      rw [found] at split
      exact rounds_text_of_none filled split found follow
  | some pair =>
      rcases pair with ⟨content, after⟩
      rw [found] at split
      rcases eq_of_splitAt (by decide) found with ⟨_, rfl, rfl, _⟩
      exact rounds_text_of_split filled split found follow

theorem rounds_append (apart : Apart source second)
    (read : Rounds (readItem room (statementOf room)) source nodes [])
    (follow : Rounds (readItem room (statementOf room)) second others []) :
    ∃ whole, Joined nodes others whole ∧
      Rounds (readItem room (statementOf room)) (source ++ second) whole [] := by
  have each := carries_statementOf room
  generalize ending : ([] : List Char) = last at read
  induction read with
  | done source =>
      subst ending
      exact ⟨others, .apart others, follow⟩
  | @round source middle rest node nodes found shorter rounds inductionHypothesis =>
      subst ending
      rcases readItem_grows each found with ⟨part, _, longer | ⟨absent, rfl, rfl⟩⟩
      · rcases inductionHypothesis (apart.of_suffix part) rfl with ⟨whole, joined, all⟩
        refine ⟨node :: whole, .step node joined, .round (longer second) ?_ all⟩
        simp only [List.length_append]
        omega
      · cases eq_nil_of_rounds rounds
        exact rounds_append_text (List.ne_nil_of_length_pos (by omega)) absent apart follow

end Seam

theorem rounds_of_parse {name : Option String} {source : String} {nodes : List Node}
    (read : parse .standard name source = .ok nodes) :
    Rounds (readItem maxDepth (statementOf maxDepth)) source.toList nodes [] := by
  have shortens := shortens_readItem (carries_statementOf maxDepth)
  simp only [parse, readAll_eq] at read
  split at read
  · rename_i found
    cases read
    exact (shortens.rounds_of_many found).1
  · cases read
  · cases read
  · cases read

theorem parse_of_rounds {source : String} {nodes : List Node}
    (rounds : Rounds (readItem maxDepth (statementOf maxDepth)) source.toList nodes [])
    (name : Option String) : parse .standard name source = .ok nodes := by
  have stopped : readItem maxDepth (statementOf maxDepth) [] = .miss [] := rfl
  simp only [parse, readAll_eq, rounds.many_eq stopped]

/-- The source of two templates in a row is read, and its nodes are those of the
two in a row. -/
theorem parse_append {name name' : Option String} {first second : String}
    {nodes others : List Node} (apart : Apart first.toList second.toList)
    (read : parse .standard name first = .ok nodes)
    (follow : parse .standard name' second = .ok others) (name'' : Option String) :
    ∃ whole, Joined nodes others whole ∧ parse .standard name'' (first ++ second) = .ok whole := by
  rcases rounds_append apart (rounds_of_parse read) (rounds_of_parse follow) with
    ⟨whole, joined, rounds⟩
  refine ⟨whole, joined, parse_of_rounds ?_ name''⟩
  rw [String.toList_append]
  exact rounds

end Node
end HtmlTemplate
