import HtmlTemplate.Config
import HtmlTemplate.Proofs.Segments.Segment

namespace HtmlTemplate

/-!
# Every source that is read consists of the segments of its tree

Each reader is looked at from its answer: what it took from the source are the
segments of the nodes that it answered.  A tag takes its parts one after the
other up to the closing delimiter; a block takes the segments of its bodies and
the tags between them and after them.  Nothing of this depends on which the
delimiters are, as long as they are not empty.
-/

open Reader

variable {α : Type} {delimiters : Delimiters} {room : Nat} {source rest : List Char}
  {segments : List Segment}

theorem Reader.optional_cases {reader : Reader α} {found : Option α}
    (read : optional reader source = .ok found rest) :
    (found = none ∧ rest = source) ∨
      ∃ value, found = some value ∧ reader source = .ok value rest := by
  simp only [optional] at read
  split at read
  · rename_i value _ accepted
    cases read
    exact .inr ⟨value, rfl, accepted⟩
  · cases read
    exact .inl ⟨rfl, rfl⟩
  · cases read

theorem Reader.eq_of_notAhead {reader : Reader α} {result : Unit}
    (read : notAhead reader source = .ok result rest) : source = rest := by
  simp only [notAhead] at read
  split at read
  · cases read
  · cases read
    rfl
  · cases read

theorem Reader.orElse_cases {first second : Reader α} {value : α}
    (read : (first <|> second) source = .ok value rest) :
    first source = .ok value rest ∨ second source = .ok value rest := by
  cases found : first source with
  | ok value middle =>
      rw [orElse_of_ok found] at read
      exact .inl read
  | miss place =>
      rw [orElse_of_miss found] at read
      exact .inr read
  | fail place cause =>
      rw [orElse_of_fail found] at read
      cases read

/-! ## Readers of parts -/

/-- Where the reader reads this value, the part stands. -/
structure Takes (reader : Reader α) (value : α) (part : TagPart) : Prop where
  text : ∀ {source rest : List Char}, reader source = .ok value rest ->
    ∃ text, source = text ++ rest ∧ part.Stands text rest

namespace Takes

theorem expr (room : Nat) (expr : Expr) : Takes (Expr.read room) expr (.expr expr) := by
  refine ⟨fun read => ?_⟩
  rcases ((Expr.steady_read room).kept read).1 with ⟨text, rfl⟩
  exact ⟨text, rfl, .expr read⟩

theorem pattern (room : Nat) (pattern : Pattern) :
    Takes (Pattern.read room) pattern (.pattern pattern) := by
  refine ⟨fun read => ?_⟩
  rcases ((Pattern.steady_read room).kept read).1 with ⟨text, rfl⟩
  exact ⟨text, rfl, .pattern read⟩

theorem takeQuestionMark_append (source : List Char) :
    source = (Lexeme.takeQuestionMark source).1 ++ (Lexeme.takeQuestionMark source).2 := by
  unfold Lexeme.takeQuestionMark
  split <;> rfl

theorem identifier (name : String) : Takes Lexeme.identifier name (.word name) := by
  refine ⟨@fun source rest read => ?_⟩
  cases source with
  | nil => cases read
  | cons first tail =>
      by_cases starts : Lexeme.isNameStart first = true
      · simp only [Lexeme.identifier, if_pos starts] at read
        cases read
        have mark := takeQuestionMark_append (tail.dropWhile Lexeme.isNamePart)
        refine ⟨_, ?_, .word _ _⟩
        rw [String.toList_ofList, List.append_assoc, ← mark, List.cons_append,
          List.takeWhile_append_dropWhile]
      · simp only [Lexeme.identifier, if_neg starts, reduceCtorEq] at read

theorem identifierWhere (accepts : String -> Bool) (name : String) :
    Takes (Lexeme.identifierWhere accepts) name (.word name) :=
  ⟨fun read => (identifier name).text (Lexeme.identifier_of_where read).1⟩

theorem keyword (word : String) : Takes (Lexeme.keyword word) () (.word word) := by
  refine ⟨fun read => ?_⟩
  rcases eq_ok_of_bind read with ⟨found, middle, accepted, done⟩
  cases done
  cases eq_of_beq (Lexeme.identifier_of_where accepted).2
  exact (identifierWhere _ word).text accepted

theorem exactly (word : String) : Takes (Reader.exactly word.toList) () (.word word) :=
  ⟨fun read => ⟨word.toList, Node.exactly_eq_ok_iff.mp read, .word word _⟩⟩

theorem char (c : Char) : Takes (Reader.char c) () (.word (String.singleton c)) := by
  refine ⟨fun read => ⟨[c], eq_of_char read, ?_⟩⟩
  have same : (String.singleton c).toList = [c] := String.toList_singleton c
  rw [← same]
  exact .word _ _

end Takes

namespace Closes

variable {part : TagPart} {parts : List TagPart} {reader : Reader α} {value : α}
  {after : List Char}

theorem taken (takes : Takes reader value part) (read : reader source = .ok value after)
    (closes : Closes delimiters parts segments after rest) :
    Closes delimiters (part :: parts) segments source rest := by
  rcases takes.text read with ⟨text, rfl, stands⟩
  exact closes.part stands

theorem spaced (takes : Takes reader value part)
    (read : Reader.spaced reader source = .ok value after)
    (closes : Closes delimiters parts segments after rest) :
    Closes delimiters (part :: parts) segments source rest := by
  rcases eq_ok_of_bind read with ⟨_, begun, skipped, read⟩
  cases skipped
  rcases eq_ok_of_bind read with ⟨_, middle, found, read⟩
  rcases eq_ok_of_bind read with ⟨_, _, skipped, done⟩
  cases skipped
  cases done
  exact (closes.spaces.taken takes found).spaces

theorem closing {result : Unit} (closed : Node.closing delimiters source = .ok result after)
    (later : Begins delimiters segments after rest) :
    Closes delimiters [] segments source rest := by
  have same : source = delimiters.closing.toList ++ after := Node.exactly_eq_ok_iff.mp closed
  have nothing : Blank [] := fun _ impossible => nomatch impossible
  exact ⟨[], after, same, .nil nothing, later⟩

theorem closeTag {result : Unit} (closed : Node.closeTag delimiters source = .ok result after)
    (later : Begins delimiters segments after rest) :
    Closes delimiters [] segments source rest := by
  rcases eq_ok_of_bind (eq_of_commit closed) with ⟨_, middle, skipped, closed⟩
  cases skipped
  exact (closing closed later).spaces

theorem openBlock {result : Unit} (opened : Node.openBlock delimiters source = .ok result after)
    (later : Begins delimiters segments after rest) :
    Closes delimiters [.word "do"] segments source rest := by
  rcases eq_ok_of_bind opened with ⟨_, middle, found, closed⟩
  exact (closeTag closed later).spaced (Takes.keyword "do") (eq_of_require found)

end Closes

namespace Node

/-! ## Blocks -/

/-- What the reader takes are the segments of what it answers. -/
structure Splits (delimiters : Delimiters) (spans : α -> List Segment -> Prop)
    (reader : Reader α) : Prop where
  segments : ∀ {source : List Char} {value : α} {rest : List Char},
    reader source = .ok value rest ->
      ∃ segments, spans value segments ∧ Begins delimiters segments source rest

/-- The reader takes the parts of a tag behind some first ones, and the segments
behind the tag. -/
structure Opens (delimiters : Delimiters) (front : List TagPart) (reader : Reader Action) :
    Prop where
  parts : ∀ {source : List Char} {action : Action} {rest : List Char},
    reader source = .ok action rest ->
      ∃ parts behind, action.opener = front ++ parts ∧ action.Spans delimiters behind ∧
        Closes delimiters parts behind source rest

theorem opened_silent {result : Unit} (opened : opening delimiters source = .ok result rest) :
    source = delimiters.opening.toList ++ (if false then ['='] else []) ++ rest := by
  rw [exactly_eq_ok_iff.mp opened]
  simp

theorem begins_wordTag {word : String} {result : Unit}
    (read : wordTag delimiters word source = .ok result rest) :
    ∃ inside, Begins delimiters [.tag false [.word word] inside] source rest := by
  rcases eq_ok_of_bind read with ⟨_, begun, opened, read⟩
  rcases eq_ok_of_bind read with ⟨_, middle, found, closed⟩
  have closes := (Closes.closing closed (.nil rest)).spaced (Takes.keyword word) found
  exact closes.begins false (opened_silent opened)

theorem begins_closeBlock {block : String} {result : Unit}
    (read : closeBlock delimiters block source = .ok result rest) :
    ∃ inside, Begins delimiters [.tag false [.word "end"] inside] source rest :=
  begins_wordTag (eq_of_require read)

/-- What a repetition takes is what its rounds take, one after the other. -/
theorem Splits.manyFrom {spans : α -> List Segment -> Prop} {reader : Reader α}
    (splits : Splits delimiters spans reader) {before values : List α} {budget : List Char}
    (read : Reader.manyFrom reader before budget source = .ok values rest) :
    ∃ found segments, values = before.reverse ++ found ∧ Rows spans found segments ∧
      Begins delimiters segments source rest := by
  have stop {before values : List α} {source place : List Char}
      (same : Reply.ok before.reverse source = Reply.ok values place) :
      ∃ found segments, values = before.reverse ++ found ∧ Rows spans found segments ∧
        Begins delimiters segments source place := by
    cases same
    exact ⟨[], [], (List.append_nil _).symm, .nil, .nil source⟩
  induction budget generalizing before source with
  | nil =>
      simp only [Reader.manyFrom] at read
      split at read
      · cases read
      · exact stop read
      · cases read
  | cons c budget inductionHypothesis =>
      simp only [Reader.manyFrom] at read
      split at read
      · rename_i value middle found
        rcases splits.segments found with ⟨own, first, begins⟩
        rcases inductionHypothesis read with ⟨others, more, same, later, begins'⟩
        refine ⟨value :: others, own ++ more, ?_, .cons first later, begins.append begins'⟩
        rw [same]
        simp
      · exact stop read
      · cases read

theorem Splits.many {spans : α -> List Segment -> Prop} {reader : Reader α}
    (splits : Splits delimiters spans reader) :
    Splits delimiters (Rows spans) (Reader.many reader) := by
  refine ⟨fun read => ?_⟩
  rcases splits.manyFrom read with ⟨found, segments, same, spans, begins⟩
  cases same
  exact ⟨segments, spans, begins⟩

/-- White space is a segment of its own, unless there is none. -/
theorem begins_spaces (source : List Char) :
    ∃ gap, (gap = [] ∨ ∃ content, gap = [.blank content]) ∧
      Begins delimiters gap source (source.dropWhile isSpace) := by
  by_cases none : source.takeWhile isSpace = []
  · refine ⟨[], .inl rfl, ?_⟩
    have same : source = source.dropWhile isSpace := by
      calc source
          _ = source.takeWhile isSpace ++ source.dropWhile isSpace :=
            List.takeWhile_append_dropWhile.symm
          _ = source.dropWhile isSpace := by rw [none, List.nil_append]
    rw [← same]
    exact .nil source
  · refine ⟨_, .inr ⟨source.takeWhile isSpace, rfl⟩, ?_⟩
    exact .single List.takeWhile_append_dropWhile.symm ⟨none, blank_takeWhile source⟩

section Blocks

variable {body : Reader (List Node)} (splits : Splits delimiters (Rows (Node.Spans delimiters)) body)
include splits

theorem opens_readCond (negated : Bool) :
    Opens delimiters [.word (if negated then "unless" else "if")]
      (readCond delimiters room body negated) := by
  refine ⟨@fun source action rest read => ?_⟩
  rcases eq_ok_of_bind read with ⟨test, middle, tested, read⟩
  rcases eq_ok_of_bind read with ⟨_, start, opened, read⟩
  rcases eq_ok_of_bind read with ⟨holds, between, held, read⟩
  rcases eq_ok_of_bind read with ⟨other, after, continued, behind⟩
  rcases splits.segments held with ⟨segments, first, begins⟩
  have closes {behind : List Segment} (later : Begins delimiters behind start rest) :
      Closes delimiters [.expr test, .word "do"] behind source rest :=
    .spaced (Takes.expr room test) tested (.openBlock opened later)
  rcases optional_cases continued with ⟨rfl, rfl⟩ | ⟨_, rfl, word⟩
  · rcases eq_ok_of_bind behind with ⟨_, _, nothing, behind⟩
    cases nothing
    rcases eq_ok_of_bind behind with ⟨_, _, ended, done⟩
    cases done
    rcases begins_closeBlock ended with ⟨inside, last⟩
    exact ⟨_, _, rfl, .cond negated test inside first, closes (begins.append last)⟩
  · rcases eq_ok_of_bind behind with ⟨fails, _, failed, behind⟩
    rcases eq_ok_of_bind behind with ⟨_, _, ended, done⟩
    cases done
    rcases begins_wordTag word with ⟨separator, between'⟩
    rcases splits.segments failed with ⟨others, second, begins'⟩
    rcases begins_closeBlock ended with ⟨inside, last⟩
    have whole := begins.append (between'.append (begins'.append last))
    refine ⟨_, _, rfl, .condElse negated test separator inside first second, ?_⟩
    rw [List.append_assoc]
    exact closes whole

theorem opens_readLoop : Opens delimiters [.word "for"] (readLoop delimiters room body) := by
  refine ⟨@fun source action rest read => ?_⟩
  rcases eq_ok_of_bind read with ⟨pattern, middle, matched, read⟩
  rcases eq_ok_of_bind read with ⟨_, behind, arrow, read⟩
  rcases eq_ok_of_bind read with ⟨expr, after, found, read⟩
  rcases eq_ok_of_bind read with ⟨_, start, opened, read⟩
  rcases eq_ok_of_bind read with ⟨nodes, between, held, read⟩
  rcases eq_ok_of_bind read with ⟨_, _, ended, done⟩
  cases done
  rcases splits.segments held with ⟨segments, first, begins⟩
  rcases begins_closeBlock ended with ⟨inside, last⟩
  refine ⟨_, _, rfl, .loop pattern expr inside first, ?_⟩
  refine .spaced (Takes.pattern room _) matched ?_
  refine .taken (Takes.exactly "<-") (eq_of_require arrow) ?_
  exact .spaced (Takes.expr room _) found (.openBlock opened (begins.append last))

theorem splits_readClause :
    Splits delimiters (Clause.Spans delimiters) (readClause delimiters room body) := by
  refine ⟨@fun source clause rest read => ?_⟩
  rcases eq_ok_of_bind read with ⟨_, start, opened, read⟩
  rcases eq_ok_of_bind read with ⟨pattern, middle, head, read⟩
  rcases eq_ok_of_bind read with ⟨_, after, closed, read⟩
  rcases eq_ok_of_bind read with ⟨nodes, _, held, done⟩
  cases done
  rcases splits.segments held with ⟨segments, first, begins⟩
  rcases eq_ok_of_bind head with ⟨_, between, matched, head⟩
  rcases eq_ok_of_bind head with ⟨_, _, arrow, done⟩
  cases done
  have closes := (Closes.closeTag closed begins).taken (Takes.exactly "->") arrow
  rcases (closes.spaced (Takes.pattern room _) matched).begins false (opened_silent opened) with
    ⟨inside, whole⟩
  exact ⟨_, .clause pattern inside first, whole⟩

theorem opens_readChoice : Opens delimiters [.word "case"] (readChoice delimiters room body) := by
  refine ⟨@fun source action rest read => ?_⟩
  rcases eq_ok_of_bind read with ⟨subject, middle, found, read⟩
  rcases eq_ok_of_bind read with ⟨_, start, opened, read⟩
  rcases eq_ok_of_bind read with ⟨_, skipped, skip, read⟩
  cases skip
  rcases eq_ok_of_bind read with ⟨first, between, head, read⟩
  rcases eq_ok_of_bind read with ⟨others, after, tail, read⟩
  rcases eq_ok_of_bind read with ⟨_, _, ended, done⟩
  cases done
  have clause : Splits delimiters (Clause.Spans delimiters) (readClause delimiters room body) :=
    splits_readClause splits
  rcases clause.segments (eq_of_require head) with ⟨own, spans, begins⟩
  rcases clause.many.segments tail with ⟨more, spans', begins'⟩
  rcases begins_closeBlock ended with ⟨inside, last⟩
  rcases begins_spaces start with ⟨gap, shape, blank⟩
  have whole := (blank.append (begins.append begins')).append last
  refine ⟨_, _, rfl, .choice subject inside shape (.cons spans spans'), ?_⟩
  exact .spaced (Takes.expr room subject) found (.openBlock opened whole)

theorem opens_readPlain : Opens delimiters [] (readPlain delimiters room body) := by
  refine ⟨@fun source action rest read => ?_⟩
  rcases eq_ok_of_bind read with ⟨_, _, begun, read⟩
  cases begun
  rcases eq_ok_of_bind read with ⟨expr, middle, found, read⟩
  rcases eq_ok_of_bind read with ⟨block, after, word, behind⟩
  rcases optional_cases word with ⟨rfl, rfl⟩ | ⟨_, rfl, named⟩
  · rcases eq_ok_of_bind behind with ⟨_, _, closed, done⟩
    cases done
    refine ⟨_, _, rfl, .value expr, ?_⟩
    exact .taken (Takes.expr room expr) found (.closeTag closed (.nil rest))
  · cases expr with
    | call name args =>
        rcases eq_ok_of_bind behind with ⟨_, start, closed, behind⟩
        rcases eq_ok_of_bind behind with ⟨nodes, between, held, behind⟩
        rcases eq_ok_of_bind behind with ⟨_, _, ended, done⟩
        cases done
        rcases splits.segments held with ⟨segments, first, begins⟩
        rcases begins_closeBlock ended with ⟨inside, last⟩
        refine ⟨_, _, rfl, .callBlock name args inside first, ?_⟩
        refine .taken (Takes.expr room (.call name args)) found ?_
        exact .spaced (Takes.keyword "do") named (.closeTag closed (begins.append last))
    | _ => cases behind

theorem opens_readAction : Opens delimiters [] (readAction delimiters room body) := by
  refine ⟨@fun source action rest read => ?_⟩
  rcases eq_ok_of_bind read with ⟨word, after, found, behind⟩
  rcases optional_cases found with ⟨rfl, rfl⟩ | ⟨word, rfl, named⟩
  · exact (opens_readPlain splits).parts behind
  · have known := (Lexeme.identifier_of_where named).2
    have taken {parts : List TagPart} {behind : List Segment}
        (closes : Closes delimiters parts behind after rest) :
        Closes delimiters (.word word :: parts) behind source rest :=
      closes.taken (Takes.identifierWhere _ word) named
    simp only [List.contains_iff_mem, List.mem_cons, List.not_mem_nil, or_false] at known
    rcases known with rfl | rfl | rfl | rfl
    · rcases (opens_readCond splits false).parts behind with ⟨parts, others, same, spans, closes⟩
      exact ⟨_, others, same, spans, taken closes⟩
    · rcases (opens_readCond splits true).parts behind with ⟨parts, others, same, spans, closes⟩
      exact ⟨_, others, same, spans, taken closes⟩
    · rcases (opens_readLoop splits).parts behind with ⟨parts, others, same, spans, closes⟩
      exact ⟨_, others, same, spans, taken closes⟩
    · rcases (opens_readChoice splits).parts behind with ⟨parts, others, same, spans, closes⟩
      exact ⟨_, others, same, spans, taken closes⟩

/-- The inside of a tag, its sign apart. -/
theorem begins_readStatement {printed : Bool} {node : Node} {middle : List Char}
    (read : readStatement delimiters room body printed middle = .ok node rest)
    (opened : source = delimiters.opening.toList ++ (if printed then ['='] else []) ++ middle) :
    ∃ segments, node.Spans delimiters segments ∧ Begins delimiters segments source rest := by
  have unbound {wrap : Action -> Node} (wrapped : ∀ action behind inside,
        action.Spans delimiters behind ->
          (wrap action).Spans delimiters (.tag printed action.opener inside :: behind))
      (read : (do
        spaces
        let action ← readAction delimiters room body
        return wrap action : Reader Node) middle = .ok node rest) :
      ∃ segments, node.Spans delimiters segments ∧ Begins delimiters segments source rest := by
    rcases eq_ok_of_bind read with ⟨_, start, skip, read⟩
    cases skip
    rcases eq_ok_of_bind read with ⟨action, _, found, done⟩
    cases done
    rcases (opens_readAction splits).parts found with ⟨parts, behind, same, spans, closes⟩
    rcases closes.spaces.begins printed opened with ⟨inside, whole⟩
    cases same
    exact ⟨_, wrapped action behind inside spans, whole⟩
  cases printed with
  | true => exact unbound (fun action behind inside => .print inside) read
  | false =>
      rcases eq_ok_of_bind read with ⟨binding, start, found, behind⟩
      rcases optional_cases found with ⟨rfl, rfl⟩ | ⟨pattern, rfl, bound⟩
      · exact unbound (fun action behind inside => .silent inside) behind
      · rcases eq_ok_of_bind bound with ⟨_, between, matched, bound⟩
        rcases eq_ok_of_bind bound with ⟨_, after, sign, bound⟩
        rcases eq_ok_of_bind bound with ⟨_, _, ahead, done⟩
        cases done
        cases eq_of_notAhead ahead
        rcases eq_ok_of_bind behind with ⟨expr, last, found, behind⟩
        rcases eq_ok_of_bind behind with ⟨_, _, closed, done⟩
        cases done
        have closes := (Closes.closeTag closed (.nil rest)).spaced (Takes.expr room expr) found
        have signed := closes.taken (Takes.char '=') sign
        rcases (signed.spaced (Takes.pattern room pattern) matched).begins false opened with
          ⟨inside, whole⟩
        exact ⟨_, .bind pattern expr inside, whole⟩

end Blocks

/-! ## Texts and comments -/

theorem Splits.orElse {spans : α -> List Segment -> Prop} {first second : Reader α}
    (left : Splits delimiters spans first) (right : Splits delimiters spans second) :
    Splits delimiters spans (first <|> second) := by
  refine ⟨fun read => ?_⟩
  rcases orElse_cases read with found | found
  · exact left.segments found
  · exact right.segments found

/-- A text is found where it stands, or earlier. -/
theorem splitAt_of_prefix {text : List Char} (passed before : List Char) {later : List Char}
    (there : text <+: later) :
    ∃ content rest, splitAt? text before (passed ++ later) = some (content, rest) ∧
      content.length ≤ before.length + passed.length := by
  induction passed generalizing before with
  | nil =>
      cases later with
      | nil =>
          cases List.prefix_nil.mp there
          exact ⟨before.reverse, [], rfl, by simp⟩
      | cons c tail =>
          refine ⟨before.reverse, c :: tail, if_pos (List.isPrefixOf_iff_prefix.mpr there), ?_⟩
          simp
  | cons c passed inductionHypothesis =>
      by_cases begins : text.isPrefixOf (c :: (passed ++ later)) = true
      · exact ⟨before.reverse, _, if_pos begins, by simp⟩
      · rcases inductionHypothesis (c :: before) with ⟨content, rest, found, size⟩
        refine ⟨content, rest, (if_neg begins).trans found, ?_⟩
        simp only [List.length_cons] at size ⊢
        omega

/-- The first place is found. -/
theorem absent_of_splitAt {text content : List Char}
    (found : splitAt? text [] (content ++ rest) = some (content, rest)) :
    Absent text content rest := by
  rintro passed left rfl filled there
  rcases splitAt_of_prefix passed [] there with ⟨_, _, earlier, size⟩
  rw [← List.append_assoc, found] at earlier
  cases earlier
  have longer := List.length_pos_iff.mpr filled
  simp only [List.length_append, List.length_nil] at size
  omega

theorem absent_of_none {text : List Char} (none : splitAt? text [] source = none) :
    Absent text source [] := by
  rintro passed left rfl filled there
  rw [List.append_nil] at there
  rcases splitAt_of_prefix passed [] there with ⟨_, _, earlier, _⟩
  rw [none] at earlier
  cases earlier

section Sound

variable (filled : delimiters.opening.toList ≠ []) (filled' : delimiters.closing.toList ≠ [])

include filled in
theorem splits_readText : Splits delimiters (Node.Spans delimiters) (readText delimiters) := by
  refine ⟨@fun source node rest read => ?_⟩
  simp only [readText] at read
  split at read
  · cases read
  · rename_i inside
    split at read
    · rename_i begins
      rcases List.isPrefixOf_iff_prefix.mp begins with ⟨tail, rfl⟩
      rw [List.drop_left] at read
      split at read
      · cases read
        refine ⟨_, .escape, .single ?_ trivial⟩
        simp [Segment.write]
      · cases read
    · rename_i later
      split at read
      · rename_i content after found
        cases read
        rcases eq_of_splitAt filled found with ⟨_, rfl, rfl, there⟩
        refine ⟨_, .text _, .single rfl ⟨?_, absent_of_splitAt found, .inr there⟩⟩
        rintro rfl
        exact later (List.isPrefixOf_iff_prefix.mpr there)
      · rename_i none
        cases read
        refine ⟨_, .text source, .single (List.append_nil _).symm ⟨?_, absent_of_none none, .inl rfl⟩⟩
        rintro rfl
        exact inside rfl

include filled' in
theorem splits_readComment : Splits delimiters (Node.Spans delimiters) (readComment delimiters) := by
  refine ⟨@fun source node rest read => ?_⟩
  rcases eq_ok_of_bind read with ⟨_, _, begun, read⟩
  cases begun
  rcases eq_ok_of_bind read with ⟨_, start, opened, read⟩
  rcases eq_ok_of_bind read with ⟨_, inside, hash, behind⟩
  cases eq_of_char hash
  split at behind
  · rename_i content after found
    cases behind
    rcases eq_of_splitAt filled' found with ⟨_, rfl, rfl, tail, rfl⟩
    rw [← String.length_toList, List.drop_left]
    refine ⟨_, .comment _, .single ?_ (absent_of_splitAt found)⟩
    rw [exactly_eq_ok_iff.mp opened]
    simp [Segment.write]
  · cases behind

theorem splits_readTag {inside : Nat -> Bool -> Reader Node}
    (each : ∀ {less : Nat} {printed : Bool} {node : Node} {source middle rest : List Char},
      room = less + 1 -> inside less printed middle = .ok node rest ->
      source = delimiters.opening.toList ++ (if printed then ['='] else []) ++ middle ->
      ∃ segments, node.Spans delimiters segments ∧ Begins delimiters segments source rest) :
    Splits delimiters (Node.Spans delimiters) (readTag delimiters room inside) := by
  refine ⟨@fun source node rest read => ?_⟩
  rcases eq_ok_of_bind read with ⟨_, _, begun, read⟩
  cases begun
  rcases eq_ok_of_bind read with ⟨_, start, opened, read⟩
  rcases eq_ok_of_bind read with ⟨printed, between, signed, read⟩
  rcases eq_ok_of_bind read with ⟨_, middle, ahead, behind⟩
  cases eq_of_notAhead ahead
  cases room with
  | zero => cases behind
  | succ less =>
      refine each rfl behind ?_
      rw [exactly_eq_ok_iff.mp opened]
      rcases optional_cases signed with ⟨rfl, rfl⟩ | ⟨_, rfl, sign⟩
      · simp
      · rw [eq_of_char sign]
        simp

include filled filled' in
theorem splits_readAll (room : Nat) :
    Splits delimiters (Rows (Node.Spans delimiters)) (readAll delimiters room) := by
  induction room with
  | zero =>
      refine Splits.many ((splits_readText filled).orElse ((splits_readComment filled').orElse ?_))
      exact splits_readTag fun impossible => nomatch impossible
  | succ room inductionHypothesis =>
      refine Splits.many ((splits_readText filled).orElse ((splits_readComment filled').orElse ?_))
      refine splits_readTag fun same read opened => ?_
      cases same
      exact begins_readStatement inductionHypothesis read opened

end Sound

/-- Delimiters that a configuration accepts are not empty. -/
theorem filled_of_faultOf? {delimiter : String} (sound : Delimiters.faultOf? delimiter = none) :
    delimiter.toList ≠ [] := by
  intro empty
  have size : delimiter.length = 0 := by
    rw [← String.length_toList, empty]
    rfl
  rw [Delimiters.faultOf?, if_pos (by omega)] at sound
  cases sound

/-- A source that is read consists of the segments of its nodes, each of which is
what it claims to be at its place. -/
theorem segments_of_parse (config : Config) {template : Option String} {source : String}
    {nodes : List Node} (read : parse config.delimiters template source = .ok nodes) :
    ∃ segments, Rows (Node.Spans config.delimiters) nodes segments ∧
      source.toList = Segment.writeAll config.delimiters segments ∧
      Segment.FitAll config.delimiters segments [] := by
  have sound := config.delimiters_sound
  rw [Delimiters.fault?, Option.or_eq_none_iff, Option.or_eq_none_iff] at sound
  have splits := splits_readAll (filled_of_faultOf? sound.1) (filled_of_faultOf? sound.2.1) maxDepth
  simp only [parse] at read
  split at read
  · rename_i found
    cases read
    rcases splits.segments found with ⟨segments, spans, begins⟩
    refine ⟨segments, spans, ?_, begins.fit⟩
    rw [begins.written, List.append_nil]
  · cases read
  · cases read
  · cases read

/-- Other delimiters, each kind of segment, and a block in a clause. -/
theorem segments_of_parse_brackets :
    let config : Config := { delimiters := ⟨"[[", "]]"⟩ }
    let source := "a[[%[[#b]][[= case @x do ]] [[ [p, 1] -> ]]c[[ if @y do ]][[ else ]]d[[end]][[ end ]]"
    ∃ nodes segments, parse config.delimiters none source = .ok nodes ∧
      Rows (Node.Spans config.delimiters) nodes segments ∧
      source.toList = Segment.writeAll config.delimiters segments ∧
      Segment.FitAll config.delimiters segments [] := by
  intro config source
  have reads : (parse config.delimiters none source).isOk = true := by
    decide +kernel
  cases read : parse config.delimiters none source with
  | error fault =>
      rw [read] at reads
      cases reads
  | ok nodes =>
      rcases segments_of_parse config read with ⟨segments, spans, written, fit⟩
      exact ⟨nodes, segments, rfl, spans, written, fit⟩

end Node
end HtmlTemplate
