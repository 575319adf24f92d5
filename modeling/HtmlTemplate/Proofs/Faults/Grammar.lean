import HtmlTemplate.Proofs.Faults.Places
import HtmlTemplate.Proofs.Literals.Strings
import HtmlTemplate.Syntax.TemplateReader

namespace HtmlTemplate

/-!
# Every reader of templates stops inside its source

From the names and literals up to a whole template, reading hands back a suffix
of the source.  Nothing is asked of the delimiters, which may even be empty.
-/

open Reader

variable {α : Type} {whole : List Char}

/-! ## Names and literals -/

namespace Lexeme

theorem takeQuestionMark_suffix (source : List Char) : (takeQuestionMark source).2 <:+ source := by
  unfold takeQuestionMark
  split
  · exact List.suffix_rfl
  · exact List.suffix_cons ..
  · exact List.suffix_rfl

theorem stops_identifier : StopsInside whole identifier := by
  intro source inside
  cases source with
  | nil => exact inside
  | cons first rest =>
      simp only [identifier]
      split
      · have mark := takeQuestionMark_suffix (rest.dropWhile isNamePart)
        have part : rest.dropWhile isNamePart <:+ rest := List.dropWhile_suffix _
        exact ((mark.trans part).trans (List.suffix_cons first rest)).trans inside
      · exact inside

theorem stops_identifierWhere (accepts : String -> Bool) :
    StopsInside whole (identifierWhere accepts) := by
  intro source inside
  rcases stops_identifier.outcomes inside with
    ⟨name, rest, read, stopped⟩ | ⟨_, read, stopped⟩ | ⟨_, _, read, stopped⟩
  all_goals simp only [identifierWhere, read]
  · split
    · exact stopped
    · exact inside
  · exact stopped
  · exact stopped

theorem stops_keyword (word : String) : StopsInside whole (keyword word) :=
  (stops_identifierWhere _).bind fun _ => .pure ()

theorem stops_name : StopsInside whole name :=
  stops_identifierWhere _

theorem stops_digits : StopsInside whole digits :=
  (StopsInside.satisfy _).bind fun first => .takeWhile isDigitPart (first :: ·)

theorem stops_fraction : StopsInside whole fraction :=
  (StopsInside.char '.').bind fun _ => stops_digits.bind fun _ => .pure _

theorem stops_sign : StopsInside whole sign :=
  (StopsInside.satisfy _).optional.bind fun _ => .pure _

theorem stops_exponent : StopsInside whole exponent :=
  (StopsInside.satisfy _).bind fun _ => stops_sign.bind fun _ =>
    (StopsInside.takeWhile _ id).bind fun _ => stops_digits.bind fun _ => .pure _

theorem stops_numberChars : StopsInside whole numberChars :=
  stops_digits.bind fun _ => stops_fraction.optional.bind fun _ =>
    stops_exponent.optional.bind fun _ => .pure _

theorem stops_number : StopsInside whole number :=
  stops_numberChars.bind fun _ => .pure _

theorem stops_signedNumber : StopsInside whole signedNumber :=
  (StopsInside.char '-').optional.bind fun _ => stops_numberChars.bind fun _ => .pure _

theorem stops_spelling : StopsInside whole spelling := by
  intro source inside
  simp only [spelling]
  cases found : spellingFrom [] source with
  | none => exact inside
  | some passed =>
      rcases enclosed_of_spellingFrom found with ⟨chars, same, _, _⟩
      have part : passed.2 <:+ source := ⟨chars, same.symm⟩
      exact part.trans inside

theorem stops_string : StopsInside whole string :=
  (StopsInside.char '"').bind fun _ => stops_spelling.bind fun _ =>
    (StopsInside.char '"').bind fun _ => .pure _

theorem stops_atom : StopsInside whole atom :=
  (StopsInside.char ':').bind fun _ => stops_identifier.bind fun _ => .pure _

theorem stops_word : StopsInside whole word :=
  ((stops_keyword _).bind fun _ => .pure _).orElse <|
    ((stops_keyword _).bind fun _ => .pure _).orElse ((stops_keyword _).bind fun _ => .pure _)

theorem stops_literal : StopsInside whole literal :=
  stops_word.orElse (stops_number.orElse (stops_string.orElse stops_atom))

theorem stops_patternLiteral : StopsInside whole patternLiteral :=
  stops_word.orElse (stops_signedNumber.orElse (stops_string.orElse stops_atom))

end Lexeme

/-! ## Expressions -/

namespace Expr

variable {value operand : Reader Expr} {inside : Nat -> Reader Expr}

theorem stops_signFor (text : String) (op : α) : StopsInside whole (signFor text op) :=
  (StopsInside.exactly _).bind fun _ => .pure op

theorem stops_signUnless (text : String) (next : List Char) (op : α) :
    StopsInside whole (signUnless text next op) :=
  (StopsInside.exactly _).bind fun _ => (StopsInside.satisfy _).notAhead.bind fun _ => .pure op

theorem stops_wordFor (text : String) (op : α) : StopsInside whole (wordFor text op) :=
  (Lexeme.stops_keyword text).bind fun _ => .pure op

theorem stops_strictLevel {op : Reader Operator} (stops : StopsInside whole op) :
    StopsInside whole (strictLevel op) :=
  stops.bind fun _ => .pure _

theorem stops_levels : ∀ op ∈ levels, StopsInside whole op := by
  simp only [levels, List.forall_mem_cons]
  refine ⟨?_, ?_, ?_, ?_, ?_, ?_, ?_, nofun⟩
  · exact (stops_signFor _ _).orElse (stops_wordFor _ _)
  · exact (stops_signFor _ _).orElse (stops_wordFor _ _)
  · exact stops_strictLevel ((stops_signFor _ _).orElse (stops_signFor _ _))
  · exact stops_strictLevel ((stops_signFor _ _).orElse ((stops_signFor _ _).orElse
      ((stops_signUnless _ _ _).orElse (stops_signFor _ _))))
  · exact stops_strictLevel ((stops_signFor _ _).orElse (stops_signUnless _ _ _))
  · exact stops_strictLevel ((stops_signFor _ _).orElse (stops_signUnless _ _ _))
  · exact stops_strictLevel ((stops_signFor _ _).orElse (stops_signFor _ _))

theorem stops_chain {op : Reader BinaryOp} (room : Nat) (first : StopsInside whole op)
    (second : StopsInside whole operand) : StopsInside whole (chain op room operand) :=
  second.bind fun _ =>
    (first.spaced.bind fun _ => second.bind fun _ => .pure _).many.bind fun _ =>
      (StopsInside.deeper room _).bind fun _ => .pure _

theorem stops_readUnaryOp : StopsInside whole readUnaryOp :=
  (stops_signUnless _ _ _).orElse ((stops_wordFor _ _).orElse (stops_signFor _ _))

theorem stops_prefixed (room : Nat) (stops : ∀ room, StopsInside whole (inside room)) :
    StopsInside whole (prefixed room inside) :=
  stops_readUnaryOp.spaced.many.bind fun _ => (StopsInside.deeper room _).bind fun left =>
    (stops left).bind fun _ => .pure _

theorem stops_keywordKey : StopsInside whole keywordKey :=
  Lexeme.stops_identifier.bind fun _ => (StopsInside.char ':').bind fun _ =>
    (StopsInside.char ':').notAhead.bind fun _ => .pure _

section Items

variable (stops : StopsInside whole value)
include stops

theorem stops_keywordPair : StopsInside whole (keywordPair value) :=
  stops_keywordKey.bind fun _ => stops.spaced.bind fun _ => .pure _

theorem stops_argument : StopsInside whole (argument value) :=
  ((stops_keywordPair stops).bind fun _ => .pure _).orElse (stops.bind fun _ => .pure _)

/-- The opening parenthesis is the place of arguments in the wrong order. -/
theorem stops_arguments : StopsInside whole (arguments value) := by
  refine .here fun start passed => (StopsInside.char '(').bind fun _ => ?_
  have items : StopsInside whole (commit (do
      let args ← separated (spaced (argument value))
      spaces
      char ')'
      return args)) :=
    ((stops_argument stops).spaced.separated.bind fun _ => StopsInside.spaces.bind fun _ =>
      (StopsInside.char ')').bind fun _ => .pure _).commit
  refine items.bind fun args => ?_
  cases collect? args with
  | none => exact .failAt passed .positionalAfterKeyword
  | some args => exact .pure args

theorem stops_listItem : StopsInside whole (listItem value) :=
  ((stops_keywordPair stops).bind fun _ => .pure _).orElse stops

end Items

section Operands

variable (stops : ∀ room, StopsInside whole (inside room))
include stops

theorem stops_primary (room : Nat) : StopsInside whole (primary inside room) := by
  refine .orElse (Lexeme.stops_literal.bind fun _ => .pure _) ?_
  refine .orElse ((StopsInside.char '@').bind fun _ =>
    Lexeme.stops_identifier.commit.bind fun _ => .pure _) ?_
  refine .orElse (Lexeme.stops_name.bind fun _ =>
    (StopsInside.nested fun less => stops_arguments (stops less)).bind fun _ => .pure _) ?_
  refine .orElse (Lexeme.stops_name.bind fun _ => .pure _) ?_
  refine .orElse (.nested fun less => (StopsInside.char '[').spaced.bind fun _ =>
    .bind (.commit ((stops_listItem (stops less)).spaced.separated.bind fun _ =>
      (StopsInside.char ',').optional.bind fun _ => .pure _)) fun _ =>
      (StopsInside.char ']').spaced.commit.bind fun _ => .pure _) ?_
  refine .orElse (.nested fun less => (StopsInside.char '{').bind fun _ =>
    (stops less).spaced.separated.commit.bind fun _ =>
      (StopsInside.char '}').spaced.commit.bind fun _ => .pure _) ?_
  exact .nested fun less => (StopsInside.char '(').bind fun _ =>
    (stops less).spaced.commit.bind fun _ => (StopsInside.char ')').commit.bind fun _ => .pure _

theorem stops_suffix (room : Nat) :
    StopsInside whole (attrSuffix <|> indexSuffix inside room) := by
  refine .orElse ?_ (.nested fun less => ?_)
  · exact (StopsInside.char '.').bind fun _ => (StopsInside.char '.').notAhead.bind fun _ =>
      Lexeme.stops_identifier.commit.bind fun _ => .pure _
  · exact (StopsInside.char '[').bind fun _ => .bind (.commit ((stops less).spaced.bind fun _ =>
      (StopsInside.char ']').bind fun _ => .pure _)) fun _ => .pure _

theorem stops_suffixes (room : Nat) (object : Expr) :
    StopsInside whole (suffixes inside room object) := by
  induction room generalizing object with
  | zero =>
      refine .here fun start passed => (stops_suffix stops 0).optional.bind fun suffix => ?_
      cases suffix with
      | none => exact .pure object
      | some suffix => exact .failAt passed .tooDeep
  | succ room inductionHypothesis =>
      refine (stops_suffix stops (room + 1)).optional.bind fun suffix => ?_
      cases suffix with
      | none => exact .pure object
      | some suffix => exact inductionHypothesis (suffix.apply object)

theorem stops_suffixed (room : Nat) : StopsInside whole (suffixed inside room) :=
  (stops_primary stops room).bind fun object => stops_suffixes stops room object

theorem stops_readWith (room : Nat) : StopsInside whole (readWith inside room) := by
  have tower (ops : List (Reader BinaryOp)) (each : ∀ op ∈ ops, StopsInside whole op) :
      StopsInside whole (ops.foldr (fun op operand => chain op room operand)
        (prefixed room (suffixed inside))) := by
    induction ops with
    | nil => exact stops_prefixed room (stops_suffixed stops)
    | cons op ops inductionHypothesis =>
        rcases List.forall_mem_cons.mp each with ⟨first, others⟩
        exact stops_chain room first (inductionHypothesis others)
  exact tower levels stops_levels

end Operands

theorem stops_readRounds (rounds room : Nat) : StopsInside whole (readRounds rounds room) := by
  induction rounds generalizing room with
  | zero => exact .fail .tooDeep
  | succ rounds inductionHypothesis => exact stops_readWith inductionHypothesis room

theorem stops_read (room : Nat) : StopsInside whole (read room) :=
  stops_readRounds (room + 1) room

end Expr

/-! ## Patterns -/

namespace Pattern

theorem stops_readName : StopsInside whole readName := by
  intro source inside
  rcases Lexeme.stops_identifier.outcomes inside with
    ⟨name, rest, read, stopped⟩ | ⟨_, read, stopped⟩ | ⟨_, _, read, stopped⟩
  all_goals simp only [readName, read]
  · split
    · exact stopped
    · split
      · exact inside
      · exact stopped
  · exact stopped
  · exact stopped

theorem stops_readItems (opening closing : Char) {item : Reader Pattern}
    (stops : StopsInside whole item) : StopsInside whole (readItems opening closing item) :=
  (StopsInside.char opening).bind fun _ => stops.spaced.separated.bind fun _ =>
    StopsInside.spaces.bind fun _ => (StopsInside.char closing).bind fun _ => .pure _

theorem stops_read (room : Nat) : StopsInside whole (read room) := by
  have literal : StopsInside whole (do
      let literal ← Lexeme.patternLiteral
      return Pattern.lit literal) :=
    Lexeme.stops_patternLiteral.bind fun _ => .pure _
  induction room with
  | zero => exact literal.orElse (stops_readName.orElse (.fail .tooDeep))
  | succ room inductionHypothesis =>
      refine literal.orElse (stops_readName.orElse (.orElse ?_ ?_))
      · exact (stops_readItems '{' '}' inductionHypothesis).bind fun _ => .pure _
      · exact (stops_readItems '[' ']' inductionHypothesis).bind fun _ => .pure _

end Pattern

/-! ## Templates -/

namespace Node

variable {delimiters : Delimiters} {body : Reader (List Node)}

theorem splitAt?_suffix {text before source content rest : List Char}
    (found : splitAt? text before source = some (content, rest)) : rest <:+ source := by
  induction source generalizing before with
  | nil =>
      simp only [splitAt?] at found
      split at found
      · cases found
        exact List.suffix_rfl
      · cases found
  | cons c source inductionHypothesis =>
      simp only [splitAt?] at found
      split at found
      · cases found
        exact List.suffix_rfl
      · exact (inductionHypothesis found).trans (List.suffix_cons c source)

theorem stops_readText : StopsInside whole (readText delimiters) := by
  intro source inside
  simp only [readText]
  split
  · exact inside
  · split
    · split
      · rename_i rest found
        have part : rest <:+ source := by
          refine (List.suffix_cons '%' rest).trans ?_
          rw [← found]
          exact List.drop_suffix ..
        exact part.trans inside
      · exact inside
    · split
      · rename_i found
        exact (splitAt?_suffix found).trans inside
      · exact List.nil_suffix

/-- A comment that is not closed is reported where it begins. -/
theorem stops_readComment : StopsInside whole (readComment delimiters) := by
  refine .here fun start passed => (StopsInside.exactly _).bind fun _ =>
    (StopsInside.char '#').bind fun _ => ?_
  intro source inside
  cases found : splitAt? delimiters.closing.toList [] source with
  | none =>
      simp only [found]
      exact passed
  | some split =>
      simp only [found]
      exact ((List.drop_suffix _ split.2).trans (splitAt?_suffix found)).trans inside

theorem stops_clauseHead (room : Nat) : StopsInside whole (clauseHead room) :=
  (Pattern.stops_read room).spaced.bind fun _ => (StopsInside.exactly _).bind fun _ => .pure _

theorem stops_terminator (room : Nat) : StopsInside whole (terminator room) :=
  StopsInside.spaces.bind fun _ => (Lexeme.stops_keyword _).orElse
    ((Lexeme.stops_keyword _).orElse ((stops_clauseHead room).bind fun _ => .pure _))

theorem stops_bindingHead (room : Nat) : StopsInside whole (bindingHead room) :=
  (Pattern.stops_read room).spaced.bind fun _ => (StopsInside.char '=').bind fun _ =>
    (StopsInside.satisfy _).notAhead.bind fun _ => .pure _

theorem stops_closeTag : StopsInside whole (closeTag delimiters) :=
  (StopsInside.spaces.bind fun _ => .exactly _).commit

theorem stops_openBlock : StopsInside whole (openBlock delimiters) :=
  ((Lexeme.stops_keyword _).spaced.require _).bind fun _ => stops_closeTag

theorem stops_wordTag (word : String) : StopsInside whole (wordTag delimiters word) :=
  (StopsInside.exactly _).bind fun _ => (Lexeme.stops_keyword word).spaced.bind fun _ =>
    .exactly _

theorem stops_closeBlock (block : String) : StopsInside whole (closeBlock delimiters block) :=
  (stops_wordTag _).require _

section Blocks

variable (stops : StopsInside whole body) (room : Nat)
include stops

theorem stops_readClause : StopsInside whole (readClause delimiters room body) :=
  (StopsInside.exactly _).bind fun _ => (stops_clauseHead room).bind fun _ =>
    stops_closeTag.bind fun _ => stops.bind fun _ => .pure _

theorem stops_readCond (negated : Bool) :
    StopsInside whole (readCond delimiters room body negated) := by
  refine (Expr.stops_read room).spaced.bind fun test => stops_openBlock.bind fun _ =>
    stops.bind fun holds => (stops_wordTag "else").optional.bind fun other => ?_
  have last (fails : List Node) : StopsInside whole (do
      closeBlock delimiters (if negated then "unless" else "if")
      return Action.cond negated test holds fails) :=
    (stops_closeBlock _).bind fun _ => .pure _
  cases other with
  | none => exact last []
  | some _ => exact stops.bind last

theorem stops_readLoop : StopsInside whole (readLoop delimiters room body) :=
  (Pattern.stops_read room).spaced.bind fun _ => ((StopsInside.exactly _).require _).bind fun _ =>
    (Expr.stops_read room).spaced.bind fun _ => stops_openBlock.bind fun _ =>
      stops.bind fun _ => (stops_closeBlock _).bind fun _ => .pure _

theorem stops_readChoice : StopsInside whole (readChoice delimiters room body) :=
  have clause := stops_readClause stops room
  (Expr.stops_read room).spaced.bind fun _ => stops_openBlock.bind fun _ =>
    StopsInside.spaces.bind fun _ => (clause.require _).bind fun _ =>
      clause.many.bind fun _ => (stops_closeBlock _).bind fun _ => .pure _

/-- A block without a call is reported where the expression begins. -/
theorem stops_readPlain : StopsInside whole (readPlain delimiters room body) := by
  refine .here fun start passed => (Expr.stops_read room).bind fun expr =>
    (Lexeme.stops_keyword _).spaced.optional.bind fun block => ?_
  cases block with
  | none => exact stops_closeTag.bind fun _ => .pure _
  | some _ =>
      cases expr with
      | call name args =>
          exact stops_closeTag.bind fun _ => stops.bind fun _ =>
            (stops_closeBlock name).bind fun _ => .pure _
      | _ => exact .failAt passed .blockWithoutCall

theorem stops_readAction : StopsInside whole (readAction delimiters room body) := by
  refine (Lexeme.stops_identifierWhere _).optional.bind fun word => ?_
  split
  · exact stops_readCond stops room false
  · exact stops_readCond stops room true
  · exact stops_readLoop stops room
  · exact stops_readChoice stops room
  · exact stops_readPlain stops room

theorem stops_readStatement (printed : Bool) :
    StopsInside whole (readStatement delimiters room body printed) := by
  have action : StopsInside whole (do
      spaces
      let action ← readAction delimiters room body
      return if printed then Node.print action else Node.silent action) :=
    StopsInside.spaces.bind fun _ => (stops_readAction stops room).bind fun _ => .pure _
  cases printed with
  | true => exact action
  | false =>
      refine (stops_bindingHead room).optional.bind fun binding => ?_
      cases binding with
      | none => exact action
      | some pattern =>
          exact (Expr.stops_read room).spaced.bind fun _ => stops_closeTag.bind fun _ => .pure _

end Blocks

/-- A tag that is too deep is reported where it begins. -/
theorem stops_readTag (room : Nat) {inside : Nat -> Bool -> Reader Node}
    (stops : ∀ room printed, StopsInside whole (inside room printed)) :
    StopsInside whole (readTag delimiters room inside) := by
  refine .here fun start passed => (StopsInside.exactly _).bind fun _ =>
    (StopsInside.char '=').optional.bind fun printed =>
      (stops_terminator room).notAhead.bind fun _ => ?_
  cases room with
  | zero => exact .failAt passed .tooDeep
  | succ room => exact stops room printed.isSome

/-- Reading nodes leaves a suffix of the source, whether it succeeds or not. -/
theorem stops_readAll (room : Nat) : StopsInside whole (readAll delimiters room) := by
  induction room with
  | zero =>
      exact (stops_readText.orElse (stops_readComment.orElse
        (stops_readTag 0 fun _ _ => .miss))).many
  | succ room inductionHypothesis =>
      exact (stops_readText.orElse (stops_readComment.orElse
        (stops_readTag (room + 1) fun _ printed =>
          stops_readStatement inductionHypothesis room printed))).many

end Node
end HtmlTemplate
