import HtmlTemplate.Proofs.Concatenation.Tags
import Mathlib.Data.List.DropRight

namespace HtmlTemplate

/-!
# Tags and their blocks do not depend on what follows them

A tag is closed by its delimiter, and a block by a tag.  So a tag, with all of
its block, is read the same in front of any text.  The nodes in a block are read
up to a tag that closes or continues the block, and that such a tag stands there
does not depend on what follows either.
-/

open Reader

variable {α β : Type} {source rest : List Char} {room : Nat}

namespace Reader

/-! ## Readers that need an ending -/

/-- If what is left satisfies the condition `after`, the source satisfied the
condition `before`, and the other reader reads the same with more text after the
source. -/
structure Passes (before after : List Char -> Prop) (reader other : Reader α) : Prop where
  suffix : ∀ {source : List Char} {value : α} {rest : List Char},
    reader source = .ok value rest -> rest <:+ source
  grows : ∀ {source : List Char} {value : α} {rest : List Char},
    reader source = .ok value rest -> after rest ->
      before source ∧ ∀ extra, other (source ++ extra) = .ok value (rest ++ extra)

/-- A reader that reads the same with more text after its source, if what is
left satisfies a condition. -/
def Carries (before after : List Char -> Prop) (reader : Reader α) : Prop :=
  Passes before after reader reader

/-- The condition that always holds. -/
def Anything : List Char -> Prop :=
  fun _ => True

variable {before middle after : List Char -> Prop}

theorem eq_of_commit {reader : Reader α} {value : α}
    (read : commit reader source = .ok value rest) : reader source = .ok value rest := by
  simp only [commit] at read
  split at read
  · cases read
  · exact read

theorem eq_of_require {reader : Reader α} {cause : SyntaxCause} {value : α}
    (read : require cause reader source = .ok value rest) : reader source = .ok value rest := by
  simp only [require] at read
  split at read
  · cases read
  · exact read

theorem Passes.bind {reader other : Reader α} {next next' : α -> Reader β}
    (first : Passes before middle reader other)
    (second : ∀ value, Passes middle after (next value) (next' value)) :
    Passes before after (reader >>= next) (other >>= next') := by
  constructor
  · intro source last rest read
    rcases eq_ok_of_bind read with ⟨value, left, found, read⟩
    exact ((second value).suffix read).trans (first.suffix found)
  · intro source last rest read ending
    rcases eq_ok_of_bind read with ⟨value, left, found, read⟩
    rcases (second value).grows read ending with ⟨between, later⟩
    rcases first.grows found between with ⟨beginning, longer⟩
    exact ⟨beginning, fun extra => (bind_of_ok (longer extra)).trans (later extra)⟩

namespace Carries

variable {reader second : Reader α}

theorem bind {next : α -> Reader β} (first : Carries before middle reader)
    (last : ∀ value, Carries middle after (next value)) : Carries before after (reader >>= next) :=
  Passes.bind first last

theorem pure (value : α) : Carries before before (Pure.pure value : Reader α) := by
  constructor
  · intro source found rest read
    cases read
    exact List.suffix_rfl
  · intro source found rest read ending
    cases read
    exact ⟨ending, fun extra => rfl⟩

theorem failAt (start start' : List Char) (cause : SyntaxCause) :
    Passes before after (Reader.failAt start cause : Reader α) (Reader.failAt start' cause) := by
  constructor
  · intro source value rest impossible
    cases impossible
  · intro source value rest impossible
    cases impossible

/-- The place where reading stands is only good for failures. -/
theorem here {next : List Char -> Reader α}
    (each : ∀ start start', Passes before after (next start) (next start')) :
    Carries before after (Reader.here >>= next) := by
  constructor
  · intro source value rest read
    exact (each source source).suffix read
  · intro source value rest read ending
    refine ⟨((each source source).grows read ending).1, fun extra => ?_⟩
    exact ((each source (source ++ extra)).grows read ending).2 extra

theorem mono {before' after' : List Char -> Prop} (carries : Carries before after reader)
    (beginning : ∀ source, before source -> before' source)
    (ending : ∀ rest, after' rest -> after rest) : Carries before' after' reader where
  suffix := carries.suffix
  grows read last := by
    rcases carries.grows read (ending _ last) with ⟨first, longer⟩
    exact ⟨beginning _ first, longer⟩

theorem commit (carries : Carries before after reader) :
    Carries before after (Reader.commit reader) := by
  constructor
  · intro source value rest read
    exact carries.suffix (eq_of_commit read)
  · intro source value rest read ending
    rcases carries.grows (eq_of_commit read) ending with ⟨beginning, longer⟩
    exact ⟨beginning, fun extra => commit_of_ok (longer extra)⟩

theorem require (cause : SyntaxCause) (carries : Carries before after reader) :
    Carries before after (Reader.require cause reader) := by
  constructor
  · intro source value rest read
    exact carries.suffix (eq_of_require read)
  · intro source value rest read ending
    rcases carries.grows (eq_of_require read) ending with ⟨beginning, longer⟩
    refine ⟨beginning, fun extra => ?_⟩
    simp only [Reader.require, longer extra]

/-- Something that may be missing is carried if it stays missing. -/
theorem optional_bind {next : Option α -> Reader β} (first : Carries before middle reader)
    (found : ∀ value, Carries middle after (next (some value)))
    (none : Carries before after (next none))
    (stays : ∀ {source : List Char} {value : β} {rest : List Char},
      next .none source = .ok value rest -> ∀ extra,
        ∃ place, reader (source ++ extra) = .miss place) :
    Carries before after (Reader.optional reader >>= next) := by
  constructor
  · intro source last rest read
    cases accepted : reader source with
    | ok value left =>
        rw [bind_of_ok (optional_of_ok accepted)] at read
        exact ((found value).suffix read).trans (first.suffix accepted)
    | miss place =>
        rw [bind_of_ok (optional_of_miss accepted)] at read
        exact none.suffix read
    | fail place cause =>
        rw [bind_of_fail (optional_of_fail accepted)] at read
        cases read
  · intro source last rest read ending
    cases accepted : reader source with
    | ok value left =>
        rw [bind_of_ok (optional_of_ok accepted)] at read
        rcases (found value).grows read ending with ⟨between, later⟩
        rcases first.grows accepted between with ⟨beginning, longer⟩
        exact ⟨beginning, fun extra =>
          (bind_of_ok (optional_of_ok (longer extra))).trans (later extra)⟩
    | miss place =>
        rw [bind_of_ok (optional_of_miss accepted)] at read
        rcases none.grows read ending with ⟨beginning, later⟩
        refine ⟨beginning, fun extra => ?_⟩
        rcases stays read extra with ⟨place, missed⟩
        exact (bind_of_ok (optional_of_miss missed)).trans (later extra)
    | fail place cause =>
        rw [bind_of_fail (optional_of_fail accepted)] at read
        cases read

theorem suffix_of_rounds (carries : Carries before after reader) {values : List α}
    (rounds : Rounds reader source values rest) : rest <:+ source := by
  induction rounds with
  | done source => exact List.suffix_rfl
  | round read shorter others inductionHypothesis =>
      exact inductionHypothesis.trans (carries.suffix read)

theorem rounds_append (carries : Carries before before reader) {values : List α}
    (rounds : Rounds reader source values rest) (ending : before rest) :
    before source ∧ ∀ extra, Rounds reader (source ++ extra) values (rest ++ extra) := by
  induction rounds with
  | done source => exact ⟨ending, fun extra => .done _⟩
  | round read shorter others inductionHypothesis =>
      rcases inductionHypothesis ending with ⟨between, later⟩
      rcases carries.grows read between with ⟨beginning, longer⟩
      refine ⟨beginning, fun extra => .round (longer extra) ?_ (later extra)⟩
      simp only [List.length_append]
      omega

/-- A repetition is carried if its reader still misses where it ends. -/
theorem many (carries : Carries before before reader) (shortens : Shortens reader)
    (ending : ∀ rest, after rest -> before rest)
    (stays : ∀ {rest place}, after rest -> reader rest = .miss place -> ∀ extra,
      ∃ place, reader (rest ++ extra) = .miss place) :
    Carries before after (Reader.many reader) := by
  constructor
  · intro source values rest read
    exact carries.suffix_of_rounds (shortens.rounds_of_many read).1
  · intro source values rest read last
    rcases shortens.rounds_of_many read with ⟨rounds, place, missed⟩
    rcases carries.rounds_append rounds (ending rest last) with ⟨beginning, longer⟩
    refine ⟨beginning, fun extra => ?_⟩
    rcases stays last missed extra with ⟨place, missed⟩
    exact (longer extra).many_eq missed

end Carries

/-! ## Readers that never miss -/

/-- The reader reads or fails. -/
def NoMiss (reader : Reader α) : Prop :=
  ∀ source place, reader source ≠ .miss place

namespace NoMiss

variable {reader : Reader α} {next : α -> Reader β}

theorem pure (value : α) : NoMiss (Pure.pure value : Reader α) :=
  fun _ _ impossible => nomatch impossible

theorem commit (reader : Reader α) : NoMiss (Reader.commit reader) := by
  intro source place missed
  simp only [Reader.commit] at missed
  split at missed
  · cases missed
  · rename_i reply found
    exact found place missed

/-- If a composition misses, its first reader does. -/
theorem first_misses (second : ∀ value, NoMiss (next value)) {place : List Char}
    (missed : (reader >>= next) source = .miss place) : ∃ place, reader source = .miss place := by
  cases found : reader source with
  | ok value middle =>
      rw [bind_of_ok found] at missed
      exact absurd missed (second value middle place)
  | miss place => exact ⟨place, rfl⟩
  | fail place cause =>
      rw [bind_of_fail found] at missed
      cases missed

theorem bind (first : NoMiss reader) (second : ∀ value, NoMiss (next value)) :
    NoMiss (reader >>= next) := by
  intro source place missed
  rcases first_misses second missed with ⟨other, missed⟩
  exact first source other missed

end NoMiss

/-- What is steady inside of a tag keeps its fence. -/
theorem Steady.carries {reader : Reader α} (steady : Steady reader) :
    Carries Fenced Fenced reader where
  suffix read := (steady.kept read).1
  grows read ending := by
    have beginning := (steady.kept read).2.mp ending
    exact ⟨beginning, fun extra => steady.reads beginning read extra⟩

end Reader

namespace Node

/-! ## Delimiters -/

theorem exactly_eq_ok_iff {text : List Char} {result : Unit} :
    exactly text source = .ok result rest ↔ source = text ++ rest := by
  simp only [exactly]
  constructor
  · intro read
    split at read
    · rename_i begins
      cases read
      rcases List.isPrefixOf_iff_prefix.mp begins with ⟨tail, rfl⟩
      rw [List.drop_left]
    · cases read
  · rintro rfl
    have begins : text.isPrefixOf (text ++ rest) = true :=
      List.isPrefixOf_iff_prefix.mpr (List.prefix_append ..)
    rw [if_pos begins, List.drop_left]

theorem opening_eq_ok_iff {result : Unit} :
    opening .standard source = .ok result rest ↔ source = '<' :: '%' :: rest :=
  exactly_eq_ok_iff

theorem closing_eq_ok_iff {result : Unit} :
    closing .standard source = .ok result rest ↔ source = '%' :: '>' :: rest :=
  exactly_eq_ok_iff

theorem opening_tag (inside : List Char) :
    opening .standard ('<' :: '%' :: inside) = .ok () inside :=
  opening_eq_ok_iff.mpr rfl

/-- The beginning of a tag that has a fence. -/
def Tagged (source : List Char) : Prop :=
  ∃ inside, source = '<' :: '%' :: inside ∧ Fenced inside

theorem carries_opening : Carries Tagged Fenced (opening .standard) := by
  constructor
  · intro source result rest read
    rw [opening_eq_ok_iff.mp read]
    exact List.suffix_append ['<', '%'] rest
  · intro source result rest read ending
    rw [opening_eq_ok_iff.mp read]
    exact ⟨⟨rest, rfl, ending⟩, fun extra => opening_tag _⟩

theorem carries_closing : Carries Fenced Anything (closing .standard) := by
  constructor
  · intro source result rest read
    rw [closing_eq_ok_iff.mp read]
    exact List.suffix_append ['%', '>'] rest
  · intro source result rest read _
    rw [closing_eq_ok_iff.mp read]
    exact ⟨.fence _, fun extra => closing_eq_ok_iff.mpr rfl⟩

theorem carries_closeTag : Carries Fenced Anything (closeTag .standard) :=
  Carries.commit (Carries.bind Steady.spaces.carries fun _ => carries_closing)

theorem carries_openBlock : Carries Fenced Anything (openBlock .standard) :=
  Carries.bind ((Lexeme.steady_keyword "do").spaced.require _).carries fun _ => carries_closeTag

/-! ## Tags that close or continue a block -/

/-- A tag stands here that closes or continues a block. -/
def Stops (room : Nat) (source : List Char) : Prop :=
  ∃ inside rest, source = '<' :: '%' :: inside ∧ Fenced inside ∧
    terminator room inside = .ok () rest

theorem wordTag_eq_ok_iff {word : String} {result : Unit} :
    wordTag .standard word source = .ok result rest ↔ ∃ inside after,
      source = '<' :: '%' :: inside ∧
        Lexeme.keyword word (inside.dropWhile isSpace) = .ok () after ∧
        after.dropWhile isSpace = '%' :: '>' :: rest := by
  constructor
  · intro read
    rcases eq_ok_of_bind read with ⟨_, inside, opened, read⟩
    rcases eq_ok_of_bind read with ⟨_, middle, found, closed⟩
    rcases eq_ok_of_bind found with ⟨_, begun, skipped, found⟩
    cases skipped
    rcases eq_ok_of_bind found with ⟨_, after, named, found⟩
    cases found
    exact ⟨inside, after, opening_eq_ok_iff.mp opened, named, closing_eq_ok_iff.mp closed⟩
  · rintro ⟨inside, after, rfl, named, closed⟩
    refine (bind_of_ok (opening_tag inside)).trans ?_
    exact (bind_of_ok (spaced_of_ok named)).trans (closing_eq_ok_iff.mpr closed)

theorem fenced_of_word {word : String} {inside after : List Char}
    (named : Lexeme.keyword word (inside.dropWhile isSpace) = .ok () after)
    (closed : after.dropWhile isSpace = '%' :: '>' :: rest) : Fenced inside := by
  have ended : Fenced (after.dropWhile isSpace) := closed ▸ .fence ('>' :: rest)
  rw [fenced_dropWhile_iff Steady.isSpace_facts.1 Steady.isSpace_facts.2] at ended
  have before := ((Lexeme.steady_keyword word).kept named).2.mp ended
  rwa [fenced_dropWhile_iff Steady.isSpace_facts.1 Steady.isSpace_facts.2] at before

theorem keyword_of_keyword {word other : String} (different : word ≠ other)
    (read : Lexeme.keyword word source = .ok () rest) :
    Lexeme.keyword other source = .miss source := by
  rcases eq_ok_of_bind read with ⟨found, middle, accepted, _⟩
  rcases Lexeme.identifier_of_where accepted with ⟨named, same⟩
  refine Lexeme.keyword_of_ne named ?_
  rw [eq_of_beq same]
  exact different

/-- The two words end the nodes of a block. -/
theorem stops_of_wordTag {word : String} (known : word = "end" ∨ word = "else") {result : Unit}
    (read : wordTag .standard word source = .ok result rest) (room : Nat) : Stops room source := by
  rcases wordTag_eq_ok_iff.mp read with ⟨inside, after, rfl, named, closed⟩
  refine ⟨inside, after, rfl, fenced_of_word named closed, (bind_of_ok rfl).trans ?_⟩
  rcases known with rfl | rfl
  · exact orElse_of_ok named
  · exact (orElse_of_miss (keyword_of_keyword (by decide) named)).trans (orElse_of_ok named)

theorem carries_wordTag {word : String} (known : word = "end" ∨ word = "else") (room : Nat) :
    Carries (Stops room) Anything (wordTag .standard word) := by
  have carries : Carries Tagged Anything (wordTag .standard word) :=
    Carries.bind carries_opening fun _ =>
      Carries.bind (Lexeme.steady_keyword word).spaced.carries fun _ => carries_closing
  exact ⟨carries.suffix, fun read ending =>
    ⟨stops_of_wordTag known read room, (carries.grows read ending).2⟩⟩

theorem carries_closeBlock (block : String) (room : Nat) :
    Carries (Stops room) Anything (closeBlock .standard block) :=
  (carries_wordTag (.inl rfl) room).require _

/-- Where a block ends it does not go on with `else`, whatever follows. -/
theorem else_of_closeBlock {block : String} {result : Unit}
    (read : closeBlock .standard block source = .ok result rest) (extra : List Char) :
    ∃ place, wordTag .standard "else" (source ++ extra) = .miss place := by
  rcases wordTag_eq_ok_iff.mp (eq_of_require read) with ⟨inside, after, rfl, named, closed⟩
  have inner := fenced_of_word named closed
  have longer := (Lexeme.steady_keyword "end").reads
    ((fenced_dropWhile_iff Steady.isSpace_facts.1 Steady.isSpace_facts.2 _).mpr inner) named extra
  rw [← inner.dropWhile_append Steady.isSpace_facts.1 Steady.isSpace_facts.2] at longer
  have missed := spaced_of_miss (keyword_of_keyword (by decide : "end" ≠ "else") longer)
  exact ⟨_, (bind_of_ok (opening_tag (inside ++ extra))).trans (bind_of_miss missed)⟩

theorem ne_nil_of_stops (stops : Stops room source) : source ≠ [] := by
  rcases stops with ⟨inside, rest, rfl, _⟩
  exact List.cons_ne_nil _ _

/-- White space is not longer with more text if something follows it. -/
theorem carries_spaces : Carries Anything (· ≠ []) spaces := by
  constructor
  · intro source result rest read
    cases read
    exact List.dropWhile_suffix _
  · intro source result rest read ending
    cases read
    refine ⟨trivial, fun extra => congrArg (Reply.ok ()) ?_⟩
    rw [List.dropWhile_append, if_neg]
    simpa using ending

/-! ## Clauses -/

theorem keyword_cases (word : String) (source : List Char) :
    (∃ rest, Lexeme.keyword word source = .ok () rest) ∨
      ∃ place, Lexeme.keyword word source = .miss place := by
  cases source with
  | nil => exact .inr ⟨[], rfl⟩
  | cons c tail =>
      by_cases starts : Lexeme.isNameStart c = true
      · have named : ∃ name rest, Lexeme.identifier (c :: tail) = .ok name rest := by
          simp only [Lexeme.identifier, if_pos starts]
          exact ⟨_, _, rfl⟩
        rcases named with ⟨name, rest, named⟩
        by_cases same : name = word
        · subst same
          exact .inl ⟨rest, Lexeme.keyword_of_identifier named⟩
        · exact .inr ⟨_, Lexeme.keyword_of_ne named same⟩
      · exact .inr ⟨_, Lexeme.keyword_of_head (eq_false_of_ne_true starts) word⟩

theorem spaced_dropWhile (reader : Reader α) (source : List Char) :
    spaced reader (source.dropWhile isSpace) = spaced reader source := by
  have skipped : spaces (source.dropWhile isSpace) = .ok () (source.dropWhile isSpace) :=
    congrArg (Reply.ok ()) (List.dropWhile_idempotent isSpace source)
  exact (bind_of_ok skipped).trans (bind_of_ok rfl).symm

/-- The head of a clause ends the nodes of a block. -/
theorem terminator_of_clauseHead {inside : List Char} {pattern : Pattern}
    (read : clauseHead room inside = .ok pattern rest) :
    ∃ rest, terminator room inside = .ok () rest := by
  have again : clauseHead room (inside.dropWhile isSpace) = .ok pattern rest := by
    rcases eq_ok_of_bind read with ⟨found, middle, accepted, arrow⟩
    rw [← spaced_dropWhile] at accepted
    exact (bind_of_ok accepted).trans arrow
  have begun : terminator room inside = (Lexeme.keyword "end" <|> Lexeme.keyword "else" <|>
      (do let _ ← clauseHead room)) (inside.dropWhile isSpace) := bind_of_ok rfl
  rw [begun]
  rcases keyword_cases "end" (inside.dropWhile isSpace) with ⟨last, found⟩ | ⟨place, missed⟩
  · exact ⟨last, orElse_of_ok found⟩
  · rw [orElse_of_miss missed]
    rcases keyword_cases "else" (inside.dropWhile isSpace) with ⟨last, found⟩ | ⟨place, missed⟩
    · exact ⟨last, orElse_of_ok found⟩
    · rw [orElse_of_miss missed]
      exact ⟨rest, bind_of_ok again⟩

/-- The nodes of a block are read up to a tag that closes or continues it, and
what follows that tag does not matter. -/
structure Contained (room : Nat) (body : Reader (List Node)) : Prop where
  carries : Carries Anything (Stops room) body
  noMiss : NoMiss body

section Tags

variable {body : Reader (List Node)} (contained : Contained room body)
include contained

theorem carries_readClause : Carries (Stops room) (Stops room) (readClause .standard room body) := by
  have carries : Carries Tagged (Stops room) (readClause .standard room body) :=
    Carries.bind carries_opening fun _ => Carries.bind (steady_clauseHead room).carries fun _ =>
      Carries.bind carries_closeTag fun _ => Carries.bind contained.carries fun _ => .pure _
  refine ⟨carries.suffix, fun read ending => ?_⟩
  rcases carries.grows read ending with ⟨⟨inside, rfl, ended⟩, longer⟩
  rcases eq_ok_of_bind read with ⟨_, middle, opened, read⟩
  cases opening_eq_ok_iff.mp opened
  rcases eq_ok_of_bind read with ⟨pattern, middle, head, _⟩
  rcases terminator_of_clauseHead head with ⟨last, found⟩
  exact ⟨⟨inside, last, rfl, ended, found⟩, longer⟩

theorem shortens_readClause : Shortens (readClause .standard room body) := by
  have first : Shortens (opening .standard) := .exactly (by decide)
  have others : Carries Fenced (Stops room) (do
      let pattern ← clauseHead room
      closeTag .standard
      let nodes ← body
      return Clause.clause pattern nodes) :=
    Carries.bind (steady_clauseHead room).carries fun _ =>
      Carries.bind carries_closeTag fun _ => Carries.bind contained.carries fun _ => .pure _
  exact first.andThen fun _ => others.suffix

/-- Where no clause begins, none begins with more text either. -/
theorem readClause_misses {place : List Char} (stops : Stops room source)
    (missed : readClause .standard room body source = .miss place) (extra : List Char) :
    ∃ place, readClause .standard room body (source ++ extra) = .miss place := by
  rcases stops with ⟨inside, _, rfl, ended, _⟩
  have opened (rest : List Char) : readClause .standard room body ('<' :: '%' :: rest) =
      (do
        let pattern ← clauseHead room
        closeTag .standard
        let nodes ← body
        return Clause.clause pattern nodes : Reader Clause) rest := bind_of_ok (opening_tag rest)
  rw [opened] at missed
  rw [List.cons_append, List.cons_append, opened]
  have others (pattern : Pattern) : NoMiss (do
      closeTag .standard
      let nodes ← body
      return Clause.clause pattern nodes) :=
    (NoMiss.commit _).bind fun _ => contained.noMiss.bind fun _ => .pure _
  rcases NoMiss.first_misses others missed with ⟨_, missed⟩
  rcases (steady_clauseHead room).misses ended missed extra with ⟨last, missed⟩
  exact ⟨last, bind_of_miss missed⟩

/-! ## Statements -/

theorem carries_readCond (negated : Bool) :
    Carries Fenced Anything (readCond .standard room body negated) := by
  refine Carries.bind (Expr.steady_read room).spaced.carries fun test => ?_
  refine Carries.bind carries_openBlock fun _ => Carries.bind contained.carries fun holds => ?_
  have last (fails : List Node) : Carries (Stops room) Anything (do
      closeBlock .standard (if negated then "unless" else "if")
      return Action.cond negated test holds fails) :=
    Carries.bind (carries_closeBlock _ room) fun _ => .pure _
  refine Carries.optional_bind (carries_wordTag (.inr rfl) room)
    (fun _ => Carries.bind contained.carries last) (last []) ?_
  intro source action rest read extra
  rcases eq_ok_of_bind read with ⟨_, middle, skipped, read⟩
  cases skipped
  rcases eq_ok_of_bind read with ⟨_, middle, closed, _⟩
  exact else_of_closeBlock closed extra

theorem carries_readLoop : Carries Fenced Anything (readLoop .standard room body) := by
  refine Carries.bind (Pattern.steady_read room).spaced.carries fun pattern => ?_
  refine Carries.bind ((Steady.exactly rfl rfl).require _).carries fun _ => ?_
  refine Carries.bind (Expr.steady_read room).spaced.carries fun source => ?_
  exact Carries.bind carries_openBlock fun _ => Carries.bind contained.carries fun nodes =>
    Carries.bind (carries_closeBlock "for" room) fun _ => .pure _

theorem carries_readChoice : Carries Fenced Anything (readChoice .standard room body) := by
  have clause := carries_readClause contained
  refine Carries.bind (Expr.steady_read room).spaced.carries fun subject => ?_
  refine Carries.bind carries_openBlock fun _ => ?_
  have skipped : Carries Anything (Stops room) spaces :=
    carries_spaces.mono (fun _ known => known) fun _ => ne_nil_of_stops
  refine Carries.bind skipped fun _ => ?_
  refine Carries.bind (clause.require _) fun first => ?_
  refine Carries.bind (clause.many (shortens_readClause contained) (fun _ known => known)
    fun stops missed => readClause_misses contained stops missed) fun others => ?_
  exact Carries.bind (carries_closeBlock "case" room) fun _ => .pure _

theorem carries_readPlain : Carries Fenced Anything (readPlain .standard room body) := by
  refine .here fun start start' => Passes.bind (Expr.steady_read room).carries fun expr => ?_
  refine Passes.bind (Lexeme.steady_keyword "do").spaced.optional.carries fun block => ?_
  cases block with
  | none => exact Carries.bind carries_closeTag fun _ => .pure _
  | some _ =>
      cases expr with
      | call name args =>
          exact Carries.bind carries_closeTag fun _ => Carries.bind contained.carries fun nodes =>
            Carries.bind (carries_closeBlock name room) fun _ => .pure _
      | _ => exact Carries.failAt start start' _

theorem carries_readAction : Carries Fenced Anything (readAction .standard room body) := by
  refine Carries.bind (Lexeme.steady_identifierWhere _).optional.carries fun word => ?_
  split
  · exact carries_readCond contained false
  · exact carries_readCond contained true
  · exact carries_readLoop contained
  · exact carries_readChoice contained
  · exact carries_readPlain contained

theorem carries_readStatement (printed : Bool) :
    Carries Fenced Anything (readStatement .standard room body printed) := by
  have unbound (wrap : Action -> Node) : Carries Fenced Anything (do
      spaces
      let action ← readAction .standard room body
      return wrap action) :=
    Carries.bind Steady.spaces.carries fun _ =>
      Carries.bind (carries_readAction contained) fun _ => .pure _
  cases printed with
  | true => exact unbound .print
  | false =>
      refine Carries.bind (steady_bindingHead room).optional.carries fun found => ?_
      cases found with
      | none => exact unbound .silent
      | some pattern =>
          exact Carries.bind (Expr.steady_read room).spaced.carries fun expr =>
            Carries.bind carries_closeTag fun _ => .pure _

end Tags
end Node
end HtmlTemplate
