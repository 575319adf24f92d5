import HtmlTemplate.Proofs.Literals.Spelling
import HtmlTemplate.Proofs.Syntax.Lexemes
import Mathlib.Data.List.Forall2

namespace HtmlTemplate

/-!
# String literals denote what they spell

A string literal is taken apart twice.  The reader of sources only looks for its
end: it passes one character after every backslash, whatever that is.  The
reader of spellings knows the escapes, which are up to ten characters long.
Between quotes the two agree on rows of spelled characters, each one a plain
character or a whole escape.  Such a row ends where the reader of sources ends
it, and no literal that is no row is given a text.
-/

namespace Spelling

/-- One character as it is spelled between quotes.  The quote and the backslash
do not stand for themselves. -/
inductive SpelledChar : List Char -> Char -> Prop
  | itself {c : Char} (notQuote : c ≠ '"') (notBackslash : c ≠ '\\') : SpelledChar [c] c
  | simple {c found : Char} (known : (c, found) ∈ simpleEscapes) : SpelledChar ['\\', c] found
  | byte {high low : Char} {number : Nat} (digits : hexFrom? 0 [high, low] = some number)
      (small : number ≤ 0x7F) : SpelledChar ['\\', 'x', high, low] (Char.ofNat number)
  | codePoint {digits : List Char} {number : Nat} (some' : digits ≠ [])
      (few : digits.length ≤ 6) (known : hexFrom? 0 digits = some number)
      (valid : number.isValidChar) :
      SpelledChar ('\\' :: 'u' :: '{' :: (digits ++ ['}'])) (Char.ofNat number)

/-- The spelling is a row of spelled characters that stand for the text. -/
def Denotes (spelling text : List Char) : Prop :=
  ∃ pieces, spelling = pieces.flatten ∧ List.Forall₂ SpelledChar pieces text

/-- What can stand between two quotes of a source: every backslash has a
character after it, and no quote is without a backslash. -/
inductive Enclosed : List Char -> Prop
  | nil : Enclosed []
  | plain {c : Char} {rest : List Char} (notQuote : c ≠ '"') (notBackslash : c ≠ '\\')
      (others : Enclosed rest) : Enclosed (c :: rest)
  | escaped (c : Char) {rest : List Char} (others : Enclosed rest) : Enclosed ('\\' :: c :: rest)

variable {chars rest spelling text : List Char}

/-! ## Plain characters -/

/-- Characters that neither end a literal nor begin an escape. -/
def AllPlain (chars : List Char) : Prop :=
  ∀ c ∈ chars, c ≠ '"' ∧ c ≠ '\\'

theorem enclosed_cons_iff {c : Char} (notQuote : c ≠ '"') (notBackslash : c ≠ '\\') :
    Enclosed (c :: rest) ↔ Enclosed rest := by
  constructor
  · intro enclosed
    cases enclosed with
    | plain _ _ others => exact others
    | escaped _ _ => exact absurd rfl notBackslash
  · exact .plain notQuote notBackslash

theorem enclosed_append_iff (plain : AllPlain chars) : Enclosed (chars ++ rest) ↔ Enclosed rest := by
  induction chars with
  | nil => exact Iff.rfl
  | cons c chars inductionHypothesis =>
      rcases List.forall_mem_cons.mp plain with ⟨⟨notQuote, notBackslash⟩, later⟩
      rw [List.cons_append, enclosed_cons_iff notQuote notBackslash, inductionHypothesis later]

theorem enclosed_escaped_iff {c : Char} : Enclosed ('\\' :: c :: rest) ↔ Enclosed rest := by
  constructor
  · intro enclosed
    cases enclosed with
    | plain _ notBackslash _ => exact absurd rfl notBackslash
    | escaped _ others => exact others
  · exact .escaped c

theorem hexValue?_ne_none {number whole : Nat} {digits : List Char}
    (known : hexFrom? number digits = some whole) : ∀ c ∈ digits, hexValue? c ≠ none := by
  induction digits generalizing number with
  | nil => exact fun _ impossible => nomatch impossible
  | cons c digits inductionHypothesis =>
      rw [hexFrom?] at known
      cases digit : hexValue? c with
      | none =>
          rw [digit] at known
          cases known
      | some value =>
          rw [digit] at known
          refine List.forall_mem_cons.mpr ⟨?_, inductionHypothesis known⟩
          rw [digit]
          exact Option.some_ne_none value

theorem allPlain_of_hexFrom? {number whole : Nat} {digits : List Char}
    (known : hexFrom? number digits = some whole) : AllPlain digits := by
  intro c member
  have digit := hexValue?_ne_none known c member
  constructor
  · rintro rfl
    exact digit (by decide)
  · rintro rfl
    exact digit (by decide)

theorem allPlain_braces {number : Nat} {digits : List Char}
    (known : hexFrom? 0 digits = some number) : AllPlain ('{' :: (digits ++ ['}'])) := by
  simp only [AllPlain, List.forall_mem_cons, List.forall_mem_append]
  exact ⟨by decide, allPlain_of_hexFrom? known, by decide, nofun⟩

/-! ## Rows -/

theorem SpelledChar.enclosed_append_iff {c : Char} (spelled : SpelledChar chars c) :
    Enclosed (chars ++ rest) ↔ Enclosed rest := by
  cases spelled with
  | itself notQuote notBackslash =>
      exact Spelling.enclosed_append_iff
        (List.forall_mem_singleton.mpr ⟨notQuote, notBackslash⟩)
  | simple known => exact enclosed_escaped_iff
  | @byte high low number digits small =>
      have plain : AllPlain [high, low] := allPlain_of_hexFrom? digits
      exact enclosed_escaped_iff.trans (Spelling.enclosed_append_iff plain)
  | codePoint some' few known valid =>
      rw [List.cons_append, List.cons_append]
      exact enclosed_escaped_iff.trans (Spelling.enclosed_append_iff (allPlain_braces known))

theorem SpelledChar.spelled_append {c : Char} (spelled : SpelledChar chars c)
    (others : Spelled rest text) : Spelled (chars ++ rest) (c :: text) := by
  cases spelled with
  | itself notQuote notBackslash => exact .plain notBackslash others
  | simple known => exact .simple known others
  | byte digits small => exact .byte digits small others
  | codePoint some' few known valid =>
      have whole := Spelled.codePoint some' few known valid others
      simpa only [List.cons_append, List.append_assoc, List.nil_append] using whole

theorem Denotes.cons {c : Char} (first : SpelledChar chars c) (others : Denotes rest text) :
    Denotes (chars ++ rest) (c :: text) := by
  rcases others with ⟨pieces, rfl, each⟩
  exact ⟨chars :: pieces, List.flatten_cons.symm, .cons first each⟩

/-- Where a spelling stands between quotes, its plain characters are none of
the two that end it or begin an escape. -/
theorem denotes_of_spelled (spelled : Spelled spelling text) (enclosed : Enclosed spelling) :
    Denotes spelling text := by
  induction spelled with
  | nil => exact ⟨[], rfl, .nil⟩
  | plain notBackslash _ inductionHypothesis =>
      cases enclosed with
      | plain notQuote _ others => exact .cons (.itself notQuote notBackslash) (inductionHypothesis others)
      | escaped _ _ => exact absurd rfl notBackslash
  | simple known _ inductionHypothesis =>
      have first := SpelledChar.simple known
      exact .cons first (inductionHypothesis (first.enclosed_append_iff.mp enclosed))
  | byte digits small _ inductionHypothesis =>
      have first := SpelledChar.byte digits small
      exact .cons first (inductionHypothesis (first.enclosed_append_iff.mp enclosed))
  | @codePoint digits number rest text some' few known valid _ inductionHypothesis =>
      have first := SpelledChar.codePoint some' few known valid
      have whole : '\\' :: 'u' :: '{' :: (digits ++ '}' :: rest) =
          '\\' :: 'u' :: '{' :: (digits ++ ['}']) ++ rest := by
        simp only [List.cons_append, List.append_assoc, List.nil_append]
      rw [whole] at enclosed ⊢
      exact .cons first (inductionHypothesis (first.enclosed_append_iff.mp enclosed))

theorem denotes_iff : Denotes spelling text ↔ Enclosed spelling ∧ Spelled spelling text := by
  constructor
  · rintro ⟨pieces, rfl, each⟩
    induction each with
    | nil => exact ⟨.nil, .nil⟩
    | cons first _ inductionHypothesis =>
        rw [List.flatten_cons]
        exact ⟨first.enclosed_append_iff.mpr inductionHypothesis.1,
          first.spelled_append inductionHypothesis.2⟩
  · exact fun both => denotes_of_spelled both.2 both.1

end Spelling

namespace Lexeme

open Reader Spelling

/-! ## Literals in a source -/

theorem spellingFrom_of_enclosed {chars : List Char} (enclosed : Enclosed chars)
    (read rest : List Char) :
    spellingFrom read (chars ++ '"' :: rest) = some (read.reverse ++ chars, '"' :: rest) := by
  induction enclosed generalizing read with
  | nil =>
      rw [List.append_nil]
      rfl
  | @plain c chars notQuote notBackslash _ inductionHypothesis =>
      rw [List.cons_append, spellingFrom_of_ne notBackslash notQuote, inductionHypothesis,
        List.reverse_cons, List.append_assoc, List.singleton_append]
  | @escaped c chars _ inductionHypothesis =>
      have passed := inductionHypothesis (c :: '\\' :: read)
      simp only [List.reverse_cons, List.append_assoc, List.singleton_append] at passed
      exact passed

theorem enclosed_of_spellingFrom {read source text rest : List Char}
    (found : spellingFrom read source = some (text, rest)) :
    ∃ chars, source = chars ++ rest ∧ text = read.reverse ++ chars ∧ Enclosed chars := by
  induction read, source using spellingFrom.induct with
  | case1 read =>
      cases found
      exact ⟨[], rfl, (List.append_nil _).symm, .nil⟩
  | case2 read c source inductionHypothesis =>
      rcases inductionHypothesis found with ⟨chars, rfl, rfl, enclosed⟩
      exact ⟨'\\' :: c :: chars, rfl, by simp, .escaped c enclosed⟩
  | case3 read => cases found
  | case4 read source =>
      cases found
      exact ⟨[], rfl, (List.append_nil _).symm, .nil⟩
  | case5 read c source escaped mark notQuote inductionHypothesis =>
      have notBackslash : c ≠ '\\' := by
        intro same
        cases source with
        | nil => exact mark same rfl
        | cons head others => exact escaped head others same rfl
      rw [spellingFrom_of_ne notBackslash notQuote] at found
      rcases inductionHypothesis found with ⟨chars, rfl, rfl, enclosed⟩
      exact ⟨c :: chars, rfl, by simp, .plain notQuote notBackslash enclosed⟩

/-- A string literal goes up to the first quote that no backslash escapes. -/
theorem string_eq_ok_iff {source rest : List Char} {literal : Literal} :
    string source = .ok literal rest ↔ ∃ chars, Enclosed chars ∧
      literal = .str (String.ofList chars) ∧ source = '"' :: (chars ++ '"' :: rest) := by
  constructor
  · intro read
    rcases eq_ok_of_bind read with ⟨_, inside, opened, read⟩
    rcases eq_ok_of_bind read with ⟨text, last, spelled, read⟩
    rcases eq_ok_of_bind read with ⟨_, _, closed, done⟩
    cases eq_of_char opened
    cases eq_of_char closed
    cases done
    simp only [spelling] at spelled
    split at spelled
    · rename_i found
      cases spelled
      rcases enclosed_of_spellingFrom found with ⟨chars, rfl, same, enclosed⟩
      rw [List.reverse_nil, List.nil_append] at same
      exact ⟨chars, enclosed, by rw [same], rfl⟩
    · rename_i unclosed
      cases spelled
      cases unclosed
  · rintro ⟨chars, enclosed, rfl, rfl⟩
    have spelled : spelling (chars ++ '"' :: rest) = .ok chars ('"' :: rest) := by
      simp only [spelling, spellingFrom_of_enclosed enclosed, List.reverse_nil, List.nil_append]
    exact (bind_of_ok rfl).trans ((bind_of_ok spelled).trans (bind_of_ok rfl))

/-- Between quotes, a row of spelled characters is one literal, whatever follows
the closing quote, and it denotes the text that the row stands for.  Of all
literals that are read, only such rows denote a text; any other one is refused
by the reader of spellings. -/
theorem string_denotes_row :
    (∀ spelling text : List Char, Denotes spelling text ->
      (∀ rest, string ('"' :: (spelling ++ '"' :: rest)) = .ok (.str (String.ofList spelling)) rest) ∧
        Spelling.read (String.ofList spelling) = .ok (String.ofList text)) ∧
    ∀ source rest spelling, string source = .ok (.str spelling) rest ->
      (∀ text, Spelling.read spelling = .ok text ↔ Denotes spelling.toList text.toList) ∧
        ((¬∃ text, Denotes spelling.toList text) -> ∃ fault, Spelling.read spelling = .error fault) := by
  constructor
  · intro spelling text denotes
    rcases denotes_iff.mp denotes with ⟨enclosed, spelled⟩
    refine ⟨fun rest => string_eq_ok_iff.mpr ⟨spelling, enclosed, rfl, rfl⟩, ?_⟩
    rw [read_eq_ok_iff, String.toList_ofList, String.toList_ofList]
    exact spelled
  · intro source rest spelling read
    rcases string_eq_ok_iff.mp read with ⟨chars, enclosed, same, _⟩
    cases same
    rw [String.toList_ofList]
    have denoted (text : String) :
        Spelling.read (String.ofList chars) = .ok text ↔ Denotes chars text.toList := by
      rw [read_eq_ok_iff, String.toList_ofList, denotes_iff]
      exact ⟨fun spelled => ⟨enclosed, spelled⟩, fun both => both.2⟩
    refine ⟨denoted, fun noRow => ?_⟩
    cases known : Spelling.read (String.ofList chars) with
    | ok text => exact absurd ⟨text.toList, (denoted text).mp known⟩ noRow
    | error fault => exact ⟨fault, rfl⟩

/-- A closing delimiter, a line feed, an escaped quote and two numbered escapes
on the one hand, and an unknown escape on the other. -/
theorem string_denotes_row_mixed :
    string "\"%>\n\\\"\\x3C\\u\x7b2028\x7d\" + x".toList =
        .ok (.str "%>\n\\\"\\x3C\\u\x7b2028\x7d") " + x".toList ∧
      Spelling.read "%>\n\\\"\\x3C\\u\x7b2028\x7d" = .ok "%>\n\"<\u2028" ∧
      string "\"\\q\"".toList = .ok (.str "\\q") [] ∧
      ∃ fault, Spelling.read "\\q" = .error fault := by
  have less : SpelledChar ['\\', 'x', '3', 'C'] (Char.ofNat 0x3C) :=
    .byte (by decide) (by decide)
  have separator : SpelledChar ('\\' :: 'u' :: '{' :: (['2', '0', '2', '8'] ++ ['}']))
      (Char.ofNat 0x2028) :=
    .codePoint (by decide) (by decide) (by decide) (by decide)
  have denotes : Denotes "%>\n\\\"\\x3C\\u\x7b2028\x7d".toList "%>\n\"<\u2028".toList := by
    refine ⟨[['%'], ['>'], ['\n'], ['\\', '"'], ['\\', 'x', '3', 'C'],
      ['\\', 'u', '{', '2', '0', '2', '8', '}']], by decide, ?_⟩
    refine .cons (.itself (by decide) (by decide)) (.cons (.itself (by decide) (by decide)) ?_)
    refine .cons (.itself (by decide) (by decide)) (.cons (.simple (by decide)) ?_)
    exact .cons less (.cons separator .nil)
  have noRow : ¬∃ text, Denotes ['\\', 'q'] text := by
    rintro ⟨text, row⟩
    cases (denotes_iff.mp row).2 with
    | plain notBackslash _ => exact notBackslash rfl
    | simple known _ => simp [simpleEscapes] at known
  have unknown : string "\"\\q\"".toList = .ok (.str "\\q") [] := rfl
  have whole := string_denotes_row.1 _ _ denotes
  exact ⟨whole.1 " + x".toList, whole.2, unknown, (string_denotes_row.2 _ _ _ unknown).2 noRow⟩

end Lexeme
end HtmlTemplate
