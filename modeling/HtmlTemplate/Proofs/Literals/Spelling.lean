import HtmlTemplate.Text.Spelling

namespace HtmlTemplate
namespace Spelling

/-!
# What spellings denote

A spelling is read by a machine that goes from character to character.  Here
its language is said without the machine: a spelling is a row of characters
that stand for themselves and of whole escapes, and it denotes the characters
that these stand for.  The machine accepts exactly the rows, so a backslash
that begins no escape is never dropped or passed through.
-/

/-- The escapes of one character, with the character that each stands for. -/
def simpleEscapes : List (Char × Char) :=
  [('"', '"'), ('\'', '\''), ('\\', '\\'), ('n', '\n'), ('r', '\r'), ('t', '\t'), ('0', '\x00')]

/-- The number that hexadecimal digits denote, behind digits that were read
before. -/
def hexFrom? (number : Nat) : List Char -> Option Nat
  | [] => some number
  | c :: rest =>
      match hexValue? c with
      | some digit => hexFrom? (number * 16 + digit) rest
      | none => none

/-- A spelling and the characters that it denotes. -/
inductive Spelled : List Char -> List Char -> Prop
  | nil : Spelled [] []
  | plain {c : Char} {rest text : List Char} (unescaped : c ≠ '\\') (others : Spelled rest text) :
      Spelled (c :: rest) (c :: text)
  | simple {c found : Char} {rest text : List Char} (known : (c, found) ∈ simpleEscapes)
      (others : Spelled rest text) : Spelled ('\\' :: c :: rest) (found :: text)
  | byte {high low : Char} {number : Nat} {rest text : List Char}
      (digits : hexFrom? 0 [high, low] = some number) (small : number ≤ 0x7F)
      (others : Spelled rest text) :
      Spelled ('\\' :: 'x' :: high :: low :: rest) (Char.ofNat number :: text)
  | codePoint {digits : List Char} {number : Nat} {rest text : List Char}
      (some' : digits ≠ []) (few : digits.length ≤ 6) (known : hexFrom? 0 digits = some number)
      (valid : number.isValidChar) (others : Spelled rest text) :
      Spelled ('\\' :: 'u' :: '{' :: (digits ++ '}' :: rest)) (Char.ofNat number :: text)

/-! ## Escapes -/

theorem simple?_eq_some_iff {c found : Char} :
    simple? c = some found ↔ (c, found) ∈ simpleEscapes := by
  constructor
  · intro known
    unfold simple? at known
    split at known
    case h_8 => cases known
    all_goals
      cases known
      decide
  · intro known
    simp only [simpleEscapes, List.mem_cons, Prod.mk.injEq, List.not_mem_nil, or_false] at known
    rcases known with ⟨rfl, rfl⟩ | ⟨rfl, rfl⟩ | ⟨rfl, rfl⟩ | ⟨rfl, rfl⟩ | ⟨rfl, rfl⟩ | ⟨rfl, rfl⟩ |
      ⟨rfl, rfl⟩
    all_goals rfl

/-- No digit closes the braces. -/
theorem hexValue?_brace : hexValue? '}' = none := by
  decide

theorem ofCodePoint_eq_ok_iff {number : Nat} {found : Char} :
    ofCodePoint number = .ok found ↔ number.isValidChar ∧ found = Char.ofNat number := by
  by_cases valid : number.isValidChar
  · have read : ofCodePoint number = .ok (Char.ofNat number) := by
      rw [ofCodePoint, dif_pos valid, Char.ofNat, dif_pos valid]
    rw [read]
    exact ⟨fun same => ⟨valid, (Except.ok.inj same).symm⟩, fun both => congrArg Except.ok both.2.symm⟩
  · have read : ofCodePoint number = .error (.noCharacter number) := dif_neg valid
    rw [read]
    refine iff_of_false (fun same => ?_) fun both => valid both.1
    cases same

section Digits

variable {before found : List Char}

/-- Digits are collected up to the brace, and no more than six of them. -/
theorem readFrom_digits_eq_ok {chars : List Char} {number count : Nat} (within : count ≤ 6)
    (read : readFrom before (.digits number count) chars = .ok found) :
    ∃ digits rest whole, chars = digits ++ '}' :: rest ∧ 0 < count + digits.length ∧
      count + digits.length ≤ 6 ∧ hexFrom? number digits = some whole ∧ whole.isValidChar ∧
      readFrom (Char.ofNat whole :: before) .plain rest = .ok found := by
  induction chars generalizing number count with
  | nil => cases read
  | cons c chars inductionHypothesis =>
      simp only [readFrom, step] at read
      by_cases closes : c = '}'
      · subst closes
        by_cases empty : count = 0
        · simp [empty] at read
        · cases known : ofCodePoint number with
          | error fault => simp [empty, known, Except.map] at read
          | ok last =>
              rcases ofCodePoint_eq_ok_iff.mp known with ⟨valid, rfl⟩
              simp only [if_true, empty, if_false, known, Except.map] at read
              refine ⟨[], chars, number, rfl, ?_, within, rfl, valid, read⟩
              simp only [List.length_nil]
              omega
      · cases digit : hexValue? c with
        | none => simp [closes, digit] at read
        | some value =>
            by_cases room : count < 6
            · simp only [closes, if_false, digit, room, if_true] at read
              rcases inductionHypothesis room read with
                ⟨digits, rest, whole, rfl, _, few, known, valid, read⟩
              have length : count + (c :: digits).length = count + 1 + digits.length := by
                rw [List.length_cons]
                omega
              refine ⟨c :: digits, rest, whole, rfl, ?_, ?_, ?_, valid, read⟩
              · omega
              · omega
              · simp only [hexFrom?, digit, known]
            · simp [closes, digit, room] at read

theorem readFrom_digits {digits rest : List Char} {number whole count : Nat}
    (some' : 0 < count + digits.length) (few : count + digits.length ≤ 6)
    (known : hexFrom? number digits = some whole) (valid : whole.isValidChar) :
    readFrom before (.digits number count) (digits ++ '}' :: rest) =
      readFrom (Char.ofNat whole :: before) .plain rest := by
  induction digits generalizing number count with
  | nil =>
      have begun : count ≠ 0 := by
        simp only [List.length_nil] at some'
        omega
      cases known
      have last := ofCodePoint_eq_ok_iff.mpr ⟨valid, rfl⟩
      simp only [List.nil_append, readFrom, step, if_true, begun, if_false, last, Except.map]
  | cons c digits inductionHypothesis =>
      simp only [List.length_cons] at some' few
      cases digit : hexValue? c with
      | none => simp [hexFrom?, digit] at known
      | some value =>
          have open' : c ≠ '}' := by
            rintro rfl
            rw [hexValue?_brace] at digit
            cases digit
          have room : count < 6 := by omega
          simp only [hexFrom?, digit] at known
          simp only [List.cons_append, readFrom, step, open', if_false, digit, room, if_true]
          exact inductionHypothesis (by omega) (by omega) known

end Digits

section Escapes

variable {before found chars : List Char}

theorem readFrom_backslash_x :
    readFrom before .plain ('\\' :: 'x' :: chars) = readFrom before (.byte 0 0) chars :=
  rfl

theorem readFrom_backslash_u :
    readFrom before .plain ('\\' :: 'u' :: '{' :: chars) = readFrom before (.digits 0 0) chars :=
  rfl

theorem readFrom_byte_eq_ok (read : readFrom before (.byte 0 0) chars = .ok found) :
    ∃ high low number rest, chars = high :: low :: rest ∧ hexFrom? 0 [high, low] = some number ∧
      number ≤ 0x7F ∧ readFrom (Char.ofNat number :: before) .plain rest = .ok found := by
  rcases chars with _ | ⟨high, chars⟩
  · cases read
  · cases first : hexValue? high with
    | none => simp [readFrom, step, first] at read
    | some first' =>
        rcases chars with _ | ⟨low, rest⟩
        · simp [readFrom, step, first, finish, Except.map] at read
        · cases second : hexValue? low with
          | none => simp [readFrom, step, first, second] at read
          | some second' =>
              by_cases large : 0x7F < (0 * 16 + first') * 16 + second'
              · simp only [readFrom, step, first, second, large, if_true, if_false,
                  Nat.one_ne_zero] at read
                cases read
              · simp only [readFrom, step, first, second, large, if_true, if_false,
                  Nat.one_ne_zero] at read
                refine ⟨high, low, _, rest, rfl, ?_, Nat.le_of_not_lt large, read⟩
                simp only [hexFrom?, first, second]

theorem readFrom_byte {high low : Char} {number : Nat} {rest : List Char}
    (digits : hexFrom? 0 [high, low] = some number) (small : number ≤ 0x7F) :
    readFrom before (.byte 0 0) (high :: low :: rest) =
      readFrom (Char.ofNat number :: before) .plain rest := by
  cases first : hexValue? high with
  | none => simp [hexFrom?, first] at digits
  | some first' =>
      cases second : hexValue? low with
      | none => simp [hexFrom?, first, second] at digits
      | some second' =>
          simp only [hexFrom?, first, second, Option.some.injEq] at digits
          subst digits
          have fits : ¬0x7F < (0 * 16 + first') * 16 + second' := Nat.not_lt.mpr small
          simp only [readFrom, step, first, second, fits, if_true, if_false, Nat.one_ne_zero]

theorem readFrom_brace_eq_ok (read : readFrom before .brace chars = .ok found) :
    ∃ rest, chars = '{' :: rest ∧ readFrom before (.digits 0 0) rest = .ok found := by
  rcases chars with _ | ⟨c, rest⟩
  · cases read
  · by_cases opens : c = '{'
    · subst opens
      exact ⟨rest, rfl, read⟩
    · simp [readFrom, step, opens] at read

end Escapes

/-! ## Whole spellings -/

/-- Behind a backslash there is one of the escapes. -/
theorem readFrom_escaped_eq_ok {before found chars : List Char}
    (read : readFrom before .escaped chars = .ok found) :
    ∃ escape rest c, chars = escape ++ rest ∧ escape ≠ [] ∧
      readFrom (c :: before) .plain rest = .ok found ∧
      ∀ text, Spelled rest text -> Spelled ('\\' :: chars) (c :: text) := by
  rcases chars with _ | ⟨mark, chars⟩
  · cases read
  · cases known : simple? mark with
    | some c =>
        simp only [readFrom, step, known] at read
        exact ⟨[mark], chars, c, rfl, List.cons_ne_nil _ _, read,
          fun text others => .simple (simple?_eq_some_iff.mp known) others⟩
    | none =>
        by_cases isByte : mark = 'x'
        · subst isByte
          rcases readFrom_byte_eq_ok read with ⟨high, low, number, rest, rfl, digits, small, read⟩
          exact ⟨['x', high, low], rest, _, rfl, List.cons_ne_nil _ _, read,
            fun text others => .byte digits small others⟩
        · by_cases isCode : mark = 'u'
          · subst isCode
            rcases readFrom_brace_eq_ok read with ⟨chars, rfl, read⟩
            rcases readFrom_digits_eq_ok (Nat.zero_le 6) read with
              ⟨digits, rest, number, rfl, some', few, digits', valid, read⟩
            rw [Nat.zero_add] at some' few
            refine ⟨'u' :: '{' :: (digits ++ ['}']), rest, _, ?_, List.cons_ne_nil _ _, read, ?_⟩
            · simp only [List.cons_append, List.append_assoc, List.nil_append]
            · exact fun text others =>
                .codePoint (List.length_pos_iff.mp some') few digits' valid others
          · simp [readFrom, step, known, isByte, isCode] at read

theorem spelled_of_readFrom : (chars : List Char) -> {before found : List Char} ->
    readFrom before .plain chars = .ok found ->
    ∃ text, Spelled chars text ∧ found = before.reverse ++ text
  | [], before, found, read => by
      cases read
      exact ⟨[], .nil, (List.append_nil _).symm⟩
  | c :: chars, before, found, read => by
      by_cases escaped : c = '\\'
      · subst escaped
        rcases readFrom_escaped_eq_ok read with ⟨escape, rest, c, rfl, nonempty, read, spelled⟩
        have shorter : rest.length < (escape ++ rest).length := by
          have positive := List.length_pos_iff.mpr nonempty
          rw [List.length_append]
          omega
        rcases spelled_of_readFrom rest read with ⟨text, others, rfl⟩
        exact ⟨c :: text, spelled text others, by simp⟩
      · simp only [readFrom, step, escaped, if_false] at read
        rcases spelled_of_readFrom chars read with ⟨text, others, rfl⟩
        exact ⟨c :: text, .plain escaped others, by simp⟩
termination_by chars => chars.length

theorem Spelled.readFrom {chars text : List Char} (spelled : Spelled chars text)
    (before : List Char) :
    Spelling.readFrom before .plain chars = .ok (before.reverse ++ text) := by
  induction spelled generalizing before with
  | nil => simp [Spelling.readFrom, finish, Except.map]
  | plain unescaped _ inductionHypothesis =>
      simp [Spelling.readFrom, step, unescaped, inductionHypothesis]
  | simple known _ inductionHypothesis =>
      simp [Spelling.readFrom, step, simple?_eq_some_iff.mpr known, inductionHypothesis]
  | byte digits small _ inductionHypothesis =>
      rw [readFrom_backslash_x, readFrom_byte digits small, inductionHypothesis]
      simp
  | codePoint some' few known valid _ inductionHypothesis =>
      rw [readFrom_backslash_u, readFrom_digits ?_ ?_ known valid, inductionHypothesis]
      · simp
      · rw [Nat.zero_add]
        exact List.length_pos_iff.mpr some'
      · rw [Nat.zero_add]
        exact few

/-- A spelling is read exactly if it is a row of plain characters and whole
escapes, as what they denote. -/
theorem read_eq_ok_iff {spelling text : String} :
    read spelling = .ok text ↔ Spelled spelling.toList text.toList := by
  constructor
  · intro done
    cases known : readFrom [] .plain spelling.toList with
    | error fault => simp [read, known, Except.map] at done
    | ok found =>
        simp only [read, known, Except.map, Except.ok.injEq] at done
        rcases spelled_of_readFrom _ known with ⟨text', spelled, rfl⟩
        subst done
        simpa using spelled
  · intro spelled
    simp [read, spelled.readFrom, Except.map]

end Spelling
end HtmlTemplate
