import HtmlTemplate.Proofs.Faults.Grammar
import HtmlTemplate.Syntax.Source
import Mathlib.Data.List.DropRight

namespace HtmlTemplate

/-!
# A fault points at the place where reading stopped

The row and the column of a fault are found in the lines of the text before it.
The last of these lines is not always the one that is reached, and its end may
be a carriage return and a line feed.  Counted directly, the row is the number
of line feeds, and the column the number of characters behind the last of them;
carriage returns do not matter.
-/

namespace SyntaxFault

/-! ## Lines -/

/-- A line feed ends the line in progress, and the next one is begun anew. -/
theorem linesFrom_append_feed (line text rest : List Char) :
    linesFrom line (text ++ '\n' :: rest) = linesFrom line (text ++ ['\n']) ++ linesFrom [] rest := by
  induction text generalizing line with
  | nil => rfl
  | cons c text inductionHypothesis =>
      simp only [List.cons_append, linesFrom]
      split
      · rw [inductionHypothesis, List.cons_append]
      · exact inductionHypothesis (c :: line)

theorem length_linesFrom_feed (line text : List Char) :
    (linesFrom line (text ++ ['\n'])).length = text.count '\n' + 1 := by
  induction text generalizing line with
  | nil => rfl
  | cons c text inductionHypothesis =>
      simp only [List.cons_append, linesFrom]
      split
      · rename_i feed
        rw [List.length_cons, inductionHypothesis, feed, List.count_cons_self]
      · rename_i noFeed
        rw [inductionHypothesis, List.count_cons_of_ne noFeed]

/-- Text without a line feed is collected in the line in progress. -/
theorem linesFrom_of_not_mem {text : List Char} (unbroken : '\n' ∉ text) (line : List Char) :
    linesFrom line text = linesFrom (text.reverse ++ line) [] := by
  induction text generalizing line with
  | nil => rfl
  | cons c text inductionHypothesis =>
      rw [List.mem_cons, not_or] at unbroken
      have collected : linesFrom line (c :: text) = linesFrom (c :: line) text :=
        if_neg (Ne.symm unbroken.1)
      rw [collected, inductionHypothesis unbroken.2, List.reverse_cons, List.append_assoc,
        List.singleton_append]

theorem linesFrom_line {line : List Char} (unbroken : '\n' ∉ line) (filled : line ≠ []) :
    linesFrom [] line = [line] := by
  have inProgress : line.reverse.isEmpty = false := by
    rw [List.isEmpty_eq_false_iff]
    exact fun empty => filled (List.reverse_eq_nil_iff.mp empty)
  rw [linesFrom_of_not_mem unbroken, List.append_nil, linesFrom, inProgress]
  simp

/-! ## Places -/

/-- The row is the number of lines before the last one, unless the text ends
with a line feed. -/
theorem placeAfter_of_lines {before line : List Char} {lines : List (List Char)}
    (known : linesFrom [] before = lines ++ [line]) :
    placeAfter before =
      if before.getLast? = some '\n' then (lines.length + 1, 0) else (lines.length, line.length) := by
  have last : (linesFrom [] before).zipIdx.getLast? = some (line, lines.length) := by
    simp [known, List.zipIdx_append]
  simp only [placeAfter, last, Option.getD_some]

theorem getLast?_ne_feed {line : List Char} (unbroken : '\n' ∉ line) :
    line.getLast? ≠ some '\n' :=
  fun last => unbroken (List.mem_of_getLast? last)

theorem placeAfter_line {line : List Char} (unbroken : '\n' ∉ line) :
    placeAfter line = (0, line.length) := by
  by_cases empty : line = []
  · subst empty
    rfl
  · have known : linesFrom [] line = [] ++ [line] := linesFrom_line unbroken empty
    rw [placeAfter_of_lines known, if_neg (getLast?_ne_feed unbroken)]
    rfl

theorem placeAfter_feed (text : List Char) {line : List Char} (unbroken : '\n' ∉ line) :
    placeAfter (text ++ '\n' :: line) = (text.count '\n' + 1, line.length) := by
  have number := length_linesFrom_feed [] text
  by_cases empty : line = []
  · subst empty
    have some' : linesFrom [] (text ++ ['\n']) ≠ [] := by
      intro none
      rw [none] at number
      cases number
    have known := (List.dropLast_append_getLast some').symm
    rw [placeAfter_of_lines known, if_pos List.getLast?_concat, List.length_dropLast, number]
    rfl
  · have whole : text ++ '\n' :: line = (text ++ ['\n']) ++ line := by
      rw [List.append_assoc, List.singleton_append]
    have noFeed : (text ++ '\n' :: line).getLast? ≠ some '\n' := by
      rw [whole, List.getLast?_append_of_ne_nil _ empty]
      exact getLast?_ne_feed unbroken
    have known : linesFrom [] (text ++ '\n' :: line) =
        linesFrom [] (text ++ ['\n']) ++ [line] := by
      rw [linesFrom_append_feed, linesFrom_line unbroken empty]
    rw [placeAfter_of_lines known, if_neg noFeed, number]

/-- The characters behind the last line feed, and the text up to it. -/
theorem cases_of_feed (before : List Char) :
    '\n' ∉ before ∨ ∃ text line, before = text ++ '\n' :: line ∧ '\n' ∉ line := by
  by_cases broken : '\n' ∈ before
  · rcases List.eq_append_cons_of_mem (List.mem_reverse.mpr broken) with ⟨line, text, same, clean⟩
    refine .inr ⟨text.reverse, line.reverse, ?_, fun found => clean (List.mem_reverse.mp found)⟩
    rw [← List.reverse_reverse before, same, List.reverse_append, List.reverse_cons,
      List.append_assoc, List.singleton_append]
  · exact .inl broken

/-- The row counts line feeds, the column the characters behind the last one. -/
theorem placeAfter_eq (before : List Char) :
    placeAfter before = (before.count '\n', (before.rtakeWhile (· ≠ '\n')).length) := by
  rcases cases_of_feed before with unbroken | ⟨text, line, rfl, unbroken⟩
  · have whole : before.rtakeWhile (· ≠ '\n') = before := by
      rw [List.rtakeWhile_eq_self_iff]
      intro c member
      exact decide_eq_true fun feed => unbroken (feed ▸ member)
    rw [placeAfter_line unbroken, whole, List.count_eq_zero_of_not_mem unbroken]
  · have last : (text ++ '\n' :: line).rtakeWhile (· ≠ '\n') = line := by
      have kept : ∀ c ∈ line.reverse, decide (c ≠ '\n') = true :=
        fun c member => decide_eq_true fun feed => unbroken (feed ▸ List.mem_reverse.mp member)
      rw [List.rtakeWhile, List.reverse_append, List.reverse_cons, List.append_assoc,
        List.takeWhile_append_of_pos kept]
      simp
    rw [placeAfter_feed text unbroken, last, List.count_append, List.count_cons_self,
      List.count_eq_zero_of_not_mem unbroken]

/-! ## Excerpts -/

theorem excerptOf_eq (rest : List Char) :
    excerptOf rest =
      if rest.length ≤ 40 then String.ofList (Quoted.quoteChars rest)
      else String.ofList (Quoted.quoteChars (rest.take 40)) ++ "..." := by
  by_cases short : rest.length ≤ excerptLength
  · rw [excerptOf, List.getElem?_eq_none short]
    exact (if_pos short).symm
  · rw [excerptOf, List.getElem?_eq_getElem (Nat.lt_of_not_le short)]
    exact (if_neg short).symm

end SyntaxFault

namespace Node

variable {delimiters : Delimiters} {template : Option String} {source : String}
  {fault : SyntaxFault}

/-- However reading stops, the fault is made from what is left. -/
theorem eq_ofRest_of_parse (refused : parse delimiters template source = .error fault) :
    ∃ cause, fault = .ofRest template cause source.toList
      (readAll delimiters maxDepth source.toList).left := by
  simp only [parse] at refused
  split at refused
  · cases refused
  all_goals
    rename_i read
    cases refused
    rw [read]
    exact ⟨_, rfl⟩

/-- A source that is refused is parted by what the readers left of it, and no
character is cut in two.  The fault shows the row and the column of that place
and the beginning of what stands there. -/
theorem place_of_parse (refused : parse delimiters template source = .error fault) :
    ∃ before after, (readAll delimiters maxDepth source.toList).left = after ∧
      source.toList = before ++ after ∧
      source.utf8ByteSize = (String.ofList before).utf8ByteSize + (String.ofList after).utf8ByteSize ∧
      fault.template = template ∧
      fault.row = before.count '\n' + 1 ∧
      fault.column = (before.rtakeWhile (· ≠ '\n')).length ∧
      fault.excerpt =
        if after.length ≤ 40 then String.ofList (Quoted.quoteChars after)
        else String.ofList (Quoted.quoteChars (after.take 40)) ++ "..." := by
  rcases eq_ofRest_of_parse refused with ⟨cause, rfl⟩
  have stopped : (readAll delimiters maxDepth source.toList).left <:+ source.toList :=
    stops_readAll maxDepth source.toList List.suffix_rfl
  rcases stopped with ⟨before, parted⟩
  generalize (readAll delimiters maxDepth source.toList).left = after at parted
  have start : source.toList.take (source.toList.length - after.length) = before := by
    rw [← parted, List.length_append, Nat.add_sub_cancel, List.take_left]
  have sizes : source = String.ofList before ++ String.ofList after := by
    rw [← String.ofList_append, parted, String.ofList_toList]
  refine ⟨before, after, rfl, parted.symm, ?_, rfl, ?_, ?_, SyntaxFault.excerptOf_eq after⟩
  · rw [← String.utf8ByteSize_append, ← sizes]
  · simp only [SyntaxFault.ofRest, start, SyntaxFault.placeAfter_eq]
  · simp only [SyntaxFault.ofRest, start, SyntaxFault.placeAfter_eq]

/-- A stray `end` on the second of two lines, the first ended by a carriage
return and a line feed, the second with a carriage return of its own. -/
theorem place_of_parse_stray :
    let source := "\u00e9\r\na\r<% end %>"
    ∃ fault before after, parse .standard none source = .error fault ∧
      (readAll .standard maxDepth source.toList).left = after ∧ source.toList = before ++ after ∧
      fault.row = before.count '\n' + 1 ∧ fault.row = 2 ∧
      fault.column = (before.rtakeWhile (· ≠ '\n')).length ∧ fault.column = 2 := by
  intro source
  have shown : (match parse .standard none source with
      | .ok _ => none
      | .error fault => some (fault.row, fault.column)) = some (2, 2) := by
    decide +kernel
  cases refused : parse .standard none source with
  | ok nodes =>
      rw [refused] at shown
      cases shown
  | error fault =>
      simp only [refused, Option.some.injEq, Prod.mk.injEq] at shown
      rcases place_of_parse refused with ⟨before, after, left, parted, _, _, row, column, _⟩
      exact ⟨fault, before, after, rfl, left, parted, row, shown.1, column, shown.2⟩

end Node
end HtmlTemplate
