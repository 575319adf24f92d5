import HtmlTemplate.Helper.Paragraph
import Mathlib.Data.List.Induction

namespace HtmlTemplate
namespace Paragraph

/-!
# Every line in its paragraph

A text is parted at pairs of line feeds, from left to right, and the empty lines
of a block are dropped afterwards.  Of three line feeds in a row the last one
therefore begins the next block, and a pair at the end of a text leaves an empty
block behind.  None of this shows: up to blocks of white space, the blocks are
the runs of lines that are not empty.

The lines are those of the text as it was given.  They end with a line feed, with
or without a carriage return in front of it, and nothing has to be replaced in
the text to see them.
-/

/-! ## Lines and runs -/

/-- An item that does not part a list joins the first of the parts. -/
theorem exists_splitOnP_cons {α : Type} {parts : α -> Bool} {item : α} (stays : parts item = false)
    (rest : List α) :
    ∃ first others, rest.splitOnP parts = first :: others ∧
      (item :: rest).splitOnP parts = (item :: first) :: others := by
  rcases List.exists_cons_of_ne_nil (List.splitOnP_ne_nil parts rest) with ⟨first, others, parted⟩
  refine ⟨first, others, parted, ?_⟩
  rw [List.splitOnP_cons_eq_if_modifyHead, stays, parted]
  rfl

theorem exists_splitOn_cons {c : Char} (other : c ≠ '\n') (text : List Char) :
    ∃ first others, text.splitOn '\n' = first :: others ∧
      (c :: text).splitOn '\n' = (c :: first) :: others := by
  simp only [List.splitOn_eq_splitOnP]
  refine exists_splitOnP_cons ?_ text
  exact beq_false_of_ne other

theorem splitOn_feed (text : List Char) :
    ('\n' :: text).splitOn '\n' = [] :: text.splitOn '\n' :=
  List.splitOn_append_cons_self [] text

/-- A line without a carriage return at its end. -/
def withoutReturn (line : List Char) : List Char :=
  if line.getLast? = some '\r' then line.dropLast else line

/-- Lines without the carriage returns that are part of a line end.  All lines
have one but the last. -/
def withoutReturns : List (List Char) -> List (List Char)
  | [] => []
  | [last] => [last]
  | line :: next :: rest => withoutReturn line :: withoutReturns (next :: rest)

/-- The lines of a text.  A line ends with a line feed, and a carriage return
directly in front of that goes with it. -/
def textLines (text : String) : List (List Char) :=
  withoutReturns (text.toList.splitOn '\n')

theorem withoutReturns_cons {lines : List (List Char)} (filled : lines ≠ []) (line : List Char) :
    withoutReturns (line :: lines) = withoutReturn line :: withoutReturns lines := by
  cases lines with
  | nil => exact absurd rfl filled
  | cons next rest => rfl

/-- A character in front of a line stays there, unless it is the carriage return
of a line that is otherwise empty. -/
theorem withoutReturns_modifyHead {c : Char} {line : List Char} {others : List (List Char)}
    (kept : c = '\r' -> line = [] -> others = []) :
    withoutReturns ((c :: line) :: others) =
      (withoutReturns (line :: others)).modifyHead (c :: ·) := by
  cases others with
  | nil => rfl
  | cons next rest =>
      rw [withoutReturns_cons (List.cons_ne_nil next rest),
        withoutReturns_cons (List.cons_ne_nil next rest), List.modifyHead_cons]
      congr 1
      cases line with
      | nil =>
          have other : c ≠ '\r' := fun same => List.cons_ne_nil next rest (kept same rfl)
          simp [withoutReturn, other]
      | cons d line =>
          rw [withoutReturn, withoutReturn, List.getLast?_cons_cons]
          split <;> rfl

/-- It makes no difference whether the line ends are unified before the text is
split, or the carriage returns are taken off afterwards. -/
theorem splitOn_unifyLineEnds (text : List Char) :
    (unifyLineEnds text).splitOn '\n' = withoutReturns (text.splitOn '\n') := by
  fun_induction unifyLineEnds text with
  | case1 => rfl
  | case2 rest inductionHypothesis =>
      have other : '\r' ≠ '\n' := by decide
      rcases exists_splitOn_cons other ('\n' :: rest) with ⟨first, others, parted, joined⟩
      rw [splitOn_feed] at parted
      cases parted
      rw [joined, splitOn_feed, withoutReturns_cons (List.splitOn_ne_nil _ _), inductionHypothesis]
      rfl
  | case3 c rest single inductionHypothesis =>
      by_cases lineEnd : c = '\n'
      · subst lineEnd
        rw [splitOn_feed, splitOn_feed, withoutReturns_cons (List.splitOn_ne_nil _ _),
          inductionHypothesis]
        rfl
      · rcases exists_splitOn_cons lineEnd rest with ⟨first, others, parted, joined⟩
        rcases exists_splitOn_cons lineEnd (unifyLineEnds rest) with
          ⟨first', others', parted', joined'⟩
        rw [parted, parted'] at inductionHypothesis
        rw [joined, joined', withoutReturns_modifyHead, ← inductionHypothesis]
        · rfl
        · rintro rfl rfl
          cases rest with
          | nil =>
              cases parted
              rfl
          | cons d tail =>
              have other : d ≠ '\n' := by
                rintro rfl
                exact single tail rfl rfl
              rcases exists_splitOn_cons other tail with ⟨_, _, _, begun⟩
              rw [begun] at parted
              cases parted

/-- The longest runs of consecutive lines that are not empty, in order. -/
def runs (lines : List (List Char)) : List (List (List Char)) :=
  (lines.splitOnP List.isEmpty).filter fun run => !run.isEmpty

/-- The runs in which a line has more than white space. -/
def visibleRuns (lines : List (List Char)) : List (List (List Char)) :=
  (runs lines).filter fun run => run.any fun line => !isBlank line

/-- No line is lost, doubled or moved by parting lines into runs. -/
theorem flatten_runs (lines : List (List Char)) :
    (runs lines).flatten = lines.filter fun line => !line.isEmpty := by
  rw [runs, List.flatten_filter_not_isEmpty]
  induction lines with
  | nil => rfl
  | cons line rest inductionHypothesis =>
      cases line with
      | nil =>
          rw [List.splitOnP_cons_eq_if_modifyHead]
          exact inductionHypothesis
      | cons c line =>
          have stays : (c :: line).isEmpty = false := rfl
          rcases exists_splitOnP_cons stays rest with ⟨first, others, parted, joined⟩
          rw [parted] at inductionHypothesis
          rw [joined, List.filter_cons_of_pos (by rfl), ← inductionHypothesis]
          rfl

/-- An empty line ends a run. -/
theorem runs_append_empty (before behind : List (List Char)) :
    runs (before ++ [] :: behind) = runs before ++ runs behind := by
  rw [runs, List.splitOnP_append_cons _ _ List.isEmpty_nil, List.filter_append]
  rfl

/-- A line in front of one that is not empty is in the same run, unless it is
empty itself. -/
theorem runs_cons_cons {next : List Char} (filled : next ≠ []) (line : List Char)
    (rest : List (List Char)) :
    runs (line :: next :: rest) =
      (runs (next :: rest)).modifyHead (([line].filter fun line => !line.isEmpty) ++ ·) := by
  cases line with
  | nil =>
      have unmoved := congrFun List.modifyHead_id (runs (next :: rest))
      exact (runs_append_empty [] (next :: rest)).trans unmoved.symm
  | cons c line =>
      have stays : (c :: line).isEmpty = false := rfl
      have stays' : next.isEmpty = false := List.isEmpty_eq_false_iff.mpr filled
      rcases exists_splitOnP_cons stays' rest with ⟨first, others, _, joined'⟩
      rcases exists_splitOnP_cons stays (next :: rest) with ⟨_, _, same, joined⟩
      cases joined'.symm.trans same
      simp [runs, joined, joined']

/-! ## Blocks -/

theorem linesFrom_eq (line text : List Char) :
    linesFrom line text = (text.splitOn '\n').modifyHead (line.reverse ++ ·) := by
  have unmoved (lines : List (List Char)) : lines.modifyHead (fun line => line) = lines :=
    congrFun List.modifyHead_id lines
  fun_induction linesFrom line text with
  | case1 line => simp
  | case2 line rest inductionHypothesis => simp [splitOn_feed, inductionHypothesis, unmoved]
  | case3 line c rest other inductionHypothesis =>
      rcases exists_splitOn_cons other rest with ⟨first, others, parted, joined⟩
      simp [inductionHypothesis, parted, joined]

theorem lines_eq (block : List Char) :
    lines block = (block.splitOn '\n').filter fun line => !line.isEmpty := by
  rw [lines, linesFrom_eq]
  exact congrArg _ (congrFun List.modifyHead_id _)

theorem lines_append (line block : List Char) :
    lines (line ++ '\n' :: block) = lines line ++ lines block := by
  rw [lines_eq, lines_eq, lines_eq, List.splitOn_append_cons_self, List.filter_append]

theorem lines_plain {line : List Char} (plain : '\n' ∉ line) :
    lines line = [line].filter fun line => !line.isEmpty := by
  rw [lines_eq, List.splitOn_eq_singleton plain]

theorem lines_cons_ne_nil {c : Char} (other : c ≠ '\n') (block : List Char) :
    lines (c :: block) ≠ [] := by
  rcases exists_splitOn_cons other block with ⟨first, others, _, joined⟩
  rw [lines_eq, joined]
  simp

theorem all_isBlank_splitOn (text : List Char) :
    (text.splitOn '\n').all isBlank = isBlank text := by
  induction text with
  | nil => rfl
  | cons c text inductionHypothesis =>
      have spread : isBlank (c :: text) = (CharClass.isWhiteSpace c && isBlank text) := rfl
      rw [spread, ← inductionHypothesis]
      by_cases lineEnd : c = '\n'
      · subst lineEnd
        rw [splitOn_feed]
        rfl
      · rcases exists_splitOn_cons lineEnd text with ⟨first, others, parted, joined⟩
        rw [parted, joined, List.all_cons, List.all_cons, ← Bool.and_assoc]
        rfl

/-- A line feed is white space, so a block is blank if all its lines are. -/
theorem all_isBlank_lines (block : List Char) : (lines block).all isBlank = isBlank block := by
  rw [← all_isBlank_splitOn, lines_eq, List.all_filter]
  congr 1
  funext line
  cases line <;> rfl

/-- A character other than the first of two line feeds goes into the block in
progress. -/
theorem blocksFrom_cons {c : Char} {rest : List Char}
    (single : ¬(c = '\n' ∧ rest.head? = some '\n')) (block : List Char) :
    blocksFrom block (c :: rest) = blocksFrom (c :: block) rest := by
  rw [blocksFrom]
  rintro later rfl rfl
  exact single ⟨rfl, rfl⟩

theorem blocksFrom_eq (block text : List Char) :
    blocksFrom block text = (blocksFrom [] text).modifyHead (block.reverse ++ ·) := by
  induction text using List.twoStepInduction generalizing block with
  | nil => simp [blocksFrom]
  | singleton c => simp [blocksFrom_cons, blocksFrom]
  | cons_cons c d rest _ inductionHypothesis =>
      by_cases pair : c = '\n' ∧ d = '\n'
      · rcases pair with ⟨rfl, rfl⟩
        simp [blocksFrom]
      · have single : ¬(c = '\n' ∧ (d :: rest).head? = some '\n') := by simpa using pair
        rw [blocksFrom_cons single, blocksFrom_cons single, inductionHypothesis,
          inductionHypothesis _ [c]]
        simp [Function.comp_def]

/-- A line goes into the block in progress as a whole. -/
theorem blocksFrom_append {line : List Char} (plain : '\n' ∉ line) (block rest : List Char) :
    blocksFrom block (line ++ rest) = blocksFrom (line.reverse ++ block) rest := by
  induction line generalizing block with
  | nil => rfl
  | cons c line inductionHypothesis =>
      rw [List.mem_cons, not_or] at plain
      have single : ¬(c = '\n' ∧ (line ++ rest).head? = some '\n') :=
        fun pair => plain.1 pair.1.symm
      rw [List.cons_append, blocksFrom_cons single, inductionHypothesis plain.2]
      simp

/-! ## Blocks are runs

The lines of a text are taken one by one, and the blocks change with each of
them as the runs do.
-/

/-- The lines of each block, without the blocks that have none. -/
def filledBlocks (text : List Char) : List (List (List Char)) :=
  ((blocksFrom [] text).map lines).filter fun run => !run.isEmpty

theorem filledBlocks_plain {line : List Char} (plain : '\n' ∉ line) :
    filledBlocks line = runs [line] := by
  have whole : blocksFrom [] line = [line] := by
    simpa [blocksFrom] using blocksFrom_append plain [] []
  rw [filledBlocks, whole, List.map_singleton, lines_plain plain]
  cases line <;> rfl

/-- A single line feed at the end does not part a block. -/
theorem filledBlocks_plain_end {line : List Char} (plain : '\n' ∉ line) :
    filledBlocks (line ++ ['\n']) = runs [line] := by
  have whole : blocksFrom [] (line ++ ['\n']) = [line ++ ['\n']] := by
    rw [blocksFrom_append plain]
    simp [blocksFrom]
  have shown : lines (line ++ ['\n']) = lines line :=
    (lines_append line []).trans (List.append_nil _)
  rw [filledBlocks, whole, List.map_singleton, shown, lines_plain plain]
  cases line <;> rfl

theorem filledBlocks_pair {line : List Char} (plain : '\n' ∉ line) (rest : List Char) :
    filledBlocks (line ++ '\n' :: '\n' :: rest) = runs [line] ++ filledBlocks rest := by
  have parted : blocksFrom [] (line ++ '\n' :: '\n' :: rest) = line :: blocksFrom [] rest := by
    rw [blocksFrom_append plain]
    simp [blocksFrom]
  rw [filledBlocks, parted, List.map_cons, lines_plain plain]
  cases line <;> rfl

/-- A line that is not empty goes with the line in front of it. -/
theorem filledBlocks_cons {line : List Char} (plain : '\n' ∉ line) {c : Char} (other : c ≠ '\n')
    (rest : List Char) :
    filledBlocks (line ++ '\n' :: c :: rest) =
      (filledBlocks (c :: rest)).modifyHead (lines line ++ ·) := by
  have joined : blocksFrom [] (line ++ '\n' :: c :: rest) =
      (blocksFrom [] (c :: rest)).modifyHead (line ++ '\n' :: ·) := by
    rw [blocksFrom_append plain, blocksFrom_cons (by simpa using other), blocksFrom_eq]
    simp
  have begun : blocksFrom [] (c :: rest) = (blocksFrom [] rest).modifyHead (c :: ·) := by
    rw [blocksFrom_cons (fun pair => other pair.1), blocksFrom_eq]
    rfl
  rw [filledBlocks, filledBlocks, joined, begun]
  cases blocksFrom [] rest with
  | nil => rfl
  | cons first others =>
      have seen : (lines line ++ lines (c :: first)).isEmpty = false := by
        simp [lines_cons_ne_nil other first]
      have seen' : (lines (c :: first)).isEmpty = false := by
        simp [lines_cons_ne_nil other first]
      simp only [List.modifyHead_cons, List.map_cons, lines_append, List.filter_cons, seen, seen']
      rfl

/-- The blocks are the runs of lines. -/
theorem filledBlocks_intercalate {ls : List (List Char)} (plain : ∀ line ∈ ls, '\n' ∉ line) :
    filledBlocks (['\n'].intercalate ls) = runs ls := by
  induction ls using List.twoStepInduction with
  | nil => rfl
  | singleton line =>
      rw [List.intercalate_singleton]
      exact filledBlocks_plain (plain line List.mem_cons_self)
  | cons_cons line next rest shorter inductionHypothesis =>
      have plainLine := plain line List.mem_cons_self
      have plainNext := fun line member => plain line (List.mem_cons_of_mem _ member)
      have plainRest := fun line member => plainNext line (List.mem_cons_of_mem _ member)
      have inductionHypothesis := inductionHypothesis next plainNext
      rw [List.intercalate_cons_cons, List.append_assoc, List.singleton_append]
      cases next with
      | nil =>
          have ended := runs_append_empty [line] rest
          rw [List.singleton_append] at ended
          rw [ended]
          cases rest with
          | nil => exact (filledBlocks_plain_end plainLine).trans (List.append_nil _).symm
          | cons later rest =>
              rw [List.intercalate_cons_cons, List.nil_append, List.singleton_append,
                filledBlocks_pair plainLine, shorter plainRest]
      | cons c next =>
          have other : c ≠ '\n' := fun same =>
            plainNext _ List.mem_cons_self (same ▸ List.mem_cons_self)
          have begun : ∃ behind, ['\n'].intercalate ((c :: next) :: rest) = c :: behind := by
            cases rest <;> exact ⟨_, rfl⟩
          rcases begun with ⟨behind, begun⟩
          rw [begun] at inductionHypothesis ⊢
          rw [filledBlocks_cons plainLine other, inductionHypothesis, lines_plain plainLine,
            runs_cons_cons (List.cons_ne_nil c next)]

theorem notMem_of_mem_splitOn {text line : List Char} (member : line ∈ text.splitOn '\n') :
    '\n' ∉ line := by
  induction text generalizing line with
  | nil =>
      cases List.mem_singleton.mp member
      exact List.not_mem_nil
  | cons c text inductionHypothesis =>
      by_cases lineEnd : c = '\n'
      · subst lineEnd
        rw [splitOn_feed] at member
        rcases List.mem_cons.mp member with rfl | later
        · exact List.not_mem_nil
        · exact inductionHypothesis later
      · rcases exists_splitOn_cons lineEnd text with ⟨first, others, parted, joined⟩
        rw [parted] at inductionHypothesis
        rw [joined] at member
        rcases List.mem_cons.mp member with rfl | later
        · rw [List.mem_cons, not_or]
          exact ⟨Ne.symm lineEnd, inductionHypothesis List.mem_cons_self⟩
        · exact inductionHypothesis (List.mem_cons_of_mem _ later)

/-- The blocks with something visible are the runs with something visible. -/
theorem map_lines_blocks (text : List Char) :
    (blocks text).map lines = visibleRuns (text.splitOn '\n') := by
  have filled : filledBlocks (['\n'].intercalate (text.splitOn '\n')) = runs (text.splitOn '\n') :=
    filledBlocks_intercalate fun _ member => notMem_of_mem_splitOn member
  rw [List.intercalate_splitOn] at filled
  rw [visibleRuns, ← filled, filledBlocks, blocks, List.filter_filter, List.filter_map]
  congr 2
  funext block
  simp only [Function.comp_apply, ← List.not_all_eq_any_not, all_isBlank_lines]
  cases shown : lines block with
  | nil =>
      have blank := all_isBlank_lines block
      rw [shown] at blank
      simp [← blank]
  | cons line others => simp

/-! ## What is written -/

/-- The lines of a run as they stand in a paragraph. -/
def joined (breaks escaping : Bool) (run : List (List Char)) : String :=
  (if breaks then "<br>\n" else " ").intercalate
    (run.map fun line =>
      if escaping then Entity.escape (String.ofList line) else String.ofList line)

theorem bytes_joined (style : Style) (run : List (List Char)) :
    (Markup.concat ((run.map style.line).intersperse style.separator)).bytes =
      (joined style.lineBreaks style.escaping run).toUTF8 := by
  have single (line : List Char) : (style.line line).bytes =
      (if style.escaping then Entity.escape (String.ofList line) else String.ofList line).toUTF8 := by
    unfold Style.line
    split <;> simp
  have between : style.separator.bytes = (if style.lineBreaks then "<br>\n" else " ").toUTF8 := by
    unfold Style.separator
    split <;> simp
  induction run with
  | nil => rfl
  | cons line others inductionHypothesis =>
      cases others with
      | nil => simp [joined, single, String.intercalate_singleton]
      | cons next others =>
          simp only [joined, List.map_cons] at inductionHypothesis ⊢
          rw [List.intersperse_cons_cons, Markup.bytes_concat_cons, Markup.bytes_concat_cons,
            inductionHypothesis, single, between, String.intercalate_cons_cons]
          simp [ByteArray.append_assoc]

theorem bytes_concat (parts : List Markup) :
    (Markup.concat parts).bytes = (parts.map Markup.bytes).foldl (· ++ ·) .empty := by
  induction parts with
  | nil => rfl
  | cons part rest inductionHypothesis =>
      rw [Markup.bytes_concat_cons, inductionHypothesis, List.map_cons, List.foldl_cons,
        ByteArray.empty_append, Chunk.foldl_leaves part.bytes]

/-- A run of lines as a paragraph: the element around it and a line feed. -/
def paragraphBytes (style : Style) (run : List (List Char)) : Except Error ByteArray := do
  let content := joined style.lineBreaks style.escaping run
  let element ← Element.around style.wrapper (.markup (.raw content)) style.attributes
  return element.bytes ++ "\n".toUTF8

theorem bytes_paragraph (style : Style) (block : List Char) :
    (style.paragraph block).map Markup.bytes = paragraphBytes style (lines block) := by
  simp only [Style.paragraph, paragraphBytes, Element.around]
  cases Element.opening style.wrapper style.attributes with
  | error error => rfl
  | ok start =>
      refine congrArg Except.ok ?_
      simp [bytes_joined]

theorem bytes_paragraphs (style : Style) (blocks : List (List Char)) :
    (blocks.mapM style.paragraph).map (List.map Markup.bytes) =
      (blocks.map lines).mapM (paragraphBytes style) := by
  induction blocks with
  | nil => rfl
  | cons block rest inductionHypothesis =>
      simp only [List.mapM_cons, List.map_cons, ← bytes_paragraph, ← inductionHypothesis]
      cases style.paragraph block with
      | error error => rfl
      | ok first => cases rest.mapM style.paragraph <;> rfl

theorem bytes_styled (text : String) (style : Style) :
    (do
      let parts ← (blocks (unifyLineEnds text.toList)).mapM style.paragraph
      return Markup.concat parts : Except Error Markup).map Markup.bytes = do
    let paragraphs ← (visibleRuns (textLines text)).mapM (paragraphBytes style)
    return paragraphs.foldl (· ++ ·) .empty := by
  rw [textLines, ← splitOn_unifyLineEnds, ← map_lines_blocks, ← bytes_paragraphs]
  cases (blocks (unifyLineEnds text.toList)).mapM style.paragraph with
  | error error => rfl
  | ok parts => exact congrArg Except.ok (bytes_concat parts)

/-- Three line feeds in a row, white space alone in a run and in a line, and
empty lines at the end. -/
example : visibleRuns (textLines "a\r\nb\n\n\nc\n \n\n \n\n") =
    [["a".toList, "b".toList], ["c".toList, " ".toList]] := by
  decide +kernel

end Paragraph
end HtmlTemplate
