import HtmlTemplate.Proofs.Concatenation.Rendering
import HtmlTemplate.Proofs.Segments.Templates

namespace HtmlTemplate

/-!
# Any text can be written

A text is written into a source by a percent sign after each opening delimiter
in it.  The delimiters are looked for from the left in the text, and the reader
looks for them in what was written.  Both find the same places, whatever the
delimiter is: where one is found is settled by the text in front of it and the
delimiter itself, and both go on behind it as if nothing had come before.
-/

namespace Delimiters

/-- A text with a percent sign after each opening delimiter.  The delimiters are
found from the left, and they do not overlap. -/
def markOpenings (opening : List Char) : List Char -> List Char
  | [] => []
  | c :: rest =>
      if opening.isPrefixOf (c :: rest) then
        opening ++ '%' :: markOpenings opening (rest.drop (opening.length - 1))
      else c :: markOpenings opening rest
termination_by text => text.length
decreasing_by
  all_goals simp only [List.length_drop, List.length_cons]; omega

/-- The source that stands for a text. -/
def verbatim (delimiters : Delimiters) (text : String) : String :=
  String.ofList (markOpenings delimiters.opening.toList text.toList)

end Delimiters

/-! ## Where a delimiter is found -/

section Places

variable {text content : List Char}

theorem Absent.tail {c : Char} {rest : List Char} (absent : Absent text (c :: content) rest) :
    Absent text content rest := by
  rintro passed left rfl
  exact absent (c :: passed) left rfl

/-- What follows a place makes no difference to the places in front of it. -/
theorem Absent.before {after : List Char} (absent : Absent text content (text ++ after))
    (later : List Char) : Absent text content (text ++ later) := by
  intro passed left split filled begins
  refine absent passed left split filled ?_
  rw [← List.append_assoc] at begins ⊢
  -- A place further in front ends within the delimiter, whatever is behind it.
  have inside : text <+: left ++ text :=
    List.prefix_of_prefix_length_le begins (List.prefix_append _ later) (by simp)
  exact inside.trans (List.prefix_append _ after)

theorem Absent.not_begins {c : Char} {rest : List Char} (absent : Absent text (c :: content) rest) :
    ¬text.isPrefixOf (c :: (content ++ rest)) = true := by
  rw [List.isPrefixOf_iff_prefix]
  exact absent [] (c :: content) rfl (List.cons_ne_nil c content)

namespace Node

theorem splitAt_of_absent {later : List Char} (absent : Absent text content later)
    (there : text <+: later) (filled : later ≠ []) (before : List Char) :
    splitAt? text before (content ++ later) = some (before.reverse ++ content, later) := by
  induction content generalizing before with
  | nil =>
      cases later with
      | nil => exact absurd rfl filled
      | cons c tail =>
          rw [List.append_nil]
          exact if_pos (List.isPrefixOf_iff_prefix.mpr there)
  | cons c content inductionHypothesis =>
      rw [List.cons_append, splitAt?, if_neg absent.not_begins,
        inductionHypothesis absent.tail (c :: before), List.reverse_cons, List.append_assoc,
        List.singleton_append]

end Node

namespace Delimiters

variable {opening after : List Char}

/-- Text without a delimiter is written as it is. -/
theorem markOpenings_of_absent (absent : Absent opening text []) :
    markOpenings opening text = text := by
  induction text with
  | nil => rw [markOpenings]
  | cons c text inductionHypothesis =>
      have later := absent.not_begins
      rw [List.append_nil] at later
      rw [markOpenings, if_neg later, inductionHypothesis absent.tail]

/-- Up to the first delimiter a text is written as it is. -/
theorem markOpenings_append (filled : opening ≠ [])
    (absent : Absent opening content (opening ++ after)) :
    markOpenings opening (content ++ (opening ++ after)) =
      content ++ (opening ++ '%' :: markOpenings opening after) := by
  induction content with
  | nil =>
      cases opening with
      | nil => exact absurd rfl filled
      | cons c opening =>
          have begins : (c :: opening).isPrefixOf (c :: (opening ++ after)) = true :=
            List.isPrefixOf_iff_prefix.mpr (List.prefix_append (c :: opening) after)
          rw [List.nil_append, List.nil_append, List.cons_append, markOpenings, if_pos begins,
            List.length_cons, Nat.add_sub_cancel, List.drop_left]
  | cons c content inductionHypothesis =>
      rw [List.cons_append, markOpenings, if_neg absent.not_begins,
        inductionHypothesis absent.tail, List.cons_append]

end Delimiters

end Places

/-! ## Reading it back -/

namespace Node

open Reader

variable {delimiters : Delimiters}

/-- A delimiter with its sign is a text of its own. -/
theorem readText_escape (delimiters : Delimiters) (rest : List Char) :
    readText delimiters (delimiters.opening.toList ++ '%' :: rest) =
      .ok (.text delimiters.opening) rest := by
  have begins : delimiters.opening.toList.isPrefixOf
      (delimiters.opening.toList ++ '%' :: rest) = true :=
    List.isPrefixOf_iff_prefix.mpr (List.prefix_append _ _)
  have inside : (delimiters.opening.toList ++ '%' :: rest).isEmpty = false := by
    simp
  simp only [readText, inside, Bool.false_eq_true, if_false, if_pos begins, List.drop_left]

/-- Text in front of a delimiter ends where the delimiter begins. -/
theorem readText_before {content after : List Char} (filled : content ≠ [])
    (filled' : delimiters.opening.toList ≠ [])
    (absent : Absent delimiters.opening.toList content (delimiters.opening.toList ++ after)) :
    readText delimiters (content ++ (delimiters.opening.toList ++ after)) =
      .ok (.text (String.ofList content)) (delimiters.opening.toList ++ after) := by
  have found := splitAt_of_absent absent (List.prefix_append _ after) (by simp [filled']) []
  exact readText_of_split delimiters filled found

/-- What was written for a text is read as texts, which together are the text
again. -/
theorem rounds_markOpenings (filled : delimiters.opening.toList ≠ []) (others : Reader Node)
    (text : List Char) : ∃ pieces : List String,
      Rounds (readText delimiters <|> others)
        (Delimiters.markOpenings delimiters.opening.toList text) (pieces.map .text) [] ∧
      pieces.flatMap String.toList = text := by
  cases found : splitAt? delimiters.opening.toList [] text with
  | none =>
      rw [Delimiters.markOpenings_of_absent (absent_of_none found)]
      by_cases empty : text = []
      · subst empty
        exact ⟨[], .done [], rfl⟩
      · have whole := readText_of_none delimiters empty found
        refine ⟨[String.ofList text], ?_, by simp⟩
        exact .round (orElse_of_ok whole) (List.length_pos_iff.mpr empty) (.done [])
  | some pair =>
      rcases pair with ⟨content, rest⟩
      rcases eq_of_splitAt filled found with ⟨_, rfl, whole, after, rfl⟩
      rw [whole] at found
      have absent := absent_of_splitAt found
      have shorter : after.length < text.length := by
        have size := List.length_pos_iff.mpr filled
        rw [whole, List.length_append, List.length_append]
        omega
      rw [whole, Delimiters.markOpenings_append filled absent]
      rcases rounds_markOpenings filled others after with ⟨pieces, rounds, same⟩
      have escaped : Rounds (readText delimiters <|> others)
          (delimiters.opening.toList ++ '%' ::
            Delimiters.markOpenings delimiters.opening.toList after)
          ((delimiters.opening :: pieces).map .text) [] := by
        refine .round (orElse_of_ok (readText_escape delimiters _)) ?_ rounds
        simp only [List.length_append, List.length_cons]
        omega
      -- No text is empty, so a delimiter at the very front is the first piece.
      by_cases empty : content = []
      · subst empty
        exact ⟨delimiters.opening :: pieces, escaped, by simp [same]⟩
      · have front := readText_before empty filled (absent.before
          ('%' :: Delimiters.markOpenings delimiters.opening.toList after))
        have size := List.length_pos_iff.mpr empty
        refine ⟨String.ofList content :: delimiters.opening :: pieces, ?_, by simp [same]⟩
        refine .round (orElse_of_ok front) ?_ escaped
        simp only [List.length_append]
        omega
termination_by text.length

/-- Nodes are read until the source ends, texts first. -/
theorem readAll_eq_many (filled : delimiters.opening.toList ≠ []) (room : Nat) :
    ∃ others : Reader Node, readAll delimiters room = many (readText delimiters <|> others) ∧
      (readText delimiters <|> others) [] = .miss [] := by
  have noTag : opening delimiters [] = .miss [] := by
    refine if_neg ?_
    rw [List.isPrefixOf_iff_prefix, List.prefix_nil]
    exact filled
  have noText : readText delimiters [] = .miss [] := rfl
  have noComment : readComment delimiters [] = .miss [] :=
    (bind_of_ok rfl).trans (bind_of_miss noTag)
  have ended (inside : Nat -> Bool -> Reader Node) : readTag delimiters room inside [] = .miss [] :=
    (bind_of_ok rfl).trans (bind_of_miss noTag)
  cases room with
  | zero =>
      exact ⟨_, rfl, (orElse_of_miss noText).trans ((orElse_of_miss noComment).trans (ended _))⟩
  | succ room =>
      exact ⟨_, rfl, (orElse_of_miss noText).trans ((orElse_of_miss noComment).trans (ended _))⟩

theorem parse_verbatim (filled : delimiters.opening.toList ≠ []) (name : Option String)
    (text : String) : ∃ pieces : List String,
      parse delimiters name (delimiters.verbatim text) = .ok (pieces.map .text) ∧
      pieces.flatMap String.toList = text.toList := by
  rcases readAll_eq_many filled maxDepth with ⟨others, reads, stopped⟩
  rcases rounds_markOpenings filled others text.toList with ⟨pieces, rounds, same⟩
  refine ⟨pieces, ?_, same⟩
  simp only [parse, reads, Delimiters.verbatim, String.toList_ofList, rounds.many_eq stopped]

end Node

/-! ## Rendering it -/

namespace Node

open Compilation

/-- Texts compile whatever is visible, and they make nothing visible. -/
theorem compileAll_texts (registry : Registry) (pieces : List String) (layout : Layout) :
    ∃ output, compileAll registry (pieces.map .text) layout = .ok (output, layout) := by
  induction pieces with
  | nil => exact ⟨{}, rfl⟩
  | cons piece pieces inductionHypothesis =>
      rcases inductionHypothesis with ⟨output, compiled⟩
      refine ⟨(Output.ofText piece).append output, bind_eq_ok.mpr ⟨_, layout, rfl, ?_⟩⟩
      exact bind_eq_ok.mpr ⟨output, layout, compiled, rfl⟩

theorem walkAll_texts (packing : Packing) (registry : Registry) (context : Context)
    (scope : Scope) (pieces : List String) :
    walkAll packing registry context scope (pieces.map .text) =
      pure (pieces.map fun piece => (⟨.text piece, .raw piece⟩ : Part)) := by
  induction pieces with
  | nil => rfl
  | cons piece pieces inductionHypothesis =>
      simp only [List.map_cons, walkAll, walk, pure_bind, inductionHypothesis, List.singleton_append]

end Node

theorem Part.bytesOf_texts (pieces : List String) :
    bytesOf (pieces.map fun piece => ⟨.text piece, .raw piece⟩) =
      (String.ofList (pieces.flatMap String.toList)).toUTF8 := by
  induction pieces with
  | nil => rfl
  | cons piece pieces inductionHypothesis =>
      have first := bytesOf_append [⟨.text piece, .raw piece⟩]
        (pieces.map fun piece => ⟨.text piece, .raw piece⟩)
      have joined : (String.ofList (piece.toList ++ pieces.flatMap String.toList)).toUTF8 =
          piece.toUTF8 ++ (String.ofList (pieces.flatMap String.toList)).toUTF8 := by
        rw [String.ofList_append, String.ofList_toList]
        exact String.toByteArray_append
      rw [List.map_cons, List.flatMap_cons, joined, ← inductionHypothesis, ← bytesOf_text, ← first]
      rfl

/-- Delimiters that are accepted are used, and nothing is wrong with them. -/
theorem Config.eq_of_withDelimiters {config config' : Config} {delimiters : Delimiters}
    (accepted : config.withDelimiters delimiters = .ok config') :
    config'.delimiters = delimiters ∧ delimiters.fault? = none := by
  simp only [withDelimiters] at accepted
  split at accepted
  · rename_i sound
    cases accepted
    exact ⟨rfl, sound⟩
  · cases accepted

namespace Environment

/-- With any delimiters that a configuration accepts, the source that stands for a
text compiles, and it renders the text, whatever the assigns are. -/
theorem compile_verbatim {config config' : Config} {delimiters : Delimiters}
    (accepted : config.withDelimiters delimiters = .ok config') (functions : Registry)
    (name : Option String) (text : String) : ∃ template,
      compile ⟨config', functions⟩ name (delimiters.verbatim text) = .ok template ∧
      ∀ assigns tokens,
        (template.render assigns tokens).result.map Markup.bytes = .ok text.toUTF8 := by
  rcases Config.eq_of_withDelimiters accepted with ⟨rfl, sound⟩
  rw [Delimiters.fault?, Option.or_eq_none_iff] at sound
  rcases Node.parse_verbatim (Node.filled_of_faultOf? sound.1) name text with
    ⟨pieces, read, same⟩
  rcases Node.compileAll_texts functions pieces {} with ⟨output, ran⟩
  have compiled : Program.compile functions (pieces.map .text) =
      .ok ⟨output.toBlock, 0, 0⟩ :=
    Except.bind_eq_ok.mpr ⟨(output, {}), ran, rfl⟩
  refine ⟨_, compile_eq_ok_iff.mpr ⟨_, _, read, compiled, rfl⟩, fun assigns tokens => ?_⟩
  calc
    ((Template.render ⟨name, _, config'⟩ assigns tokens).result.map Markup.bytes)
        = (Node.walkAll .compiled functions ⟨assigns, config', tokens⟩ []
            (pieces.map .text)).answer.map Part.bytesOf :=
          Program.bytes_render compiled ⟨assigns, config', tokens⟩
    _ = .ok (Part.bytesOf (pieces.map fun piece => ⟨.text piece, .raw piece⟩)) := by
          rw [Node.walkAll_texts]
          rfl
    _ = .ok text.toUTF8 := by
          rw [Part.bytesOf_texts, same, String.ofList_toList]

/-- A delimiter that overlaps itself and ends with the sign that is put behind it,
in a text that holds it twice and once more in part. -/
theorem compile_verbatim_percent :
    let delimiters : Delimiters := ⟨"%%", "%="⟩
    ∃ config, Config.standard.withDelimiters delimiters = .ok config ∧
      delimiters.verbatim "a%%%%%= b" = "a%%%%%%%= b" ∧
      ∃ template, compile ⟨config, BuiltIn.registry⟩ none "a%%%%%%%= b" = .ok template ∧
        ∀ assigns tokens, (template.render assigns tokens).result.map Markup.bytes =
          .ok "a%%%%%= b".toUTF8 := by
  intro delimiters
  have sound : (Config.standard.withDelimiters delimiters).isOk = true := by
    decide +kernel
  have written : delimiters.verbatim "a%%%%%= b" = "a%%%%%%%= b" := by
    simp [delimiters, Delimiters.verbatim, Delimiters.markOpenings]
  cases accepted : Config.standard.withDelimiters delimiters with
  | error fault =>
      rw [accepted] at sound
      cases sound
  | ok config =>
      have renders := compile_verbatim accepted BuiltIn.registry none "a%%%%%= b"
      rw [written] at renders
      exact ⟨config, rfl, written, renders⟩

end Environment
end HtmlTemplate
