import HtmlTemplate.Proofs.Syntax.Lookahead
import HtmlTemplate.Syntax.Source

namespace HtmlTemplate

/-!
# Tags that print a written expression

A tag that prints is read as one if it is neither the end of a block nor the
head of a clause, and begins with no word of a block.  The expression in it is
read with the room that the tag leaves, one level less than a template has.
-/

open Reader

namespace Node

variable {expr : Expr}

/-- An expression in a tag that prints it, between the standard delimiters. -/
def printedTag (expr : Expr) : List Char :=
  '<' :: '%' :: '=' :: ' ' :: (expr.write ++ [' ', '%', '>'])

/-! ## Ends of blocks and heads of clauses -/

theorem clauseHead_of_quiet {deep : Prop} {room : Nat} {source after : List Char}
    (quiet : Pattern.Quiet deep after (Pattern.read room (source.dropWhile isSpace)))
    (noArrow : ∃ place, exactly ['-', '>'] (after.dropWhile isSpace) = .miss place) :
    (∃ place, clauseHead room source = .miss place) ∨ deep ∧ TooDeep (clauseHead room source) := by
  cases reply : Pattern.read room (source.dropWhile isSpace) with
  | miss place => exact .inl ⟨place, bind_of_miss (spaced_of_miss reply)⟩
  | fail place cause =>
      rw [reply] at quiet
      cases quiet with
      | tooDeep _ excess => exact .inr ⟨excess, place, bind_of_fail (spaced_of_fail reply)⟩
  | ok value rest =>
      have ends : ∃ place, exactly ['-', '>'] (rest.dropWhile isSpace) = .miss place := by
        rw [reply] at quiet
        cases quiet with
        | whole _ => exact noArrow
        | cut _ cut => exact cut.noArrow
      rcases ends with ⟨place, missed⟩
      exact .inl ⟨place, (bind_of_ok (spaced_of_ok reply)).trans (bind_of_miss missed)⟩

/-- A written expression ends no block and begins no clause, unless it goes too
deep. -/
theorem terminator_write (formed : expr.WellFormed) (room : Nat) :
    (∃ place, terminator room (' ' :: (expr.write ++ [' ', '%', '>'])) = .miss place) ∨
      room ≤ expr.need ∧ TooDeep (terminator room (' ' :: (expr.write ++ [' ', '%', '>']))) := by
  have opening := Expr.opening_write expr formed (Expr.junction_space ['%', '>'])
  have stays := opening.dropWhile_isSpace
  have skipped : spaces (' ' :: (expr.write ++ [' ', '%', '>'])) =
      .ok () (expr.write ++ [' ', '%', '>']) :=
    congrArg (Reply.ok ()) stays
  have noEnd := opening.keyword_of_mem (by decide : "end" ∈ Expr.blockWords)
  have noElse := opening.keyword_of_mem (by decide : "else" ∈ Expr.blockWords)
  have start : terminator room (' ' :: (expr.write ++ [' ', '%', '>'])) =
      (do let _ ← clauseHead room) (expr.write ++ [' ', '%', '>']) :=
    (bind_of_ok skipped).trans ((orElse_of_miss noEnd).trans (orElse_of_miss noElse))
  have quiet := Pattern.quiet_read expr formed room _ (Expr.junction_space ['%', '>'])
  rw [← stays] at quiet
  rw [start]
  rcases clauseHead_of_quiet quiet ⟨_, rfl⟩ with ⟨place, missed⟩ | ⟨excess, place, failed⟩
  · exact .inl ⟨place, bind_of_miss missed⟩
  · exact .inr ⟨excess, place, bind_of_fail failed⟩

/-! ## The tag -/

/-- The expression of a tag is read up to the closing delimiter. -/
theorem settles_readPlain (formed : expr.WellFormed) (room : Nat) (body : Reader (List Node)) :
    Settles (readPlain .standard room body (expr.write ++ [' ', '%', '>'])) (expr.need ≤ room)
      (.ok (.value expr) []) := by
  have reads := (Expr.readable_of_wellFormed expr formed).atLevel 0 (Nat.zero_le 7)
    (Nat.zero_le _) room room [' ', '%', '>'] (Nat.le_refl room) (.closeTag ['>'])
  have ends : (expr.restOf [' ', '%', '>']).dropWhile isSpace = ['%', '>'] :=
    Expr.dropWhile_restOf expr [' ', '%', '>']
  have noWord : Lexeme.keyword "do" ((expr.restOf [' ', '%', '>']).dropWhile isSpace) =
      .miss ['%', '>'] := by
    rw [ends]
    exact Lexeme.keyword_of_head (by decide) "do"
  have noBlock := optional_of_miss (spaced_of_miss noWord)
  have closed : closeTag .standard (expr.restOf [' ', '%', '>']) = .ok () [] := by
    have skipped : spaces (expr.restOf [' ', '%', '>']) = .ok () ['%', '>'] :=
      congrArg (Reply.ok ()) ends
    exact commit_of_ok ((bind_of_ok skipped).trans rfl)
  have start : here (expr.write ++ [' ', '%', '>']) = .ok _ (expr.write ++ [' ', '%', '>']) := rfl
  constructor
  · intro fits
    refine (bind_of_ok start).trans ((bind_of_ok (reads.eq_of_fits fits)).trans ?_)
    exact (bind_of_ok noBlock).trans (bind_of_ok closed)
  · intro excess
    rcases reads.tooDeep_of_not excess with ⟨place, failed⟩
    exact ⟨place, (bind_of_ok start).trans (bind_of_fail failed)⟩

theorem settles_readStatement (formed : expr.WellFormed) (room : Nat)
    (body : Reader (List Node)) :
    Settles (readStatement .standard room body true (' ' :: (expr.write ++ [' ', '%', '>'])))
      (expr.need ≤ room) (.ok (.print (.value expr)) []) := by
  have opening := Expr.opening_write expr formed (Expr.junction_space ['%', '>'])
  have skipped : spaces (' ' :: (expr.write ++ [' ', '%', '>'])) =
      .ok () (expr.write ++ [' ', '%', '>']) :=
    congrArg (Reply.ok ()) opening.dropWhile_isSpace
  have noWord : ∃ place, Lexeme.identifierWhere ["if", "unless", "for", "case"].contains
      (expr.write ++ [' ', '%', '>']) = .miss place := by
    refine opening.identifierWhere_of_forall fun word accepted => ?_
    have subset : ["if", "unless", "for", "case"] ⊆ Expr.blockWords := by
      decide
    exact subset (List.elem_iff.mp accepted)
  rcases noWord with ⟨place, missed⟩
  have action : Settles (readAction .standard room body (expr.write ++ [' ', '%', '>']))
      (expr.need ≤ room) (.ok (.value expr) []) :=
    (settles_readPlain formed room body).of_reply (bind_of_ok (optional_of_miss missed))
  have statement : Settles ((do
      let action ← readAction .standard room body
      return .print action : Reader Node) (expr.write ++ [' ', '%', '>'])) (expr.need ≤ room)
      (.ok (.print (.value expr)) []) :=
    action.andThen rfl
  exact statement.of_reply ((bind_of_ok rfl).trans (bind_of_ok skipped))

theorem settles_readTag (formed : expr.WellFormed) (room : Nat)
    (body : Reader (List Node)) :
    Settles (readTag .standard (room + 1)
      (fun _ printed => readStatement .standard room body printed) (printedTag expr))
      (expr.need ≤ room) (.ok (.print (.value expr)) []) := by
  have start : here (printedTag expr) = .ok _ (printedTag expr) := rfl
  have opened : opening .standard (printedTag expr) =
      .ok () ('=' :: ' ' :: (expr.write ++ [' ', '%', '>'])) := rfl
  have printed : optional (char '=') ('=' :: ' ' :: (expr.write ++ [' ', '%', '>'])) =
      .ok (some ()) (' ' :: (expr.write ++ [' ', '%', '>'])) := rfl
  rcases terminator_write formed (room + 1) with ⟨place, missed⟩ | ⟨excess, place, failed⟩
  · refine (settles_readStatement formed room body).of_reply ?_
    refine (bind_of_ok start).trans ((bind_of_ok opened).trans ((bind_of_ok printed).trans ?_))
    exact bind_of_ok (notAhead_of_miss missed)
  · refine .of_tooDeep ⟨place, ?_⟩ (Nat.not_le_of_lt excess)
    refine (bind_of_ok start).trans ((bind_of_ok opened).trans ((bind_of_ok printed).trans ?_))
    exact bind_of_fail (by simp only [notAhead, failed])

/-! ## The template -/

theorem settles_readAll (formed : expr.WellFormed) (room : Nat) :
    Settles (readAll .standard (room + 1) (printedTag expr)) (expr.need ≤ room)
      (.ok [.print (.value expr)] []) := by
  have noText : readText .standard (printedTag expr) = .miss _ := rfl
  have noComment : readComment .standard (printedTag expr) = .miss _ := rfl
  have tag := settles_readTag formed room (readAll .standard room)
  have node := tag.of_reply ((orElse_of_miss noText).trans (orElse_of_miss noComment))
  constructor
  · intro fits
    have shorter : ([] : List Char).length < (printedTag expr).length := Nat.succ_pos _
    exact (Rounds.round (node.eq_of_fits fits) shorter (.done [])).many_eq rfl
  · intro excess
    exact (Rounds.done _).tooDeep_many (node.tooDeep_of_not excess)

theorem toList_printed (expr : Expr) :
    ("<%= " ++ String.ofList expr.write ++ " %>").toList = printedTag expr := by
  simp only [String.toList_append, String.toList_ofList]
  rfl

theorem parse_of_fits (formed : expr.WellFormed) (fits : expr.need ≤ 127)
    (template : Option String) :
    parse .standard template ("<%= " ++ String.ofList expr.write ++ " %>") =
      .ok [.print (.value expr)] := by
  have read := (settles_readAll formed 127).eq_of_fits fits
  simp only [parse, toList_printed, maxDepth, read]

theorem parse_of_excess (formed : expr.WellFormed) (excess : 127 < expr.need)
    (template : Option String) : ∃ fault, fault.cause = some .tooDeep ∧
      parse .standard template ("<%= " ++ String.ofList expr.write ++ " %>") = .error fault := by
  rcases (settles_readAll formed 127).tooDeep_of_not (Nat.not_le_of_lt excess) with ⟨place, failed⟩
  refine ⟨.ofRest template (some .tooDeep) (printedTag expr) place, rfl, ?_⟩
  simp only [parse, toList_printed, maxDepth, failed]

/-- A template that prints one written expression has the tree of that
expression, or it is refused for its depth.  The first is the case exactly if
the expression does not need more room than a tag of the template has. -/
theorem parse_printed_iff (formed : expr.WellFormed) (template : Option String) :
    (parse .standard template ("<%= " ++ String.ofList expr.write ++ " %>") =
        .ok [.print (.value expr)] ↔ expr.need ≤ 127) ∧
      (127 < expr.need -> ∃ fault, fault.cause = some .tooDeep ∧
        parse .standard template ("<%= " ++ String.ofList expr.write ++ " %>") =
          .error fault) := by
  refine ⟨⟨fun read => ?_, fun fits => parse_of_fits formed fits template⟩,
    fun excess => parse_of_excess formed excess template⟩
  rcases Nat.lt_or_ge 127 expr.need with excess | fits
  · rcases parse_of_excess formed excess template with ⟨fault, _, refused⟩
    rw [refused] at read
    cases read
  · exact fits

theorem parse_printed_iff_sum :
    parse .standard none "<%= x.f[0] + - 1 %>" =
      .ok [.print (.value (.binary (.strict .add) (.index (.attr (.var "x") "f") (.lit (.num "0")))
        (.unary .minus (.lit (.num "1")))))] := by
  have formed : Expr.WellFormed (.binary (.strict .add)
      (.index (.attr (.var "x") "f") (.lit (.num "0"))) (.unary .minus (.lit (.num "1")))) := by
    refine ⟨by decide, ⟨by decide, ⟨by decide, rfl, rfl⟩, rfl⟩, by decide, by decide, rfl⟩
  exact (parse_printed_iff formed none).1.mpr (by decide)

/-- The suffixes in front of keys count on the way to the keys.  If they and the
height are small enough together, the expression is read. -/
theorem parse_printed_of_height (formed : expr.WellFormed)
    (low : expr.height + expr.keyOffset ≤ 126) (template : Option String) :
    parse .standard template ("<%= " ++ String.ofList expr.write ++ " %>") =
      .ok [.print (.value expr)] := by
  have enough := expr.need_le_height
  exact parse_of_fits formed (by omega) template

/-- A name with seventy suffixes, and then a key in seventy parentheses. -/
def keyAfterSuffixes : Expr :=
  .index ((Expr.var "x").pointed "f" 70) ((Expr.lit (.num "1")).grouped 70)

/-- The parentheses are not inside of the suffixes, and yet there is no room for
them. -/
theorem parse_keyAfterSuffixes :
    keyAfterSuffixes.WellFormed ∧ keyAfterSuffixes.height ≤ 100 ∧
      parse .standard none ("<%= " ++ String.ofList keyAfterSuffixes.write ++ " %>") ≠
        .ok [.print (.value keyAfterSuffixes)] := by
  have tight : 8 ≤ (Expr.var "x").strength := by
    decide
  have formed : keyAfterSuffixes.WellFormed :=
    ⟨Expr.strength_pointed 70 tight "f", Expr.wellFormed_pointed 70 tight rfl rfl,
      Expr.wellFormed_grouped 70 rfl⟩
  have high : keyAfterSuffixes.height ≤ 100 := by
    decide +kernel
  have excess : 127 < keyAfterSuffixes.need := by
    decide +kernel
  refine ⟨formed, high, fun read => ?_⟩
  rcases parse_of_excess formed excess none with ⟨fault, _, refused⟩
  rw [refused] at read
  cases read

end Node
end HtmlTemplate
