import HtmlTemplate.Proofs.Concatenation.Sources

namespace HtmlTemplate

/-!
# Segments of a source

A source that can be read is a row of segments: texts, delimiters that stand
for themselves, comments, tags, and the white space in front of the first
clause of a `case`.  A tag holds words, expressions and patterns with white
space around them, and each of these is what is read where it stands.

The tree says which segments there are.  A walk through it, bodies and clauses
included, meets one segment for each text, comment and plain tag, and for each
block one tag that begins it, the segments of its bodies with `else` or the
heads of clauses in front of them, and one tag that ends it.
-/

open Reader

/-- What a tag holds: a word or a sign, an expression or a pattern. -/
inductive TagPart where
  | word (text : String)
  | expr (expr : Expr)
  | pattern (pattern : Pattern)

/-- A text is a part if it is what is read from the source at its place. -/
inductive TagPart.Stands : TagPart -> List Char -> List Char -> Prop where
  | word (text : String) (rest : List Char) : Stands (.word text) text.toList rest
  | expr {room : Nat} {expr : Expr} {text rest : List Char}
      (read : Expr.read room (text ++ rest) = .ok expr rest) : Stands (.expr expr) text rest
  | pattern {room : Nat} {pattern : Pattern} {text rest : List Char}
      (read : Pattern.read room (text ++ rest) = .ok pattern rest) :
      Stands (.pattern pattern) text rest

/-- There is nothing but white space. -/
def Blank (text : List Char) : Prop :=
  ∀ c ∈ text, isSpace c = true

/-- A text in front of the rest of a source consists of parts with white space
around them. -/
inductive Holds : List TagPart -> List Char -> List Char -> Prop where
  | nil {gap rest : List Char} (blank : Blank gap) : Holds [] gap rest
  | cons {part : TagPart} {parts : List TagPart} {gap text after rest : List Char}
      (blank : Blank gap) (stands : part.Stands text (after ++ rest))
      (others : Holds parts after rest) :
      Holds (part :: parts) (gap ++ text ++ after) rest

/-- A text begins at no place inside of some content, even if it ends behind it. -/
def Absent (text content rest : List Char) : Prop :=
  ∀ passed left, content = passed ++ left -> left ≠ [] -> ¬text <+: left ++ rest

/-- A part of a source.  A tag keeps what stands between its delimiters, and
whether it begins with the sign for printing. -/
inductive Segment where
  | text (content : List Char)
  | escape
  | comment (content : List Char)
  | tag (printed : Bool) (parts : List TagPart) (inside : List Char)
  | blank (content : List Char)

namespace Segment

/-- A segment as it stands in the source. -/
def write (delimiters : Delimiters) : Segment -> List Char
  | .text content => content
  | .escape => delimiters.opening.toList ++ ['%']
  | .comment content =>
      delimiters.opening.toList ++ '#' :: content ++ delimiters.closing.toList
  | .tag printed _ inside =>
      delimiters.opening.toList ++ (if printed then ['='] else []) ++ inside ++
        delimiters.closing.toList
  | .blank content => content

/-- Segments in a row. -/
def writeAll (delimiters : Delimiters) (segments : List Segment) : List Char :=
  segments.flatMap (write delimiters)

/-- A segment is what it claims to be in front of the rest of the source: a text
stops where the next delimiter opens or at the end, and a comment where the next
delimiter closes. -/
def Fits (delimiters : Delimiters) : Segment -> List Char -> Prop
  | .text content, rest => content ≠ [] ∧ Absent delimiters.opening.toList content rest ∧
      (rest = [] ∨ delimiters.opening.toList <+: rest)
  | .escape, _ => True
  | .comment content, rest =>
      Absent delimiters.closing.toList content (delimiters.closing.toList ++ rest)
  | .tag _ parts inside, rest => Holds parts inside (delimiters.closing.toList ++ rest)
  | .blank content, _ => content ≠ [] ∧ Blank content

/-- Each segment fits in front of those that follow it. -/
def FitAll (delimiters : Delimiters) : List Segment -> List Char -> Prop
  | [], _ => True
  | segment :: others, rest =>
      segment.Fits delimiters (writeAll delimiters others ++ rest) ∧ FitAll delimiters others rest

end Segment

/-! ## Walking through a tree -/

/-- What the first tag of an action holds. -/
def Action.opener : Action -> List TagPart
  | .value expr => [.expr expr]
  | .cond negated test _ _ => [.word (if negated then "unless" else "if"), .expr test, .word "do"]
  | .loop pattern source _ =>
      [.word "for", .pattern pattern, .word "<-", .expr source, .word "do"]
  | .choice subject _ => [.word "case", .expr subject, .word "do"]
  | .callBlock name args _ => [.expr (.call name args), .word "do"]

/-- The segments of values in a row, given those of one value. -/
inductive Rows {α : Type} (spans : α -> List Segment -> Prop) : List α -> List Segment -> Prop where
  | nil : Rows spans [] []
  | cons {value : α} {values : List α} {own more : List Segment} (first : spans value own)
      (others : Rows spans values more) : Rows spans (value :: values) (own ++ more)

mutual

/-- The segments of a node. -/
inductive Node.Spans (delimiters : Delimiters) : Node -> List Segment -> Prop where
  | text (content : List Char) :
      Node.Spans delimiters (.text (String.ofList content)) [.text content]
  | escape : Node.Spans delimiters (.text delimiters.opening) [.escape]
  | comment (content : List Char) :
      Node.Spans delimiters (.comment (String.ofList content)) [.comment content]
  | bind (pattern : Pattern) (expr : Expr) (inside : List Char) :
      Node.Spans delimiters (.bind pattern expr)
        [.tag false [.pattern pattern, .word "=", .expr expr] inside]
  | print {action : Action} {behind : List Segment} (inside : List Char)
      (others : Action.Spans delimiters action behind) :
      Node.Spans delimiters (.print action) (.tag true action.opener inside :: behind)
  | silent {action : Action} {behind : List Segment} (inside : List Char)
      (others : Action.Spans delimiters action behind) :
      Node.Spans delimiters (.silent action) (.tag false action.opener inside :: behind)

/-- The segments of an action behind its first tag. -/
inductive Action.Spans (delimiters : Delimiters) : Action -> List Segment -> Prop where
  | value (expr : Expr) : Action.Spans delimiters (.value expr) []
  | cond {holds : List Node} {body : List Segment} (negated : Bool) (test : Expr)
      (inside : List Char) (first : Rows (Node.Spans delimiters) holds body) :
      Action.Spans delimiters (.cond negated test holds [])
        (body ++ [.tag false [.word "end"] inside])
  | condElse {holds fails : List Node} {body other : List Segment} (negated : Bool) (test : Expr)
      (between inside : List Char) (first : Rows (Node.Spans delimiters) holds body)
      (second : Rows (Node.Spans delimiters) fails other) :
      Action.Spans delimiters (.cond negated test holds fails)
        (body ++ .tag false [.word "else"] between :: other ++ [.tag false [.word "end"] inside])
  | loop {nodes : List Node} {body : List Segment} (pattern : Pattern) (source : Expr)
      (inside : List Char) (first : Rows (Node.Spans delimiters) nodes body) :
      Action.Spans delimiters (.loop pattern source nodes)
        (body ++ [.tag false [.word "end"] inside])
  | choice {clauses : List Clause} {gap body : List Segment} (subject : Expr)
      (inside : List Char) (skipped : gap = [] ∨ ∃ content, gap = [.blank content])
      (first : Rows (Clause.Spans delimiters) clauses body) :
      Action.Spans delimiters (.choice subject clauses)
        (gap ++ body ++ [.tag false [.word "end"] inside])
  | callBlock {nodes : List Node} {body : List Segment} (name : String) (args : List Expr)
      (inside : List Char) (first : Rows (Node.Spans delimiters) nodes body) :
      Action.Spans delimiters (.callBlock name args nodes)
        (body ++ [.tag false [.word "end"] inside])

/-- The segments of a clause. -/
inductive Clause.Spans (delimiters : Delimiters) : Clause -> List Segment -> Prop where
  | clause {nodes : List Node} {body : List Segment} (pattern : Pattern) (inside : List Char)
      (first : Rows (Node.Spans delimiters) nodes body) :
      Clause.Spans delimiters (.clause pattern nodes)
        (.tag false [.pattern pattern, .word "->"] inside :: body)

end

/-! ## Rows of segments -/

variable {delimiters : Delimiters} {parts : List TagPart} {segments others : List Segment}
  {source middle rest : List Char}

/-- A source begins with segments, and the rest follows them. -/
structure Begins (delimiters : Delimiters) (segments : List Segment) (source rest : List Char) :
    Prop where
  written : source = Segment.writeAll delimiters segments ++ rest
  fit : Segment.FitAll delimiters segments rest

namespace Begins

theorem nil (rest : List Char) : Begins delimiters [] rest rest :=
  ⟨rfl, trivial⟩

theorem cons {segment : Segment} (written : source = segment.write delimiters ++ middle)
    (fits : segment.Fits delimiters middle) (later : Begins delimiters others middle rest) :
    Begins delimiters (segment :: others) source rest := by
  refine ⟨?_, ?_, later.fit⟩
  · rw [written, later.written]
    simp [Segment.writeAll]
  · rw [later.written] at fits
    exact fits

theorem single {segment : Segment} (written : source = segment.write delimiters ++ rest)
    (fits : segment.Fits delimiters rest) : Begins delimiters [segment] source rest :=
  .cons written fits (.nil rest)

theorem append (first : Begins delimiters segments source middle)
    (later : Begins delimiters others middle rest) :
    Begins delimiters (segments ++ others) source rest := by
  induction segments generalizing source with
  | nil =>
      cases first.written
      exact later
  | cons segment more inductionHypothesis =>
      have tail : Begins delimiters (more ++ others)
          (Segment.writeAll delimiters more ++ middle) rest := inductionHypothesis ⟨rfl, first.fit.2⟩
      refine .cons ?_ first.fit.1 tail
      rw [first.written]
      simp [Segment.writeAll]

end Begins

/-! ## Insides of tags -/

theorem Blank.append {first second : List Char} (left : Blank first) (right : Blank second) :
    Blank (first ++ second) :=
  List.forall_mem_append.mpr ⟨left, right⟩

theorem blank_takeWhile (source : List Char) : Blank (source.takeWhile isSpace) :=
  fun _ member => List.mem_takeWhile_imp member

/-- White space in front belongs to what a tag holds. -/
theorem Holds.gap {gap inside : List Char} (blank : Blank gap) (holds : Holds parts inside rest) :
    Holds parts (gap ++ inside) rest := by
  cases holds with
  | nil blank' => exact .nil (blank.append blank')
  | cons blank' stands others =>
      rw [← List.append_assoc, ← List.append_assoc]
      exact .cons (blank.append blank') stands others

/-- A tag goes on with parts and is closed, and segments follow it. -/
def Closes (delimiters : Delimiters) (parts : List TagPart) (segments : List Segment)
    (source rest : List Char) : Prop :=
  ∃ inside after, source = inside ++ (delimiters.closing.toList ++ after) ∧
    Holds parts inside (delimiters.closing.toList ++ after) ∧ Begins delimiters segments after rest

namespace Closes

theorem spaces (closes : Closes delimiters parts segments (source.dropWhile isSpace) rest) :
    Closes delimiters parts segments source rest := by
  rcases closes with ⟨inside, after, same, holds, later⟩
  refine ⟨source.takeWhile isSpace ++ inside, after, ?_, holds.gap (blank_takeWhile source), later⟩
  rw [List.append_assoc, ← same, List.takeWhile_append_dropWhile]

theorem part {part : TagPart} {text : List Char} (stands : part.Stands text middle)
    (closes : Closes delimiters parts segments middle rest) :
    Closes delimiters (part :: parts) segments (text ++ middle) rest := by
  rcases closes with ⟨inside, after, rfl, holds, later⟩
  have nothing : Blank [] := fun _ impossible => nomatch impossible
  exact ⟨text ++ inside, after, (List.append_assoc ..).symm, .cons nothing stands holds, later⟩

/-- The whole tag. -/
theorem begins (printed : Bool) (closes : Closes delimiters parts segments middle rest)
    (opened : source = delimiters.opening.toList ++ (if printed then ['='] else []) ++ middle) :
    ∃ inside, Begins delimiters (.tag printed parts inside :: segments) source rest := by
  rcases closes with ⟨inside, after, rfl, holds, later⟩
  refine ⟨inside, .cons ?_ holds later⟩
  rw [opened]
  simp [Segment.write]

end Closes
end HtmlTemplate
