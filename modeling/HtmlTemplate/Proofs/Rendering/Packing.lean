import HtmlTemplate.Program.Compile
import HtmlTemplate.Proofs.Rendering.TreeWalk

namespace HtmlTemplate

/-!
# How compiled blocks pack their parts

A compiled block holds text that was known before rendering, neighbouring texts
joined to one, and between the texts what was printed.  This module describes
the same markup in terms of the parts that a walk collects, and shows that it
has the bytes of the parts.  A part counts as known text if its node is text or
a literal and it printed just that text.
-/

namespace Markup

theorem bytes_concat_append (first second : List Markup) :
    (concat (first ++ second)).bytes = (concat first).bytes ++ (concat second).bytes := by
  induction first with
  | nil => simp
  | cons markup rest inductionHypothesis =>
      simp only [List.cons_append, bytes_concat_cons, inductionHypothesis, ByteArray.append_assoc]

end Markup

/-- A piece of a block's output: text that was known before rendering, or what
was printed. -/
inductive Piece where
  | known (text : String)
  | printed (content : Markup)

namespace Piece

def toMarkup : Piece -> Markup
  | .known text => .raw text
  | .printed content => content

/-- The bytes of several pieces. -/
def bytesOf (pieces : List Piece) : ByteArray :=
  (Markup.concat (pieces.map toMarkup)).bytes

/-- Known text as a piece, unless it is empty. -/
def ofText (text : String) : List Piece :=
  if text.isEmpty then [] else [.known text]

/-- Join neighbouring known texts.  `run` is the text in progress. -/
def fuseFrom (run : String) : List Piece -> List Piece
  | [] => ofText run
  | .known text :: rest => fuseFrom (run ++ text) rest
  | .printed content :: rest => ofText run ++ .printed content :: fuseFrom "" rest

/-- Join neighbouring known texts. -/
def fuse (pieces : List Piece) : List Piece :=
  fuseFrom "" pieces

@[simp] theorem bytesOf_nil : bytesOf [] = .empty := rfl

@[simp] theorem bytesOf_cons (piece : Piece) (rest : List Piece) :
    bytesOf (piece :: rest) = piece.toMarkup.bytes ++ bytesOf rest := by
  simp only [bytesOf, List.map_cons, Markup.bytes_concat_cons]

theorem bytesOf_append (first second : List Piece) :
    bytesOf (first ++ second) = bytesOf first ++ bytesOf second := by
  simp only [bytesOf, List.map_append, Markup.bytes_concat_append]

theorem bytesOf_ofText (text : String) : bytesOf (ofText text) = text.toUTF8 := by
  unfold ofText
  split
  · simp_all
  · simp [toMarkup]

theorem bytesOf_fuseFrom (run : String) (pieces : List Piece) :
    bytesOf (fuseFrom run pieces) = run.toUTF8 ++ bytesOf pieces := by
  induction pieces generalizing run with
  | nil => simp [fuseFrom, bytesOf_ofText]
  | cons piece rest inductionHypothesis =>
      cases piece with
      | known text =>
          simp [fuseFrom, inductionHypothesis, toMarkup, ByteArray.append_assoc]
      | printed content =>
          simp [fuseFrom, bytesOf_append, bytesOf_ofText, inductionHypothesis]

/-- Joining texts keeps the bytes. -/
theorem bytesOf_fuse (pieces : List Piece) : bytesOf (fuse pieces) = bytesOf pieces := by
  simp [fuse, bytesOf_fuseFrom]

end Piece

namespace Part

/-- The text that the node of a part is known to print. -/
def knownText? (part : Part) : Option String :=
  match part.node with
  | .text content => some content
  | .print action => action.literalText?
  | _ => none

/-- The pieces of a part.  Text that is empty has none. -/
def pieces (part : Part) : List Piece :=
  match part.knownText? with
  | some text =>
      if text.toUTF8.data = part.content.bytes.data then Piece.ofText text
      else [.printed part.content]
  | none => [.printed part.content]

theorem bytesOf_pieces (part : Part) : Piece.bytesOf part.pieces = part.content.bytes := by
  unfold pieces
  split
  · split
    · rename_i same
      rw [Piece.bytesOf_ofText, ByteArray.ext same]
    · simp [Piece.toMarkup]
  · simp [Piece.toMarkup]

end Part

namespace Packing

/-- The markup of several parts, neighbouring known texts joined. -/
def joinKnown (parts : List Part) : Markup :=
  .concat ((Piece.fuse (parts.flatMap Part.pieces)).map Piece.toMarkup)

theorem bytesOf_flatMap_pieces (parts : List Part) :
    Piece.bytesOf (parts.flatMap Part.pieces) =
      (Markup.concat (parts.map Part.content)).bytes := by
  induction parts with
  | nil => rfl
  | cons part rest inductionHypothesis =>
      simp only [List.flatMap_cons, Piece.bytesOf_append, Part.bytesOf_pieces, inductionHypothesis,
        List.map_cons, Markup.bytes_concat_cons]

theorem bytes_joinKnown (parts : List Part) :
    (joinKnown parts).bytes = (Markup.concat (parts.map Part.content)).bytes :=
  (Piece.bytesOf_fuse _).trans (bytesOf_flatMap_pieces parts)

/-- The packing that compiled blocks use. -/
def compiled : Packing where
  pack := joinKnown
  bytes_pack := bytes_joinKnown

end Packing

namespace Slot

/-- What a slot stands for, given the content of the temporaries. -/
def piece (temps : Nat -> Markup) : Slot -> Piece
  | .fixed text => .known text
  | .temp index => .printed (temps index)

theorem map_piece_ofRun (temps : Nat -> Markup) (run : String) :
    (ofRun run).map (piece temps) = Piece.ofText run := by
  unfold ofRun Piece.ofText
  split <;> rfl

theorem map_piece_fuseFrom (temps : Nat -> Markup) (run : String) (slots : List Slot) :
    (fuseFrom run slots).map (piece temps) = Piece.fuseFrom run (slots.map (piece temps)) := by
  induction slots generalizing run with
  | nil => exact map_piece_ofRun temps run
  | cons slot rest inductionHypothesis =>
      cases slot with
      | fixed text => exact inductionHypothesis (run ++ text)
      | temp index =>
          simp only [fuseFrom, List.map_append, List.map_cons, map_piece_ofRun,
            inductionHypothesis, piece, Piece.fuseFrom]

/-- Slots are joined as the pieces they stand for are. -/
theorem map_piece_fuse (temps : Nat -> Markup) (slots : List Slot) :
    (fuse slots).map (piece temps) = Piece.fuse (slots.map (piece temps)) :=
  map_piece_fuseFrom temps "" slots

/-- The temporary that a slot takes from. -/
def temp? : Slot -> Option Nat
  | .fixed _ => none
  | .temp index => some index

/-- Slots stand for the same as long as their temporaries hold the same. -/
theorem map_piece_congr {temps others : Nat -> Markup} {slots : List Slot}
    (same : ∀ index ∈ slots.filterMap temp?, others index = temps index) :
    slots.map (piece others) = slots.map (piece temps) := by
  apply List.map_congr_left
  intro slot member
  cases slot with
  | fixed text => rfl
  | temp index =>
      have found : index ∈ slots.filterMap temp? := List.mem_filterMap.mpr ⟨_, member, rfl⟩
      simp only [piece, same index found]

theorem filterMap_temp?_ofRun (run : String) : (ofRun run).filterMap temp? = [] := by
  unfold ofRun
  split <;> rfl

theorem filterMap_temp?_fuseFrom (run : String) (slots : List Slot) :
    (fuseFrom run slots).filterMap temp? = slots.filterMap temp? := by
  induction slots generalizing run with
  | nil => exact filterMap_temp?_ofRun run
  | cons slot rest inductionHypothesis =>
      cases slot with
      | fixed text => exact inductionHypothesis (run ++ text)
      | temp index =>
          simp only [fuseFrom, List.filterMap_append, filterMap_temp?_ofRun, List.nil_append,
            List.filterMap_cons, temp?, inductionHypothesis]

/-- Joining texts leaves the temporaries and their order. -/
theorem filterMap_temp?_fuse (slots : List Slot) :
    (fuse slots).filterMap temp? = slots.filterMap temp? :=
  filterMap_temp?_fuseFrom "" slots

end Slot
end HtmlTemplate
