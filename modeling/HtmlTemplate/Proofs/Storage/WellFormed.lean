import HtmlTemplate.Proofs.Storage.Sites
import Mathlib.Data.List.Chain

namespace HtmlTemplate

/-!
# Well-formed programs

In a compiled program every temporary has one statement that fills it and one
slot that takes it out, both in the same block and in the same order; every
local has one place that binds it; and text is joined as far as it can be.
-/

namespace Statement

/-- The temporary that a statement fills. -/
def print? : Statement -> Option Nat
  | .print temp _ => some temp
  | _ => none

end Statement

namespace Slot

/-- Two slots that may be neighbours: texts are joined. -/
def Apart : Slot -> Slot -> Prop
  | .fixed _, .fixed _ => False
  | _, _ => True

/-- Slots without empty text and without neighbouring texts. -/
structure Fused (slots : List Slot) : Prop where
  ne_empty : .fixed "" ∉ slots
  apart : slots.IsChain Apart

theorem Fused.temp {index : Nat} {slots : List Slot} (fused : Fused slots) :
    Fused (.temp index :: slots) := by
  constructor
  · simp [fused.ne_empty]
  · cases slots with
    | nil => exact .singleton _
    | cons slot rest => exact .cons_cons trivial fused.apart

theorem Fused.fixed_temp {text : String} {index : Nat} {slots : List Slot} (ne : text ≠ "")
    (fused : Fused (.temp index :: slots)) : Fused (.fixed text :: .temp index :: slots) := by
  constructor
  · simpa [Ne.symm ne] using fused.ne_empty
  · exact .cons_cons trivial fused.apart

/-- The run of text in progress is only written where a temporary or the end of
the block comes next. -/
theorem fused_fuseFrom (run : String) (slots : List Slot) : Fused (fuseFrom run slots) := by
  induction slots generalizing run with
  | nil =>
      simp only [fuseFrom, ofRun]
      split
      · exact ⟨by simp, .nil⟩
      · rename_i ne
        refine ⟨fun member => ne ?_, .singleton _⟩
        rw [← Slot.fixed.inj (List.mem_singleton.mp member)]
        rfl
  | cons slot rest inductionHypothesis =>
      cases slot with
      | fixed text => exact inductionHypothesis (run ++ text)
      | temp index =>
          have later : Fused (.temp index :: fuseFrom "" rest) := (inductionHypothesis "").temp
          simp only [fuseFrom, ofRun]
          split
          · exact later
          · rename_i ne
            exact later.fixed_temp (by simpa using ne)

theorem fused_fuse (slots : List Slot) : Fused (fuse slots) :=
  fused_fuseFrom "" slots

end Slot

namespace Block

/-- The temporaries that the statements of a block itself fill, in order. -/
def prints : Block -> List Nat
  | .block statements _ => statements.filterMap Statement.print?

/-- The slots of a block. -/
def slots : Block -> List Slot
  | .block _ slots => slots

/-- The temporaries that a block takes out, in order. -/
def takes (block : Block) : List Nat :=
  block.slots.filterMap Slot.temp?

/-- A block that takes out what it fills, in the order in which it was
filled. -/
structure Tidy (block : Block) : Prop where
  takes_eq : block.takes = block.prints
  fused : Slot.Fused block.slots

end Block

/-- A program in which storage is handed out once. -/
structure Program.WellFormed (program : Program) : Prop where
  tidy : ∀ block ∈ program.block.blocks, block.Tidy
  prints : (program.block.blocks.flatMap Block.prints).Perm (List.range program.temps)
  binders : program.block.occurrences.filterMap Occurrence.binder? = List.range program.locals
  uses : ∀ slot ∈ program.block.occurrences.filterMap Occurrence.designated?,
    slot < program.locals

/-! ## Compiling packs blocks tidily -/

/-- What is compiled between two layouts fills the temporaries that are handed
out there, each one once: `own` is filled in the block in progress, and the
blocks among the sites, which are tidy, fill the others. -/
structure Layout.Packs (layout after : Layout) (own : List Nat) (sites : List Site) : Prop where
  temps_le : layout.temps ≤ after.temps
  tidy : ∀ block ∈ sites.filterMap Site.block?, block.Tidy
  prints : (own ++ (sites.filterMap Site.block?).flatMap Block.prints).Perm
    (numbersBetween layout.temps after.temps)

/-- A contribution to a block takes out what it fills, in the same order. -/
structure Output.Packed (layout after : Layout) (output : Output) : Prop where
  packs : layout.Packs after (output.statements.filterMap Statement.print?)
    (Block.sitesOfAll output.statements)
  takes_eq : output.slots.filterMap Slot.temp? = output.statements.filterMap Statement.print?

namespace Layout.Packs

variable {layout between after : Layout} {own others : List Nat} {sites rest : List Site}

/-- Where no block stands, nothing is handed out. -/
theorem of_block?_eq_nil (temps : after.temps = layout.temps)
    (none : sites.filterMap Site.block? = []) : Packs layout after [] sites := by
  refine ⟨Nat.le_of_eq temps.symm, ?_, ?_⟩
  · rw [none]
    exact fun _ impossible => nomatch impossible
  · rw [none, temps, numbersBetween_self]
    exact .refl _

theorem append (first : Packs layout between own sites) (second : Packs between after others rest) :
    Packs layout after (own ++ others) (sites ++ rest) := by
  refine ⟨Nat.le_trans first.temps_le second.temps_le, ?_, ?_⟩
  · rw [List.filterMap_append]
    intro block member
    rcases List.mem_append.mp member with inFirst | inSecond
    · exact first.tidy block inFirst
    · exact second.tidy block inSecond
  · rw [List.filterMap_append, List.flatMap_append,
      ← numbersBetween_append first.temps_le second.temps_le]
    refine List.Perm.trans ?_ (first.prints.append second.prints)
    simp only [List.append_assoc]
    refine .append_left _ ?_
    simp only [← List.append_assoc]
    exact .append_right _ List.perm_append_comm

/-- Reading locals fills nothing. -/
theorem reads (layout : Layout) (slots : List Nat) : Packs layout layout [] (slots.map .use) := by
  apply of_block?_eq_nil rfl
  rw [List.filterMap_map]
  exact List.filterMap_eq_nil_iff.mpr fun _ _ => rfl

/-- The names of a layout make no difference. -/
theorem names (packs : Packs layout after own sites) (visible : List (String × Nat)) :
    Packs layout { after with names := visible } own sites :=
  ⟨packs.temps_le, packs.tidy, packs.prints⟩

end Layout.Packs

namespace Matcher

mutual

theorem block?_sites : (matcher : Matcher) -> matcher.sites.filterMap Site.block? = []
  | .any => rfl
  | .bind _ => rfl
  | .same _ => rfl
  | .equals _ => rfl
  | .tuple items => block?_sitesOfAll items
  | .list items => block?_sitesOfAll items

theorem block?_sitesOfAll : (matchers : List Matcher) ->
    (sitesOfAll matchers).filterMap Site.block? = []
  | [] => rfl
  | matcher :: rest => by
      rw [sitesOfAll, List.filterMap_append, block?_sites matcher, block?_sitesOfAll rest]
      rfl

end

end Matcher

namespace Output.Packed

variable {layout between after : Layout}

theorem append {first second : Output} (left : Packed layout between first)
    (right : Packed between after second) : Packed layout after (first.append second) := by
  constructor
  · rw [Output.append, List.filterMap_append, Block.sitesOfAll_append]
    exact left.packs.append right.packs
  · rw [Output.append, List.filterMap_append, List.filterMap_append, left.takes_eq, right.takes_eq]

/-- Text needs no temporary. -/
theorem ofText (text : String) : Packed layout layout (.ofText text) := by
  refine ⟨.of_block?_eq_nil rfl rfl, ?_⟩
  unfold Output.ofText
  split
  · rfl
  · rfl

/-- What was the block in progress becomes a block of its own. -/
theorem toBlock {output : Output} (packed : Packed layout after output) :
    layout.Packs after [] output.toBlock.sites := by
  refine ⟨packed.packs.temps_le, fun block member => ?_, packed.packs.prints⟩
  rcases List.mem_cons.mp member with rfl | inner
  · refine ⟨?_, Slot.fused_fuse _⟩
    exact (Slot.filterMap_temp?_fuse output.slots).trans packed.takes_eq
  · exact packed.packs.tidy block inner

end Output.Packed

namespace Layout

variable {registry : Registry} {layout after : Layout}

/-- What compiling nodes in any layout does with temporaries. -/
def NodesPack (registry : Registry) (nodes : List Node) : Prop :=
  ∀ {layout after : Layout} {output : Output},
    Node.compileAll registry nodes layout = .ok (output, after) -> output.Packed layout after

theorem CompilesBlock.packs {nodes : List Node} {output : Output}
    (compiled : layout.CompilesBlock registry nodes output after)
    (inner : NodesPack registry nodes) : layout.Packs after [] output.toBlock.sites := by
  rcases compiled with ⟨_, ran, rfl⟩
  exact (inner ran).toBlock.names _

theorem CompilesBody.packs {pattern : Pattern} {nodes : List Node} {matcher : Matcher}
    {output : Output} (compiled : layout.CompilesBody registry pattern nodes matcher output after)
    (inner : NodesPack registry nodes) :
    layout.Packs after [] (matcher.sites ++ output.toBlock.sites) := by
  rcases compiled with ⟨bindings, _, _, ran, rfl⟩
  have declared : layout.Packs (layout.declare bindings) [] matcher.sites :=
    .of_block?_eq_nil rfl matcher.block?_sites
  exact (declared.append (inner ran).toBlock).names _

end Layout

namespace Node

variable {registry : Registry}

open Layout

mutual

/-- What a tag evaluates fills temporaries in its blocks only. -/
theorem compileAction_packs : (action : Action) -> {layout after : Layout} ->
    {operation : Operation} -> compileAction registry action layout = .ok (operation, after) ->
    Packs layout after [] (Block.sitesOfOperation operation)
  | .value expr, layout, after, operation, compiled => by
      rcases compileAction_value compiled with ⟨code, _, rfl, rfl⟩
      exact .reads _ code.reads
  | .cond negated test holds fails, layout, after, operation, compiled => by
      rcases compileAction_cond compiled with ⟨code, _, _, _, _, first, second, rfl⟩
      exact (Packs.reads layout code.reads).append
        ((first.packs (compileAll_packed holds)).append (second.packs (compileAll_packed fails)))
  | .loop pattern source body, layout, after, operation, compiled => by
      rcases compileAction_loop compiled with ⟨code, _, _, _, block, rfl⟩
      exact (Packs.reads layout code.reads).append (block.packs (compileAll_packed body))
  | .choice subject clauses, layout, after, operation, compiled => by
      rcases compileAction_choice compiled with ⟨code, _, _, rest, rfl⟩
      exact (Packs.reads layout code.reads).append (compileClauses_packs clauses rest)
  | .callBlock name args body, layout, after, operation, compiled => by
      rcases compileAction_callBlock compiled with ⟨_, codes, _, _, _, block, rfl⟩
      exact (Packs.reads layout (Code.readsOfAll codes)).append
        (block.packs (compileAll_packed body))

theorem compileClauses_packs : (clauses : List Clause) -> {layout after : Layout} ->
    {branches : List Branch} -> compileClauses registry clauses layout = .ok (branches, after) ->
    Packs layout after [] (Block.sitesOfBranches branches)
  | [], layout, after, branches, compiled => by
      cases compiled
      exact .of_block?_eq_nil rfl rfl
  | .clause pattern body :: rest, layout, after, branches, compiled => by
      rcases compileClauses_cons compiled with ⟨_, _, _, _, first, second, rfl⟩
      exact (first.packs (compileAll_packed body)).append (compileClauses_packs rest second)

/-- The temporary of a printed tag is handed out after those of its blocks. -/
theorem compile_packed : (node : Node) -> {layout after : Layout} -> {output : Output} ->
    compile registry node layout = .ok (output, after) -> output.Packed layout after
  | .text content, layout, after, output, compiled => by
      cases compiled
      exact .ofText content
  | .comment _, layout, after, output, compiled => by
      cases compiled
      exact ⟨.of_block?_eq_nil rfl rfl, rfl⟩
  | .print action, layout, after, output, compiled => by
      rcases compile_print compiled with ⟨known, _, rfl, rfl⟩ | ⟨operation, between, _, ran, rfl, rfl⟩
      · exact .ofText known
      · have inner := compileAction_packs action ran
        refine ⟨⟨Nat.le_succ_of_le inner.temps_le, ?_, ?_⟩, rfl⟩
        · rw [Block.sitesOfAll_singleton]
          exact inner.tidy
        · rw [Block.sitesOfAll_singleton]
          have both := inner.prints.append_right (numbersBetween between.temps (between.temps + 1))
          rw [numbersBetween_append inner.temps_le (Nat.le_succ _), numbersBetween_succ] at both
          exact .trans List.perm_append_comm both
  | .silent action, layout, after, output, compiled => by
      rcases compile_silent compiled with ⟨_, ran, rfl⟩
      have inner := compileAction_packs action ran
      refine ⟨?_, rfl⟩
      rw [Block.sitesOfAll_singleton]
      exact inner
  | .bind pattern expr, layout, after, output, compiled => by
      rcases compile_bind compiled with ⟨code, matcher, bindings, _, _, rfl, rfl⟩
      have declared : layout.Packs (layout.declare bindings) [] matcher.sites :=
        .of_block?_eq_nil rfl matcher.block?_sites
      refine ⟨?_, rfl⟩
      rw [Block.sitesOfAll_singleton]
      exact (Packs.reads layout code.reads).append declared

theorem compileAll_packed : (nodes : List Node) -> {layout after : Layout} -> {output : Output} ->
    compileAll registry nodes layout = .ok (output, after) -> output.Packed layout after
  | [], layout, after, output, compiled => by
      cases compiled
      exact ⟨.of_block?_eq_nil rfl rfl, rfl⟩
  | node :: rest, layout, after, output, compiled => by
      rcases compileAll_cons compiled with ⟨_, _, _, first, second, rfl⟩
      exact (compile_packed node first).append (compileAll_packed rest second)

end

end Node

namespace Program

variable {registry : Registry} {nodes : List Node} {program : Program}

/-- A compiled program binds and reads locals where its template binds and uses
names. -/
theorem occurrences_eq (compiled : compile registry nodes = .ok program) :
    program.block.occurrences = Node.occurrences nodes ∧
      program.locals = (Scopes.afterAll {} (Node.mentionsOfAll nodes)).next := by
  rcases Except.bind_eq_ok.mp compiled with ⟨⟨output, layout⟩, ran, done⟩
  cases done
  rcases Node.compileAll_designates nodes ran [] [] with ⟨_, found, reached⟩
  exact ⟨found.symm, (congrArg Scopes.next reached).symm⟩

/-- The name that a clause binds before it fails is not the one that the next
clause uses. -/
example :
    Node.occurrences [.bind (.var "x") (.lit (.atom "a")),
        .print (.choice (.var "x") [.clause (.list [.var "x", .var "x"]) [],
          .clause .wildcard [.print (.value (.var "x"))]])] =
      [.binder 0, .use (some 0), .binder 1, .use (some 1), .use (some 0)] := by
  decide

/-- Compiled programs are well formed. -/
theorem wellFormed_of_compile (compiled : compile registry nodes = .ok program) :
    program.WellFormed := by
  rcases occurrences_eq compiled with ⟨same, count⟩
  have nothing : Scopes.Below {} :=
    ⟨fun _ impossible => (nomatch impossible), fun _ impossible => (nomatch impossible),
      fun _ impossible => nomatch impossible⟩
  have numbered := (Scopes.binders (Node.mentionsOfAll nodes) {}).2
  rcases Except.bind_eq_ok.mp compiled with ⟨⟨output, layout⟩, ran, done⟩
  cases done
  have packs := (Node.compileAll_packed nodes ran).toBlock
  refine ⟨packs.tidy, ?_, ?_, ?_⟩
  · rw [← numbersBetween_zero]
    exact packs.prints
  · rw [same, count, ← numbersBetween_zero]
    exact numbered
  · rw [same, count]
    exact fun slot used => nothing.designated_lt (Node.mentionsOfAll nodes) used

end Program
end HtmlTemplate
