import HtmlTemplate.Proofs.Rendering.Layout

namespace HtmlTemplate

/-!
# Running follows walking

A run of compiled statements follows a walk of the nodes they come from if both
end in the same way, with the same calls, and if the run leaves alone whatever
was handed out before the nodes were compiled.  The relation composes: one step
may use everything that the step before it has established.

The state that a walk keeps in its scope is read off a machine.  A machine is
ready for nodes if the locals of the visible names hold the scope, and if it
has room for everything that the nodes were given.
-/

namespace Machine

/-- What a temporary holds. -/
def temp (machine : Machine) (index : Nat) : Markup :=
  machine.temps.getD index .empty

theorem temp_setIfInBounds_self {machine : Machine} {index : Nat}
    (inside : index < machine.temps.size) (content : Markup) :
    temp { machine with temps := machine.temps.setIfInBounds index content } index = content := by
  simp [temp, inside]

theorem temp_setIfInBounds_of_ne {index other : Nat} (different : index ≠ other)
    (machine : Machine) (content : Markup) :
    temp { machine with temps := machine.temps.setIfInBounds index content } other =
      machine.temp other := by
  simp [temp, Array.getElem?_setIfInBounds_ne different]

end Machine

/-- What was handed out before a layout is the same in two machines. -/
structure Keeps (layout : Layout) (before after : Machine) : Prop where
  locals_size : after.locals.size = before.locals.size
  temps_size : after.temps.size = before.temps.size
  read_eq : ∀ slot < layout.locals, after.locals.read slot = before.locals.read slot
  temp_eq : ∀ index < layout.temps, after.temp index = before.temp index

namespace Keeps

variable {layout other : Layout} {before between after : Machine}

theorem of_eq (locals : after.locals = before.locals) (temps : after.temps = before.temps) :
    Keeps layout before after where
  locals_size := by rw [locals]
  temps_size := by rw [temps]
  read_eq _ _ := by rw [locals]
  temp_eq _ _ := by rw [Machine.temp, Machine.temp, temps]

theorem trans (first : Keeps layout before between) (second : Keeps layout between after) :
    Keeps layout before after where
  locals_size := second.locals_size.trans first.locals_size
  temps_size := second.temps_size.trans first.temps_size
  read_eq slot handed := (second.read_eq slot handed).trans (first.read_eq slot handed)
  temp_eq index handed := (second.temp_eq index handed).trans (first.temp_eq index handed)

/-- What was handed out early was also handed out before anything later. -/
theorem earlier (keeps : Keeps other before after) (grows : layout.Grows other) :
    Keeps layout before after where
  locals_size := keeps.locals_size
  temps_size := keeps.temps_size
  read_eq slot handed := keeps.read_eq slot (Nat.lt_of_lt_of_le handed grows.locals_le)
  temp_eq index handed := keeps.temp_eq index (Nat.lt_of_lt_of_le handed grows.temps_le)

theorem scope_eq (keeps : Keeps layout before after)
    (visible : NamesBelow layout.locals layout.names) :
    after.locals.scope layout.names = before.locals.scope layout.names :=
  Locals.scope_congr fun entry member => keeps.read_eq entry.2 (visible entry member)

end Keeps

/-- A machine that nodes can be run on: the locals of the visible names hold
the scope, and there is room up to the layout after the nodes. -/
structure Ready (layout after : Layout) (scope : Scope) (machine : Machine) : Prop where
  visible : NamesBelow layout.locals layout.names
  scope_eq : machine.locals.scope layout.names = scope
  locals_room : after.locals ≤ machine.locals.size
  temps_room : after.temps ≤ machine.temps.size

namespace Ready

variable {layout between after : Layout} {scope : Scope} {machine next : Machine}

theorem keeps (ready : Ready layout after scope machine) (keeps : Keeps layout machine next) :
    Ready layout after scope next where
  visible := ready.visible
  scope_eq := (keeps.scope_eq ready.visible).trans ready.scope_eq
  locals_room := by rw [keeps.locals_size]; exact ready.locals_room
  temps_room := by rw [keeps.temps_size]; exact ready.temps_room

/-- Room for all nodes is room for the first ones. -/
theorem first (ready : Ready layout after scope machine) (grows : between.Grows after) :
    Ready layout between scope machine where
  visible := ready.visible
  scope_eq := ready.scope_eq
  locals_room := Nat.le_trans grows.locals_le ready.locals_room
  temps_room := Nat.le_trans grows.temps_le ready.temps_room

/-- Room up to the end of a block is room for the block: the names that it
hides make no difference. -/
theorem inside {names : List (String × Nat)}
    (ready : Ready layout { after with names := names } scope machine) :
    Ready layout after scope machine :=
  ⟨ready.visible, ready.scope_eq, ready.locals_room, ready.temps_room⟩

/-- Nodes that come later are compiled with the same visible names, unless a
binding stands before them. -/
theorem later (ready : Ready layout after scope machine) (grows : layout.Grows between)
    (names : between.names = layout.names) : Ready between after scope machine where
  visible := grows.visible ready.visible
  scope_eq := by rw [names]; exact ready.scope_eq
  locals_room := ready.locals_room
  temps_room := ready.temps_room

end Ready

/-- A run does what a walk does.  The results agree in the given sense, errors
and journals are the same. -/
def Follows {α β : Type} (layout : Layout) (machine : Machine) (run : Run α) (walk : Walk β)
    (agree : α -> β -> Machine -> Prop) : Prop :=
  match walk machine.journal with
  | .ok expected journal => ∃ result after, run machine = .ok result after ∧
      after.journal = journal ∧ Keeps layout machine after ∧ agree result expected after
  | .error error journal => ∃ after, run machine = .error error after ∧ after.journal = journal

/-- The result of a run is the one of the walk. -/
def Same {α : Type} (result expected : α) (_ : Machine) : Prop :=
  result = expected

namespace Follows

variable {α β γ δ : Type} {layout other : Layout} {machine : Machine} {run : Run α}
  {walk : Walk β} {agree : α -> β -> Machine -> Prop}

theorem pure {result : α} {expected : β} (holds : agree result expected machine) :
    Follows layout machine (Pure.pure result) (Pure.pure expected) agree :=
  ⟨result, machine, rfl, rfl, .of_eq rfl rfl, holds⟩

theorem of_onMachine {walk : Walk α} (same : run machine = walk.onMachine machine) :
    Follows layout machine run walk Same := by
  unfold Follows
  simp only [Walk.onMachine] at same
  cases ended : walk machine.journal with
  | ok expected journal =>
      simp only [ended] at same
      exact ⟨expected, _, same, rfl, .of_eq rfl rfl, rfl⟩
  | error error journal =>
      simp only [ended] at same
      exact ⟨_, same, rfl⟩

/-- The second step may rely on what the first one established. -/
theorem bind {next : α -> Run γ} {rest : β -> Walk δ} {agree' : γ -> δ -> Machine -> Prop}
    (first : Follows layout machine run walk agree)
    (second : ∀ result expected after, Keeps layout machine after -> agree result expected after ->
      Follows layout after (next result) (rest expected) agree') :
    Follows layout machine (run >>= next) (walk >>= rest) agree' := by
  unfold Follows at first ⊢
  simp only [Bind.bind, EStateM.bind]
  cases ended : walk machine.journal with
  | error error journal =>
      rw [ended] at first
      rcases first with ⟨after, ran, kept⟩
      exact ⟨after, by rw [ran], kept⟩
  | ok expected journal =>
      rw [ended] at first
      rcases first with ⟨result, between, ran, rfl, keeps, holds⟩
      have continued := second result expected between keeps holds
      unfold Follows at continued
      simp only [ran]
      cases ended' : rest expected between.journal with
      | error error journal =>
          rw [ended'] at continued
          exact continued
      | ok expected' journal =>
          rw [ended'] at continued
          rcases continued with ⟨result', after, ran', kept, keeps', holds'⟩
          exact ⟨result', after, ran', kept, keeps.trans keeps', holds'⟩

theorem mono {agree' : α -> β -> Machine -> Prop} (follows : Follows layout machine run walk agree)
    (weaken : ∀ result expected after, Keeps layout machine after -> agree result expected after ->
      agree' result expected after) : Follows layout machine run walk agree' := by
  unfold Follows at follows ⊢
  cases ended : walk machine.journal with
  | error error journal =>
      rw [ended] at follows
      exact follows
  | ok expected journal =>
      rw [ended] at follows
      rcases follows with ⟨result, after, ran, kept, keeps, holds⟩
      exact ⟨result, after, ran, kept, keeps, weaken result expected after keeps holds⟩

/-- A step that was compiled later leaves alone what was handed out earlier. -/
theorem earlier (follows : Follows other machine run walk agree) (grows : layout.Grows other) :
    Follows layout machine run walk agree := by
  unfold Follows at follows ⊢
  cases ended : walk machine.journal with
  | error error journal =>
      rw [ended] at follows
      exact follows
  | ok expected journal =>
      rw [ended] at follows
      rcases follows with ⟨result, after, ran, kept, keeps, holds⟩
      exact ⟨result, after, ran, kept, keeps.earlier grows, holds⟩

theorem ofExcept (result : Except Error α) :
    Follows layout machine (Run.ofExcept result) (Walk.ofExcept result) Same :=
  of_onMachine (Walk.ofExcept_onMachine result machine)

theorem invoke (context : Context) (target : NamedFunction) (args : List Value) :
    Follows layout machine (Run.invoke context target args) (Walk.invoke context target args)
      Same :=
  of_onMachine (Walk.invoke_onMachine context target args machine)

theorem throw (error : Error) :
    Follows layout machine (MonadExcept.throw error : Run α) (MonadExcept.throw error : Walk β)
      agree :=
  ⟨machine, rfl, rfl⟩

end Follows
end HtmlTemplate
