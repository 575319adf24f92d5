import HtmlTemplate.Proofs.Storage.Watching
import HtmlTemplate.Proofs.Storage.WellFormed

namespace HtmlTemplate

/-!
# Steps that guard their storage

A watched step guards the storage if it makes sound accesses only and leaves
alone what was handed out before a layout.  The relation composes: one step may
use everything that the step before it has established.  Writing, filling and
taking out are guarded as long as they concern places that are new.
-/

namespace Watch

/-- All accesses so far were sound. -/
def Sound (watch : Watch) : Prop :=
  ∀ access ∈ watch.accesses, access.Sound

/-- A local holds what was written to it last, and it was written by an
activation that is still in progress. -/
def Holds (watch : Watch) (slot : Nat) : Prop :=
  ∃ stored, watch.writes.lookup slot = some stored ∧
    watch.machine.locals[slot]? = some stored.value ∧ stored.path <:+ watch.path

/-- A temporary holds what was written to it last, and it was written by the
activation in progress. -/
def Filled (watch : Watch) (temp : Nat) : Prop :=
  ∃ stored, watch.fills.lookup temp = some stored ∧
    watch.machine.temps[temp]? = some stored.value ∧ stored.path = watch.path

theorem Holds.enter {watch : Watch} {slot : Nat} (holds : watch.Holds slot) :
    watch.enter.Holds slot := by
  rcases holds with ⟨stored, last, found, inside⟩
  exact ⟨stored, last, found, inside.trans (List.suffix_cons _ _)⟩

theorem Sound.cons {watch : Watch} {access : Access} (sound : watch.Sound)
    (first : access.Sound) : ∀ other ∈ access :: watch.accesses, other.Sound := by
  intro other member
  rcases List.mem_cons.mp member with rfl | older
  · exact first
  · exact sound other older

end Watch

/-- What was handed out before a layout is as it was: the places, and what was
written to them last. -/
structure Untouched (layout : Layout) (before after : Watch) : Prop where
  path : after.path = before.path
  locals_size : after.machine.locals.size = before.machine.locals.size
  temps_size : after.machine.temps.size = before.machine.temps.size
  locals : ∀ slot < layout.locals,
    after.machine.locals[slot]? = before.machine.locals[slot]? ∧
      after.writes.lookup slot = before.writes.lookup slot
  temps : ∀ temp < layout.temps,
    after.machine.temps[temp]? = before.machine.temps[temp]? ∧
      after.fills.lookup temp = before.fills.lookup temp

namespace Untouched

variable {layout other : Layout} {before between after : Watch}

theorem refl (watch : Watch) : Untouched layout watch watch :=
  ⟨rfl, rfl, rfl, fun _ _ => ⟨rfl, rfl⟩, fun _ _ => ⟨rfl, rfl⟩⟩

theorem trans (first : Untouched layout before between) (second : Untouched layout between after) :
    Untouched layout before after where
  path := second.path.trans first.path
  locals_size := second.locals_size.trans first.locals_size
  temps_size := second.temps_size.trans first.temps_size
  locals slot handed :=
    ⟨(second.locals slot handed).1.trans (first.locals slot handed).1,
      (second.locals slot handed).2.trans (first.locals slot handed).2⟩
  temps temp handed :=
    ⟨(second.temps temp handed).1.trans (first.temps temp handed).1,
      (second.temps temp handed).2.trans (first.temps temp handed).2⟩

/-- What was handed out early was also handed out before anything later. -/
theorem earlier (untouched : Untouched other before after) (grows : layout.Grows other) :
    Untouched layout before after where
  path := untouched.path
  locals_size := untouched.locals_size
  temps_size := untouched.temps_size
  locals slot handed := untouched.locals slot (Nat.lt_of_lt_of_le handed grows.locals_le)
  temps temp handed := untouched.temps temp (Nat.lt_of_lt_of_le handed grows.temps_le)

theorem holds (untouched : Untouched layout before after) {slot : Nat}
    (handed : slot < layout.locals) (holds : before.Holds slot) : after.Holds slot := by
  rcases holds with ⟨stored, last, found, inside⟩
  have same := untouched.locals slot handed
  exact ⟨stored, same.2.trans last, same.1.trans found, untouched.path.symm ▸ inside⟩

theorem filled (untouched : Untouched layout before after) {temp : Nat}
    (handed : temp < layout.temps) (filled : before.Filled temp) : after.Filled temp := by
  rcases filled with ⟨stored, last, found, here⟩
  have same := untouched.temps temp handed
  exact ⟨stored, same.2.trans last, same.1.trans found, here.trans untouched.path.symm⟩

end Untouched

/-- A record on which nodes can be watched: the locals of the visible names
hold what their binders wrote, and there is room up to the layout `last`. -/
structure Settled (layout last : Layout) (watch : Watch) : Prop where
  visible : NamesBelow layout.locals layout.names
  holds : ∀ entry ∈ layout.names, watch.Holds entry.2
  locals_room : last.locals ≤ watch.machine.locals.size
  temps_room : last.temps ≤ watch.machine.temps.size

namespace Settled

variable {layout between last : Layout} {watch next : Watch}

theorem untouched (settled : Settled layout last watch) (kept : Untouched layout watch next) :
    Settled layout last next where
  visible := settled.visible
  holds entry member := kept.holds (settled.visible entry member) (settled.holds entry member)
  locals_room := by rw [kept.locals_size]; exact settled.locals_room
  temps_room := by rw [kept.temps_size]; exact settled.temps_room

/-- Room for all nodes is room for the first ones. -/
theorem first (settled : Settled layout last watch) (grows : between.Grows last) :
    Settled layout between watch where
  visible := settled.visible
  holds := settled.holds
  locals_room := Nat.le_trans grows.locals_le settled.locals_room
  temps_room := Nat.le_trans grows.temps_le settled.temps_room

/-- The names that a block hides need no room. -/
theorem inside {names : List (String × Nat)}
    (settled : Settled layout { last with names := names } watch) : Settled layout last watch :=
  ⟨settled.visible, settled.holds, settled.locals_room, settled.temps_room⟩

/-- Nodes that come later see the same names, unless a binding stands before
them. -/
theorem later (settled : Settled layout last watch) (grows : layout.Grows between)
    (names : between.names = layout.names) : Settled between last watch where
  visible := grows.visible settled.visible
  holds := by rw [names]; exact settled.holds
  locals_room := settled.locals_room
  temps_room := settled.temps_room

theorem enter (settled : Settled layout last watch) : Settled layout last watch.enter :=
  ⟨settled.visible, fun entry member => (settled.holds entry member).enter,
    settled.locals_room, settled.temps_room⟩

end Settled

/-- A watched step makes sound accesses only, also if it fails, and it leaves
alone what was handed out before the layout.  `holds` tells what is known of
its result. -/
def Guards {α : Type} (layout : Layout) (watch : Watch) (step : Watching α)
    (holds : α -> Watch -> Prop) : Prop :=
  watch.Sound ->
    match step watch with
    | .ok result after => after.Sound ∧ Untouched layout watch after ∧ holds result after
    | .error _ after => after.Sound

/-- Nothing is known of a result. -/
def Unknown {α : Type} (_ : α) (_ : Watch) : Prop :=
  True

namespace Guards

variable {α β : Type} {layout other : Layout} {watch : Watch} {step : Watching α}
  {holds : α -> Watch -> Prop}

theorem pure {result : α} (known : holds result watch) :
    Guards layout watch (Pure.pure result) holds :=
  fun sound => ⟨sound, .refl watch, known⟩

theorem throw (error : Error) : Guards layout watch (MonadExcept.throw error) holds :=
  fun sound => sound

/-- The second step may rely on what the first one established. -/
theorem bind {next : α -> Watching β} {holds' : β -> Watch -> Prop}
    (first : Guards layout watch step holds)
    (second : ∀ result after, Untouched layout watch after -> holds result after ->
      Guards layout after (next result) holds') :
    Guards layout watch (step >>= next) holds' := by
  intro sound
  have here := first sound
  simp only [Bind.bind, EStateM.bind]
  cases ended : step watch with
  | error error after =>
      rw [ended] at here
      exact here
  | ok result after =>
      rw [ended] at here
      rcases here with ⟨sound', untouched, known⟩
      have there := second result after untouched known sound'
      simp only
      cases ended' : next result after with
      | error error last =>
          rw [ended'] at there
          exact there
      | ok result' last =>
          rw [ended'] at there
          exact ⟨there.1, untouched.trans there.2.1, there.2.2⟩

theorem mono {holds' : α -> Watch -> Prop} (guards : Guards layout watch step holds)
    (weaken : ∀ result after, Untouched layout watch after -> holds result after ->
      holds' result after) : Guards layout watch step holds' := by
  intro sound
  have here := guards sound
  cases ended : step watch with
  | error error after =>
      rw [ended] at here
      exact here
  | ok result after =>
      rw [ended] at here
      exact ⟨here.1, here.2.1, weaken result after here.2.1 here.2.2⟩

/-- A step that was compiled later leaves alone what was handed out earlier. -/
theorem earlier (guards : Guards other watch step holds) (grows : layout.Grows other) :
    Guards layout watch step holds := by
  intro sound
  have here := guards sound
  cases ended : step watch with
  | error error after =>
      rw [ended] at here
      exact here
  | ok result after =>
      rw [ended] at here
      exact ⟨here.1, here.2.1.earlier grows, here.2.2⟩

theorem ofExcept (result : Except Error α) :
    Guards layout watch (Watching.unseen (Run.ofExcept result)) Unknown := by
  intro sound
  cases result with
  | error error => exact sound
  | ok value => exact ⟨sound, .refl watch, trivial⟩

theorem invoke (context : Context) (target : NamedFunction) (args : List Value) :
    Guards layout watch (Watching.unseen (Run.invoke context target args)) Unknown := by
  intro sound
  have called : Run.invoke context target args watch.machine =
      Run.ofExcept (target.function.respond context watch.machine.journal args)
        { watch.machine with
          journal := ⟨target.name, args, target.function.note args⟩ :: watch.machine.journal } :=
    rfl
  simp only [Watching.unseen, called]
  cases target.function.respond context watch.machine.journal args with
  | error error => exact sound
  | ok value =>
      exact ⟨sound, ⟨rfl, rfl, rfl, fun _ _ => ⟨rfl, rfl⟩, fun _ _ => ⟨rfl, rfl⟩⟩, trivial⟩

theorem readLocal {slot : Nat} (found : watch.Holds slot) :
    Guards layout watch (Watching.readLocal slot) Unknown :=
  fun sound => ⟨sound.cons found, ⟨rfl, rfl, rfl, fun _ _ => ⟨rfl, rfl⟩, fun _ _ => ⟨rfl, rfl⟩⟩,
    trivial⟩

/-- An activation begins inside of those in progress, and ends. -/
theorem activation (inner : Guards layout watch.enter step Unknown) :
    Guards layout watch (Watching.activation step) Unknown := by
  intro sound
  have here := inner sound
  rw [Watching.activation_eq]
  cases ended : step watch.enter with
  | error error after =>
      rw [ended] at here
      exact here
  | ok result after =>
      rw [ended] at here
      rcases here with ⟨sound', untouched, _⟩
      exact ⟨sound', ⟨rfl, untouched.locals_size, untouched.temps_size, untouched.locals,
        untouched.temps⟩, trivial⟩

/-- Writing a local changes no local that was handed out before. -/
theorem writeLocal {slot temps : Nat} {names : List (String × Nat)}
    (room : slot < watch.machine.locals.size) (value : Value) :
    Guards ⟨temps, slot, names⟩ watch (Watching.writeLocal slot value)
      fun _ after => after.Holds slot := by
  refine fun sound => ⟨sound.cons room, ⟨rfl, Locals.size_write .., rfl, fun other older => ?_,
    fun _ _ => ⟨rfl, rfl⟩⟩, ⟨value, watch.path⟩, ?_, ?_, List.suffix_refl _⟩
  · have different : other ≠ slot := Nat.ne_of_lt older
    exact ⟨Array.getElem?_setIfInBounds_ne different.symm,
      by simp [List.lookup_cons, beq_eq_false_iff_ne.mpr different]⟩
  · simp
  · simp [Locals.write, room]

/-- Filling a temporary changes none that was handed out before. -/
theorem fill {temp : Nat} (newer : layout.temps ≤ temp) (room : temp < watch.machine.temps.size)
    (content : Markup) :
    Guards layout watch (Watching.fill temp content) fun _ after => after.Filled temp := by
  refine fun sound => ⟨sound.cons room, ⟨rfl, rfl, Array.size_setIfInBounds, fun _ _ => ⟨rfl, rfl⟩,
    fun other older => ?_⟩, ⟨content, watch.path⟩, ?_, ?_, rfl⟩
  · have different : other ≠ temp := Nat.ne_of_lt (Nat.lt_of_lt_of_le older newer)
    exact ⟨Array.getElem?_setIfInBounds_ne different.symm,
      by simp [List.lookup_cons, beq_eq_false_iff_ne.mpr different]⟩
  · simp
  · simp [room]

/-- Taking out a temporary leaves the other ones as they are. -/
theorem take {temp : Nat} (newer : layout.temps ≤ temp) (filled : watch.Filled temp) :
    Guards layout watch (Watching.take temp)
      fun _ after => ∀ other, other ≠ temp -> watch.Filled other -> after.Filled other := by
  refine fun sound => ⟨sound.cons filled, ⟨rfl, rfl, Array.size_setIfInBounds,
    fun _ _ => ⟨rfl, rfl⟩, fun other older => ⟨?_, rfl⟩⟩, ?_⟩
  · exact Array.getElem?_setIfInBounds_ne (Nat.ne_of_gt (Nat.lt_of_lt_of_le older newer))
  · rintro other different ⟨stored, last, found, here⟩
    exact ⟨stored, last, (Array.getElem?_setIfInBounds_ne different.symm).trans found, here⟩

/-- A loop is guarded if each round is, wherever the rounds before have left
the machine. -/
theorem collect {last : Layout} {step : Value -> Watching (Option Value)}
    (round : ∀ item watch, Settled layout last watch -> Guards layout watch (step item) Unknown) :
    (items done : List Value) -> (watch : Watch) -> Settled layout last watch ->
    Guards layout watch (Watching.collect step done items) Unknown
  | [], _, _, _ => .pure trivial
  | item :: rest, done, watch, settled => by
      refine (round item watch settled).bind fun result after untouched _ => ?_
      cases result with
      | none => exact collect round rest done after (settled.untouched untouched)
      | some value => exact collect round rest (value :: done) after (settled.untouched untouched)

end Guards

end HtmlTemplate
