import HtmlTemplate.Proofs.Helper.Links
import Mathlib.Data.Bool.AllAny
import Mathlib.Data.List.TakeWhile

namespace HtmlTemplate

/-!
# Destinations that run scripts

Before a browser follows a destination, it drops the control characters and
spaces in front, and tabs and line ends wherever they stand.  The helpers look
for the scheme of scripts behind white space, and drop nothing inside of it.  So
of the destinations that a browser runs they stop those in which the scheme is
unbroken and has only white space in front.  A text that does not hold the
scheme at all passes, and it is written as it is.
-/

namespace Submission

/-- What a browser drops in front of a destination. -/
def isLeading (c : Char) : Bool :=
  c.toNat ≤ 0x20

/-- What a browser drops everywhere in a destination. -/
def isBreak (c : Char) : Bool :=
  c == '\t' || c == '\n' || c == '\r'

/-- A destination as a browser follows it. -/
def followed (destination : String) : List Char :=
  (destination.toList.dropWhile isLeading).filter fun c => !isBreak c

/-- A text begins with the scheme of scripts, in letters of either case. -/
def BeginsScript (text : List Char) : Prop :=
  scriptScheme.toList <+: text.map Char.toLower

/-- A browser runs the destination as a script. -/
def RunsInBrowser (destination : String) : Prop :=
  BeginsScript (followed destination)

/-- The scheme of scripts stands in the destination, in letters of either case. -/
def Mentions (destination : String) : Prop :=
  scriptScheme.toList <:+: destination.toList.map Char.toLower

instance (text : List Char) : Decidable (BeginsScript text) :=
  inferInstanceAs (Decidable (_ <+: _))

instance (destination : String) : Decidable (RunsInBrowser destination) :=
  inferInstanceAs (Decidable (BeginsScript _))

instance (destination : String) : Decidable (Mentions destination) :=
  inferInstanceAs (Decidable (_ <:+: _))

/-- What a browser drops in front is white space, and it drops nothing among the
characters of the scheme. -/
structure Unbroken (destination : String) : Prop where
  blank : ∀ c ∈ destination.toList.takeWhile isLeading, CharClass.isWhiteSpace c = true
  whole : ∀ c ∈ (destination.toList.dropWhile isLeading).take scriptScheme.length,
    isBreak c = false

/-! ## Where the scheme begins -/

theorem eq_of_toLower {c : Char} (lower : c.toLower = 'j') : c = 'j' ∨ c = 'J' := by
  unfold Char.toLower at lower
  split at lower
  · refine .inr (Char.ext ?_)
    have same : c.val + ('a'.val - 'A'.val) = 'j'.val := congrArg Char.val lower
    have shifted : c.val = 'j'.val - ('a'.val - 'A'.val) := by
      rw [← same, UInt32.add_sub_cancel]
    exact shifted
  · exact .inl lower

theorem isBreak_iff {c : Char} : isBreak c = true ↔ c ∈ ['\t', '\n', '\r'] := by
  simp [isBreak, or_assoc]

/-- No character of the scheme is a tab or ends a line. -/
theorem isBreak_eq_false {c : Char} (member : c.toLower ∈ scriptScheme.toList) :
    isBreak c = false := by
  have others : ∀ broken ∈ ['\t', '\n', '\r'], broken.toLower ∉ scriptScheme.toList :=
    List.all_iff_forall_prop.mp (by decide)
  rw [← Bool.not_eq_true, isBreak_iff]
  exact fun broken => others c broken member

/-- What stays in front stays everywhere. -/
theorem isBreak_of_not_isLeading {c : Char} (stays : isLeading c = false) : isBreak c = false := by
  have leading : ∀ broken ∈ ['\t', '\n', '\r'], isLeading broken = true :=
    List.all_iff_forall_prop.mp (by decide)
  rw [← Bool.not_eq_true, isBreak_iff]
  exact fun broken => Bool.false_ne_true (stays.symm.trans (leading c broken))

section Texts

variable {text : List Char}

theorem take_filter {keeps : Char -> Bool} {count : Nat}
    (kept : ∀ c ∈ text.take count, keeps c = true) :
    (text.filter keeps).take count = text.take count := by
  induction text generalizing count with
  | nil => rfl
  | cons c rest inductionHypothesis =>
      cases count with
      | zero => rfl
      | succ count =>
          rw [List.take_succ_cons, List.forall_mem_cons] at kept
          rw [List.filter_cons_of_pos kept.1, List.take_succ_cons, List.take_succ_cons,
            inductionHypothesis kept.2]

/-- Two ways to drop from the front agree if each ends where the other does not
go on. -/
theorem takeWhile_eq {first second : Char -> Bool}
    (stops : ∀ c ∈ (text.dropWhile first).head?, second c = false)
    (stops' : ∀ c ∈ (text.dropWhile second).head?, first c = false) :
    text.takeWhile first = text.takeWhile second ∧
      text.dropWhile first = text.dropWhile second := by
  induction text with
  | nil => exact ⟨rfl, rfl⟩
  | cons c rest inductionHypothesis =>
      cases taken : first c with
      | true =>
          cases taken' : second c with
          | true =>
              rw [List.dropWhile_cons_of_pos taken] at stops
              rw [List.dropWhile_cons_of_pos taken'] at stops'
              rcases inductionHypothesis stops stops' with ⟨front, back⟩
              rw [List.takeWhile_cons_of_pos taken, List.takeWhile_cons_of_pos taken', front,
                List.dropWhile_cons_of_pos taken, List.dropWhile_cons_of_pos taken', back]
              exact ⟨rfl, rfl⟩
          | false =>
              rw [List.dropWhile_cons_of_neg (by simp [taken'])] at stops'
              exact absurd (stops' c rfl) (by simp [taken])
      | false =>
          rw [List.dropWhile_cons_of_neg (by simp [taken])] at stops
          have taken' := stops c rfl
          simp only [List.takeWhile_cons, List.dropWhile_cons, taken, taken', Bool.false_eq_true,
            if_false, and_self]

/-- The first character of the scheme is dropped by nobody. -/
theorem BeginsScript.head (begins : BeginsScript text) : ∀ c ∈ text.head?,
    isLeading c = false ∧ CharClass.isWhiteSpace c = false := by
  cases text with
  | nil => exact nofun
  | cons c rest =>
      rintro _ ⟨⟩
      have lower : 'j' = c.toLower := (List.cons_prefix_cons.mp begins).1
      rcases eq_of_toLower lower.symm with rfl | rfl <;> decide

theorem beginsScript_take : BeginsScript (text.take scriptScheme.length) ↔ BeginsScript text := by
  rw [BeginsScript, BeginsScript, List.map_take, List.prefix_take_iff]
  exact and_iff_left (by decide)

/-- No character of the scheme is dropped where it stands. -/
theorem BeginsScript.whole (begins : BeginsScript text) :
    ∀ c ∈ text.take scriptScheme.length, isBreak c = false := by
  intro c member
  refine isBreak_eq_false ?_
  have same : scriptScheme.toList = (text.take scriptScheme.length).map Char.toLower := by
    rw [List.map_take]
    exact List.prefix_iff_eq_take.mp begins
  rw [same]
  exact List.mem_map_of_mem member

/-- What is dropped behind the scheme makes no difference to it. -/
theorem beginsScript_filter (whole : ∀ c ∈ text.take scriptScheme.length, isBreak c = false) :
    BeginsScript (text.filter fun c => !isBreak c) ↔ BeginsScript text := by
  rw [← beginsScript_take, take_filter fun c member => by rw [whole c member]; rfl,
    beginsScript_take]

end Texts

/-! ## What the helpers stop -/

section Destination

variable {destination : String}

theorem runsScript_iff :
    runsScript destination = true ↔ BeginsScript (trimStart destination.toList) :=
  List.isPrefixOf_iff_prefix

/-- A browser does not look behind what it drops in front: the character there
stays. -/
theorem RunsInBrowser.head (runs : RunsInBrowser destination) :
    ∀ c ∈ (destination.toList.dropWhile isLeading).head?,
      CharClass.isWhiteSpace c = false := by
  intro c found
  rcases List.head?_eq_some_iff.mp found with ⟨rest, behind⟩
  have stays : isLeading c = false := by
    have last := List.head?_dropWhile_not isLeading destination.toList
    rw [found] at last
    exact last
  have kept := isBreak_of_not_isLeading stays
  rw [RunsInBrowser, followed, behind, List.filter_cons_of_pos (by rw [kept]; rfl)] at runs
  exact (runs.head c rfl).2

/-- Of what a browser runs the helpers stop what is unbroken, and nothing else. -/
theorem runsScript_iff_unbroken (runs : RunsInBrowser destination) :
    runsScript destination = true ↔ Unbroken destination := by
  rw [runsScript_iff, trimStart]
  constructor
  · intro begins
    -- Both ways to drop from the front end at the first letter of the scheme.
    have same := takeWhile_eq (fun c found => (begins.head c found).1) runs.head
    refine ⟨fun c member => ?_, ?_⟩
    · rw [← same.1] at member
      exact List.mem_takeWhile_imp member
    · rw [← same.2]
      exact begins.whole
  · intro unbroken
    have begins : BeginsScript (destination.toList.dropWhile isLeading) :=
      (beginsScript_filter unbroken.whole).mp runs
    have dropped : (destination.toList.dropWhile isLeading).dropWhile CharClass.isWhiteSpace =
        destination.toList.dropWhile isLeading := by
      cases behind : destination.toList.dropWhile isLeading with
      | nil => rfl
      | cons c rest =>
          have stays := runs.head c (by rw [behind]; rfl)
          exact List.dropWhile_cons_of_neg (by simp [stays])
    rw [← List.dropWhile_append_of_pos unbroken.blank, List.takeWhile_append_dropWhile] at dropped
    rw [dropped]
    exact begins

/-- A destination without the scheme is not stopped. -/
theorem runsScript_of_not_mentions (silent : ¬Mentions destination) :
    runsScript destination = false := by
  rw [← Bool.not_eq_true, runsScript_iff]
  intro begins
  refine silent (begins.isInfix.trans ?_)
  exact ((List.dropWhile_suffix _).map Char.toLower).isInfix

end Destination

end Submission

/-! ## Links and buttons -/

namespace Link

open Submission

/-- What is done once the destination is accepted. -/
def submitTo (helper fallback : String)
    (answer : Options -> Value -> String -> Option String -> Except Error Markup)
    (context : Context) (given : Options) (accepted : Value) : Except Error Markup := do
  let method ← Submission.method helper fallback (given.get? "method")
  if method = "get" then answer given accepted method none
  else
    let token? ← token "link" context (destinationText accepted) (given.get? "csrf_token")
    answer given accepted method token?

/-- What becomes of a destination that is a text.  One that a browser runs is
stopped if it is unbroken, and is missed otherwise.  One that does not hold the
scheme of scripts is used as it is, and whatever is written shows it so. -/
structure Screens (helper fallback : String)
    (answer : Options -> Value -> String -> Option String -> Except Error Markup)
    (Shows : String -> Option String -> Markup -> Prop) (context : Context) (given : Options)
    (destination : String) (result : Except Error Markup) : Prop where
  stopped : RunsInBrowser destination -> Unbroken destination ->
    result = .error (.function helper (.scriptDestination destination))
  missed : RunsInBrowser destination -> ¬Unbroken destination ->
    result = submitTo helper fallback answer context given (.str destination)
  used : ¬Mentions destination ->
    result = submitTo helper fallback answer context given (.str destination)
  shown : ∀ markup, result = .ok markup -> ∃ method token?, Shows method token? markup

/-- The destination is looked at first of all, and for nothing but the scheme. -/
theorem submit_eq_submitTo {options : Value} {given : Options} {destination : String}
    (read : Options.read? options = some given)
    (first : given.get? "to" = some (.str destination)) (helper fallback : String)
    (missing : Complaint)
    (answer : Options -> Value -> String -> Option String -> Except Error Markup)
    (context : Context) :
    submit helper missing fallback answer context options =
      if runsScript destination then .error (.function helper (.scriptDestination destination))
      else submitTo helper fallback answer context given (.str destination) := by
  have found : Options.read helper options = .ok given := Options.read_eq_ok.mpr read
  have taken : requireDestination helper missing (given.get? "to") =
      if runsScript destination then .error (.function helper (.scriptDestination destination))
      else .ok (.str destination) := by
    rw [first]
    rfl
  simp only [submit, prepare, found, bind_assoc, pure_bind]
  change (requireDestination helper missing (given.get? "to") >>= _) = _
  rw [taken]
  split <;> rfl

theorem screens_submit {options : Value} {given : Options} {destination : String}
    (read : Options.read? options = some given)
    (first : given.get? "to" = some (.str destination)) (helper fallback : String)
    (missing : Complaint)
    {answer : Options -> Value -> String -> Option String -> Except Error Markup}
    {Shows : String -> Option String -> Markup -> Prop} (context : Context)
    (answers : ∀ method token? markup,
      answer given (.str destination) method token? = .ok markup -> Shows method token? markup) :
    Screens helper fallback answer Shows context given destination
      (submit helper missing fallback answer context options) := by
  rw [submit_eq_submitTo read first]
  refine ⟨fun runs unbroken => ?_, fun runs broken => ?_, fun silent => ?_, fun markup done => ?_⟩
  · rw [if_pos ((runsScript_iff_unbroken runs).mpr unbroken)]
  · rw [if_neg fun stopped => broken ((runsScript_iff_unbroken runs).mp stopped)]
  · rw [runsScript_of_not_mentions silent, if_neg Bool.false_ne_true]
  · split at done
    · cases done
    · rcases Except.bind_eq_ok.mp done with ⟨method, _, done⟩
      split at done
      · exact ⟨method, none, answers _ _ _ done⟩
      · rcases Except.bind_eq_ok.mp done with ⟨token?, _, done⟩
        exact ⟨method, token?, answers _ _ _ done⟩

/-- Links and buttons stop the destinations that a browser would run as scripts,
as long as these are unbroken.  Destinations that do not hold the scheme they
write as they are, and refuse none. -/
theorem destination_screened (context : Context) (text options : Value) {given : Options}
    {destination : String} (read : Options.read? options = some given)
    (first : given.get? "to" = some (.str destination)) :
    Screens "link" "get" (linkAnswer text)
        (fun method token? => Element.Consists "a"
          (ownAttributes method token? given (Entity.escape destination).toUTF8) (remaining given)
          text)
        context given destination (link context text options) ∧
      Screens "button" "post" (buttonAnswer text)
        (fun method token? => Element.Consists "button"
          (dataAttributes token? method (Entity.escape destination).toUTF8) (remaining given) text)
        context given destination (button context text options) := by
  have prints := Attribute.prints_str destination
  rw [link_eq, button_eq]
  refine ⟨screens_submit read first _ _ _ context fun method token? markup done => ?_,
    screens_submit read first _ _ _ context fun method token? markup done => ?_⟩
  · have own := writes_ownOptions method token? given prints
    rw [Markup.bytes_escape] at own
    exact Element.consists_of_around (by decide) own done
  · have own := writes_data token? method prints
    rw [Markup.bytes_escape] at own
    exact Element.consists_of_around (by decide) own done

/-- A script behind white space is stopped, and a destination that only begins
like one is used. -/
theorem destination_screened_slash :
    let context : Context := {}
    let script := " JavaScript:alert(1)"
    let harmless := "java/script"
    let options (destination : String) : Value := .keywords [("to", .str destination)]
    link context (.str "x") (options script) = .error (.function "link" (.scriptDestination script)) ∧
      button context (.str "x") (options script) =
        .error (.function "button" (.scriptDestination script)) ∧
      link context (.str "x") (options harmless) = submitTo "link" "get" (linkAnswer (.str "x")) context
        (Options.single "to" (.str harmless)) (.str harmless) := by
  intro context script harmless options
  have runs : RunsInBrowser script := by
    decide +kernel
  have unbroken : Unbroken script :=
    ⟨List.all_iff_forall_prop.mp (by decide +kernel), List.all_iff_forall_prop.mp (by decide +kernel)⟩
  have silent : ¬Mentions harmless := by
    decide +kernel
  have read (destination : String) : Options.read? (options destination) =
      some (Options.single "to" (.str destination)) := rfl
  have stopped := destination_screened context (.str "x") _ (read script) rfl
  have used := destination_screened context (.str "x") _ (read harmless) rfl
  exact ⟨stopped.1.stopped runs unbroken, stopped.2.stopped runs unbroken, used.1.used silent⟩

/-- A tab inside of the scheme or a control character in front of it, and a
destination is written that a browser runs. -/
theorem link_broken_scheme :
    let options (destination : String) : Value := .keywords [("to", .str destination)]
    (RunsInBrowser "java\tscript:alert(1)" ∧
      ∃ output, link {} (.str "x") (options "java\tscript:alert(1)") = .ok output ∧
        output.bytes = "<a href=\"java\tscript:alert(1)\">x</a>".toUTF8) ∧
    (RunsInBrowser "\x01javascript:alert(1)" ∧
      ∃ output, link {} (.str "x") (options "\x01javascript:alert(1)") = .ok output ∧
        output.bytes = "<a href=\"\x01javascript:alert(1)\">x</a>".toUTF8) :=
  ⟨⟨by decide +kernel, _, rfl, by decide +kernel⟩, ⟨by decide +kernel, _, rfl, by decide +kernel⟩⟩

end Link
end HtmlTemplate
