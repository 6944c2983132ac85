import AssassinGame.Foundation.Transition
import AssassinGame.Controller.TabBarVC

/-! # One game screen over time

Every appearance of the view starts another query of `assignTarget`, also when the
camera is dismissed, and every answer picks anew. The label keeps the first target it
has shown, and shots are filed under the name that was on the label when the camera
was opened, as long as an answer that comes later has nothing else to pick.
-/

namespace AssassinGame

open AssassinGame.Action Transition TabBarVC

structure Shot where
  /-- The name that was on the label when `takePicture` was pressed. -/
  pressed : String
  img : UIImage
  /-- What the handler issued. -/
  requests : List Request

structure Session where
  screen : TabBarVC
  /-- The queries of `assignTarget` that have not been answered. -/
  queries : Nat
  /-- While the camera is open, the name that was on the label when it was opened. -/
  camera : Option String
  /-- The first target whose name the label has shown. -/
  shown : Option String
  filed : List Shot

namespace Session

inductive Event
  | viewDidAppear
  /-- The players arrive. -/
  | answered (shuffle : Shuffle String)
  /-- An error arrives instead, which is printed. -/
  | failed
  | takePicture
  | picked (img : UIImage)
  | cancelled

def start (roomNumber : Int) (name : String) : Session where
  screen := ⟨roomNumber, name, placeholder⟩
  queries := 0
  camera := none
  shown := none
  filed := []

/-- `viewDidAppear`: another query. -/
def appear (session : Session) : Session := { session with queries := session.queries + 1 }

def answer [Canonical] (documents : List String) (session : Session) (shuffle : Shuffle String) :
    Session :=
  let screen := (assignTarget.completion session.screen shuffle documents).1
  { session with
    screen := screen
    queries := session.queries - 1
    shown := session.shown.or
      (if potentialTargets session.screen.name documents = [] then none
      else some screen.targetName) }

/-- The camera closes, so that the view appears again. -/
def dismiss (session : Session) : Session := { session with camera := none }.appear

/-- One event on a screen whose room keeps the players `documents`; `none` when it
cannot happen. -/
def step [Canonical] (documents : List String) (session : Session) : Event → Option Session
  | .viewDidAppear => some session.appear
  | .answered shuffle =>
      if session.queries = 0 then none else some (session.answer documents shuffle)
  | .failed =>
      if session.queries = 0 then none
      else some { session with queries := session.queries - 1 }
  | .takePicture =>
      if session.camera.isSome then none
      else some { session with camera := some session.screen.targetName }
  | .picked img => session.camera.map fun pressed =>
      { session with
        filed := ⟨pressed, img, (session.screen.imagePickerController img).requests⟩ ::
          session.filed }.dismiss
  | .cancelled => session.camera.map fun _ => session.dismiss

/-- The label shows the first target it has shown, and every shot is filed as if the
label still showed what it showed when the camera was opened. -/
structure Faithful (session : Session) : Prop where
  stable : ∀ first ∈ session.shown, session.screen.targetName = first
  filed : ∀ shot ∈ session.filed, shot.requests =
    (imagePickerController { session.screen with targetName := shot.pressed }
      shot.img).requests
  opened : ∀ pressed ∈ session.camera, session.screen.targetName = pressed

/-- Nothing depends on the label yet, or the room keeps no document besides the client's
own and the one named on the label. -/
def Settled [Canonical] (documents : List String) (session : Session) : Prop :=
  session.shown = none ∧ session.camera = none ∨
    ∀ target ∈ potentialTargets session.screen.name documents,
      target = session.screen.targetName

instance [Canonical] (documents : List String) (session : Session) :
    Decidable (session.Settled documents) :=
  inferInstanceAs (Decidable (_ ∧ _ ∨ _))

def Steady [Canonical] (documents : List String) (session : Session) : Event → Prop
  | .answered _ => session.Settled documents
  | _ => True

instance [Canonical] (documents : List String) (session : Session) :
    ∀ event, Decidable (Steady documents session event)
  | .answered _ => inferInstanceAs (Decidable (session.Settled documents))
  | .viewDidAppear | .failed | .takePicture | .picked _ | .cancelled =>
      inferInstanceAs (Decidable True)

/-! ## What an answer does -/

section Answer

variable [Canonical] {documents : List String} {session next : Session}

theorem answer_targetName (shuffle : Shuffle String) :
    (session.answer documents shuffle).screen.targetName =
      ((shuffle (potentialTargets session.screen.name documents)).getLast?).getD
        session.screen.targetName :=
  completion_targetName session.screen shuffle documents

theorem shown_step {event : Event} {first : String} (shown : session.shown = some first)
    (stepped : session.step documents event = some next) : next.shown = some first := by
  cases event with
  | viewDidAppear => exact Option.some.inj stepped ▸ shown
  | answered shuffle =>
      simp only [step, Option.ite_none_left_eq_some, Option.some.injEq] at stepped
      rw [← stepped.2, answer, shown]
      rfl
  | failed | takePicture =>
      simp only [step, Option.ite_none_left_eq_some, Option.some.injEq] at stepped
      exact stepped.2 ▸ shown
  | picked | cancelled =>
      rcases Option.map_eq_some_iff.mp stepped with ⟨_, _, rfl⟩
      exact shown

theorem answer_keeps (settled : session.Settled documents) (shuffle : Shuffle String) :
    (session.answer documents shuffle).screen.targetName = session.screen.targetName ∨
      session.shown = none ∧ session.camera = none := by
  rcases settled with free | only
  · exact .inr free
  · left
    rw [answer_targetName]
    cases last : (shuffle (potentialTargets session.screen.name documents)).getLast? with
    | none => rfl
    | some target =>
        exact only target (shuffle.mem_iff.mp (List.mem_of_getLast? last))

theorem Faithful.answer (faithful : session.Faithful) (settled : session.Settled documents)
    (shuffle : Shuffle String) : (session.answer documents shuffle).Faithful where
  stable := by
    intro first shows
    cases before : session.shown with
    | some earlier =>
        rcases answer_keeps settled shuffle with kept | ⟨nothing, _⟩
        · rw [Session.answer, before, Option.some_or, Option.mem_def,
            Option.some.injEq] at shows
          rw [kept, faithful.stable earlier before, shows]
        · rw [before] at nothing
          cases nothing
    | none =>
        rw [Session.answer, before, Option.none_or, Option.mem_def,
          Option.ite_none_left_eq_some, Option.some.injEq] at shows
        exact shows.2
  filed := faithful.filed
  opened := by
    intro pressed opens
    rcases answer_keeps settled shuffle with kept | ⟨_, closed⟩
    · exact kept.trans (faithful.opened pressed opens)
    · exact absurd opens (by simp [Session.answer, closed])

/-- If the screen is not settled, some outcome of the shuffle takes the label away from
what depends on it. -/
theorem Faithful.settled_iff (faithful : session.Faithful) :
    session.Settled documents ↔
      ∀ shuffle, (session.answer documents shuffle).Faithful := by
  constructor
  · exact faithful.answer
  · intro always
    by_contra unsettled
    simp only [Settled, not_or, not_forall] at unsettled
    rcases unsettled with ⟨depends, target, candidate, other⟩
    rcases exists_completion_targetName session.screen candidate with ⟨shuffle, shows⟩
    have after := always shuffle
    have changed : (session.answer documents shuffle).screen.targetName = target := shows
    cases before : session.shown with
    | some first =>
        have stays := after.stable first (by simp [Session.answer, before])
        rw [changed] at stays
        exact other (stays.trans (faithful.stable first before).symm)
    | none =>
        cases opens : session.camera with
        | none => exact depends ⟨before, opens⟩
        | some pressed =>
            have stays := after.opened pressed opens
            rw [changed] at stays
            exact other (stays.trans (faithful.opened pressed opens).symm)

theorem Faithful.step (faithful : session.Faithful) {event : Event}
    (steady : Steady documents session event)
    (stepped : session.step documents event = some next) : next.Faithful := by
  cases event with
  | viewDidAppear =>
      cases stepped
      exact ⟨faithful.stable, faithful.filed, faithful.opened⟩
  | answered shuffle =>
      simp only [Session.step, Option.ite_none_left_eq_some, Option.some.injEq] at stepped
      exact stepped.2 ▸ faithful.answer steady shuffle
  | failed =>
      simp only [Session.step, Option.ite_none_left_eq_some, Option.some.injEq] at stepped
      exact stepped.2 ▸ ⟨faithful.stable, faithful.filed, faithful.opened⟩
  | takePicture =>
      simp only [Session.step, Option.ite_none_left_eq_some, Option.some.injEq] at stepped
      exact stepped.2 ▸ ⟨faithful.stable, faithful.filed, by simp⟩
  | picked img =>
      rcases Option.map_eq_some_iff.mp stepped with ⟨pressed, opens, rfl⟩
      refine ⟨faithful.stable, ?_, by simp [dismiss, appear]⟩
      intro shot member
      rcases List.mem_cons.mp member with rfl | earlier
      · rw [← faithful.opened pressed opens]
        rfl
      · exact faithful.filed shot earlier
  | cancelled =>
      rcases Option.map_eq_some_iff.mp stepped with ⟨_, _, rfl⟩
      exact ⟨faithful.stable, faithful.filed, by simp [dismiss, appear]⟩

end Answer

theorem Faithful.run [Canonical] {documents : List String} {session final : Session}
    {events : List Event} (faithful : session.Faithful)
    (steady : Meets (Session.step documents) (Steady documents) session events)
    (performed : Transition.run (Session.step documents) session events = some final) :
    final.Faithful :=
  run_invariant Faithful (fun _ _ _ faithful steady stepped => faithful.step steady stepped)
    faithful steady performed

theorem shown_run [Canonical] {documents : List String} {session final : Session}
    {events : List Event} {first : String} (shown : session.shown = some first)
    (performed : Transition.run (Session.step documents) session events = some final) :
    final.shown = some first :=
  run_keeps (fun session => session.shown = some first)
    (fun shown stepped => shown_step shown stepped) shown performed

theorem faithful_start (roomNumber : Int) (name : String) :
    (start roomNumber name).Faithful where
  stable _ shows := by cases shows
  filed _ member := by cases member
  opened _ opens := by cases opens

end Session

/-- While the players of the room stay the same and queries are answered only while the
screen is settled, the label never changes once it has shown a target, and every shot is
filed under the name that was on the label when the camera was opened. -/
theorem target_stays [Canonical] {documents : List String} {roomNumber : Int} {name : String}
    {before after : List Session.Event} {earlier final : Session}
    (reached : run (Session.step documents) (Session.start roomNumber name) before =
      some earlier)
    (performed : run (Session.step documents) earlier after = some final)
    (steady : Meets (Session.step documents) (Session.Steady documents)
      (Session.start roomNumber name) (before ++ after)) :
    (∀ first ∈ earlier.shown, earlier.screen.targetName = first ∧
      final.screen.targetName = first) ∧
    ∀ shot ∈ final.filed, shot.requests =
      (imagePickerController { final.screen with targetName := shot.pressed }
        shot.img).requests := by
  rcases steady.append reached with ⟨steadyBefore, steadyAfter⟩
  have faithful := (Session.faithful_start roomNumber name).run steadyBefore reached
  have stays := faithful.run steadyAfter performed
  refine ⟨fun first shown => ⟨faithful.stable first shown, ?_⟩, stays.filed⟩
  exact stays.stable first (Session.shown_run shown performed)

section Rounds

open Ascii

def againstOne : List Session.Event :=
  [.viewDidAppear, .answered .keep, .takePicture, .picked ⟨some [1]⟩, .answered .keep]

theorem target_stays_againstOne :
    ∃ earlier final, run (Session.step ["ann", "bob"]) (Session.start 7 "ann")
        (againstOne.take 2) = some earlier ∧
      run (Session.step ["ann", "bob"]) earlier (againstOne.drop 2) = some final ∧
      final.screen.targetName = "bob" ∧ ∀ shot ∈ final.filed, shot.requests =
        (imagePickerController ⟨7, "ann", shot.pressed⟩ shot.img).requests := by
  have ends : (run (Session.step ["ann", "bob"]) (Session.start 7 "ann")
        (againstOne.take 2)).any (fun earlier => earlier.shown = some "bob" ∧
      (run (Session.step ["ann", "bob"]) earlier (againstOne.drop 2)).any (fun final =>
        final.screen.roomNumber = 7 ∧ final.screen.name = "ann") = true) = true := by
    decide
  rcases run_ends ends with ⟨earlier, reached, shown, ends⟩
  rcases run_ends ends with ⟨final, performed, room, name⟩
  rcases target_stays reached performed (by decide) with ⟨stable, filed⟩
  exact ⟨earlier, final, reached, performed, (stable _ shown).2, by
    simpa [room, name] using filed⟩

def swapped : Shuffle String := .toward ["bob", "cat"] ["cat", "bob"] (by decide)

/-- With two opponents the next answer may pick the other one, also while the camera is
open. -/
theorem target_changes :
    ∃ final, run (Session.step ["ann", "bob", "cat"]) (Session.start 7 "ann")
        [.viewDidAppear, .answered .keep, .viewDidAppear, .takePicture, .answered swapped,
          .picked ⟨some [1]⟩] = some final ∧
      final.shown = some "cat" ∧ final.screen.targetName = "bob" ∧
      ∃ shot ∈ final.filed, shot.pressed = "cat" ∧
        shot.requests = (imagePickerController ⟨7, "ann", "bob"⟩ ⟨some [1]⟩).requests ∧
        shot.requests ≠ (imagePickerController ⟨7, "ann", "cat"⟩ ⟨some [1]⟩).requests := by
  apply run_ends
  decide

end Rounds

end AssassinGame
