import AssassinGame.App
import AssassinGame.Rooms.Requests

/-! # The room that is checked and the room that is joined

The text of the room field is looked up as it is typed. When the answer arrives the
field is read anew: as a number for `addPlayer` and once more as a text for the waiting
screen. All of them mean one document exactly when the text is the number's own numeral.
-/

namespace AssassinGame

open AssassinGame.Action Segments JoinGameVC

/-- Answered with `response`, the handler of the lookup runs to its end and registers the
player under `checked`, the waiting screen listens to `checked`, and the game screen queries
the players of `checked`. -/
structure JoinsChecked (edited : JoinGameVC) (deviceID : Option UUID)
    (response : Option Document) (checked : ResourcePath) : Prop where
  ends : (joinGame.completion edited deviceID response).result = some true
  registers : ∃ playerRef fields,
    document? (checked ++ ["players"]) edited.nameInput = some playerRef ∧
      .write (.setData playerRef fields) ∈
        (joinGame.completion edited deviceID response).requests
  listens : (WaitingVC.prepared edited.roomNumberInput edited.nameInput).listenDocument.result =
    some checked
  queries : ∃ screen, (WaitingVC.prepared edited.roomNumberInput edited.nameInput).prepare =
      some screen ∧ players screen.roomNumber = checked ++ ["players"]

theorem prepare_prepared {text name : String} {screen : TabBarVC} :
    (WaitingVC.prepared text name).prepare = some screen ↔
      ∃ roomNumber, int? text = some roomNumber ∧
        screen = ⟨roomNumber, name, TabBarVC.placeholder⟩ := by
  cases number : int? text <;> simp [WaitingVC.prepare, WaitingVC.prepared, number, eq_comm]

/-- Once the lookup has found its document, the room joined is the room checked if and only
if the field, when it is read anew, holds the numeral of a number of 64 bits as such, the
text that was looked up names the same document, and nothing else stops `addPlayer`. -/
theorem joins_checked_iff {typed edited : JoinGameVC} {deviceID : Option UUID}
    {store : Firestore} {checked : ResourcePath}
    (checks : typed.joinGame.result = some checked)
    (found : (store.lookup checked).isSome) :
    JoinsChecked edited deviceID (store.lookup checked) checked ↔
      ∃ roomNumber, int? edited.roomNumberInput = some roomNumber ∧
        edited.roomNumberInput = decimal roomNumber ∧
        split typed.roomNumberInput = [decimal roomNumber] ∧
        ∃ image, edited.playerPhoto = some image ∧
          Registrable deviceID roomNumber (Player.init edited.nameInput image) := by
  rcases Option.isSome_iff_exists.mp found with ⟨document, answered⟩
  rw [answered]
  have looked : checked = games ++ split typed.roomNumberInput := document?_eq_some checks
  constructor
  · intro joins
    rcases joins.queries with ⟨screen, prepared, queried⟩
    rcases prepare_prepared.mp prepared with ⟨roomNumber, number, rfl⟩
    have own : checked = gameRef roomNumber :=
      (List.append_cancel_right queried).symm
    have heard : checked = games ++ [edited.roomNumberInput] := by
      have listened : document? games edited.roomNumberInput = some checked := joins.listens
      rw [document?_of_int? number, Option.some.injEq] at listened
      exact listened.symm
    have numeral : edited.roomNumberInput = decimal roomNumber := by
      simpa [gameRef] using heard.symm.trans own
    have same : split typed.roomNumberInput = [decimal roomNumber] := by
      simpa [gameRef] using looked.symm.trans own
    rcases (completion_eq edited deviceID document).2.mp joins.ends with
      ⟨operation, called, ended⟩
    cases photo : edited.playerPhoto with
    | none => simp [operation?, photo] at called
    | some image =>
        simp only [operation?, photo, number, Option.bind_eq_bind, Option.bind_some,
          Option.pure_def, Option.some.injEq] at called
        subst called
        exact ⟨roomNumber, number, numeral, same, image, rfl,
          addPlayer_result_eq_some.mp ended⟩
  · rintro ⟨roomNumber, number, numeral, same, image, photo, registrable⟩
    have own : checked = gameRef roomNumber := by rw [looked, same, gameRef]
    subst own
    have called : edited.operation? deviceID =
        some (.addPlayer deviceID roomNumber (Player.init edited.nameInput image)) := by
      simp [operation?, photo, number]
    rcases completion_eq edited deviceID document with ⟨requests, ends⟩
    rw [called] at requests
    rcases registrable_iff.mp registrable with ⟨⟨playerRef, named⟩, ⟨device, rfl⟩, data, png⟩
    refine ⟨ends.mpr ⟨_, called, addPlayer_result_eq_some.mpr registrable⟩, ?_, ?_, ?_⟩
    · refine ⟨playerRef, playerFields (Player.init edited.nameInput image), named, ?_⟩
      have asked : (Operation.addPlayer (some device) roomNumber
          (Player.init edited.nameInput image)).action.requests = _ :=
        addPlayer_requests named png
      rw [requests]
      simp only [asked]
      exact List.mem_cons_self
    · exact (document?_of_int? number).trans (by rw [numeral, gameRef])
    · exact ⟨_, prepare_prepared.mpr ⟨roomNumber, number, rfl⟩, rfl⟩

def publishedKillshot : List Event :=
  (World.start ∅ ∅).follow [
    .call 0 (.addGame (Game.init 7 2 "noon")), .answer 0,
    .call 1 (.uploadKillshotName ⟨7, "ann", "bob"⟩ "bob"), .answer 0]

def lookupScreen (text : String) : JoinGameVC := ⟨"bob", some someImage, text⟩

theorem joins_checked_iff_seven :
    ∃ final, Transition.run World.step (World.start ∅ ∅) publishedKillshot = some final ∧
      JoinsChecked (lookupScreen "7") (some somePhone) (final.firestore.lookup (gameRef 7))
        (gameRef 7) := by
  have ends : (Transition.run World.step (World.start ∅ ∅) publishedKillshot).any
      (fun final => final.outstanding = [] ∧ (final.firestore.lookup (gameRef 7)).isSome) =
        true := by decide
  rcases Transition.run_ends ends with ⟨final, performed, _, found⟩
  exact ⟨final, performed, (@joins_checked_iff (lookupScreen "/7/") _ _ _ _ (by decide) found).mpr
    ⟨7, by decide, by decide, by decide, _, rfl, by decide⟩⟩

/-- The killshot document is found under its text, which is not a number. -/
theorem joining_killshot_document_traps :
    ∃ final, Transition.run World.step (World.start ∅ ∅) publishedKillshot = some final ∧
      (lookupScreen "7ks").joinGame.result = some (TabBarVC.killshotRef 7) ∧
      (final.firestore.lookup (TabBarVC.killshotRef 7)).isSome ∧
      ¬JoinsChecked (lookupScreen "7ks") (some somePhone)
        (final.firestore.lookup (TabBarVC.killshotRef 7)) (TabBarVC.killshotRef 7) := by
  have ends : (Transition.run World.step (World.start ∅ ∅) publishedKillshot).any
      (fun final => (final.firestore.lookup (TabBarVC.killshotRef 7)).isSome ∧
        (joinGame.completion (lookupScreen "7ks") (some somePhone)
          (final.firestore.lookup (TabBarVC.killshotRef 7))).result = none) = true := by decide
  rcases Transition.run_ends ends with ⟨final, performed, found, trapped⟩
  refine ⟨final, performed, by decide, found, fun joins => ?_⟩
  rw [joins.ends] at trapped
  cases trapped

end AssassinGame
