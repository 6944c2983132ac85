import AssassinGame.Rooms.Filling

/-! # The game never starts early

A listener that sees zero proves that as many calls have completed as the room
was opened for.
-/

namespace AssassinGame

open AssassinGame.Action Transition World

/-- In every state reached while players are only added to a room opened for
`game.playerCount` players, the counter lies between that number less the
completed writes and that number. A listener that is shown an earlier or current
state of the document and starts the game proves that this many calls have
completed. With no more calls than that, a counter that is zero stays zero. -/
theorem game_never_starts_early {id : CallId} {game : Game} {firestore : Firestore}
    {storage : Storage} {before after : List Event} {past final : World}
    (reached : run World.step (World.created id game firestore storage) before = some past)
    (performed : run World.step past after = some final)
    (added : Meets World.step (OnlyAdditions game.roomNumber)
      (World.created id game firestore storage) (before ++ after)) :
    (∃ count, counter? game.roomNumber final.firestore = some count ∧
      game.playerCount - final.updates game.roomNumber ≤ count ∧
      count ≤ game.playerCount) ∧
    (∀ listener started : WaitingVC,
      listener.listenDocument.result = some (gameRef game.roomNumber) →
      WaitingVC.listenDocument.completion listener
        (past.firestore.lookup (gameRef game.roomNumber)) = some (started, true) →
      game.playerCount ≤ final.completedJoins game.roomNumber) ∧
    ((final.joins game.roomNumber : Int) ≤ game.playerCount →
      counter? game.roomNumber past.firestore = some 0 →
      counter? game.roomNumber final.firestore = some 0) := by
  rcases added.append reached with ⟨addedBefore, addedAfter⟩
  have earlier := (@Filling.openedBy game (.addGame game) rfl id firestore storage).run
    addedBefore reached
  have filling := earlier.run addedAfter performed
  have since := earlier.since_run addedAfter performed
  have completed := filling.orderly.updates_le_completedJoins filling.joining
  -- a zero in the past means that enough writes had completed by then
  have enough : counter? game.roomNumber past.firestore = some 0 →
      game.playerCount ≤ past.updates game.roomNumber := by
    intro zero
    have close := (earlier.bounded.counter 0 zero).1
    omega
  refine ⟨?_, ?_, ?_⟩
  · rcases filling.counted with ⟨count, counted⟩
    exact ⟨count, counted, filling.bounded.counter count counted⟩
  · intro listener started _ starts
    rcases WaitingVC.completion_starts.mp starts with ⟨data, found, zero, _⟩
    have grown := since.updates
    have written := enough (by simp [counter?, found, zero])
    omega
  · intro few zero
    have all := completedJoins_le_joins game.roomNumber final
    have grown := since.updates
    have written := enough zero
    exact (since.counter (by omega)).trans zero

def bothJoin : List Event :=
  (World.created 0 (Game.init 7 2 "noon") ∅ ∅).follow [
    .call 1 (join 7 "ann"), .call 2 (join 7 "bob"),
    .answer 0, .answer 0, .answer 0, .answer 0, .answer 4,
    .answer 0, .answer 0, .answer 0, .answer 0, .answer 0]

theorem game_never_starts_early_bothJoin :
    ∃ final, run World.step (World.created 0 (Game.init 7 2 "noon") ∅ ∅) bothJoin =
      some final ∧ counter? 7 final.firestore = some 0 ∧ 2 ≤ final.completedJoins 7 := by
  have ends : (run World.step (World.created 0 (Game.init 7 2 "noon") ∅ ∅) bothJoin).any
      (fun final => WaitingVC.listenDocument.completion (.prepared "7" "ann")
        (final.firestore.lookup (gameRef 7)) = some (⟨"7", "ann", "0"⟩, true)) = true := by
    decide
  rcases run_ends ends with ⟨final, reached, started⟩
  rcases WaitingVC.completion_starts.mp started with ⟨data, found, zero, _⟩
  have enough := (game_never_starts_early reached (run_nil final) (by decide)).2.1 _ _
    (by decide) started
  exact ⟨final, reached, by simp [counter?, found, zero], Int.ofNat_le.mp enough⟩

end AssassinGame
