import AssassinGame.Controller.CreateGameVC
import AssassinGame.Controller.TabBarVC

/-! # Waiting for the other players -/

namespace AssassinGame

open AssassinGame.Action Segments

/-- The screen. Both segues that lead to it set the room and the name. -/
structure WaitingVC where
  roomNumber : String
  name : String
  /-- The text of the `numPlayersNeeded` label. -/
  numPlayersNeeded : String
  deriving DecidableEq

namespace WaitingVC

def placeholder : String := "_"

/-- The segues `createToWaitingSegue` and `joinToWaitSegue`. -/
def prepared (roomNumber name : String) : WaitingVC where
  roomNumber := roomNumber
  name := name
  numPlayersNeeded := placeholder

def listenDocument (self : WaitingVC) : Action ResourcePath :=
  document games self.roomNumber

/-- The listener. The result says whether `waitingToGame` is performed. -/
def listenDocument.completion (self : WaitingVC) :
    Option Document → Option (WaitingVC × Bool)
  | none => some (self, false)
  | some data => do
      let playerCount ← data.int? "playerCount"
      let self := { self with numPlayersNeeded := decimal playerCount }
      return (self, self.numPlayersNeeded == "0")

/-- The segue `waitingToGame`, where `none` is the trap of `Int(roomNumber!)!`. -/
def prepare (self : WaitingVC) : Option TabBarVC := do
  let roomNumber ← int? self.roomNumber
  return { roomNumber := roomNumber, name := self.name, targetName := TabBarVC.placeholder }

theorem completion_keeps {self next : WaitingVC} {snapshot : Option Document} {starts : Bool}
    (ran : listenDocument.completion self snapshot = some (next, starts)) :
    next.roomNumber = self.roomNumber ∧ next.name = self.name := by
  cases snapshot with
  | none =>
      cases ran
      exact ⟨rfl, rfl⟩
  | some data =>
      rcases Option.bind_eq_some_iff.mp ran with ⟨count, _, same⟩
      cases same
      exact ⟨rfl, rfl⟩

/-- The listener starts the game exactly on the value zero. -/
theorem completion_starts {self next : WaitingVC} {snapshot : Option Document} :
    listenDocument.completion self snapshot = some (next, true) ↔
      ∃ data, snapshot = some data ∧ data.int? "playerCount" = some 0 ∧
        next = { self with numPlayersNeeded := "0" } := by
  cases snapshot with
  | none => simp [listenDocument.completion]
  | some data =>
      have zero : ∀ count : Int, decimal count = "0" ↔ count = 0 := fun count =>
        ⟨fun equal => decimal_injective (equal.trans (by decide)),
          fun equal => equal ▸ (by decide)⟩
      cases counted : data.int? "playerCount" with
      | none => simp [listenDocument.completion, counted]
      | some count =>
          simp only [listenDocument.completion, counted, Option.bind_eq_bind,
            Option.bind_some, Option.pure_def, Option.some.injEq, Prod.mk.injEq, beq_iff_eq,
            zero, exists_eq_left']
          constructor
          · rintro ⟨rfl, rfl⟩
            exact ⟨rfl, rfl⟩
          · rintro ⟨rfl, rfl⟩
            exact ⟨rfl, rfl⟩

end WaitingVC

end AssassinGame
