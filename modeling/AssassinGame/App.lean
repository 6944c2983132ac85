import AssassinGame.Foundation.Entries
import AssassinGame.World

/-! # The phones' screens on top of the stores

A phone creates a room, or looks a room up and joins it, waits there for the counter
to reach zero and then shows the game screen. Each phone is known by the call that
registers its player. Listeners are shown states of their document that are past or
present; queries are answered with the present documents.
-/

namespace AssassinGame

open AssassinGame.Action Transition

/-! ## The calls that the screens make -/

theorem CreateGameVC.createRoom_eq (self : CreateGameVC) (shuffled : Shuffle Nat)
    (date : String) (deviceID : Option UUID) :
    self.createRoom shuffled date deviceID =
      (Operation.createRoom self (generateRoomNumber shuffled) date deviceID).action := rfl

/-- The call of `addPlayer` that the handler of the lookup makes, unless it traps
before. -/
def JoinGameVC.operation? (self : JoinGameVC) (deviceID : Option UUID) : Option Operation := do
  let image ← self.playerPhoto
  let roomNumber ← int? self.roomNumberInput
  return .addPlayer deviceID roomNumber (Player.init self.nameInput image)

/-- Once the document is there, the handler issues what this call issues, and shows the
waiting screen if the call runs to its end. -/
theorem JoinGameVC.completion_eq (self : JoinGameVC) (deviceID : Option UUID)
    (document : Document) :
    (joinGame.completion self deviceID (some document)).requests =
        (match self.operation? deviceID with
          | some operation => operation.action.requests
          | none => []) ∧
      ((joinGame.completion self deviceID (some document)).result = some true ↔
        ∃ operation, self.operation? deviceID = some operation ∧
          operation.action.result = some ()) := by
  cases photo : self.playerPhoto with
  | none => simp [joinGame.completion, operation?, bind_requests, bind_result, photo]
  | some image =>
      cases number : int? self.roomNumberInput with
      | none => simp [joinGame.completion, operation?, bind_requests, bind_result, photo, number]
      | some roomNumber =>
          cases ended : (addPlayer deviceID roomNumber
              (Player.init self.nameInput image)).result <;>
            simp [joinGame.completion, operation?, bind_requests, bind_result, photo, number,
              ended, Operation.action]

/-! ## The phones -/

/-- A phone whose player has been registered. -/
structure Client where
  waiting : WaitingVC
  /-- The game screen, once `waitingToGame` has been performed. -/
  playing : Option TabBarVC
  /-- A query of `assignTarget` has been answered on it. -/
  answered : Bool
  deriving DecidableEq

structure App where
  world : World
  /-- The documents as they have been, the present ones first. -/
  past : List Firestore
  /-- The lookups of `joinGame` that have not been answered. -/
  lookups : List (CallId × ResourcePath)
  clients : AList fun _ : CallId => Client

namespace App

inductive Event
  | createRoom (id : CallId) (screen : CreateGameVC) (shuffled : Shuffle Nat) (date : String)
      (deviceID : Option UUID)
  | joinGame (id : CallId) (screen : JoinGameVC)
  /-- The lookup is answered; the fields of the screen are read anew. -/
  | found (id : CallId) (screen : JoinGameVC) (deviceID : Option UUID)
  | perform (pending : Pending) (killerTarget : Option Player)
  /-- The listener of the waiting screen is shown the document as it was `age` writes
  ago. -/
  | snapshot (id : CallId) (age : Nat)
  /-- A query of the game screen is answered; its view may appear any number of times. -/
  | answered (id : CallId) (shuffle : Shuffle String)

def start : App where
  world := World.start ∅ ∅
  past := [∅]
  lookups := []
  clients := ∅

/-- A phone makes the call that registers its player. If the call runs to its end, the
waiting screen is shown. -/
def enter (app : App) (id : CallId) (operation : Operation) (screen : WaitingVC) :
    Option App :=
  (app.world.step (.call id operation)).map fun world =>
    { app with
      world := world
      clients := if operation.action.result = some () then
          app.clients.insert id ⟨screen, none, false⟩
        else app.clients }

def Finds (app : App) (id : CallId) : Prop :=
  ∃ path ∈ app.lookups.lookup id, (app.world.firestore.lookup path).isSome

instance (app : App) (id : CallId) : Decidable (app.Finds id) :=
  inferInstanceAs (Decidable (∃ path ∈ app.lookups.lookup id, _))

/-- The listener of a phone runs. A phone that traps is gone. -/
def shown (app : App) (id : CallId) (client : Client) (snapshot : Option Document) : App :=
  match WaitingVC.listenDocument.completion client.waiting snapshot with
  | none => { app with clients := app.clients.erase id }
  | some (waiting, false) =>
      { app with clients := app.clients.insert id { client with waiting := waiting } }
  | some (waiting, true) =>
      match waiting.prepare with
      | none => { app with clients := app.clients.erase id }
      | some screen =>
          { app with clients := app.clients.insert id ⟨waiting, some screen, false⟩ }

def step [Canonical] (app : App) : Event → Option App
  | .createRoom id screen shuffled date deviceID =>
      let roomNumber := generateRoomNumber shuffled
      app.enter id (.createRoom screen roomNumber date deviceID)
        (.prepared (Segments.decimal roomNumber) screen.nameField)
  | .joinGame id screen =>
      match screen.joinGame.result with
      | none => some app
      | some path => some { app with lookups := (id, path) :: app.lookups }
  | .found id screen deviceID =>
      if app.lookups.lookup id = none then none
      else
        let rest := { app with lookups := app.lookups.eraseP (·.1 = id) }
        if app.Finds id then
          match screen.operation? deviceID with
          | none => some rest
          | some operation =>
              rest.enter id operation (.prepared screen.roomNumberInput screen.nameInput)
        else some rest
  | .perform pending killerTarget =>
      (app.world.step (.perform pending killerTarget)).map fun world =>
        { app with world := world, past := world.firestore :: app.past }
  | .snapshot id age => do
      let client ← app.clients.lookup id
      let path ← client.waiting.listenDocument.result
      let store ← app.past[age]?
      return app.shown id client (store.lookup path)
  | .answered id shuffle => do
      let client ← app.clients.lookup id
      let screen ← client.playing
      let documents := app.world.firestore.getDocuments (players screen.roomNumber)
      let screen := (TabBarVC.assignTarget.completion screen shuffle documents).1
      return { app with
        clients := app.clients.insert id
          { client with playing := some screen, answered := true } }

/-- The events of a script, in which `none` performs the first request under way. -/
def follow [Canonical] (app : App) : List (Option Event) → List Event
  | [] => []
  | some event :: script => event :: ((app.step event).getD app).follow script
  | none :: script =>
      match app.world.outstanding with
      | [] => app.follow script
      | pending :: _ => .perform pending none ::
          ((app.step (.perform pending none)).getD app).follow script

end App

end AssassinGame
