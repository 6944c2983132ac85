import AssassinGame.Controller.CreateGameVC

/-! # Joining a room -/

namespace AssassinGame

open AssassinGame.Action

/-- The fields of the screen, which its user may edit at any time. -/
structure JoinGameVC where
  nameInput : String
  playerPhoto : Option UIImage
  roomNumberInput : String
  deriving DecidableEq

namespace JoinGameVC

def viewDidLoad : JoinGameVC where
  nameInput := ""
  playerPhoto := none
  roomNumberInput := ""

def imagePickerController (self : JoinGameVC) : Option UIImage → JoinGameVC
  | some image => { self with playerPhoto := some image }
  | none => self

inductive Touch
  | type (text : String)
  | number (text : String)
  | pick (image : Option UIImage)

def touch (self : JoinGameVC) : Touch → JoinGameVC
  | .type text => { self with nameInput := text }
  | .number text => { self with roomNumberInput := text }
  | .pick image => self.imagePickerController image

/-- `joinGame(_:)` up to its `getDocument`: the document that is looked up. -/
def joinGame (self : JoinGameVC) : Action ResourcePath :=
  document games self.roomNumberInput

/-- The handler of the lookup, which reads the fields anew. The result says
whether the waiting screen is shown; otherwise the alert is. -/
def joinGame.completion (self : JoinGameVC) (deviceID : Option UUID) :
    Option Document → Action Bool
  | some _ => do
      let player := Player.init self.nameInput (← unwrap self.playerPhoto)
      let roomNumber ← unwrap (int? self.roomNumberInput)
      addPlayer deviceID roomNumber player
      pure true
  | none => pure false

end JoinGameVC

end AssassinGame
