import AssassinGame.Model.DatabaseController

/-! # Creating a room -/

namespace AssassinGame

open AssassinGame.Action Segments

/-- `Int(text)`: an optionally signed decimal numeral that fits 64 bits. -/
def int? (text : String) : Option Int :=
  parse (-2 ^ 63) (2 ^ 63 - 1) text

/-- What the screen holds when its button is pressed. -/
structure CreateGameVC where
  imageToUpload : Option UIImage
  numOfPlayers : String
  nameField : String
  deriving DecidableEq

namespace CreateGameVC

def initialNumOfPlayers : String := "1"

/-- The screen when it has been laid out and `viewDidLoad()` has run. The project has no
picture of the name "blank", so there is none to show. -/
def viewDidLoad : CreateGameVC where
  imageToUpload := none
  numOfPlayers := initialNumOfPlayers
  nameField := ""

/-- `imagePickerController(_:didFinishPickingMediaWithInfo:)`, given what
`info[.originalImage] as? UIImage` is. -/
def imagePickerController (self : CreateGameVC) : Option UIImage → CreateGameVC
  | some image => { self with imageToUpload := some image }
  | none => self

/-- `stepper(_:)`: the label shows the stepper's value, which runs from its
default minimum 0 to 100 in steps of one. -/
def stepper (self : CreateGameVC) (value : Fin 101) : CreateGameVC :=
  { self with numOfPlayers := decimal (value : Nat) }

inductive Touch
  | type (text : String)
  | pick (image : Option UIImage)
  | step (value : Fin 101)

def touch (self : CreateGameVC) : Touch → CreateGameVC
  | .type text => { self with nameField := text }
  | .pick image => self.imagePickerController image
  | .step value => self.stepper value

/-- `createRoom(_:)` from the drawn number on. The segue that follows passes the
number to the waiting screen. -/
def createNumberedRoom (self : CreateGameVC) (roomNumber : Int) (date : String)
    (deviceID : Option UUID) : Action Unit := do
  let playerCount := int? self.numOfPlayers
  let game := Game.init roomNumber (← unwrap playerCount) date
  let creator := Player.init self.nameField (← unwrap self.imageToUpload)
  addGame game
  addPlayer deviceID game.roomNumber creator

def createRoom (self : CreateGameVC) (shuffled : Shuffle Nat) (date : String)
    (deviceID : Option UUID) : Action Unit :=
  self.createNumberedRoom (generateRoomNumber shuffled) date deviceID

theorem createNumberedRoom_result {self : CreateGameVC} {roomNumber : Int} {date : String}
    {deviceID : Option UUID} :
    (self.createNumberedRoom roomNumber date deviceID).result = some () ↔
      ∃ playerCount, int? self.numOfPlayers = some playerCount ∧
        ∃ image, self.imageToUpload = some image ∧
          Registrable deviceID roomNumber (Player.init self.nameField image) := by
  simp [createNumberedRoom, bind_result, Option.bind_eq_some_iff, addGame_result, Game.init,
    addPlayer_result_eq_some]

end CreateGameVC

theorem int?_decimal {value : Int} (above : -2 ^ 63 ≤ value) (below : value ≤ 2 ^ 63 - 1) :
    int? (decimal value) = some value :=
  parse_decimal above below

theorem document?_of_int? {text : String} {value : Int} (number : int? text = some value) :
    document? games text = some (games ++ [text]) :=
  document?_plain (plain_of_parse number) (by decide)

end AssassinGame
