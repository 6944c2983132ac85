import AssassinGame.Firebase.Action
import AssassinGame.Model.Game

/-! # The functions that talk to the stores

Each function is written with its source's steps in their order. The handler of
a `getDocument` call is a function of its own, run when the response arrives.
-/

namespace AssassinGame

open AssassinGame.Action Segments

def games : ResourcePath := ["games"]

/-- `db.collection("games").document(String(roomNumber))`. -/
def gameRef (roomNumber : Int) : ResourcePath := games ++ [decimal roomNumber]

def gameRefOf (roomNumber : Int) : Action ResourcePath :=
  document games (decimal roomNumber)

def players (roomNumber : Int) : ResourcePath := gameRef roomNumber ++ ["players"]

def phoneToPlayers (roomNumber : Int) : ResourcePath :=
  gameRef roomNumber ++ ["phoneToPlayers"]

/-- `Storage.storage().reference()`. -/
def storageRef : StoragePath := []

def addGame (game : Game) : Action Unit := do
  let gameRef ← gameRefOf game.roomNumber
  issue <| .write <| .setData gameRef <| .fields [
    ("totalPlayers", .int game.playerCount),
    ("playerCount", .int game.playerCount),
    ("timeLeft", .string game.timeLeft)]

def addPlayer (deviceID : Option UUID) (roomNumber : Int) (player : Player) :
    Action Unit := do
  let gameRef ← gameRefOf roomNumber
  let playerRef ← document (gameRef ++ ["players"]) player.name
  issue <| .write <| .setData playerRef <| .fields [
    ("alive", .string (toString player.alive)),
    ("won_game", .string (toString player.won_game))]
  let phoneRef ← document (gameRef ++ ["phoneToPlayers"]) (← unwrap deviceID).uuidString
  issue <| .write <| .setData phoneRef <| .fields [("name", .string player.name)]
  let pngData := player.image.pngData
  let roomRef := storageRef.child (decimal roomNumber)
  let fileName := player.name ++ ".png"
  let photoRef := roomRef.child fileName
  issue <| .putData photoRef (← unwrap pngData)
  issue <| .getDocument gameRef (.addPlayer gameRef)

def removePlayer (roomNumber : Int) (player : Player) : Action Unit := do
  let gameRef ← gameRefOf roomNumber
  let playerRef ← document (gameRef ++ ["players"]) player.name
  issue <| .write <| .delete playerRef
  issue <| .getDocument gameRef (.removePlayer gameRef)

/-- What the handlers of `addPlayer` and `removePlayer` share: the count is read
from the response and written back changed. A missing document is only
printed. -/
def changePlayerCount (change : Int) (gameRef : ResourcePath) :
    Option Document → Action Unit
  | some document => do
      let playerCount ← unwrap (document.int? "playerCount")
      issue <| .write <| .updateData gameRef <|
        .fields [("playerCount", .int (playerCount + change))]
  | none => pure ()

def addPlayer.completion (gameRef : ResourcePath) : Option Document → Action Unit :=
  changePlayerCount (-1) gameRef

def removePlayer.completion (gameRef : ResourcePath) : Option Document → Action Unit :=
  changePlayerCount 1 gameRef

/-- `getPlayerName(_:)` up to its `getDocument`: the variable `name`, and the document that
is looked up. The call goes on to return the variable. -/
def getPlayerName (deviceID : Option UUID) (roomNumber : Int) :
    Action (String × ResourcePath) := do
  let name := ""
  let gameRef ← gameRefOf roomNumber
  let playerToId ← document (gameRef ++ ["phoneToPlayers"]) (← unwrap deviceID).uuidString
  return (name, playerToId)

def getPlayerName.completion (name : String) : Option Document → Action String
  | some document => unwrap (document.string? "name")
  | none => pure name

structure CLLocation where
  latitude : Rat
  longitude : Rat
  deriving DecidableEq

/-- `killer.target` is passed as the object it refers to at the time. -/
def addKillshot (roomNumber : Int) (killer : Player) (target : Option Player)
    (img : UIImage) (_loc : CLLocation) : Action Unit := do
  let pngData := img.pngData
  let roomRef := storageRef.child (decimal roomNumber)
  let killshotRef := roomRef.child "killshot"
  let fileName := (← unwrap target).name ++ ".png"
  let photoRef := killshotRef.child fileName
  issue <| .putData photoRef (← unwrap pngData)
  let gameRef ← gameRefOf roomNumber
  issue <| .getDocument gameRef (.addKillshot gameRef killer)

/-- The handler dereferences `killer.target` once more. -/
def addKillshot.completion (gameRef : ResourcePath) (killer : Player)
    (target : Option Player) : Option Document → Action Unit
  | some document => do
      let totalPlayers ← unwrap (document.int? "totalPlayers")
      let confirmationsNeeded := min totalPlayers 3
      let shotRef ← Action.document (gameRef ++ ["unconfirmedKillshots"])
        (← unwrap target).name
      issue <| .write <| .setData shotRef <| .fields [
        ("confirmationsNeeded", .int confirmationsNeeded),
        ("assassin", .string killer.name),
        ("accepts", .int 0),
        ("rejects", .int 0),
        ("latLocation", .double 0),
        ("lonLocation", .double 0)]
  | none => pure ()

/-- Run a handler on a response. `killerTarget` is what `killer.target` refers
to by then. -/
def Completion.handle (killerTarget : Option Player) :
    Completion → Option Document → Action Unit
  | .addPlayer gameRef => addPlayer.completion gameRef
  | .removePlayer gameRef => removePlayer.completion gameRef
  | .addKillshot gameRef killer => addKillshot.completion gameRef killer killerTarget

/-! ## What the functions issue -/

theorem gameRefOf_eq (roomNumber : Int) :
    gameRefOf roomNumber = unwrap (some (gameRef roomNumber)) := by
  rw [gameRefOf, Action.document,
    document?_plain (Segments.plain_decimal roomNumber) (by decide)]
  rfl

theorem document?_phone (roomNumber : Int) (device : UUID) :
    document? (gameRef roomNumber ++ ["phoneToPlayers"]) device.uuidString =
      some (phoneToPlayers roomNumber ++ [device.uuidString]) :=
  document?_plain device.plain (by simp [gameRef, games])

@[simp] theorem length_players (roomNumber : Int) : (players roomNumber).length = 3 := rfl

theorem gameRef_injective {left right : Int} (equal : gameRef left = gameRef right) :
    left = right :=
  decimal_injective (by simpa [gameRef, games] using equal)

theorem addGame_requests (game : Game) :
    (addGame game).requests = [.write (.setData (gameRef game.roomNumber) (.fields [
      ("totalPlayers", .int game.playerCount),
      ("playerCount", .int game.playerCount),
      ("timeLeft", .string game.timeLeft)]))] := by
  simp [addGame, gameRefOf_eq, bind_requests]

theorem addGame_result (game : Game) : (addGame game).result = some () := by
  simp [addGame, gameRefOf_eq, bind_result]

def playerFields (player : Player) : Document := .fields [
  ("alive", .string (toString player.alive)),
  ("won_game", .string (toString player.won_game))]

def photoRef (roomNumber : Int) (name : String) : StoragePath :=
  (storageRef.child (decimal roomNumber)).child (name ++ ".png")

/-- What `addPlayer` needs to run to its end: a name that names a document, an
identifier of the phone and a photo with a PNG form. -/
def Registrable (deviceID : Option UUID) (roomNumber : Int) (player : Player) : Prop :=
  (document? (players roomNumber) player.name).isSome ∧ deviceID.isSome ∧
    player.image.pngData.isSome

instance (deviceID : Option UUID) (roomNumber : Int) (player : Player) :
    Decidable (Registrable deviceID roomNumber player) :=
  inferInstanceAs (Decidable (_ ∧ _ ∧ _))

theorem registrable_iff {deviceID : Option UUID} {roomNumber : Int} {player : Player} :
    Registrable deviceID roomNumber player ↔
      (∃ playerRef, document? (players roomNumber) player.name = some playerRef) ∧
        (∃ device, deviceID = some device) ∧ ∃ data, player.image.pngData = some data := by
  simp only [Registrable, Option.isSome_iff_exists]

theorem addPlayer_result_eq_some {deviceID : Option UUID} {roomNumber : Int}
    {player : Player} :
    (addPlayer deviceID roomNumber player).result = some () ↔
      Registrable deviceID roomNumber player := by
  simp only [registrable_iff, addPlayer, gameRefOf_eq, bind_result, unwrap_result,
    Option.bind_some, Action.document, Option.bind_eq_some_iff, issue_result]
  constructor
  · rintro ⟨playerRef, named, device, found, _, _, data, png, _⟩
    exact ⟨⟨playerRef, named⟩, ⟨device, found⟩, data, png⟩
  · rintro ⟨⟨playerRef, named⟩, ⟨device, found⟩, data, png⟩
    exact ⟨playerRef, named, device, found, _, document?_phone roomNumber device, data, png,
      trivial⟩

theorem addPlayer_requests {device : UUID} {roomNumber : Int} {player : Player}
    {playerRef : ResourcePath} {data : Data}
    (named : document? (players roomNumber) player.name = some playerRef)
    (png : player.image.pngData = some data) :
    (addPlayer (some device) roomNumber player).requests = [
      .write (.setData playerRef (playerFields player)),
      .write (.setData (phoneToPlayers roomNumber ++ [device.uuidString])
        (.fields [("name", .string player.name)])),
      .putData (photoRef roomNumber player.name) data,
      .getDocument (gameRef roomNumber) (.addPlayer (gameRef roomNumber))] := by
  have named' : document? (gameRef roomNumber ++ ["players"]) player.name =
      some playerRef := named
  simp [addPlayer, gameRefOf_eq, bind_requests, Action.document, document?_phone, named', png,
    playerFields, photoRef]

theorem removePlayer_requests {roomNumber : Int} {player : Player}
    {playerRef : ResourcePath}
    (named : document? (players roomNumber) player.name = some playerRef) :
    (removePlayer roomNumber player).requests = [
      .write (.delete playerRef),
      .getDocument (gameRef roomNumber) (.removePlayer (gameRef roomNumber))] := by
  have named' : document? (gameRef roomNumber ++ ["players"]) player.name =
      some playerRef := named
  simp [removePlayer, gameRefOf_eq, bind_requests, Action.document, named']

theorem removePlayer_requests_of_unnamed {roomNumber : Int} {player : Player}
    (unnamed : document? (players roomNumber) player.name = none) :
    (removePlayer roomNumber player).requests = [] := by
  have unnamed' : document? (gameRef roomNumber ++ ["players"]) player.name = none := unnamed
  simp [removePlayer, gameRefOf_eq, bind_requests, Action.document, unnamed']

theorem getPlayerName_result (device : UUID) (roomNumber : Int) :
    (getPlayerName (some device) roomNumber).result =
      some ("", phoneToPlayers roomNumber ++ [device.uuidString]) := by
  simp [getPlayerName, gameRefOf_eq, bind_result, Action.document, document?_phone]

/-! ## What a killshot issues -/

def killshotFileRef (roomNumber : Int) (name : String) : StoragePath :=
  ((storageRef.child (decimal roomNumber)).child "killshot").child (name ++ ".png")

def unconfirmedKillshots (roomNumber : Int) : ResourcePath :=
  gameRef roomNumber ++ ["unconfirmedKillshots"]

def killshotFields (assassin : String) (totalPlayers : Int) : Document := .fields [
  ("confirmationsNeeded", .int (min totalPlayers 3)),
  ("assassin", .string assassin),
  ("accepts", .int 0),
  ("rejects", .int 0),
  ("latLocation", .double 0),
  ("lonLocation", .double 0)]

theorem addKillshot_requests {roomNumber : Int} {killer victim : Player} {img : UIImage}
    {data : Data} (png : img.pngData = some data) (loc : CLLocation) :
    (addKillshot roomNumber killer (some victim) img loc).requests = [
      .putData (killshotFileRef roomNumber victim.name) data,
      .getDocument (gameRef roomNumber) (.addKillshot (gameRef roomNumber) killer)] := by
  simp [addKillshot, gameRefOf_eq, bind_requests, png, killshotFileRef]

/-- The handler files the killshot unless the game, its total or a document for the
victim's name is missing. -/
theorem mem_addKillshot_completion_iff {roomNumber : Int} {killer victim : Player}
    {document : Option Document} {request : Request} :
    request ∈ (addKillshot.completion (gameRef roomNumber) killer (some victim)
        document).requests ↔
      ∃ totalPlayers, document.bind (·.int? "totalPlayers") = some totalPlayers ∧
        ∃ shotRef, document? (unconfirmedKillshots roomNumber) victim.name = some shotRef ∧
          request = .write (.setData shotRef (killshotFields killer.name totalPlayers)) := by
  cases document with
  | none => simp [addKillshot.completion]
  | some document =>
      cases totalled : document.int? "totalPlayers" <;>
        cases named : document? (gameRef roomNumber ++ ["unconfirmedKillshots"]) victim.name <;>
        simp [addKillshot.completion, bind_requests, Action.document, totalled, named,
          unconfirmedKillshots, killshotFields]

end AssassinGame
