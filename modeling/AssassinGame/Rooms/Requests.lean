import AssassinGame.World

/-! # Which requests an operation can issue

`Asked` lists, for an operation, every request its call can make at once, and
`Answered` every request its completion handler can make later, whether or not
the call traps on the way. Whatever a run performs is one of these, so facts
about runs are case analyses over them and need not open the operations again.
-/

namespace AssassinGame

open AssassinGame.Action Transition Segments

def gameFields (game : Game) : Document := .fields [
  ("totalPlayers", .int game.playerCount),
  ("playerCount", .int game.playerCount),
  ("timeLeft", .string game.timeLeft)]

@[simp] theorem playerCount_gameFields (game : Game) :
    (gameFields game).int? "playerCount" = some game.playerCount := by
  rw [gameFields, Document.int?_fields_tail (by decide)]
  exact Document.int?_fields_head _ _ _

@[simp] theorem totalPlayers_gameFields (game : Game) :
    (gameFields game).int? "totalPlayers" = some game.playerCount :=
  Document.int?_fields_head _ _ _

def countFields (count : Int) : Document := .fields [("playerCount", .int count)]

@[simp] theorem playerCount_merge_countFields (count : Int) (document : Document) :
    (Document.merge (countFields count) document).int? "playerCount" = some count :=
  Document.int?_merge_single _ _ _

@[simp] theorem totalPlayers_merge_countFields (count : Int) (document : Document) :
    (Document.merge (countFields count) document).int? "totalPlayers" =
      document.int? "totalPlayers" :=
  Document.int?_merge_single_of_ne (by decide) _ _

/-- A path under the room's game document or its killshot document. -/
def OwnsDocument (room : Int) (path : ResourcePath) : Prop :=
  gameRef room <+: path ∨ TabBarVC.killshotRef room <+: path

/-- A path in one of the room's two picture folders. -/
def OwnsPicture (room : Int) (path : StoragePath) : Prop :=
  [decimal room] <+: path ∨ [decimal room ++ "ks"] <+: path

namespace Operation

def opened : Operation → Option Game
  | .addGame game => some game
  | .createRoom screen roomNumber date _ =>
      match int? screen.numOfPlayers, screen.imageToUpload with
      | some playerCount, some _ => some (Game.init roomNumber playerCount date)
      | _, _ => none
  | _ => none

def registered : Operation → Option Player
  | .addPlayer _ _ player => some player
  | .createRoom screen _ _ _ => screen.imageToUpload.map (Player.init screen.nameField)
  | _ => none

def removed : Operation → Option Player
  | .removePlayer _ player => some player
  | _ => none

/-- What an operation means to add to the counter. -/
def change : Operation → Int
  | .addPlayer _ _ _ => -1
  | .createRoom _ _ _ _ => -1
  | .removePlayer _ _ => 1
  | _ => 0

theorem addPlayer_changes (deviceID : Option UUID) (room : Int) (player : Player) :
    (addPlayer deviceID room player).change ≠ 0 := show (-1 : Int) ≠ 0 by decide

theorem removePlayer_changes (room : Int) (player : Player) :
    (removePlayer room player).change ≠ 0 := show (1 : Int) ≠ 0 by decide

def completion : Operation → Option Completion
  | .addPlayer _ roomNumber _ => some (.addPlayer (gameRef roomNumber))
  | .createRoom _ roomNumber _ _ => some (.addPlayer (gameRef roomNumber))
  | .removePlayer roomNumber _ => some (.removePlayer (gameRef roomNumber))
  | .addKillshot roomNumber killer _ _ _ => some (.addKillshot (gameRef roomNumber) killer)
  | _ => none

end Operation

/-- The requests a call can make at once. -/
inductive Asked (operation : Operation) : Request → Prop
  | opens {game : Game} : operation.opened = some game →
      Asked operation (.write (.setData (gameRef operation.room) (gameFields game)))
  | registers {player : Player} {playerRef : ResourcePath} :
      operation.registered = some player →
      document? (players operation.room) player.name = some playerRef →
      Asked operation (.write (.setData playerRef (playerFields player)))
  | phones {player : Player} (device : UUID) : operation.registered = some player →
      Asked operation (.write (.setData
        (phoneToPlayers operation.room ++ [device.uuidString])
        (.fields [("name", .string player.name)])))
  | removes {player : Player} {playerRef : ResourcePath} :
      operation.removed = some player →
      document? (players operation.room) player.name = some playerRef →
      Asked operation (.write (.delete playerRef))
  | reads {completion : Completion} : operation.completion = some completion →
      Asked operation (.getDocument (gameRef operation.room) completion)
  | publishes (data : Document) : operation.change = 0 →
      Asked operation (.write (.setData (TabBarVC.killshotRef operation.room) data))
  | uploads {path : StoragePath} (data : Data) : OwnsPicture operation.room path →
      Asked operation (.putData path data)

/-- The requests a completion handler can make. -/
inductive Answered (operation : Operation) : Request → Prop
  | counts (count : Int) : operation.change ≠ 0 →
      Answered operation (.write (.updateData (gameRef operation.room) (countFields count)))
  | files {name : String} {shotRef : ResourcePath} (data : Document) :
      operation.change = 0 →
      document? (gameRef operation.room ++ ["unconfirmedKillshots"]) name = some shotRef →
      Answered operation (.write (.setData shotRef data))

def Issued (operation : Operation) (request : Request) : Prop :=
  Asked operation request ∨ Answered operation request

/-! ## What the operations issue at once -/

theorem child_decimal (room : Int) (suffix : String) (free : '/' ∉ suffix.toList) :
    storageRef.child (decimal room ++ suffix) = [decimal room ++ suffix] := by
  simp [storageRef, StoragePath.child, ((plain_decimal room).append free).split]

theorem ownsPicture_photoRef (room : Int) (name : String) :
    OwnsPicture room (photoRef room name) := by
  left
  simp [photoRef, storageRef, StoragePath.child, (plain_decimal room).split]

theorem ownsPicture_killshotPhotoRef (room : Int) (name : String) :
    OwnsPicture room (TabBarVC.killshotPhotoRef room name) := by
  right
  rw [TabBarVC.killshotPhotoRef, child_decimal room "ks" (by decide)]
  simp [StoragePath.child]

/-- The requests of `addPlayer`, however far it gets. -/
theorem addPlayer_requests_eq (deviceID : Option UUID) (room : Int) (player : Player) :
    (addPlayer deviceID room player).requests =
      match document? (players room) player.name, deviceID, player.image.pngData with
      | none, _, _ => []
      | some playerRef, none, _ => [.write (.setData playerRef (playerFields player))]
      | some playerRef, some device, none => [
          .write (.setData playerRef (playerFields player)),
          .write (.setData (phoneToPlayers room ++ [device.uuidString])
            (.fields [("name", .string player.name)]))]
      | some playerRef, some device, some data => [
          .write (.setData playerRef (playerFields player)),
          .write (.setData (phoneToPlayers room ++ [device.uuidString])
            (.fields [("name", .string player.name)])),
          .putData (photoRef room player.name) data,
          .getDocument (gameRef room) (.addPlayer (gameRef room))] := by
  simp only [players]
  cases named : document? (gameRef room ++ ["players"]) player.name <;>
    cases deviceID <;> cases png : player.image.pngData <;>
    simp [addPlayer, gameRefOf_eq, bind_requests, Action.document, named, document?_phone, png,
      playerFields, photoRef]

theorem asked_of_addPlayer {operation : Operation} {deviceID : Option UUID}
    {player : Player} {request : Request} (registered : operation.registered = some player)
    (completes : operation.completion = some (.addPlayer (gameRef operation.room)))
    (member : request ∈ (addPlayer deviceID operation.room player).requests) :
    Asked operation request := by
  rw [addPlayer_requests_eq] at member
  split at member
  · cases member
  · rename_i named
    rw [List.mem_singleton] at member
    exact member ▸ .registers registered named
  · rename_i device named _
    simp only [List.mem_cons, List.not_mem_nil, or_false] at member
    rcases member with rfl | rfl
    · exact .registers registered named
    · exact .phones device registered
  · rename_i device data named _
    simp only [List.mem_cons, List.not_mem_nil, or_false] at member
    rcases member with rfl | rfl | rfl | rfl
    · exact .registers registered named
    · exact .phones device registered
    · exact .uploads data (ownsPicture_photoRef _ _)
    · exact .reads completes

theorem createNumberedRoom_requests (screen : CreateGameVC) (roomNumber : Int)
    (date : String) (deviceID : Option UUID) :
    (screen.createNumberedRoom roomNumber date deviceID).requests =
      match int? screen.numOfPlayers, screen.imageToUpload with
      | some playerCount, some image =>
          .write (.setData (gameRef roomNumber)
            (gameFields (Game.init roomNumber playerCount date))) ::
          (addPlayer deviceID roomNumber (Player.init screen.nameField image)).requests
      | _, _ => [] := by
  cases counted : int? screen.numOfPlayers with
  | none => simp [CreateGameVC.createNumberedRoom, bind_requests, counted]
  | some playerCount =>
      cases pictured : screen.imageToUpload with
      | none => simp [CreateGameVC.createNumberedRoom, bind_requests, counted, pictured]
      | some image =>
          simp [CreateGameVC.createNumberedRoom, bind_requests, counted, pictured,
            addGame_requests, addGame_result, gameFields, Game.init]

theorem asked_of_mem_requests {operation : Operation} {request : Request}
    (member : request ∈ operation.action.requests) : Asked operation request := by
  cases operation with
  | addGame game =>
      rw [Operation.action, addGame_requests, List.mem_singleton] at member
      subst member
      exact @Asked.opens (.addGame game) _ rfl
  | addPlayer deviceID roomNumber player =>
      exact @asked_of_addPlayer (.addPlayer deviceID roomNumber player) _ _ _ rfl rfl member
  | removePlayer roomNumber player =>
      cases named : document? (players roomNumber) player.name with
      | none =>
          have named' : document? (gameRef roomNumber ++ ["players"]) player.name = none :=
            named
          simp [Operation.action, removePlayer, gameRefOf_eq, bind_requests, Action.document,
            named'] at member
      | some playerRef =>
          rw [Operation.action, removePlayer_requests named] at member
          simp only [List.mem_cons, List.not_mem_nil, or_false] at member
          rcases member with rfl | rfl
          · exact @Asked.removes (.removePlayer roomNumber player) _ _ rfl named
          · exact @Asked.reads (.removePlayer roomNumber player) _ rfl
  | addKillshot roomNumber killer target img loc =>
      have owned (name : String) : OwnsPicture roomNumber
          (((storageRef.child (decimal roomNumber)).child "killshot").child
            (name ++ ".png")) := by
        left
        simp [storageRef, StoragePath.child, (plain_decimal roomNumber).split]
      cases target with
      | none => simp [Operation.action, addKillshot, bind_requests] at member
      | some target =>
          cases png : img.pngData with
          | none => simp [Operation.action, addKillshot, bind_requests, png] at member
          | some data =>
              simp [Operation.action, addKillshot, bind_requests, png, gameRefOf_eq]
                at member
              rcases member with rfl | rfl
              · exact .uploads data (owned _)
              · exact @Asked.reads (.addKillshot roomNumber killer (some target) img loc) _ rfl
  | uploadKillshotPic screen image =>
      cases png : image.pngData with
      | none => simp [Operation.action, TabBarVC.uploadKillshotPic, bind_requests, png] at member
      | some data =>
          rw [Operation.action, TabBarVC.uploadKillshotPic_requests png,
            List.mem_singleton] at member
          subst member
          exact .uploads data (ownsPicture_killshotPhotoRef _ _)
  | uploadKillshotName screen name =>
      rw [Operation.action, TabBarVC.uploadKillshotName_requests, List.mem_singleton] at member
      subst member
      exact Asked.publishes _ rfl
  | imagePickerController screen img =>
      cases png : img.pngData with
      | none =>
          simp [Operation.action, TabBarVC.imagePickerController, TabBarVC.uploadKillshotPic,
            bind_requests, bind_result, png] at member
      | some data =>
          rw [Operation.action, TabBarVC.imagePickerController_requests png] at member
          simp only [List.mem_cons, List.not_mem_nil, or_false] at member
          rcases member with rfl | rfl
          · exact .uploads data (ownsPicture_killshotPhotoRef _ _)
          · exact Asked.publishes _ rfl
  | createRoom screen roomNumber date deviceID =>
      rw [Operation.action, createNumberedRoom_requests] at member
      split at member
      · rename_i playerCount image counted pictured
        rcases List.mem_cons.mp member with rfl | member
        · refine @Asked.opens (.createRoom screen roomNumber date deviceID) _ ?_
          simp [Operation.opened, counted, pictured]
        · refine @asked_of_addPlayer (.createRoom screen roomNumber date deviceID) _ _ _ ?_
            rfl member
          simp [Operation.registered, pictured]
      · cases member

/-! ## What the handlers issue -/

theorem mem_changePlayerCount_requests {change : Int} {path : ResourcePath}
    {document : Option Document} {request : Request}
    (member : request ∈ (changePlayerCount change path document).requests) :
    ∃ data count, document = some data ∧ data.int? "playerCount" = some count ∧
      request = .write (.updateData path (countFields (count + change))) := by
  cases document with
  | none => simp [changePlayerCount] at member
  | some data =>
      cases counted : data.int? "playerCount" with
      | none => simp [changePlayerCount, bind_requests, counted] at member
      | some count =>
          simp [changePlayerCount, bind_requests, counted] at member
          exact ⟨data, count, rfl, counted, member⟩

theorem mem_addKillshot_completion {gameRef : ResourcePath} {killer : Player}
    {killerTarget : Option Player} {document : Option Document} {request : Request}
    (member : request ∈
      (addKillshot.completion gameRef killer killerTarget document).requests) :
    ∃ (victim : Player) (shotRef : ResourcePath) (data : Document),
      document? (gameRef ++ ["unconfirmedKillshots"]) victim.name = some shotRef ∧
        request = .write (.setData shotRef data) := by
  revert member
  cases document with
  | none => simp [addKillshot.completion]
  | some document =>
      cases totalled : document.int? "totalPlayers" with
      | none => simp [addKillshot.completion, bind_requests, totalled]
      | some total =>
          cases killerTarget with
          | none => simp [addKillshot.completion, bind_requests, totalled]
          | some victim =>
              cases named : document? (gameRef ++ ["unconfirmedKillshots"]) victim.name with
              | none =>
                  simp [addKillshot.completion, bind_requests, totalled, named,
                    Action.document]
              | some shotRef =>
                  intro member
                  simp [addKillshot.completion, bind_requests, totalled, named,
                    Action.document] at member
                  exact ⟨victim, shotRef, _, named, member⟩

theorem handle_requests {change count : Int} {path : ResourcePath} {data : Document}
    (counted : data.int? "playerCount" = some count) :
    (changePlayerCount change path (some data)).requests =
      [.write (.updateData path (countFields (count + change)))] := by
  simp [changePlayerCount, bind_requests, counted, countFields]

theorem handle_cases {operation : Operation} {completion : Completion}
    (completes : operation.completion = some completion) :
    (operation.change ≠ 0 ∧ ∀ killerTarget response,
      completion.handle killerTarget response =
        changePlayerCount operation.change (gameRef operation.room) response) ∨
    (operation.change = 0 ∧ ∃ killer, ∀ killerTarget response,
      completion.handle killerTarget response =
        addKillshot.completion (gameRef operation.room) killer killerTarget response) := by
  cases operation with
  | addGame | uploadKillshotPic | uploadKillshotName | imagePickerController =>
      simp [Operation.completion] at completes
  | addPlayer | createRoom | removePlayer =>
      simp only [Operation.completion, Option.some.injEq] at completes
      subst completes
      exact .inl ⟨by simp [Operation.change], fun _ _ => rfl⟩
  | addKillshot roomNumber killer target img loc =>
      simp only [Operation.completion, Option.some.injEq] at completes
      subst completes
      exact .inr ⟨rfl, killer, fun _ _ => rfl⟩

theorem answered_of_mem_followUps {pending other : Pending} {killerTarget : Option Player}
    {store : Firestore} (issued : Issued pending.operation pending.request)
    (member : other ∈ pending.followUps killerTarget store) :
    other.call = pending.call ∧ other.operation = pending.operation ∧
      Answered pending.operation other.request := by
  rcases pending with ⟨id, operation, request⟩
  rcases issued with asked | answered
  · change Asked operation request at asked
    cases asked with
    | reads completes =>
        simp only [Pending.followUps, List.mem_map] at member
        rcases member with ⟨request, made, rfl⟩
        refine ⟨rfl, rfl, ?_⟩
        rcases handle_cases completes with ⟨changes, handles⟩ | ⟨unchanged, killer, handles⟩
        · rw [handles] at made
          rcases mem_changePlayerCount_requests made with ⟨data, count, _, _, rfl⟩
          exact .counts _ changes
        · rw [handles] at made
          rcases mem_addKillshot_completion made with ⟨victim, shotRef, data, named, rfl⟩
          exact .files data unchanged named
    | _ => simp [Pending.followUps] at member
  · change Answered operation request at answered
    cases answered <;> simp [Pending.followUps] at member

/-! ## What a run leaves outstanding -/

/-- Every request of the run comes from a call that was made and can issue it. -/
def World.Traced (world : World) : Prop :=
  ∀ pending, pending ∈ world.outstanding ∨ pending ∈ world.performed →
    (pending.call, pending.operation) ∈ world.calls ∧
      Issued pending.operation pending.request

theorem World.Traced.issued {world : World} (traced : world.Traced) {pending : Pending}
    (member : pending ∈ world.outstanding) : Issued pending.operation pending.request :=
  (traced pending (.inl member)).2

theorem World.Traced.step {world next : World} {event : Event} (traced : world.Traced)
    (stepped : world.step event = some next) : next.Traced := by
  rcases step_cases stepped with
    ⟨id, operation, rfl, _, rfl⟩ | ⟨pending, killerTarget, rfl, ready, rfl⟩
  · have kept : ∀ other, (other ∈ world.outstanding ∨ other ∈ world.performed) →
        (other.call, other.operation) ∈ (world.issue id operation).calls ∧
          Issued other.operation other.request := fun other member =>
      ⟨List.mem_cons_of_mem _ (traced other member).1, (traced other member).2⟩
    rintro other (member | member)
    · rcases mem_outstanding_issue.mp member with old | ⟨rfl, rfl, new⟩
      · exact kept other (.inl old)
      · exact ⟨List.mem_cons_self, .inl (asked_of_mem_requests new)⟩
    · exact kept other (.inr member)
  · rintro other (member | member)
    · rcases mem_outstanding_perform member with old | new
      · exact traced other (.inl old)
      · rcases traced pending (.inl ready.1) with ⟨called, issued⟩
        rcases answered_of_mem_followUps issued new with ⟨sameCall, sameOperation, follows⟩
        rw [sameCall, sameOperation]
        exact ⟨called, .inr follows⟩
    · rcases List.mem_cons.mp member with rfl | old
      · exact traced other (.inl ready.1)
      · exact traced other (.inr old)

theorem World.traced_start (firestore : Firestore) (storage : Storage) :
    (World.start firestore storage).Traced := by
  rintro pending (member | member) <;> cases member

end AssassinGame
