import AssassinGame.Rooms.Attempts
import AssassinGame.Rooms.Phones
import AssassinGame.Rooms.Serial

/-! # A room as an object

What the documents of a room say about it, and what each call means to do to it. Calls made
one after the other do to the room just what they mean to do, whatever the order their
requests are performed in.
-/

namespace AssassinGame

open AssassinGame.Action Transition World

/-- What the documents of a room say about it. Killshots, pictures and the clock are left out, as
is whether players are alive and who has won, which the code never changes. -/
@[ext] structure Room where
  /-- The number of players it was opened for. -/
  totalPlayers : Option Int
  /-- The number of players it still waits for. -/
  playerCount : Option Int
  /-- The identifiers of its players. -/
  roster : Set String
  /-- The name that each phone has registered last. -/
  phones : UUID → Option String

namespace Room

def of (room : Int) (store : Firestore) : Room where
  totalPlayers := (store.lookup (gameRef room)).bind (·.int? "totalPlayers")
  playerCount := counter? room store
  roster := {id | players room ++ [id] ∈ store}
  phones device :=
    (store.lookup (phoneToPlayers room ++ [device.uuidString])).bind (·.string? "name")

/-- The room is opened. Who is in it already stays. -/
def opened (total : Int) (self : Room) : Room :=
  { self with totalPlayers := some total, playerCount := some total }

/-- A player enters, as far as the call gets. -/
def entered (room : Int) (deviceID : Option UUID) (player : Player) (self : Room) : Room where
  totalPlayers := self.totalPlayers
  playerCount :=
    if Registrable deviceID room player then self.playerCount.map (· - 1) else self.playerCount
  roster := {id | playerID? room player = some id ∨ id ∈ self.roster}
  phones :=
    match document? (players room) player.name, deviceID with
    | some _, some device => Function.update self.phones device (some player.name)
    | _, _ => self.phones

/-- A player leaves. The entry of the player's phone stays. -/
def left (room : Int) (player : Player) (self : Room) : Room where
  totalPlayers := self.totalPlayers
  playerCount :=
    if (document? (players room) player.name).isSome then self.playerCount.map (· + 1)
    else self.playerCount
  roster := {id | playerID? room player ≠ some id ∧ id ∈ self.roster}
  phones := self.phones

/-- What a call means to do to the room. The four calls about killshots mean nothing to it. -/
def after (room : Int) (operation : Operation) (self : Room) : Room :=
  if operation.room = room then
    match operation with
    | .addGame game => self.opened game.playerCount
    | .addPlayer deviceID _ player => self.entered room deviceID player
    | .removePlayer _ player => self.left room player
    | .createRoom screen _ _ deviceID =>
        match int? screen.numOfPlayers, screen.imageToUpload with
        | some playerCount, some image =>
            (self.opened playerCount).entered room deviceID
              (Player.init screen.nameField image)
        | _, _ => self
    | .addKillshot _ _ _ _ _ | .uploadKillshotPic _ _ | .uploadKillshotName _ _
    | .imagePickerController _ _ => self
  else self

/-! ## What the object depends on -/

theorem of_congr {room : Int} {left right : Firestore}
    (game : left.lookup (gameRef room) = right.lookup (gameRef room))
    (roster : ∀ id, left.lookup (players room ++ [id]) = right.lookup (players room ++ [id]))
    (phones : ∀ id, left.lookup (phoneToPlayers room ++ [id]) =
      right.lookup (phoneToPlayers room ++ [id])) :
    of room left = of room right := by
  ext1
  · exact congrArg (Option.bind · _) game
  · exact counter?_eq_of_lookup game
  · ext id
    change players room ++ [id] ∈ left ↔ players room ++ [id] ∈ right
    rw [← AList.lookup_isSome, roster, AList.lookup_isSome]
  · funext device
    exact congrArg (Option.bind · _) (phones device.uuidString)

theorem of_applyTo_of_other {pending : Pending} {room : Int}
    (issued : Issued pending.operation pending.request)
    (other : pending.operation.room ≠ room) (store : Firestore) :
    of room (pending.applyTo store) = of room store := by
  have below (collection id : String) :
      OwnsDocument room (gameRef room ++ [collection] ++ [id]) := by
    left
    rw [List.append_assoc]
    exact List.prefix_append _ _
  have kept {path : ResourcePath} (owned : OwnsDocument room path) :
      (pending.applyTo store).lookup path = store.lookup path :=
    lookup_applyTo_of_other issued other owned store
  exact of_congr (kept (.inl (List.prefix_refl _))) (fun id => kept (below "players" id))
    fun id => kept (below "phoneToPlayers" id)

theorem of_applyTo_of_killshot {pending : Pending} {room : Int}
    (issued : Issued pending.operation pending.request)
    (keeps : pending.operation.change = 0) (opens : pending.operation.opened = none)
    (store : Firestore) : of room (pending.applyTo store) = of room store := by
  rcases pending with ⟨id, operation, request⟩
  change Issued operation request at issued
  change operation.change = 0 at keeps
  change operation.opened = none at opens
  have registers : operation.registered = none := by
    cases operation with
    | addPlayer | createRoom | removePlayer => cases keeps
    | addGame | addKillshot | uploadKillshotPic | uploadKillshotName
    | imagePickerController => rfl
  have removes : operation.removed = none := by
    cases operation with
    | addPlayer | createRoom | removePlayer => cases keeps
    | addGame | addKillshot | uploadKillshotPic | uploadKillshotName
    | imagePickerController => rfl
  -- what can be written are the documents of killshots
  have apart {path : ResourcePath} (game : gameRef room ≠ path)
      (player : ∀ id, players room ++ [id] ≠ path)
      (phone : ∀ id, phoneToPlayers room ++ [id] ≠ path) (data : Document) :
      of room ((Write.setData path data).apply store) = of room store :=
    of_congr (Write.lookup_apply_of_ne game store)
      (fun id => Write.lookup_apply_of_ne (player id) store)
      fun id => Write.lookup_apply_of_ne (phone id) store
  rcases issued with asked | answered
  · cases asked with
    | opens opened => rw [opens] at opened; cases opened
    | registers registered => rw [registers] at registered; cases registered
    | phones _ registered => rw [registers] at registered; cases registered
    | removes removed => rw [removes] at removed; cases removed
    | publishes data =>
        exact apart (gameRef_ne_killshotRef _ _) (fun id => (killshotRef_ne_player _ _ id).symm)
          (fun id => below_ne_game room "phoneToPlayers" _ [id]) data
    | reads | uploads => rfl
  · cases answered with
    | counts _ changes => exact absurd keeps changes
    | files data _ named =>
        refine apart (gameRef_ne_child named) (fun id same => ?_) (fun id same => ?_) data
        · have both := subcollection_unique (same.trans (document?_eq_some named))
          exact absurd both.2 (by decide)
        · have both := subcollection_unique (same.trans (document?_eq_some named))
          exact absurd both.2 (by decide)

/-! ## What a call comes to -/

def openedBy (operation : Operation) (self : Room) : Room :=
  match operation.opened with
  | some game => self.opened game.playerCount
  | none => self

section Registration

variable {world : World} {operation : Operation} {deviceID : Option UUID} {player : Player}

theorem lookup_outcome_documents (idle : world.outstanding = [])
    (registers : operation.registration = some (deviceID, player)) (call : CallId)
    {path : ResourcePath} (other : path ≠ gameRef operation.room) :
    (world.issue call operation).outcome.lookup path =
      (applyAll (setAll (documentsOf operation.room deviceID player))
        world.firestore).lookup path := by
  rw [← outcomeUnder_all, lookup_outcome_settled idle registers other, Operation.settled,
    List.filter_true, Operation.documents, setAll, List.map_append, applyAll_append]
  apply lookup_applyAll_congr
  apply lookup_applyAll_of_ne
  intro write member same
  rcases List.mem_map.mp member with ⟨entry, opening, rfl⟩
  rcases List.mem_map.mp opening with ⟨game, _, rfl⟩
  exact other same.symm

theorem entered_of_documents (idle : world.outstanding = [])
    (registers : operation.registration = some (deviceID, player)) (call : CallId)
    (self : Room) (roster : self.roster = (of operation.room world.firestore).roster)
    (phones : self.phones = (of operation.room world.firestore).phones) :
    (of operation.room (world.issue call operation).outcome).roster =
        (self.entered operation.room deviceID player).roster ∧
      (of operation.room (world.issue call operation).outcome).phones =
        (self.entered operation.room deviceID player).phones := by
  have left {path : ResourcePath} (other : path ≠ gameRef operation.room) :=
    @lookup_outcome_documents world operation deviceID player idle registers call path other
  cases named : document? (players operation.room) player.name with
  | none =>
      have nothing : documentsOf operation.room deviceID player = [] := by
        simp [documentsOf, named]
      rw [nothing] at left
      constructor
      · ext id
        change players operation.room ++ [id] ∈ (world.issue call operation).outcome ↔
          playerID? operation.room player = some id ∨ id ∈ self.roster
        rw [← AList.lookup_isSome, left (gameRef_ne_player _ _ id).symm, roster]
        simp [playerID?, named, of, setAll, AList.lookup_isSome]
      · funext device
        simp only [entered, named, phones]
        exact congrArg (Option.bind · _) (left (gameRef_ne_phone _ _ _).symm)
  | some playerRef =>
      have registered : Registered operation.room deviceID player playerRef world.firestore
          (world.issue call operation).outcome := by
        intro path other
        rw [left other, documentsOf, named]
      constructor
      · ext id
        change players operation.room ++ [id] ∈ (world.issue call operation).outcome ↔
          playerID? operation.room player = some id ∨ id ∈ self.roster
        rw [roster]
        exact mem_players_of_registered named registered id
      · funext device
        have found := lookup_phone_of_registered named registered device.uuidString
        have own : (of operation.room (world.issue call operation).outcome).phones device =
            ((world.issue call operation).outcome.lookup
              (phoneToPlayers operation.room ++ [device.uuidString])).bind
                (·.string? "name") := rfl
        rw [own, found]
        cases deviceID with
        | none =>
            simp only [entered, named, phones]
            rfl
        | some entering =>
            simp only [Option.map_some, Option.some.injEq, entered, named]
            by_cases same : entering = device
            · subst same
              have name : (phoneFields player).string? "name" = some player.name :=
                Document.string?_fields_head ..
              rw [if_pos rfl, Function.update_self, Option.bind_some, name]
            · have differ : entering.uuidString ≠ device.uuidString := fun equal =>
                same (UUID.uuidString_injective equal)
              rw [if_neg differ, Function.update_of_ne (Ne.symm same), phones]
              rfl

theorem of_outcome_registration (idle : world.outstanding = [])
    (registers : operation.registration = some (deviceID, player)) (call : CallId) :
    of operation.room (world.issue call operation).outcome =
      (openedBy operation (of operation.room world.firestore)).entered operation.room deviceID
        player := by
  have rest := @entered_of_documents world operation deviceID player idle registers call
    (openedBy operation (of operation.room world.firestore))
    (by unfold openedBy; split <;> rfl) (by unfold openedBy; split <;> rfl)
  have granted : operation.granted (fun _ => true) = operation.opened := by
    cases opens : operation.opened <;> simp [Operation.granted, opens]
  have game := @lookup_outcome_game (fun _ => true) operation deviceID player world call idle
    registers
  have count := @counter?_outcome (fun _ => true) operation deviceID player world call idle
    registers
  rw [lookup_game_settled, granted] at game
  rw [Operation.countRead, granted] at count
  rw [outcomeUnder_all] at game count
  ext1
  · simp only [of, game, entered, openedBy]
    cases operation.opened <;>
      cases operation.lowered (fun _ => true) deviceID player world.firestore <;>
      simp [opened, Option.bind_map]
  · change counter? operation.room _ = _
    rw [count, Operation.lowered, Operation.countRead, granted]
    simp only [entered, openedBy]
    cases operation.opened with
    | none =>
        by_cases registrable : Registrable deviceID operation.room player <;>
          cases counted : counter? operation.room world.firestore <;>
          simp [registrable, of, counted, Option.filter_some]
    | some game =>
        by_cases registrable : Registrable deviceID operation.room player <;>
          simp [registrable, opened, Option.filter_some]
  · exact rest.1
  · exact rest.2

end Registration

section Removal

variable {world : World} {room : Int} {player : Player} {playerRef : ResourcePath}

theorem changePlayerCount_of_uncounted {change : Int} {path : ResourcePath}
    {document : Option Document} (uncounted : document.bind (·.int? "playerCount") = none) :
    (changePlayerCount change path document).requests = [] := by
  cases document with
  | none => rfl
  | some data =>
      rw [Option.bind_some] at uncounted
      simp [changePlayerCount, bind_requests, uncounted]

theorem lookup_game_of_delete (named : document? (players room) player.name = some playerRef)
    (store : Firestore) :
    ((Write.delete playerRef).apply store).lookup (gameRef room) =
      store.lookup (gameRef room) :=
  AList.lookup_erase_ne (gameRef_ne_child named)

theorem outcome_removePlayer (idle : world.outstanding = [])
    (named : document? (players room) player.name = some playerRef) (call : CallId) :
    (world.issue call (.removePlayer room player)).outcome =
      match counter? room world.firestore with
      | some count => (Write.updateData (gameRef room) (countFields (count + 1))).apply
          ((Write.delete playerRef).apply world.firestore)
      | none => (Write.delete playerRef).apply world.firestore := by
  have requests : (Operation.removePlayer room player).action.requests =
      [.write (.delete playerRef)] ++
        [.getDocument (gameRef room) (.removePlayer (gameRef room))] :=
    removePlayer_requests named
  have same : counter? room ((Write.delete playerRef).apply world.firestore) =
      counter? room world.firestore :=
    counter?_eq_of_lookup (lookup_game_of_delete named _)
  rw [outcome_issue idle, requests]
  cases counted : counter? room world.firestore with
  | some count =>
      exact finish_of_read room call (.removePlayer room player) [.write (.delete playerRef)]
        (by simp [Request.isRead]) (.reads rfl) (Operation.removePlayer_changes room player)
        (same.trans counted)
  | none =>
      have silent := @changePlayerCount_of_uncounted 1 (gameRef room) _ (same.trans counted)
      simp [finish, writesOf, answers, Request.write?, Pending.followUps, Completion.handle,
        removePlayer.completion, silent]

theorem of_outcome_removePlayer (idle : world.outstanding = []) (call : CallId) :
    of room (world.issue call (.removePlayer room player)).outcome =
      (of room world.firestore).left room player := by
  cases named : document? (players room) player.name with
  | none =>
      have nothing : (Operation.removePlayer room player).action.requests = [] :=
        removePlayer_requests_of_unnamed named
      have noID : playerID? room player = none := by simp [playerID?, named]
      rw [outcome_issue idle, nothing]
      change of room world.firestore = _
      simp [left, named, noID]
  | some playerRef =>
      have game := lookup_game_of_delete named world.firestore
      have raised := @outcome_removePlayer world room player playerRef idle named call
      ext1
      · simp only [of, left, raised]
        cases counter? room world.firestore with
        | none => simp only [game]
        | some count =>
            rw [Write.lookup_updateData, game]
            simp [Option.bind_map]
      · change counter? room _ = _
        rw [raised]
        simp only [left, named, Option.isSome_some, if_true]
        cases counted : counter? room world.firestore with
        | none => simp [of, counted, counter?_eq_of_lookup game]
        | some count =>
            rw [counter?_update ((counter?_eq_of_lookup game).trans counted)]
            simp [of, counted]
      · ext id
        exact mem_outcome_removePlayer idle call id
      · funext device
        have phone : phoneToPlayers room ++ [device.uuidString] ≠ playerRef := by
          intro same
          have both := subcollection_unique (same.trans (document?_eq_some named))
          exact absurd both.2 (by decide)
        have kept := lookup_outcome_of_ne idle (Operation.removePlayer_changes room player)
          (gameRef_ne_phone room room device.uuidString).symm call
        rw [Operation.action, removePlayer_requests named] at kept
        have stays : ((Write.delete playerRef).apply world.firestore).lookup
            (phoneToPlayers room ++ [device.uuidString]) = _ := AList.lookup_erase_ne phone
        exact congrArg (Option.bind · (·.string? "name")) (kept.trans stays)

end Removal

/-! ## One call -/

/-- However the requests under way are performed, the room comes to `target`. -/
def Heading (room : Int) (target : Room) (world : World) : Prop :=
  ∀ events final, (∀ event ∈ events, event.performs = true) →
    run World.step world events = some final → final.outstanding = [] →
    of room final.firestore = target

theorem Heading.arrived {room : Int} {target : Room} {world : World}
    (heading : Heading room target world) (idle : world.outstanding = []) :
    of room world.firestore = target :=
  heading [] world (by simp) rfl idle

theorem Heading.perform {room : Int} {target : Room} {world : World} {pending : Pending}
    {killerTarget : Option Player} (heading : Heading room target world)
    (ready : world.Ready pending) :
    Heading room target (world.perform pending killerTarget) := by
  intro events final continues performed done
  refine heading (.perform pending killerTarget :: events) final ?_ ?_ done
  · intro event member
    rcases List.mem_cons.mp member with rfl | member
    · rfl
    · exact continues event member
  · exact run_cons_eq_some.mpr ⟨_, step_perform.mpr ⟨ready, rfl⟩, performed⟩

theorem Heading.of_idle {room : Int} {world : World} (idle : world.outstanding = []) :
    Heading room (of room world.firestore) world := by
  intro events final continues performed done
  cases events with
  | nil =>
      cases performed
      rfl
  | cons event events =>
      rcases run_cons_eq_some.mp performed with ⟨next, stepped, _⟩
      rcases step_cases stepped with
        ⟨id, operation, rfl, _, rfl⟩ | ⟨pending, killerTarget, rfl, ready, rfl⟩
      · cases continues _ List.mem_cons_self
      · rw [World.Ready, idle] at ready
        cases ready.1

section Call

variable {world : World} {room : Int} {operation : Operation}

def Only (operation : Operation) (world : World) : Prop :=
  world.Traced ∧ ∀ pending ∈ world.outstanding, pending.operation = operation

theorem Only.perform {pending : Pending} {killerTarget : Option Player}
    (only : Only operation world) (ready : world.Ready pending) :
    Only operation (world.perform pending killerTarget) := by
  have stepped : world.step (.perform pending killerTarget) =
      some (world.perform pending killerTarget) := step_perform.mpr ⟨ready, rfl⟩
  refine ⟨only.1.step stepped, fun other member => ?_⟩
  rcases mem_outstanding_perform member with old | new
  · exact only.2 other old
  · rw [(answered_of_mem_followUps (only.1.issued ready.1) new).2.1]
    exact only.2 pending ready.1

theorem only_issue (idle : world.outstanding = []) {id : CallId}
    (traced : (world.issue id operation).Traced) :
    Only operation (world.issue id operation) := by
  refine ⟨traced, fun pending member => ?_⟩
  rcases mem_outstanding_issue.mp member with old | ⟨_, own, _⟩
  · rw [idle] at old
    cases old
  · exact own

theorem heading_of_kept (only : Only operation world)
    (kept : ∀ pending : Pending, pending.operation = operation →
      Issued pending.operation pending.request →
      ∀ store, of room (pending.applyTo store) = of room store) :
    Heading room (of room world.firestore) world := by
  intro events final continues performed _
  have meets : Meets World.step (fun _ event => event.performs = true) world events :=
    meets_of_forall continues world
  have both : Only operation final ∧ of room final.firestore = of room world.firestore := by
    refine run_invariant
      (fun state => Only operation state ∧ of room state.firestore = of room world.firestore)
      ?_ ⟨only, rfl⟩ meets performed
    intro state event next holds continuing stepped
    rcases step_cases stepped with
      ⟨id, other, rfl, _, rfl⟩ | ⟨pending, killerTarget, rfl, ready, rfl⟩
    · cases continuing
    · refine ⟨holds.1.perform ready, ?_⟩
      exact (kept pending (holds.1.2 pending ready.1) (holds.1.1.issued ready.1) _).trans holds.2
  exact both.2

theorem of_opening (game : Game) (store : Firestore) :
    of game.roomNumber ((Write.setData (gameRef game.roomNumber) (gameFields game)).apply store) =
      (of game.roomNumber store).opened game.playerCount := by
  have kept {path : ResourcePath} (other : path ≠ gameRef game.roomNumber) :
      ((Write.setData (gameRef game.roomNumber) (gameFields game)).apply store).lookup path =
        store.lookup path := AList.lookup_insert_ne other
  ext1
  · simp [of, opened, Write.lookup_setData]
  · simp [of, opened, counter?, Write.lookup_setData]
  · ext id
    change players game.roomNumber ++ [id] ∈ (Write.setData (gameRef game.roomNumber)
      (gameFields game)).apply store ↔ players game.roomNumber ++ [id] ∈ store
    rw [← AList.lookup_isSome, kept (gameRef_ne_player _ _ id).symm, AList.lookup_isSome]
  · funext device
    exact congrArg (Option.bind · _) (kept (gameRef_ne_phone _ _ device.uuidString).symm)

theorem heading_addGame {game : Game} (idle : world.outstanding = []) (id : CallId) :
    Heading game.roomNumber ((of game.roomNumber world.firestore).opened game.playerCount)
      (world.issue id (.addGame game)) := by
  intro events final continues performed done
  have queue : (world.issue id (.addGame game)).outstanding =
      [opening id (.addGame game) game] := by
    simp [World.issue, idle, Operation.action, addGame_requests, gameFields, AssassinGame.opening,
      Operation.room]
  cases events with
  | nil =>
      cases performed
      rw [queue] at done
      cases done
  | cons event events =>
      rcases run_cons_eq_some.mp performed with ⟨next, stepped, rest⟩
      rcases step_cases stepped with
        ⟨other, operation, rfl, _, rfl⟩ | ⟨pending, killerTarget, rfl, ready, rfl⟩
      · cases continues _ List.mem_cons_self
      · have first := ready.1
        rw [queue, List.mem_singleton] at first
        subst first
        have empty : ((world.issue id (.addGame game)).perform
            (opening id (.addGame game) game) killerTarget).outstanding = [] := by
          simp [World.perform, queue, Pending.followUps, AssassinGame.opening]
        have arrived : Heading game.roomNumber _ _ := .of_idle empty
        exact (arrived events final (fun event member => continues event
          (List.mem_cons_of_mem _ member)) rest done).trans (of_opening game world.firestore)

theorem heading_of_changes (solo : world.Solo) :
    Heading room (of room world.outcome) world := by
  intro events final continues performed done
  have meets : Meets World.step (fun _ event => event.performs = true) world events :=
    meets_of_forall continues world
  have both : final.Solo ∧ final.outcome = world.outcome := by
    refine run_invariant (fun state => state.Solo ∧ state.outcome = world.outcome)
      ?_ ⟨solo, rfl⟩ meets performed
    intro state event next holds continuing stepped
    rcases step_cases stepped with
      ⟨id, other, rfl, _, rfl⟩ | ⟨pending, killerTarget, rfl, ready, rfl⟩
    · cases continuing
    · exact ⟨holds.1.perform ready (holds.1.orderly.step stepped),
        (holds.1.outcome_perform ready killerTarget).trans holds.2⟩
  rw [← both.2, outcome_of_idle done]

theorem heading_registration {deviceID : Option UUID} {player : Player} {id : CallId}
    (idle : world.outstanding = []) (orderly : (world.issue id operation).Orderly)
    (changes : operation.change ≠ 0)
    (registers : operation.registration = some (deviceID, player)) :
    Heading operation.room
      ((openedBy operation (of operation.room world.firestore)).entered operation.room deviceID
        player) (world.issue id operation) := by
  have heading := @heading_of_changes (world.issue id operation) operation.room
    (.issue idle changes orderly)
  rwa [of_outcome_registration idle registers] at heading

theorem heading_createRoom {screen : CreateGameVC} {date : String} {deviceID : Option UUID}
    {id : CallId} (idle : world.outstanding = [])
    (orderly : (world.issue id (.createRoom screen room date deviceID)).Orderly) :
    Heading room
      (match int? screen.numOfPlayers, screen.imageToUpload with
        | some playerCount, some image =>
            ((of room world.firestore).opened playerCount).entered room deviceID
              (Player.init screen.nameField image)
        | _, _ => of room world.firestore)
      (world.issue id (.createRoom screen room date deviceID)) := by
  have changes : (Operation.createRoom screen room date deviceID).change ≠ 0 :=
    show (-1 : Int) ≠ 0 by decide
  have unmade (nothing : (Operation.createRoom screen room date deviceID).registration = none) :
      Heading room (of room world.firestore)
        (world.issue id (.createRoom screen room date deviceID)) :=
    .of_idle (outstanding_issue_of_nothing idle id (requests_of_no_registration rfl nothing))
  cases counted : int? screen.numOfPlayers with
  | none => exact unmade (by simp [Operation.registration, counted])
  | some playerCount =>
      cases pictured : screen.imageToUpload with
      | none => exact unmade (by simp [Operation.registration, counted, pictured])
      | some image =>
          have heading := @heading_registration world (.createRoom screen room date deviceID)
            deviceID (Player.init screen.nameField image) id idle orderly changes
            (by simp [Operation.registration, counted, pictured])
          simpa [openedBy, Operation.opened, counted, pictured, Game.init, Operation.room]
            using heading

/-- A call made when nothing is under way does to each room what it means to. -/
theorem heading_issue {next : World} {id : CallId} (orderly : world.Orderly)
    (idle : world.outstanding = []) (stepped : world.step (.call id operation) = some next)
    (room : Int) : Heading room ((of room world.firestore).after room operation) next := by
  have traced := orderly.traced.step stepped
  have ordered := orderly.step stepped
  rcases step_call.mp stepped with ⟨_, rfl⟩
  have only := only_issue idle traced
  unfold after
  by_cases own : operation.room = room
  · subst own
    rw [if_pos rfl]
    cases operation with
    | addGame game => exact heading_addGame idle id
    | addPlayer deviceID roomNumber player =>
        exact heading_registration idle ordered (Operation.addPlayer_changes _ _ _) rfl
    | removePlayer roomNumber player =>
        have heading := @heading_of_changes _ roomNumber
          (.issue idle (Operation.removePlayer_changes _ _) ordered)
        rwa [of_outcome_removePlayer idle] at heading
    | createRoom screen roomNumber date deviceID => exact heading_createRoom idle ordered
    | addKillshot | uploadKillshotPic | uploadKillshotName | imagePickerController =>
        refine heading_of_kept only fun pending same issued => ?_
        exact of_applyTo_of_killshot issued (same ▸ rfl) (same ▸ rfl)
  · rw [if_neg own]
    refine heading_of_kept only fun pending same issued => ?_
    exact of_applyTo_of_other issued (same ▸ own)

end Call

/-! ## Runs of calls made one at a time -/

/-- What the calls made so far, the latest first, mean to do to the room. -/
def afterAll (room : Int) (calls : List (CallId × Operation)) (self : Room) : Room :=
  calls.foldr (fun call self => self.after room call.2) self

theorem heading_run {firestore : Firestore} {storage : Storage} {final : World}
    {events : List Event}
    (inTurn : Meets World.step World.InTurn (World.start firestore storage) events)
    (performed : run World.step (World.start firestore storage) events = some final)
    (room : Int) : Heading room (afterAll room final.calls (of room firestore)) final := by
  have both : final.Orderly ∧
      Heading room (afterAll room final.calls (of room firestore)) final := by
    refine run_invariant (fun world => world.Orderly ∧
      Heading room (afterAll room world.calls (of room firestore)) world)
      ?_ ⟨.start firestore storage, .of_idle rfl⟩ inTurn performed
    intro world event next holds turn stepped
    refine ⟨holds.1.step stepped, ?_⟩
    rcases step_cases stepped with
      ⟨id, operation, rfl, _, rfl⟩ | ⟨pending, killerTarget, rfl, ready, rfl⟩
    · have heading := heading_issue holds.1 turn stepped room
      rwa [holds.2.arrived turn] at heading
    · exact holds.2.perform ready
  exact both.2

end Room

/-- Calls that are made one at a time do to every room what they mean to, in the order in
which they are made, however the requests of each call are performed. -/
theorem rooms_are_objects {firestore : Firestore} {storage : Storage} {final : World}
    {events : List Event}
    (inTurn : Meets World.step World.InTurn (World.start firestore storage) events)
    (performed : run World.step (World.start firestore storage) events = some final)
    (done : final.outstanding = []) (room : Int) :
    Room.of room final.firestore =
      Room.afterAll room final.calls (Room.of room firestore) :=
  (Room.heading_run inTurn performed room).arrived done

def openJoinLeave : List Event :=
  (World.start ∅ ∅).follow [
    .call 0 (.addGame (Game.init 7 2 "noon")), .answer 0,
    .call 1 (join 7 "ann"), .answer 2, .answer 0, .answer 1, .answer 0, .answer 0,
    .call 2 (.imagePickerController ⟨7, "ann", "bob"⟩ someImage), .answer 1, .answer 0,
    .call 3 (.removePlayer 7 (Player.init "ann" someImage)), .answer 1, .answer 0, .answer 0]

theorem rooms_are_objects_openJoinLeave :
    ∃ final, run World.step (World.start ∅ ∅) openJoinLeave = some final ∧
      Room.of 7 final.firestore = Room.afterAll 7 final.calls (Room.of 7 ∅) := by
  have ends : (run World.step (World.start ∅ ∅) openJoinLeave).any
      (fun final => final.outstanding = []) = true := by decide
  rcases run_ends ends with ⟨final, performed, done⟩
  exact ⟨final, performed, rooms_are_objects (by decide) performed done 7⟩

/-! ## Calls made at the same time -/

theorem World.pairwise_calls {order : CallId → Nat} {world final : World} {events : List Event}
    (ordered : events.Pairwise fun earlier later =>
      order earlier.caller ≤ order later.caller)
    (before : ∀ call ∈ world.calls, ∀ event ∈ events, order call.1 ≤ order event.caller)
    (made : world.calls.Pairwise fun later earlier => order earlier.1 ≤ order later.1)
    (performed : run World.step world events = some final) :
    final.calls.Pairwise fun later earlier => order earlier.1 ≤ order later.1 := by
  induction events generalizing world with
  | nil =>
      cases performed
      exact made
  | cons event events induction =>
      rcases List.pairwise_cons.mp ordered with ⟨least, rest⟩
      rcases run_cons_eq_some.mp performed with ⟨next, stepped, remaining⟩
      rcases step_cases stepped with
        ⟨id, operation, rfl, _, rfl⟩ | ⟨pending, killerTarget, rfl, _, rfl⟩
      · refine induction rest ?_ ?_ remaining
        · intro call member later inside
          rcases List.mem_cons.mp member with rfl | old
          · exact least later inside
          · exact before call old later (List.mem_cons_of_mem _ inside)
        · exact List.pairwise_cons.mpr
            ⟨fun call member => before call member _ List.mem_cons_self, made⟩
      · have kept := @induction (world.perform pending killerTarget) rest
        exact kept (fun call member later inside =>
          before call member later (List.mem_cons_of_mem _ inside)) made remaining

/-- Calls made at the same time do to every room what they mean to, in an order with which
their conflicting requests agree. -/
theorem concurrent_rooms_are_objects {firestore : Firestore} {storage : Storage}
    {final : World} {events : List Event} {order : CallId → Nat}
    (injective : Function.Injective order) (agrees : Agrees order events)
    (performed : run World.step (World.start firestore storage) events = some final)
    (done : final.outstanding = []) :
    ∃ calls, calls.Perm final.calls ∧
      (calls.Pairwise fun later earlier => order earlier.1 ≤ order later.1) ∧
      ∀ room, Room.of room final.firestore =
        Room.afterAll room calls (Room.of room firestore) := by
  rcases World.exists_in_turn injective agrees performed done with
    ⟨last, sorted, inTurn, alike⟩
  refine ⟨last.calls, alike.calls.symm, ?_, fun room => ?_⟩
  · exact World.pairwise_calls (Interchange.pairwise_sorted _ events)
      (fun call member => absurd member List.not_mem_nil) .nil sorted
  · rw [Room.of_congr (alike.documents _) (fun _ => alike.documents _)
      fun _ => alike.documents _]
    exact (Room.heading_run inTurn sorted room).arrived (alike.idle done)

theorem concurrent_rooms_are_objects_joinTogether :
    ∃ final calls, run World.step (World.start ∅ ∅) joinTogether = some final ∧
      calls.Perm final.calls ∧
      Room.of 7 final.firestore = Room.afterAll 7 calls (Room.of 7 ∅) := by
  have ends : (run World.step (World.start ∅ ∅) joinTogether).any
      (fun final => final.outstanding = []) = true := by decide
  have agrees : Agrees id joinTogether := by decide
  rcases run_ends ends with ⟨final, performed, done⟩
  rcases concurrent_rooms_are_objects Function.injective_id agrees performed done with
    ⟨calls, perm, _, rooms⟩
  exact ⟨final, calls, performed, perm, rooms 7⟩

end AssassinGame
