import AssassinGame.Rooms.Registering

/-! # Creating a room under a number that is taken

`createRoom` writes the documents of the room it has drawn whatever is there
already. It disturbs nothing exactly when nothing is there that differs from what
it writes, and when nobody but its creator is registered under the number.
-/

namespace AssassinGame

open AssassinGame.Action Transition World

/-- The counts of the game documents, the registrations and the photos of `before`
are in `after` what they were. -/
structure Untouched (before after : World) : Prop where
  games : ∀ room data, before.firestore.lookup (gameRef room) = some data →
    ∃ kept, after.firestore.lookup (gameRef room) = some kept ∧
      kept.int? "totalPlayers" = data.int? "totalPlayers" ∧
      kept.int? "playerCount" = data.int? "playerCount"
  registrations : ∀ path data, IsRegistration path →
    before.firestore.lookup path = some data → after.firestore.lookup path = some data
  photos : ∀ path data, before.storage.lookup path = some data →
    after.storage.lookup path = some data

def OnlyCreator (room : Int) (creator : Player) (store : Firestore) : Prop :=
  ∃ id ∈ playerID? room creator, store.getDocuments (players room) = [id]

/-- Nothing is kept under the number that a room opened for `playerCount` players by
`creator` would replace or take over. -/
structure Vacant (world : World) (room playerCount : Int) (deviceID : Option UUID)
    (creator : Player) : Prop where
  players : ∃ id ∈ playerID? room creator,
    ∀ other ∈ world.firestore.getDocuments (players room), other = id
  game : ∀ data, world.firestore.lookup (gameRef room) = some data →
    data.int? "totalPlayers" = some playerCount ∧ data.int? "playerCount" =
      some (playerCount - if Registrable deviceID room creator then 1 else 0)
  player : ∀ path data, document? (AssassinGame.players room) creator.name = some path →
    world.firestore.lookup path = some data → data = playerFields creator
  phone : ∀ device ∈ deviceID, ∀ data,
    world.firestore.lookup (phoneToPlayers room ++ [device.uuidString]) = some data →
      data = phoneFields creator
  photo : Registrable deviceID room creator →
    ∀ data, world.storage.lookup (photoRef room creator.name) = some data →
      creator.image.pngData = some data

/-! ## What creating a room leaves behind -/

section Creation

variable {world : World} {screen : CreateGameVC} {room playerCount : Int} {date : String}
  {deviceID : Option UUID} {image : UIImage} {playerRef : ResourcePath}

def openingWrite (room playerCount : Int) (date : String) : Write :=
  .setData (gameRef room) (gameFields (Game.init room playerCount date))

theorem requests_createRoom (counted : int? screen.numOfPlayers = some playerCount)
    (pictured : screen.imageToUpload = some image) :
    (Operation.createRoom screen room date deviceID).action.requests =
      [openingWrite room playerCount date].map Request.write ++
        (addPlayer deviceID room (Player.init screen.nameField image)).requests := by
  rw [Operation.action, createNumberedRoom_requests, counted, pictured]
  rfl

theorem outcome_createRoom (idle : world.outstanding = [])
    (counted : int? screen.numOfPlayers = some playerCount)
    (pictured : screen.imageToUpload = some image)
    (named : document? (players room) screen.nameField = some playerRef) (call : CallId) :
    (∀ path, path ≠ gameRef room →
      (world.issue call (.createRoom screen room date deviceID)).outcome.lookup path =
        (applyAll (setAll (registrationOf room deviceID
          (Player.init screen.nameField image) playerRef)) world.firestore).lookup path) ∧
    ∃ data, (world.issue call (.createRoom screen room date deviceID)).outcome.lookup
        (gameRef room) = some data ∧
      data.int? "totalPlayers" = some playerCount ∧
      data.int? "playerCount" = some (playerCount -
        if Registrable deviceID room (Player.init screen.nameField image) then 1 else 0) := by
  have opened : counter? room (applyAll [openingWrite room playerCount date]
      world.firestore) = some playerCount := by
    simp [counter?, openingWrite, Write.lookup_setData, Game.init]
  have finished := @finish_registering room (Player.init screen.nameField image) deviceID
    playerRef (.createRoom screen room date deviceID) _ playerCount call rfl rfl rfl named
    world.firestore opened
  rw [← requests_createRoom counted pictured] at finished
  have elsewhere : ∀ path, path ≠ gameRef room →
      (applyAll ([openingWrite room playerCount date] ++ setAll (registrationOf room deviceID
        (Player.init screen.nameField image) playerRef)) world.firestore).lookup path =
      (applyAll (setAll (registrationOf room deviceID
        (Player.init screen.nameField image) playerRef)) world.firestore).lookup path :=
    fun path other => lookup_applyAll_congr _ (Write.lookup_apply_of_ne other _)
  have here : (applyAll ([openingWrite room playerCount date] ++ setAll (registrationOf room
      deviceID (Player.init screen.nameField image) playerRef)) world.firestore).lookup
      (gameRef room) = some (gameFields (Game.init room playerCount date)) :=
    (lookup_applyAll_of_ne (gameRef_apart_registrationOf named room) _).trans
      (Write.lookup_setData _ _ _)
  rw [outcome_issue idle, finished]
  split
  · refine ⟨fun path other => (Write.lookup_apply_of_ne other _).trans (elsewhere path other),
      _, (Write.lookup_updateData _ _ _).trans (congrArg _ here), ?_, ?_⟩
    · rw [totalPlayers_merge_countFields, totalPlayers_gameFields]
      rfl
    · rw [playerCount_merge_countFields]
  · refine ⟨elsewhere, _, here, totalPlayers_gameFields _, ?_⟩
    rw [playerCount_gameFields, sub_zero]
    rfl

theorem uploadAll_addPlayer (call : CallId) (operation : Operation) (player : Player)
    (storage : Storage) :
    uploadAll ((addPlayer deviceID room player).requests.map (Pending.mk call operation))
        storage =
      match player.image.pngData with
      | some data => if Registrable deviceID room player then
          storage.insert (photoRef room player.name) data else storage
      | none => storage := by
  rw [addPlayer_requests_eq]
  cases named : document? (players room) player.name <;> cases deviceID <;>
    cases png : player.image.pngData <;>
    simp [uploadAll, Pending.uploadTo, Registrable, named, png]

theorem onePicture_createRoom (idle : world.outstanding = []) (call : CallId) :
    (world.issue call (.createRoom screen room date deviceID)).OnePicture := by
  rw [World.OnePicture, World.issue, idle, List.nil_append, List.countP_map, Operation.action,
    createNumberedRoom_requests]
  change List.countP Request.isUpload _ ≤ 1
  split
  · rw [List.countP_cons_of_neg (by simp [Request.isUpload])]
    exact countP_isUpload_addPlayer _ _ _
  · simp

theorem gallery_createRoom (idle : world.outstanding = [])
    (counted : int? screen.numOfPlayers = some playerCount)
    (pictured : screen.imageToUpload = some image) (call : CallId) :
    (world.issue call (.createRoom screen room date deviceID)).gallery =
      match image.pngData with
      | some data => if Registrable deviceID room (Player.init screen.nameField image) then
          world.storage.insert (photoRef room screen.nameField) data else world.storage
      | none => world.storage := by
  rw [World.gallery, World.issue, idle, List.nil_append, requests_createRoom counted pictured,
    List.map_append, uploadAll_append]
  exact uploadAll_addPlayer _ _ _ _

end Creation

/-! ## What creating a room disturbs -/

section Disturbance

variable {room playerCount : Int} {deviceID : Option UUID} {player : Player}
  {playerRef : ResourcePath} {before after : Firestore}

/-- `after` differs from `before` by a player's registration and by the game
document. -/
def Registered (room : Int) (deviceID : Option UUID) (player : Player)
    (playerRef : ResourcePath) (before after : Firestore) : Prop :=
  ∀ path, path ≠ gameRef room → after.lookup path =
    (applyAll (setAll (registrationOf room deviceID player playerRef)) before).lookup path

theorem games_kept_iff (named : document? (players room) player.name = some playerRef)
    (registered : Registered room deviceID player playerRef before after) {opened : Document}
    (found : after.lookup (gameRef room) = some opened) :
    (∀ other data, before.lookup (gameRef other) = some data →
      ∃ kept, after.lookup (gameRef other) = some kept ∧
        kept.int? "totalPlayers" = data.int? "totalPlayers" ∧
        kept.int? "playerCount" = data.int? "playerCount") ↔
    ∀ data, before.lookup (gameRef room) = some data →
      data.int? "totalPlayers" = opened.int? "totalPlayers" ∧
        data.int? "playerCount" = opened.int? "playerCount" := by
  constructor
  · intro kept data there
    rcases kept room data there with ⟨same, foundSame, total, count⟩
    rw [found] at foundSame
    cases foundSame
    exact ⟨total.symm, count.symm⟩
  · intro equal other data there
    by_cases own : other = room
    · subst own
      exact ⟨opened, found, (equal data there).1.symm, (equal data there).2.symm⟩
    · refine ⟨data, ?_, rfl, rfl⟩
      rw [registered _ fun same => own (gameRef_injective same),
        lookup_applyAll_of_ne (gameRef_apart_registrationOf named other), there]

theorem registrations_kept_iff
    (named : document? (players room) player.name = some playerRef)
    (registered : Registered room deviceID player playerRef before after) :
    (∀ path data, IsRegistration path → before.lookup path = some data →
      after.lookup path = some data) ↔
    (∀ data, before.lookup playerRef = some data → data = playerFields player) ∧
      ∀ device ∈ deviceID, ∀ data,
        before.lookup (phoneToPlayers room ++ [device.uuidString]) = some data →
          data = phoneFields player := by
  have keeps := setAll_keeps_iff
    (@distinct_registrationOf room player deviceID playerRef named)
    (isRegistration_registrationOf named) before
  have other : ∀ path, IsRegistration path → after.lookup path = (applyAll (setAll
      (registrationOf room deviceID player playerRef)) before).lookup path :=
    fun path registration => registered path fun same =>
      gameRef_not_isRegistration room (same ▸ registration)
  constructor
  · intro kept
    have equal := keeps.mp fun path data registration found => by
      rw [← other path registration]
      exact kept path data registration found
    refine ⟨equal _ List.mem_cons_self, fun device identified => ?_⟩
    exact equal (phoneToPlayers room ++ [device.uuidString], phoneFields player)
      (List.mem_cons_of_mem _ (List.mem_map_of_mem (Option.mem_toList.mpr identified)))
  · intro ⟨own, phone⟩ path data registration found
    rw [other path registration]
    refine keeps.mpr ?_ path data registration found
    intro entry member
    rcases List.mem_cons.mp member with rfl | inside
    · exact own
    · rcases List.mem_map.mp inside with ⟨device, identified, rfl⟩
      exact phone device (Option.mem_toList.mp identified)

theorem onlyCreator_iff {id : String} (direct : playerID? room player = some id)
    (registered : Registered room deviceID player (players room ++ [id]) before after) :
    OnlyCreator room player after ↔
      ∀ other ∈ before.getDocuments (players room), other = id := by
  have named := playerID?_eq_some.mp direct
  have members : ∀ other, other ∈ after.getDocuments (players room) ↔
      other = id ∨ other ∈ before.getDocuments (players room) := by
    intro other
    rw [Firestore.mem_getDocuments, ← AList.lookup_isSome,
      registered _ (gameRef_ne_player room room other).symm, AList.lookup_isSome,
      mem_applyAll_registrationOf named, direct, Option.some.injEq, eq_comm,
      Firestore.mem_getDocuments]
  constructor
  · intro ⟨only, found, single⟩ other inside
    rw [direct, Option.mem_def, Option.some.injEq] at found
    subst found
    have listed := (members other).mpr (.inr inside)
    rw [single] at listed
    exact List.mem_singleton.mp listed
  · intro same
    refine ⟨id, direct, List.perm_singleton.mp ?_⟩
    rw [List.perm_ext_iff_of_nodup (after.nodup_getDocuments _) (List.nodup_singleton id)]
    intro other
    rw [members, List.mem_singleton]
    exact ⟨fun either => either.elim (·) (same other), .inl⟩

theorem photos_kept_iff {photo : Option Data} {uploaded : Prop} [Decidable uploaded]
    (arrives : uploaded → photo ≠ none) (path : StoragePath) (storage : Storage) :
    (∀ other data, storage.lookup other = some data →
      (match photo with
        | some data => if uploaded then storage.insert path data else storage
        | none => storage).lookup other = some data) ↔
    (uploaded → ∀ data, storage.lookup path = some data → photo = some data) := by
  cases photo with
  | none => exact iff_of_true (fun _ _ found => found) fun holds => absurd rfl (arrives holds)
  | some data =>
      by_cases holds : uploaded
      · simp only [holds, if_true, forall_const]
        constructor
        · intro kept old found
          have same := kept path old found
          rwa [AList.lookup_insert] at same
        · intro equal other old found
          by_cases own : other = path
          · subst own
            rw [AList.lookup_insert]
            exact equal old found
          · rw [AList.lookup_insert_ne own, found]
      · simp [holds]

end Disturbance

theorem untouched_iff_vacant {world final : World} {screen : CreateGameVC}
    {room playerCount : Int} {date : String} {deviceID : Option UUID} {image : UIImage}
    (idle : world.outstanding = []) (counted : int? screen.numOfPlayers = some playerCount)
    (pictured : screen.imageToUpload = some image) (call : CallId)
    (documents : final.firestore =
      (world.issue call (.createRoom screen room date deviceID)).outcome)
    (pictures : final.storage =
      (world.issue call (.createRoom screen room date deviceID)).gallery) :
    Untouched world final ∧
        OnlyCreator room (Player.init screen.nameField image) final.firestore ↔
      Vacant world room playerCount deviceID (Player.init screen.nameField image) := by
  cases direct : playerID? room (Player.init screen.nameField image) with
  | none =>
      -- the creator is not among the players, whatever else happens
      have notOnly : ¬OnlyCreator room (Player.init screen.nameField image)
          final.firestore := by
        intro ⟨id, found, _⟩
        rw [direct] at found
        cases found
      have notVacant : ¬Vacant world room playerCount deviceID
          (Player.init screen.nameField image) := by
        intro vacant
        rcases vacant.players with ⟨id, found, _⟩
        rw [direct] at found
        cases found
      exact iff_of_false (fun both => notOnly both.2) notVacant
  | some id =>
      have named := playerID?_eq_some.mp direct
      rcases @outcome_createRoom world screen room playerCount date deviceID image _ idle
        counted pictured named call with ⟨registered, opened, found, total, count⟩
      rw [← documents] at registered found
      have games := games_kept_iff named registered found
      have registrations := registrations_kept_iff named registered
      have only := onlyCreator_iff direct registered
      have arrives : Registrable deviceID room (Player.init screen.nameField image) →
          image.pngData ≠ none := fun registrable =>
        Option.isSome_iff_ne_none.mp registrable.2.2
      have photos := photos_kept_iff arrives (photoRef room screen.nameField) world.storage
      rw [total, count] at games
      rw [gallery_createRoom idle counted pictured] at pictures
      rw [← pictures] at photos
      constructor
      · intro ⟨untouched, creator⟩
        have kept := registrations.mp untouched.registrations
        refine ⟨⟨id, direct, only.mp creator⟩, games.mp untouched.games, ?_, kept.2,
          photos.mp untouched.photos⟩
        intro path data names there
        rw [named, Option.some.injEq] at names
        exact kept.1 data (names ▸ there)
      · intro vacant
        refine ⟨⟨games.mpr vacant.game, registrations.mpr ⟨?_, vacant.phone⟩,
          photos.mpr vacant.photo⟩, only.mpr ?_⟩
        · exact fun data there => vacant.player _ data named there
        · rcases vacant.players with ⟨other, same, single⟩
          rw [direct, Option.mem_def, Option.some.injEq] at same
          exact same ▸ single

theorem untouched_of_nothing {world final : World} {operation : Operation}
    (idle : world.outstanding = []) (nothing : operation.action.requests = [])
    (call : CallId) (documents : final.firestore = (world.issue call operation).outcome)
    (pictures : final.storage = (world.issue call operation).gallery) :
    Untouched world final := by
  have still := outstanding_issue_of_nothing idle call nothing
  rw [outcome_of_idle still] at documents
  rw [World.gallery, still] at pictures
  refine ⟨fun room data found => ⟨data, documents ▸ found, rfl, rfl⟩, ?_, ?_⟩
  · exact fun path data _ found => documents ▸ found
  · exact fun path data found => pictures ▸ found

/-- From whatever stores the app has made, a further `createRoom` leaves every game
document, every registration and every photo as it was and ends with its creator as
the only player of the room, if and only if the number it draws is vacant. A call
that lacks the count or the picture does nothing at all. -/
theorem creation_disturbs_nothing_iff {history events : List Event} {world final : World}
    {id : CallId} {screen : CreateGameVC} {shuffled : Shuffle Nat} {date : String}
    {deviceID : Option UUID}
    (reached : run World.step (World.start ∅ ∅) history = some world)
    (idle : world.outstanding = [])
    (performed : run World.step world (.call id (.createRoom screen
      (generateRoomNumber shuffled) date deviceID) :: events) = some final)
    (continues : ∀ event ∈ events, event.performs = true) (done : final.outstanding = []) :
    (Untouched world final ∧
      ∀ playerCount ∈ int? screen.numOfPlayers, ∀ image ∈ screen.imageToUpload,
        OnlyCreator (generateRoomNumber shuffled) (Player.init screen.nameField image)
          final.firestore) ↔
    ∀ playerCount ∈ int? screen.numOfPlayers, ∀ image ∈ screen.imageToUpload,
      Vacant world (generateRoomNumber shuffled) playerCount deviceID
        (Player.init screen.nameField image) := by
  have orderly : world.Orderly :=
    run_keeps Orderly (fun orderly stepped => orderly.step stepped) (Orderly.start ∅ ∅) reached
  have changes : (Operation.createRoom screen (generateRoomNumber shuffled) date
      deviceID).change ≠ 0 := show (-1 : Int) ≠ 0 by decide
  rcases orderly.run_call idle changes (onePicture_createRoom idle id) performed continues
    done with ⟨documents, pictures⟩
  cases counted : int? screen.numOfPlayers with
  | none =>
      have nothing : (Operation.createRoom screen (generateRoomNumber shuffled) date
          deviceID).action.requests = [] := by
        rw [Operation.action, createNumberedRoom_requests, counted]
      have untouched := untouched_of_nothing idle nothing id documents pictures
      exact iff_of_true ⟨untouched, by simp⟩ (by simp)
  | some playerCount =>
      cases pictured : screen.imageToUpload with
      | none =>
          have nothing : (Operation.createRoom screen (generateRoomNumber shuffled) date
              deviceID).action.requests = [] := by
            rw [Operation.action, createNumberedRoom_requests, counted, pictured]
          have untouched := untouched_of_nothing idle nothing id documents pictures
          exact iff_of_true ⟨untouched, by simp⟩ (by simp)
      | some image =>
          simp only [Option.mem_def, Option.some.injEq, forall_eq']
          exact untouched_iff_vacant idle counted pictured id documents pictures

theorem vacant_of_absent {world : World} {room playerCount : Int} {deviceID : Option UUID}
    {creator : Player} {id : String} (direct : playerID? room creator = some id)
    (noGame : world.firestore.lookup (gameRef room) = none)
    (noPlayers : world.firestore.getDocuments (players room) = [])
    (noPhone : ∀ device ∈ deviceID,
      world.firestore.lookup (phoneToPlayers room ++ [device.uuidString]) = none)
    (noPhoto : world.storage.lookup (photoRef room creator.name) = none) :
    Vacant world room playerCount deviceID creator where
  players := ⟨id, direct, by simp [noPlayers]⟩
  game := by simp [noGame]
  player := by
    intro path data named found
    have absent : AssassinGame.players room ++ [id] ∉ world.firestore := by
      rw [← Firestore.mem_getDocuments, noPlayers]
      exact List.not_mem_nil
    rw [playerID?_eq_some.mp direct, Option.some.injEq] at named
    subst named
    exact absurd (AList.lookup_isSome.mp (by rw [found]; rfl)) absent
  phone := by
    intro device identified data found
    rw [noPhone device identified] at found
    cases found
  photo := by simp [noPhoto]

/-- A call made in a world at rest and performed to its end, in the order of issue. -/
def World.alone (world : World) (id : CallId) (operation : Operation) : List Event :=
  .call id operation :: (world.issue id operation).follow (List.replicate 6 (.answer 0))

def reversed : Shuffle Nat :=
  .toward (List.range 10) (List.range 10).reverse (List.reverse_perm _)

theorem creation_disturbs_nothing_iff_reversed :
    ∃ world final, run World.step (World.start ∅ ∅) ((World.start ∅ ∅).alone 0
        (create (generateRoomNumber .keep) "ann" 2)) = some world ∧
      run World.step world (world.alone 1 (create (generateRoomNumber reversed) "bob" 3)) =
        some final ∧
      Untouched world final ∧
        OnlyCreator 9876 (Player.init "bob" someImage) final.firestore := by
  have ends : (run World.step (World.start ∅ ∅) ((World.start ∅ ∅).alone 0
        (create (generateRoomNumber .keep) "ann" 2))).any (fun world =>
      world.outstanding = [] ∧ world.firestore.lookup (gameRef 9876) = none ∧
      world.firestore.getDocuments (players 9876) = [] ∧
      world.firestore.lookup (phoneToPlayers 9876 ++ [somePhone.uuidString]) = none ∧
      world.storage.lookup (photoRef 9876 "bob") = none ∧
      (run World.step world
          (world.alone 1 (create (generateRoomNumber reversed) "bob" 3))).any (fun final =>
        final.outstanding = [] ∧ ∀ event ∈ (world.alone 1
          (create (generateRoomNumber reversed) "bob" 3)).tail, event.performs = true) =
        true) = true := by
    decide
  rcases run_ends ends with
    ⟨world, reached, idle, noGame, noPlayers, noPhone, noPhoto, ends⟩
  rcases run_ends ends with ⟨final, performed, done, continues⟩
  have vacant (playerCount : Int) : Vacant world (generateRoomNumber reversed) playerCount
      (some somePhone) (Player.init "bob" someImage) :=
    @vacant_of_absent _ 9876 _ _ _ "bob" (by decide) noGame noPlayers
      (by simpa using noPhone) noPhoto
  rcases (@creation_disturbs_nothing_iff _ _ world final 1 (createScreen "bob" 3) reversed
    "noon" (some somePhone) reached idle performed continues done).mpr (by
      intro playerCount _ image pictured
      cases pictured
      exact vacant playerCount) with ⟨untouched, only⟩
  exact ⟨world, final, reached, performed, untouched, only 3 (by decide) someImage rfl⟩

/-- Two players draw the same number: the second replaces the game document of the
first and shares the room with them. -/
theorem creation_disturbs_taken_number :
    ∃ world final, run World.step (World.start ∅ ∅) ((World.start ∅ ∅).alone 0
        (create (generateRoomNumber .keep) "ann" 2)) = some world ∧
      world.outstanding = [] ∧
      run World.step world (world.alone 1 (create (generateRoomNumber .keep) "bob" 3)) =
        some final ∧
      final.outstanding = [] ∧ ¬Untouched world final ∧
        ¬OnlyCreator (generateRoomNumber .keep) (Player.init "bob" someImage)
          final.firestore := by
  have ends : (run World.step (World.start ∅ ∅) ((World.start ∅ ∅).alone 0
        (create (generateRoomNumber .keep) "ann" 2))).any (fun world =>
      world.outstanding = [] ∧ counter? 123 world.firestore = some 1 ∧
      (run World.step world
          (world.alone 1 (create (generateRoomNumber .keep) "bob" 3))).any (fun final =>
        final.outstanding = [] ∧ counter? 123 final.firestore = some 2 ∧
          (final.firestore.getDocuments (players 123)).length = 2) = true) = true := by
    decide
  rcases run_ends ends with ⟨world, reached, idle, before, ends⟩
  rcases run_ends ends with ⟨final, performed, done, after, two⟩
  refine ⟨world, final, reached, idle, performed, done, ?_, ?_⟩
  · intro untouched
    rcases Option.bind_eq_some_iff.mp before with ⟨data, found, one⟩
    rcases untouched.games 123 data found with ⟨kept, there, _, count⟩
    rw [counter?, there, Option.bind_some, count, one] at after
    cases after
  · intro only
    rcases only with ⟨id, _, single⟩
    rw [show generateRoomNumber .keep = 123 by decide] at single
    rw [single] at two
    cases two

end AssassinGame
