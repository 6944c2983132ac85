import AssassinGame.Rooms.Handsets
import AssassinGame.Rooms.Numbering
import AssassinGame.Targets.Selection

/-! # What the screens make of the stores

Screens open rooms, register players and publish killshots, and do nothing else to the
documents. So a game document stays within what can be set up on a create screen, and a
killshot is one of somebody who plays.
-/

namespace AssassinGame

open AssassinGame.Action Transition World Segments

theorem photoRef_ne_killshotPhotoRef (left right : Int) (player target : String) :
    photoRef left player ≠ TabBarVC.killshotPhotoRef right target := by
  intro same
  have first := congrArg List.head? same
  rw [TabBarVC.killshotPhotoRef, child_decimal right "ks" (by decide)] at first
  refine decimal_ne_killshotID left right ?_
  simpa [photoRef, storageRef, StoragePath.child, (plain_decimal left).split] using first

/-- The counter is at most that of the largest room, and each write that has been done has
lowered it by one at most. -/
def Ranged (updates : Nat) (count : Int) : Prop := -updates ≤ count ∧ count ≤ 100

theorem lasting_ranged : Lasting Ranged where
  weaken := by
    intro updates count ranged
    unfold Ranged at ranged ⊢
    omega
  lower := by
    intro updates count ranged
    unfold Ranged at ranged ⊢
    omega

/-- The room has been opened, and the name is that of one of its players or the text that the
label shows before there is a target. -/
def Aimed (store : Firestore) (room : Int) (name : String) : Prop :=
  gameRef room ∈ store ∧ (name = TabBarVC.placeholder ∨ players room ++ [name] ∈ store)

theorem Aimed.mono {before after : Firestore} {room : Int} {name : String}
    (aimed : Aimed before room name) (kept : ∀ path ∈ before, path ∈ after) :
    Aimed after room name :=
  ⟨kept _ aimed.1, aimed.2.imp_right (kept _)⟩

theorem Aimed.answered [Canonical] {store : Firestore} {screen : TabBarVC}
    (aimed : Aimed store screen.roomNumber screen.targetName) (shuffle : Shuffle String) :
    Aimed store screen.roomNumber (TabBarVC.assignTarget.completion screen shuffle
      (store.getDocuments (players screen.roomNumber))).1.targetName := by
  by_cases alone : TabBarVC.potentialTargets screen.name
      (store.getDocuments (players screen.roomNumber)) = []
  · rw [TabBarVC.completion_targetName, alone, (shuffle.perm []).eq_nil]
    exact aimed
  · have candidate := TabBarVC.completion_mem screen shuffle alone
    have listed := (TabBarVC.mem_potentialTargets.mp candidate).1
    exact ⟨aimed.1, .inr (Firestore.mem_getDocuments.mp listed)⟩

/-- The calls that screens make: of a create screen that has been filled in, of a join screen,
and of the camera of a game screen. -/
inductive Operation.OnScreen (store : Firestore) : Operation → Prop
  | createRoom {screen : CreateGameVC} {roomNumber : Int} (date : String)
      (deviceID : Option UUID) : screen.Filled → roomNumber ∈ roomNumbers →
      OnScreen store (.createRoom screen roomNumber date deviceID)
  | joinGame (deviceID : Option UUID) (roomNumber : Int) (player : Player) :
      OnScreen store (.addPlayer deviceID roomNumber player)
  | takePicture {screen : TabBarVC} (img : UIImage) :
      Aimed store screen.roomNumber screen.targetName →
      OnScreen store (.imagePickerController screen img)

namespace Operation.OnScreen

variable {store after : Firestore} {operation : Operation}

theorem mono (onScreen : operation.OnScreen store) (kept : ∀ path ∈ store, path ∈ after) :
    operation.OnScreen after := by
  cases onScreen with
  | createRoom date deviceID filled drawn => exact .createRoom date deviceID filled drawn
  | joinGame deviceID roomNumber player => exact .joinGame deviceID roomNumber player
  | takePicture img aimed => exact .takePicture img (aimed.mono kept)

theorem keeps (onScreen : operation.OnScreen store) : operation.removed = none := by
  cases onScreen <;> rfl

theorem opens (onScreen : operation.OnScreen store) {game : Game}
    (opened : operation.opened = some game) :
    game.roomNumber ∈ roomNumbers ∧ 0 ≤ game.playerCount ∧ game.playerCount ≤ 100 := by
  cases onScreen with
  | createRoom date deviceID filled drawn =>
      rcases filled with ⟨count, number, bounds⟩
      simp only [Operation.opened, number] at opened
      split at opened
      · rename_i playerCount image same _
        cases same
        cases opened
        exact ⟨drawn, bounds⟩
      · cases opened
  | joinGame => cases opened
  | takePicture => cases opened

theorem within (onScreen : operation.OnScreen store) (room : Int) :
    operation.Within room Ranged := by
  intro own
  refine ⟨onScreen.keeps, fun game opened updates => ?_⟩
  have bounds := (onScreen.opens opened).2
  unfold Ranged
  omega

theorem publishes (onScreen : operation.OnScreen store) {name : String}
    (published : operation.published = some name) :
    Aimed store operation.room name ∧ ∃ data,
      .putData (TabBarVC.killshotPhotoRef operation.room name) data ∈
        operation.action.requests := by
  cases onScreen with
  | createRoom => cases published
  | joinGame => cases published
  | takePicture img aimed =>
      rcases Option.map_eq_some_iff.mp published with ⟨data, png, rfl⟩
      refine ⟨aimed, data, ?_⟩
      rw [Operation.action, TabBarVC.imagePickerController_requests png]
      exact List.mem_cons_self

theorem uploads (onScreen : operation.OnScreen store) {path : StoragePath} {data : Data}
    (asked : .putData path data ∈ operation.action.requests) :
    (∃ name, path = photoRef operation.room name) ∨
      ∃ screen img, operation = .imagePickerController screen img ∧
        img.pngData = some data ∧
        path = TabBarVC.killshotPhotoRef screen.roomNumber screen.targetName := by
  cases onScreen with
  | createRoom =>
      cases registers : Operation.registration _ with
      | none =>
          rw [requests_of_no_registration rfl registers] at asked
          cases asked
      | some registration =>
          rw [requests_of_registration registers] at asked
          rcases List.mem_append.mp asked with opens | adds
          · rcases List.mem_map.mp opens with ⟨_, _, other⟩
            cases other
          · exact .inl ⟨_, photoRef_of_mem_addPlayer adds⟩
  | joinGame => exact .inl ⟨_, photoRef_of_mem_addPlayer asked⟩
  | @takePicture screen img =>
      cases png : img.pngData with
      | none =>
          simp [Operation.action, TabBarVC.imagePickerController,
            TabBarVC.uploadKillshotPic, bind_requests, bind_result, png] at asked
      | some bytes =>
          rw [Operation.action, TabBarVC.imagePickerController_requests png] at asked
          simp only [List.mem_cons, List.not_mem_nil, or_false, reduceCtorEq,
            Request.putData.injEq] at asked
          rcases asked with ⟨rfl, rfl⟩
          exact .inr ⟨screen, img, rfl, png, rfl⟩

end Operation.OnScreen

/-- What is known of the stores when screens make the calls. -/
structure World.OnScreens (world : World) : Prop where
  vouched : world.Vouched
  pursued : world.Pursued
  bounded : ∀ room, world.Bounded room Ranged
  calls : ∀ call ∈ world.calls, call.2.OnScreen world.firestore

namespace World.OnScreens

variable {world next : World} {event : AssassinGame.Event}

theorem start : (World.start ∅ ∅).OnScreens where
  vouched := .start
  pursued := .start
  bounded room := by
    refine ⟨traced_start ∅ ∅, ?_, ?_, ?_⟩
    · intro call member
      cases member
    · intro count counted
      cases counted
    · intro pending member
      cases member
  calls _ member := by cases member

theorem kept (onScreens : world.OnScreens) (stepped : world.step event = some next) :
    ∀ path ∈ world.firestore, path ∈ next.firestore := by
  intro path member
  refine mem_of_step member (Bool.eq_false_iff.mpr fun deletes => ?_) stepped
  rcases step_cases stepped with
    ⟨id, operation, rfl, _, rfl⟩ | ⟨pending, killerTarget, rfl, ready, rfl⟩
  · cases deletes
  · have called := (onScreens.vouched.traced pending (.inl ready.1)).1
    have shape := of_decide_eq_true deletes
    rcases onScreens.vouched.traced.issued ready.1 with asked | answered
    · rw [shape] at asked
      cases asked with
      | removes removed => cases removed.symm.trans (onScreens.calls _ called).keeps
    · rw [shape] at answered
      cases answered

theorem step (onScreens : world.OnScreens)
    (made : ∀ id operation, event = .call id operation → operation.OnScreen world.firestore)
    (stepped : world.step event = some next) : next.OnScreens where
  vouched := onScreens.vouched.step stepped
  pursued := onScreens.pursued.step stepped
  bounded room := (onScreens.bounded room).step lasting_ranged
    (fun id operation call => (made id operation call).within room) stepped
  calls call member := by
    refine Operation.OnScreen.mono ?_ (onScreens.kept stepped)
    rcases step_cases stepped with
      ⟨id, operation, rfl, _, rfl⟩ | ⟨pending, killerTarget, rfl, _, rfl⟩
    · rcases List.mem_cons.mp member with rfl | old
      · exact made id operation rfl
      · exact onScreens.calls call old
    · exact onScreens.calls call member

/-- A game document is found under no other text that is read as its number. -/
theorem eq_decimal (onScreens : world.OnScreens) {text : String} {room : Int}
    (member : games ++ [text] ∈ world.firestore) (number : int? text = some room) :
    text = decimal room := by
  rcases Option.isSome_iff_exists.mp (AList.lookup_isSome.mpr member) with ⟨document, found⟩
  rcases (onScreens.vouched.stored _ _ found).at_games with
    ⟨_, _, game, _, _, rfl, _⟩ | ⟨call, _, _, _, shot, _⟩
  · rw [eq_of_parse_decimal number]
  · exact absurd shot (int?_ne_killshotID number call.2.room)

end World.OnScreens

/-- What is known of a phone that waits or plays: its call has entered its player, and the game
screen is one of the same player and room. -/
structure Client.Registered (world : World) (id : CallId) (client : Client) : Prop where
  entered : ∃ operation room, (id, operation) ∈ world.calls ∧
    int? client.waiting.roomNumber = some room ∧
    operation.entrant room = some client.waiting.name
  playing : ∀ screen ∈ client.playing, screen.name = client.waiting.name ∧
    int? client.waiting.roomNumber = some screen.roomNumber ∧
    Aimed world.firestore screen.roomNumber screen.targetName

theorem Client.Registered.later {world next : World} {id : CallId} {client : Client}
    (registered : client.Registered world id) (calls : ∀ call ∈ world.calls, call ∈ next.calls)
    (kept : ∀ path ∈ world.firestore, path ∈ next.firestore) : client.Registered next id where
  entered := by
    rcases registered.entered with ⟨operation, room, called, reads, enters⟩
    exact ⟨operation, room, calls _ called, reads, enters⟩
  playing screen plays := by
    rcases registered.playing screen plays with ⟨name, room, aimed⟩
    exact ⟨name, room, aimed.mono kept⟩

namespace App

/-- What is known of the phones when screens make the calls. -/
structure OnScreens (app : App) : Prop where
  typed : app.Typed
  stores : app.world.OnScreens
  past : ∀ store ∈ app.past, ∀ path ∈ store, path ∈ app.world.firestore
  clients : ∀ id client, app.clients.lookup id = some client → client.Registered app.world id

namespace OnScreens

variable {app next : App}

theorem start : App.start.OnScreens where
  typed := .start
  stores := .start
  past store member path inside := by
    rw [List.mem_singleton.mp member] at inside
    cases AList.notMem_empty _ inside
  clients _ _ known := by cases known

theorem insert (onScreens : app.OnScreens) {id : CallId} {client : Client}
    (known : client.Registered app.world id) :
    OnScreens { app with clients := app.clients.insert id client } where
  typed := by
    rcases known.entered with ⟨_, _, _, reads, _⟩
    exact onScreens.typed.insert (by simp [reads]) id
  stores := onScreens.stores
  past := onScreens.past
  clients := Entries.forall_insert known onScreens.clients

theorem erase (onScreens : app.OnScreens) (id : CallId) :
    OnScreens { app with clients := app.clients.erase id } where
  typed := onScreens.typed.erase id
  stores := onScreens.stores
  past := onScreens.past
  clients := Entries.forall_erase onScreens.clients id

theorem later (onScreens : app.OnScreens) {world : World} {event : AssassinGame.Event}
    (stepped : app.world.step event = some world) :
    ∀ id client, app.clients.lookup id = some client → client.Registered world id := by
  intro id client known
  have performed : run World.step app.world [event] = some world :=
    run_cons_eq_some.mpr ⟨world, stepped, rfl⟩
  exact (onScreens.clients id client known).later (recorded_of_run performed).1
    (onScreens.stores.kept stepped)

theorem advance (onScreens : app.OnScreens) {event : AssassinGame.Event} (typed : next.Typed)
    (made : ∀ id operation, event = .call id operation →
      operation.OnScreen app.world.firestore)
    (stepped : app.world.step event = some next.world)
    (past : ∀ store ∈ next.past, store ∈ app.past ∨ store = next.world.firestore)
    (clients : ∀ id client, next.clients.lookup id = some client →
      client.Registered next.world id) : next.OnScreens where
  typed := typed
  stores := onScreens.stores.step made stepped
  past store member path inside := by
    rcases past store member with old | rfl
    · exact onScreens.stores.kept stepped path (onScreens.past store old path inside)
    · exact inside
  clients := clients

theorem entered (onScreens : app.OnScreens) {id : CallId} {operation : Operation}
    {screen : WaitingVC} (typed : next.Typed) (made : operation.OnScreen app.world.firestore)
    (leads : operation.Leads screen) (entered : app.enter id operation screen = some next) :
    next.OnScreens := by
  rcases Option.map_eq_some_iff.mp entered with ⟨world, called, rfl⟩
  refine onScreens.advance typed (fun _ _ same => ?_) called (fun _ => .inl) ?_
  · cases same
    exact made
  · dsimp only
    split
    · rename_i ended
      refine Entries.forall_insert ⟨⟨operation, operation.room, ?_, leads.roomNumber,
        leads.entrant ended⟩, nofun⟩ (onScreens.later called)
      rw [(step_call.mp called).2]
      exact List.mem_cons_self
    · exact onScreens.later called

theorem opened (onScreens : app.OnScreens) {waiting : WaitingVC} {path : ResourcePath}
    {store : Firestore} {data : Document} {room : Int}
    (listens : waiting.listenDocument.result = some path) (kept : store ∈ app.past)
    (found : store.lookup path = some data) (reads : int? waiting.roomNumber = some room) :
    gameRef room ∈ app.world.firestore := by
  have own : path = games ++ [waiting.roomNumber] :=
    Option.some.inj (listens.symm.trans (document?_of_int? reads))
  have member := onScreens.past store kept path
    (AList.lookup_isSome.mp (Option.isSome_iff_exists.mpr ⟨data, found⟩))
  rw [own] at member
  rw [gameRef, ← onScreens.stores.eq_decimal member reads]
  exact member

theorem listened (onScreens : app.OnScreens) {id : CallId} {client : Client} {path : ResourcePath}
    {store : Firestore} (known : app.clients.lookup id = some client)
    (listens : client.waiting.listenDocument.result = some path) (kept : store ∈ app.past) :
    OnScreens (app.shown id client (store.lookup path)) := by
  have before := onScreens.clients id client known
  unfold App.shown
  split
  · exact onScreens.erase id
  · rename_i waiting ran
    rcases WaitingVC.completion_keeps ran with ⟨sameRoom, sameName⟩
    apply onScreens.insert
    constructor
    · simp only [sameRoom, sameName]
      exact before.entered
    · simp only [sameRoom, sameName]
      exact before.playing
  · rename_i waiting ran
    rcases WaitingVC.completion_starts.mp ran with ⟨data, found, zero, rfl⟩
    split
    · exact onScreens.erase id
    · rename_i screen prepared
      rcases Option.bind_eq_some_iff.mp prepared with ⟨number, reads, same⟩
      cases same
      apply onScreens.insert
      refine ⟨before.entered, fun screen plays => ?_⟩
      cases plays
      exact ⟨rfl, reads, onScreens.opened listens kept found reads, .inl rfl⟩

theorem answered [Canonical] (onScreens : app.OnScreens) {id : CallId} {client : Client}
    {screen : TabBarVC} (known : app.clients.lookup id = some client)
    (plays : client.playing = some screen) (shuffle : Shuffle String) :
    OnScreens { app with
      clients := app.clients.insert id { client with
        playing := some (TabBarVC.assignTarget.completion screen shuffle
          (app.world.firestore.getDocuments (players screen.roomNumber))).1
        answered := true } } := by
  have before := onScreens.clients id client known
  rcases before.playing screen plays with ⟨name, room, aimed⟩
  apply onScreens.insert
  refine ⟨before.entered, fun next shows => ?_⟩
  cases shows
  exact ⟨name, room, aimed.answered shuffle⟩

theorem step [Canonical] (onScreens : app.OnScreens) {event : Event}
    (uses : app.Uses (.screen event)) (stepped : app.step event = some next) : next.OnScreens := by
  have typed := onScreens.typed.step stepped
  cases event with
  | createRoom id screen shuffled date deviceID =>
      refine onScreens.entered typed (.createRoom date deviceID uses ?_)
        (leads_createRoom screen shuffled date deviceID) stepped
      exact drawnNumber_mem (shuffled.perm _)
  | joinGame id screen =>
      simp only [App.step] at stepped
      split at stepped
      · cases stepped
        exact onScreens
      · cases stepped
        exact ⟨typed, onScreens.stores, onScreens.past, onScreens.clients⟩
  | found id screen deviceID =>
      have rest : OnScreens { app with lookups := app.lookups.eraseP (·.1 = id) } :=
        ⟨⟨onScreens.typed.traced, onScreens.typed.schema, onScreens.typed.past,
          onScreens.typed.numbered⟩, onScreens.stores, onScreens.past, onScreens.clients⟩
      simp only [App.step] at stepped
      split at stepped
      · cases stepped
      · split at stepped
        · split at stepped
          · cases stepped
            exact rest
          · rename_i operation joins
            have leads := leads_joinGame joins
            rcases Option.bind_eq_some_iff.mp joins with ⟨image, _, read⟩
            rcases Option.bind_eq_some_iff.mp read with ⟨roomNumber, _, same⟩
            cases same
            exact rest.entered typed (.joinGame deviceID roomNumber _) leads stepped
        · cases stepped
          exact rest
  | perform pending killerTarget =>
      rcases Option.map_eq_some_iff.mp stepped with ⟨world, done, rfl⟩
      refine onScreens.advance typed (fun _ _ same => ?_) done (fun store member => ?_)
        (onScreens.later done)
      · cases same
      · exact (List.mem_cons.mp member).symm
  | snapshot id age =>
      rcases Option.bind_eq_some_iff.mp stepped with ⟨client, known, rest⟩
      rcases Option.bind_eq_some_iff.mp rest with ⟨path, listens, last⟩
      rcases Option.bind_eq_some_iff.mp last with ⟨store, kept, same⟩
      cases same
      exact onScreens.listened known listens (List.mem_of_getElem? kept)
  | answered id shuffle =>
      rcases Option.bind_eq_some_iff.mp stepped with ⟨client, known, rest⟩
      rcases Option.bind_eq_some_iff.mp rest with ⟨screen, plays, same⟩
      cases same
      exact onScreens.answered known plays shuffle

theorem act [Canonical] (onScreens : app.OnScreens) {activity : Activity}
    (uses : app.Uses activity) (acted : app.act activity = some next) : next.OnScreens := by
  cases activity with
  | screen event => exact onScreens.step uses acted
  | call id operation =>
      have typed := onScreens.typed.act acted
      rcases uses with ⟨phone, client, screen, img, known, plays, rfl⟩
      rcases Option.map_eq_some_iff.mp acted with ⟨world, called, rfl⟩
      refine onScreens.advance typed (fun _ _ same => ?_) called (fun _ => .inl)
        (onScreens.later called)
      cases same
      exact .takePicture img ((onScreens.clients phone client known).playing screen plays).2.2

end OnScreens

end App

namespace Handsets

theorem onScreens_of_run [Canonical] {events : List Event} {final : Handsets}
    (performed : run Handsets.step start events = some final) : final.app.OnScreens := by
  rcases run_activities performed with ⟨activities, meets, acted⟩
  exact run_invariant App.OnScreens (fun _ _ _ onScreens uses acted => onScreens.act uses acted)
    .start meets acted

/-- Whatever is done on the screens of the phones, the documents among the games are those of
rooms and those of killshots published in rooms. A room has a number of four different digits
and was opened for a hundred players at most; its counter is no more than that, and no further
below zero than the number of its writes. A killshot is one of somebody who has been registered
in its room, or of the text that the label shows at first. -/
theorem games_hold [Canonical] {events : List Event} {final : Handsets}
    (performed : run Handsets.step start events = some final) {id : String}
    {document : Document}
    (found : final.app.world.firestore.lookup (games ++ [id]) = some document) :
    ∃ room ∈ roomNumbers,
      (id = decimal room ∧ ∃ total count,
        document.int? "totalPlayers" = some total ∧ 0 ≤ total ∧ total ≤ 100 ∧
        document.int? "playerCount" = some count ∧
        -(final.app.world.updates room : Int) ≤ count ∧ count ≤ 100) ∨
      (id = decimal room ++ "ks" ∧ ∃ name, document = .fields [("name", .string name)] ∧
        Aimed final.app.world.firestore room name) := by
  have onScreens := onScreens_of_run performed
  have calls := onScreens.stores.calls
  rcases (onScreens.stores.vouched.stored _ _ found).at_games with
    ⟨call, called, game, count, opens, rfl, same⟩ | ⟨call, called, name, publishes, rfl, own⟩
  · rcases (calls call called).opens opens with ⟨numbered, total⟩
    have counted : document.int? "playerCount" = some count := by
      rw [lookup_eq_of_same same, roomFields, Document.int?_fields_tail (by decide),
        Document.int?_fields_head]
    have ranged := (onScreens.stores.bounded game.roomNumber).counter count (by
      rw [counter?, gameRef, found]
      exact counted)
    refine ⟨game.roomNumber, numbered, .inl ⟨rfl, game.playerCount, count, ?_, total.1, total.2,
      counted, ranged⟩⟩
    rw [lookup_eq_of_same same, totalPlayers_roomFields]
  · have aimed := ((calls call called).publishes publishes).1
    rcases Option.isSome_iff_exists.mp (AList.lookup_isSome.mpr aimed.1) with ⟨game, there⟩
    rcases (onScreens.stores.vouched.stored _ _ there).at_gameRef with
      ⟨opening, made, game, _, opens, same, _⟩
    refine ⟨call.2.room, ?_, .inr ⟨rfl, name, own, aimed⟩⟩
    exact same ▸ ((calls opening made).opens opens).1

section Sample

open Ascii

/-- On one phone a room is opened for as many as the label shows at first, and the phone
starts; another joins; the first draws its player and takes a picture. -/
def annShootsBob : List Event :=
  start.play ([some (.openCreate 0), some (.fillIn 0 (.type "ann")),
      some (.fillIn 0 (.pick (some someImage))),
      some (.createRoom 0 0 .keep "noon" (some somePhone))] ++ List.replicate 6 none ++
    [some (.snapshot 0 0), some (.openJoin 0), some (.edit 0 (.type "bob")),
      some (.edit 0 (.number "123")), some (.joinGame 0 1),
      some (.edit 0 (.pick (some someImage))), some (.found 1 (some somePhone))] ++
    List.replicate 5 none ++
    [some (.answered 0 .keep), some (.takePicture 0 2 someImage), none, none])

theorem games_hold_annShootsBob :
    ∃ final, run Handsets.step start annShootsBob = some final ∧
      ∃ room ∈ roomNumbers, "123ks" = decimal room ++ "ks" ∧
        ∃ name, Aimed final.app.world.firestore room name := by
  have ends : (run Handsets.step start annShootsBob).any (fun final =>
      (final.app.world.firestore.lookup (games ++ ["123ks"])).isSome = true) = true := by decide
  rcases run_ends ends with ⟨final, performed, there⟩
  rcases Option.isSome_iff_exists.mp there with ⟨document, found⟩
  rcases games_hold performed found with ⟨room, numbered, ⟨game, _⟩ | ⟨shot, name, _, aimed⟩⟩
  · exact absurd game.symm (decimal_ne_killshotID room 123)
  · exact ⟨final, performed, room, numbered, shot, name, aimed⟩

end Sample

/-- Once nothing is under way, the picture that a judge of the room is sent to by the
published name is there, and somebody has taken it in that room. -/
theorem judges_find_pictures [Canonical] {events : List Event} {final : Handsets}
    (performed : run Handsets.step start events = some final)
    (done : final.app.world.outstanding = []) {judge : TabBarVC} {path : StoragePath}
    (asks : TabBarVC.listenDocument.completion judge (final.app.world.firestore.lookup
      (TabBarVC.killshotRef judge.roomNumber)) = some path) :
    ∃ data, final.app.world.storage.lookup path = some data ∧
      ∃ id shooter img, (id, .imagePickerController shooter img) ∈ final.app.world.calls ∧
        shooter.roomNumber = judge.roomNumber ∧ img.pngData = some data := by
  have onScreens := (onScreens_of_run performed).stores
  rw [TabBarVC.listenDocument_completion] at asks
  rcases Option.map_eq_some_iff.mp asks with ⟨name, read, rfl⟩
  rcases Option.bind_eq_some_iff.mp read with ⟨document, found, named⟩
  rcases (onScreens.vouched.stored _ _ found).at_games with
    ⟨_, _, game, _, _, own, _⟩ | ⟨call, called, other, publishes, own, rfl⟩
  · exact absurd own.symm (decimal_ne_killshotID _ _)
  · have same : other = name := by simpa using named
    have room : judge.roomNumber = call.2.room := decimal_injective (by simpa using own)
    subst same
    rcases ((onScreens.calls call called).publishes publishes).2 with ⟨data, asked⟩
    rw [room]
    have uploaded := onScreens.pursued.pictured _ (onScreens.pursued.performed done called asked)
      _ _ rfl
    rcases Option.isSome_iff_exists.mp (AList.lookup_isSome.mpr uploaded) with ⟨shot, there⟩
    refine ⟨shot, there, ?_⟩
    rcases onScreens.vouched.kept _ _ there with ⟨taking, taken, sent⟩
    rcases (onScreens.calls taking taken).uploads sent with
      ⟨player, photo⟩ | ⟨shooter, img, shoots, png, shotPath⟩
    · exact absurd photo (photoRef_ne_killshotPhotoRef _ _ _ _).symm
    · refine ⟨taking.1, shooter, img, shoots ▸ taken, ?_, png⟩
      exact ownsPicture_unique (ownsPicture_killshotPhotoRef _ _)
        (shotPath ▸ ownsPicture_killshotPhotoRef _ _)

section Sample

open Ascii

theorem judges_find_pictures_annShootsBob :
    ∃ final, run Handsets.step start annShootsBob = some final ∧
      ∃ data, final.app.world.storage.lookup ["123ks", "bob.png"] = some data := by
  have ends : (run Handsets.step start annShootsBob).any (fun final =>
      final.app.world.outstanding = [] ∧
        TabBarVC.listenDocument.completion ⟨123, "bob", "ann"⟩
          (final.app.world.firestore.lookup (TabBarVC.killshotRef 123)) =
            some ["123ks", "bob.png"]) = true := by decide
  rcases run_ends ends with ⟨final, performed, done, asks⟩
  rcases judges_find_pictures performed done asks with ⟨data, there, _⟩
  exact ⟨final, performed, data, there⟩

end Sample

/-- Once nothing is under way, the player of every phone that waits or plays is registered in
the room that the phone shows, with a photo and an entry for the phone. A phone that plays shows
the first text of the label or a player of that room. -/
theorem phones_are_registered [Canonical] {events : List Event} {final : Handsets}
    (performed : run Handsets.step start events = some final)
    (done : final.app.world.outstanding = []) {id : CallId} {client : Client}
    (known : final.app.clients.lookup id = some client) :
    ∃ room, int? client.waiting.roomNumber = some room ∧
      (∃ playerRef, document? (players room) client.waiting.name = some playerRef ∧
        playerRef ∈ final.app.world.firestore) ∧
      photoRef room client.waiting.name ∈ final.app.world.storage ∧
      (∃ operation device player, (id, operation) ∈ final.app.world.calls ∧
        operation.registration = some (some device, player) ∧
        phoneToPlayers room ++ [device.uuidString] ∈ final.app.world.firestore) ∧
      ∀ screen ∈ client.playing, screen.roomNumber = room ∧
        screen.name = client.waiting.name ∧
        Aimed final.app.world.firestore room screen.targetName := by
  have onScreens := onScreens_of_run performed
  have stays : ∀ path, ∀ call ∈ final.app.world.calls, ∀ player,
      call.2.removed = some player →
        document? (players call.2.room) player.name ≠ some path := by
    intro path call called player removed
    cases removed.symm.trans (onScreens.stores.calls call called).keeps
  have pursued := onScreens.stores.pursued
  rcases onScreens.clients id client known with ⟨⟨operation, room, called, reads, enters⟩, playing⟩
  rcases entrant_eq_some.mp enters with ⟨deviceID, player, registers, rfl, registrable, named⟩
  rcases registrable_iff.mp registrable with ⟨⟨playerRef, names⟩, ⟨device, rfl⟩, data, png⟩
  rw [← named]
  refine ⟨operation.room, reads, ⟨playerRef, names, ?_⟩, ?_,
    ⟨operation, device, player, called, registers, ?_⟩, fun screen plays => ?_⟩
  · exact pursued.stored done called (@asked_of_named (id, operation) _ _ _ registers names)
      (stays _)
  · refine pursued.pictured _ (pursued.performed done called ?_) _ data rfl
    rw [requests_of_registration registers, addPlayer_requests_eq, names, png]
    simp
  · exact pursued.stored done called (@asked_of_phone (id, operation) _ _ _ registers names)
      (stays _)
  · rcases playing screen plays with ⟨name, shows, aimed⟩
    have same : screen.roomNumber = operation.room :=
      Option.some.inj (shows.symm.trans reads)
    exact ⟨same, name.trans named.symm, same ▸ aimed⟩

section Sample

open Ascii

theorem phones_are_registered_annShootsBob :
    ∃ final, run Handsets.step start annShootsBob = some final ∧
      ∃ room, int? "123" = some room ∧ photoRef room "bob" ∈ final.app.world.storage := by
  have ends : (run Handsets.step start annShootsBob).any (fun final =>
      final.app.world.outstanding = [] ∧
        final.app.clients.lookup 1 = some ⟨⟨"123", "bob", "_"⟩, none, false⟩) = true := by
    decide
  rcases run_ends ends with ⟨final, performed, done, known⟩
  rcases phones_are_registered performed done known with ⟨room, reads, _, photo, _⟩
  exact ⟨final, performed, room, reads, photo⟩

end Sample

end Handsets

end AssassinGame
