import AssassinGame.Rooms.Object
import AssassinGame.Rooms.Schema

/-! # When waiting phones can start

A phone that waits for a room starts when its listener is shown the counter at zero. What is
stored now lets either all phones of a room start or none.
-/

namespace AssassinGame

open AssassinGame.Action Transition World Segments

/-- The waiting screen of the phone listens to the document of the room, and no game screen has
been shown. -/
def Client.WaitsFor (room : Int) (client : Client) : Prop :=
  client.waiting.roomNumber = decimal room ∧ client.playing = none

instance (room : Int) (client : Client) : Decidable (client.WaitsFor room) :=
  inferInstanceAs (Decidable (_ ∧ _))

def Client.started (room : Int) (client : Client) : Client where
  waiting := { client.waiting with numPlayersNeeded := "0" }
  playing := some ⟨room, client.waiting.name, TabBarVC.placeholder⟩
  answered := false

namespace App

/-- Listeners of phones are shown their documents as they are now. -/
def refreshes (ids : List CallId) : List Activity :=
  ids.map fun id => .screen (.snapshot id 0)

def waiters (room : Int) (app : App) : List CallId :=
  app.clients.keys.filter fun id =>
    (app.clients.lookup id).any fun client => client.WaitsFor room

/-- The documents as they are now are the first of the documents as they have been. -/
structure Fresh (app : App) : Prop where
  typed : app.Typed
  present : app.past.head? = some app.world.firestore

variable {app next final : App} {room : Int} {id : CallId} {client : Client}

theorem mem_waiters : id ∈ app.waiters room ↔
    ∃ client, app.clients.lookup id = some client ∧ client.WaitsFor room := by
  rw [waiters, List.mem_filter, Option.any_eq_true, AList.mem_keys.symm, ← AList.lookup_isSome]
  simp only [decide_eq_true_eq]
  constructor
  · exact fun both => both.2
  · intro ⟨client, known, waits⟩
    exact ⟨known ▸ rfl, client, known, waits⟩

@[simp] theorem shown_world (app : App) (id : CallId) (client : Client)
    (snapshot : Option Document) : (app.shown id client snapshot).world = app.world := by
  unfold shown
  split
  · rfl
  · rfl
  · split <;> rfl

theorem lookup_shown_of_ne {other : CallId} (different : other ≠ id) (app : App)
    (client : Client) (snapshot : Option Document) :
    (app.shown id client snapshot).clients.lookup other = app.clients.lookup other := by
  unfold shown
  split
  · exact AList.lookup_erase_ne different
  · exact AList.lookup_insert_ne different
  · split
    · exact AList.lookup_erase_ne different
    · exact AList.lookup_insert_ne different

namespace Fresh

theorem start : Fresh App.start where
  typed := .start
  present := rfl

theorem act [Canonical] (fresh : app.Fresh) {activity : Activity}
    (acted : app.act activity = some next) : next.Fresh := by
  refine ⟨fresh.typed.act acted, ?_⟩
  have called : ∀ {id operation world}, app.world.step (.call id operation) = some world →
      world.firestore = app.world.firestore := by
    intro id operation world stepped
    rw [(step_call.mp stepped).2]
    rfl
  cases activity with
  | call id operation =>
      rcases Option.map_eq_some_iff.mp acted with ⟨world, stepped, rfl⟩
      exact fresh.present.trans (congrArg some (called stepped).symm)
  | screen event =>
      cases effect_of_step acted with
      | entered _ _ _ stepped past =>
          rw [past, called stepped]
          exact fresh.present
      | performed _ past =>
          rw [past]
          rfl
      | listened =>
          unfold App.shown
          split
          · exact fresh.present
          · exact fresh.present
          · split <;> exact fresh.present
      | answered => exact fresh.present
      | waited world past =>
          rw [past, world]
          exact fresh.present

theorem run [Canonical] {activities : List Activity}
    (performed : Transition.run App.act App.start activities = some final) : final.Fresh :=
  run_keeps App.Fresh (fun fresh acted => fresh.act acted) .start performed

theorem snapshot [Canonical] (fresh : app.Fresh) (known : app.clients.lookup id = some client)
    (own : client.waiting.roomNumber = decimal room) :
    app.act (.screen (.snapshot id 0)) =
      some (app.shown id client (app.world.firestore.lookup (gameRef room))) := by
  have listens : client.waiting.listenDocument.result = some (gameRef room) := by
    rw [WaitingVC.listenDocument, own]
    exact document?_plain (plain_decimal room) (by decide)
  have present : app.past[0]? = some app.world.firestore :=
    List.head?_eq_getElem?.symm.trans fresh.present
  change (app.clients.lookup id).bind _ = _
  rw [known, Option.bind_some, listens]
  change (app.past[0]?).bind _ = _
  rw [present]
  rfl

theorem reads_room (fresh : app.Fresh) (known : app.clients.lookup id = some client)
    (own : client.waiting.roomNumber = decimal room) : int? (decimal room) = some room := by
  have numbered := fresh.typed.numbered id client known
  rw [own] at numbered
  rcases Option.isSome_iff_exists.mp numbered with ⟨read, number⟩
  rw [number, eq_of_parse_decimal number]

theorem shown_zero (fresh : app.Fresh) (known : app.clients.lookup id = some client)
    (own : client.waiting.roomNumber = decimal room)
    (zero : counter? room app.world.firestore = some 0) :
    app.shown id client (app.world.firestore.lookup (gameRef room)) =
      { app with clients := app.clients.insert id (client.started room) } := by
  rcases Option.bind_eq_some_iff.mp zero with ⟨data, found, counted⟩
  have starts := (@WaitingVC.completion_starts client.waiting _ _).mpr
    ⟨data, found, counted, rfl⟩
  have prepared : WaitingVC.prepare { client.waiting with numPlayersNeeded := "0" } =
      some ⟨room, client.waiting.name, TabBarVC.placeholder⟩ := by
    change (int? client.waiting.roomNumber).bind _ = _
    rw [own, fresh.reads_room known own]
    rfl
  simp only [App.shown, starts, prepared]
  rfl

theorem shown_other (fresh : app.Fresh) (waits : client.WaitsFor room)
    (other : counter? room app.world.firestore ≠ some 0) :
    ∃ later : Client, later.WaitsFor room ∧ later.waiting.name = client.waiting.name ∧
      app.shown id client (app.world.firestore.lookup (gameRef room)) =
        { app with clients := app.clients.insert id later } := by
  cases ran : WaitingVC.listenDocument.completion client.waiting
      (app.world.firestore.lookup (gameRef room)) with
  | none =>
      -- the cast of the count does not fail
      cases found : app.world.firestore.lookup (gameRef room) with
      | none =>
          rw [found] at ran
          cases ran
      | some data =>
          rcases Option.isSome_iff_exists.mp (fresh.typed.schema.counted found).1 with
            ⟨count, counted⟩
          rw [found] at ran
          simp [WaitingVC.listenDocument.completion, counted] at ran
  | some result =>
      rcases result with ⟨waiting, starts⟩
      rcases WaitingVC.completion_keeps ran with ⟨sameRoom, sameName⟩
      cases starts with
      | false =>
          refine ⟨{ client with waiting := waiting }, ⟨sameRoom.trans waits.1, waits.2⟩,
            sameName, ?_⟩
          simp only [App.shown, ran]
      | true =>
          rcases WaitingVC.completion_starts.mp ran with ⟨data, found, zero, _⟩
          refine absurd ?_ other
          rw [counter?, found]
          exact zero

theorem run_zero [Canonical] (fresh : app.Fresh)
    (zero : counter? room app.world.firestore = some 0) {ids : List CallId} (nodup : ids.Nodup)
    (waiting : ∀ id ∈ ids, ∃ client, app.clients.lookup id = some client ∧
      client.waiting.roomNumber = decimal room) :
    ∃ final, Transition.run App.act app (refreshes ids) = some final ∧
      final.world = app.world ∧ ∀ id client, app.clients.lookup id = some client →
        final.clients.lookup id = some (if id ∈ ids then client.started room else client) := by
  induction ids generalizing app with
  | nil => exact ⟨app, rfl, rfl, fun id client known => by simpa using known⟩
  | cons first ids induction =>
      rcases List.nodup_cons.mp nodup with ⟨apart, nodup⟩
      rcases List.forall_mem_cons.mp waiting with ⟨⟨client, known, own⟩, others⟩
      have acted := fresh.snapshot known own
      rw [fresh.shown_zero known own zero] at acted
      have kept : ∀ id, id ≠ first → (app.clients.insert first (client.started room)).lookup id =
          app.clients.lookup id := fun id other => AList.lookup_insert_ne other
      rcases induction (fresh.act acted) zero nodup (fun id member => by
          rw [kept id fun same => apart (same ▸ member)]
          exact others id member) with ⟨final, performed, same, started⟩
      refine ⟨final, run_cons_eq_some.mpr ⟨_, acted, performed⟩, same, fun id other there => ?_⟩
      by_cases own : id = first
      · subst own
        cases known.symm.trans there
        have last := started id (client.started room) (AList.lookup_insert _)
        rw [if_neg apart] at last
        simpa using last
      · have last := started id other ((kept id own).trans there)
        simpa [own] using last

theorem run_other [Canonical] (fresh : app.Fresh)
    (other : counter? room app.world.firestore ≠ some 0) {ids : List CallId}
    (performed : Transition.run App.act app (refreshes ids) = some final)
    (known : app.clients.lookup id = some client) (waits : client.WaitsFor room) :
    ∃ later, final.clients.lookup id = some later ∧ later.WaitsFor room ∧
      later.waiting.name = client.waiting.name := by
  induction ids generalizing app client with
  | nil =>
      cases performed
      exact ⟨client, known, waits, rfl⟩
  | cons first ids induction =>
      rcases run_cons_eq_some.mp performed with ⟨next, acted, rest⟩
      rcases Option.bind_eq_some_iff.mp acted with ⟨shown, there, listened⟩
      rcases Option.bind_eq_some_iff.mp listened with ⟨path, _, last⟩
      rcases Option.bind_eq_some_iff.mp last with ⟨store, _, same⟩
      have reached : ∃ later, next.clients.lookup id = some later ∧ later.WaitsFor room ∧
          later.waiting.name = client.waiting.name := by
        by_cases own : id = first
        · subst own
          rcases @shown_other _ _ id _ fresh waits other with ⟨later, waitsOn, named, shows⟩
          rw [fresh.snapshot known waits.1, shows] at acted
          cases acted
          exact ⟨later, AList.lookup_insert _, waitsOn, named⟩
        · cases same
          exact ⟨client, (lookup_shown_of_ne own _ _ _).trans known, waits, rfl⟩
      rcases reached with ⟨later, now, waitsOn, named⟩
      have unchanged : counter? room next.world.firestore ≠ some 0 := by
        cases same
        rwa [shown_world]
      rcases induction (fresh.act acted) unchanged rest now waitsOn with
        ⟨latest, ends, waitsStill, sameName⟩
      exact ⟨latest, ends, waitsStill, sameName.trans named⟩

theorem start_waiters [Canonical] (fresh : app.Fresh)
    (zero : counter? room app.world.firestore = some 0) :
    ∃ final, Transition.run App.act app (refreshes (app.waiters room)) = some final ∧
      final.world = app.world ∧ ∀ id client, app.clients.lookup id = some client →
        final.clients.lookup id =
          some (if client.WaitsFor room then client.started room else client) := by
  have waiting : ∀ id ∈ app.waiters room, ∃ client, app.clients.lookup id = some client ∧
      client.waiting.roomNumber = decimal room := by
    intro id member
    rcases mem_waiters.mp member with ⟨client, known, waits⟩
    exact ⟨client, known, waits.1⟩
  have nodup : (app.waiters room).Nodup := app.clients.keys_nodup.filter _
  rcases fresh.run_zero zero nodup waiting with ⟨final, shown, same, started⟩
  refine ⟨final, shown, same, fun id client known => (started id client known).trans ?_⟩
  by_cases waits : client.WaitsFor room
  · rw [if_pos waits, if_pos (mem_waiters.mpr ⟨client, known, waits⟩)]
  · rw [if_neg waits, if_neg]
    intro member
    rcases mem_waiters.mp member with ⟨other, there, waitsOn⟩
    exact waits (Option.some.inj (known.symm.trans there) ▸ waitsOn)

end Fresh

/-- In every reachable state, showing phones what is stored now lets all phones that wait for
the room start, and disturbs no other, if the counter is zero; and lets none of them start if
it is not. -/
theorem waiting_phones_start_together [Canonical] {activities : List Activity} {app : App}
    (performed : Transition.run App.act App.start activities = some app) (room : Int) :
    (counter? room app.world.firestore = some 0 →
      ∃ final, Transition.run App.act app (refreshes (app.waiters room)) = some final ∧
        final.world = app.world ∧ ∀ id client, app.clients.lookup id = some client →
          final.clients.lookup id =
            some (if client.WaitsFor room then client.started room else client)) ∧
    (counter? room app.world.firestore ≠ some 0 →
      ∀ ids final, Transition.run App.act app (refreshes ids) = some final →
        ∀ id client, app.clients.lookup id = some client → client.WaitsFor room →
          ∃ later, final.clients.lookup id = some later ∧ later.WaitsFor room ∧
            later.waiting.name = client.waiting.name) := by
  have fresh : app.Fresh := .run performed
  exact ⟨fun zero => fresh.start_waiters zero, fun other ids final shown id client known waits =>
    fresh.run_other other shown known waits⟩

section Sample

open Ascii

def bothWait : List Activity :=
  App.start.play ([some (.screen (.createRoom 0 ⟨some someImage, "2", "ann"⟩ .keep "noon"
    (some somePhone)))] ++ List.replicate 6 none ++
    [some (.screen (.joinGame 1 (joinScreen "bob"))),
      some (.screen (.found 1 (joinScreen "bob") (some somePhone)))] ++
    List.replicate 5 none)

theorem waiting_phones_start_together_bothWait :
    ∃ app final, Transition.run App.act App.start bothWait = some app ∧
      Transition.run App.act app (refreshes (app.waiters 123)) = some final ∧
      final.clients.lookup 1 =
        some ⟨⟨"123", "bob", "0"⟩, some ⟨123, "bob", TabBarVC.placeholder⟩, false⟩ := by
  have ends : (Transition.run App.act App.start bothWait).any (fun app =>
      counter? 123 app.world.firestore = some 0 ∧
        app.clients.lookup 1 = some ⟨⟨"123", "bob", "_"⟩, none, false⟩) = true := by decide
  rcases run_ends ends with ⟨app, performed, zero, known⟩
  rcases (waiting_phones_start_together performed 123).1 zero with ⟨final, shown, _, started⟩
  exact ⟨app, final, performed, shown, (started 1 _ known).trans (by decide)⟩

end Sample

end App

/-! ## Rooms whose calls are made in turn -/

/-- The operation enters a player into the room, running to its end. -/
def Operation.enters (room : Int) (operation : Operation) : Bool :=
  (operation.entrant room).isSome

def Operation.leaves (room : Int) (operation : Operation) : Bool :=
  decide (operation.room = room) &&
    operation.removed.any fun player => (document? (players room) player.name).isSome

namespace Room

variable {room : Int} {operation : Operation} {self : Room}

theorem enters_of_registration {deviceID : Option UUID} {player : Player}
    (registers : operation.registration = some (deviceID, player)) (own : operation.room = room) :
    operation.enters room = decide (Registrable deviceID room player) := by
  rw [Operation.enters, Operation.entrant, registers, Option.bind_some]
  by_cases registrable : Registrable deviceID room player <;> simp [own, registrable]

theorem enters_of_no_registration (none' : operation.registration = none) :
    operation.enters room = false := by
  rw [Operation.enters, Operation.entrant, none']
  rfl

theorem playerCount_opened {game : Game} (opened : operation.opened = some game) :
    (self.after game.roomNumber operation).playerCount =
      some (game.playerCount - if operation.enters game.roomNumber then 1 else 0) := by
  have own := (roomNumber_of_opened opened).symm
  unfold after
  rw [if_pos own]
  cases operation with
  | addGame given =>
      cases opened
      rw [enters_of_no_registration rfl]
      simp [Room.opened]
  | createRoom screen roomNumber date deviceID =>
      simp only [Operation.opened] at opened
      split at opened
      · rename_i playerCount image counted pictured
        cases opened
        have registers : (Operation.createRoom screen roomNumber date deviceID).registration =
            some (deviceID, Player.init screen.nameField image) := by
          simp [Operation.registration, counted, pictured]
        rw [enters_of_registration registers own]
        simp only [counted, pictured, entered, Room.opened, Game.init]
        by_cases registrable : Registrable deviceID roomNumber
            (Player.init screen.nameField image) <;> simp [registrable]
      · cases opened
  | addPlayer | removePlayer | addKillshot | uploadKillshotPic | uploadKillshotName
  | imagePickerController => cases opened

theorem playerCount_after (unopened : operation.room = room → operation.opened = none) :
    (self.after room operation).playerCount = self.playerCount.map fun count =>
      count - (if operation.enters room then 1 else 0) +
        if operation.leaves room then 1 else 0 := by
  have still : ∀ {operation : Operation}, operation.enters room = false →
      operation.leaves room = false →
      (self.playerCount.map fun count => count - (if operation.enters room then 1 else 0) +
        if operation.leaves room then 1 else 0) = self.playerCount := by
    intro operation enters leaves
    simp [enters, leaves]
  unfold after
  by_cases own : operation.room = room
  · rw [if_pos own]
    have leaves : operation.removed = none → operation.leaves room = false := fun stays => by
      simp [Operation.leaves, stays]
    cases operation with
    | addGame => cases unopened own
    | addPlayer deviceID roomNumber player =>
        rw [enters_of_registration rfl own, leaves rfl]
        by_cases registrable : Registrable deviceID room player <;> simp [entered, registrable]
    | removePlayer roomNumber player =>
        rw [enters_of_no_registration rfl]
        cases named : document? (players room) player.name <;>
          simp [left, Operation.leaves, Operation.removed, own, named]
    | createRoom screen roomNumber date deviceID =>
        have unopened := unopened own
        cases counted : int? screen.numOfPlayers with
        | none =>
            simp only [counted]
            refine (still (enters_of_no_registration ?_) (leaves rfl)).symm
            simp [Operation.registration, counted]
        | some playerCount =>
            cases pictured : screen.imageToUpload with
            | none =>
                simp only [counted, pictured]
                refine (still (enters_of_no_registration ?_) (leaves rfl)).symm
                simp [Operation.registration, counted, pictured]
            | some image => simp [Operation.opened, counted, pictured] at unopened
    | addKillshot | uploadKillshotPic | uploadKillshotName | imagePickerController =>
        exact (still (enters_of_no_registration rfl) (leaves rfl)).symm
  · rw [if_neg own]
    refine (still ?_ ?_).symm
    · rw [Operation.enters, Option.isSome_eq_false_iff, Option.isNone_iff_eq_none]
      by_contra some'
      rcases Option.ne_none_iff_exists'.mp some' with ⟨name, enters⟩
      rcases entrant_eq_some.mp enters with ⟨_, _, _, here, _⟩
      exact own here
    · simp [Operation.leaves, own]

/-- Since a room was opened, its counter has been lowered by those who have entered and raised
by those who have left. -/
theorem playerCount_afterAll {game : Game} {opening : CallId × Operation}
    (opened : opening.2.opened = some game) {later : List (CallId × Operation)}
    (once : ∀ call ∈ later, call.2.room = game.roomNumber → call.2.opened = none)
    (earlier : List (CallId × Operation)) (self : Room) :
    (afterAll game.roomNumber (later ++ opening :: earlier) self).playerCount =
      some (game.playerCount -
        ((later ++ [opening]).countP fun call => call.2.enters game.roomNumber) +
        later.countP fun call => call.2.leaves game.roomNumber) := by
  induction later with
  | nil =>
      rw [List.nil_append, afterAll, List.foldr_cons, playerCount_opened opened]
      split <;> simp_all
  | cons call later induction =>
      rcases List.forall_mem_cons.mp once with ⟨first, rest⟩
      rw [List.cons_append, afterAll, List.foldr_cons, playerCount_after first]
      have before := induction rest
      rw [afterAll] at before
      rw [before, Option.map_some, Option.some.injEq, List.cons_append, List.countP_cons,
        List.countP_cons]
      push_cast
      omega

end Room

namespace App

variable {app next : App}

def InTurn (app : App) : Activity → Prop
  | .screen (.createRoom _ _ _ _ _) | .screen (.found _ _ _) | .call _ _ =>
      app.world.outstanding = []
  | .screen (.joinGame _ _) | .screen (.perform _ _) | .screen (.snapshot _ _)
  | .screen (.answered _ _) => True

instance (app : App) : ∀ activity, Decidable (app.InTurn activity)
  | .screen (.createRoom _ _ _ _ _) | .screen (.found _ _ _) | .call _ _ =>
      inferInstanceAs (Decidable (_ = _))
  | .screen (.joinGame _ _) | .screen (.perform _ _) | .screen (.snapshot _ _)
  | .screen (.answered _ _) => inferInstanceAs (Decidable True)

theorem world_of_act [Canonical] {activity : Activity} (turn : app.InTurn activity)
    (acted : app.act activity = some next) :
    next.world = app.world ∨
      ∃ event, app.world.InTurn event ∧ app.world.step event = some next.world := by
  cases activity with
  | call id operation =>
      rcases Option.map_eq_some_iff.mp acted with ⟨world, called, rfl⟩
      exact .inr ⟨.call id operation, turn, called⟩
  | screen event =>
      change app.step event = some next at acted
      cases event with
      | createRoom id screen shuffled date deviceID =>
          rcases Option.map_eq_some_iff.mp acted with ⟨world, called, rfl⟩
          exact .inr ⟨.call id _, turn, called⟩
      | joinGame id screen =>
          simp only [step] at acted
          split at acted
          · cases acted
            exact .inl rfl
          · cases acted
            exact .inl rfl
      | found id screen deviceID =>
          simp only [step] at acted
          split at acted
          · cases acted
          · split at acted
            · split at acted
              · cases acted
                exact .inl rfl
              · rcases Option.map_eq_some_iff.mp acted with ⟨world, called, rfl⟩
                exact .inr ⟨.call id _, turn, called⟩
            · cases acted
              exact .inl rfl
      | perform pending killerTarget =>
          rcases Option.map_eq_some_iff.mp acted with ⟨world, done, rfl⟩
          exact .inr ⟨.perform pending killerTarget, trivial, done⟩
      | snapshot id age =>
          rcases Option.bind_eq_some_iff.mp acted with ⟨client, _, rest⟩
          rcases Option.bind_eq_some_iff.mp rest with ⟨path, _, last⟩
          rcases Option.bind_eq_some_iff.mp last with ⟨store, _, same⟩
          cases same
          exact .inl (shown_world _ _ _ _)
      | answered id shuffle =>
          rcases Option.bind_eq_some_iff.mp acted with ⟨client, _, rest⟩
          rcases Option.bind_eq_some_iff.mp rest with ⟨screen, _, same⟩
          cases same
          exact .inl rfl

theorem counter?_in_turn [Canonical] {activities : List Activity}
    (inTurn : Meets App.act App.InTurn App.start activities)
    (performed : Transition.run App.act App.start activities = some app)
    (done : app.world.outstanding = []) (room : Int) :
    counter? room app.world.firestore =
      (Room.afterAll room app.world.calls (Room.of room ∅)).playerCount := by
  rcases @run_follows _ _ App.act App.InTurn _ _ World.step World.InTurn App.world
    world_of_act _ _ _ inTurn performed with ⟨events, meets, followed⟩
  exact congrArg Room.playerCount ((Room.heading_run meets followed room).arrived done)

/-- Let a room be opened, and let calls be made in turn. Once all is done, the phones that wait
for the room can all start if as many players have entered since as it was opened for and as
have left, and none of them can if not. -/
theorem rooms_start_when_full [Canonical] {activities : List Activity}
    (inTurn : Meets App.act App.InTurn App.start activities)
    (performed : Transition.run App.act App.start activities = some app)
    (done : app.world.outstanding = []) {later earlier : List (CallId × Operation)}
    {opening : CallId × Operation} {game : Game}
    (made : app.world.calls = later ++ opening :: earlier)
    (opened : opening.2.opened = some game)
    (once : ∀ call ∈ later, call.2.room = game.roomNumber → call.2.opened = none) :
    (((later ++ [opening]).countP fun call => call.2.enters game.roomNumber : Int) =
        game.playerCount + later.countP (fun call => call.2.leaves game.roomNumber) →
      ∃ final, Transition.run App.act app (refreshes (app.waiters game.roomNumber)) = some final ∧
        ∀ id client, app.clients.lookup id = some client → client.WaitsFor game.roomNumber →
          final.clients.lookup id = some (client.started game.roomNumber)) ∧
    (((later ++ [opening]).countP fun call => call.2.enters game.roomNumber : Int) ≠
        game.playerCount + later.countP (fun call => call.2.leaves game.roomNumber) →
      ∀ ids final, Transition.run App.act app (refreshes ids) = some final →
        ∀ id client, app.clients.lookup id = some client → client.WaitsFor game.roomNumber →
          ∃ later, final.clients.lookup id = some later ∧ later.WaitsFor game.roomNumber) := by
  have fresh : app.Fresh := .run performed
  have counted := counter?_in_turn inTurn performed done game.roomNumber
  rw [made, Room.playerCount_afterAll opened once] at counted
  constructor
  · intro full
    rcases @Fresh.start_waiters app game.roomNumber _ fresh (by
        rw [counted, Option.some.injEq]
        omega) with ⟨final, shown, _, started⟩
    refine ⟨final, shown, fun id client known waits => ?_⟩
    rw [started id client known, if_pos waits]
  · intro other ids final shown id client known waits
    have unlike : counter? game.roomNumber app.world.firestore ≠ some 0 := by
      rw [counted, Ne, Option.some.injEq]
      omega
    rcases fresh.run_other unlike shown known waits with ⟨later, there, waitsOn, _⟩
    exact ⟨later, there, waitsOn⟩

section Sample

open Ascii

theorem rooms_start_when_full_bothWait :
    ∃ app final, Transition.run App.act App.start bothWait = some app ∧
      Transition.run App.act app (refreshes (app.waiters 123)) = some final := by
  have ends : (Transition.run App.act App.start bothWait).any (fun app =>
      app.world.outstanding = [] ∧ app.world.calls = [(1, join 123 "bob")] ++
        (0, .createRoom ⟨some someImage, "2", "ann"⟩ 123 "noon" (some somePhone)) :: []) =
          true := by decide
  rcases run_ends ends with ⟨app, performed, done, made⟩
  rcases (@rooms_start_when_full app _ bothWait (by decide) performed done _ _ _
      (Game.init 123 2 "noon") made (by decide) (by decide)).1 (by decide) with
    ⟨final, shown, _⟩
  exact ⟨app, final, performed, shown⟩

end Sample

end App

end AssassinGame
