import AssassinGame.App
import AssassinGame.Rooms.Entrants

/-! # Opponents of started clients

A client that has seen the counter at zero knows that as many calls have run to their
end as the room was opened for. When no name has that many entrants and every name is
its own document, the client's query finds somebody else.
-/

namespace AssassinGame

open AssassinGame.Action Transition World Segments

/-- The calls that enter a player of the room whose name is the same text. -/
def World.namesakes [Canonical] (room : Int) (name : String) (world : World) : Nat :=
  world.calls.countP fun call => (call.2.entrant room).any fun other => SameText other name

theorem World.namesakes_congr [Canonical] {left right : String} (same : SameText left right)
    (room : Int) (world : World) : world.namesakes room left = world.namesakes room right := by
  have alike (other : String) : SameText other left ↔ SameText other right :=
    ⟨fun first => first.trans same, fun second => second.trans same.symm⟩
  simp only [World.namesakes, alike]

/-- The operation opens the room for no fewer than `least` players, and a player that
it enters is called by a single segment and is one of fewer than `least` entrants of
that name. -/
def Operation.Proper [Canonical] (room : Int) (least : Nat) (world : World)
    (operation : Operation) : Prop :=
  (operation.room = room → ∀ game ∈ operation.opened, (least : Int) ≤ game.playerCount) ∧
    ∀ name ∈ operation.entrant room, Plain name ∧ world.namesakes room name + 1 < least

instance [Canonical] (room : Int) (least : Nat) (world : World) (operation : Operation) :
    Decidable (operation.Proper room least world) :=
  inferInstanceAs (Decidable ((_ → ∀ game ∈ operation.opened, _) ∧
    ∀ name ∈ operation.entrant room, _))

namespace App

def Proper [Canonical] (room : Int) (least : Nat) (app : App) : Event → Prop
  | .createRoom _ screen shuffled date deviceID =>
      (Operation.createRoom screen (generateRoomNumber shuffled) date deviceID).Proper room
        least app.world
  | .found id screen deviceID => app.Finds id →
      ∀ operation ∈ screen.operation? deviceID, operation.Proper room least app.world
  | _ => True

instance [Canonical] (room : Int) (least : Nat) (app : App) :
    ∀ event, Decidable (Proper room least app event)
  | .createRoom _ screen shuffled date deviceID => inferInstanceAs (Decidable
      ((Operation.createRoom screen (generateRoomNumber shuffled) date deviceID).Proper room
        least app.world))
  | .found id screen deviceID => inferInstanceAs (Decidable (app.Finds id →
      ∀ operation ∈ screen.operation? deviceID, operation.Proper room least app.world))
  | .joinGame _ _ | .perform _ _ | .snapshot _ _ | .answered _ _ =>
      inferInstanceAs (Decidable True)

end App

/-- The name is the identifier of a player's document in the room, registered by
another call. -/
structure Opponent (room : Int) (world : World) (id : CallId) (target : String) : Prop where
  registered : players room ++ [target] ∈ world.firestore
  other : ∃ call ∈ world.calls, call.1 ≠ id ∧ call.2.adds room target = true

/-! ## What the screens pass on -/

/-- The operation is made by a screen that goes on to this waiting screen. -/
structure Operation.Leads (operation : Operation) (screen : WaitingVC) : Prop where
  lowers : operation.change = -1
  numbered : operation.opened ≠ none → int? (decimal operation.room) = some operation.room
  roomNumber : int? screen.roomNumber = some operation.room
  name : ∀ registration ∈ operation.registration, registration.2.name = screen.name

theorem leads_createRoom (screen : CreateGameVC) (shuffled : Shuffle Nat) (date : String)
    (deviceID : Option UUID) :
    (Operation.createRoom screen (generateRoomNumber shuffled) date deviceID).Leads
      (.prepared (decimal (generateRoomNumber shuffled)) screen.nameField) := by
  rcases generateRoomNumber_bounds shuffled with ⟨above, below⟩
  have reads := @int?_decimal (generateRoomNumber shuffled) (by omega) (by omega)
  refine ⟨rfl, fun _ => reads, reads, ?_⟩
  intro registration registers
  simp only [Operation.registration] at registers
  split at registers
  · cases registers
    rfl
  · cases registers

theorem leads_joinGame {screen : JoinGameVC} {deviceID : Option UUID} {operation : Operation}
    (joins : screen.operation? deviceID = some operation) :
    operation.Leads (.prepared screen.roomNumberInput screen.nameInput) := by
  rcases Option.bind_eq_some_iff.mp joins with ⟨image, _, rest⟩
  rcases Option.bind_eq_some_iff.mp rest with ⟨roomNumber, number, same⟩
  cases same
  refine ⟨rfl, fun opens => absurd rfl opens, number, ?_⟩
  intro registration registers
  cases registers
  rfl

theorem Operation.Leads.keeps {operation : Operation} {screen : WaitingVC}
    (leads : operation.Leads screen) : operation.removed = none := by
  have lowers := leads.lowers
  cases operation with
  | removePlayer => cases lowers
  | _ => rfl

theorem Operation.Leads.entrant {operation : Operation} {screen : WaitingVC}
    (leads : operation.Leads screen) (ended : operation.action.result = some ()) :
    operation.entrant operation.room = some screen.name := by
  rcases entrant_of_result leads.lowers ended with ⟨name, enters⟩
  rcases entrant_eq_some.mp enters with ⟨deviceID, player, registers, _, _, named⟩
  rw [enters, ← named, leads.name _ registers]

/-! ## What an event does -/

namespace App

/-- What an event can do: make the call that registers a player, perform a request, run
the listener of a phone, answer its query, or none of these. -/
inductive Effect [Canonical] (app : App) : Event → App → Prop
  | entered {event : Event} {next : App} {id : CallId} {operation : Operation}
      (screen : WaitingVC) : operation.Leads screen →
      (∀ room least, app.Proper room least event → operation.Proper room least app.world) →
      app.world.step (.call id operation) = some next.world → next.past = app.past →
      next.clients = (if operation.action.result = some () then
          app.clients.insert id ⟨screen, none, false⟩
        else app.clients) → Effect app event next
  | performed {next : App} {pending : Pending} {killerTarget : Option Player} :
      app.world.step (.perform pending killerTarget) = some next.world →
      next.past = next.world.firestore :: app.past → next.clients = app.clients →
      Effect app (.perform pending killerTarget) next
  | listened {id : CallId} {age : Nat} {client : Client} {path : ResourcePath}
      {store : Firestore} : app.clients.lookup id = some client →
      client.waiting.listenDocument.result = some path → app.past[age]? = some store →
      Effect app (.snapshot id age) (app.shown id client (store.lookup path))
  | answered {id : CallId} {shuffle : Shuffle String} {client : Client} {screen : TabBarVC} :
      app.clients.lookup id = some client → client.playing = some screen →
      Effect app (.answered id shuffle) { app with
        clients := app.clients.insert id { client with
          playing := some (TabBarVC.assignTarget.completion screen shuffle
            (app.world.firestore.getDocuments (players screen.roomNumber))).1
          answered := true } }
  | waited {event : Event} {next : App} : next.world = app.world → next.past = app.past →
      next.clients = app.clients → Effect app event next

theorem effect_of_step [Canonical] {app next : App} {event : Event}
    (stepped : app.step event = some next) : Effect app event next := by
  cases event with
  | createRoom id screen shuffled date deviceID =>
      rcases Option.map_eq_some_iff.mp stepped with ⟨world, called, rfl⟩
      exact .entered _ (leads_createRoom screen shuffled date deviceID)
        (fun _ _ proper => proper) called rfl rfl
  | joinGame id screen =>
      simp only [step] at stepped
      split at stepped
      · cases stepped
        exact .waited rfl rfl rfl
      · cases stepped
        exact .waited rfl rfl rfl
  | found id screen deviceID =>
      simp only [step] at stepped
      split at stepped
      · cases stepped
      · split at stepped
        · rename_i finds
          split at stepped
          · cases stepped
            exact .waited rfl rfl rfl
          · rename_i operation joins
            rcases Option.map_eq_some_iff.mp stepped with ⟨world, called, rfl⟩
            exact .entered _ (leads_joinGame joins)
              (fun _ _ proper => proper finds operation joins) called rfl rfl
        · cases stepped
          exact .waited rfl rfl rfl
  | perform pending killerTarget =>
      rcases Option.map_eq_some_iff.mp stepped with ⟨world, done, rfl⟩
      exact .performed done rfl rfl
  | snapshot id age =>
      rcases Option.bind_eq_some_iff.mp stepped with ⟨client, known, rest⟩
      rcases Option.bind_eq_some_iff.mp rest with ⟨path, listens, last⟩
      rcases Option.bind_eq_some_iff.mp last with ⟨store, kept, same⟩
      cases same
      exact .listened known listens kept
  | answered id shuffle =>
      rcases Option.bind_eq_some_iff.mp stepped with ⟨client, known, rest⟩
      rcases Option.bind_eq_some_iff.mp rest with ⟨screen, plays, same⟩
      cases same
      exact .answered known plays

end App

/-! ## What lasts -/

/-- The counter of a room opened for no fewer than `least` players lies no further below
that than its completed writes. -/
def AtLeast (least updates : Nat) (count : Int) : Prop := (least : Int) - updates ≤ count

theorem lasting_atLeast (least : Nat) : Lasting (AtLeast least) where
  weaken := by
    intro updates count above
    unfold AtLeast at above ⊢
    push_cast
    omega
  lower := by
    intro updates count above
    unfold AtLeast at above ⊢
    push_cast
    omega

theorem Operation.Proper.within [Canonical] {room : Int} {least : Nat} {world : World}
    {operation : Operation} (proper : operation.Proper room least world)
    (keeps : operation.removed = none) : operation.Within room (AtLeast least) := by
  intro own
  refine ⟨keeps, fun game opened updates => ?_⟩
  have enough := proper.1 own game opened
  unfold AtLeast
  omega

theorem game_of_mem_applyTo {pending : Pending}
    (issued : Issued pending.operation pending.request)
    (lowers : pending.operation.change = -1) {text : String} {store : Firestore}
    (member : games ++ [text] ∈ pending.applyTo store) :
    games ++ [text] ∈ store ∨
      (text = decimal pending.operation.room ∧ pending.operation.opened ≠ none) := by
  rcases pending with ⟨call, operation, request⟩
  rcases issued with asked | answered
  · change Asked operation request at asked
    cases asked with
    | opens opened =>
        rcases mem_setData.mp member with same | old
        · exact .inr ⟨by simpa [gameRef] using same, by simp [opened]⟩
        · exact .inl old
    | registers registered named =>
        rcases mem_setData.mp member with same | old
        · have length := congrArg List.length (same.trans (document?_eq_some named))
          simp [players, gameRef, games] at length
        · exact .inl old
    | phones device registered =>
        rcases mem_setData.mp member with same | old
        · exact absurd same.symm (below_ne_game _ _ _ _)
        · exact .inl old
    | removes => exact .inl (AList.mem_erase.mp member).2
    | reads | uploads => exact .inl member
    | publishes data unchanged => cases unchanged.symm.trans lowers
  · change Answered operation request at answered
    cases answered with
    | counts => exact .inl (Write.mem_updateData.mp member)
    | files data unchanged => cases unchanged.symm.trans lowers

namespace World

structure Later (room : Int) (world next : World) : Prop where
  calls : ∀ call ∈ world.calls, call ∈ next.calls
  updates : world.updates room ≤ next.updates room
  players : ∀ id, AssassinGame.players room ++ [id] ∈ world.firestore →
    AssassinGame.players room ++ [id] ∈ next.firestore

theorem Documented.later {world next : World} (documented : world.Documented)
    {event : AssassinGame.Event} (stepped : world.step event = some next) (room : Int) :
    world.Later room next := by
  rcases step_cases stepped with
    ⟨id, operation, rfl, _, rfl⟩ | ⟨pending, killerTarget, rfl, ready, rfl⟩
  · exact ⟨fun call member => List.mem_cons_of_mem _ member, le_refl _,
      fun _ present => present⟩
  · refine ⟨fun call member => member, ?_, fun id present => ?_⟩
    · rw [updates_perform]
      exact Nat.le_add_right _ _
    · exact (documented.existing ready.1 room id).mpr (.inr present)

end World

theorem Opponent.later {room : Int} {world next : World} {id : CallId} {target : String}
    (opponent : Opponent room world id target) (later : world.Later room next) :
    Opponent room next id target := by
  rcases opponent.other with ⟨call, made, others⟩
  exact ⟨later.players _ opponent.registered, call, later.calls call made, others⟩

/-- What is known of a phone whose player has been registered. -/
structure Client.Enrolled (room : Int) (least : Nat) (world : World) (id : CallId)
    (client : Client) : Prop where
  entered : ∃ operation number, (id, operation) ∈ world.calls ∧
    int? client.waiting.roomNumber = some number ∧
      operation.entrant number = some client.waiting.name
  playing : ∀ screen ∈ client.playing, screen.name = client.waiting.name ∧
    int? client.waiting.roomNumber = some screen.roomNumber
  started : ∀ screen ∈ client.playing, screen.roomNumber = room →
    least ≤ world.updates room
  hunting : client.answered = true → ∀ screen ∈ client.playing, screen.roomNumber = room →
    Opponent room world id screen.targetName

theorem Client.Enrolled.later {room : Int} {least : Nat} {world next : World} {id : CallId}
    {client : Client} (enrolled : client.Enrolled room least world id)
    (later : world.Later room next) : client.Enrolled room least next id where
  entered := by
    rcases enrolled.entered with ⟨operation, number, made, reads, enters⟩
    exact ⟨operation, number, later.calls _ made, reads, enters⟩
  playing := enrolled.playing
  started screen plays own := (enrolled.started screen plays own).trans later.updates
  hunting answered screen plays own := (enrolled.hunting answered screen plays own).later later

namespace App

structure Sound [Canonical] (room : Int) (least : Nat) (app : App) : Prop where
  documented : app.world.Documented
  bounded : app.world.Bounded room (AtLeast least)
  calls : ∀ call ∈ app.world.calls, call.2.change = -1 ∧
    (call.2.opened ≠ none → int? (decimal call.2.room) = some call.2.room)
  entrants : ∀ call ∈ app.world.calls, ∀ name ∈ call.2.entrant room, Plain name ∧
    app.world.namesakes room name < least
  present : app.world.firestore ∈ app.past
  counters : ∀ store ∈ app.past, ∀ count, counter? room store = some count →
    AtLeast least (app.world.updates room) count
  games : ∀ store ∈ app.past, ∀ text, AssassinGame.games ++ [text] ∈ store →
    ∃ number, text = decimal number ∧ int? text = some number
  clients : ∀ id client, app.clients.lookup id = some client →
    client.Enrolled room least app.world id

theorem namesakes_cons [Canonical] {world next : World} {id : CallId} {operation : Operation}
    (made : next.calls = (id, operation) :: world.calls) (room : Int) (name : String) :
    next.namesakes room name = world.namesakes room name +
      if (operation.entrant room).any fun other => SameText other name then 1 else 0 := by
  rw [World.namesakes, made, List.countP_cons]
  rfl

namespace Sound

variable [Canonical] {room : Int} {least : Nat} {app next : App}

theorem start : Sound room least App.start where
  documented := Documented.start
  bounded := by
    refine ⟨traced_start ∅ ∅, ?_, ?_, ?_⟩
    · intro _ member
      cases member
    · intro count counted
      cases counted
    · intro _ member
      cases member
  calls _ member := by cases member
  entrants _ member := by cases member
  present := List.mem_singleton_self _
  counters store member count counted := by
    rw [List.mem_singleton.mp member] at counted
    cases counted
  games store member text inside := by
    rw [List.mem_singleton.mp member, ← AList.lookup_isSome] at inside
    cases inside
  clients id client known := by cases known

theorem entered (sound : Sound room least app) {id : CallId} {operation : Operation}
    {screen : WaitingVC} (leads : operation.Leads screen)
    (proper : operation.Proper room least app.world)
    (called : app.world.step (.call id operation) = some next.world)
    (past : next.past = app.past)
    (clients : next.clients = if operation.action.result = some () then
        app.clients.insert id ⟨screen, none, false⟩
      else app.clients) : Sound room least next := by
  have later := sound.documented.later called room
  have documented := sound.documented.step
    (fun _ _ same => by cases same; exact leads.keeps) called
  have bounded := sound.bounded.step (lasting_atLeast least)
    (fun _ _ same => by cases same; exact proper.within leads.keeps) called
  have issued := (step_call.mp called).2
  have made : next.world.calls = (id, operation) :: app.world.calls := by
    rw [issued]
    rfl
  have same : next.world.firestore = app.world.firestore := by
    rw [issued]
    rfl
  have written : next.world.updates room = app.world.updates room := by
    rw [issued]
    rfl
  refine ⟨documented, bounded, ?_, ?_, ?_, ?_, ?_, ?_⟩
  · intro call member
    rw [made] at member
    rcases List.mem_cons.mp member with rfl | old
    · exact ⟨leads.lowers, leads.numbered⟩
    · exact sound.calls call old
  · intro call member name enters
    rw [made] at member
    rw [namesakes_cons made]
    rcases List.mem_cons.mp member with rfl | old
    · have both := proper.2 name enters
      have counts : (operation.entrant room).any fun other => SameText other name := by
        simp [Option.mem_def.mp enters]
      rw [if_pos counts]
      exact both
    · have known := sound.entrants call old name enters
      refine ⟨known.1, ?_⟩
      split
      · -- the new player is one of them
        rename_i counts
        rcases Option.any_eq_true _ _ |>.mp counts with ⟨other, entered, alike⟩
        rw [← World.namesakes_congr (of_decide_eq_true alike)]
        exact (proper.2 other entered).2
      · exact known.2
  · rw [same, past]
    exact sound.present
  · rw [written, past]
    exact sound.counters
  · rw [past]
    exact sound.games
  · rw [clients]
    have others : ∀ other client, app.clients.lookup other = some client →
        client.Enrolled room least next.world other := fun other client known =>
      (sound.clients other client known).later later
    split
    · rename_i ended
      refine Entries.forall_insert ?_ others
      refine ⟨⟨operation, operation.room, ?_, leads.roomNumber, leads.entrant ended⟩,
        by simp, by simp, by simp⟩
      rw [made]
      exact List.mem_cons_self
    · exact others

theorem performed (sound : Sound room least app) {pending : Pending}
    {killerTarget : Option Player}
    (done : app.world.step (.perform pending killerTarget) = some next.world)
    (past : next.past = next.world.firestore :: app.past) (clients : next.clients = app.clients) :
    Sound room least next := by
  have later := sound.documented.later done room
  have documented := sound.documented.step (fun _ _ same => by cases same) done
  have bounded := sound.bounded.step (lasting_atLeast least) (fun _ _ same => by cases same) done
  rcases step_perform.mp done with ⟨ready, result⟩
  have made : next.world.calls = app.world.calls := by
    rw [result]
    rfl
  have entrants : ∀ call ∈ next.world.calls, ∀ name ∈ call.2.entrant room, Plain name ∧
      next.world.namesakes room name < least := by
    simp only [World.namesakes, made]
    exact sound.entrants
  refine ⟨documented, bounded, made ▸ sound.calls, entrants, ?_, ?_, ?_, ?_⟩
  · rw [past]
    exact List.mem_cons_self
  · intro store member count counted
    rw [past] at member
    rcases List.mem_cons.mp member with rfl | old
    · exact bounded.counter count counted
    · have above := sound.counters store old count counted
      have grown := later.updates
      unfold AtLeast at above ⊢
      omega
  · intro store member text inside
    rw [past] at member
    rcases List.mem_cons.mp member with rfl | old
    · rcases sound.documented.orderly.traced pending (.inl ready.1) with ⟨called, issued⟩
      rcases sound.calls _ called with ⟨lowers, numbered⟩
      rw [result] at inside
      rcases game_of_mem_applyTo issued lowers inside with before | ⟨same, opens⟩
      · exact sound.games _ sound.present text before
      · exact ⟨pending.operation.room, same, same ▸ numbered opens⟩
    · exact sound.games store old text inside
  · intro id client known
    rw [clients] at known
    exact (sound.clients id client known).later later

theorem insert (sound : Sound room least app) {id : CallId} {client : Client}
    (enrolled : client.Enrolled room least app.world id) :
    Sound room least { app with clients := app.clients.insert id client } := by
  exact { sound with clients := Entries.forall_insert enrolled sound.clients }

theorem erase (sound : Sound room least app) (id : CallId) :
    Sound room least { app with clients := app.clients.erase id } := by
  exact { sound with clients := Entries.forall_erase sound.clients id }

/-- A listener that is shown a zero proves that enough writes have completed. -/
theorem enough_of_zero (sound : Sound room least app) {waiting : WaitingVC}
    {path : ResourcePath} {store : Firestore} {data : Document}
    (reads : int? waiting.roomNumber = some room)
    (listens : waiting.listenDocument.result = some path) (kept : store ∈ app.past)
    (found : store.lookup path = some data) (zero : data.int? "playerCount" = some 0) :
    least ≤ app.world.updates room := by
  have plain := plain_of_parse reads
  have shape : document? AssassinGame.games waiting.roomNumber = some path := listens
  rw [document?_plain plain (by rfl), Option.some.injEq] at shape
  subst shape
  rcases sound.games store kept _ (AList.lookup_isSome.mp (by rw [found]; rfl)) with
    ⟨number, text, again⟩
  have same : number = room := Option.some.inj (again.symm.trans reads)
  subst same
  have counted : counter? number store = some 0 := by
    rw [counter?, gameRef, ← text, found]
    exact zero
  have above := sound.counters store kept 0 counted
  unfold AtLeast at above
  omega

theorem listened (sound : Sound room least app) {id : CallId} {client : Client}
    {path : ResourcePath} {store : Firestore} (known : app.clients.lookup id = some client)
    (listens : client.waiting.listenDocument.result = some path) (kept : store ∈ app.past) :
    Sound room least (app.shown id client (store.lookup path)) := by
  have enrolled := sound.clients id client known
  unfold App.shown
  split
  · exact sound.erase id
  · rename_i waiting ran
    rcases WaitingVC.completion_keeps ran with ⟨sameRoom, sameName⟩
    apply sound.insert
    refine ⟨?_, ?_, enrolled.started, enrolled.hunting⟩
    · simp only [sameRoom, sameName]
      exact enrolled.entered
    · simp only [sameRoom, sameName]
      exact enrolled.playing
  · rename_i waiting ran
    rcases WaitingVC.completion_starts.mp ran with ⟨data, found, zero, rfl⟩
    split
    · exact sound.erase id
    · rename_i screen prepared
      rcases Option.bind_eq_some_iff.mp prepared with ⟨number, reads, same⟩
      cases same
      apply sound.insert
      refine ⟨enrolled.entered, ?_, ?_, by simp⟩
      · intro screen plays
        cases plays
        exact ⟨rfl, reads⟩
      · intro screen plays own
        cases plays
        change number = room at own
        subst own
        exact sound.enough_of_zero reads listens kept found zero

theorem opponent (sound : Sound room least app) {id : CallId} {client : Client}
    {screen : TabBarVC} (known : app.clients.lookup id = some client)
    (plays : client.playing = some screen) (own : screen.roomNumber = room)
    (shuffle : Shuffle String) :
    Opponent room app.world id (TabBarVC.assignTarget.completion screen shuffle
      (app.world.firestore.getDocuments (players room))).1.targetName := by
  have enrolled := sound.clients id client known
  rcases enrolled.entered with ⟨operation, number, made, reads, enters⟩
  rcases enrolled.playing screen plays with ⟨name, sameRoom⟩
  have same : number = room :=
    (Option.some.inj (reads.symm.trans sameRoom)).trans own
  subst same
  rcases sound.entrants _ made _ enters with ⟨plain, few⟩
  have enough := enrolled.started screen plays own
  rcases sound.documented.exists_other_entrant
    (fun call member other enters => (sound.entrants call member other enters).1)
    (few.trans_le enough) with ⟨other, different, present⟩
  rw [← name] at different plain enters
  have target := TabBarVC.completion_selects screen shuffle
    (Firestore.mem_getDocuments.mpr present) (of_decide_eq_false different)
  have registered := Firestore.mem_getDocuments.mp target.1
  rcases sound.documented.origin number _ registered with ⟨call, member, adds⟩
  refine ⟨registered, call, member, fun sameCall => ?_, adds⟩
  -- the client's own call adds nobody but the client
  have ownCall : call = (id, operation) :=
    (List.inj_on_of_nodup_map sound.documented.fresh) member made sameCall
  subst ownCall
  exact target.2 (eq_of_adds_of_entrant enters plain adds ▸ .refl _)

theorem answered (sound : Sound room least app) {id : CallId} {client : Client}
    {screen : TabBarVC} (known : app.clients.lookup id = some client)
    (plays : client.playing = some screen) (shuffle : Shuffle String) :
    Sound room least { app with
      clients := app.clients.insert id { client with
        playing := some (TabBarVC.assignTarget.completion screen shuffle
          (app.world.firestore.getDocuments (players screen.roomNumber))).1
        answered := true } } := by
  have enrolled := sound.clients id client known
  apply sound.insert
  refine ⟨enrolled.entered, ?_, ?_, ?_⟩
  · intro next nowPlays
    cases nowPlays
    exact enrolled.playing screen plays
  · intro next nowPlays own
    cases nowPlays
    exact enrolled.started screen plays own
  · intro _ next nowPlays own
    cases nowPlays
    change screen.roomNumber = room at own
    rw [own]
    exact sound.opponent known plays own shuffle

theorem step (sound : Sound room least app) {event : Event}
    (proper : app.Proper room least event) (stepped : app.step event = some next) :
    Sound room least next := by
  cases effect_of_step stepped with
  | entered screen leads properCall called past clients =>
      exact sound.entered leads (properCall room least proper) called past clients
  | performed done past clients => exact sound.performed done past clients
  | listened known listens kept =>
      exact sound.listened known listens (List.mem_of_getElem? kept)
  | answered known plays => exact sound.answered known plays _
  | waited world past clients =>
      rcases next with ⟨_, _, _, _⟩
      cases world
      cases past
      cases clients
      exact ⟨sound.documented, sound.bounded, sound.calls, sound.entrants, sound.present,
        sound.counters, sound.games, sound.clients⟩

end Sound

end App

/-- Let every `createRoom` for the room ask for at least `least` players, and let fewer
than `least` of those who enter the room share a name, which is a single segment. Then
the name shown to a client of the room whose game has started and whose query has been
answered is that of a player registered by another call. -/
theorem started_clients_hunt_others [Canonical] {room : Int} {least : Nat} {events : List App.Event}
    {final : App} (performed : run App.step App.start events = some final)
    (proper : Meets App.step (App.Proper room least) App.start events)
    {id : CallId} {client : Client} {screen : TabBarVC}
    (known : final.clients.lookup id = some client) (plays : client.playing = some screen)
    (own : screen.roomNumber = room) (answered : client.answered = true) :
    players room ++ [screen.targetName] ∈ final.world.firestore ∧
      ∃ call ∈ final.world.calls, call.1 ≠ id ∧ call.2.adds room screen.targetName = true := by
  have sound := run_invariant (App.Sound room least)
    (fun _ _ _ sound proper stepped => sound.step proper stepped) App.Sound.start proper
    performed
  have opponent := (sound.clients id client known).hunting answered screen plays own
  exact ⟨opponent.registered, opponent.other⟩

section Samples

open Ascii

def joinScreen (name : String) : JoinGameVC := ⟨name, some someImage, "123"⟩

/-- One player opens room 123 for two, another joins it, and the game starts for the
first. -/
def twoStart : List App.Event :=
  App.start.follow ([some (.createRoom 0 ⟨some someImage, "2", "ann"⟩ .keep "noon"
    (some somePhone))] ++ List.replicate 6 none ++
    [some (.joinGame 1 (joinScreen "bob")), some (.found 1 (joinScreen "bob") (some somePhone))] ++
    List.replicate 5 none ++ [some (.snapshot 0 0), some (.answered 0 .keep)])

theorem started_clients_hunt_others_twoStart :
    ∃ final, run App.step App.start twoStart = some final ∧
      players 123 ++ ["bob"] ∈ final.world.firestore ∧
      ∃ call ∈ final.world.calls, call.1 ≠ 0 ∧ call.2.adds 123 "bob" = true := by
  have ends : (run App.step App.start twoStart).any (fun final => final.clients.lookup 0 =
      some ⟨⟨"123", "ann", "0"⟩, some ⟨123, "ann", "bob"⟩, true⟩) = true := by
    decide
  rcases run_ends ends with ⟨final, performed, known⟩
  exact ⟨final, performed, @started_clients_hunt_others _ 123 2 twoStart final performed
    (by decide) 0 _ _ known rfl rfl rfl⟩

/-- A player opens room 123 with the number the label shows at first. -/
def oneStarts : List App.Event :=
  App.start.follow ([some (.createRoom 0
      ⟨some someImage, CreateGameVC.initialNumOfPlayers, "ann"⟩ .keep "noon"
      (some somePhone))] ++ List.replicate 6 none ++
    [some (.snapshot 0 0), some (.answered 0 .keep)])

/-- The game starts at once, and the victim is the text of the storyboard, which nobody
is registered under. -/
theorem started_client_hunts_placeholder :
    ∃ final, run App.step App.start oneStarts = some final ∧
      final.clients.lookup 0 =
        some ⟨⟨"123", "ann", "0"⟩, some ⟨123, "ann", TabBarVC.placeholder⟩, true⟩ ∧
      players 123 ++ [TabBarVC.placeholder] ∉ final.world.firestore ∧
      ∀ call ∈ final.world.calls, call.2.adds 123 TabBarVC.placeholder = false := by
  apply run_ends
  decide

end Samples

end AssassinGame
