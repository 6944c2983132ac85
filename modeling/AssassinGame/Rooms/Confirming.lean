import AssassinGame.Rooms.Accounting

/-! # Confirming a killshot

A killshot asks for as many confirmations as the room was opened for players, and for
three at most. That number stays what it is when players are removed, so there can be too
few left to confirm.
-/

namespace AssassinGame

open AssassinGame.Action Transition World Segments

/-- No killshot that is filed asks for more confirmations than there are players. -/
def Confirmable (room : Int) (store : Firestore) : Prop :=
  ∀ killer target path data,
    .write (.setData path data) ∈ (addKillshot.completion (gameRef room) killer target
      (store.lookup (gameRef room))).requests →
    ∃ needed : Int, data.int? "confirmationsNeeded" = some needed ∧ needed ≤ population room store

/-! ## Who has come and gone -/

/-- The players whom calls have added to the room, the latest first. -/
def World.entrants (room : Int) (world : World) : List Player :=
  world.calls.filterMap fun call => if call.2.room = room then call.2.registered else none

def World.departures (room : Int) (world : World) : Nat :=
  world.calls.countP fun call => decide (call.2.room = room) && call.2.removed.isSome

/-- The identifiers of the documents kept under the number before, and of those that the
names of the players added since name directly. -/
def World.gathered (room : Int) (before : Firestore) (world : World) : Finset String :=
  (before.getDocuments (players room) ++
    (world.entrants room).filterMap (playerID? room)).toFinset

/-- The event calls `addPlayer` for the room, under a name that is new and while nothing is
under way, or continues a call. -/
def EntersAnew (room : Int) (world : World) : Event → Prop
  | .call _ (.addPlayer _ roomNumber player) => roomNumber = room ∧ world.outstanding = [] ∧
      ∀ other ∈ world.entrants room, other.name ≠ player.name
  | .call _ _ => False
  | .perform _ _ => True

def RemovesPresent (room : Int) (world : World) : Event → Prop
  | .call _ (.removePlayer roomNumber player) => roomNumber = room ∧ world.outstanding = [] ∧
      NamesPresent world.firestore room player
  | .call _ _ => False
  | .perform _ _ => True

instance (room : Int) (world : World) : ∀ event, Decidable (EntersAnew room world event)
  | .call _ (.addPlayer _ roomNumber player) => inferInstanceAs (Decidable (
      roomNumber = room ∧ world.outstanding = [] ∧
        ∀ other ∈ world.entrants room, other.name ≠ player.name))
  | .call _ (.removePlayer _ _) | .call _ (.addGame _) | .call _ (.addKillshot _ _ _ _ _)
  | .call _ (.uploadKillshotPic _ _) | .call _ (.uploadKillshotName _ _)
  | .call _ (.imagePickerController _ _) | .call _ (.createRoom _ _ _ _) =>
      inferInstanceAs (Decidable False)
  | .perform _ _ => inferInstanceAs (Decidable True)

instance (room : Int) (world : World) : ∀ event, Decidable (RemovesPresent room world event)
  | .call _ (.removePlayer roomNumber player) => inferInstanceAs (Decidable (
      roomNumber = room ∧ world.outstanding = [] ∧ NamesPresent world.firestore room player))
  | .call _ (.addPlayer _ _ _) | .call _ (.addGame _) | .call _ (.addKillshot _ _ _ _ _)
  | .call _ (.uploadKillshotPic _ _) | .call _ (.uploadKillshotName _ _)
  | .call _ (.imagePickerController _ _) | .call _ (.createRoom _ _ _ _) =>
      inferInstanceAs (Decidable False)
  | .perform _ _ => inferInstanceAs (Decidable True)

theorem EntersAnew.sequential {room : Int} {world : World} {event : Event}
    (enters : EntersAnew room world event) : Sequential room world event := by
  cases event with
  | perform => trivial
  | call id operation =>
      cases operation with
      | addPlayer => exact ⟨enters.1, enters.2.1⟩
      | addGame | removePlayer | addKillshot | uploadKillshotPic | uploadKillshotName
      | imagePickerController | createRoom => exact enters.elim

theorem RemovesPresent.sequential {room : Int} {world : World} {event : Event}
    (removes : RemovesPresent room world event) : Sequential room world event := by
  cases event with
  | perform => trivial
  | call id operation =>
      cases operation with
      | removePlayer => exact ⟨removes.1, removes.2.1⟩
      | addGame | addPlayer | addKillshot | uploadKillshotPic | uploadKillshotName
      | imagePickerController | createRoom => exact removes.elim

/-! ## What a killshot asks for -/

/-- The killshot is filed for whichever victim there is, so the condition is on the room
alone. -/
theorem confirmable_iff {room total : Int} {store : Firestore}
    (totalled : (store.lookup (gameRef room)).bind (·.int? "totalPlayers") = some total) :
    Confirmable room store ↔ min total 3 ≤ population room store := by
  constructor
  · intro confirmable
    have victim : Plain (Player.init "victim" ⟨none⟩).name := by decide
    have named := document?_plain victim
      (show (unconfirmedKillshots room).length % 2 = 1 by
        simp [unconfirmedKillshots, gameRef, games])
    rcases confirmable (Player.init "killer" ⟨none⟩) (some (Player.init "victim" ⟨none⟩)) _ _
      (mem_addKillshot_completion_iff.mpr ⟨total, totalled, _, named, rfl⟩) with
      ⟨needed, asked, enough⟩
    rw [killshotFields, Document.int?_fields_head, Option.some.injEq] at asked
    exact asked ▸ enough
  · intro enough killer target path data filed
    cases target with
    | none =>
        cases found : store.lookup (gameRef room) with
        | none => simp [found] at totalled
        | some document =>
            rw [found, Option.bind_some] at totalled
            simp [addKillshot.completion, bind_requests, found, totalled] at filed
    | some victim =>
        rcases mem_addKillshot_completion_iff.mp filed with ⟨shown, same, _, _, written⟩
        rw [totalled, Option.some.injEq] at same
        cases written
        exact ⟨min total 3, by rw [same, killshotFields, Document.int?_fields_head], enough⟩

/-! ## Calls for an opened room -/

structure OneByOne (game : Game) (world : World) : Prop where
  solo : world.Solo
  unopening : world.Unopening game.roomNumber
  totalled : (world.firestore.lookup (gameRef game.roomNumber)).bind
    (·.int? "totalPlayers") = some game.playerCount

namespace OneByOne

variable {game : Game} {world next : World}

theorem created (id : CallId) (game : Game) (firestore : Firestore) (storage : Storage) :
    OneByOne game (World.created id game firestore storage) where
  solo := Solo.of_idle (@orderly_openedBy (.addGame game) game rfl id firestore storage)
    (created_outstanding id game firestore storage)
  unopening := @unopening_openedBy (.addGame game) game rfl id firestore storage _
  totalled := by simp

theorem step (turn : OneByOne game world) {event : Event}
    (sequential : Sequential game.roomNumber world event)
    (stepped : world.step event = some next) : OneByOne game next := by
  have solo := turn.solo.step sequential stepped
  rcases step_cases stepped with
    ⟨id, operation, rfl, _, rfl⟩ | ⟨pending, killerTarget, rfl, ready, rfl⟩
  · refine ⟨solo, turn.unopening.issue (fun _ => ?_) id, turn.totalled⟩
    cases operation with
    | addPlayer | removePlayer => rfl
    | addGame | addKillshot | uploadKillshotPic | uploadKillshotName
    | imagePickerController | createRoom => exact sequential.elim
  · have issued := turn.solo.orderly.traced.issued ready.1
    refine ⟨solo, turn.unopening.perform issued killerTarget, ?_⟩
    rw [← turn.totalled]
    rcases gameDocument_cases issued game.roomNumber world.firestore with
      ⟨count, _, _, _, stored⟩ | ⟨_, _, _, opens, _⟩ | ⟨_, same⟩
    · rw [World.perform, stored]
      cases world.firestore.lookup (gameRef game.roomNumber) <;> simp
    · rw [turn.unopening pending ready.1] at opens
      cases opens
    · rw [World.perform, same]

end OneByOne

/-! ## Until everybody is there -/

/-- What holds of a room, opened over the documents `before`, while its players come. -/
structure Gathering (game : Game) (before : Firestore) (world : World) : Prop where
  turn : OneByOne game world
  members : ∀ id, players game.roomNumber ++ [id] ∈ world.outcome ↔
    id ∈ world.gathered game.roomNumber before
  names : ((world.entrants game.roomNumber).map Player.name).Nodup
  nobody : world.departures game.roomNumber = 0

theorem mem_gathered {room : Int} {before : Firestore} {world : World} {id : String} :
    id ∈ world.gathered room before ↔
      players room ++ [id] ∈ before ∨
        ∃ player ∈ world.entrants room, playerID? room player = some id := by
  simp [World.gathered, Firestore.mem_getDocuments]

namespace Gathering

variable {game : Game} {before : Firestore} {world next : World}

theorem created (id : CallId) (game : Game) (before : Firestore) (storage : Storage) :
    Gathering game before (World.created id game before storage) where
  turn := OneByOne.created id game before storage
  members other := by
    have apart := (gameRef_ne_player game.roomNumber game.roomNumber other).symm
    rw [outcome_of_idle (created_outstanding id game before storage), mem_gathered]
    simp [AList.mem_insert, apart, World.entrants, Operation.registered]
  names := by simp [World.entrants, Operation.registered]
  nobody := by simp [World.departures, Operation.removed]

theorem step (gathering : Gathering game before world) {event : Event}
    (enters : EntersAnew game.roomNumber world event)
    (stepped : world.step event = some next) : Gathering game before next := by
  have turn := gathering.turn.step enters.sequential stepped
  rcases step_cases stepped with
    ⟨call, operation, rfl, _, rfl⟩ | ⟨pending, killerTarget, rfl, ready, rfl⟩
  · cases operation with
    | addPlayer deviceID room player =>
        rcases enters with ⟨rfl, idle, fresh⟩
        have entered : (world.issue call (.addPlayer deviceID game.roomNumber player)).entrants
            game.roomNumber = player :: world.entrants game.roomNumber := by
          simp [World.entrants, World.issue, Operation.room, Operation.registered]
        refine ⟨turn, fun id => ?_, ?_, ?_⟩
        · have here := gathering.members id
          rw [outcome_of_idle idle, mem_gathered] at here
          rw [mem_outcome_addPlayer idle, mem_gathered, entered, here]
          simp only [List.mem_cons, exists_eq_or_imp]
          exact or_left_comm
        · rw [entered, List.map_cons, List.nodup_cons]
          refine ⟨fun listed => ?_, gathering.names⟩
          rcases List.mem_map.mp listed with ⟨other, inside, same⟩
          exact fresh other inside same
        · simpa [World.departures, World.issue, Operation.removed] using gathering.nobody
    | addGame | removePlayer | addKillshot | uploadKillshotPic | uploadKillshotName
    | imagePickerController | createRoom => exact enters.elim
  · refine ⟨turn, fun id => ?_, gathering.names, gathering.nobody⟩
    rw [gathering.turn.solo.outcome_perform ready killerTarget]
    exact gathering.members id

theorem run {final : World} {events : List Event} (gathering : Gathering game before world)
    (enters : Meets World.step (EntersAnew game.roomNumber) world events)
    (performed : Transition.run World.step world events = some final) :
    Gathering game before final :=
  run_invariant (Gathering game before)
    (fun _ _ _ gathering enters stepped => gathering.step enters stepped) gathering enters
    performed

theorem population_eq (gathering : Gathering game before world) :
    population game.roomNumber world.outcome =
      (world.gathered game.roomNumber before).card := by
  rw [population, ← List.toFinset_card_of_nodup (world.outcome.nodup_getDocuments _)]
  congr 1
  ext id
  rw [List.mem_toFinset, Firestore.mem_getDocuments, gathering.members]

theorem card_gathered (gathering : Gathering game before world)
    (empty : before.getDocuments (players game.roomNumber) = [])
    (plain : ∀ player ∈ world.entrants game.roomNumber, Plain player.name) :
    (world.gathered game.roomNumber before).card =
      (world.entrants game.roomNumber).length := by
  have named : (world.entrants game.roomNumber).filterMap (playerID? game.roomNumber) =
      (world.entrants game.roomNumber).map Player.name := by
    rw [← List.filterMap_eq_map']
    exact List.filterMap_congr fun player inside => playerID?_of_plain (plain player inside)
  rw [World.gathered, empty, List.nil_append, named,
    List.toFinset_card_of_nodup gathering.names, List.length_map]

end Gathering

/-! ## While players are removed -/

structure Leaving (game : Game) (count : Nat) (world : World) : Prop where
  turn : OneByOne game world
  left : population game.roomNumber world.outcome + world.departures game.roomNumber = count

namespace Leaving

variable {game : Game} {count : Nat} {world next : World}

theorem step (leaving : Leaving game count world) {event : Event}
    (removes : RemovesPresent game.roomNumber world event)
    (stepped : world.step event = some next) : Leaving game count next := by
  have turn := leaving.turn.step removes.sequential stepped
  rcases step_cases stepped with
    ⟨call, operation, rfl, _, rfl⟩ | ⟨pending, killerTarget, rfl, ready, rfl⟩
  · cases operation with
    | removePlayer room player =>
        rcases removes with ⟨rfl, idle, present⟩
        have fewer := length_getDocuments_removed
          (@mem_outcome_removePlayer _ game.roomNumber player idle call)
        have one : (world.issue call (.removePlayer game.roomNumber player)).departures
            game.roomNumber = world.departures game.roomNumber + 1 := by
          simp [World.departures, World.issue, Operation.room, Operation.removed]
        have before := leaving.left
        rw [outcome_of_idle idle, population] at before
        rw [if_pos present] at fewer
        refine ⟨turn, ?_⟩
        rw [one, population]
        omega
    | addGame | addPlayer | addKillshot | uploadKillshotPic | uploadKillshotName
    | imagePickerController | createRoom => exact removes.elim
  · refine ⟨turn, ?_⟩
    rw [leaving.turn.solo.outcome_perform ready killerTarget]
    exact leaving.left

theorem run {final : World} {events : List Event} (leaving : Leaving game count world)
    (removes : Meets World.step (RemovesPresent game.roomNumber) world events)
    (performed : Transition.run World.step world events = some final) :
    Leaving game count final :=
  run_invariant (Leaving game count)
    (fun _ _ _ leaving removes stepped => leaving.step removes stepped) leaving removes
    performed

end Leaving

/-! ## How many may leave -/

/-- A room is opened, as many players as it was opened for enter under different names, and
some are removed, one call after the other. Every killshot can be confirmed if and only if
the confirmations it asks for and the players removed do not exceed the players' documents
there were. If these have single segments for names and nobody was there before, the room
must have lost nobody, or still have three of its players. -/
theorem confirmable_after_departures_iff {id : CallId} {game : Game} {firestore : Firestore}
    {storage : Storage} {joining leaving : List Event} {full final : World}
    (joined : run World.step (World.created id game firestore storage) joining = some full)
    (enters : Meets World.step (EntersAnew game.roomNumber)
      (World.created id game firestore storage) joining)
    (complete : ((full.entrants game.roomNumber).length : Int) = game.playerCount)
    (departed : run World.step full leaving = some final)
    (removes : Meets World.step (RemovesPresent game.roomNumber) full leaving)
    (done : final.outstanding = []) :
    (Confirmable game.roomNumber final.firestore ↔
      min game.playerCount 3 + final.departures game.roomNumber ≤
        (full.gathered game.roomNumber firestore).card) ∧
    (firestore.getDocuments (players game.roomNumber) = [] →
      (∀ player ∈ full.entrants game.roomNumber, Plain player.name) →
      (Confirmable game.roomNumber final.firestore ↔
        final.departures game.roomNumber = 0 ∨
          (final.departures game.roomNumber : Int) + 3 ≤ game.playerCount)) := by
  have gathering := (Gathering.created id game firestore storage).run enters joined
  have start : Leaving game (full.gathered game.roomNumber firestore).card full :=
    ⟨gathering.turn, by rw [gathering.nobody, gathering.population_eq, add_zero]⟩
  have left := start.run removes departed
  have here := left.left
  rw [outcome_of_idle done] at here
  have decided := confirmable_iff left.turn.totalled
  have general : Confirmable game.roomNumber final.firestore ↔
      min game.playerCount 3 + final.departures game.roomNumber ≤
        (full.gathered game.roomNumber firestore).card := by
    rw [decided, ← here]
    push_cast
    omega
  refine ⟨general, fun empty plain => ?_⟩
  rw [general, gathering.card_gathered empty plain, complete]
  omega

def entering (count : Int) (names : List String) : List Event :=
  (World.created 0 (Game.init 7 count "noon") ∅ ∅).follow <| names.zipIdx.flatMap fun entry => [
    .call (entry.2 + 1) (join 7 entry.1), .answer 0, .answer 0, .answer 0, .answer 0, .answer 0]

def removing (name : String) (world : World) : List Event :=
  world.follow [.call 9 (.removePlayer 7 (Player.init name someImage)),
    .answer 0, .answer 0, .answer 0]

theorem confirmable_after_departures_iff_four :
    ∃ full final, run World.step (World.created 0 (Game.init 7 4 "noon") ∅ ∅)
        (entering 4 ["ann", "bob", "cat", "dan"]) = some full ∧
      run World.step full (removing "dan" full) = some final ∧
      Confirmable 7 final.firestore := by
  have ends : (run World.step (World.created 0 (Game.init 7 4 "noon") ∅ ∅)
      (entering 4 ["ann", "bob", "cat", "dan"])).any (fun full =>
        (full.entrants 7).length = 4 ∧ (∀ player ∈ full.entrants 7, Plain player.name) ∧
        Meets World.step (RemovesPresent 7) full (removing "dan" full) ∧
        (run World.step full (removing "dan" full)).any (fun final =>
          final.outstanding = [] ∧ final.departures 7 = 1) = true) = true := by decide
  rcases run_ends ends with ⟨full, joined, four, plain, removes, leaves⟩
  rcases run_ends leaves with ⟨final, departed, done, one⟩
  have complete : ((full.entrants 7).length : Int) = 4 := by rw [four]; rfl
  have decided : Confirmable 7 final.firestore ↔
      final.departures 7 = 0 ∨ (final.departures 7 : Int) + 3 ≤ 4 :=
    (confirmable_after_departures_iff joined (by decide) complete departed removes
      done).2 rfl plain
  exact ⟨full, final, joined, departed, decided.mpr (.inr (by rw [one]; decide))⟩

/-- Two players enter a room for two, and one is removed. A killshot then asks for two
confirmations, with one player left to give them. -/
theorem too_few_left_to_confirm :
    ∃ full final, run World.step (World.created 0 (Game.init 7 2 "noon") ∅ ∅)
        (entering 2 ["ann", "bob"]) = some full ∧
      Meets World.step (EntersAnew 7) (World.created 0 (Game.init 7 2 "noon") ∅ ∅)
        (entering 2 ["ann", "bob"]) ∧ ((full.entrants 7).length : Int) = 2 ∧
      run World.step full (removing "bob" full) = some final ∧
      Meets World.step (RemovesPresent 7) full (removing "bob" full) ∧
      final.outstanding = [] ∧ ¬Confirmable 7 final.firestore := by
  have ends : (run World.step (World.created 0 (Game.init 7 2 "noon") ∅ ∅)
      (entering 2 ["ann", "bob"])).any (fun full =>
        (full.entrants 7).length = 2 ∧
        Meets World.step (RemovesPresent 7) full (removing "bob" full) ∧
        (run World.step full (removing "bob" full)).any (fun final =>
          final.outstanding = [] ∧ population 7 final.firestore = 1 ∧
          (final.firestore.lookup (gameRef 7)).bind (·.int? "totalPlayers") = some 2) =
            true) = true := by decide
  rcases run_ends ends with ⟨full, joined, two, removes, leaves⟩
  rcases run_ends leaves with ⟨final, departed, done, one, totalled⟩
  refine ⟨full, final, joined, by decide, by rw [two]; rfl, departed, removes, done, ?_⟩
  rw [confirmable_iff totalled, one]
  decide

end AssassinGame
