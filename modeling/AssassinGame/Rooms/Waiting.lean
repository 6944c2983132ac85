import AssassinGame.App
import AssassinGame.Foundation.Feed
import AssassinGame.Rooms.EarlyStart

/-! # How often a waiting screen starts the game

The listener of a waiting screen stays open behind the game screen. It is shown the values
that the room's game document takes in order, some of them skipped, and starts the game on
each whose counter is zero. The game is started twice only if the counter comes back to zero.
-/

namespace AssassinGame

open AssassinGame.Action Transition World

/-! ## Waiting screens on top of the stores -/

structure Watcher where
  screen : WaitingVC
  /-- How far the listener has got in the values of the document. -/
  seen : Nat
  /-- How often `waitingToGame` has been performed. -/
  starts : Nat
  deriving DecidableEq

structure Lobby where
  world : World
  /-- The values that the room's game document has taken. -/
  values : List (Option Document)
  screens : AList fun _ : Nat => Watcher

namespace Lobby

inductive Event
  | act (event : AssassinGame.Event)
  /-- The listener of a new screen is opened. -/
  | appear (id : Nat) (screen : WaitingVC)
  | snapshot (id place : Nat)

def Event.act? : Event → Option AssassinGame.Event
  | .act event => some event
  | .appear _ _ | .snapshot _ _ => none

def opened (room : Int) (world : World) : Lobby where
  world := world
  values := [world.firestore.lookup (gameRef room)]
  screens := ∅

/-- The stores have moved on. What changes nothing in the document is no new value. -/
def moved (room : Int) (lobby : Lobby) (world : World) : Lobby :=
  { lobby with
    world := world
    values :=
      if Option.Rel Document.Same (lobby.world.firestore.lookup (gameRef room))
          (world.firestore.lookup (gameRef room)) then lobby.values
      else lobby.values ++ [world.firestore.lookup (gameRef room)] }

/-- One event; `none` when it cannot happen. A listener is opened on the value that the
document has, and a screen that traps is gone. -/
def step (room : Int) (lobby : Lobby) : Event → Option Lobby
  | .act event => (lobby.world.step event).map (lobby.moved room)
  | .appear id screen =>
      if id ∉ lobby.screens ∧ screen.listenDocument.result = some (gameRef room) then
        some { lobby with
          screens := lobby.screens.insert id ⟨screen, lobby.values.length - 1, 0⟩ }
      else none
  | .snapshot id place => do
      let watcher ← lobby.screens.lookup id
      let value ← Feed.next? lobby.values watcher.seen place
      match WaitingVC.listenDocument.completion watcher.screen value with
      | none => return { lobby with screens := lobby.screens.erase id }
      | some (screen, starts) =>
          return { lobby with
            screens := lobby.screens.insert id
              ⟨screen, place + 1, watcher.starts + if starts then 1 else 0⟩ }

/-- No screen has started the game twice. -/
def StartsOnce (lobby : Lobby) : Prop :=
  ∀ id, ∀ watcher ∈ lobby.screens.lookup id, watcher.starts ≤ 1

end Lobby

def showsZero (value : Option Document) : Bool :=
  decide (value.bind (·.int? "playerCount") = some 0)

/-- How often the counter has come to be zero. -/
def Lobby.zeros (lobby : Lobby) : Nat := lobby.values.countP showsZero

/-- A counter that is not zero is set to zero only if it has never been zero. -/
def NeverBack (room : Int) (lobby : Lobby) : Lobby.Event → Prop
  | .act (.perform pending _) =>
      pending.request = .write (.updateData (gameRef room) (countFields 0)) →
        counter? room lobby.world.firestore ≠ some 0 → lobby.zeros = 0
  | .act (.call _ _) | .appear _ _ | .snapshot _ _ => True

instance (room : Int) (lobby : Lobby) : ∀ event, Decidable (NeverBack room lobby event)
  | .act (.perform _ _) => inferInstanceAs (Decidable (_ → _))
  | .act (.call _ _) | .appear _ _ | .snapshot _ _ => inferInstanceAs (Decidable True)

/-- If it is for the room, the operation is an `addPlayer`, a `removePlayer`, or one that
neither opens the room nor changes its counter. -/
def Operation.OnlyPlayers (room : Int) (operation : Operation) : Prop :=
  operation.room = room → operation.opened = none ∧
    (operation.joins room = true ∨ operation.removed ≠ none ∨ operation.change = 0)

instance (room : Int) (operation : Operation) : Decidable (operation.OnlyPlayers room) :=
  inferInstanceAs (Decidable (_ → _))

def OnlyPlayerCalls (room : Int) (_ : World) : Event → Prop
  | .call _ operation => operation.OnlyPlayers room
  | .perform _ _ => True

instance (room : Int) (world : World) : ∀ event, Decidable (OnlyPlayerCalls room world event)
  | .call _ operation => inferInstanceAs (Decidable (operation.OnlyPlayers room))
  | .perform _ _ => inferInstanceAs (Decidable True)

/-! ## How low the counter can be -/

theorem Operation.change_cases (operation : Operation) :
    operation.change = -1 ∨ operation.change = 0 ∨ operation.change = 1 := by
  cases operation <;> simp [Operation.change]

theorem Operation.change_of_removed {operation : Operation} (removes : operation.removed ≠ none) :
    operation.change = 1 := by
  cases operation with
  | removePlayer => rfl
  | _ => exact absurd rfl removes

/-- The writes of the counter that calls which change it by this have completed. -/
def World.completed (room change : Int) (world : World) : Nat :=
  world.performed.countP fun pending =>
    pending.updatesCounter room && decide (pending.operation.change = change)

theorem completed_perform (room change : Int) (world : World) (pending : Pending)
    (killerTarget : Option Player) :
    (world.perform pending killerTarget).completed room change =
      world.completed room change +
        if pending.updatesCounter room && decide (pending.operation.change = change) then 1
        else 0 :=
  List.countP_cons

theorem completed_update {room : Int} (change : Int) {pending : Pending}
    (updates : pending.updatesCounter room = true) (world : World)
    (killerTarget : Option Player) :
    (world.perform pending killerTarget).completed room change =
      world.completed room change + if pending.operation.change = change then 1 else 0 := by
  rw [completed_perform, updates]
  simp

theorem completed_le_calls {world : World} (orderly : world.Orderly) (room change : Int) :
    world.completed room change ≤ world.calls.countP fun call =>
      decide (call.2.room = room) && decide (call.2.change = change) := by
  have single : (world.performed.filter fun pending => pending.updatesCounter room &&
      decide (pending.operation.change = change)).Sublist
      (world.performed.filter (Pending.updatesCounter room)) := by
    apply List.monotone_filter_right
    intro pending both
    exact (Bool.and_eq_true_iff.mp both).1
  have included : (world.performed.filter fun pending => pending.updatesCounter room &&
      decide (pending.operation.change = change)).map Pending.call ⊆
      (world.calls.filter fun call => decide (call.2.room = room) &&
        decide (call.2.change = change)).map Prod.fst := by
    intro id member
    rcases List.mem_map.mp member with ⟨update, counted, rfl⟩
    rcases List.mem_filter.mp counted with ⟨done, both⟩
    rcases Bool.and_eq_true_iff.mp both with ⟨counts, signed⟩
    rcases orderly.traced update (.inr done) with ⟨called, issued⟩
    rw [decide_eq_true_iff] at signed
    refine List.mem_map.mpr ⟨(update.call, update.operation), List.mem_filter.mpr ⟨called, ?_⟩, rfl⟩
    simp [(changes_of_updatesCounter issued counts).1, signed]
  have short := (((orderly.nodup_updates room).sublist (single.map _)).subperm included).length_le
  rw [List.length_map, List.length_map, ← List.countP_eq_length_filter,
    ← List.countP_eq_length_filter] at short
  exact short

/-- What holds while players are added to an opened room and removed. The counter is below the
number of players by no more than the writes that lower it. -/
structure Attended (game : Game) (world : World) : Prop where
  orderly : world.Orderly
  unopening : world.Unopening game.roomNumber
  playing : ∀ call ∈ world.calls, call.2.room = game.roomNumber →
    call.2.joins game.roomNumber = true ∨ call.2.removed ≠ none ∨ call.2.change = 0
  counted : ∃ count, counter? game.roomNumber world.firestore = some count
  above : ∀ count, counter? game.roomNumber world.firestore = some count →
    game.playerCount - world.completed game.roomNumber (-1) ≤ count
  underWay : ∀ pending ∈ world.outstanding, ∀ count,
    pending.request = .write (.updateData (gameRef game.roomNumber) (countFields count)) →
    game.playerCount - world.completed game.roomNumber (-1) + pending.operation.change ≤ count

namespace Attended

variable {game : Game} {world next : World} {event : Event}

theorem openedBy {operation : Operation} (opened : operation.opened = some game)
    (id : CallId) (firestore : Firestore) (storage : Storage) :
    Attended game (World.openedBy id operation game firestore storage) := by
  have filling := @Filling.openedBy game operation opened id firestore storage
  have written : (World.openedBy id operation game firestore storage).completed
      game.roomNumber (-1) = 0 := rfl
  refine ⟨filling.orderly, filling.unopening, fun call member own => ?_, filling.counted,
    fun count counted => ?_, fun pending member count update => ?_⟩
  · exact (filling.joining call member own).imp_right .inr
  · rw [written]
    simpa using (filling.bounded.counter count counted).1
  · have none' := not_isUpdate_of_asked (asked_of_outstanding_openedBy opened member)
    rw [update] at none'
    cases none'

theorem moves (attended : Attended game world) (stepped : world.step event = some next) :
    (∃ pending killerTarget count, event = .perform pending killerTarget ∧
      pending ∈ world.outstanding ∧
      pending.request = .write (.updateData (gameRef game.roomNumber) (countFields count)) ∧
      (pending.operation.change = -1 ∨ pending.operation.change = 1) ∧
      next = world.perform pending killerTarget ∧
      next.firestore.lookup (gameRef game.roomNumber) =
        (world.firestore.lookup (gameRef game.roomNumber)).map
          (Document.merge (countFields count))) ∨
    (next.firestore.lookup (gameRef game.roomNumber) =
        world.firestore.lookup (gameRef game.roomNumber) ∧
      (∀ change, next.completed game.roomNumber change =
        world.completed game.roomNumber change) ∧
      ∀ pending killerTarget, event = .perform pending killerTarget →
        pending.updatesCounter game.roomNumber = false) := by
  rcases step_cases stepped with
    ⟨id, operation, rfl, _, rfl⟩ | ⟨pending, killerTarget, rfl, ready, rfl⟩
  · refine .inr ⟨rfl, fun _ => rfl, ?_⟩
    intro _ _ same
    cases same
  · rcases gameDocument_cases (attended.orderly.traced.issued ready.1) game.roomNumber
        world.firestore with
      ⟨count, _, changes, update, stored⟩ | ⟨_, _, _, opens, _⟩ | ⟨apart, same⟩
    · have signed : pending.operation.change = -1 ∨ pending.operation.change = 1 :=
        pending.operation.change_cases.imp_right (Or.resolve_left · changes)
      exact .inl ⟨pending, killerTarget, count, rfl, ready.1, update, signed, rfl, stored⟩
    · rw [attended.unopening pending ready.1] at opens
      cases opens
    · refine .inr ⟨same, fun change => ?_, ?_⟩
      · rw [completed_perform, apart]
        rfl
      · rintro _ _ ⟨⟩
        exact apart

theorem counter_moved (attended : Attended game world) {count : Int}
    (moved : next.firestore.lookup (gameRef game.roomNumber) =
      (world.firestore.lookup (gameRef game.roomNumber)).map
        (Document.merge (countFields count))) :
    counter? game.roomNumber next.firestore = some count := by
  rcases attended.counted with ⟨before, counted⟩
  rcases Option.bind_eq_some_iff.mp counted with ⟨document, found, _⟩
  simp [counter?, moved, found]

theorem step (attended : Attended game world)
    (players : OnlyPlayerCalls game.roomNumber world event)
    (stepped : world.step event = some next) : Attended game next := by
  have orderly := attended.orderly.step stepped
  have moved := attended.moves stepped
  rcases step_cases stepped with
    ⟨id, operation, rfl, _, rfl⟩ | ⟨pending, killerTarget, rfl, ready, rfl⟩
  · refine ⟨orderly, attended.unopening.issue (fun own => (players own).1) id, ?_,
      attended.counted, attended.above, ?_⟩
    · intro call member own
      rcases List.mem_cons.mp member with rfl | old
      · exact (players own).2
      · exact attended.playing call old own
    · intro pending member count update
      rcases mem_outstanding_issue.mp member with old | ⟨_, _, asked⟩
      · exact attended.underWay pending old count update
      · have none' := not_isUpdate_of_asked (asked_of_mem_requests asked)
        rw [update] at none'
        cases none'
  · have issued := attended.orderly.traced.issued ready.1
    have more := completed_perform game.roomNumber (-1) world pending killerTarget
    have grown : world.completed game.roomNumber (-1) ≤
        (world.perform pending killerTarget).completed game.roomNumber (-1) := by omega
    have underWay : ∀ other ∈ (world.perform pending killerTarget).outstanding, ∀ count,
        other.request = .write (.updateData (gameRef game.roomNumber) (countFields count)) →
        game.playerCount -
          (world.perform pending killerTarget).completed game.roomNumber (-1) +
            other.operation.change ≤ count := by
      intro other member count update
      rcases mem_outstanding_perform member with old | new
      · have held := attended.underWay other old count update
        omega
      · rcases update_of_mem_followUps issued new update with ⟨read, counted, path, data⟩
        have own : pending.operation.room = game.roomNumber := (gameRef_injective path).symm
        have held := attended.above read (own ▸ counted)
        have written := countFields_injective data
        rw [(answered_of_mem_followUps issued new).2.1]
        omega
    rcases moved with ⟨other, _, count, same, _, update, signed, _, stored⟩ | ⟨kept, still, _⟩
    · cases same
      have counted := attended.counter_moved stored
      refine ⟨orderly, attended.unopening.perform issued _, attended.playing,
        ⟨count, counted⟩, fun shown read => ?_, underWay⟩
      cases counted.symm.trans read
      have held := attended.underWay pending ready.1 count update
      have updates : pending.updatesCounter game.roomNumber = true := by
        simp [Pending.updatesCounter, update]
      rcases signed with lowers | raises
      · simp only [updates, lowers, Bool.true_and, decide_true, if_true] at more
        omega
      · omega
    · have same := counter?_eq_of_lookup kept
      refine ⟨orderly, attended.unopening.perform issued _, attended.playing, ?_, ?_, underWay⟩
      · rw [same]
        exact attended.counted
      · intro count counted
        rw [still]
        exact attended.above count (same ▸ counted)

theorem run {final : World} {events : List Event} (attended : Attended game world)
    (players : Meets World.step (OnlyPlayerCalls game.roomNumber) world events)
    (performed : Transition.run World.step world events = some final) :
    Attended game final :=
  run_invariant (Attended game)
    (fun _ _ _ attended players stepped => attended.step players stepped)
    attended players performed

theorem completed_le_joins (attended : Attended game world) :
    world.completed game.roomNumber (-1) ≤ world.joins game.roomNumber := by
  refine (completed_le_calls attended.orderly game.roomNumber (-1)).trans ?_
  apply List.countP_mono_left
  intro call member both
  rcases Bool.and_eq_true_iff.mp both with ⟨own, lowers⟩
  rw [decide_eq_true_iff] at own lowers
  rcases attended.playing call member own with joins | removes | still
  · exact joins
  · rw [Operation.change_of_removed removes] at lowers
    cases lowers
  · rw [still] at lowers
    cases lowers

theorem exists_removal (attended : Attended game world)
    (raised : 1 ≤ world.completed game.roomNumber 1) :
    ∃ call ∈ world.calls, call.2.room = game.roomNumber ∧ call.2.removed ≠ none := by
  have positive := raised.trans (completed_le_calls attended.orderly game.roomNumber 1)
  rcases List.countP_pos_iff.mp positive with ⟨call, member, both⟩
  rcases Bool.and_eq_true_iff.mp both with ⟨own, raises⟩
  rw [decide_eq_true_iff] at own raises
  refine ⟨call, member, own, fun kept => ?_⟩
  rw [Operation.change_of_not_removed (by rw [raises]; decide) kept] at raises
  cases raises

end Attended

/-! ## How often the counter comes to be zero -/

namespace Lobby

section Zeros

variable {game : Game} {lobby final : Lobby} {world : World} {event : AssassinGame.Event}

theorem showsZero_lookup (room : Int) (store : Firestore) :
    showsZero (store.lookup (gameRef room)) = true ↔ counter? room store = some 0 :=
  decide_eq_true_iff

theorem zeros_moved (attended : Attended game lobby.world)
    (stepped : lobby.world.step event = some world) :
    (lobby.moved game.roomNumber world).zeros = lobby.zeros +
      if counter? game.roomNumber world.firestore = some 0 ∧
        counter? game.roomNumber lobby.world.firestore ≠ some 0 then 1 else 0 := by
  by_cases same : Option.Rel Document.Same (lobby.world.firestore.lookup (gameRef game.roomNumber))
      (world.firestore.lookup (gameRef game.roomNumber))
  · rw [counter?_of_same same, if_neg fun both => both.2 both.1]
    simp [zeros, moved, same]
  · have kept : ¬(counter? game.roomNumber world.firestore = some 0 ∧
        counter? game.roomNumber lobby.world.firestore = some 0) := by
      intro ⟨after, before⟩
      rcases attended.moves stepped with ⟨_, _, count, _, _, _, _, _, stored⟩ | ⟨unchanged, _, _⟩
      · cases (attended.counter_moved stored).symm.trans after
        rcases Option.bind_eq_some_iff.mp before with ⟨document, found, counted⟩
        rw [stored, found] at same
        exact same (.some (Document.same_merge_single (Document.int?_eq_some.mp counted)))
      · rw [unchanged] at same
        exact same (Document.Same.refl _)
    have added : (lobby.moved game.roomNumber world).zeros = lobby.zeros +
        if counter? game.roomNumber world.firestore = some 0 then 1 else 0 := by
      simp only [zeros, moved, same, if_false, List.countP_append, List.countP_singleton,
        showsZero_lookup]
    rw [added]
    congr 1
    refine if_congr ?_ rfl rfl
    exact ⟨fun after => ⟨after, fun before => kept ⟨after, before⟩⟩, And.left⟩

theorem neverBack_iff (attended : Attended game lobby.world)
    (stepped : lobby.world.step event = some world) :
    NeverBack game.roomNumber lobby (.act event) ↔
      (counter? game.roomNumber world.firestore = some 0 ∧
        counter? game.roomNumber lobby.world.firestore ≠ some 0 → lobby.zeros = 0) := by
  rcases attended.moves stepped with
    ⟨pending, killerTarget, count, rfl, _, update, _, _, stored⟩ | ⟨kept, _, apart⟩
  · rw [attended.counter_moved stored, and_imp, Option.some.injEq, NeverBack, update]
    refine imp_congr_left ⟨fun same => ?_, fun zero => by rw [zero]⟩
    simp only [Request.write.injEq, Write.updateData.injEq, true_and] at same
    exact countFields_injective same
  · rw [counter?_eq_of_lookup kept]
    refine iff_of_true ?_ fun both => absurd both.1 both.2
    cases event with
    | call => trivial
    | perform pending killerTarget =>
        intro update
        have counts : pending.updatesCounter game.roomNumber = true := by
          simp [Pending.updatesCounter, update]
        rw [apart pending killerTarget rfl] at counts
        cases counts

theorem step_act {room : Int} {next : Lobby} :
    lobby.step room (.act event) = some next ↔
      ∃ world, lobby.world.step event = some world ∧ lobby.moved room world = next :=
  Option.map_eq_some_iff

theorem zeros_le {events : List AssassinGame.Event} (attended : Attended game lobby.world)
    (players : Meets World.step (OnlyPlayerCalls game.roomNumber) lobby.world events)
    (performed : run (step game.roomNumber) lobby (events.map Event.act) = some final) :
    lobby.zeros ≤ final.zeros := by
  induction events generalizing lobby with
  | nil => exact (congrArg zeros (Option.some.inj performed)).le
  | cons event events induction =>
      rcases run_cons_eq_some.mp performed with ⟨next, stepped, rest⟩
      rcases step_act.mp stepped with ⟨world, moves, rfl⟩
      have more := zeros_moved attended moves
      have later := induction (attended.step players.head moves) (players.tail moves) rest
      omega

/-- The counter comes to be zero at most once if and only if it is never taken back. -/
theorem meets_neverBack_iff {events : List AssassinGame.Event}
    (attended : Attended game lobby.world)
    (players : Meets World.step (OnlyPlayerCalls game.roomNumber) lobby.world events)
    (few : lobby.zeros ≤ 1)
    (performed : run (step game.roomNumber) lobby (events.map Event.act) = some final) :
    Meets (step game.roomNumber) (NeverBack game.roomNumber) lobby (events.map Event.act) ↔
      final.zeros ≤ 1 := by
  induction events generalizing lobby with
  | nil =>
      cases Option.some.inj performed
      exact iff_of_true trivial few
  | cons event events induction =>
      rcases run_cons_eq_some.mp performed with ⟨next, stepped, rest⟩
      rcases step_act.mp stepped with ⟨world, moves, rfl⟩
      have more := zeros_moved attended moves
      have attends := attended.step players.head moves
      have onwards : Meets World.step (OnlyPlayerCalls game.roomNumber)
          (lobby.moved game.roomNumber world).world events := players.tail moves
      have later := zeros_le attends onwards rest
      have others := induction attends onwards
      rw [List.map_cons, meets_cons stepped, neverBack_iff attended moves]
      by_cases returns : counter? game.roomNumber world.firestore = some 0 ∧
          counter? game.roomNumber lobby.world.firestore ≠ some 0
      · rw [if_pos returns] at more
        constructor
        · intro ⟨never, meets⟩
          exact (others (by have := never returns; omega) rest).mp meets
        · intro once
          exact ⟨fun _ => by omega, (others (by omega) rest).mpr once⟩
      · rw [if_neg returns] at more
        rw [others (by omega) rest]
        exact and_iff_right fun both => absurd both returns

end Zeros

section Screens

variable {room : Int} {lobby next final : Lobby} {event : Event}

theorem step_cases (stepped : lobby.step room event = some next) :
    (∃ act world, event = .act act ∧ lobby.world.step act = some world ∧
      next = lobby.moved room world) ∨
    (∃ id screen, event = .appear id screen ∧
      next = { lobby with
        screens := lobby.screens.insert id ⟨screen, lobby.values.length - 1, 0⟩ }) ∨
    ∃ id place watcher value, event = .snapshot id place ∧
      lobby.screens.lookup id = some watcher ∧
      Feed.next? lobby.values watcher.seen place = some value ∧
      (next = { lobby with screens := lobby.screens.erase id } ∨
        ∃ screen starts, WaitingVC.listenDocument.completion watcher.screen value =
            some (screen, starts) ∧
          next = { lobby with
            screens := lobby.screens.insert id
              ⟨screen, place + 1, watcher.starts + if starts then 1 else 0⟩ }) := by
  cases event with
  | act event =>
      rcases step_act.mp stepped with ⟨world, moves, rfl⟩
      exact .inl ⟨event, world, rfl, moves, rfl⟩
  | appear id screen =>
      simp only [step, Option.ite_none_right_eq_some, Option.some.injEq] at stepped
      exact .inr (.inl ⟨id, screen, rfl, stepped.2.symm⟩)
  | snapshot id place =>
      rcases Option.bind_eq_some_iff.mp stepped with ⟨watcher, found, rest⟩
      rcases Option.bind_eq_some_iff.mp rest with ⟨value, shown, ran⟩
      refine .inr (.inr ⟨id, place, watcher, value, rfl, found, shown, ?_⟩)
      split at ran
      · exact .inl (Option.some.inj ran).symm
      · rename_i screen starts completed
        exact .inr ⟨screen, starts, completed, (Option.some.inj ran).symm⟩

def bare (lobby : Lobby) : Lobby := { lobby with screens := ∅ }

theorem run_bare {schedule : List Event}
    (performed : run (step room) lobby schedule = some final) :
    run (step room) lobby.bare ((schedule.filterMap Event.act?).map Event.act) =
      some final.bare := by
  induction schedule generalizing lobby with
  | nil => exact congrArg (some ∘ bare) (Option.some.inj performed)
  | cons event events induction =>
      rcases run_cons_eq_some.mp performed with ⟨next, stepped, rest⟩
      have later := induction rest
      rcases step_cases stepped with
        ⟨act, world, rfl, moves, rfl⟩ | ⟨id, screen, rfl, rfl⟩ |
          ⟨id, place, watcher, value, rfl, _, _, rfl | ⟨screen, starts, _, rfl⟩⟩
      · exact run_cons_eq_some.mpr ⟨_, step_act.mpr ⟨world, moves, rfl⟩, later⟩
      · exact later
      · exact later
      · exact later

/-- Each screen has started the game no more often than the values it has been shown are
zero. -/
def Tallied (lobby : Lobby) : Prop :=
  ∀ id, ∀ watcher ∈ lobby.screens.lookup id,
    watcher.starts ≤ (lobby.values.take watcher.seen).countP showsZero

theorem Tallied.insert (tallied : lobby.Tallied) {id : Nat} {watcher : Watcher}
    (fewer : watcher.starts ≤ (lobby.values.take watcher.seen).countP showsZero) :
    Tallied { lobby with screens := lobby.screens.insert id watcher } := by
  exact Entries.forall_insert fewer tallied

theorem Tallied.step (tallied : lobby.Tallied) (stepped : lobby.step room event = some next) :
    next.Tallied := by
  rcases step_cases stepped with
    ⟨act, world, rfl, moves, rfl⟩ | ⟨id, screen, rfl, rfl⟩ |
      ⟨id, place, watcher, value, rfl, found, shown, rfl | ⟨screen, starts, ran, rfl⟩⟩
  · intro id watcher found
    have earlier : lobby.values <+: (lobby.moved room world).values := by
      simp only [moved]
      split
      · exact List.prefix_refl _
      · exact List.prefix_append _ _
    exact (tallied id watcher found).trans (earlier.take _).sublist.countP_le
  · exact tallied.insert (Nat.zero_le _)
  · exact Entries.forall_erase tallied id
  · refine tallied.insert ?_
    have zero : starts = true → showsZero value = true := by
      rintro rfl
      rcases WaitingVC.completion_starts.mp ran with ⟨data, rfl, counted, _⟩
      exact decide_eq_true counted
    have met := Feed.countP_take_next? shown showsZero
    have before := tallied id watcher found
    cases starts with
    | false => exact before.trans (le_trans (Nat.le_add_right _ _) met)
    | true =>
        rw [zero rfl] at met
        exact le_trans (Nat.add_le_add_right before 1) met

theorem Tallied.startsOnce (tallied : lobby.Tallied) (once : lobby.zeros ≤ 1) :
    lobby.StartsOnce := by
  intro id watcher found
  exact (tallied id watcher found).trans ((List.take_sublist _ _).countP_le.trans once)

theorem run_acts {events : List AssassinGame.Event}
    (performed : run (step room) lobby (events.map Event.act) = some final)
    (screens : AList fun _ : Nat => Watcher) :
    run (step room) { lobby with screens := screens } (events.map Event.act) =
      some { final with screens := screens } := by
  induction events generalizing lobby with
  | nil =>
      cases Option.some.inj performed
      rfl
  | cons event events induction =>
      rcases run_cons_eq_some.mp performed with ⟨next, stepped, rest⟩
      rcases step_act.mp stepped with ⟨world, moves, rfl⟩
      exact run_cons_eq_some.mpr ⟨_, step_act.mpr ⟨world, moves, rfl⟩, induction rest⟩

theorem step_zero {id place : Nat} {watcher : Watcher} {value : Option Document}
    (found : lobby.screens.lookup id = some watcher) (later : watcher.seen ≤ place)
    (there : lobby.values[place]? = some value) (zero : showsZero value = true) :
    ∃ next screen, lobby.step room (.snapshot id place) = some next ∧
      next.values = lobby.values ∧
      next.screens.lookup id = some ⟨screen, place + 1, watcher.starts + 1⟩ := by
  have shown : Feed.next? lobby.values watcher.seen place = some value :=
    Feed.next?_eq_some.mpr ⟨later, there⟩
  rcases Option.bind_eq_some_iff.mp (of_decide_eq_true zero) with ⟨data, rfl, counted⟩
  have starts : ∃ screen, WaitingVC.listenDocument.completion watcher.screen (some data) =
      some (screen, true) := ⟨_, WaitingVC.completion_starts.mpr ⟨data, rfl, counted, rfl⟩⟩
  rcases starts with ⟨screen, ran⟩
  refine ⟨{ lobby with
      screens := lobby.screens.insert id ⟨screen, place + 1, watcher.starts + 1⟩ },
    screen, ?_, rfl, AList.lookup_insert _⟩
  simp [step, found, shown, ran]

/-- A listener that is shown two zeros starts the game twice. -/
theorem exists_startsTwice {events : List AssassinGame.Event} {world : World}
    (performed : run (step room) (opened room world) (events.map Event.act) = some final)
    (twice : 2 ≤ final.zeros) :
    ∃ schedule shown, run (step room) (opened room world) schedule = some shown ∧
      schedule.filterMap Event.act? = events ∧ ¬shown.StartsOnce := by
  rcases Feed.exists_places twice with
    ⟨first, second, before, ⟨_, firstThere, firstZero⟩, _, secondThere, secondZero⟩
  have listens : (WaitingVC.prepared (Segments.decimal room) "").listenDocument.result =
      some (gameRef room) := congrArg Action.result (gameRefOf_eq room)
  have appeared : (opened room world).step room
      (.appear 0 (.prepared (Segments.decimal room) "")) = some { opened room world with
        screens := (∅ : AList fun _ : Nat => Watcher).insert 0
          ⟨.prepared (Segments.decimal room) "", 0, 0⟩ } := by
    rw [step, if_pos ⟨AList.notMem_empty 0, listens⟩]
    rfl
  have moved := run_acts performed ((∅ : AList fun _ : Nat => Watcher).insert 0
    ⟨.prepared (Segments.decimal room) "", 0, 0⟩)
  have waits : ((∅ : AList fun _ : Nat => Watcher).insert 0
      ⟨.prepared (Segments.decimal room) "", 0, 0⟩).lookup 0 =
      some ⟨.prepared (Segments.decimal room) "", 0, 0⟩ := AList.lookup_insert _
  rcases @step_zero room { final with screens := _ } 0 first _ _ waits (Nat.zero_le first)
    firstThere firstZero with ⟨once, _, started, values, shown⟩
  rcases @step_zero room once 0 second _ _ shown before (values ▸ secondThere) secondZero with
    ⟨again, _, restarted, _, shownAgain⟩
  refine ⟨.appear 0 (.prepared (Segments.decimal room) "") ::
      (events.map Event.act ++ [.snapshot 0 first, .snapshot 0 second]), again,
    run_cons_eq_some.mpr ⟨_, appeared, run_append_of moved ?_⟩, ?_, ?_⟩
  · exact run_cons_eq_some.mpr ⟨once, started, run_cons_eq_some.mpr ⟨again, restarted, rfl⟩⟩
  · have acts : (events.map Event.act).filterMap Event.act? = events := by
      rw [List.filterMap_map]
      exact List.filterMap_some
    rw [List.filterMap_cons_none rfl, List.filterMap_append, acts]
    exact List.append_nil events
  · intro few
    have starts : 2 ≤ 1 := few 0 _ shownAgain
    omega

end Screens

/-! ## How many calls it takes -/

/-- What the counter has done, by the calls it has taken. -/
structure Returning (game : Game) (lobby : Lobby) : Prop where
  attended : Attended game lobby.world
  first : 1 ≤ lobby.zeros →
    game.playerCount ≤ lobby.world.completed game.roomNumber (-1)
  left : 1 ≤ lobby.zeros → counter? game.roomNumber lobby.world.firestore ≠ some 0 →
    game.playerCount + 1 ≤ lobby.world.completed game.roomNumber (-1) ∨
      1 ≤ lobby.world.completed game.roomNumber 1
  back : 2 ≤ lobby.zeros →
    game.playerCount + 2 ≤ lobby.world.completed game.roomNumber (-1) ∨
      (game.playerCount + 1 ≤ lobby.world.completed game.roomNumber (-1) ∧
        1 ≤ lobby.world.completed game.roomNumber 1)

section Returning

variable {game : Game} {lobby next final : Lobby} {event : AssassinGame.Event}

theorem zeros_before {before count : Int} (more : next.zeros = lobby.zeros +
      if count = 0 ∧ before ≠ 0 then 1 else 0)
    (shown : 1 ≤ next.zeros) (other : count ≠ 0) : 1 ≤ lobby.zeros := by
  rw [more, if_neg fun both => other both.1] at shown
  exact shown

theorem Returning.lower {before count : Int} (returning : Returning game lobby)
    (attended : Attended game next.world)
    (there : counter? game.roomNumber lobby.world.firestore = some before)
    (counted : counter? game.roomNumber next.world.firestore = some count)
    (above : game.playerCount - lobby.world.completed game.roomNumber (-1) + -1 ≤ count)
    (lowered : next.world.completed game.roomNumber (-1) =
      lobby.world.completed game.roomNumber (-1) + 1)
    (raised : next.world.completed game.roomNumber 1 = lobby.world.completed game.roomNumber 1)
    (more : next.zeros = lobby.zeros + if count = 0 ∧ before ≠ 0 then 1 else 0) :
    Returning game next := by
  have first := returning.first
  have left := returning.left
  have back := returning.back
  simp only [there, Option.some.injEq, ne_eq] at left
  have once := zeros_before more
  refine ⟨attended, ?_, ?_, ?_⟩
  · rw [lowered]
    intro shown
    by_cases zero : count = 0
    · omega
    · have early := first (once shown zero)
      omega
  · rw [counted, lowered, raised]
    intro shown other
    have early := first (once shown fun zero => other (by rw [zero]))
    exact .inl (by omega)
  · rw [lowered, raised, more]
    intro shown
    by_cases again : count = 0 ∧ before ≠ 0
    · rw [if_pos again] at shown
      have early := first (by omega)
      rcases left (by omega) again.2 with enough | helped
      · exact .inl (by omega)
      · exact .inr ⟨by omega, by omega⟩
    · rw [if_neg again] at shown
      rcases back shown with enough | ⟨enough, helped⟩
      · exact .inl (by omega)
      · exact .inr ⟨by omega, by omega⟩

theorem Returning.raise {before count : Int} (returning : Returning game lobby)
    (attended : Attended game next.world)
    (above : game.playerCount - lobby.world.completed game.roomNumber (-1) + 1 ≤ count)
    (lowered : next.world.completed game.roomNumber (-1) =
      lobby.world.completed game.roomNumber (-1))
    (raised : next.world.completed game.roomNumber 1 =
      lobby.world.completed game.roomNumber 1 + 1)
    (more : next.zeros = lobby.zeros + if count = 0 ∧ before ≠ 0 then 1 else 0) :
    Returning game next := by
  have first := returning.first
  have back := returning.back
  refine ⟨attended, ?_, ?_, ?_⟩
  · rw [lowered]
    intro shown
    by_cases zero : count = 0
    · omega
    · exact first (zeros_before more shown zero)
  · rw [raised]
    exact fun _ _ => .inr (by omega)
  · rw [lowered, raised, more]
    intro shown
    by_cases again : count = 0 ∧ before ≠ 0
    · exact .inr ⟨by omega, by omega⟩
    · rw [if_neg again] at shown
      rcases back shown with enough | ⟨enough, helped⟩
      · exact .inl (by omega)
      · exact .inr ⟨by omega, by omega⟩

theorem Returning.step {world : World} (returning : Returning game lobby)
    (players : OnlyPlayerCalls game.roomNumber lobby.world event)
    (stepped : lobby.world.step event = some world) :
    Returning game (lobby.moved game.roomNumber world) := by
  have attended := returning.attended
  have after : Attended game (lobby.moved game.roomNumber world).world :=
    attended.step players stepped
  have more := zeros_moved attended stepped
  rcases attended.moves stepped with
    ⟨pending, killerTarget, count, rfl, member, update, signed, rfl, stored⟩ | ⟨kept, still, _⟩
  · have counted := attended.counter_moved stored
    have above := attended.underWay pending member count update
    have updates : pending.updatesCounter game.roomNumber = true := by
      simp [Pending.updatesCounter, update]
    have lowered := completed_update (-1) updates lobby.world killerTarget
    have raised := completed_update 1 updates lobby.world killerTarget
    rcases attended.counted with ⟨before, there⟩
    rw [counted, there] at more
    simp only [Option.some.injEq, ne_eq] at more
    rcases signed with lowers | raises
    · rw [lowers] at above lowered raised
      exact returning.lower after there counted above lowered raised more
    · rw [raises] at above lowered raised
      exact returning.raise after above lowered raised more
  · have same := counter?_eq_of_lookup kept
    rw [same, if_neg fun both => both.2 both.1] at more
    have world' : (lobby.moved game.roomNumber world).world = world := rfl
    refine ⟨after, ?_, ?_, ?_⟩
    · rw [more, world', still]
      exact returning.first
    · rw [more, world', still, still, same]
      exact returning.left
    · rw [more, world', still, still]
      exact returning.back

theorem Returning.opened {operation : Operation} (opens : operation.opened = some game)
    (id : CallId) (firestore : Firestore) (storage : Storage) :
    Returning game (Lobby.opened game.roomNumber
      (World.openedBy id operation game firestore storage)) := by
  have attended := Attended.openedBy opens id firestore storage
  have own : game.roomNumber = operation.room := roomNumber_of_opened opens
  have shown : counter? game.roomNumber
      (World.openedBy id operation game firestore storage).firestore =
      some game.playerCount := by
    rw [counter?, own, lookup_openedBy]
    exact playerCount_gameFields game
  have zero : 1 ≤ (Lobby.opened game.roomNumber
      (World.openedBy id operation game firestore storage)).zeros → game.playerCount = 0 := by
    intro once
    rcases List.countP_pos_iff.mp once with ⟨value, member, shows⟩
    cases List.mem_singleton.mp member
    rw [showsZero_lookup, shown, Option.some.injEq] at shows
    exact shows
  have few : (Lobby.opened game.roomNumber
      (World.openedBy id operation game firestore storage)).zeros ≤ 1 := List.countP_le_length
  refine ⟨attended, fun once => ?_, fun once other => ?_, fun twice => ?_⟩
  · rw [zero once]
    exact Int.natCast_nonneg _
  · exact absurd (shown.trans (congrArg some (zero once))) other
  · omega

theorem Returning.run {events : List AssassinGame.Event} (returning : Returning game lobby)
    (players : Meets World.step (OnlyPlayerCalls game.roomNumber) lobby.world events)
    (performed : Transition.run (Lobby.step game.roomNumber) lobby
      (events.map Event.act) = some final) : Returning game final := by
  induction events generalizing lobby with
  | nil =>
      cases Option.some.inj performed
      exact returning
  | cons event events induction =>
      rcases run_cons_eq_some.mp performed with ⟨next, stepped, rest⟩
      rcases step_act.mp stepped with ⟨world, moves, rfl⟩
      exact induction (returning.step players.head moves) (players.tail moves) rest

/-- Taking the counter back to zero takes two calls that add players more than the room has
places, or one more and a call that removes a player. -/
theorem Returning.few (returning : Returning game lobby)
    (few : (lobby.world.joins game.roomNumber : Int) ≤ game.playerCount ∨
      ((lobby.world.joins game.roomNumber : Int) ≤ game.playerCount + 1 ∧
        ∀ call ∈ lobby.world.calls, call.2.room = game.roomNumber → call.2.removed = none)) :
    lobby.zeros ≤ 1 := by
  have lowered := returning.attended.completed_le_joins
  by_contra twice
  rcases returning.back (by omega) with enough | ⟨enough, raised⟩
  · omega
  · rcases returning.attended.exists_removal raised with ⟨call, member, own, removes⟩
    rcases few with few | ⟨_, kept⟩
    · omega
    · exact removes (kept call member own)

end Returning

theorem exists_run {room : Int} {lobby : Lobby} {world : World}
    {events : List AssassinGame.Event}
    (performed : Transition.run World.step lobby.world events = some world) :
    ∃ final, Transition.run (Lobby.step room) lobby (events.map Event.act) = some final ∧
      final.world = world := by
  induction events generalizing lobby with
  | nil => exact ⟨lobby, rfl, Option.some.inj performed⟩
  | cons event events induction =>
      rcases run_cons_eq_some.mp performed with ⟨next, moves, rest⟩
      rcases @induction (lobby.moved room next) rest with ⟨final, ran, same⟩
      exact ⟨final, run_cons_eq_some.mpr ⟨_, step_act.mpr ⟨next, moves, rfl⟩, ran⟩, same⟩

theorem run_world {room : Int} {lobby final : Lobby} {events : List AssassinGame.Event}
    (performed : Transition.run (Lobby.step room) lobby (events.map Event.act) = some final) :
    Transition.run World.step lobby.world events = some final.world := by
  induction events generalizing lobby with
  | nil => exact congrArg (some ∘ Lobby.world) (Option.some.inj performed)
  | cons event events induction =>
      rcases run_cons_eq_some.mp performed with ⟨next, stepped, rest⟩
      rcases step_act.mp stepped with ⟨world, moves, rfl⟩
      exact run_cons_eq_some.mpr ⟨world, moves, induction rest⟩

end Lobby

open Lobby in
/-- Players are added to a room and removed from it. Under every schedule of the listeners each
waiting screen starts the game at most once, if and only if no write takes the counter back to
zero. None does when no more players are added than the room has places, or one more and nobody
is removed. -/
theorem waiting_screens_start_once {id : CallId} {operation : Operation} {game : Game}
    {firestore : Firestore} {storage : Storage} {events : List Event} {final : World}
    (opens : operation.opened = some game)
    (performed : run World.step (World.openedBy id operation game firestore storage) events =
      some final)
    (players : Meets World.step (OnlyPlayerCalls game.roomNumber)
      (World.openedBy id operation game firestore storage) events) :
    ((∀ schedule lobby, run (Lobby.step game.roomNumber) (Lobby.opened game.roomNumber
          (World.openedBy id operation game firestore storage)) schedule = some lobby →
        schedule.filterMap Lobby.Event.act? <+: events → lobby.StartsOnce) ↔
      Meets (Lobby.step game.roomNumber) (NeverBack game.roomNumber)
        (Lobby.opened game.roomNumber (World.openedBy id operation game firestore storage))
        (events.map Lobby.Event.act)) ∧
    ((final.joins game.roomNumber : Int) ≤ game.playerCount ∨
        ((final.joins game.roomNumber : Int) ≤ game.playerCount + 1 ∧
          ∀ call ∈ final.calls, call.2.room = game.roomNumber → call.2.removed = none) →
      Meets (Lobby.step game.roomNumber) (NeverBack game.roomNumber)
        (Lobby.opened game.roomNumber (World.openedBy id operation game firestore storage))
        (events.map Lobby.Event.act)) := by
  have returning := Returning.opened opens id firestore storage
  have few : (Lobby.opened game.roomNumber
      (World.openedBy id operation game firestore storage)).zeros ≤ 1 := List.countP_le_length
  rcases @Lobby.exists_run game.roomNumber (Lobby.opened game.roomNumber
    (World.openedBy id operation game firestore storage)) _ _ performed with ⟨last, ran, rfl⟩
  have never := meets_neverBack_iff returning.attended players few ran
  refine ⟨?_, fun enough => never.mpr ((returning.run players ran).few enough)⟩
  rw [never]
  constructor
  · intro once
    by_contra twice
    rcases exists_startsTwice ran (by omega) with ⟨schedule, lobby, shown, acts, more⟩
    exact more (once schedule lobby shown (acts ▸ List.prefix_refl _))
  · rintro once schedule lobby shown ⟨rest, acts⟩
    have tallied : lobby.Tallied := run_keeps Tallied
      (fun tallied stepped => tallied.step stepped) (fun _ _ found => by cases found) shown
    apply tallied.startsOnce
    -- the stores have come some of the way
    have bare := run_bare shown
    rw [← acts, List.map_append, run_append] at ran
    rw [← acts] at players
    rcases Option.bind_eq_some_iff.mp ran with ⟨middle, front, back⟩
    cases front.symm.trans bare
    rcases players.append (run_world front) with ⟨before, after⟩
    exact (zeros_le (returning.attended.run before (run_world front)) after back).trans once

theorem waiting_screens_start_once_bothJoin :
    ∃ final, run World.step (World.created 0 (Game.init 7 2 "noon") ∅ ∅) bothJoin =
        some final ∧
      Meets (Lobby.step 7) (NeverBack 7)
        (Lobby.opened 7 (World.created 0 (Game.init 7 2 "noon") ∅ ∅))
        (bothJoin.map Lobby.Event.act) := by
  have ends : (run World.step (World.created 0 (Game.init 7 2 "noon") ∅ ∅) bothJoin).any
      (fun final => (final.joins 7 : Int) ≤ 2) = true := by decide
  rcases run_ends ends with ⟨final, performed, few⟩
  exact ⟨final, performed,
    (@waiting_screens_start_once 0 (.addGame (Game.init 7 2 "noon")) _ ∅ ∅ _ _ rfl performed
      (by decide)).2 (.inl few)⟩

/-- A player joins a room for one, and another joins it and is removed. -/
def joinAgainAndLeave : List Event :=
  (World.created 0 (Game.init 7 1 "noon") ∅ ∅).follow [
    .call 1 (join 7 "ann"), .answer 0, .answer 0, .answer 0, .answer 0, .answer 0,
    .call 2 (join 7 "bob"), .answer 0, .answer 0, .answer 0, .answer 0, .answer 0,
    .call 3 (.removePlayer 7 (Player.init "bob" someImage)), .answer 0, .answer 0, .answer 0]

def shownAll : List Lobby.Event :=
  .appear 0 (.prepared "7" "ann") :: (joinAgainAndLeave.map .act ++
    [.snapshot 0 0, .snapshot 0 1, .snapshot 0 2, .snapshot 0 3])

theorem waiting_screen_starts_twice :
    ∃ lobby, run (Lobby.step 7)
        (Lobby.opened 7 (World.created 0 (Game.init 7 1 "noon") ∅ ∅)) shownAll = some lobby ∧
      Meets World.step (OnlyPlayerCalls 7) (World.created 0 (Game.init 7 1 "noon") ∅ ∅)
        joinAgainAndLeave ∧
      ¬lobby.StartsOnce := by
  have ends : (run (Lobby.step 7)
      (Lobby.opened 7 (World.created 0 (Game.init 7 1 "noon") ∅ ∅)) shownAll).any
      (fun lobby => (lobby.screens.lookup 0).map Watcher.starts = some 2) = true := by decide
  rcases run_ends ends with ⟨lobby, performed, twice⟩
  refine ⟨lobby, performed, by decide, fun once => ?_⟩
  rcases Option.map_eq_some_iff.mp twice with ⟨watcher, found, starts⟩
  have few := once 0 watcher found
  omega

end AssassinGame
