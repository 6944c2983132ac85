import AssassinGame.Rooms.Filling
import AssassinGame.Rooms.Ledger

/-! # Room capacity

Nothing on the way from the join screen to the counter compares the counter with
zero, so the bound on the players of a room is the number of calls that add
players to it. While that number does not exceed the number the room was opened
for, the counter does not fall below zero, there are no more player documents than
places, and once the counter shows zero the players stay the same.
-/

namespace AssassinGame

open AssassinGame.Action Transition World

def Request.registersSome (room : Int) (request : Request) : Bool :=
  decide (request.playerWeight room = 1)

theorem registersSome_of_registers {request : Request} {room : Int} {id : String}
    (registers : request.registers room id = true) : request.registersSome room = true := by
  rcases Request.registers_eq_true.mp registers with ⟨data, rfl⟩
  exact decide_eq_true (playerWeight_player room id data)

theorem exists_registers {request : Request} {room : Int}
    (registers : request.registersSome room = true) :
    ∃ id, request.registers room id = true := by
  have weight := of_decide_eq_true registers
  rcases playerWeight_cases request room with
    ⟨id, found, _⟩ | ⟨_, _, other⟩ | ⟨_, other⟩
  · exact ⟨id, found⟩
  · omega
  · omega

theorem not_registersSome_of_zero {request : Request} {room : Int}
    (weight : request.playerWeight room = 0) : request.registersSome room = false := by
  simp [Request.registersSome, weight]

theorem countP_registersSome_addPlayer (deviceID : Option UUID) (room : Int)
    (player : Player) :
    (addPlayer deviceID room player).requests.countP (Request.registersSome room) ≤ 1 := by
  have phone (device : String) (data : Document) := not_registersSome_of_zero
    (playerWeight_phone room device data)
  have upload (path : StoragePath) (data : Data) := not_registersSome_of_zero
    (playerWeight_putData room path data)
  have read (path : ResourcePath) (completion : Completion) := not_registersSome_of_zero
    (playerWeight_getDocument room path completion)
  rw [addPlayer_requests_eq]
  split
  · simp
  · exact List.countP_le_length
  · simp only [List.countP_cons, List.countP_nil, phone, Bool.false_eq_true, if_false]
    split <;> simp
  · simp only [List.countP_cons, List.countP_nil, phone, upload, read, Bool.false_eq_true,
      if_false]
    split <;> simp

/-- A call writes at most one player document, and only if it joins the room. -/
theorem countP_registersSome_le (operation : Operation) (room : Int) :
    operation.action.requests.countP (Request.registersSome room) ≤
      if operation.joins room then 1 else 0 := by
  by_cases own : operation.room = room
  · subst own
    cases operation with
    | addPlayer deviceID roomNumber player =>
        rw [if_pos (by simp [Operation.joins, Operation.room])]
        exact countP_registersSome_addPlayer deviceID roomNumber player
    | createRoom screen roomNumber date deviceID =>
        rw [Operation.action, createNumberedRoom_requests]
        split
        · rename_i playerCount image counted pictured
          have document : Request.registersSome roomNumber (.write (.setData
              (gameRef roomNumber) (gameFields (Game.init roomNumber playerCount date)))) =
              false := by
            by_contra registers
            rcases exists_registers (Bool.not_eq_false _ ▸ registers) with ⟨id, found⟩
            exact gameRef_ne_player _ _ _ (of_decide_eq_true found)
          have opened : (Operation.createRoom screen roomNumber date deviceID).opened.isSome =
              true := by
            simp [Operation.opened, counted, pictured]
          rw [List.countP_cons, if_neg (by simp [Operation.room, document])]
          simpa [Operation.joins, Operation.room, opened] using
            countP_registersSome_addPlayer deviceID roomNumber
              (Player.init screen.nameField image)
        · simp
    | addGame | removePlayer | addKillshot | uploadKillshotPic | uploadKillshotName
    | imagePickerController =>
        rw [List.countP_eq_zero.mpr]
        · exact Nat.zero_le _
        · intro request member registers
          rcases exists_registers registers with ⟨id, found⟩
          have adds := (asked_of_mem_requests member).adds_of_registers found
          simp [Operation.adds, Operation.registered] at adds
  · rw [List.countP_eq_zero.mpr]
    · exact Nat.zero_le _
    · intro request member registers
      rcases exists_registers registers with ⟨id, found⟩
      have adds := (asked_of_mem_requests member).adds_of_registers found
      simp [Operation.adds, own] at adds

theorem population_applyTo_le (pending : Pending) (room : Int) (store : Firestore) :
    population room (pending.applyTo store) ≤
      population room store + if pending.request.registersSome room then 1 else 0 := by
  rcases playerWeight_cases pending.request room with
    ⟨id, registers, weight⟩ | ⟨id, deletes, weight⟩ | ⟨keeps, weight⟩
  · rw [if_pos (registersSome_of_registers registers)]
    by_cases present : players room ++ [id] ∈ store
    · exact (population_of_rewritten registers present).le.trans (Nat.le_succ _)
    · exact (population_of_registers registers present).le
  · by_cases present : players room ++ [id] ∈ store
    · have shrunk := population_of_deletes deletes present
      omega
    · rw [population_of_missing deletes present]
      exact Nat.le_add_right _ _
  · rw [population_of_other keeps]
    exact Nat.le_add_right _ _

namespace World

/-- The player documents and the writes of player documents under way are no more
than the calls that add players. -/
def Crowded (room : Int) (world : World) : Prop :=
  population room world.firestore +
    world.outstanding.countP (fun pending => pending.request.registersSome room) ≤
    world.joins room

theorem joins_issue (room : Int) (world : World) (id : CallId) (operation : Operation) :
    (world.issue id operation).joins room =
      world.joins room + if operation.joins room then 1 else 0 := by
  simp [joins, World.issue, List.countP_cons]

theorem crowded_start {room : Int} {firestore : Firestore}
    (empty : firestore.getDocuments (players room) = []) (storage : Storage) :
    (World.start firestore storage).Crowded room := by
  simp [Crowded, population, World.start, empty]

theorem Crowded.step {room : Int} {world next : World} {event : Event}
    (crowded : world.Crowded room) (traced : world.Traced)
    (stepped : world.step event = some next) : next.Crowded room := by
  unfold Crowded at crowded
  rcases step_cases stepped with
    ⟨id, operation, rfl, _, rfl⟩ | ⟨pending, killerTarget, rfl, ready, rfl⟩
  · have asked := countP_registersSome_le operation room
    have added : (world.issue id operation).outstanding.countP
        (fun pending => pending.request.registersSome room) =
        world.outstanding.countP (fun pending => pending.request.registersSome room) +
          operation.action.requests.countP (Request.registersSome room) := by
      simp [World.issue, List.countP_append, List.countP_map, Function.comp_def]
    unfold Crowded
    rw [added, joins_issue]
    change population room world.firestore + _ ≤ _
    omega
  · have moved := countP_outstanding_perform ready.1 killerTarget
      fun pending => pending.request.registersSome room
    have none' : (pending.followUps killerTarget world.firestore).countP
        (fun pending => pending.request.registersSome room) = 0 :=
      List.countP_eq_zero.mpr fun other follows => by
        have answered := (answered_of_mem_followUps (traced.issued ready.1) follows).2.2
        simp [not_registersSome_of_zero (answered.playerWeight room)]
    have grown := population_applyTo_le pending room world.firestore
    unfold Crowded
    change population room (pending.applyTo world.firestore) + _ ≤ world.joins room
    omega

/-- Past `past` nobody joins, and no player document changes. -/
structure Frozen (room : Int) (past world : World) : Prop where
  joins : world.joins room = past.joins room
  quiet : ∀ pending ∈ world.outstanding, ∀ id,
    pending.request.registers room id = false ∧ pending.request.deletes room id = false
  same : ∀ id, players room ++ [id] ∈ world.firestore ↔ players room ++ [id] ∈ past.firestore

theorem not_adds_of_unchanged {operation : Operation} {room : Int}
    (unchanged : operation.room = room → operation.change = 0) (id : String) :
    operation.adds room id = false ∧ operation.removes room id = false := by
  by_cases own : operation.room = room
  · have zero := unchanged own
    cases operation <;>
      simp_all [Operation.adds, Operation.removes, Operation.registered, Operation.removed,
        Operation.change]
  · simp [Operation.adds, Operation.removes, own]

theorem Frozen.step {room : Int} {past world next : World} {event : Event}
    (frozen : Frozen room past world) (traced : world.Traced)
    (adds : OnlyAdditions room world event) (stepped : world.step event = some next)
    (still : next.joins room ≤ past.joins room) : Frozen room past next := by
  have before := frozen.joins
  rcases step_cases stepped with
    ⟨id, operation, rfl, _, rfl⟩ | ⟨pending, killerTarget, rfl, ready, rfl⟩
  · rw [joins_issue] at still
    have notJoins : operation.joins room = false := by
      by_contra joins
      rw [Bool.not_eq_false] at joins
      rw [if_pos joins] at still
      omega
    have unchanged : operation.room = room → operation.change = 0 := fun own =>
      (adds own).2.resolve_left (by simp [notJoins])
    refine ⟨by rw [joins_issue, notJoins]; exact before, ?_, frozen.same⟩
    intro pending member name
    rcases mem_outstanding_issue.mp member with old | ⟨_, _, asked⟩
    · exact frozen.quiet pending old name
    · rcases not_adds_of_unchanged unchanged name with ⟨notAdds, notRemoves⟩
      exact ⟨not_registers_of_not_adds notAdds asked,
        not_deletes_of_not_removes notRemoves asked⟩
  · refine ⟨before, ?_, ?_⟩
    · intro other member name
      rcases mem_outstanding_perform member with old | new
      · exact frozen.quiet other old name
      · have answered := (answered_of_mem_followUps (traced.issued ready.1) new).2.2
        exact ⟨answered.not_registers room name, answered.not_deletes room name⟩
    · intro name
      rcases frozen.quiet pending ready.1 name with ⟨notRegisters, notDeletes⟩
      have effect := mem_applyTo pending room name world.firestore
      simp only [notRegisters, notDeletes, Bool.false_eq_true, false_or, true_and] at effect
      exact effect.trans (frozen.same name)

theorem not_removes_of_joins {operation : Operation} {room : Int}
    (joins : operation.joins room = true) (id : String) :
    operation.removes room id = false := by
  cases operation <;> simp_all [Operation.joins, Operation.removes, Operation.removed]

theorem completed_of_joins {room : Int} {world : World}
    (all : world.joins room ≤ world.completedJoins room) {call : CallId × Operation}
    (member : call ∈ world.calls) (joins : call.2.joins room = true) :
    world.Completed call.1 := by
  by_contra unfinished
  have made := (List.perm_cons_erase member).countP_eq fun call => call.2.joins room
  have finished := (List.perm_cons_erase member).countP_eq
    fun call => call.2.joins room && world.Completed call.1
  have fewer : (world.calls.erase call).countP
      (fun call => call.2.joins room && world.Completed call.1) ≤
      (world.calls.erase call).countP fun call => call.2.joins room :=
    List.countP_mono_left fun other _ both => (Bool.and_eq_true_iff.mp both).1
  rw [List.countP_cons, if_pos joins] at made
  rw [List.countP_cons, if_neg (by simp [unfinished])] at finished
  simp only [World.joins, completedJoins] at all
  omega

theorem Filling.frozen {game : Game} {world : World} (filling : Filling game world)
    (all : world.joins game.roomNumber ≤ world.completedJoins game.roomNumber) :
    Frozen game.roomNumber world world := by
  refine ⟨rfl, ?_, fun _ => Iff.rfl⟩
  intro pending member name
  rcases filling.orderly.traced pending (.inl member) with ⟨called, issued⟩
  -- a call for the room either joins it or has nothing to do with its players
  have cases' : pending.operation.joins game.roomNumber = true ∨
      pending.operation.adds game.roomNumber name = false ∧
        pending.operation.removes game.roomNumber name = false := by
    by_cases own : pending.operation.room = game.roomNumber
    · rcases filling.joining _ called own with joins | unchanged
      · exact .inl joins
      · exact .inr (not_adds_of_unchanged (fun _ => unchanged) name)
    · exact .inr (not_adds_of_unchanged (fun same => absurd same own) name)
  constructor
  · by_contra registers
    rw [Bool.not_eq_false] at registers
    rcases issued with asked | answered
    · have adds := asked.adds_of_registers registers
      rcases cases' with joins | ⟨notAdds, _⟩
      · have upload := (completed_of_joins all called joins).2 pending member rfl
        rcases Request.registers_eq_true.mp registers with ⟨data, shape⟩
        rw [shape] at upload
        cases upload
      · rw [adds] at notAdds
        cases notAdds
    · rw [answered.not_registers] at registers
      cases registers
  · by_contra deletes
    rw [Bool.not_eq_false] at deletes
    rcases issued with asked | answered
    · have removes := asked.removes_of_deletes deletes
      rcases cases' with joins | ⟨_, notRemoves⟩
      · rw [not_removes_of_joins joins] at removes
        cases removes
      · rw [removes] at notRemoves
        cases notRemoves
    · rw [answered.not_deletes] at deletes
      cases deletes

theorem joins_le_of_step {room : Int} {world next : World} {event : Event}
    (stepped : world.step event = some next) : world.joins room ≤ next.joins room := by
  rcases step_cases stepped with ⟨id, operation, rfl, _, rfl⟩ | ⟨pending, _, rfl, _, rfl⟩
  · rw [joins_issue]
    exact Nat.le_add_right _ _
  · exact le_refl _

theorem Filling.frozen_run {game : Game} {past final : World} {events : List Event}
    (filling : Filling game past)
    (all : past.joins game.roomNumber ≤ past.completedJoins game.roomNumber)
    (adds : Meets World.step (OnlyAdditions game.roomNumber) past events)
    (performed : Transition.run World.step past events = some final)
    (still : final.joins game.roomNumber ≤ past.joins game.roomNumber) :
    Frozen game.roomNumber past final := by
  have kept := run_invariant
    (fun world => world.Traced ∧ past.joins game.roomNumber ≤ world.joins game.roomNumber ∧
      (world.joins game.roomNumber ≤ past.joins game.roomNumber →
        Frozen game.roomNumber past world))
    (fun world event next known adds stepped => by
      rcases known with ⟨traced, grown, frozen⟩
      have more : world.joins game.roomNumber ≤ next.joins game.roomNumber :=
        joins_le_of_step stepped
      refine ⟨traced.step stepped, grown.trans more, fun still => ?_⟩
      exact (frozen (more.trans still)).step traced adds stepped still)
    ⟨filling.orderly.traced, le_refl _, fun _ => filling.frozen all⟩ adds performed
  exact kept.2.2 still

end World

/-- Whatever the schedule, while no more players are added to a room, its creator
included, than it was opened for, its counter does not fall below zero, it has no
more player documents than places, and its players stay the same once the counter
shows zero. -/
theorem capacity_respected {id : CallId} {screen : CreateGameVC} {roomNumber : Int}
    {date : String} {deviceID : Option UUID} {game : Game} {firestore : Firestore}
    {storage : Storage} {before after : List Event} {past final : World}
    (opened : (Operation.createRoom screen roomNumber date deviceID).opened = some game)
    (empty : firestore.getDocuments (players game.roomNumber) = [])
    (reached : run World.step (World.openedBy id
      (.createRoom screen roomNumber date deviceID) game firestore storage) before =
      some past)
    (performed : run World.step past after = some final)
    (added : Meets World.step (OnlyAdditions game.roomNumber) (World.openedBy id
      (.createRoom screen roomNumber date deviceID) game firestore storage)
      (before ++ after))
    (few : (final.joins game.roomNumber : Int) ≤ game.playerCount) :
    (∃ document count total,
      final.firestore.lookup (gameRef game.roomNumber) = some document ∧
      document.int? "playerCount" = some count ∧ 0 ≤ count ∧
      document.int? "totalPlayers" = some total ∧
      ((final.firestore.getDocuments (players game.roomNumber)).length : Int) ≤ total) ∧
    (counter? game.roomNumber past.firestore = some 0 → ∀ name,
      players game.roomNumber ++ [name] ∈ final.firestore ↔
        players game.roomNumber ++ [name] ∈ past.firestore) := by
  rcases added.append reached with ⟨addedBefore, addedAfter⟩
  have earlier := (Filling.openedBy opened id firestore storage).run addedBefore reached
  have filling := earlier.run addedAfter performed
  have crowded : final.Crowded game.roomNumber := by
    have kept := run_keeps (fun world => world.Traced ∧ world.Crowded game.roomNumber)
      (fun known stepped => ⟨known.1.step stepped, known.2.step known.1 stepped⟩)
      ⟨traced_start firestore storage, crowded_start empty storage⟩
      (run_append_of (run_openedBy opened id firestore storage)
        (run_append_of reached performed))
    exact kept.2
  have written := filling.orderly.updates_le_completedJoins filling.joining
  have made := completedJoins_le_joins game.roomNumber final
  constructor
  · rcases filling.document with ⟨document, found, total, shown⟩
    rcases Option.isSome_iff_exists.mp shown with ⟨count, counted⟩
    have between := filling.bounded.counter count (by simp [counter?, found, counted])
    refine ⟨document, count, game.playerCount, found, counted, ?_, total, ?_⟩
    · have close := between.1
      omega
    · unfold Crowded population at crowded
      omega
  · intro zero name
    have close := (earlier.bounded.counter 0 zero).1
    have finished := earlier.orderly.updates_le_completedJoins earlier.joining
    have began := completedJoins_le_joins game.roomNumber past
    have grown : past.joins game.roomNumber ≤ final.joins game.roomNumber :=
      run_relates (fun left right => left.joins game.roomNumber ≤ right.joins game.roomNumber)
        (fun _ => le_refl _) (fun _ _ _ => le_trans)
        (fun _ _ _ stepped => joins_le_of_step stepped) performed
    exact (earlier.frozen_run (by omega) addedAfter performed (by omega)).same name

/-- The creator of a room for two joins, then another player does. -/
def bothPlaces : List Event :=
  (World.openedBy 0 (create 123 "ann" 2) (Game.init 123 2 "noon") ∅ ∅).follow [
    .answer 0, .answer 0, .answer 0, .answer 0, .answer 0, .call 1 (join 123 "bob"),
    .answer 0, .answer 0, .answer 0, .answer 0, .answer 0]

theorem capacity_respected_bothPlaces :
    ∃ final, run World.step (World.openedBy 0 (create 123 "ann" 2) (Game.init 123 2 "noon") ∅ ∅)
      bothPlaces = some final ∧
      ∃ document, final.firestore.lookup (gameRef 123) = some document := by
  have ends : (run World.step (World.openedBy 0 (create 123 "ann" 2) (Game.init 123 2 "noon") ∅ ∅)
      bothPlaces).any (fun final => (final.joins 123 : Int) ≤ 2) = true := by
    decide
  rcases run_ends ends with ⟨final, reached, few⟩
  rcases (capacity_respected rfl (by decide) reached (run_nil final) (by decide) few).1 with
    ⟨document, _, _, found, _⟩
  exact ⟨final, reached, document, found⟩

/-- The creator of a room for one joins, then another player does, one call after
the other. -/
def oneTooMany : List Event :=
  (World.openedBy 0 (create 123 "ann" 1) (Game.init 123 1 "noon") ∅ ∅).follow [
    .answer 0, .answer 0, .answer 0, .answer 0, .answer 0, .call 1 (join 123 "bob"),
    .answer 0, .answer 0, .answer 0, .answer 0, .answer 0]

/-- The room for one player ends with two players and a negative counter, although
its counter had already shown zero when the second one joined. -/
theorem capacity_exceeded :
    ∃ final, run World.step (World.openedBy 0 (create 123 "ann" 1) (Game.init 123 1 "noon") ∅ ∅)
        oneTooMany = some final ∧
      (run World.step (World.openedBy 0 (create 123 "ann" 1) (Game.init 123 1 "noon") ∅ ∅)
        (oneTooMany.take 5)).any (fun past => counter? 123 past.firestore = some 0 ∧
          past.firestore.getDocuments (players 123) = ["ann"]) = true ∧
      counter? 123 final.firestore = some (-1) ∧
      (final.firestore.lookup (gameRef 123)).bind (·.int? "totalPlayers") = some 1 ∧
      final.firestore.getDocuments (players 123) = ["ann", "bob"] := by
  have ends : (run World.step (World.openedBy 0 (create 123 "ann" 1) (Game.init 123 1 "noon") ∅ ∅)
      oneTooMany).any (fun final => counter? 123 final.firestore = some (-1) ∧
        (final.firestore.lookup (gameRef 123)).bind (·.int? "totalPlayers") = some 1 ∧
        final.firestore.getDocuments (players 123) = ["ann", "bob"]) = true := by
    decide
  rcases run_ends ends with ⟨final, reached, exceeded⟩
  exact ⟨final, reached, by decide, exceeded⟩

end AssassinGame
