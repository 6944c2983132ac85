import AssassinGame.Rooms.EarlyStart
import AssassinGame.Rooms.Ledger

/-! # When the counter accounts for the players

Each player document is created by one call and deleted by one later call, and no
counter write covers up another. Then the counter shows how many players are
missing whenever nothing is under way.
-/

namespace AssassinGame

open AssassinGame.Action Transition World

namespace World

structure Accounted (game : Game) (world : World) : Prop where
  traced : world.Traced
  unopening : world.Unopening game.roomNumber
  ledger : ∀ id, world.Ledger game.roomNumber id
  balanced : world.Balanced game

/-- The call adds a player under a name of its own, removes a player whose
`addPlayer` has completed and who has not been removed, or has nothing to do with
the counter. -/
def Admits (room : Int) (world : World) (operation : Operation) : Prop :=
  operation.room = room →
    match operation with
    | .addPlayer deviceID _ player => Registrable deviceID room player ∧
        ∃ id ∈ playerID? room player, world.additions room id = 0
    | .removePlayer _ player =>
        ∃ id ∈ playerID? room player, world.removals room id = 0 ∧
          ∃ call ∈ world.calls, call.2.adds room id = true ∧ world.Completed call.1
    | _ => operation.change = 0 ∧ operation.opened = none

end World

/-- A call is admitted, and a write of the counter finds the value that its call
has read. -/
def Undisturbed (room : Int) (world : World) : Event → Prop
  | .call _ operation => world.Admits room operation
  | .perform pending _ =>
      match pending.request with
      | .write (.updateData path data) => path = gameRef room →
          counter? room world.firestore =
            (data.int? "playerCount").map (· - pending.operation.change)
      | _ => True

instance (room : Int) (world : World) : ∀ operation, Decidable (world.Admits room operation)
  | .addPlayer deviceID roomNumber player => inferInstanceAs (Decidable (roomNumber = room →
      Registrable deviceID room player ∧
        ∃ id ∈ playerID? room player, world.additions room id = 0))
  | .removePlayer roomNumber player => inferInstanceAs (Decidable (roomNumber = room →
      ∃ id ∈ playerID? room player, world.removals room id = 0 ∧
        ∃ call ∈ world.calls, call.2.adds room id = true ∧ world.Completed call.1))
  | .addGame _ | .addKillshot _ _ _ _ _ | .uploadKillshotPic _ _ | .uploadKillshotName _ _
  | .imagePickerController _ _ | .createRoom _ _ _ _ =>
      inferInstanceAs (Decidable (_ = room → (_ : Int) = 0 ∧ (_ : Option Game) = none))

instance (room : Int) (world : World) : ∀ event, Decidable (Undisturbed room world event)
  | .call _ operation => inferInstanceAs (Decidable (world.Admits room operation))
  | .perform ⟨_, operation, request⟩ _ =>
      match request with
      | .write (.updateData path data) => inferInstanceAs (Decidable (path = gameRef room →
          counter? room world.firestore =
            (data.int? "playerCount").map (· - operation.change)))
      | .write (.setData _ _) | .write (.delete _) | .putData _ _ | .getDocument _ _ =>
          inferInstanceAs (Decidable True)

namespace World

theorem eq_of_countP_le_one {calls : List (CallId × Operation)}
    {counts : CallId × Operation → Bool} (short : calls.countP counts ≤ 1)
    {first second : CallId × Operation} (member : first ∈ calls)
    (counted : counts first = true) (other : second ∈ calls)
    (otherCounted : counts second = true) : first = second := by
  have taken := (List.perm_cons_erase member).countP_eq counts
  rw [List.countP_cons, if_pos counted] at taken
  by_contra different
  have left : second ∈ calls.erase first :=
    (List.mem_erase_of_ne (Ne.symm different)).mpr other
  have positive := List.countP_pos_iff.mpr ⟨second, left, otherCounted⟩
  omega

namespace Accounted

variable {game : Game} {world next : World}

theorem registering_eq_zero (accounted : Accounted game world) {id : String}
    {call : CallId × Operation} (member : call ∈ world.calls)
    (adds : call.2.adds game.roomNumber id = true) (completed : world.Completed call.1) :
    world.registering game.roomNumber id = 0 := by
  rw [registering, List.countP_eq_zero]
  intro pending under registers
  rcases accounted.traced pending (.inl under) with ⟨called, issued⟩
  have asked : Asked pending.operation pending.request := by
    refine issued.resolve_right fun answered => ?_
    rw [answered.not_registers] at registers
    cases registers
  have same := eq_of_countP_le_one (accounted.ledger id).once called
    (asked.adds_of_registers registers) member adds
  have upload := completed.2 pending under (congrArg Prod.fst same)
  rcases Request.registers_eq_true.mp registers with ⟨data, shape⟩
  rw [shape] at upload
  cases upload

theorem issue_quiet (accounted : Accounted game world) {call : CallId}
    {operation : Operation} (traced : (world.issue call operation).Traced)
    (opened : operation.room = game.roomNumber → operation.opened = none)
    (adds : ∀ id, operation.adds game.roomNumber id = false)
    (removes : ∀ id, operation.removes game.roomNumber id = false)
    (unchanged : operation.room = game.roomNumber → operation.change = 0) :
    Accounted game (world.issue call operation) := by
  rcases accounted.balanced with ⟨count, counted, sum⟩
  refine ⟨traced, accounted.unopening.issue opened call,
    fun id => (accounted.ledger id).issue_quiet (adds id) (removes id), count, counted, ?_⟩
  rw [owed_issue_quiet adds removes unchanged]
  exact sum

theorem issue (accounted : Accounted game world) {call : CallId} {operation : Operation}
    (admits : world.Admits game.roomNumber operation)
    (traced : (world.issue call operation).Traced) :
    Accounted game (world.issue call operation) := by
  by_cases own : operation.room = game.roomNumber
  · rcases accounted.balanced with ⟨count, counted, sum⟩
    have admitted := admits own
    cases operation with
    | addPlayer deviceID roomNumber player =>
        change roomNumber = game.roomNumber at own
        subst own
        rcases admitted with ⟨registrable, id, named, fresh⟩
        rcases requests_of_registrable registrable named with ⟨device, data, requests⟩
        refine ⟨traced, accounted.unopening.issue (fun _ => rfl) call,
          fun other => (accounted.ledger other).issue_addPlayer registrable named fresh,
          count, counted, ?_⟩
        have owes : (world.issue call (.addPlayer deviceID game.roomNumber player)).owed
            (Pending.weight game.roomNumber) =
            world.owed (Pending.weight game.roomNumber) := by
          rw [owed_issue, requests]
          simp [Pending.weight, Pending.updatesCounter, Pending.readsCounter,
            Operation.change]
        rw [owes]
        exact sum
    | removePlayer roomNumber player =>
        change roomNumber = game.roomNumber at own
        subst own
        rcases admitted with ⟨id, named, fresh, adder, member, adds, completed⟩
        refine ⟨traced, accounted.unopening.issue (fun _ => rfl) call,
          fun other => (accounted.ledger other).issue_removePlayer named fresh
            (List.countP_pos_iff.mpr ⟨adder, member, adds⟩)
            (accounted.registering_eq_zero member adds completed),
          count, counted, ?_⟩
        have owes : (world.issue call (.removePlayer game.roomNumber player)).owed
            (Pending.weight game.roomNumber) =
            world.owed (Pending.weight game.roomNumber) := by
          rw [owed_issue]
          simp [Operation.action, removePlayer_requests (playerID?_eq_some.mp named),
            Pending.weight, Pending.updatesCounter, Pending.readsCounter, Operation.change]
        rw [owes]
        exact sum
    | createRoom => cases admitted.1
    | addGame | addKillshot | uploadKillshotPic | uploadKillshotName
    | imagePickerController =>
        exact accounted.issue_quiet traced (fun _ => admitted.2)
          (by simp [Operation.adds, Operation.registered])
          (by simp [Operation.removes, Operation.removed]) fun _ => rfl
  · exact accounted.issue_quiet traced (fun same => absurd same own)
      (by simp [Operation.adds, own]) (by simp [Operation.removes, own])
      fun same => absurd same own

theorem step (accounted : Accounted game world) {event : Event}
    (undisturbed : Undisturbed game.roomNumber world event)
    (stepped : world.step event = some next) : Accounted game next := by
  have traced := accounted.traced.step stepped
  rcases step_cases stepped with
    ⟨id, operation, rfl, _, rfl⟩ | ⟨pending, killerTarget, rfl, ready, rfl⟩
  · exact accounted.issue undisturbed traced
  · have issued := accounted.traced.issued ready.1
    refine ⟨traced, accounted.unopening.perform issued _,
      fun id => (accounted.ledger id).perform issued ready.1 _, ?_⟩
    refine accounted.balanced.perform issued ready.1
      (fun id => (accounted.ledger id).fresh ready.1)
      (fun id => (accounted.ledger id).stands ready.1)
      (accounted.unopening pending ready.1) ?_ killerTarget
    intro written update
    simpa [Undisturbed, update, countFields] using undisturbed

theorem created (id : CallId) (game : Game) {firestore : Firestore} (storage : Storage)
    (empty : firestore.getDocuments (players game.roomNumber) = []) :
    Accounted game (World.created id game firestore storage) := by
  have absent : ∀ other, players game.roomNumber ++ [other] ∉
      (World.created id game firestore storage).firestore := by
    intro other member
    rw [created_firestore, AList.mem_insert] at member
    rcases member with same | inside
    · exact gameRef_ne_player _ _ _ same.symm
    · have listed := Firestore.mem_getDocuments.mpr inside
      rw [empty] at listed
      cases listed
  refine ⟨traced_created id game firestore storage,
    @unopening_openedBy (.addGame game) game rfl id firestore storage _,
    fun other => ?_, ?_⟩
  · have none' : (World.created id game firestore storage).present game.roomNumber other =
      0 := if_neg (absent other)
    constructor <;>
      simp [none', registering, deleting, additions, removals, Operation.adds,
        Operation.removes, Operation.registered, Operation.removed]
  · refine ⟨game.playerCount, counter?_created id game firestore storage, ?_⟩
    have nobody : population game.roomNumber
        (World.created id game firestore storage).firestore = 0 := by
      rw [population, List.length_eq_zero_iff, List.eq_nil_iff_forall_not_mem]
      intro other member
      exact absent other (Firestore.mem_getDocuments.mp member)
    rw [nobody]
    simp [owed]

theorem run {final : World} {events : List Event} (accounted : Accounted game world)
    (undisturbed : Meets World.step (Undisturbed game.roomNumber) world events)
    (performed : Transition.run World.step world events = some final) :
    Accounted game final :=
  run_invariant (Accounted game)
    (fun _ _ _ accounted undisturbed stepped => accounted.step undisturbed stepped)
    accounted undisturbed performed

end Accounted

end World

/-- When the players of a newly opened room have names of their own that name
documents directly, are removed only after they have been added, and every write of
the counter finds the value its call has read, then the counter shows how many
players are missing as soon as nothing is under way for the room. -/
theorem counter_accounts_for_players {id : CallId} {game : Game} {firestore : Firestore}
    {storage : Storage} {events : List Event} {final : World}
    (empty : firestore.getDocuments (players game.roomNumber) = [])
    (performed : run World.step (World.created id game firestore storage) events = some final)
    (undisturbed : Meets World.step (Undisturbed game.roomNumber)
      (World.created id game firestore storage) events)
    (done : ∀ pending ∈ final.outstanding, pending.operation.room ≠ game.roomNumber) :
    counter? game.roomNumber final.firestore = some
      (game.playerCount - (final.firestore.getDocuments (players game.roomNumber)).length) := by
  have accounted := (Accounted.created id game storage empty).run undisturbed performed
  rcases accounted.balanced with ⟨count, counted, sum⟩
  have nothing : final.owed (Pending.weight game.roomNumber) = 0 := by
    apply List.sum_eq_zero
    intro weight member
    rcases List.mem_map.mp member with ⟨pending, under, rfl⟩
    have other := done pending under
    exact weight_of_quiet (accounted.traced.issued under) (by simp [Operation.adds, other])
      (by simp [Operation.removes, other]) fun own => absurd own other
  rw [counted]
  simp only [population, nothing] at sum
  congr 1
  omega

/-- One player joins and leaves while another joins; no write covers up another. -/
def inTurn : List Event :=
  (World.created 0 (Game.init 7 2 "noon") ∅ ∅).follow [
    .call 1 (join 7 "ann"),
    .answer 0, .answer 0, .answer 0, .answer 0, .answer 0,
    .call 2 (join 7 "bob"), .call 3 (.removePlayer 7 (Player.init "ann" someImage)),
    .answer 4, .answer 0, .answer 2, .answer 0, .answer 2, .answer 1, .answer 1, .answer 0]

theorem counter_accounts_for_players_inTurn :
    ∃ final, run World.step (World.created 0 (Game.init 7 2 "noon") ∅ ∅) inTurn =
      some final ∧ counter? 7 final.firestore =
        some ((2 : Int) - (final.firestore.getDocuments (players 7)).length) := by
  have ends : (run World.step (World.created 0 (Game.init 7 2 "noon") ∅ ∅) inTurn).any
      (fun final => final.outstanding = []) = true := by
    decide
  rcases run_ends ends with ⟨final, performed, done⟩
  refine ⟨final, performed, counter_accounts_for_players (by decide) performed (by decide) ?_⟩
  simp [done]

/-- Two players join a room for two; both read the counter before either writes
it. -/
def bothRead : List Event :=
  (World.created 0 (Game.init 7 2 "noon") ∅ ∅).follow [
    .call 1 (join 7 "ann"), .call 2 (join 7 "bob"),
    .answer 0, .answer 0, .answer 0, .answer 1, .answer 1, .answer 1,
    .answer 0, .answer 0, .answer 0, .answer 0]

/-- The counter then shows one missing player although both have joined. -/
theorem counter_loses_update :
    ∃ final, run World.step (World.created 0 (Game.init 7 2 "noon") ∅ ∅) bothRead =
      some final ∧ final.outstanding = [] ∧
        counter? 7 final.firestore ≠
          some ((2 : Int) - (final.firestore.getDocuments (players 7)).length) := by
  apply run_ends
  decide

end AssassinGame
