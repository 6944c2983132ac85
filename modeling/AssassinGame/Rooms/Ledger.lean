import AssassinGame.Rooms.Balance

/-! # The account of one player document

The writes and deletions of a player document under way, the calls that make
them, and the document's presence balance each other in every state. From the
balance follows that a document about to be written is absent and that one about
to be deleted is present.
-/

namespace AssassinGame

open AssassinGame.Action Transition World

namespace World

def additions (room : Int) (id : String) (world : World) : Nat :=
  world.calls.countP fun call => call.2.adds room id

def removals (room : Int) (id : String) (world : World) : Nat :=
  world.calls.countP fun call => call.2.removes room id

def registering (room : Int) (id : String) (world : World) : Nat :=
  world.outstanding.countP fun pending => pending.request.registers room id

def deleting (room : Int) (id : String) (world : World) : Nat :=
  world.outstanding.countP fun pending => pending.request.deletes room id

def present (room : Int) (id : String) (world : World) : Nat :=
  if players room ++ [id] ∈ world.firestore then 1 else 0

/-- A player document is created by the only call that adds it and deleted by the
only call that removes it, in this order. -/
structure Ledger (room : Int) (id : String) (world : World) : Prop where
  balance : world.present room id + world.registering room id + world.removals room id =
    world.additions room id + world.deleting room id
  once : world.additions room id ≤ 1
  order : world.registering room id + world.removals room id ≤ world.additions room id
  leaving : world.deleting room id ≤ world.removals room id

end World

/-! ## Calls -/

theorem not_registers_of_not_adds {operation : Operation} {request : Request} {room : Int}
    {id : String} (adds : operation.adds room id = false)
    (member : request ∈ operation.action.requests) : request.registers room id = false := by
  by_contra registers
  rw [Bool.not_eq_false] at registers
  have added := (asked_of_mem_requests member).adds_of_registers registers
  rw [adds] at added
  cases added

theorem not_deletes_of_not_removes {operation : Operation} {request : Request} {room : Int}
    {id : String} (removes : operation.removes room id = false)
    (member : request ∈ operation.action.requests) : request.deletes room id = false := by
  by_contra deletes
  rw [Bool.not_eq_false] at deletes
  have removed := (asked_of_mem_requests member).removes_of_deletes deletes
  rw [removes] at removed
  cases removed

theorem requests_of_registrable {deviceID : Option UUID} {room : Int} {player : Player}
    {id : String} (registrable : Registrable deviceID room player)
    (named : playerID? room player = some id) :
    ∃ (device : UUID) (data : Data),
      (Operation.addPlayer deviceID room player).action.requests = [
        .write (.setData (players room ++ [id]) (playerFields player)),
        .write (.setData (phoneToPlayers room ++ [device.uuidString])
          (.fields [("name", .string player.name)])),
        .putData (photoRef room player.name) data,
        .getDocument (gameRef room) (.addPlayer (gameRef room))] := by
  rcases registrable_iff.mp registrable with ⟨_, ⟨device, rfl⟩, data, png⟩
  exact ⟨device, data, addPlayer_requests (playerID?_eq_some.mp named) png⟩

@[simp] theorem registers_player (room : Int) (id other : String) (data : Document) :
    (Request.write (.setData (players room ++ [other]) data)).registers room id =
      decide (other = id) := by
  simp [Request.registers]

@[simp] theorem registers_phone (room : Int) (id device : String) (data : Document) :
    (Request.write (.setData (phoneToPlayers room ++ [device]) data)).registers room id =
      false :=
  decide_eq_false (phoneToPlayers_ne_player room device id)

@[simp] theorem registers_putData (room : Int) (id : String) (path : StoragePath)
    (data : Data) : (Request.putData path data).registers room id = false := rfl

@[simp] theorem registers_getDocument (room : Int) (id : String) (path : ResourcePath)
    (completion : Completion) :
    (Request.getDocument path completion).registers room id = false := rfl

namespace World

section Issue

variable {world : World} {room : Int} {call : CallId} {operation : Operation}

theorem registering_issue (world : World) (room : Int) (id : String) (call : CallId)
    (operation : Operation) :
    (world.issue call operation).registering room id = world.registering room id +
      operation.action.requests.countP (Request.registers room id) := by
  simp [registering, World.issue, List.countP_append, List.countP_map, Function.comp_def]

theorem deleting_issue (world : World) (room : Int) (id : String) (call : CallId)
    (operation : Operation) :
    (world.issue call operation).deleting room id = world.deleting room id +
      operation.action.requests.countP (Request.deletes room id) := by
  simp [deleting, World.issue, List.countP_append, List.countP_map, Function.comp_def]

theorem additions_issue (world : World) (room : Int) (id : String) (call : CallId)
    (operation : Operation) :
    (world.issue call operation).additions room id =
      world.additions room id + if operation.adds room id then 1 else 0 := by
  simp [additions, World.issue, List.countP_cons]

theorem removals_issue (world : World) (room : Int) (id : String) (call : CallId)
    (operation : Operation) :
    (world.issue call operation).removals room id =
      world.removals room id + if operation.removes room id then 1 else 0 := by
  simp [removals, World.issue, List.countP_cons]

theorem Ledger.issue_quiet {id : String} (ledger : world.Ledger room id)
    (adds : operation.adds room id = false) (removes : operation.removes room id = false) :
    (world.issue call operation).Ledger room id := by
  have registered : operation.action.requests.countP (Request.registers room id) = 0 :=
    List.countP_eq_zero.mpr fun request member => by
      simp [not_registers_of_not_adds adds member]
  have deleted : operation.action.requests.countP (Request.deletes room id) = 0 :=
    List.countP_eq_zero.mpr fun request member => by
      simp [not_deletes_of_not_removes removes member]
  rcases ledger with ⟨balance, once, order, leaving⟩
  constructor <;>
    simp only [registering_issue, deleting_issue, additions_issue, removals_issue,
      registered, deleted, adds, removes, Bool.false_eq_true, if_false, Nat.add_zero] <;>
    assumption

theorem Ledger.issue_addPlayer {id added : String} {deviceID : Option UUID}
    {player : Player} (ledger : world.Ledger room id)
    (registrable : Registrable deviceID room player)
    (named : playerID? room player = some added) (fresh : world.additions room added = 0) :
    (world.issue call (.addPlayer deviceID room player)).Ledger room id := by
  rcases requests_of_registrable registrable named with ⟨device, data, requests⟩
  have adds : (Operation.addPlayer deviceID room player).adds room id =
      decide (added = id) := by
    simp [Operation.adds, Operation.room, Operation.registered, named]
  have removes : (Operation.addPlayer deviceID room player).removes room id = false := by
    simp [Operation.removes, Operation.removed]
  by_cases same : added = id
  · subst same
    have registered : (Operation.addPlayer deviceID room player).action.requests.countP
        (Request.registers room added) = 1 := by
      simp [requests]
    have deleted : (Operation.addPlayer deviceID room player).action.requests.countP
        (Request.deletes room added) = 0 := by
      simp [requests, Request.deletes]
    rcases ledger with ⟨balance, once, order, leaving⟩
    have still : (world.issue call (.addPlayer deviceID room player)).present room added =
        world.present room added := rfl
    constructor <;>
      simp only [registering_issue, deleting_issue, additions_issue, removals_issue,
        registered, deleted, adds, removes, still, decide_true, if_true, Bool.false_eq_true,
        if_false] <;>
      omega
  · exact ledger.issue_quiet (by simp [adds, same]) removes

theorem Ledger.issue_removePlayer {id removed : String} {player : Player}
    (ledger : world.Ledger room id) (named : playerID? room player = some removed)
    (fresh : world.removals room removed = 0) (added : 0 < world.additions room removed)
    (settled : world.registering room removed = 0) :
    (world.issue call (.removePlayer room player)).Ledger room id := by
  have requests : (Operation.removePlayer room player).action.requests = [
      .write (.delete (players room ++ [removed])),
      .getDocument (gameRef room) (.removePlayer (gameRef room))] :=
    removePlayer_requests (playerID?_eq_some.mp named)
  have adds : (Operation.removePlayer room player).adds room id = false := by
    simp [Operation.adds, Operation.registered]
  have removes : (Operation.removePlayer room player).removes room id =
      decide (removed = id) := by
    simp [Operation.removes, Operation.room, Operation.removed, named]
  by_cases same : removed = id
  · subst same
    have registered : (Operation.removePlayer room player).action.requests.countP
        (Request.registers room removed) = 0 := by
      simp [requests, Request.registers]
    have deleted : (Operation.removePlayer room player).action.requests.countP
        (Request.deletes room removed) = 1 := by
      simp [requests, Request.deletes]
    rcases ledger with ⟨balance, once, order, leaving⟩
    have still : (world.issue call (.removePlayer room player)).present room removed =
        world.present room removed := rfl
    constructor <;>
      simp only [registering_issue, deleting_issue, additions_issue, removals_issue,
        registered, deleted, adds, removes, still, decide_true, if_true, Bool.false_eq_true,
        if_false] <;>
      omega
  · exact ledger.issue_quiet adds (by simp [removes, same])

end Issue

/-! ## Performed requests -/

section Perform

variable {world : World} {room : Int} {pending : Pending}

theorem registering_pos {id : String} (member : pending ∈ world.outstanding)
    (registers : pending.request.registers room id = true) :
    0 < world.registering room id :=
  List.countP_pos_iff.mpr ⟨pending, member, registers⟩

theorem deleting_pos {id : String} (member : pending ∈ world.outstanding)
    (deletes : pending.request.deletes room id = true) : 0 < world.deleting room id :=
  List.countP_pos_iff.mpr ⟨pending, member, deletes⟩

theorem Ledger.fresh {id : String} (ledger : world.Ledger room id)
    (member : pending ∈ world.outstanding)
    (registers : pending.request.registers room id = true) :
    players room ++ [id] ∉ world.firestore := by
  intro inside
  have positive := registering_pos member registers
  have here : world.present room id = 1 := if_pos inside
  rcases ledger with ⟨balance, once, order, leaving⟩
  omega

theorem Ledger.stands {id : String} (ledger : world.Ledger room id)
    (member : pending ∈ world.outstanding)
    (deletes : pending.request.deletes room id = true) :
    players room ++ [id] ∈ world.firestore := by
  by_contra outside
  have positive := deleting_pos member deletes
  have here : world.present room id = 0 := if_neg outside
  rcases ledger with ⟨balance, once, order, leaving⟩
  omega

theorem not_deletes_of_registers {request : Request} {room : Int} {id : String}
    (registers : request.registers room id = true) : request.deletes room id = false := by
  rcases Request.registers_eq_true.mp registers with ⟨data, rfl⟩
  rfl

theorem registering_perform (issued : Issued pending.operation pending.request)
    (member : pending ∈ world.outstanding) (killerTarget : Option Player) (id : String) :
    (world.perform pending killerTarget).registering room id +
      (if pending.request.registers room id then 1 else 0) = world.registering room id := by
  have moved := countP_outstanding_perform member killerTarget
    fun other => other.request.registers room id
  have noWrites : (pending.followUps killerTarget world.firestore).countP
      (fun other => other.request.registers room id) = 0 :=
    List.countP_eq_zero.mpr fun other follows => by
      simp [(answered_of_mem_followUps issued follows).2.2.not_registers]
  rw [noWrites] at moved
  exact moved

theorem deleting_perform (issued : Issued pending.operation pending.request)
    (member : pending ∈ world.outstanding) (killerTarget : Option Player) (id : String) :
    (world.perform pending killerTarget).deleting room id +
      (if pending.request.deletes room id then 1 else 0) = world.deleting room id := by
  have moved := countP_outstanding_perform member killerTarget
    fun other => other.request.deletes room id
  have noDeletions : (pending.followUps killerTarget world.firestore).countP
      (fun other => other.request.deletes room id) = 0 :=
    List.countP_eq_zero.mpr fun other follows => by
      simp [(answered_of_mem_followUps issued follows).2.2.not_deletes]
  rw [noDeletions] at moved
  exact moved

theorem present_perform (world : World) (pending : Pending) (killerTarget : Option Player)
    (room : Int) (id : String) :
    (world.perform pending killerTarget).present room id =
      if pending.request.registers room id then 1
      else if pending.request.deletes room id then 0 else world.present room id := by
  have effect := mem_applyTo pending room id world.firestore
  simp only [present, World.perform, effect]
  cases pending.request.registers room id <;> cases pending.request.deletes room id <;> simp

theorem Ledger.perform {id : String} (ledger : world.Ledger room id)
    (issued : Issued pending.operation pending.request)
    (member : pending ∈ world.outstanding) (killerTarget : Option Player) :
    (world.perform pending killerTarget).Ledger room id := by
  have registered : (world.perform pending killerTarget).registering room id + _ =
    world.registering room id := registering_perform issued member killerTarget id
  have deleted : (world.perform pending killerTarget).deleting room id + _ =
    world.deleting room id := deleting_perform issued member killerTarget id
  have here := present_perform world pending killerTarget room id
  have before : world.present room id = if players room ++ [id] ∈ world.firestore then 1
    else 0 := rfl
  have sameAdditions : (world.perform pending killerTarget).additions room id =
    world.additions room id := rfl
  have sameRemovals : (world.perform pending killerTarget).removals room id =
    world.removals room id := rfl
  have ⟨balance, once, order, leaving⟩ := ledger
  by_cases registers : pending.request.registers room id = true
  · rw [if_neg (ledger.fresh member registers)] at before
    rw [if_pos registers] at registered here
    rw [if_neg (by simp [not_deletes_of_registers registers])] at deleted
    constructor <;> omega
  · rw [if_neg registers] at registered here
    by_cases deletes : pending.request.deletes room id = true
    · rw [if_pos (ledger.stands member deletes)] at before
      rw [if_pos deletes] at deleted here
      constructor <;> omega
    · rw [if_neg deletes] at deleted here
      constructor <;> omega

end Perform

end World

end AssassinGame
