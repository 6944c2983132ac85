import AssassinGame.Rooms.Players
import AssassinGame.Rooms.Progress

/-! # What counter and players add up to

A request under way owes what it will add to the sum of the counter and the
number of players. Counter, players and what is owed keep adding up as long as no
player document is created twice or deleted in vain, and as long as no counter
write covers up another: it must find the value its call has read.
-/

namespace AssassinGame

open AssassinGame.Action Transition World

/-! ## What a request owes -/

/-- What the request does to the number of player documents. -/
def Request.playerWeight (room : Int) : Request → Int
  | .write (.setData path _) => if (documentID? (players room) path).isSome then 1 else 0
  | .write (.delete path) => if (documentID? (players room) path).isSome then -1 else 0
  | _ => 0

/-- The answer to the request shows its call the room's counter. -/
def Pending.readsCounter (room : Int) (pending : Pending) : Bool :=
  match pending.request with
  | .getDocument path _ => decide (path = gameRef room)
  | _ => false

theorem readsCounter_of_isRead {pending : Pending}
    (issued : Issued pending.operation pending.request)
    (read : pending.request.isRead = true) :
    pending.readsCounter pending.operation.room = true := by
  rcases pending with ⟨id, operation, request⟩
  cases request with
  | getDocument path completion => exact decide_eq_true (Issued.reads_gameRef issued)
  | write | putData => cases read

/-- What the request and what follows it do to counter and players together. -/
def Pending.weight (room : Int) (pending : Pending) : Int :=
  pending.request.playerWeight room +
    if pending.updatesCounter room || pending.readsCounter room then
      pending.operation.change
    else 0

theorem playerWeight_cases (request : Request) (room : Int) :
    (∃ id, request.registers room id = true ∧ request.playerWeight room = 1) ∨
    (∃ id, request.deletes room id = true ∧ request.playerWeight room = -1) ∨
    ((∀ id, request.registers room id = false ∧ request.deletes room id = false) ∧
      request.playerWeight room = 0) := by
  have missing {path : ResourcePath} (none' : documentID? (players room) path = none)
      (id : String) : path ≠ players room ++ [id] := by
    rintro rfl
    rw [documentID?_eq_some.mpr rfl] at none'
    cases none'
  cases request with
  | write write =>
      cases write with
      | setData path data =>
          cases found : documentID? (players room) path with
          | none =>
              refine .inr (.inr ⟨fun id => ⟨?_, rfl⟩, by simp [Request.playerWeight, found]⟩)
              exact decide_eq_false (missing found id)
          | some id =>
              refine .inl ⟨id, ?_, by simp [Request.playerWeight, found]⟩
              exact decide_eq_true (documentID?_eq_some.mp found)
      | updateData path data => exact .inr (.inr ⟨fun id => ⟨rfl, rfl⟩, rfl⟩)
      | delete path =>
          cases found : documentID? (players room) path with
          | none =>
              refine .inr (.inr ⟨fun id => ⟨rfl, ?_⟩, by simp [Request.playerWeight, found]⟩)
              exact decide_eq_false (missing found id)
          | some id =>
              refine .inr (.inl ⟨id, ?_, by simp [Request.playerWeight, found]⟩)
              exact decide_eq_true (documentID?_eq_some.mp found)
  | putData | getDocument => exact .inr (.inr ⟨fun id => ⟨rfl, rfl⟩, rfl⟩)

/-- The player documents change by the weight of the request when it creates no
document twice and deletes none in vain. -/
theorem population_applyTo {pending : Pending} {room : Int} {store : Firestore}
    (fresh : ∀ id, pending.request.registers room id = true → players room ++ [id] ∉ store)
    (present : ∀ id, pending.request.deletes room id = true → players room ++ [id] ∈ store) :
    (population room (pending.applyTo store) : Int) =
      population room store + pending.request.playerWeight room := by
  rcases playerWeight_cases pending.request room with
    ⟨id, registers, weight⟩ | ⟨id, deletes, weight⟩ | ⟨keeps, weight⟩
  · have grown := population_of_registers registers (fresh id registers)
    omega
  · have shrunk := population_of_deletes deletes (present id deletes)
    omega
  · rw [population_of_other keeps, weight]
    omega

theorem Answered.playerWeight {operation : Operation} {request : Request}
    (answered : Answered operation request) (room : Int) : request.playerWeight room = 0 := by
  rcases playerWeight_cases request room with
    ⟨id, registers, _⟩ | ⟨id, deletes, _⟩ | ⟨_, weight⟩
  · rw [answered.not_registers] at registers
    cases registers
  · rw [answered.not_deletes] at deletes
    cases deletes
  · exact weight

theorem followUps_of_readsCounter {pending : Pending} {killerTarget : Option Player}
    {store : Firestore} {room count : Int}
    (issued : Issued pending.operation pending.request)
    (reads : pending.readsCounter room = true) (changes : pending.operation.change ≠ 0)
    (counted : counter? room store = some count) :
    pending.followUps killerTarget store = [⟨pending.call, pending.operation,
      .write (.updateData (gameRef room) (countFields (count + pending.operation.change)))⟩] := by
  rcases pending with ⟨id, operation, request⟩
  rcases Option.bind_eq_some_iff.mp counted with ⟨data, found, shown⟩
  rcases issued with asked | answered
  · change Asked operation request at asked
    cases asked with
    | reads completes =>
        have own : gameRef operation.room = gameRef room := of_decide_eq_true reads
        rw [← own] at found ⊢
        rcases handle_cases completes with ⟨_, handles⟩ | ⟨unchanged, _⟩
        · simp only [Pending.followUps, found, handles, handle_requests shown]
          rfl
        · exact absurd unchanged changes
    | _ => cases reads
  · change Answered operation request at answered
    cases answered <;> cases reads

theorem weight_of_mem_followUps {pending other : Pending} {killerTarget : Option Player}
    {store : Firestore} (issued : Issued pending.operation pending.request)
    (member : other ∈ pending.followUps killerTarget store) (room : Int) :
    other.weight room = if other.updatesCounter room then pending.operation.change else 0 := by
  rcases answered_of_mem_followUps issued member with ⟨_, same, answered⟩
  have notRead : other.readsCounter room = false := by
    rcases other with ⟨id, operation, request⟩
    change Answered pending.operation request at answered
    cases answered <;> rfl
  rw [Pending.weight, answered.playerWeight, notRead, same]
  simp

theorem weight_followUps {pending : Pending} {killerTarget : Option Player}
    {store : Firestore} {room count : Int}
    (issued : Issued pending.operation pending.request)
    (counted : counter? room store = some count) :
    ((pending.followUps killerTarget store).map (Pending.weight room)).sum =
      if pending.readsCounter room then pending.operation.change else 0 := by
  have weights : ∀ other ∈ pending.followUps killerTarget store, other.weight room =
      if other.updatesCounter room then pending.operation.change else 0 :=
    fun _ member => weight_of_mem_followUps issued member room
  by_cases reads : pending.readsCounter room = true ∧ pending.operation.change ≠ 0
  · rw [followUps_of_readsCounter issued reads.1 reads.2 counted] at weights ⊢
    simp [weights, Pending.updatesCounter, reads.1]
  · have nothing : (if pending.readsCounter room then pending.operation.change else 0) = 0 := by
      split
      · rename_i isRead
        exact not_not.mp fun changes => reads ⟨isRead, changes⟩
      · rfl
    rw [nothing]
    apply List.sum_eq_zero
    intro weight member
    rcases List.mem_map.mp member with ⟨other, follows, rfl⟩
    rw [weights other follows]
    split
    · rename_i updates
      rcases answered_of_mem_followUps issued follows with ⟨_, same, answered⟩
      have own := (changes_of_updatesCounter (same ▸ .inr answered) updates).1
      rw [same] at own
      subst own
      exact not_not.mp fun changes =>
        reads ⟨readsCounter_of_isRead issued (isRead_of_mem_followUps follows), changes⟩
    · rfl

theorem weight_of_quiet {pending : Pending} {room : Int}
    (issued : Issued pending.operation pending.request)
    (adds : ∀ id, pending.operation.adds room id = false)
    (removes : ∀ id, pending.operation.removes room id = false)
    (unchanged : pending.operation.room = room → pending.operation.change = 0) :
    pending.weight room = 0 := by
  have playerWeight : pending.request.playerWeight room = 0 := by
    rcases issued with asked | answered
    · rcases playerWeight_cases pending.request room with
        ⟨id, registers, _⟩ | ⟨id, deletes, _⟩ | ⟨_, weight⟩
      · exact absurd (asked.adds_of_registers registers) (by simp [adds])
      · exact absurd (asked.removes_of_deletes deletes) (by simp [removes])
      · exact weight
    · exact answered.playerWeight room
  rw [Pending.weight, playerWeight, zero_add, ite_eq_right_iff]
  intro either
  apply unchanged
  rcases Bool.or_eq_true_iff.mp either with updates | reads
  · exact (changes_of_updatesCounter issued updates).1
  · rcases pending with ⟨call, operation, request⟩
    cases request with
    | getDocument path completion =>
        have own := Issued.reads_gameRef issued
        exact gameRef_injective (own.symm.trans (of_decide_eq_true reads))
    | write | putData => cases reads

theorem phoneToPlayers_ne_player (room : Int) (device id : String) :
    phoneToPlayers room ++ [device] ≠ players room ++ [id] := by
  intro equal
  exact absurd (subcollection_unique equal).2 (by decide)

@[simp] theorem playerWeight_player (room : Int) (id : String) (data : Document) :
    (Request.write (.setData (players room ++ [id]) data)).playerWeight room = 1 := by
  simp [Request.playerWeight, documentID?_eq_some.mpr]

@[simp] theorem playerWeight_delete (room : Int) (id : String) :
    (Request.write (.delete (players room ++ [id]))).playerWeight room = -1 := by
  simp [Request.playerWeight, documentID?_eq_some.mpr]

@[simp] theorem playerWeight_phone (room : Int) (device : String) (data : Document) :
    (Request.write (.setData (phoneToPlayers room ++ [device]) data)).playerWeight room =
      0 := by
  have outside : documentID? (players room) (phoneToPlayers room ++ [device]) = none := by
    rw [Option.eq_none_iff_forall_ne_some]
    intro id found
    exact phoneToPlayers_ne_player room device id (documentID?_eq_some.mp found)
  simp [Request.playerWeight, outside]

@[simp] theorem playerWeight_putData (room : Int) (path : StoragePath) (data : Data) :
    (Request.putData path data).playerWeight room = 0 := rfl

@[simp] theorem playerWeight_getDocument (room : Int) (path : ResourcePath)
    (completion : Completion) :
    (Request.getDocument path completion).playerWeight room = 0 := rfl

/-! ## The sum -/

namespace World

section

variable {world : World} {room : Int} {pending : Pending}

theorem owed_issue_quiet {world : World} {room : Int} {operation : Operation}
    (adds : ∀ id, operation.adds room id = false)
    (removes : ∀ id, operation.removes room id = false)
    (unchanged : operation.room = room → operation.change = 0) (call : CallId) :
    (world.issue call operation).owed (Pending.weight room) =
      world.owed (Pending.weight room) := by
  rw [owed_issue, List.sum_eq_zero, add_zero]
  intro weight member
  rcases List.mem_map.mp member with ⟨request, asked, rfl⟩
  exact weight_of_quiet (.inl (asked_of_mem_requests asked)) adds removes unchanged

/-- The counter changes by what the call means to change it when the write finds
the value the call has read. -/
theorem counter?_applyTo {store : Firestore} {count : Int}
    (issued : Issued pending.operation pending.request)
    (unopening : pending.opensRoom room = false)
    (counted : counter? room store = some count)
    (current : ∀ written,
      pending.request = .write (.updateData (gameRef room) (countFields written)) →
      counter? room store = some (written - pending.operation.change)) :
    counter? room (pending.applyTo store) = some
      (count + if pending.updatesCounter room then pending.operation.change else 0) := by
  rcases gameDocument_cases issued room store with
    ⟨written, _, _, update, stored⟩ | ⟨game, _, _, opens, _⟩ | ⟨apart, same⟩
  · rcases Option.bind_eq_some_iff.mp counted with ⟨document, found, _⟩
    have updates : pending.updatesCounter room = true := by
      simp [Pending.updatesCounter, update]
    have read : count = written - pending.operation.change :=
      Option.some.inj (counted.symm.trans (current written update))
    simp only [counter?, stored, found, updates, if_true, read, Option.map_some,
      Option.bind_some, playerCount_merge_countFields]
    congr 1
    omega
  · rw [unopening] at opens
    cases opens
  · rw [counter?_eq_of_lookup same, counted, apart]
    simp

theorem not_reads_of_updatesCounter (updates : pending.updatesCounter room = true) :
    pending.readsCounter room = false := by
  rcases pending with ⟨call, operation, request⟩
  cases request with
  | getDocument => cases updates
  | write | putData => rfl

/-- Counter, players and what is owed add up to the number of players the room
was opened for. -/
def Balanced (game : Game) (world : World) : Prop :=
  ∃ count, counter? game.roomNumber world.firestore = some count ∧
    count + population game.roomNumber world.firestore +
      world.owed (Pending.weight game.roomNumber) = game.playerCount

theorem Balanced.perform {game : Game} (balanced : world.Balanced game)
    (issued : Issued pending.operation pending.request)
    (member : pending ∈ world.outstanding)
    (fresh : ∀ id, pending.request.registers game.roomNumber id = true →
      players game.roomNumber ++ [id] ∉ world.firestore)
    (stands : ∀ id, pending.request.deletes game.roomNumber id = true →
      players game.roomNumber ++ [id] ∈ world.firestore)
    (unopening : pending.opensRoom game.roomNumber = false)
    (current : ∀ written,
      pending.request = .write (.updateData (gameRef game.roomNumber) (countFields written)) →
      counter? game.roomNumber world.firestore = some (written - pending.operation.change))
    (killerTarget : Option Player) :
    (world.perform pending killerTarget).Balanced game := by
  rcases balanced with ⟨count, counted, sum⟩
  refine ⟨_, counter?_applyTo issued unopening counted current, ?_⟩
  have populated : (population game.roomNumber
      (world.perform pending killerTarget).firestore : Int) = _ :=
    population_applyTo fresh stands
  have paid := owed_perform member killerTarget (Pending.weight game.roomNumber)
  rw [weight_followUps issued counted, Pending.weight] at paid
  by_cases updates : pending.updatesCounter game.roomNumber = true
  · simp only [updates, not_reads_of_updatesCounter updates, Bool.true_or, if_true,
      Bool.false_eq_true, if_false] at paid ⊢
    omega
  · rw [Bool.not_eq_true] at updates
    simp only [updates, Bool.false_or, Bool.false_eq_true, if_false] at paid ⊢
    omega

end

end World

end AssassinGame
