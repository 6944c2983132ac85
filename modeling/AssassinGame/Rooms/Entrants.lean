import AssassinGame.Rooms.Filling
import AssassinGame.Rooms.Registering

/-! # Who has entered a room

A call whose write of the counter has been performed has run to its end, and the
document of its player is in the store. Where nobody is removed, as many completed
writes as a name has entrants prove that somebody of another name is registered.
-/

namespace AssassinGame

open AssassinGame.Action Transition World Segments

/-- The phone and the player that the operation passes to `addPlayer`. -/
def Operation.registration : Operation → Option (Option UUID × Player)
  | .addPlayer deviceID _ player => some (deviceID, player)
  | .createRoom screen _ _ deviceID =>
      match int? screen.numOfPlayers, screen.imageToUpload with
      | some _, some image => some (deviceID, Player.init screen.nameField image)
      | _, _ => none
  | _ => none

/-- The name of the player that the operation enters into the room, running to its
end. -/
def Operation.entrant (room : Int) (operation : Operation) : Option String :=
  operation.registration.bind fun registration =>
    if operation.room = room ∧ Registrable registration.1 room registration.2 then
      some registration.2.name
    else none

theorem entrant_eq_some {room : Int} {operation : Operation} {name : String} :
    operation.entrant room = some name ↔
      ∃ deviceID player, operation.registration = some (deviceID, player) ∧
        operation.room = room ∧ Registrable deviceID room player ∧ player.name = name := by
  simp only [Operation.entrant, Option.bind_eq_some_iff, Option.ite_none_right_eq_some,
    Option.some.injEq, Prod.exists]
  constructor
  · intro ⟨deviceID, player, found, ⟨own, registrable⟩, named⟩
    exact ⟨deviceID, player, found, own, registrable, named⟩
  · intro ⟨deviceID, player, found, own, registrable, named⟩
    exact ⟨deviceID, player, found, ⟨own, registrable⟩, named⟩

def Operation.opening (operation : Operation) : List (ResourcePath × Document) :=
  operation.opened.toList.map fun game => (gameRef operation.room, gameFields game)

theorem requests_of_registration {operation : Operation} {deviceID : Option UUID}
    {player : Player} (registers : operation.registration = some (deviceID, player)) :
    operation.action.requests = (setAll operation.opening).map Request.write ++
      (addPlayer deviceID operation.room player).requests := by
  cases operation with
  | addPlayer =>
      cases registers
      rfl
  | createRoom screen roomNumber date device =>
      simp only [Operation.registration] at registers
      split at registers
      · rename_i playerCount image counted pictured
        cases registers
        rw [Operation.action, createNumberedRoom_requests]
        simp [Operation.opening, Operation.opened, Operation.room, setAll, counted, pictured]
      · cases registers
  | addGame | removePlayer | addKillshot | uploadKillshotPic | uploadKillshotName
  | imagePickerController => cases registers

theorem requests_of_no_registration {operation : Operation} (lowers : operation.change = -1)
    (registers : operation.registration = none) : operation.action.requests = [] := by
  cases operation with
  | createRoom screen roomNumber date device =>
      simp only [Operation.registration] at registers
      split at registers
      · cases registers
      · rename_i missing
        rw [Operation.action, createNumberedRoom_requests]
        split
        · rename_i counted pictured
          exact (missing _ _ counted pictured).elim
        · rfl
  | addPlayer => cases registers
  | addGame | removePlayer | addKillshot | uploadKillshotPic | uploadKillshotName
  | imagePickerController => cases lowers

theorem registered_of_registration {operation : Operation} {deviceID : Option UUID}
    {player : Player} (registers : operation.registration = some (deviceID, player)) :
    operation.registered = some player := by
  cases operation with
  | addPlayer =>
      cases registers
      rfl
  | createRoom screen roomNumber date device =>
      simp only [Operation.registration] at registers
      split at registers
      · rename_i pictured
        cases registers
        simp [Operation.registered, pictured]
      · cases registers
  | addGame | removePlayer | addKillshot | uploadKillshotPic | uploadKillshotName
  | imagePickerController => cases registers

theorem eq_of_adds_of_entrant {operation : Operation} {room : Int} {name id : String}
    (enters : operation.entrant room = some name) (plain : Plain name)
    (adds : operation.adds room id = true) : id = name := by
  rcases entrant_eq_some.mp enters with ⟨deviceID, player, registers, own, _, rfl⟩
  have both := of_decide_eq_true adds
  rw [registered_of_registration registers, Option.bind_some, playerID?_of_plain plain,
    Option.some.injEq] at both
  exact both.2.symm

theorem entrant_of_result {operation : Operation} (lowers : operation.change = -1)
    (ended : operation.action.result = some ()) :
    ∃ name, operation.entrant operation.room = some name := by
  cases operation with
  | addPlayer deviceID roomNumber player =>
      exact ⟨player.name, entrant_eq_some.mpr ⟨deviceID, player, rfl, rfl,
        addPlayer_result_eq_some.mp ended, rfl⟩⟩
  | createRoom screen roomNumber date deviceID =>
      rw [Operation.action, CreateGameVC.createNumberedRoom_result] at ended
      rcases ended with ⟨playerCount, counted, image, pictured, registrable⟩
      exact ⟨screen.nameField, entrant_eq_some.mpr ⟨deviceID, Player.init screen.nameField image,
        by simp [Operation.registration, counted, pictured], rfl, registrable, rfl⟩⟩
  | addGame | removePlayer | addKillshot | uploadKillshotPic | uploadKillshotName
  | imagePickerController => cases lowers

theorem entrant_of_read {operation : Operation} {request : Request}
    (lowers : operation.change = -1) (member : request ∈ operation.action.requests)
    (read : request.isRead = true) : ∃ name, operation.entrant operation.room = some name := by
  cases registers : operation.registration with
  | none =>
      rw [requests_of_no_registration lowers registers] at member
      cases member
  | some registration =>
      rcases registration with ⟨deviceID, player⟩
      have requests := requests_of_registration registers
      rw [requests] at member
      rcases List.mem_append.mp member with written | asked
      · rcases List.mem_map.mp written with ⟨write, _, rfl⟩
        cases read
      · refine ⟨player.name, entrant_eq_some.mpr ⟨deviceID, player, registers, rfl, ?_, rfl⟩⟩
        by_contra trapped
        rw [not_isRead_of_not_registrable trapped request asked] at read
        cases read

theorem registers_of_entrant {operation : Operation} {room : Int} {name : String}
    (enters : operation.entrant room = some name) (plain : Plain name) :
    ∃ request ∈ operation.action.requests, request.registers room name = true := by
  rcases entrant_eq_some.mp enters with ⟨deviceID, player, registers, rfl, registrable, rfl⟩
  have requests := requests_of_registration registers
  have named := @document?_player operation.room player plain
  have asked : Request.write (.setData (players operation.room ++ [player.name])
      (playerFields player)) ∈ (addPlayer deviceID operation.room player).requests := by
    rw [addPlayer_requests_eq, named]
    split <;> simp_all
  exact ⟨_, requests ▸ List.mem_append_right _ asked,
    Request.registers_eq_true.mpr ⟨playerFields player, rfl⟩⟩

/-! ## What runs keep of the calls made -/

namespace World

/-- While nobody is removed: no request of a call is lost, a call that reads or writes
a counter was to run to its end, and the player documents are those whose writes have
been performed. -/
structure Documented (world : World) : Prop where
  orderly : world.Orderly
  fresh : (world.calls.map Prod.fst).Nodup
  keeps : ∀ call ∈ world.calls, call.2.removed = none
  asked : ∀ call ∈ world.calls, ∀ request ∈ call.2.action.requests,
    ⟨call.1, call.2, request⟩ ∈ world.outstanding ∨
      ⟨call.1, call.2, request⟩ ∈ world.performed
  reads : ∀ pending, pending ∈ world.outstanding ∨ pending ∈ world.performed →
    pending.request.isChained = true →
      ∃ request ∈ pending.operation.action.requests, request.isRead = true
  stored : ∀ pending ∈ world.performed, ∀ room id,
    pending.request.registers room id = true → players room ++ [id] ∈ world.firestore
  origin : ∀ room id, players room ++ [id] ∈ world.firestore →
    ∃ call ∈ world.calls, call.2.adds room id = true

namespace Documented

variable {world next : World}

theorem start : (World.start ∅ ∅).Documented where
  orderly := Orderly.start ∅ ∅
  fresh := .nil
  keeps _ member := by cases member
  asked _ member := by cases member
  reads _ either := by rcases either with member | member <;> cases member
  stored _ member := by cases member
  origin room id member := by
    rw [← AList.lookup_isSome] at member
    cases member

theorem issue (documented : world.Documented) {id : CallId} {operation : Operation}
    (unused : id ∉ world.calls.map Prod.fst) (keeps : operation.removed = none)
    (orderly : (world.issue id operation).Orderly) :
    (world.issue id operation).Documented where
  orderly := orderly
  fresh := List.nodup_cons.mpr ⟨unused, documented.fresh⟩
  keeps := by
    intro call member
    rcases List.mem_cons.mp member with rfl | old
    · exact keeps
    · exact documented.keeps call old
  asked := by
    intro call member request inside
    rw [mem_outstanding_issue]
    rcases List.mem_cons.mp member with rfl | old
    · exact .inl (.inr ⟨rfl, rfl, inside⟩)
    · exact (documented.asked call old request inside).imp_left .inl
  reads := by
    intro pending either chained
    rcases either with member | done
    · rcases mem_outstanding_issue.mp member with old | ⟨_, same, asked⟩
      · exact documented.reads pending (.inl old) chained
      · have notUpdate := not_isUpdate_of_asked (asked_of_mem_requests asked)
        refine ⟨pending.request, same ▸ asked, ?_⟩
        simpa [Request.isChained, notUpdate] using chained
    · exact documented.reads pending (.inr done) chained
  stored := documented.stored
  origin := by
    intro room name member
    rcases documented.origin room name member with ⟨call, made, adds⟩
    exact ⟨call, List.mem_cons_of_mem _ made, adds⟩

theorem existing (documented : world.Documented) {pending : Pending}
    (member : pending ∈ world.outstanding) (room : Int) (id : String) :
    players room ++ [id] ∈ pending.applyTo world.firestore ↔
      pending.request.registers room id = true ∨ players room ++ [id] ∈ world.firestore := by
  rcases documented.orderly.traced pending (.inl member) with ⟨called, issued⟩
  have noDelete : pending.request.deletes room id = false := by
    by_contra deletes
    rw [Bool.not_eq_false] at deletes
    rcases issued with asked | answered
    · have removes := asked.removes_of_deletes deletes
      simp [Operation.removes, documented.keeps _ called] at removes
    · rw [answered.not_deletes] at deletes
      cases deletes
  rw [mem_applyTo]
  simp [noDelete]

theorem perform (documented : world.Documented) {pending : Pending}
    {killerTarget : Option Player} (member : pending ∈ world.outstanding)
    (orderly : (world.perform pending killerTarget).Orderly) :
    (world.perform pending killerTarget).Documented := by
  rcases documented.orderly.traced pending (.inl member) with ⟨called, issued⟩
  refine ⟨orderly, documented.fresh, documented.keeps, ?_, ?_, ?_, ?_⟩
  · intro call made request inside
    rcases documented.asked call made request inside with under | done
    · by_cases same : (⟨call.1, call.2, request⟩ : Pending) = pending
      · exact .inr (same ▸ List.mem_cons_self)
      · exact .inl (List.mem_append_left _ ((List.mem_erase_of_ne same).mpr under))
    · exact .inr (List.mem_cons_of_mem _ done)
  · intro other either chained
    rcases either with under | done
    · rcases mem_outstanding_perform under with old | new
      · exact documented.reads other (.inl old) chained
      · have read := isRead_of_mem_followUps new
        rw [(answered_of_mem_followUps issued new).2.1]
        exact documented.reads pending (.inl member) (by simp [Request.isChained, read])
    · rcases List.mem_cons.mp done with rfl | old
      · exact documented.reads other (.inl member) chained
      · exact documented.reads other (.inr old) chained
  · intro other done room id registers
    apply (documented.existing member room id).mpr
    rcases List.mem_cons.mp done with rfl | old
    · exact .inl registers
    · exact .inr (documented.stored other old room id registers)
  · intro room id present
    rcases (documented.existing member room id).mp present with registers | old
    · rcases issued with asked | answered
      · exact ⟨_, called, asked.adds_of_registers registers⟩
      · rw [answered.not_registers] at registers
        cases registers
    · exact documented.origin room id old

theorem step (documented : world.Documented) {event : Event}
    (keeps : ∀ id operation, event = .call id operation → operation.removed = none)
    (stepped : world.step event = some next) : next.Documented := by
  have orderly := documented.orderly.step stepped
  rcases step_cases stepped with
    ⟨id, operation, rfl, unused, rfl⟩ | ⟨pending, killerTarget, rfl, ready, rfl⟩
  · exact documented.issue unused (keeps id operation rfl) orderly
  · exact documented.perform ready.1 orderly

/-- A call whose write of a counter has been performed has entered a player, and the
player's document is there. -/
theorem entrant_of_update (documented : world.Documented) {room : Int} {update : Pending}
    (done : update ∈ world.performed) (counts : update.updatesCounter room = true)
    (plain : ∀ call ∈ world.calls, ∀ name ∈ call.2.entrant room, Plain name) :
    ∃ name, update.operation.entrant room = some name ∧
      players room ++ [name] ∈ world.firestore := by
  rcases documented.orderly.traced update (.inr done) with ⟨called, issued⟩
  have isUpdate := Pending.isUpdate_of_updatesCounter counts
  rcases changes_of_updatesCounter issued counts with ⟨own, changes⟩
  have lowers := Operation.change_of_not_removed changes (documented.keeps _ called)
  rcases documented.reads update (.inr done) (by simp [Request.isChained, isUpdate]) with
    ⟨read, asked, isRead⟩
  rcases entrant_of_read lowers asked isRead with ⟨name, enters⟩
  rw [own] at enters
  rcases registers_of_entrant enters (plain _ called name enters) with
    ⟨request, inside, registers⟩
  refine ⟨name, enters, ?_⟩
  rcases documented.asked _ called request inside with under | performed
  · -- after its update a call has only the picture left
    have upload := documented.orderly.settled update done isUpdate _ under rfl
    rcases Request.registers_eq_true.mp registers with ⟨data, rfl⟩
    cases upload
  · exact documented.stored _ performed room name registers

/-- When more writes of the counter have been performed than there are entrants with names of one
kind, somebody with another name is registered. -/
theorem exists_other_entrant (documented : world.Documented) {room : Int} {kind : String → Bool}
    (plain : ∀ call ∈ world.calls, ∀ other ∈ call.2.entrant room, Plain other)
    (few : (world.calls.countP fun call => (call.2.entrant room).any kind) <
      world.updates room) :
    ∃ other, kind other = false ∧ players room ++ [other] ∈ world.firestore := by
  by_contra nobody
  have included : (world.performed.filter (Pending.updatesCounter room)).map Pending.call ⊆
      (world.calls.filter fun call => (call.2.entrant room).any kind).map Prod.fst := by
    intro id member
    rcases List.mem_map.mp member with ⟨update, counted, rfl⟩
    rcases List.mem_filter.mp counted with ⟨done, counts⟩
    rcases documented.entrant_of_update done counts plain with ⟨other, enters, present⟩
    have same : kind other = true := by
      by_contra different
      exact nobody ⟨other, Bool.eq_false_iff.mpr different, present⟩
    have called := (documented.orderly.traced update (.inr done)).1
    exact List.mem_map.mpr ⟨(update.call, update.operation),
      List.mem_filter.mpr ⟨called, by simp [enters, same]⟩, rfl⟩
  have short := ((documented.orderly.nodup_updates room).subperm included).length_le
  rw [List.length_map, List.length_map, ← List.countP_eq_length_filter,
    ← List.countP_eq_length_filter] at short
  exact absurd short (not_le.mpr few)

end Documented

end World

end AssassinGame
