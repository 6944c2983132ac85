import AssassinGame.Rooms.Progress

/-! # Rooms that only fill up

While players are only added to a room, its counter stays between the number of
players it was opened for and that number less the completed writes. Completed
writes belong to different completed calls, and between two of them the counter
stands still.
-/

namespace AssassinGame

open AssassinGame.Action Transition World

/-- The operation is an `addPlayer` for the room, or a `createRoom` that gets to
its `addPlayer`. -/
def Operation.joins (room : Int) : Operation → Bool
  | .addPlayer _ roomNumber _ => decide (roomNumber = room)
  | .createRoom screen roomNumber date deviceID => decide (roomNumber = room) &&
      (Operation.createRoom screen roomNumber date deviceID).opened.isSome
  | _ => false

theorem joins_of_opened {operation : Operation} {game : Game}
    (opened : operation.opened = some game) :
    operation.joins operation.room = true ∨ operation.change = 0 := by
  cases operation with
  | addGame => exact .inr rfl
  | createRoom => exact .inl (by simp [Operation.joins, Operation.room, opened])
  | addPlayer | removePlayer | addKillshot | uploadKillshotPic | uploadKillshotName
  | imagePickerController => cases opened

/-- If it is for the room, the operation is an `addPlayer` or one that neither
opens the room nor changes its counter. -/
def Operation.OnlyJoins (room : Int) (operation : Operation) : Prop :=
  operation.room = room →
    operation.opened = none ∧ (operation.joins room = true ∨ operation.change = 0)

instance (room : Int) (operation : Operation) : Decidable (operation.OnlyJoins room) :=
  inferInstanceAs (Decidable (_ → _))

def OnlyAdditions (room : Int) (_ : World) : Event → Prop
  | .call _ operation => operation.OnlyJoins room
  | .perform _ _ => True

instance (room : Int) (world : World) : ∀ event, Decidable (OnlyAdditions room world event)
  | .call _ operation => inferInstanceAs (Decidable (operation.OnlyJoins room))
  | .perform _ _ => inferInstanceAs (Decidable True)

namespace World

/-- The call has written its update, and of its requests only the picture may
still be under way. -/
def Completed (world : World) (id : CallId) : Prop :=
  (∃ update ∈ world.performed, update.call = id ∧ update.request.isUpdate = true) ∧
    ∀ pending ∈ world.outstanding, pending.call = id → pending.request.isUpload = true

instance (world : World) (id : CallId) : Decidable (world.Completed id) :=
  inferInstanceAs (Decidable (_ ∧ _))

def joins (room : Int) (world : World) : Nat :=
  world.calls.countP fun call => call.2.joins room

def completedJoins (room : Int) (world : World) : Nat :=
  world.calls.countP fun call => call.2.joins room && world.Completed call.1

theorem completedJoins_le_joins (room : Int) (world : World) :
    world.completedJoins room ≤ world.joins room := by
  apply List.countP_mono_left
  intro call _ both
  exact (Bool.and_eq_true_iff.mp both).1

theorem Orderly.nodup_updates {world : World} (orderly : world.Orderly) (room : Int) :
    ((world.performed.filter (Pending.updatesCounter room)).map Pending.call).Nodup := by
  rw [List.nodup_iff_count_le_one]
  intro id
  have counted : ((world.performed.filter (Pending.updatesCounter room)).map
      Pending.call).count id ≤
      world.performed.countP (fun update => update.call = id && update.request.isUpdate) := by
    rw [List.count, List.countP_map, List.countP_filter]
    apply List.countP_mono_left
    intro update _ both
    simp only [Function.comp_apply, Bool.and_eq_true, beq_iff_eq] at both
    simp only [both.1, decide_true, Bool.true_and]
    exact Pending.isUpdate_of_updatesCounter both.2
  exact counted.trans ((Nat.le_add_left _ _).trans (orderly.single id))

theorem Orderly.updates_le_completedJoins {world : World} (orderly : world.Orderly)
    {room : Int}
    (joining : ∀ call ∈ world.calls, call.2.room = room →
      call.2.joins room = true ∨ call.2.change = 0) :
    world.updates room ≤ world.completedJoins room := by
  have included : (world.performed.filter (Pending.updatesCounter room)).map Pending.call ⊆
      (world.calls.filter fun call => call.2.joins room && world.Completed call.1).map
        Prod.fst := by
    intro id member
    rcases List.mem_map.mp member with ⟨update, counted, rfl⟩
    rcases List.mem_filter.mp counted with ⟨done, counts⟩
    rcases orderly.traced update (.inr done) with ⟨called, issued⟩
    have isUpdate := Pending.isUpdate_of_updatesCounter counts
    rcases changes_of_updatesCounter issued counts with ⟨own, changes⟩
    refine List.mem_map.mpr ⟨(update.call, update.operation), ?_, rfl⟩
    rw [List.mem_filter, Bool.and_eq_true, decide_eq_true_eq]
    refine ⟨called, (joining _ called own).resolve_right changes, ?_⟩
    exact ⟨⟨update, done, rfl, isUpdate⟩, orderly.settled update done isUpdate⟩
  have short := ((orderly.nodup_updates room).subperm included).length_le
  rw [List.length_map, List.length_map, ← List.countP_eq_length_filter,
    ← List.countP_eq_length_filter] at short
  exact short

def Between (total : Int) (updates : Nat) (count : Int) : Prop :=
  total - updates ≤ count ∧ count ≤ total

theorem lasting_between (total : Int) : Lasting (Between total) where
  weaken := by
    intro updates count ⟨above, below⟩
    exact ⟨by push_cast; omega, below⟩
  lower := by
    intro updates count ⟨above, below⟩
    exact ⟨by push_cast; omega, by omega⟩

/-- What holds while players are only added to an opened room. -/
structure Filling (game : Game) (world : World) : Prop where
  orderly : world.Orderly
  unopening : world.Unopening game.roomNumber
  bounded : world.Bounded game.roomNumber (Between game.playerCount)
  document : ∃ document, world.firestore.lookup (gameRef game.roomNumber) = some document ∧
    document.int? "totalPlayers" = some game.playerCount ∧
    (document.int? "playerCount").isSome = true
  joining : ∀ call ∈ world.calls, call.2.room = game.roomNumber →
    call.2.joins game.roomNumber = true ∨ call.2.change = 0

namespace Filling

variable {game : Game} {world next : World}

theorem counted (filling : Filling game world) :
    ∃ count, counter? game.roomNumber world.firestore = some count := by
  rcases filling.document with ⟨document, found, _, shown⟩
  rcases Option.isSome_iff_exists.mp shown with ⟨count, counted⟩
  exact ⟨count, by simp [counter?, found, counted]⟩

theorem openedBy {operation : Operation} (opened : operation.opened = some game)
    (id : CallId) (firestore : Firestore) (storage : Storage) :
    Filling game (World.openedBy id operation game firestore storage) := by
  have own : game.roomNumber = operation.room := roomNumber_of_opened opened
  have found : (World.openedBy id operation game firestore storage).firestore.lookup
      (gameRef game.roomNumber) = some (gameFields game) := by
    rw [own]
    exact lookup_openedBy id operation game firestore storage
  have shown : counter? game.roomNumber
      (World.openedBy id operation game firestore storage).firestore =
      some game.playerCount := by
    rw [counter?, found]
    exact playerCount_gameFields game
  refine ⟨orderly_openedBy opened id firestore storage,
    unopening_openedBy opened id firestore storage _,
    ⟨traced_openedBy opened id firestore storage, ?_, ?_, ?_⟩, ?_, ?_⟩
  · intro call member _
    rw [openedBy_calls, List.mem_singleton] at member
    subst member
    refine ⟨removed_of_opened opened, fun other found updates => ?_⟩
    cases opened.symm.trans found
    exact ⟨by omega, by omega⟩
  · intro count counted
    cases shown.symm.trans counted
    exact ⟨by simp, by omega⟩
  · intro pending member count update
    have asked := asked_of_outstanding_openedBy opened member
    have none' := not_isUpdate_of_asked asked
    rw [update] at none'
    cases none'
  · exact ⟨gameFields game, found, by simp, by simp⟩
  · intro call member _
    rw [openedBy_calls, List.mem_singleton] at member
    subst member
    exact own ▸ joins_of_opened opened

theorem document_cases (filling : Filling game world) {pending : Pending}
    (member : pending ∈ world.outstanding) :
    (∃ count, pending.updatesCounter game.roomNumber = true ∧
      (pending.applyTo world.firestore).lookup (gameRef game.roomNumber) =
        (world.firestore.lookup (gameRef game.roomNumber)).map
          (Document.merge (countFields count))) ∨
    (pending.updatesCounter game.roomNumber = false ∧
      (pending.applyTo world.firestore).lookup (gameRef game.roomNumber) =
        world.firestore.lookup (gameRef game.roomNumber)) := by
  rcases gameDocument_cases (filling.orderly.traced.issued member) game.roomNumber
      world.firestore with
    ⟨count, _, _, update, stored⟩ | ⟨other, _, _, opens, _⟩ | both
  · exact .inl ⟨count, by simp [Pending.updatesCounter, update], stored⟩
  · rw [filling.unopening pending member] at opens
    cases opens
  · exact .inr both

theorem step (filling : Filling game world) {event : Event}
    (adds : OnlyAdditions game.roomNumber world event)
    (stepped : world.step event = some next) : Filling game next := by
  have orderly := filling.orderly.step stepped
  have within : ∀ id operation, event = .call id operation →
      operation.Within game.roomNumber (Between game.playerCount) := by
    rintro id operation rfl own
    rcases adds own with ⟨unopened, joins | unchanged⟩
    · refine ⟨?_, by simp [unopened]⟩
      cases operation <;> simp_all [Operation.joins, Operation.removed]
    · refine ⟨?_, by simp [unopened]⟩
      cases operation <;> simp_all [Operation.removed, Operation.change]
  have bounded := filling.bounded.step (lasting_between game.playerCount) within stepped
  rcases step_cases stepped with
    ⟨id, operation, rfl, _, rfl⟩ | ⟨pending, killerTarget, rfl, ready, rfl⟩
  · refine ⟨orderly, filling.unopening.issue (fun own => (adds own).1) id, bounded,
      filling.document, ?_⟩
    intro call member own
    rcases List.mem_cons.mp member with rfl | old
    · exact (adds own).2
    · exact filling.joining call old own
  · refine ⟨orderly, filling.unopening.perform (filling.orderly.traced.issued ready.1) _,
      bounded, ?_, filling.joining⟩
    rcases filling.document with ⟨document, found, total, shown⟩
    rcases filling.document_cases ready.1 with ⟨count, _, stored⟩ | ⟨_, same⟩
    · exact ⟨Document.merge (countFields count) document, by simp [World.perform, stored, found],
        by simpa using total, by simp⟩
    · exact ⟨document, same.trans found, total, shown⟩

theorem run {final : World} {events : List Event} (filling : Filling game world)
    (adds : Meets World.step (OnlyAdditions game.roomNumber) world events)
    (performed : Transition.run World.step world events = some final) :
    Filling game final :=
  run_invariant (Filling game) (fun _ _ _ filling adds stepped => filling.step adds stepped)
    filling adds performed

end Filling

/-- The number of writes only grows, and the counter stands still as long as it
does. -/
structure Since (room : Int) (past world : World) : Prop where
  updates : past.updates room ≤ world.updates room
  counter : past.updates room = world.updates room →
    counter? room world.firestore = counter? room past.firestore

theorem Filling.since_step {game : Game} {past world next : World} {event : Event}
    (filling : Filling game world) (since : Since game.roomNumber past world)
    (stepped : world.step event = some next) : Since game.roomNumber past next := by
  rcases step_cases stepped with
    ⟨id, operation, rfl, _, rfl⟩ | ⟨pending, killerTarget, rfl, ready, rfl⟩
  · exact ⟨since.updates, since.counter⟩
  · have more := updates_perform world pending killerTarget game.roomNumber
    have grown := since.updates
    rcases filling.document_cases ready.1 with ⟨_, counts, _⟩ | ⟨apart, same⟩
    · rw [if_pos counts] at more
      exact ⟨by omega, fun equal => by omega⟩
    · rw [if_neg (by simp [apart])] at more
      exact ⟨by omega, fun equal =>
        (counter?_eq_of_lookup same).trans (since.counter (by omega))⟩

theorem Filling.since_run {game : Game} {past final : World} {events : List Event}
    (filling : Filling game past)
    (adds : Meets World.step (OnlyAdditions game.roomNumber) past events)
    (performed : Transition.run World.step past events = some final) :
    Since game.roomNumber past final :=
  (run_invariant (fun world => Filling game world ∧ Since game.roomNumber past world)
    (fun _ _ _ both adds stepped =>
      ⟨both.1.step adds stepped, both.1.since_step both.2 stepped⟩)
    ⟨filling, le_refl _, fun _ => rfl⟩ adds performed).2

end World

end AssassinGame
