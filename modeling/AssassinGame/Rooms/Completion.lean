import AssassinGame.Rooms.Ordering
import AssassinGame.Rooms.Serial

/-! # What is there in the end

Once every request has been performed, what the calls have written is there, in whichever
order they were answered. It is there still unless a call has removed it.
-/

namespace AssassinGame

open AssassinGame.Action Segments Transition World

namespace World

variable {world next : World} {events : List Event} {final : World}

/-- No request of a call gets lost, and neither does a picture. -/
structure Pursued (world : World) : Prop where
  filed : world.Filed
  pursued : ∀ call ∈ world.calls, ∀ request ∈ call.2.action.requests,
    ⟨call.1, call.2, request⟩ ∈ world.outstanding ∨
      ⟨call.1, call.2, request⟩ ∈ world.performed
  pictured : ∀ pending ∈ world.performed, ∀ path data,
    pending.request = .putData path data → path ∈ world.storage

namespace Pursued

theorem start : (World.start ∅ ∅).Pursued where
  filed := .start
  pursued _ member := by cases member
  pictured _ member := by cases member

theorem step (pursued : world.Pursued) {event : Event}
    (stepped : world.step event = some next) : next.Pursued := by
  have filed := pursued.filed.step stepped
  have lasts : ∀ path ∈ world.storage, path ∈ next.storage := fun path member =>
    mem_storage_of_step member stepped
  rcases step_cases stepped with
    ⟨id, operation, rfl, _, rfl⟩ | ⟨pending, killerTarget, rfl, ready, rfl⟩
  · refine ⟨filed, fun call member request asked => ?_, pursued.pictured⟩
    rcases List.mem_cons.mp member with rfl | old
    · exact .inl (List.mem_append_right _ (List.mem_map_of_mem asked))
    · exact (pursued.pursued call old request asked).imp (List.mem_append_left _)
        fun done => done
  · refine ⟨filed, fun call member request asked => ?_, fun other done path data shape => ?_⟩
    · rcases pursued.pursued call member request asked with waits | done
      · by_cases own : (⟨call.1, call.2, request⟩ : Pending) = pending
        · exact .inr (own ▸ List.mem_cons_self)
        · exact .inl (List.mem_append_left _ ((List.mem_erase_of_ne own).mpr waits))
      · exact .inr (List.mem_cons_of_mem _ done)
    · rcases List.mem_cons.mp done with rfl | old
      · rw [World.perform, Pending.uploadTo, shape]
        exact (AList.mem_insert _).mpr (.inl rfl)
      · exact lasts path (pursued.pictured other old path data shape)

theorem run (performed : Transition.run World.step (World.start ∅ ∅) events = some final) :
    final.Pursued :=
  run_keeps World.Pursued (fun pursued stepped => pursued.step stepped) .start performed

theorem performed (pursued : final.Pursued) (done : final.outstanding = [])
    {call : CallId × Operation} (called : call ∈ final.calls) {request : Request}
    (asked : request ∈ call.2.action.requests) :
    ⟨call.1, call.2, request⟩ ∈ final.performed := by
  rcases pursued.pursued call called request asked with waits | performed
  · rw [done] at waits
    cases waits
  · exact performed

theorem stored (pursued : final.Pursued) (done : final.outstanding = [])
    {call : CallId × Operation} (called : call ∈ final.calls) {path : ResourcePath}
    {data : Document} (asked : .write (.setData path data) ∈ call.2.action.requests)
    (stays : ∀ other ∈ final.calls, ∀ player, other.2.removed = some player →
      document? (players other.2.room) player.name ≠ some path) : path ∈ final.firestore := by
  rcases pursued.filed.there _ (pursued.performed done called asked) path data rfl with
    there | ⟨deleter, deleted, deletes⟩
  · exact there
  · rcases removed_of_performed pursued.filed.traced deleted deletes with
      ⟨other, made, player, removes, named⟩
    exact absurd named (stays other made player removes)

end Pursued

end World

/-! ## The contents of a finished room -/

section Contents

variable {room : Int} {call : CallId × Operation}

theorem asked_of_opened {game : Game} (opened : call.2.opened = some game) :
    .write (.setData (gameRef game.roomNumber) (gameFields game)) ∈
      call.2.action.requests := by
  rcases requests_of_opened opened with ⟨rest, requests, _⟩
  rw [requests, roomNumber_of_opened opened]
  exact List.mem_cons_self

theorem asked_of_named {deviceID : Option UUID} {player : Player} {playerRef : ResourcePath}
    (registers : call.2.registration = some (deviceID, player))
    (named : document? (players call.2.room) player.name = some playerRef) :
    .write (.setData playerRef (playerFields player)) ∈ call.2.action.requests := by
  rw [requests_of_registration registers, addPlayer_requests_eq, named]
  cases deviceID <;> cases player.image.pngData <;> simp

theorem asked_of_phone {device : UUID} {player : Player} {playerRef : ResourcePath}
    (registers : call.2.registration = some (some device, player))
    (named : document? (players call.2.room) player.name = some playerRef) :
    .write (.setData (phoneToPlayers call.2.room ++ [device.uuidString])
      (phoneFields player)) ∈ call.2.action.requests := by
  rw [requests_of_registration registers, addPlayer_requests_eq, named]
  cases player.image.pngData <;> simp [phoneFields]

theorem Sourced.at_player {calls : List (CallId × Operation)} {id : String}
    {document : Document} (sourced : Sourced calls (players room ++ [id]) document) :
    ∃ call ∈ calls, ∃ deviceID player, call.2.registration = some (deviceID, player) ∧
      call.2.room = room ∧ playerID? room player = some id := by
  generalize below : players room ++ [id] = path at sourced
  cases sourced with
  | game _ _ _ own => exact absurd (own.symm.trans below.symm) (gameRef_ne_player _ _ _)
  | player called registers named =>
      have same := (subcollection_unique (below.trans (document?_eq_some named))).1
      subst same below
      exact ⟨_, called, _, _, registers, rfl, playerID?_eq_some.mpr named⟩
  | phone _ _ _ own =>
      exact absurd (subcollection_unique (below.trans own)).2 (by decide)
  | published _ _ own =>
      exact absurd (own.symm.trans below.symm) (killshotRef_ne_player _ _ _)
  | unconfirmed _ named =>
      exact absurd (subcollection_unique (below.trans (document?_eq_some named))).2 (by decide)

end Contents

/-- However the requests were interleaved, once all have been performed there are the games
that calls have opened, the players that calls have registered and none has removed, the
phones that calls have entered and the pictures that calls have handed over, and no
others. -/
theorem finished_runs_leave {events : List Event} {final : World}
    (performed : run World.step (World.start ∅ ∅) events = some final)
    (done : final.outstanding = []) (room : Int) :
    (gameRef room ∈ final.firestore ↔ ∃ call ∈ final.calls, ∃ game,
      call.2.opened = some game ∧ game.roomNumber = room) ∧
    (∀ id, (∀ call ∈ final.calls, call.2.removes room id = false) →
      (id ∈ final.firestore.getDocuments (players room) ↔
        ∃ call ∈ final.calls, ∃ deviceID player,
          call.2.registration = some (deviceID, player) ∧ call.2.room = room ∧
          playerID? room player = some id)) ∧
    (∀ device, device ∈ final.firestore.getDocuments (phoneToPlayers room) ↔
      ∃ call ∈ final.calls, ∃ identified player,
        call.2.registration = some (some identified, player) ∧ call.2.room = room ∧
        identified.uuidString = device ∧
        ∃ playerRef, document? (players room) player.name = some playerRef) ∧
    ∀ path, path ∈ final.storage ↔
      ∃ call ∈ final.calls, ∃ data, .putData path data ∈ call.2.action.requests := by
  have vouched : final.Vouched :=
    run_keeps World.Vouched (fun vouched stepped => vouched.step stepped) .start performed
  have pursued : final.Pursued := .run performed
  have sourced : ∀ path ∈ final.firestore, ∃ document, Sourced final.calls path document := by
    intro path member
    rcases Option.isSome_iff_exists.mp (AList.lookup_isSome.mpr member) with ⟨document, found⟩
    exact ⟨document, vouched.stored path document found⟩
  refine ⟨⟨fun member => ?_, ?_⟩, fun id stays => ?_, fun device => ?_, fun path => ⟨?_, ?_⟩⟩
  · rcases sourced _ member with ⟨document, left⟩
    rcases left.at_gameRef with ⟨call, called, game, _, opened, own, _⟩
    exact ⟨call, called, game, opened, own⟩
  · rintro ⟨call, called, game, opened, rfl⟩
    exact pursued.stored done called (asked_of_opened opened) fun _ _ _ _ named =>
      gameRef_ne_child named rfl
  · rw [Firestore.mem_getDocuments]
    constructor
    · intro member
      rcases sourced _ member with ⟨document, left⟩
      exact left.at_player
    · rintro ⟨call, called, deviceID, player, registers, rfl, named⟩
      refine pursued.stored done called
        (asked_of_named registers (playerID?_eq_some.mp named)) ?_
      intro other made removed removes landed
      have own := (subcollection_unique (document?_eq_some landed)).1
      have kept := of_decide_eq_false (stays other made)
      refine kept ⟨own.symm, ?_⟩
      rw [removes, Option.bind_some, playerID?_eq_some, ← landed, own]
  · rw [Firestore.mem_getDocuments]
    constructor
    · intro member
      rcases sourced _ member with ⟨document, left⟩
      rcases left.at_phone with
        ⟨call, called, identified, player, registers, own, spelt, _, named⟩
      exact ⟨call, called, identified, player, registers, own, spelt, named⟩
    · rintro ⟨call, called, identified, player, registers, rfl, rfl, playerRef, named⟩
      refine pursued.stored done called (asked_of_phone registers named) ?_
      intro other made removed removes landed
      exact absurd (subcollection_unique (document?_eq_some landed)).2 (by decide)
  · intro member
    rcases Option.isSome_iff_exists.mp (AList.lookup_isSome.mpr member) with ⟨data, found⟩
    rcases vouched.kept path data found with ⟨call, called, asked⟩
    exact ⟨call, called, data, asked⟩
  · rintro ⟨call, called, data, asked⟩
    exact pursued.pictured _ (pursued.performed done called asked) path data rfl

theorem finished_runs_leave_joinTogether :
    ∃ final, run World.step (World.start ∅ ∅) joinTogether = some final ∧
      ("ann" ∈ final.firestore.getDocuments (players 7) ↔
        ∃ call ∈ final.calls, ∃ deviceID player,
          call.2.registration = some (deviceID, player) ∧ call.2.room = 7 ∧
          playerID? 7 player = some "ann") := by
  have ends : (run World.step (World.start ∅ ∅) joinTogether).any (fun final =>
      final.outstanding = [] ∧ ∀ call ∈ final.calls, call.2.removes 7 "ann" = false) = true := by
    decide
  rcases run_ends ends with ⟨final, performed, done, stays⟩
  exact ⟨final, performed, (finished_runs_leave performed done 7).2.1 "ann" stays⟩

end AssassinGame
