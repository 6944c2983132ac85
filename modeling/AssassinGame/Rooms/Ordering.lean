import AssassinGame.Rooms.Provenance

/-! # Writes take effect in the order of the program

A phone sends the writes of a call one after the other. Whatever else is performed in
between, the writes of a call that have been performed and those that are still to come are
the writes of its function, in the order of the source, and at most one more of its handler.
-/

namespace AssassinGame

open AssassinGame.Action Transition

def Operation.writes (operation : Operation) : List Write :=
  operation.action.requests.filterMap Request.write?

theorem write_of_write? {request : Request} {write : Write}
    (shown : request.write? = some write) : request = .write write := by
  cases request with
  | write => exact congrArg Request.write (Option.some.inj shown)
  | putData | getDocument => cases shown

namespace World

def written (world : World) (id : CallId) : List Write :=
  writesOf (world.performed.reverse.filter (·.call = id))

variable {world next : World} {pending : Pending} {killerTarget : Option Player}

theorem written_perform_own (world : World) (pending : Pending)
    (killerTarget : Option Player) :
    (world.perform pending killerTarget).written pending.call =
      world.written pending.call ++ pending.request.write?.toList := by
  have last : writesOf [pending] = pending.request.write?.toList := by
    rw [writesOf_cons]
    exact List.append_nil _
  rw [written, written, show (world.perform pending killerTarget).performed =
    pending :: world.performed from rfl, List.reverse_cons, List.filter_append,
    writesOf_append, ← last]
  simp

theorem written_perform_other {id : CallId} (different : id ≠ pending.call) (world : World)
    (killerTarget : Option Player) :
    (world.perform pending killerTarget).written id = world.written id := by
  rw [written, written, show (world.perform pending killerTarget).performed =
    pending :: world.performed from rfl, List.reverse_cons, List.filter_append]
  simp [Ne.symm different]

theorem writesOf_queue_write {write : Write} (ready : world.Ready pending)
    (shape : pending.request = .write write) :
    writesOf (world.queue pending.call) =
      write :: writesOf ((world.queue pending.call).erase pending) := by
  rcases ready_iff_queue.mp ready with ⟨member, free⟩
  rcases List.exists_erase_eq member with ⟨front, back, outside, split, taken⟩
  have loose : writesOf front = [] := by
    apply writesOf_eq_nil
    intro earlier inside
    have before : earlier ∈ (world.queue pending.call).takeWhile (· ≠ pending) := by
      rw [split, List.takeWhile_append_of_pos fun other within => ?_]
      · exact List.mem_append_left _ inside
      · simpa using fun same : other = pending => outside (same ▸ within)
    have own : earlier.call = pending.call :=
      (mem_queue.mp (split ▸ List.mem_append_left _ inside)).2
    have waits := free earlier before own
    rw [shape] at waits
    cases request : earlier.request with
    | write => simp [request, Request.waitsFor] at waits
    | putData | getDocument => rfl
  rw [taken, split, writesOf_append, writesOf_append, writesOf_cons, loose, shape]
  rfl

theorem writesOf_erase (quiet : pending.request.write? = none) (pendings : List Pending) :
    writesOf (pendings.erase pending) = writesOf pendings := by
  by_cases member : pending ∈ pendings
  · rcases List.exists_erase_eq member with ⟨front, back, _, split, taken⟩
    rw [taken, split, writesOf_append, writesOf_append, writesOf_cons, quiet]
    rfl
  · rw [List.erase_of_not_mem member]

/-- For each call, what has been written and what is to be written are its writes and, once
its read has been performed, at most one more. -/
structure Ordered (world : World) : Prop where
  orderly : world.Orderly
  fresh : (world.calls.map Prod.fst).Nodup
  ordered : ∀ call ∈ world.calls, ∃ answer : List Write, answer.length ≤ 1 ∧
    (∀ write ∈ answer, Answered call.2 (.write write)) ∧
    world.written call.1 ++ writesOf (world.queue call.1) = call.2.writes ++ answer ∧
    (answer ≠ [] → ∀ pending ∈ world.queue call.1, pending.request.isRead = false)

namespace Ordered

theorem start (firestore : Firestore) (storage : Storage) :
    (World.start firestore storage).Ordered where
  orderly := .start firestore storage
  fresh := .nil
  ordered _ member := by cases member

theorem issue (ordered : world.Ordered) {id : CallId} {operation : Operation}
    (fresh : id ∉ world.calls.map Prod.fst)
    (orderly : (world.issue id operation).Orderly) : (world.issue id operation).Ordered where
  orderly := orderly
  fresh := List.nodup_cons.mpr ⟨fresh, ordered.fresh⟩
  ordered call member := by
    rcases List.mem_cons.mp member with rfl | old
    · have unqueued : world.queue id = [] := by
        rw [queue, List.filter_eq_nil_iff]
        intro pending under own
        exact fresh (of_decide_eq_true own ▸ ordered.orderly.call_mem (.inl under))
      have unwritten : (world.issue id operation).written id = [] := by
        rw [written, List.filter_eq_nil_iff.mpr]
        · rfl
        · intro pending done own
          exact fresh (of_decide_eq_true own ▸
            ordered.orderly.call_mem (.inr (List.mem_reverse.mp done)))
      refine ⟨[], Nat.zero_le 1, by simp, ?_, fun some' => absurd rfl some'⟩
      rw [unwritten, queue_issue_own, unqueued, List.nil_append, List.nil_append,
        List.append_nil, writesOf, List.filterMap_map]
      rfl
    · have different : call.1 ≠ id := fun same =>
        fresh (same ▸ List.mem_map_of_mem (f := Prod.fst) old)
      rw [queue_issue_other different]
      exact ordered.ordered call old

theorem perform (ordered : world.Ordered) (ready : world.Ready pending)
    (orderly : (world.perform pending killerTarget).Orderly) :
    (world.perform pending killerTarget).Ordered where
  orderly := orderly
  fresh := ordered.fresh
  ordered call member := by
    rcases ordered.ordered call member with ⟨answer, short, answered, order, spent⟩
    by_cases own : call.1 = pending.call
    · rw [own] at order spent ⊢
      rw [written_perform_own, queue_perform_own]
      cases shape : pending.request with
      | write write =>
          have quiet := @followUps_eq_nil pending (by simp [shape, Request.isRead]) killerTarget
            world.firestore
          rw [writesOf_queue_write ready shape] at order
          refine ⟨answer, short, answered, ?_, fun some' other inside => ?_⟩
          · rw [quiet, List.append_nil, List.append_assoc]
            exact order
          · rw [quiet, List.append_nil] at inside
            exact spent some' other (List.mem_of_mem_erase inside)
      | putData path data =>
          have quiet := @followUps_eq_nil pending (by simp [shape, Request.isRead]) killerTarget
            world.firestore
          have loose : pending.request.write? = none := by rw [shape]; rfl
          refine ⟨answer, short, answered, ?_, fun some' other inside => ?_⟩
          · rw [quiet, List.append_nil, writesOf_erase loose]
            exact (List.append_assoc _ _ _).trans order
          · rw [quiet, List.append_nil] at inside
            exact spent some' other (List.mem_of_mem_erase inside)
      | getDocument path completion =>
          have read : pending.request.isRead = true := by rw [shape]; rfl
          have loose : pending.request.write? = none := by rw [shape]; rfl
          have unspent : answer = [] := by
            by_contra some'
            have other := spent some' pending (mem_queue.mpr ⟨ready.1, rfl⟩)
            rw [read] at other
            cases other
          subst unspent
          have follows := length_followUps pending killerTarget world.firestore
          rw [if_pos read] at follows
          refine ⟨writesOf (pending.followUps killerTarget world.firestore), ?_, ?_, ?_, ?_⟩
          · exact (List.length_filterMap_le _ _).trans follows
          · intro write written
            rcases ordered.orderly.traced pending (.inl ready.1) with ⟨called, issued⟩
            rcases List.mem_filterMap.mp written with ⟨other, follows, shown⟩
            have same : call = (pending.call, pending.operation) :=
              List.inj_on_of_nodup_map ordered.fresh member called own
            rw [same, ← write_of_write? shown]
            exact (answered_of_mem_followUps issued follows).2.2
          · rw [writesOf_append, writesOf_erase loose,
              show (Request.getDocument path completion).write?.toList = [] from rfl,
              List.append_nil, ← List.append_assoc, order, List.append_nil]
          · intro _ other inside
            rcases List.mem_append.mp inside with left | new
            · rw [queue, List.erase_filter, List.mem_filter, decide_eq_true_eq] at left
              have unique := ordered.orderly.chain_unique ready.1 left.1 left.2
                (by simp [Request.isChained, read])
              rw [Request.isChained, Bool.or_eq_false_iff] at unique
              exact unique.1
            · exact (answered_of_mem_followUps (ordered.orderly.traced.issued ready.1)
                new).2.2.not_isRead
    · rw [written_perform_other own, queue_perform_other own]
      exact ⟨answer, short, answered, order, spent⟩

theorem step (ordered : world.Ordered) {event : Event}
    (stepped : world.step event = some next) : next.Ordered := by
  have orderly := ordered.orderly.step stepped
  rcases step_cases stepped with
    ⟨id, operation, rfl, fresh, rfl⟩ | ⟨pending, killerTarget, rfl, ready, rfl⟩
  · exact ordered.issue fresh orderly
  · exact ordered.perform ready orderly

theorem run {firestore : Firestore} {storage : Storage} {events : List Event} {final : World}
    (performed : Transition.run World.step (World.start firestore storage) events =
      some final) : final.Ordered :=
  run_keeps World.Ordered (fun ordered stepped => ordered.step stepped)
    (.start firestore storage) performed

end Ordered

end World

/-- At every moment of every run, the writes of a call that have been performed, in the order
in which they were, are a first part of what its function writes, in the order of the source,
followed by one write of its handler at most; the rest is still under way. That write sets the
counters of the game of the call or files its shot. -/
theorem writes_take_effect_in_order {firestore : Firestore} {storage : Storage}
    {events : List Event} {final : World}
    (performed : run World.step (World.start firestore storage) events = some final) :
    ∀ call ∈ final.calls, ∃ answer : List Write, answer.length ≤ 1 ∧
      (∀ write ∈ answer, Answered call.2 (.write write)) ∧
      final.written call.1 ++ writesOf (final.queue call.1) = call.2.writes ++ answer := by
  intro call member
  rcases (World.Ordered.run performed).ordered call member with
    ⟨answer, short, answered, order, _⟩
  exact ⟨answer, short, answered, order⟩

theorem writes_take_effect_in_order_twoRooms :
    ∃ final, run World.step (World.start ∅ ∅) (twoRooms.take 8) = some final ∧
      ∀ call ∈ final.calls, ∃ answer : List Write, answer.length ≤ 1 ∧
        (∀ write ∈ answer, Answered call.2 (.write write)) ∧
        final.written call.1 ++ writesOf (final.queue call.1) = call.2.writes ++ answer := by
  have ends : (run World.step (World.start ∅ ∅) (twoRooms.take 8)).isSome = true := by decide
  rcases Option.isSome_iff_exists.mp ends with ⟨final, performed⟩
  exact ⟨final, performed, writes_take_effect_in_order performed⟩

/-! ## No phone is ahead of its player -/

namespace World

variable {world next : World} {pending : Pending}

/-- A document that is there was written, but for the counters of games, and what was written
is there or was deleted. -/
structure Filed (world : World) : Prop where
  traced : world.Traced
  written : ∀ path document, world.firestore.lookup path = some document →
    (∃ room, path = gameRef room) ∨
      ∃ pending ∈ world.performed, pending.request = .write (.setData path document)
  there : ∀ pending ∈ world.performed, ∀ path data,
    pending.request = .write (.setData path data) → path ∈ world.firestore ∨
      ∃ other ∈ world.performed, other.request = .write (.delete path)

namespace Filed

theorem start : (World.start ∅ ∅).Filed where
  traced := traced_start ∅ ∅
  written _ _ found := by cases found
  there _ member := by cases member

theorem written_perform (filed : world.Filed) (member : pending ∈ world.outstanding)
    {path : ResourcePath} {document : Document}
    (found : (pending.applyTo world.firestore).lookup path = some document) :
    (∃ room, path = gameRef room) ∨
      ∃ other ∈ pending :: world.performed,
        other.request = .write (.setData path document) := by
  have before : world.firestore.lookup path = some document → (∃ room, path = gameRef room) ∨
      ∃ other ∈ pending :: world.performed,
        other.request = .write (.setData path document) := by
    intro there
    refine (filed.written path document there).imp id fun ⟨other, done, shape⟩ => ?_
    exact ⟨other, List.mem_cons_of_mem _ done, shape⟩
  cases shape : pending.request with
  | getDocument | putData => exact before (by simpa [Pending.applyTo, shape] using found)
  | write write =>
      simp only [Pending.applyTo, shape] at found
      by_cases own : path = write.path
      · subst own
        cases write with
        | setData path data =>
            cases (Write.lookup_setData _ _ _).symm.trans found
            exact .inr ⟨pending, List.mem_cons_self, shape⟩
        | updateData path data =>
            have issued := filed.traced.issued member
            rw [shape] at issued
            rcases issued with asked | answered
            · cases asked
            · cases answered
              exact .inl ⟨_, rfl⟩
        | delete path => simp [Write.apply, Write.path] at found
      · exact before ((Write.lookup_apply_of_ne own world.firestore).symm.trans found)

theorem step (filed : world.Filed) {event : Event} (stepped : world.step event = some next) :
    next.Filed := by
  have traced := filed.traced.step stepped
  rcases step_cases stepped with
    ⟨id, operation, rfl, _, rfl⟩ | ⟨pending, killerTarget, rfl, ready, rfl⟩
  · exact ⟨traced, filed.written, filed.there⟩
  · refine ⟨traced, fun path document found => filed.written_perform ready.1 found, ?_⟩
    intro other done path data shape
    by_cases deletes : pending.request = .write (.delete path)
    · exact .inr ⟨pending, List.mem_cons_self, deletes⟩
    · rcases List.mem_cons.mp done with rfl | old
      · refine .inl ?_
        rw [World.perform, Pending.applyTo, shape]
        exact (AList.mem_insert _).mpr (.inl rfl)
      · rcases filed.there other old path data shape with member | ⟨deleter, before, deleted⟩
        · exact .inl (mem_of_step member
            (show (Event.perform pending killerTarget).deletes path = false from
              decide_eq_false deletes) stepped)
        · exact .inr ⟨deleter, List.mem_cons_of_mem _ before, deleted⟩

end Filed

theorem mem_written {id : CallId} {write : Write} :
    write ∈ world.written id ↔
      ∃ pending ∈ world.performed, pending.call = id ∧ pending.request = .write write := by
  simp only [written, writesOf, List.mem_filterMap, List.mem_filter, List.mem_reverse,
    decide_eq_true_eq]
  constructor
  · rintro ⟨pending, ⟨done, own⟩, shown⟩
    exact ⟨pending, done, own, write_of_write? shown⟩
  · rintro ⟨pending, done, own, shape⟩
    exact ⟨pending, ⟨done, own⟩, by rw [shape]; rfl⟩

end World

theorem mem_of_later {written rest front answer : List Write} {first second : Write}
    (order : written ++ rest = front ++ [first, second] ++ answer)
    (performed : second ∈ written) (outside : second ∉ front) (apart : second ≠ first) :
    first ∈ written := by
  have all : written ++ rest = (front ++ [first]) ++ (second :: answer) := by simp [order]
  have part : written <+: (front ++ [first]) ++ (second :: answer) := ⟨rest, all⟩
  rcases List.prefix_or_prefix_of_prefix part (List.prefix_append _ _) with short | long
  · rcases List.mem_append.mp (short.subset performed) with before | last
    · exact absurd before outside
    · exact absurd (List.mem_singleton.mp last) apart
  · exact long.subset (by simp)

theorem Sourced.at_phone {calls : List (CallId × Operation)} {room : Int} {device : String}
    {document : Document}
    (sourced : Sourced calls (phoneToPlayers room ++ [device]) document) :
    ∃ call ∈ calls, ∃ identified player,
      call.2.registration = some (some identified, player) ∧ call.2.room = room ∧
      identified.uuidString = device ∧ document = phoneFields player ∧
      ∃ playerRef, document? (players room) player.name = some playerRef := by
  cases sourced with
  | game count called opened own => exact absurd own.symm (gameRef_ne_phone _ _ _)
  | player _ _ named =>
      exact absurd (subcollection_unique ((document?_eq_some named).symm)).2 (by decide)
  | phone called registers named own =>
      have same := (subcollection_unique own).1
      subst same
      exact ⟨_, called, _, _, registers, rfl,
        List.singleton_inj.mp (List.append_cancel_left own).symm, rfl, _, named⟩
  | published _ _ own => exact absurd own.symm (below_ne_game _ _ _ _).symm
  | unconfirmed _ named =>
      exact absurd (subcollection_unique ((document?_eq_some named).symm)).2 (by decide)

/-- A call that registers a player with a phone writes the player's document before the
phone's entry. -/
theorem writes_of_phone {operation : Operation} {device : UUID} {player : Player}
    {playerRef : ResourcePath} (registers : operation.registration = some (some device, player))
    (named : document? (players operation.room) player.name = some playerRef) :
    operation.writes = setAll operation.opening ++
      [.setData playerRef (playerFields player),
        .setData (phoneToPlayers operation.room ++ [device.uuidString])
          (phoneFields player)] := by
  have back : ∀ writes : List Write,
      (writes.map Request.write).filterMap Request.write? = writes := by
    intro writes
    simp [Request.write?, Function.comp_def]
  rw [Operation.writes, requests_of_registration registers, List.filterMap_append, back,
    addPlayer_requests_eq, named]
  cases player.image.pngData <;> rfl

/-- At every moment of every run, the entry of a phone names a player whose document is there
already, unless a call that removes a player has named that document. -/
theorem entries_name_players {events : List Event} {final : World}
    (performed : run World.step (World.start ∅ ∅) events = some final) {room : Int}
    {device : String} {document : Document}
    (found : final.firestore.lookup (phoneToPlayers room ++ [device]) = some document) :
    ∃ player playerRef, document = phoneFields player ∧
      document? (players room) player.name = some playerRef ∧
      (playerRef ∈ final.firestore ∨ ∃ call ∈ final.calls, ∃ other,
        call.2.removed = some other ∧
        document? (players call.2.room) other.name = some playerRef) := by
  have filed : final.Filed :=
    run_keeps World.Filed (fun filed stepped => filed.step stepped) .start performed
  have ordered := World.Ordered.run performed
  rcases filed.written _ document found with ⟨other, own⟩ | ⟨pending, done, shape⟩
  · exact absurd own.symm (gameRef_ne_phone other room device)
  have called := (filed.traced pending (.inr done)).1
  rcases ordered.ordered _ called with ⟨answer, _, answered, order, _⟩
  have written : .setData (phoneToPlayers room ++ [device]) document ∈
      final.written pending.call := World.mem_written.mpr ⟨pending, done, rfl, shape⟩
  -- the entry is written by the function itself, not by a handler
  have issued : .setData (phoneToPlayers room ++ [device]) document ∈
      pending.operation.writes := by
    have all : _ ∈ pending.operation.writes ++ answer := order ▸ List.mem_append_left _ written
    refine (List.mem_append.mp all).resolve_right fun late => ?_
    cases answered _ late with
    | files _ _ named =>
        exact absurd (subcollection_unique ((document?_eq_some named).symm)).2 (by decide)
  rcases List.mem_filterMap.mp issued with ⟨request, asked, shown⟩
  cases write_of_write? shown
  have sourced : Sourced [(pending.call, pending.operation)]
      (phoneToPlayers room ++ [device]) document :=
    sourced_of_mem_requests List.mem_cons_self asked
  rcases sourced.at_phone with
    ⟨call, single, identified, player, registers, rfl, rfl, rfl, playerRef, named⟩
  cases List.mem_singleton.mp single
  rw [writes_of_phone registers named] at order
  have outside : .setData (phoneToPlayers pending.operation.room ++ [identified.uuidString])
      (phoneFields player) ∉ setAll pending.operation.opening := by
    intro opens
    simp only [setAll, Operation.opening, List.map_map, List.mem_map, Function.comp_apply,
      Write.setData.injEq] at opens
    rcases opens with ⟨_, _, same, _⟩
    exact absurd same (gameRef_ne_phone _ _ _)
  have different : Write.setData (phoneToPlayers pending.operation.room ++
      [identified.uuidString]) (phoneFields player) ≠
      .setData playerRef (playerFields player) := by
    intro same
    have landed := (Write.setData.inj same).1.trans (document?_eq_some named)
    exact absurd (subcollection_unique landed).2 (by decide)
  have before := mem_of_later order written outside different
  rcases World.mem_written.mp before with ⟨other, earlier, _, stored⟩
  refine ⟨player, playerRef, rfl, named, ?_⟩
  rcases filed.there other earlier playerRef _ stored with there | ⟨deleter, gone, deletes⟩
  · exact .inl there
  · exact .inr (World.removed_of_performed filed.traced gone deletes)

theorem entries_name_players_twoRooms :
    ∃ final document, run World.step (World.start ∅ ∅) twoRooms = some final ∧
      final.firestore.lookup (phoneToPlayers 1 ++ [somePhone.uuidString]) = some document ∧
      ∃ player playerRef, document = phoneFields player ∧
        document? (players 1) player.name = some playerRef ∧
        (playerRef ∈ final.firestore ∨ ∃ call ∈ final.calls, ∃ other,
          call.2.removed = some other ∧
          document? (players call.2.room) other.name = some playerRef) := by
  have ends : (run World.step (World.start ∅ ∅) twoRooms).any (fun final =>
      (final.firestore.lookup (phoneToPlayers 1 ++ [somePhone.uuidString])).isSome = true) =
        true := by decide
  rcases run_ends ends with ⟨final, performed, entered⟩
  rcases Option.isSome_iff_exists.mp entered with ⟨document, found⟩
  exact ⟨final, document, performed, found, entries_name_players performed found⟩

end AssassinGame
