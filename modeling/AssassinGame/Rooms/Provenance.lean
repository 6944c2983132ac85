import AssassinGame.Rooms.Draining
import AssassinGame.Rooms.Entrants

/-! # Where documents come from and where they go

The path of a document tells its kind, and every document says what calls of its room were
made with. Only the documents of players are ever deleted, and only by calls that remove
them.
-/

namespace AssassinGame

open AssassinGame.Action Transition World

def roomFields (game : Game) (count : Int) : Document := .fields [
  ("totalPlayers", .int game.playerCount),
  ("playerCount", .int count),
  ("timeLeft", .string game.timeLeft)]

def Operation.published : Operation → Option String
  | .uploadKillshotName screen _ => some screen.targetName
  | .imagePickerController screen img => img.pngData.map fun _ => screen.targetName
  | _ => none

/-- What these calls can have left under a path. -/
inductive Sourced (calls : List (CallId × Operation)) (path : ResourcePath) : Document → Prop
  | game {call : CallId × Operation} {game : Game} {document : Document} (count : Int) :
      call ∈ calls → call.2.opened = some game → path = gameRef game.roomNumber →
      document.Same (roomFields game count) → Sourced calls path document
  | player {call : CallId × Operation} {deviceID : Option UUID} {player : Player} :
      call ∈ calls → call.2.registration = some (deviceID, player) →
      document? (players call.2.room) player.name = some path →
      Sourced calls path (playerFields player)
  | phone {call : CallId × Operation} {device : UUID} {player : Player}
      {playerRef : ResourcePath} :
      call ∈ calls → call.2.registration = some (some device, player) →
      document? (players call.2.room) player.name = some playerRef →
      path = phoneToPlayers call.2.room ++ [device.uuidString] →
      Sourced calls path (phoneFields player)
  | published {call : CallId × Operation} {name : String} :
      call ∈ calls → call.2.published = some name → path = TabBarVC.killshotRef call.2.room →
      Sourced calls path (.fields [("name", .string name)])
  | unconfirmed {id : CallId} {room : Int} {killer victim : Player} {target : Option Player}
      {img : UIImage} {loc : CLLocation} {opening : CallId × Operation} {game : Game} :
      (id, .addKillshot room killer target img loc) ∈ calls →
      document? (unconfirmedKillshots room) victim.name = some path →
      opening ∈ calls → opening.2.opened = some game → game.roomNumber = room →
      Sourced calls path (killshotFields killer.name game.playerCount)

namespace Sourced

variable {calls : List (CallId × Operation)} {path : ResourcePath} {document : Document}

theorem mono (sourced : Sourced calls path document) (call : CallId × Operation) :
    Sourced (call :: calls) path document := by
  cases sourced with
  | game count called opened own same =>
      exact .game count (List.mem_cons_of_mem _ called) opened own same
  | player called registers named =>
      exact .player (List.mem_cons_of_mem _ called) registers named
  | phone called registers named own =>
      exact .phone (List.mem_cons_of_mem _ called) registers named own
  | published called publishes own =>
      exact .published (List.mem_cons_of_mem _ called) publishes own
  | unconfirmed called named opening opened own =>
      exact .unconfirmed (List.mem_cons_of_mem _ called) named (List.mem_cons_of_mem _ opening)
        opened own

theorem at_gameRef {room : Int} (sourced : Sourced calls (gameRef room) document) :
    ∃ call ∈ calls, ∃ game count, call.2.opened = some game ∧ game.roomNumber = room ∧
      document.Same (roomFields game count) := by
  cases sourced with
  | game count called opened own same =>
      exact ⟨_, called, _, count, opened, (gameRef_injective own).symm, same⟩
  | player _ _ named => exact absurd rfl (gameRef_ne_child named)
  | phone _ _ _ own => exact absurd own (gameRef_ne_phone _ _ _)
  | published _ _ own => exact absurd own (gameRef_ne_killshotRef _ _)
  | unconfirmed _ named => exact absurd rfl (gameRef_ne_child named)

theorem at_games {id : String} (sourced : Sourced calls (games ++ [id]) document) :
    (∃ call ∈ calls, ∃ game count, call.2.opened = some game ∧
      id = Segments.decimal game.roomNumber ∧ document.Same (roomFields game count)) ∨
    ∃ call ∈ calls, ∃ name, call.2.published = some name ∧
      id = Segments.decimal call.2.room ++ "ks" ∧
      document = .fields [("name", .string name)] := by
  have deep : ∀ room collection text, document? (gameRef room ++ [collection]) text ≠
      some (games ++ [id]) := by
    intro room collection text named
    exact below_ne_game room collection id _ (document?_eq_some named).symm
  generalize place : games ++ [id] = path at sourced deep
  cases sourced with
  | game count called opened own same =>
      exact .inl ⟨_, called, _, count, opened, by simpa [gameRef] using place.trans own, same⟩
  | player _ _ named => exact absurd named (deep _ _ _)
  | phone _ _ _ own => exact absurd (own.symm.trans place.symm) (below_ne_game _ _ _ _)
  | published called publishes own =>
      exact .inr ⟨_, called, _, publishes,
        by simpa [TabBarVC.killshotRef] using place.trans own, rfl⟩
  | unconfirmed _ named => exact absurd named (deep _ _ _)

end Sourced

theorem lookup_eq_of_same {left right : Document} (same : left.Same right) (field : String) :
    left.int? field = right.int? field := by
  rw [Document.int?, Document.int?, same field]

@[simp] theorem totalPlayers_roomFields (game : Game) (count : Int) :
    (roomFields game count).int? "totalPlayers" = some game.playerCount :=
  Document.int?_fields_head _ _ _

theorem same_merge_countFields {document : Document} {game : Game} {before : Int}
    (same : document.Same (roomFields game before)) (count : Int) :
    (Document.merge (countFields count) document).Same (roomFields game count) := by
  intro field
  rw [countFields]
  by_cases own : field = "playerCount"
  · subst own
    rw [Document.lookup_merge_of_mem (Document.mem_fields_single.mpr rfl),
      Document.lookup_fields_head, roomFields, Document.lookup_fields_tail (by decide),
      Document.lookup_fields_head]
  · rw [Document.lookup_merge_of_not_mem fun member => own (Document.mem_fields_single.mp member),
      same field, roomFields, roomFields]
    by_cases total : field = "totalPlayers"
    · subst total
      rw [Document.lookup_fields_head, Document.lookup_fields_head]
    · rw [Document.lookup_fields_tail total, Document.lookup_fields_tail total,
        Document.lookup_fields_tail own, Document.lookup_fields_tail own]

/-! ## What calls write -/

section Calls

variable {calls : List (CallId × Operation)} {call : CallId × Operation} {path : ResourcePath}
  {data : Document}

theorem sourced_of_addPlayer {deviceID : Option UUID} {player : Player} (called : call ∈ calls)
    (registers : call.2.registration = some (deviceID, player))
    (member : .write (.setData path data) ∈
      (addPlayer deviceID call.2.room player).requests) : Sourced calls path data := by
  rw [addPlayer_requests_eq] at member
  split at member
  · cases member
  · rename_i named
    simp only [List.mem_singleton, Request.write.injEq, Write.setData.injEq] at member
    rcases member with ⟨rfl, rfl⟩
    exact .player called registers named
  · rename_i device named _
    simp only [List.mem_cons, List.not_mem_nil, or_false, Request.write.injEq,
      Write.setData.injEq] at member
    rcases member with ⟨rfl, rfl⟩ | ⟨rfl, rfl⟩
    · exact .player called registers named
    · exact .phone called registers named rfl
  · rename_i device _ named _
    simp only [List.mem_cons, List.not_mem_nil, or_false, Request.write.injEq,
      Write.setData.injEq, reduceCtorEq] at member
    rcases member with ⟨rfl, rfl⟩ | ⟨rfl, rfl⟩
    · exact .player called registers named
    · exact .phone called registers named rfl

theorem sourced_of_mem_requests (called : call ∈ calls)
    (member : .write (.setData path data) ∈ call.2.action.requests) :
    Sourced calls path data := by
  cases registers : call.2.registration with
  | some registration =>
      rw [requests_of_registration registers] at member
      rcases List.mem_append.mp member with opens | adds
      · cases opened : call.2.opened with
        | none => simp [Operation.opening, opened, setAll] at opens
        | some game =>
            simp [Operation.opening, opened, setAll] at opens
            rcases opens with ⟨rfl, rfl⟩
            exact .game game.playerCount called opened
              (congrArg gameRef (roomNumber_of_opened opened).symm) fun _ => rfl
      · exact sourced_of_addPlayer called registers adds
  | none =>
      rcases call with ⟨id, operation⟩
      change Request.write _ ∈ operation.action.requests at member
      cases operation with
      | addGame game =>
          rw [Operation.action, addGame_requests, List.mem_singleton] at member
          cases member
          exact .game game.playerCount called rfl rfl fun _ => rfl
      | addPlayer => cases registers
      | removePlayer roomNumber player =>
          cases named : document? (players roomNumber) player.name with
          | none => simp [Operation.action, removePlayer_requests_of_unnamed named] at member
          | some playerRef => simp [Operation.action, removePlayer_requests named] at member
      | addKillshot roomNumber killer target img loc =>
          cases target <;> cases png : img.pngData <;>
            simp [Operation.action, addKillshot, bind_requests, png, gameRefOf_eq] at member
      | uploadKillshotPic screen image =>
          cases png : image.pngData <;>
            simp [Operation.action, TabBarVC.uploadKillshotPic, bind_requests, png] at member
      | uploadKillshotName screen name =>
          rw [Operation.action, TabBarVC.uploadKillshotName_requests,
            List.mem_singleton] at member
          cases member
          exact .published called rfl rfl
      | imagePickerController screen img =>
          cases png : img.pngData with
          | none =>
              simp [Operation.action, TabBarVC.imagePickerController,
                TabBarVC.uploadKillshotPic, bind_requests, bind_result, png] at member
          | some bytes =>
              rw [Operation.action, TabBarVC.imagePickerController_requests png] at member
              simp only [List.mem_cons, List.not_mem_nil, or_false, reduceCtorEq,
                false_or, Request.write.injEq, Write.setData.injEq] at member
              rcases member with ⟨rfl, rfl⟩
              exact .published called (by simp [Operation.published, png]) rfl
      | createRoom screen roomNumber date deviceID =>
          rw [requests_of_no_registration rfl registers] at member
          cases member

theorem requests_of_no_target (path : ResourcePath) (killer : Player)
    (document : Option Document) :
    (addKillshot.completion path killer none document).requests = [] := by
  cases document with
  | none => rfl
  | some document =>
      cases totalled : document.int? "totalPlayers" <;>
        simp [addKillshot.completion, bind_requests, totalled]

theorem sourced_of_mem_followUps {pending other : Pending} {killerTarget : Option Player}
    {store : Firestore} (called : (pending.call, pending.operation) ∈ calls)
    (issued : Issued pending.operation pending.request)
    (stored : ∀ path document, store.lookup path = some document → Sourced calls path document)
    (member : other ∈ pending.followUps killerTarget store)
    (shape : other.request = .write (.setData path data)) : Sourced calls path data := by
  rcases pending with ⟨id, operation, request⟩
  rcases issued with asked | answered
  · change Asked operation request at asked
    cases asked with
    | reads completes =>
        simp only [Pending.followUps, List.mem_map] at member
        rcases member with ⟨request, made, rfl⟩
        change request = _ at shape
        subst shape
        rcases handle_cases completes with ⟨_, handles⟩ | ⟨unchanged, _⟩
        · rw [handles] at made
          rcases mem_changePlayerCount_requests made with ⟨_, _, _, _, other⟩
          cases other
        · cases operation with
          | addKillshot room killer target img loc =>
              cases completes
              change Request.write (.setData path data) ∈ (addKillshot.completion (gameRef room)
                killer killerTarget (store.lookup (gameRef room))).requests at made
              cases killerTarget with
              | none =>
                  rw [requests_of_no_target] at made
                  cases made
              | some victim =>
                  rcases mem_addKillshot_completion_iff.mp made with
                    ⟨total, totalled, shotRef, named, shot⟩
                  cases shot
                  rcases Option.bind_eq_some_iff.mp totalled with ⟨document, found, total'⟩
                  rcases (stored _ document found).at_gameRef with
                    ⟨opening, opens, game, count, opened, own, same⟩
                  rw [lookup_eq_of_same same, totalPlayers_roomFields] at total'
                  cases total'
                  exact .unconfirmed called named opens opened own
          | addGame | uploadKillshotPic | uploadKillshotName | imagePickerController =>
              cases completes
          | addPlayer | removePlayer | createRoom => cases unchanged
    | _ => cases member
  · change Answered operation request at answered
    cases answered <;> cases member

end Calls

/-! ## Runs -/

/-- Everything stored, and everything about to be stored, comes from calls. -/
structure World.Vouched (world : World) : Prop where
  traced : world.Traced
  stored : ∀ path document, world.firestore.lookup path = some document →
    Sourced world.calls path document
  pledged : ∀ pending ∈ world.outstanding, ∀ path data,
    pending.request = .write (.setData path data) → Sourced world.calls path data
  kept : ∀ path data, world.storage.lookup path = some data →
    ∃ call ∈ world.calls, .putData path data ∈ call.2.action.requests
  sent : ∀ pending ∈ world.outstanding, ∀ path data, pending.request = .putData path data →
    .putData path data ∈ pending.operation.action.requests

namespace World.Vouched

variable {world next : World}

theorem start : (World.start ∅ ∅).Vouched where
  traced := traced_start ∅ ∅
  stored _ _ found := by cases found
  pledged _ member := by cases member
  kept _ _ found := by cases found
  sent _ member := by cases member

theorem issue (vouched : world.Vouched) {id : CallId} {operation : Operation}
    (traced : (world.issue id operation).Traced) : (world.issue id operation).Vouched where
  traced := traced
  stored path document found := (vouched.stored path document found).mono _
  pledged pending member path data shape := by
    rcases mem_outstanding_issue.mp member with old | ⟨_, rfl, asked⟩
    · exact (vouched.pledged pending old path data shape).mono _
    · exact @sourced_of_mem_requests _ (id, pending.operation) _ _ List.mem_cons_self
        (shape ▸ asked)
  kept path data found := by
    rcases vouched.kept path data found with ⟨call, member, uploads⟩
    exact ⟨call, List.mem_cons_of_mem _ member, uploads⟩
  sent pending member path data shape := by
    rcases mem_outstanding_issue.mp member with old | ⟨_, rfl, asked⟩
    · exact vouched.sent pending old path data shape
    · exact shape ▸ asked

theorem applyTo (vouched : world.Vouched) {pending : Pending}
    (member : pending ∈ world.outstanding) {path : ResourcePath} {document : Document}
    (found : (pending.applyTo world.firestore).lookup path = some document) :
    Sourced world.calls path document := by
  rcases pending with ⟨id, operation, request⟩
  cases request with
  | getDocument | putData => exact vouched.stored path document found
  | write write =>
      by_cases own : path = write.path
      · subst own
        cases write with
        | setData path data =>
            cases (Write.lookup_setData _ _ _).symm.trans found
            exact vouched.pledged _ member _ _ rfl
        | updateData path data =>
            rcases vouched.traced.issued member with asked | answered
            · cases asked
            · change Answered operation _ at answered
              cases answered with
              | counts count =>
                  have merged := (Write.lookup_updateData _ _ _).symm.trans found
                  rcases Option.map_eq_some_iff.mp merged with ⟨before, there, rfl⟩
                  rcases (vouched.stored _ before there).at_gameRef with
                    ⟨call, called, game, counted, opened, same, fields⟩
                  exact .game count called opened (congrArg gameRef same.symm)
                    (same_merge_countFields fields count)
        | delete path =>
            simp [Pending.applyTo, Write.apply, Write.path] at found
      · exact vouched.stored path document
          ((Write.lookup_apply_of_ne own world.firestore).symm.trans found)

theorem uploadTo (vouched : world.Vouched) {pending : Pending}
    (member : pending ∈ world.outstanding) {path : StoragePath} {data : Data}
    (found : (pending.uploadTo world.storage).lookup path = some data) :
    ∃ call ∈ world.calls, .putData path data ∈ call.2.action.requests := by
  have called := (vouched.traced pending (.inl member)).1
  have sent := vouched.sent pending member
  rcases pending with ⟨id, operation, request⟩
  cases request with
  | getDocument | write => exact vouched.kept path data found
  | putData target bytes =>
      by_cases own : path = target
      · subst own
        cases (AList.lookup_insert world.storage).symm.trans found
        exact ⟨_, called, sent _ _ rfl⟩
      · exact vouched.kept path data ((AList.lookup_insert_ne own).symm.trans found)

theorem perform (vouched : world.Vouched) {pending : Pending}
    (member : pending ∈ world.outstanding) (killerTarget : Option Player)
    (traced : (world.perform pending killerTarget).Traced) :
    (world.perform pending killerTarget).Vouched where
  traced := traced
  stored path document found := vouched.applyTo member found
  pledged other present path data shape := by
    rcases mem_outstanding_perform present with old | new
    · exact vouched.pledged other old path data shape
    · rcases vouched.traced pending (.inl member) with ⟨called, issued⟩
      exact sourced_of_mem_followUps called issued vouched.stored new shape
  kept path data found := vouched.uploadTo member found
  sent other present path data shape := by
    rcases mem_outstanding_perform present with old | new
    · exact vouched.sent other old path data shape
    · have notUpload := not_isUpload_of_mem_followUps (vouched.traced.issued member) new
      rw [shape] at notUpload
      cases notUpload

theorem step (vouched : world.Vouched) {event : Event}
    (stepped : world.step event = some next) : next.Vouched := by
  have traced := vouched.traced.step stepped
  rcases step_cases stepped with
    ⟨id, operation, rfl, _, rfl⟩ | ⟨pending, killerTarget, rfl, ready, rfl⟩
  · exact vouched.issue traced
  · exact vouched.perform ready.1 killerTarget traced

end World.Vouched

/-- Whatever the run, every document is one of a game, of a player, of a phone, of a published
or of an unconfirmed killshot, lies where documents of its kind lie and says what calls of the
run were made with; and every picture was handed over by a call to be kept where it is. -/
theorem documents_come_from_calls {events : List Event} {final : World}
    (performed : run World.step (World.start ∅ ∅) events = some final) :
    (∀ path document, final.firestore.lookup path = some document →
      Sourced final.calls path document) ∧
    ∀ path data, final.storage.lookup path = some data →
      ∃ call ∈ final.calls, .putData path data ∈ call.2.action.requests := by
  have vouched : final.Vouched :=
    run_keeps World.Vouched (fun vouched stepped => vouched.step stepped) .start performed
  exact ⟨vouched.stored, vouched.kept⟩

theorem documents_come_from_calls_twoRooms :
    ∃ final, run World.step (World.start ∅ ∅) twoRooms = some final ∧
      ∀ path document, final.firestore.lookup path = some document →
        Sourced final.calls path document := by
  have ends : (run World.step (World.start ∅ ∅) twoRooms).isSome = true := by decide
  rcases Option.isSome_iff_exists.mp ends with ⟨final, performed⟩
  exact ⟨final, performed, (documents_come_from_calls performed).1⟩

/-! ## What lasts -/

def Event.opens (room : Int) : Event → Bool
  | .call _ _ => false
  | .perform pending _ => pending.opensRoom room

def Event.deletes (path : ResourcePath) : Event → Bool
  | .call _ _ => false
  | .perform pending _ => decide (pending.request = .write (.delete path))

namespace World

variable {world next final : World} {event : Event} {events : List Event}

theorem mem_of_step {path : ResourcePath} (member : path ∈ world.firestore)
    (keeps : event.deletes path = false) (stepped : world.step event = some next) :
    path ∈ next.firestore := by
  rcases step_cases stepped with
    ⟨id, operation, rfl, _, rfl⟩ | ⟨pending, killerTarget, rfl, _, rfl⟩
  · exact member
  · rcases pending with ⟨id, operation, request⟩
    have other := of_decide_eq_false keeps
    cases request with
    | getDocument | putData => exact member
    | write write =>
        cases write with
        | setData target data => exact (AList.mem_insert _).mpr (.inr member)
        | updateData target data => exact Write.mem_updateData.mpr member
        | delete target =>
            refine AList.mem_erase.mpr ⟨?_, member⟩
            rintro rfl
            exact other rfl

theorem mem_of_run {path : ResourcePath} (member : path ∈ world.firestore)
    (keeps : ∀ event ∈ events, event.deletes path = false)
    (performed : run World.step world events = some final) : path ∈ final.firestore :=
  run_invariant (fun world => path ∈ world.firestore)
    (fun _ _ _ member keeps stepped => mem_of_step member keeps stepped) member
    (@meets_of_forall _ _ World.step (fun event => event.deletes path = false) _ keeps world)
    performed

theorem mem_storage_of_step {path : StoragePath} (member : path ∈ world.storage)
    (stepped : world.step event = some next) : path ∈ next.storage := by
  rcases step_cases stepped with
    ⟨id, operation, rfl, _, rfl⟩ | ⟨pending, killerTarget, rfl, _, rfl⟩
  · exact member
  · rcases pending with ⟨id, operation, request⟩
    cases request with
    | getDocument | write => exact member
    | putData target data => exact (AList.mem_insert _).mpr (.inr member)

theorem fields_of_step {room : Int} {document : Document} {field : String}
    (traced : world.Traced) (found : world.firestore.lookup (gameRef room) = some document)
    (other : field ≠ "playerCount") (keeps : event.opens room = false)
    (stepped : world.step event = some next) :
    ∃ last, next.firestore.lookup (gameRef room) = some last ∧
      last.lookup field = document.lookup field := by
  rcases step_cases stepped with
    ⟨id, operation, rfl, _, rfl⟩ | ⟨pending, killerTarget, rfl, ready, rfl⟩
  · exact ⟨document, found, rfl⟩
  · rcases gameDocument_cases (traced.issued ready.1) room world.firestore with
      ⟨count, _, _, _, stored⟩ | ⟨game, _, _, opens, _⟩ | ⟨_, same⟩
    · refine ⟨_, stored.trans (congrArg _ found), ?_⟩
      exact Document.lookup_merge_of_not_mem fun member =>
        other (Document.mem_fields_single.mp member)
    · cases keeps.symm.trans opens
    · exact ⟨document, same.trans found, rfl⟩

theorem fields_of_run {room : Int} {document : Document} {field : String}
    (traced : world.Traced) (found : world.firestore.lookup (gameRef room) = some document)
    (other : field ≠ "playerCount") (keeps : ∀ event ∈ events, event.opens room = false)
    (performed : run World.step world events = some final) :
    ∃ last, final.firestore.lookup (gameRef room) = some last ∧
      last.lookup field = document.lookup field := by
  have both : final.Traced ∧ ∃ last, final.firestore.lookup (gameRef room) = some last ∧
      last.lookup field = document.lookup field := by
    refine run_invariant (fun world : World => world.Traced ∧
      ∃ last, world.firestore.lookup (gameRef room) = some last ∧
        last.lookup field = document.lookup field) ?_ ⟨traced, document, found, rfl⟩
      (@meets_of_forall _ _ World.step (fun event => event.opens room = false) _ keeps world)
      performed
    intro state event next holds keeps stepped
    rcases holds with ⟨traced, last, there, same⟩
    rcases fields_of_step traced there other keeps stepped with ⟨later, kept, equal⟩
    exact ⟨traced.step stepped, later, kept, equal.trans same⟩
  exact both.2

theorem removed_of_performed {pending : Pending} {path : ResourcePath}
    (traced : world.Traced) (done : pending ∈ world.performed)
    (shape : pending.request = .write (.delete path)) :
    ∃ call ∈ world.calls, ∃ player, call.2.removed = some player ∧
      document? (players call.2.room) player.name = some path := by
  rcases traced pending (.inr done) with ⟨called, issued⟩
  rcases pending with ⟨id, operation, request⟩
  subst shape
  rcases issued with asked | answered
  · change Asked operation _ at asked
    cases asked with
    | removes removed named => exact ⟨_, called, _, removed, named⟩
  · cases answered

theorem removed_of_deletes {path : ResourcePath} (traced : world.Traced)
    (performed : run World.step world events = some final) (inside : event ∈ events)
    (deletes : event.deletes path = true) :
    ∃ call ∈ final.calls, ∃ player, call.2.removed = some player ∧
      document? (players call.2.room) player.name = some path := by
  have ended : final.Traced :=
    run_keeps World.Traced (fun traced stepped => traced.step stepped) traced performed
  have recorded := (recorded_of_run performed).2.2 event inside
  cases event with
  | call => cases deletes
  | perform pending killerTarget =>
      exact removed_of_performed ended recorded (of_decide_eq_true deletes)

end World

/-- Nothing is lost but by a call that removes a player: between any two moments of a run a
document is deleted only if such a call names it, a picture is never deleted, and a game
document stays and keeps its total and its time unless the room is opened again. -/
theorem documents_last {firestore : Firestore} {storage : Storage} {earlier later : List Event}
    {world final : World}
    (reached : run World.step (World.start firestore storage) earlier = some world)
    (performed : run World.step world later = some final) :
    (∀ path ∈ world.firestore, path ∉ final.firestore →
      ∃ call ∈ final.calls, ∃ player, call.2.removed = some player ∧
        document? (players call.2.room) player.name = some path) ∧
    (∀ path ∈ world.storage, path ∈ final.storage) ∧
    ∀ room document, world.firestore.lookup (gameRef room) = some document →
      gameRef room ∈ final.firestore ∧
      ((∀ event ∈ later, event.opens room = false) → ∀ field, field ≠ "playerCount" →
        ∃ last, final.firestore.lookup (gameRef room) = some last ∧
          last.lookup field = document.lookup field) := by
  have traced : world.Traced :=
    run_keeps World.Traced (fun traced stepped => traced.step stepped)
      (World.traced_start firestore storage) reached
  have removed : ∀ path ∈ world.firestore, path ∉ final.firestore →
      ∃ call ∈ final.calls, ∃ player, call.2.removed = some player ∧
        document? (players call.2.room) player.name = some path := by
    intro path member gone
    by_contra none'
    refine gone (World.mem_of_run member (fun event inside => ?_) performed)
    by_contra deletes
    exact none' (World.removed_of_deletes traced performed inside (by simpa using deletes))
  refine ⟨removed, fun path member => ?_, fun room document found => ⟨?_, ?_⟩⟩
  · exact run_keeps (fun world => path ∈ world.storage)
      (fun member stepped => World.mem_storage_of_step member stepped) member performed
  · by_contra gone
    have member : gameRef room ∈ world.firestore :=
      AList.lookup_isSome.mp (Option.isSome_iff_exists.mpr ⟨document, found⟩)
    rcases removed _ member gone with ⟨_, _, _, _, named⟩
    exact gameRef_ne_child named rfl
  · intro keeps field other
    exact World.fields_of_run traced found other keeps performed

theorem documents_last_twoRooms :
    ∃ world final, run World.step (World.start ∅ ∅) (twoRooms.take 4) = some world ∧
      run World.step world (twoRooms.drop 4) = some final ∧
      gameRef 1 ∈ final.firestore := by
  have ends : (run World.step (World.start ∅ ∅) (twoRooms.take 4)).any (fun world =>
      (run World.step world (twoRooms.drop 4)).isSome ∧
        (world.firestore.lookup (gameRef 1)).isSome) = true := by decide
  rcases run_ends ends with ⟨world, reached, continues, opened⟩
  rcases Option.isSome_iff_exists.mp continues with ⟨final, performed⟩
  rcases Option.isSome_iff_exists.mp opened with ⟨document, found⟩
  exact ⟨world, final, reached, performed,
    ((documents_last reached performed).2.2 1 document found).1⟩

end AssassinGame
