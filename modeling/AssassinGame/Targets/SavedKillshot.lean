import AssassinGame.Targets.Cycle
import AssassinGame.Rooms.Solo

/-! # What `saveImage` leaves behind

`saveImage` passes the player's target on as the killer, and `addKillshot` takes the
target of the player it is given: the killshot is filed as one by the target at the
target's target. Its location is left at zero.
-/

namespace AssassinGame

open AssassinGame.Action Transition World

/-! ## The call and its requests -/

/-- The call that `saveImage` makes for a player whose target is `target`. -/
def killshotOf (game : Game) (heap : Heap) (target : PlayerRef) (img : UIImage)
    (loc : CLLocation) : Operation :=
  .addKillshot game.roomNumber (heap.player target) ((heap.target target).map heap.player) img
    loc

theorem saveImage_eq {heap : Heap} {player target : PlayerRef}
    (aims : heap.target player = some target) (game : Game) (img : UIImage)
    (loc : CLLocation) :
    TabBarVC.saveImage (some game) (some player) heap loc img =
      (killshotOf game heap target img loc).action := by
  simp only [TabBarVC.saveImage, unwrap_some_bind, aims]
  rfl

/-- The document names the assassin and the place, and nobody has judged it. -/
def Describes (fields : Document) (assassin : String) (loc : CLLocation) : Prop :=
  fields.string? "assassin" = some assassin ∧
    fields.int? "accepts" = some 0 ∧ fields.int? "rejects" = some 0 ∧
    fields.lookup "latLocation" = some (.double loc.latitude) ∧
    fields.lookup "lonLocation" = some (.double loc.longitude)

theorem describes_killshotFields_iff {name assassin : String} {totalPlayers : Int}
    {loc : CLLocation} :
    Describes (killshotFields name totalPlayers) assassin loc ↔
      name = assassin ∧ loc = ⟨0, 0⟩ := by
  rcases loc with ⟨latitude, longitude⟩
  simp (disch := decide) [Describes, killshotFields, Document.string?, Document.int?,
    Document.lookup_fields_tail, eq_comm]

/-- The event continues a call, and a handler that it runs finds `victim` as the target of
the killer. -/
def Event.Finds (victim : Option Player) : Event → Prop
  | .perform _ killerTarget => killerTarget = victim
  | .call _ _ => False

instance (victim : Option Player) : ∀ event, Decidable (Event.Finds victim event)
  | .perform _ killerTarget => inferInstanceAs (Decidable (killerTarget = victim))
  | .call _ _ => inferInstanceAs (Decidable False)

/-! ## A call that uploads a picture and reads one document -/

theorem perm_perform {world : World} {pending : Pending} (member : pending ∈ world.outstanding)
    (killerTarget : Option Player) :
    ((world.perform pending killerTarget).outstanding ++
        (world.perform pending killerTarget).performed).Perm
      (pending.followUps killerTarget world.firestore ++
        (world.outstanding ++ world.performed)) := by
  have taken := List.perm_cons_erase member
  calc (world.outstanding.erase pending ++ pending.followUps killerTarget world.firestore) ++
        pending :: world.performed
    _ |>.Perm (pending.followUps killerTarget world.firestore ++
        (world.outstanding.erase pending ++ pending :: world.performed)) := by
          rw [← List.append_assoc]
          exact List.perm_append_comm.append_right _
    _ |>.Perm (pending.followUps killerTarget world.firestore ++
        (world.outstanding ++ world.performed)) := 
          (List.perm_middle.trans (taken.symm.append_right _)).append_left _

theorem not_isRead_of_isUpload {request : Request} (uploads : request.isUpload = true) :
    request.isRead = false := by
  cases request with
  | putData => rfl
  | write | getDocument => cases uploads

theorem applyTo_of_isUpload {pending : Pending} (uploads : pending.request.isUpload = true)
    (store : Firestore) : pending.applyTo store = store := by
  rcases pending with ⟨call, operation, request⟩
  cases request with
  | putData => rfl
  | write | getDocument => cases uploads

/-- The read is still to be answered in the store that the call found, or has been
answered in it. -/
def Saving (picture read : Pending) (answers : List Pending) (firestore : Firestore)
    (world : World) : Prop :=
  (read ∈ world.outstanding ∧ world.firestore = firestore ∧
      (world.outstanding ++ world.performed).Perm [picture, read]) ∨
    (read ∉ world.outstanding ∧
      (world.outstanding ++ world.performed).Perm (answers ++ [picture, read]))

section Saving

variable {picture read : Pending} {victim : Option Player} {firestore : Firestore}
  {world next final : World}

theorem Saving.step {event : Event} (uploads : picture.request.isUpload = true)
    (reads : read.request.isRead = true) (issued : Issued read.operation read.request)
    (saving : Saving picture read (read.followUps victim firestore) firestore world)
    (finds : event.Finds victim) (stepped : world.step event = some next) :
    Saving picture read (read.followUps victim firestore) firestore next := by
  rcases step_cases stepped with
    ⟨_, _, rfl, _, _⟩ | ⟨pending, killerTarget, rfl, ready, rfl⟩
  · exact finds.elim
  · have same : killerTarget = victim := finds
    subst killerTarget
    have moved := perm_perform ready.1 victim
    have pictureNotRead := not_isRead_of_isUpload uploads
    have apart : picture ≠ read := fun same => by
      rw [same, reads] at pictureNotRead
      cases pictureNotRead
    have answerNotRead : ∀ answer ∈ read.followUps victim firestore,
        answer.request.isRead = false := fun answer follows =>
      (answered_of_mem_followUps issued follows).2.2.not_isRead
    rcases saving with ⟨waits, found, perm⟩ | ⟨answered, perm⟩
    · have nodup : world.outstanding.Nodup :=
        (perm.nodup_iff.mpr (by simpa using apart)).sublist (List.sublist_append_left _ _)
      have member : pending = picture ∨ pending = read := by
        have inside := perm.mem_iff.mp (List.mem_append_left _ ready.1)
        simpa using inside
      rcases member with rfl | rfl
      · -- the picture arrives first
        rw [followUps_eq_nil pictureNotRead, List.nil_append] at moved
        exact .inl ⟨List.mem_append_left _ ((List.mem_erase_of_ne apart.symm).mpr waits),
          (applyTo_of_isUpload uploads _).trans found, moved.trans perm⟩
      · rw [found] at moved
        refine .inr ⟨fun inside => ?_, moved.trans (perm.append_left _)⟩
        rcases List.mem_append.mp inside with left | new
        · exact nodup.not_mem_erase left
        · rw [found] at new
          rw [answerNotRead _ new] at reads
          cases reads
    · have notRead : pending.request.isRead = false := by
        have inside := perm.mem_iff.mp (List.mem_append_left _ ready.1)
        rcases List.mem_append.mp inside with answer | asked
        · exact answerNotRead _ answer
        · simp only [List.mem_cons, List.not_mem_nil, or_false] at asked
          rcases asked with rfl | rfl
          · exact pictureNotRead
          · exact absurd ready.1 answered
      rw [followUps_eq_nil notRead, List.nil_append] at moved
      refine .inr ⟨fun inside => ?_, moved.trans perm⟩
      simp only [World.perform, followUps_eq_nil notRead, List.append_nil] at inside
      exact answered (List.mem_of_mem_erase inside)

theorem performed_of_saving {events : List Event} (uploads : picture.request.isUpload = true)
    (reads : read.request.isRead = true) (issued : Issued read.operation read.request)
    (saving : Saving picture read (read.followUps victim firestore) firestore world)
    (finds : ∀ event ∈ events, event.Finds victim)
    (performed : run World.step world events = some final) (done : final.outstanding = []) :
    final.performed.Perm (read.followUps victim firestore ++ [picture, read]) := by
  induction events generalizing world with
  | nil =>
      have same : world = final := Option.some.inj performed
      subst same
      rcases saving with waits | answered
      · simp [done] at waits
      · simpa [done] using answered.2
  | cons event events induction =>
      rcases run_cons_eq_some.mp performed with ⟨next, stepped, rest⟩
      exact induction
        (saving.step uploads reads issued (finds event List.mem_cons_self) stepped)
        (fun other member => finds other (List.mem_cons_of_mem _ member)) rest

end Saving

/-! ## What is saved -/

structure Saved (room : Int) (assassin victim : String) (img : UIImage) (loc : CLLocation)
    (world : World) : Prop where
  picture : ∃ data, img.pngData = some data ∧ ∃ pending ∈ world.performed,
    pending.request = .putData (killshotFileRef room victim) data
  filed : ∃ shotRef, document? (unconfirmedKillshots room) victim = some shotRef ∧
    ∃ fields, Describes fields assassin loc ∧ ∃ pending ∈ world.performed,
      pending.request = .write (.setData shotRef fields)

/-- Taking one step too many along the ring makes no difference to the texts, the picture
and the game document are there, and the place is the one that is always filed. -/
structure Indifferent (firestore : Firestore) (room : Int) (assassin victim next : String)
    (img : UIImage) (loc : CLLocation) : Prop where
  png : img.pngData.isSome
  game : ((firestore.lookup (gameRef room)).bind (·.int? "totalPlayers")).isSome
  file : killshotFileRef room next = killshotFileRef room victim
  shot : ∃ shotRef, document? (unconfirmedKillshots room) next = some shotRef ∧
    document? (unconfirmedKillshots room) victim = some shotRef
  assassin : victim = assassin
  place : loc = ⟨0, 0⟩

section Requested

variable {room : Int} {killer next : Player} {img : UIImage} {loc : CLLocation} {data : Data}
  {firestore : Firestore} {storage : Storage} {call : CallId} {events : List Event}
  {final : World}

theorem requested_iff (png : img.pngData = some data)
    (performed : run World.step ((World.start firestore storage).issue call
      (.addKillshot room killer (some next) img loc)) events = some final)
    (finds : ∀ event ∈ events, event.Finds (some next)) (done : final.outstanding = [])
    (request : Request) :
    (∃ pending ∈ final.performed, pending.request = request) ↔
      request ∈ (addKillshot.completion (gameRef room) killer (some next)
          (firestore.lookup (gameRef room))).requests ∨
        request = .putData (killshotFileRef room next.name) data ∨
        request = .getDocument (gameRef room) (.addKillshot (gameRef room) killer) := by
  have asked : (Operation.addKillshot room killer (some next) img loc).action.requests = [
      .putData (killshotFileRef room next.name) data,
      .getDocument (gameRef room) (.addKillshot (gameRef room) killer)] :=
    addKillshot_requests png loc
  have saving : Saving
      ⟨call, .addKillshot room killer (some next) img loc,
        .putData (killshotFileRef room next.name) data⟩
      ⟨call, .addKillshot room killer (some next) img loc,
        .getDocument (gameRef room) (.addKillshot (gameRef room) killer)⟩
      (Pending.followUps ⟨call, .addKillshot room killer (some next) img loc,
        .getDocument (gameRef room) (.addKillshot (gameRef room) killer)⟩ (some next)
        firestore) firestore
      ((World.start firestore storage).issue call
        (.addKillshot room killer (some next) img loc)) := by
    left
    simp [World.issue, World.start, asked]
  have perm := (performed_of_saving rfl rfl (.inl (.reads rfl)) saving finds performed
    done).map Pending.request
  rw [← List.mem_map, perm.mem_iff]
  simp [Pending.followUps, Completion.handle, Function.comp_def]

theorem saved_iff {assassin victim : String}
    (performed : run World.step ((World.start firestore storage).issue call
      (.addKillshot room killer (some next) img loc)) events = some final)
    (finds : ∀ event ∈ events, event.Finds (some next)) (done : final.outstanding = [])
    (passed : killer.name = victim) :
    Saved room assassin victim img loc final ↔
      Indifferent firestore room assassin victim next.name img loc := by
  subst passed
  constructor
  · intro saved
    rcases saved.picture with ⟨data, png, uploaded⟩
    rcases saved.filed with ⟨shotRef, named, fields, describes, filed⟩
    rw [requested_iff png performed finds done, mem_addKillshot_completion_iff] at uploaded
    rw [requested_iff png performed finds done, mem_addKillshot_completion_iff] at filed
    simp only [reduceCtorEq, and_false, exists_false, Request.putData.injEq, and_true,
      or_false, false_or] at uploaded
    simp only [reduceCtorEq, or_false, Request.write.injEq, Write.setData.injEq] at filed
    rcases filed with ⟨total, found, shot, nextNamed, rfl, rfl⟩
    rcases describes_killshotFields_iff.mp describes with ⟨same, place⟩
    exact ⟨by simp [png], by simp [found], uploaded.symm, ⟨_, nextNamed, named⟩, same, place⟩
  · intro indifferent
    rcases Option.isSome_iff_exists.mp indifferent.png with ⟨data, png⟩
    rcases Option.isSome_iff_exists.mp indifferent.game with ⟨total, found⟩
    rcases indifferent.shot with ⟨shotRef, nextNamed, named⟩
    refine ⟨⟨data, png, ?_⟩, shotRef, named, killshotFields killer.name total,
      describes_killshotFields_iff.mpr ⟨indifferent.assassin, indifferent.place⟩, ?_⟩
    · rw [requested_iff png performed finds done, indifferent.file]
      exact .inr (.inl rfl)
    · rw [requested_iff png performed finds done, mem_addKillshot_completion_iff]
      exact .inl ⟨total, found, shotRef, nextNamed, rfl⟩

end Requested

/-- `saveImage` of a player of a ring saves its killshot exactly when the texts, the picture
and the place make no difference to the step that is taken twice. -/
theorem saveImage_saves_iff {game : Game} {shuffle : Shuffle PlayerRef} {heap : Heap}
    {result : Game × Heap} {player target : PlayerRef} {img : UIImage}
    {userLocation : CLLocation} {firestore : Firestore} {storage : Storage} {call : CallId}
    {events : List Event} {final : World} (nodup : game.players.Nodup)
    (assigned : game.assignTargets shuffle heap = some result)
    (member : player ∈ game.players) (aims : result.2.target player = some target)
    (performed : run World.step ((World.start firestore storage).issue call
      (killshotOf result.1 result.2 target img userLocation)) events = some final)
    (finds : ∀ event ∈ events,
      event.Finds ((result.2.target target).map result.2.player))
    (done : final.outstanding = []) :
    TabBarVC.saveImage (some result.1) (some player) result.2 userLocation img =
        (killshotOf result.1 result.2 target img userLocation).action ∧
      (Saved result.1.roomNumber (heap.player player).name (heap.player target).name img
          userLocation final ↔
        ∃ next, result.2.target target = some next ∧
          Indifferent firestore result.1.roomNumber (heap.player player).name
            (heap.player target).name (heap.player next).name img userLocation) := by
  rcases Game.links_of_assigned nodup assigned with ⟨order, same, links⟩
  have hunts : target ∈ result.1.players :=
    ((links player (order ▸ shuffle.mem_iff.mpr member) target).mp aims).victim_mem
  rcases links.exists_next hunts with ⟨next, _, aimsNext⟩
  refine ⟨saveImage_eq aims result.1 img userLocation, ?_⟩
  rw [killshotOf, aimsNext, Option.map_some, same] at performed
  rw [aimsNext, Option.map_some, same] at finds
  rw [saved_iff performed finds done rfl]
  simp [aimsNext]

/-! ## Two rings of three -/

def ringOf (name : PlayerRef → String) : Game × Heap :=
  (Game.trio.assignTargets .keep ⟨fun ref => Player.init (name ref) someImage, fun _ => none⟩).getD
    (Game.trio, Game.trioHeap)

def namesakes : Game × Heap := ringOf fun _ => "ann"

def annBobCat : Game × Heap := ringOf fun ref => ["ann", "bob", "cat"][ref]?.getD "dan"

def openedTrio : Firestore :=
  (Write.setData (gameRef 7) (gameFields (Game.init 7 3 "noon"))).apply ∅

def firstShot (ring : Game × Heap) (loc : CLLocation) : World × List Event :=
  let world := (World.start openedTrio ∅).issue 0 (killshotOf ring.1 ring.2 1 someImage loc)
  (world, world.answerAll ((ring.2.target 1).map ring.2.player) 3)

def somewhere : CLLocation := ⟨37, 122⟩

theorem saveImage_saves_iff_namesakes :
    ∃ final, run World.step (firstShot namesakes ⟨0, 0⟩).1
        (firstShot namesakes ⟨0, 0⟩).2 = some final ∧
      Saved 7 "ann" "ann" someImage ⟨0, 0⟩ final := by
  have ends : (run World.step (firstShot namesakes ⟨0, 0⟩).1
      (firstShot namesakes ⟨0, 0⟩).2).any
      (fun final => final.outstanding = []) = true := by decide
  rcases run_ends ends with ⟨final, performed, done⟩
  refine ⟨final, performed, ?_⟩
  refine ((@saveImage_saves_iff Game.trio .keep _ namesakes 0 1 someImage ⟨0, 0⟩
    openedTrio ∅ 0 _ final (by decide) rfl (by decide) rfl performed (by decide) done).2).mpr ?_
  exact ⟨2, rfl, by decide, by decide, rfl, ⟨_, rfl, rfl⟩, rfl, rfl⟩

/-- Of three players with different names the first uploads no picture under the name of
the second, its target. -/
theorem saveImage_misses_target :
    ∃ final, run World.step (firstShot annBobCat somewhere).1 (firstShot annBobCat somewhere).2 =
        some final ∧
      final.outstanding = [] ∧ ¬Saved 7 "ann" "bob" someImage somewhere final := by
  have ends : (run World.step (firstShot annBobCat somewhere).1
      (firstShot annBobCat somewhere).2).any
      (fun final => final.outstanding = [] ∧ ∀ pending ∈ final.performed, pending.request ≠
        .putData (killshotFileRef 7 "bob") [137, 80, 78, 71]) = true := by decide
  rcases run_ends ends with ⟨final, performed, done, others⟩
  refine ⟨final, performed, done, fun saved => ?_⟩
  rcases saved.picture with ⟨data, png, pending, member, uploads⟩
  cases png
  exact others pending member uploads

end AssassinGame
