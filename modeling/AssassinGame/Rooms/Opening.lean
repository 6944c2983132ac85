import AssassinGame.Rooms.Counter

/-! # A room that has just been opened

The write that opens a room is the first request of its call. The world right
after it is where the runs of one room start: its counter shows the number of
players it was opened for, and no request under way opens it again.
-/

namespace AssassinGame

open AssassinGame.Action Transition World

def World.Unopening (room : Int) (world : World) : Prop :=
  ∀ pending ∈ world.outstanding, pending.opensRoom room = false

theorem Asked.opened_of_opensRoom {operation : Operation} {request : Request}
    (asked : Asked operation request) {room : Int} {call : CallId}
    (opens : Pending.opensRoom room ⟨call, operation, request⟩ = true) :
    operation.room = room ∧ operation.opened ≠ none := by
  cases asked with
  | opens opened =>
      exact ⟨gameRef_injective (of_decide_eq_true opens), by simp [opened]⟩
  | registers _ named =>
      exact absurd (of_decide_eq_true opens).symm (gameRef_ne_child named)
  | phones device =>
      exact absurd (of_decide_eq_true opens).symm (gameRef_ne_phone _ _ _)
  | publishes =>
      exact absurd (of_decide_eq_true opens).symm (gameRef_ne_killshotRef _ _)
  | removes | reads | uploads => cases opens

theorem Answered.not_opensRoom {operation : Operation} {request : Request}
    (answered : Answered operation request) (room : Int) (call : CallId) :
    Pending.opensRoom room ⟨call, operation, request⟩ = false := by
  cases answered with
  | counts => rfl
  | files data _ named => exact decide_eq_false (gameRef_ne_child named).symm

theorem World.Unopening.issue {room : Int} {world : World} {operation : Operation}
    (unopening : world.Unopening room)
    (opened : operation.room = room → operation.opened = none) (id : CallId) :
    (world.issue id operation).Unopening room := by
  intro pending member
  rcases mem_outstanding_issue.mp member with old | ⟨_, same, asked⟩
  · exact unopening pending old
  · by_contra opens
    rw [Bool.not_eq_false] at opens
    subst same
    have both := (asked_of_mem_requests asked).opened_of_opensRoom opens
    exact both.2 (opened both.1)

theorem World.Unopening.perform {room : Int} {world : World} {pending : Pending}
    (unopening : world.Unopening room)
    (issued : Issued pending.operation pending.request) (killerTarget : Option Player) :
    (world.perform pending killerTarget).Unopening room := by
  intro other member
  rcases mem_outstanding_perform member with old | new
  · exact unopening other old
  · rcases answered_of_mem_followUps issued new with ⟨_, same, answered⟩
    rw [← same] at answered
    exact answered.not_opensRoom room other.call

/-! ## A room that has just been opened -/

def opening (id : CallId) (operation : Operation) (game : Game) : Pending :=
  ⟨id, operation, .write (.setData (gameRef operation.room) (gameFields game))⟩

/-- The world after a call has opened a room, before the call does anything
else. -/
def World.openedBy (id : CallId) (operation : Operation) (game : Game)
    (firestore : Firestore) (storage : Storage) : World :=
  ((World.start firestore storage).issue id operation).perform (opening id operation game)
    none

def World.created (id : CallId) (game : Game) (firestore : Firestore) (storage : Storage) :
    World :=
  World.openedBy id (.addGame game) game firestore storage

theorem requests_of_opened {operation : Operation} {game : Game}
    (opened : operation.opened = some game) :
    ∃ rest, operation.action.requests =
        .write (.setData (gameRef operation.room) (gameFields game)) :: rest ∧
      ∀ request ∈ rest, ∀ room call,
        Pending.opensRoom room ⟨call, operation, request⟩ = false := by
  cases operation with
  | addGame given =>
      cases opened
      exact ⟨[], by simp [Operation.action, addGame_requests, gameFields, Operation.room],
        by simp⟩
  | createRoom screen roomNumber date deviceID =>
      simp only [Operation.opened] at opened
      split at opened
      · rename_i playerCount image counted pictured
        cases opened
        refine ⟨(addPlayer deviceID roomNumber (Player.init screen.nameField image)).requests,
          by simp [Operation.action, createNumberedRoom_requests, counted, pictured,
            Operation.room], ?_⟩
        intro request member room call
        -- as a request of `addPlayer` by itself it opens no room
        have asked : Asked (.addPlayer deviceID roomNumber
            (Player.init screen.nameField image)) request := asked_of_mem_requests member
        by_contra opens
        rw [Bool.not_eq_false] at opens
        exact (@Asked.opened_of_opensRoom _ _ asked room call opens).2 rfl
      · cases opened
  | addPlayer | removePlayer | addKillshot | uploadKillshotPic | uploadKillshotName
  | imagePickerController => cases opened

theorem roomNumber_of_opened {operation : Operation} {game : Game}
    (opened : operation.opened = some game) : game.roomNumber = operation.room := by
  cases operation with
  | addGame => cases opened; rfl
  | createRoom =>
      simp only [Operation.opened] at opened
      split at opened
      · cases opened
        rfl
      · cases opened
  | addPlayer | removePlayer | addKillshot | uploadKillshotPic | uploadKillshotName
  | imagePickerController => cases opened

theorem removed_of_opened {operation : Operation} {game : Game}
    (opened : operation.opened = some game) : operation.removed = none := by
  cases operation with
  | removePlayer => cases opened
  | _ => rfl

section Opened

variable {operation : Operation} {game : Game} (opened : operation.opened = some game)
  (id : CallId) (firestore : Firestore) (storage : Storage)

include opened

theorem World.ready_opening :
    ((World.start firestore storage).issue id operation).Ready (opening id operation game) := by
  rcases requests_of_opened opened with ⟨rest, requests, _⟩
  constructor
  · simp [World.issue, World.start, requests, opening]
  · intro earlier member
    simp [World.issue, World.start, requests, opening] at member

theorem World.run_openedBy :
    run World.step (World.start firestore storage)
      [.call id operation, .perform (opening id operation game) none] =
      some (World.openedBy id operation game firestore storage) := by
  have called : (World.start firestore storage).step (.call id operation) =
      some ((World.start firestore storage).issue id operation) :=
    step_call.mpr ⟨by simp [World.start], rfl⟩
  have performed : ((World.start firestore storage).issue id operation).step
      (.perform (opening id operation game) none) =
      some (World.openedBy id operation game firestore storage) :=
    step_perform.mpr ⟨ready_opening opened id firestore storage, rfl⟩
  simp [run, called, performed]

theorem World.traced_openedBy : (World.openedBy id operation game firestore storage).Traced :=
  run_keeps World.Traced (fun traced stepped => traced.step stepped)
    (traced_start firestore storage) (run_openedBy opened id firestore storage)

theorem World.asked_of_outstanding_openedBy {id : CallId} {firestore : Firestore}
    {storage : Storage} {pending : Pending}
    (member : pending ∈ (World.openedBy id operation game firestore storage).outstanding) :
    Asked pending.operation pending.request := by
  rcases mem_outstanding_perform member with old | new
  · rcases mem_outstanding_issue.mp old with none' | ⟨_, rfl, asked⟩
    · cases none'
    · exact asked_of_mem_requests asked
  · cases new

theorem World.unopening_openedBy (room : Int) :
    (World.openedBy id operation game firestore storage).Unopening room := by
  rcases requests_of_opened opened with ⟨rest, requests, harmless⟩
  intro pending member
  simp only [World.openedBy, World.perform, World.issue, World.start, requests, opening,
    Pending.followUps, List.nil_append, List.map_cons, List.erase_cons_head,
    List.append_nil, List.mem_map] at member
  rcases member with ⟨request, inside, rfl⟩
  exact harmless request inside room id

end Opened

section OpenedBy

variable (id : CallId) (operation : Operation) (game : Game) (firestore : Firestore)
  (storage : Storage)

@[simp] theorem World.openedBy_calls :
    (World.openedBy id operation game firestore storage).calls = [(id, operation)] := rfl

@[simp] theorem World.openedBy_firestore :
    (World.openedBy id operation game firestore storage).firestore =
      firestore.insert (gameRef operation.room) (gameFields game) := rfl

@[simp] theorem World.updates_openedBy (room : Int) :
    (World.openedBy id operation game firestore storage).updates room = 0 := rfl

theorem World.lookup_openedBy :
    (World.openedBy id operation game firestore storage).firestore.lookup
      (gameRef operation.room) = some (gameFields game) := by
  simp

@[simp] theorem World.created_outstanding :
    (World.created id game firestore storage).outstanding = [] := by
  simp [World.created, World.openedBy, World.perform, World.issue, World.start,
    Operation.action, addGame_requests, opening, gameFields, Pending.followUps,
    Operation.room]

@[simp] theorem World.created_calls :
    (World.created id game firestore storage).calls = [(id, .addGame game)] := rfl

@[simp] theorem World.created_firestore :
    (World.created id game firestore storage).firestore =
      firestore.insert (gameRef game.roomNumber) (gameFields game) := rfl

theorem World.traced_created : (World.created id game firestore storage).Traced :=
  @traced_openedBy (.addGame game) game rfl id firestore storage

theorem counter?_created :
    counter? game.roomNumber (World.created id game firestore storage).firestore =
      some game.playerCount := by
  simp [counter?]

end OpenedBy

end AssassinGame
