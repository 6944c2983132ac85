import AssassinGame.Foundation.Transition
import AssassinGame.Controller.JoinGameVC
import AssassinGame.Controller.WaitingVC

/-! # The phones and the two stores

Any number of calls are under way at once. The requests a call has issued wait
until they are performed, one at a time: a write of a call waits for the call's
earlier writes, the answer to a `getDocument` waits for them too and is the
document's current value, and a picture arrives at any time. Nothing orders the
requests of different calls.
-/

namespace AssassinGame

open AssassinGame.Action Transition

/-- The entry points that issue requests, with their arguments. -/
inductive Operation
  | addGame (game : Game)
  | addPlayer (deviceID : Option UUID) (roomNumber : Int) (player : Player)
  | removePlayer (roomNumber : Int) (player : Player)
  | addKillshot (roomNumber : Int) (killer : Player) (target : Option Player)
      (img : UIImage) (loc : CLLocation)
  | uploadKillshotPic (screen : TabBarVC) (image : UIImage)
  | uploadKillshotName (screen : TabBarVC) (name : String)
  | imagePickerController (screen : TabBarVC) (img : UIImage)
  | createRoom (screen : CreateGameVC) (roomNumber : Int) (date : String)
      (deviceID : Option UUID)
  deriving DecidableEq

namespace Operation

def action : Operation → Action Unit
  | .addGame game => AssassinGame.addGame game
  | .addPlayer deviceID roomNumber player => AssassinGame.addPlayer deviceID roomNumber player
  | .removePlayer roomNumber player => AssassinGame.removePlayer roomNumber player
  | .addKillshot roomNumber killer target img loc =>
      AssassinGame.addKillshot roomNumber killer target img loc
  | .uploadKillshotPic screen image => screen.uploadKillshotPic image
  | .uploadKillshotName screen name => screen.uploadKillshotName name
  | .imagePickerController screen img => screen.imagePickerController img
  | .createRoom screen roomNumber date deviceID =>
      screen.createNumberedRoom roomNumber date deviceID

def room : Operation → Int
  | .addGame game => game.roomNumber
  | .addPlayer _ roomNumber _ => roomNumber
  | .removePlayer roomNumber _ => roomNumber
  | .addKillshot roomNumber _ _ _ _ => roomNumber
  | .uploadKillshotPic screen _ => screen.roomNumber
  | .uploadKillshotName screen _ => screen.roomNumber
  | .imagePickerController screen _ => screen.roomNumber
  | .createRoom _ roomNumber _ _ => roomNumber

end Operation

/-! ## Requests under way -/

abbrev CallId := Nat

structure Pending where
  call : CallId
  operation : Operation
  request : Request
  deriving DecidableEq

namespace Pending

/-- What a performed request makes its call issue: the requests of the
completion handler. -/
def followUps (pending : Pending) (killerTarget : Option Player) (store : Firestore) :
    List Pending :=
  match pending.request with
  | .getDocument path completion =>
      (completion.handle killerTarget (store.lookup path)).requests.map
        (Pending.mk pending.call pending.operation)
  | _ => []

def applyTo (pending : Pending) (store : Firestore) : Firestore :=
  match pending.request with
  | .write write => write.apply store
  | _ => store

def uploadTo (pending : Pending) (storage : Storage) : Storage :=
  match pending.request with
  | .putData path data => storage.insert path data
  | _ => storage

/-- No request in `queue` that this one must wait for stands before it. -/
def Unblocked (pending : Pending) (queue : List Pending) : Prop :=
  ∀ earlier ∈ queue.takeWhile (· ≠ pending),
    earlier.call = pending.call → pending.request.waitsFor earlier.request = false

instance (pending : Pending) (queue : List Pending) : Decidable (pending.Unblocked queue) :=
  inferInstanceAs (Decidable (∀ _ ∈ _, _))

end Pending

structure World where
  firestore : Firestore
  storage : Storage
  /-- The calls made so far, the latest first. -/
  calls : List (CallId × Operation)
  /-- The requests not yet performed, in the order of issue. -/
  outstanding : List Pending
  /-- The requests performed so far, the latest first. -/
  performed : List Pending

inductive Event
  | call (id : CallId) (operation : Operation)
  /-- `killerTarget` is what `killer.target` refers to when a handler runs. -/
  | perform (pending : Pending) (killerTarget : Option Player)

def Event.room : Event → Int
  | .call _ operation => operation.room
  | .perform pending _ => pending.operation.room

namespace World

def start (firestore : Firestore) (storage : Storage) : World where
  firestore := firestore
  storage := storage
  calls := []
  outstanding := []
  performed := []

def Ready (world : World) (pending : Pending) : Prop :=
  pending ∈ world.outstanding ∧ pending.Unblocked world.outstanding

instance (world : World) (pending : Pending) : Decidable (world.Ready pending) :=
  inferInstanceAs (Decidable (_ ∧ _))

def issue (world : World) (id : CallId) (operation : Operation) : World :=
  { world with
    calls := (id, operation) :: world.calls
    outstanding := world.outstanding ++
      operation.action.requests.map (Pending.mk id operation) }

/-- The world after a request has been performed and its handler has run. -/
def perform (world : World) (pending : Pending) (killerTarget : Option Player) : World where
  firestore := pending.applyTo world.firestore
  storage := pending.uploadTo world.storage
  calls := world.calls
  outstanding := world.outstanding.erase pending ++
    pending.followUps killerTarget world.firestore
  performed := pending :: world.performed

/-- One event; `none` when it cannot happen. -/
def step (world : World) : Event → Option World
  | .call id operation =>
      if id ∈ world.calls.map Prod.fst then none else some (world.issue id operation)
  | .perform pending killerTarget =>
      if world.Ready pending then some (world.perform pending killerTarget) else none

theorem step_call {world next : World} {id : CallId} {operation : Operation} :
    world.step (.call id operation) = some next ↔
      id ∉ world.calls.map Prod.fst ∧ next = world.issue id operation := by
  rw [step]
  split
  · rename_i used
    simp [used]
  · rename_i fresh
    simp only [Option.some.injEq, fresh, not_false_eq_true, true_and]
    exact eq_comm

theorem step_perform {world next : World} {pending : Pending}
    {killerTarget : Option Player} :
    world.step (.perform pending killerTarget) = some next ↔
      world.Ready pending ∧ next = world.perform pending killerTarget := by
  rw [step]
  split
  · rename_i ready
    simp only [Option.some.injEq, ready, true_and]
    exact eq_comm
  · rename_i blocked
    simp [blocked]

/-- What a step can do: make a fresh call, or perform a request that is ready. -/
theorem step_cases {world next : World} {event : Event}
    (stepped : world.step event = some next) :
    (∃ id operation, event = .call id operation ∧ id ∉ world.calls.map Prod.fst ∧
      next = world.issue id operation) ∨
    (∃ pending killerTarget, event = .perform pending killerTarget ∧ world.Ready pending ∧
      next = world.perform pending killerTarget) := by
  cases event with
  | call id operation =>
      rcases step_call.mp stepped with ⟨fresh, made⟩
      exact .inl ⟨id, operation, rfl, fresh, made⟩
  | perform pending killerTarget =>
      rcases step_perform.mp stepped with ⟨ready, done⟩
      exact .inr ⟨pending, killerTarget, rfl, ready, done⟩

/-! ## Sums over the requests under way

Accounts of a run add up a weight over the outstanding requests. A call adds
the weights of what it issues; a performed request takes its own weight out and
puts the weights of its follow-ups in. -/

def owed (world : World) (weight : Pending → Int) : Int :=
  (world.outstanding.map weight).sum

theorem owed_issue (world : World) (id : CallId) (operation : Operation)
    (weight : Pending → Int) :
    (world.issue id operation).owed weight = world.owed weight +
      (operation.action.requests.map fun request =>
        weight ⟨id, operation, request⟩).sum := by
  simp [owed, issue, List.map_append, List.sum_append, Function.comp_def]

theorem owed_perform {world : World} {pending : Pending}
    (member : pending ∈ world.outstanding) (killerTarget : Option Player)
    (weight : Pending → Int) :
    (world.perform pending killerTarget).owed weight + weight pending =
      world.owed weight +
        ((pending.followUps killerTarget world.firestore).map weight).sum := by
  have taken := List.sum_map_erase weight member
  simp only [owed, perform, List.map_append, List.sum_append]
  omega

theorem mem_outstanding_issue {world : World} {id : CallId} {operation : Operation}
    {pending : Pending} :
    pending ∈ (world.issue id operation).outstanding ↔
      pending ∈ world.outstanding ∨
        (pending.call = id ∧ pending.operation = operation ∧
          pending.request ∈ operation.action.requests) := by
  simp only [issue, List.mem_append, List.mem_map]
  constructor
  · rintro (old | ⟨request, member, rfl⟩)
    · exact .inl old
    · exact .inr ⟨rfl, rfl, member⟩
  · rintro (old | ⟨rfl, rfl, member⟩)
    · exact .inl old
    · exact .inr ⟨pending.request, member, rfl⟩

theorem mem_outstanding_perform {world : World} {pending other : Pending}
    {killerTarget : Option Player}
    (member : other ∈ (world.perform pending killerTarget).outstanding) :
    other ∈ world.outstanding ∨
      other ∈ pending.followUps killerTarget world.firestore := by
  rcases List.mem_append.mp member with old | new
  · exact .inl (List.mem_of_mem_erase old)
  · exact .inr new

/-! ## Schedules -/

/-- A move of a schedule, which names a request by its place in the queue. -/
inductive Move
  | call (id : CallId) (operation : Operation)
  | answer (place : Nat)

def follow (world : World) : List Move → List Event
  | [] => []
  | .call id operation :: moves =>
      .call id operation :: (world.issue id operation).follow moves
  | .answer place :: moves =>
      match world.outstanding[place]? with
      | some pending => .perform pending none :: (world.perform pending none).follow moves
      | none => world.follow moves

def answerAll (killerTarget : Option Player) : Nat → World → List Event
  | 0, _ => []
  | count + 1, world =>
      match world.outstanding with
      | [] => []
      | pending :: _ => .perform pending killerTarget ::
          answerAll killerTarget count (world.perform pending killerTarget)

end World

def somePhone : UUID := ⟨"E621E1F8", by decide⟩

def someImage : UIImage := ⟨some [137, 80, 78, 71]⟩

def join (roomNumber : Int) (name : String) : Operation :=
  .addPlayer (some somePhone) roomNumber (Player.init name someImage)

def createScreen (name : String) (count : Fin 101) : CreateGameVC :=
  (CreateGameVC.mk (some someImage) CreateGameVC.initialNumOfPlayers name).stepper count

def create (roomNumber : Int) (name : String) (count : Fin 101) : Operation :=
  .createRoom (createScreen name count) roomNumber "noon" (some somePhone)

end AssassinGame
