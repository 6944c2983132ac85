import AssassinGame.Rooms.Progress

/-! # One call at a time

While a single call is under way, the documents it will leave behind are settled:
its writes are performed in the order of issue, and its read is answered with a
document that no write of the call still concerns. Whatever the schedule, the call
ends in the store that its requests, taken in order, make of the store it found.
-/

namespace AssassinGame

open AssassinGame.Action Transition World

def Request.write? : Request → Option Write
  | .write request => some request
  | _ => none

def applyAll (writes : List Write) (store : Firestore) : Firestore :=
  writes.foldl (fun store write => write.apply store) store

@[simp] theorem applyAll_nil (store : Firestore) : applyAll [] store = store := rfl

@[simp] theorem applyAll_cons (write : Write) (writes : List Write) (store : Firestore) :
    applyAll (write :: writes) store = applyAll writes (write.apply store) := rfl

theorem applyAll_append (first second : List Write) (store : Firestore) :
    applyAll (first ++ second) store = applyAll second (applyAll first store) :=
  List.foldl_append

theorem lookup_applyAll_of_ne {writes : List Write} {path : ResourcePath}
    (apart : ∀ write ∈ writes, write.path ≠ path) (store : Firestore) :
    (applyAll writes store).lookup path = store.lookup path := by
  induction writes generalizing store with
  | nil => rfl
  | cons write writes induction =>
      rw [applyAll_cons, induction fun other member =>
        apart other (List.mem_cons_of_mem _ member)]
      exact Write.lookup_apply_of_ne (apart write List.mem_cons_self).symm store

def writesOf (pendings : List Pending) : List Write :=
  pendings.filterMap fun pending => pending.request.write?

def answers (pendings : List Pending) (store : Firestore) : List Pending :=
  pendings.flatMap fun pending => pending.followUps none store

/-- The store that requests make of a store when the writes are performed in order
and the reads answered after them. -/
def finish (pendings : List Pending) (store : Firestore) : Firestore :=
  let settled := applyAll (writesOf pendings) store
  applyAll (writesOf (answers pendings settled)) settled

/-- The store in which the calls under way will end. -/
def World.outcome (world : World) : Firestore := finish world.outstanding world.firestore

theorem outcome_of_idle {world : World} (idle : world.outstanding = []) :
    world.outcome = world.firestore := by
  rw [World.outcome, idle]
  rfl

/-! ## Requests that are rejected -/

namespace Pending

/-- The document store after the request, which changes nothing when it is rejected. -/
def applyUnder (accepted : Request → Bool) (pending : Pending) (store : Firestore) :
    Firestore :=
  if accepted pending.request then pending.applyTo store else store

def uploadUnder (accepted : Request → Bool) (pending : Pending) (storage : Storage) :
    Storage :=
  if accepted pending.request then pending.uploadTo storage else storage

end Pending

namespace World

/-- The world after a request has been performed or rejected. Its call goes on either
way. -/
def settle (accepted : Request → Bool) (world : World) (pending : Pending)
    (killerTarget : Option Player) : World where
  firestore := pending.applyUnder accepted world.firestore
  storage := pending.uploadUnder accepted world.storage
  calls := world.calls
  outstanding := world.outstanding.erase pending ++
    pending.followUps killerTarget world.firestore
  performed := pending :: world.performed

/-- One event, when only the accepted requests change the stores. -/
def stepUnder (accepted : Request → Bool) (world : World) : Event → Option World
  | .call id operation => world.step (.call id operation)
  | .perform pending killerTarget =>
      if world.Ready pending then some (world.settle accepted pending killerTarget) else none

theorem settle_all (world : World) (pending : Pending) (killerTarget : Option Player) :
    world.settle (fun _ => true) pending killerTarget = world.perform pending killerTarget :=
  rfl

theorem stepUnder_all : stepUnder (fun _ => true) = step := by
  funext world event
  cases event <;> rfl

end World

def acceptedWrites (accepted : Request → Bool) (pendings : List Pending) : List Write :=
  writesOf (pendings.filter fun pending => accepted pending.request)

def finishUnder (accepted : Request → Bool) (pendings : List Pending) (store : Firestore) :
    Firestore :=
  let settled := applyAll (acceptedWrites accepted pendings) store
  applyAll (acceptedWrites accepted (answers pendings settled)) settled

def World.outcomeUnder (accepted : Request → Bool) (world : World) : Firestore :=
  finishUnder accepted world.outstanding world.firestore

theorem acceptedWrites_all (pendings : List Pending) :
    acceptedWrites (fun _ => true) pendings = writesOf pendings := by
  rw [acceptedWrites, List.filter_true]

theorem outcomeUnder_all (world : World) : world.outcomeUnder (fun _ => true) = world.outcome := by
  simp only [World.outcomeUnder, finishUnder, acceptedWrites_all]
  rfl

/-! ## The order of the requests of one call -/

def ReadLast (requests : List Request) : Prop :=
  requests.Pairwise fun earlier later => earlier.isRead = true → later.write? = none

theorem readLast_addPlayer (deviceID : Option UUID) (room : Int) (player : Player) :
    ReadLast (addPlayer deviceID room player).requests := by
  rw [addPlayer_requests_eq]
  split <;> simp [ReadLast, Request.isRead, Request.write?]

theorem readLast_of_changes {operation : Operation} (changes : operation.change ≠ 0) :
    ReadLast operation.action.requests := by
  cases operation with
  | addPlayer deviceID roomNumber player => exact readLast_addPlayer _ _ _
  | removePlayer roomNumber player =>
      cases named : document? (gameRef roomNumber ++ ["players"]) player.name <;>
        simp [Operation.action, removePlayer, gameRefOf_eq, bind_requests, Action.document,
          named, ReadLast, Request.isRead, Request.write?]
  | createRoom screen roomNumber date deviceID =>
      rw [Operation.action, createNumberedRoom_requests]
      split
      · refine List.pairwise_cons.mpr ⟨fun later member read => ?_,
          readLast_addPlayer _ _ _⟩
        cases read
      · exact .nil
  | addGame | addKillshot | uploadKillshotPic | uploadKillshotName
  | imagePickerController => exact absurd rfl changes

/-! ## A single call under way -/

/-- At most one call is under way, one that changes a counter. -/
structure World.Solo (world : World) : Prop where
  orderly : world.Orderly
  single : ∀ first ∈ world.outstanding, ∀ second ∈ world.outstanding,
    first.call = second.call
  changes : ∀ pending ∈ world.outstanding, pending.operation.change ≠ 0
  readLast : ReadLast (world.outstanding.map Pending.request)

/-- A ready request splits the queue at its place. Among the requests of one call
it need not wait for anything before it. -/
theorem World.Solo.split {world : World} (solo : world.Solo) {pending : Pending}
    (ready : world.Ready pending) :
    ∃ front back, world.outstanding = front ++ pending :: back ∧
      world.outstanding.erase pending = front ++ back ∧
      ∀ earlier ∈ front, pending.request.waitsFor earlier.request = false := by
  rcases List.exists_erase_eq ready.1 with ⟨front, back, outside, shape, taken⟩
  refine ⟨front, back, shape, taken, fun earlier member => ?_⟩
  have before : earlier ∈ world.outstanding.takeWhile (· ≠ pending) := by
    rw [shape, List.takeWhile_append_of_pos]
    · exact List.mem_append_left _ member
    · intro other inside
      simpa using fun same : other = pending => outside (same ▸ inside)
  apply ready.2 earlier before
  exact solo.single earlier (by simp [shape, member]) pending ready.1

theorem writesOf_append (first second : List Pending) :
    writesOf (first ++ second) = writesOf first ++ writesOf second :=
  List.filterMap_append

theorem writesOf_cons (pending : Pending) (pendings : List Pending) :
    writesOf (pending :: pendings) = pending.request.write?.toList ++ writesOf pendings := by
  cases found : pending.request.write? <;> simp [writesOf, found]

theorem writesOf_eq_nil {pendings : List Pending}
    (none' : ∀ pending ∈ pendings, pending.request.write? = none) : writesOf pendings = [] :=
  List.filterMap_eq_nil_iff.mpr none'

theorem acceptedWrites_append (accepted : Request → Bool) (first second : List Pending) :
    acceptedWrites accepted (first ++ second) =
      acceptedWrites accepted first ++ acceptedWrites accepted second := by
  rw [acceptedWrites, List.filter_append, writesOf_append]
  rfl

theorem acceptedWrites_cons (accepted : Request → Bool) (pending : Pending)
    (pendings : List Pending) :
    acceptedWrites accepted (pending :: pendings) =
      (if accepted pending.request then pending.request.write?.toList else []) ++
        acceptedWrites accepted pendings := by
  cases given : accepted pending.request <;> simp [acceptedWrites, given, writesOf_cons]

theorem acceptedWrites_eq_nil {pendings : List Pending}
    (none' : ∀ pending ∈ pendings, pending.request.write? = none)
    (accepted : Request → Bool) : acceptedWrites accepted pendings = [] :=
  writesOf_eq_nil fun pending member => none' pending (List.mem_of_mem_filter member)

theorem answers_eq_nil {pendings : List Pending}
    (notRead : ∀ pending ∈ pendings, pending.request.isRead = false) (store : Firestore) :
    answers pendings store = [] := by
  rw [answers, List.flatMap_eq_nil_iff]
  exact fun pending member => followUps_eq_nil (notRead pending member) none store

theorem answers_append (first second : List Pending) (store : Firestore) :
    answers (first ++ second) store = answers first store ++ answers second store :=
  List.flatMap_append

theorem answers_cons (pending : Pending) (pendings : List Pending) (store : Firestore) :
    answers (pending :: pendings) store =
      pending.followUps none store ++ answers pendings store :=
  List.flatMap_cons

theorem followUps_congr {pending : Pending}
    (issued : Issued pending.operation pending.request)
    (changes : pending.operation.change ≠ 0) (killerTarget other : Option Player)
    {left right : Firestore}
    (same : left.lookup (gameRef pending.operation.room) =
      right.lookup (gameRef pending.operation.room)) :
    pending.followUps killerTarget left = pending.followUps other right := by
  rcases pending with ⟨id, operation, request⟩
  rcases issued with asked | answered
  · change Asked operation request at asked
    cases asked with
    | reads completes =>
        rcases handle_cases completes with ⟨_, handles⟩ | ⟨unchanged, _⟩
        · simp only [Pending.followUps, handles, same]
        · exact absurd unchanged changes
    | _ => rfl
  · change Answered operation request at answered
    cases answered <;> rfl

theorem Answered.not_isRead {operation : Operation} {request : Request}
    (answered : Answered operation request) : request.isRead = false := by
  cases answered <;> rfl

theorem path_ne_of_free {pending : Pending}
    (issued : Issued pending.operation pending.request)
    (read : pending.request.isRead = true) {earlier : Request} {write : Write}
    (free : pending.request.waitsFor earlier = false) (writes : earlier.write? = some write) :
    write.path ≠ gameRef pending.operation.room := by
  rcases pending with ⟨call, operation, request⟩
  cases request with
  | getDocument path completion =>
      cases earlier with
      | write =>
          cases writes
          rw [← Issued.reads_gameRef issued]
          exact of_decide_eq_false free
      | putData | getDocument => cases writes
  | write | putData => cases read

theorem Request.write?_of_isRead {request : Request} (read : request.isRead = true) :
    request.write? = none := by
  cases request with
  | getDocument => rfl
  | write | putData => cases read

theorem Pending.applyUnder_of_isRead {pending : Pending} (read : pending.request.isRead = true)
    (accepted : Request → Bool) (store : Firestore) :
    pending.applyUnder accepted store = store := by
  rcases pending with ⟨call, operation, request⟩
  cases request with
  | getDocument => exact ite_self _
  | write | putData => cases read

namespace World.Solo

variable {world : World} {pending : Pending}

theorem outcome_eq {front back : List Pending} (accepted : Request → Bool)
    {killerTarget : Option Player} (taken : world.outstanding.erase pending = front ++ back) :
    (world.settle accepted pending killerTarget).outcomeUnder accepted =
      finishUnder accepted (front ++ back ++ pending.followUps killerTarget world.firestore)
        (pending.applyUnder accepted world.firestore) := by
  rw [World.outcomeUnder, World.settle, taken]

theorem outcome_upload {front back : List Pending} (accepted : Request → Bool)
    (shape : world.outstanding = front ++ pending :: back)
    (taken : world.outstanding.erase pending = front ++ back)
    (upload : pending.request.isUpload = true) (killerTarget : Option Player) :
    (world.settle accepted pending killerTarget).outcomeUnder accepted =
      world.outcomeUnder accepted := by
  rw [outcome_eq accepted taken, World.outcomeUnder, shape]
  rcases pending with ⟨call, operation, request⟩
  cases request with
  | putData path data =>
      simp only [finishUnder, acceptedWrites_append, acceptedWrites_cons, answers_append,
        answers_cons, Pending.followUps, Pending.applyUnder, Pending.applyTo, Request.write?,
        Option.toList_none, ite_self, List.nil_append, List.append_nil]
  | write | getDocument => cases upload

theorem outcome_write {front back : List Pending} {write : Write} (accepted : Request → Bool)
    (shape : world.outstanding = front ++ pending :: back)
    (taken : world.outstanding.erase pending = front ++ back)
    (writes : pending.request = .write write)
    (free : ∀ earlier ∈ front, pending.request.waitsFor earlier.request = false)
    (killerTarget : Option Player) :
    (world.settle accepted pending killerTarget).outcomeUnder accepted =
      world.outcomeUnder accepted := by
  rw [outcome_eq accepted taken, World.outcomeUnder, shape]
  have noneBefore : acceptedWrites accepted front = [] := by
    refine acceptedWrites_eq_nil (fun earlier member => ?_) accepted
    have notWaited := free earlier member
    rw [writes] at notWaited
    rcases earlier with ⟨_, _, request⟩
    cases request with
    | write => cases notWaited
    | putData | getDocument => rfl
  rcases pending with ⟨call, operation, request⟩
  change request = .write write at writes
  subst writes
  simp only [finishUnder, acceptedWrites_append, acceptedWrites_cons, noneBefore,
    answers_append, answers_cons, Pending.followUps, Pending.applyUnder, Pending.applyTo,
    Request.write?, Option.toList_some, List.nil_append, List.append_nil]
  -- a rejected write is neither performed nor waited for
  cases accepted (.write write) <;> rfl

theorem not_isRead_of_other (solo : world.Solo) (member : pending ∈ world.outstanding)
    (read : pending.request.isRead = true) :
    ∀ other ∈ world.outstanding.erase pending, other.request.isRead = false := by
  intro other inside
  have unique := solo.orderly.chain_unique member inside
    (solo.single other (List.mem_of_mem_erase inside) pending member)
    (by simp [Request.isChained, read])
  exact (Bool.or_eq_false_iff.mp unique).1

/-- The read is answered with a document that the writes before it leave alone, and
no write stands behind it. -/
theorem outcome_read (solo : world.Solo) {front back : List Pending}
    (accepted : Request → Bool) (member : pending ∈ world.outstanding)
    (shape : world.outstanding = front ++ pending :: back)
    (taken : world.outstanding.erase pending = front ++ back)
    (read : pending.request.isRead = true)
    (free : ∀ earlier ∈ front, pending.request.waitsFor earlier.request = false)
    (killerTarget : Option Player) :
    (world.settle accepted pending killerTarget).outcomeUnder accepted =
      world.outcomeUnder accepted := by
  have issued := solo.orderly.traced.issued member
  have noneAfter : acceptedWrites accepted back = [] := by
    have ordered := solo.readLast
    rw [shape, List.map_append, List.map_cons, ReadLast, List.pairwise_append,
      List.pairwise_cons] at ordered
    exact acceptedWrites_eq_nil (fun later inside =>
      ordered.2.1.1 _ (List.mem_map_of_mem inside) read) accepted
  have otherReads := solo.not_isRead_of_other member read
  rw [taken] at otherReads
  have settled : (applyAll (acceptedWrites accepted front) world.firestore).lookup
      (gameRef pending.operation.room) =
      world.firestore.lookup (gameRef pending.operation.room) := by
    apply lookup_applyAll_of_ne
    intro write inside
    rcases List.mem_filterMap.mp inside with ⟨earlier, before, writes⟩
    exact path_ne_of_free issued read (free earlier (List.mem_of_mem_filter before)) writes
  have same : pending.followUps none
      (applyAll (acceptedWrites accepted front) world.firestore) =
      pending.followUps killerTarget world.firestore :=
    followUps_congr issued (solo.changes pending member) none killerTarget settled
  have notRead : ∀ other ∈ pending.followUps killerTarget world.firestore,
      other.request.isRead = false := fun other follows =>
    (answered_of_mem_followUps issued follows).2.2.not_isRead
  have noMore (store : Firestore) :
      answers (front ++ back ++ pending.followUps killerTarget world.firestore) store =
        [] := by
    apply answers_eq_nil
    intro other inside
    rcases List.mem_append.mp inside with old | new
    · exact otherReads other old
    · exact notRead other new
  have onlyAnswer (store : Firestore) : answers (front ++ pending :: back) store =
      pending.followUps none store := by
    rw [answers_append, answers_cons,
      answers_eq_nil fun other inside => otherReads other (List.mem_append_left _ inside),
      answers_eq_nil fun other inside => otherReads other (List.mem_append_right _ inside),
      List.nil_append, List.append_nil]
  rw [outcome_eq accepted taken, World.outcomeUnder, shape]
  simp only [finishUnder, noMore, onlyAnswer, acceptedWrites_append, acceptedWrites_cons,
    noneAfter, Request.write?_of_isRead read, Pending.applyUnder_of_isRead read, same,
    Option.toList_none, ite_self, List.append_nil, applyAll_append]
  rfl

/-- Whatever the schedule, the call ends in the same store. -/
theorem outcome_settle (solo : world.Solo) (accepted : Request → Bool)
    (ready : world.Ready pending) (killerTarget : Option Player) :
    (world.settle accepted pending killerTarget).outcomeUnder accepted =
      world.outcomeUnder accepted := by
  rcases solo.split ready with ⟨front, back, shape, taken, free⟩
  cases request : pending.request with
  | write write => exact outcome_write accepted shape taken request free killerTarget
  | putData path data =>
      exact outcome_upload accepted shape taken (by rw [request]; rfl) killerTarget
  | getDocument path completion =>
      exact solo.outcome_read accepted ready.1 shape taken (by rw [request]; rfl) free
        killerTarget

theorem outcome_perform (solo : world.Solo) (ready : world.Ready pending)
    (killerTarget : Option Player) :
    (world.perform pending killerTarget).outcome = world.outcome := by
  rw [← outcomeUnder_all, ← outcomeUnder_all, ← settle_all]
  exact solo.outcome_settle _ ready killerTarget

theorem of_idle (orderly : world.Orderly) (idle : world.outstanding = []) : world.Solo where
  orderly := orderly
  single := by simp [idle]
  changes := by simp [idle]
  readLast := by
    rw [idle]
    exact .nil

theorem issue (idle : world.outstanding = []) {id : CallId} {operation : Operation}
    (changes : operation.change ≠ 0) (next : (world.issue id operation).Orderly) :
    (world.issue id operation).Solo := by
  have queue : (world.issue id operation).outstanding =
      operation.action.requests.map (Pending.mk id operation) := by
    simp [World.issue, idle]
  refine ⟨next, ?_, ?_, ?_⟩
  · intro first member second other
    rw [queue] at member other
    rcases List.mem_map.mp member with ⟨_, _, rfl⟩
    rcases List.mem_map.mp other with ⟨_, _, rfl⟩
    rfl
  · intro pending member
    rw [queue] at member
    rcases List.mem_map.mp member with ⟨_, _, rfl⟩
    exact changes
  · rw [queue, List.map_map]
    simpa [Function.comp_def] using readLast_of_changes changes

theorem perform (solo : world.Solo) (ready : world.Ready pending)
    {killerTarget : Option Player}
    (next : (world.perform pending killerTarget).Orderly) :
    (world.perform pending killerTarget).Solo := by
  have issued := solo.orderly.traced.issued ready.1
  have origin : ∀ other ∈ (world.perform pending killerTarget).outstanding,
      other.call = pending.call ∧ other.operation.change ≠ 0 := by
    intro other member
    rcases mem_outstanding_perform member with old | new
    · exact ⟨solo.single other old pending ready.1, solo.changes other old⟩
    · rcases answered_of_mem_followUps issued new with ⟨call, operation, _⟩
      exact ⟨call, operation ▸ solo.changes pending ready.1⟩
  refine ⟨next, ?_, fun other member => (origin other member).2, ?_⟩
  · intro first member second other
    exact (origin first member).1.trans (origin second other).1.symm
  · rw [World.perform, List.map_append]
    refine List.pairwise_append.mpr ⟨?_, ?_, ?_⟩
    · exact solo.readLast.sublist (List.erase_sublist.map _)
    · exact List.pairwise_map.mpr (pairwise_followUps _ _ _ _)
    · intro earlier member later follows read
      rcases List.mem_map.mp member with ⟨other, inside, rfl⟩
      rcases List.mem_map.mp follows with ⟨follow, made, rfl⟩
      have unique := solo.orderly.chain_unique ready.1 inside
        (solo.single other (List.mem_of_mem_erase inside) pending ready.1)
        (by simp [Request.isChained, isRead_of_mem_followUps made])
      simp [Request.isChained, read] at unique

end World.Solo

/-! ## The picture of a single call -/

def uploadAll (pendings : List Pending) (storage : Storage) : Storage :=
  pendings.foldl (fun storage pending => pending.uploadTo storage) storage

theorem uploadAll_append (first second : List Pending) (storage : Storage) :
    uploadAll (first ++ second) storage = uploadAll second (uploadAll first storage) :=
  List.foldl_append

theorem uploadTo_of_not_isUpload {pending : Pending}
    (noPicture : pending.request.isUpload = false) (storage : Storage) :
    pending.uploadTo storage = storage := by
  unfold Pending.uploadTo
  split
  · rename_i shape
    rw [shape] at noPicture
    cases noPicture
  · rfl

theorem uploadAll_eq_self {pendings : List Pending}
    (noPicture : ∀ pending ∈ pendings, pending.request.isUpload = false)
    (storage : Storage) : uploadAll pendings storage = storage := by
  induction pendings with
  | nil => rfl
  | cons pending pendings induction =>
      rw [uploadAll, List.foldl_cons, uploadTo_of_not_isUpload (noPicture _ List.mem_cons_self)]
      exact induction fun other member => noPicture other (List.mem_cons_of_mem _ member)

def World.gallery (world : World) : Storage := uploadAll world.outstanding world.storage

def World.OnePicture (world : World) : Prop :=
  world.outstanding.countP (fun pending => pending.request.isUpload) ≤ 1

theorem countP_isUpload_addPlayer (deviceID : Option UUID) (room : Int) (player : Player) :
    (addPlayer deviceID room player).requests.countP Request.isUpload ≤ 1 := by
  rw [addPlayer_requests_eq]
  split <;> simp [Request.isUpload, List.countP_cons]

theorem Answered.not_isUpload {operation : Operation} {request : Request}
    (answered : Answered operation request) : request.isUpload = false := by
  cases answered <;> rfl

theorem not_isUpload_of_mem_followUps {pending other : Pending}
    {killerTarget : Option Player} {store : Firestore}
    (issued : Issued pending.operation pending.request)
    (member : other ∈ pending.followUps killerTarget store) :
    other.request.isUpload = false :=
  (answered_of_mem_followUps issued member).2.2.not_isUpload

theorem World.OnePicture.perform {world : World} (one : world.OnePicture) {pending : Pending}
    (issued : Issued pending.operation pending.request) (member : pending ∈ world.outstanding)
    (killerTarget : Option Player) : (world.perform pending killerTarget).OnePicture := by
  have counted := countP_outstanding_perform member killerTarget
    fun pending => pending.request.isUpload
  have noneNew : (pending.followUps killerTarget world.firestore).countP
      (fun pending => pending.request.isUpload) = 0 := by
    rw [List.countP_eq_zero]
    intro other follows uploads
    rw [not_isUpload_of_mem_followUps issued follows] at uploads
    cases uploads
  rw [World.OnePicture] at one ⊢
  omega

theorem uploadUnder_of_not_isUpload {pending : Pending}
    (noPicture : pending.request.isUpload = false) (accepted : Request → Bool)
    (storage : Storage) : pending.uploadUnder accepted storage = storage := by
  rw [Pending.uploadUnder, uploadTo_of_not_isUpload noPicture, ite_self]

def World.galleryUnder (accepted : Request → Bool) (world : World) : Storage :=
  uploadAll (world.outstanding.filter fun pending => accepted pending.request) world.storage

theorem galleryUnder_all (world : World) : world.galleryUnder (fun _ => true) = world.gallery := by
  rw [World.galleryUnder, List.filter_true]
  rfl

theorem uploadAll_filter_cons (accepted : Request → Bool) (pending : Pending)
    (pendings : List Pending) (storage : Storage) :
    uploadAll ((pending :: pendings).filter fun other => accepted other.request) storage =
      uploadAll (pendings.filter fun other => accepted other.request)
        (pending.uploadUnder accepted storage) := by
  cases given : accepted pending.request <;> simp [uploadAll, Pending.uploadUnder, given]

theorem World.OnePicture.gallery_settle {world : World} (one : world.OnePicture)
    {pending : Pending} (accepted : Request → Bool)
    (issued : Issued pending.operation pending.request) (member : pending ∈ world.outstanding)
    (killerTarget : Option Player) :
    (world.settle accepted pending killerTarget).galleryUnder accepted =
      world.galleryUnder accepted := by
  rcases List.exists_erase_eq member with ⟨front, back, _, shape, taken⟩
  have keeps : ∀ pendings : List Pending, (∀ other ∈ pendings, other.request.isUpload = false) →
      ∀ storage, uploadAll (pendings.filter fun other => accepted other.request) storage =
        storage := fun pendings noPicture storage =>
    uploadAll_eq_self (fun other inside => noPicture other (List.mem_of_mem_filter inside)) storage
  have noneNew : ∀ other ∈ pending.followUps killerTarget world.firestore,
      other.request.isUpload = false := fun other follows =>
    not_isUpload_of_mem_followUps issued follows
  have settled : (world.settle accepted pending killerTarget).galleryUnder accepted =
      uploadAll (back.filter fun other => accepted other.request)
        (uploadAll (front.filter fun other => accepted other.request)
          (pending.uploadUnder accepted world.storage)) := by
    rw [World.galleryUnder, World.settle, taken, List.filter_append, uploadAll_append,
      keeps _ noneNew, List.filter_append, uploadAll_append]
  have found : world.galleryUnder accepted =
      uploadAll (back.filter fun other => accepted other.request)
        (pending.uploadUnder accepted
          (uploadAll (front.filter fun other => accepted other.request) world.storage)) := by
    rw [World.galleryUnder, shape, List.filter_append, uploadAll_append, uploadAll_filter_cons]
  rw [settled, found]
  cases picture : pending.request.isUpload with
  | false => simp only [uploadUnder_of_not_isUpload picture]
  | true =>
      -- then no other picture is under way
      have noneLeft : ∀ other ∈ front, other.request.isUpload = false := by
        intro other inside
        by_contra uploads
        have positive : 0 < front.countP fun pending => pending.request.isUpload :=
          List.countP_pos_iff.mpr ⟨other, inside, by simpa using uploads⟩
        rw [World.OnePicture, shape, List.countP_append, List.countP_cons,
          if_pos picture] at one
        omega
      simp only [keeps _ noneLeft]

/-! ## Letting a call come to its end -/

def Event.performs : Event → Bool
  | .perform _ _ => true
  | .call _ _ => false

theorem World.Solo.settle {world : World} (solo : world.Solo) {pending : Pending}
    (ready : world.Ready pending) (accepted : Request → Bool)
    (killerTarget : Option Player) : (world.settle accepted pending killerTarget).Solo := by
  have stepped : world.step (.perform pending killerTarget) =
      some (world.perform pending killerTarget) := step_perform.mpr ⟨ready, rfl⟩
  have next := solo.perform ready (solo.orderly.step stepped)
  exact ⟨⟨next.orderly.traced, next.orderly.single, next.orderly.last, next.orderly.settled⟩,
    next.single, next.changes, next.readLast⟩

/-- Whatever the schedule and whatever is rejected, a single call ends in the stores it was
heading for. -/
theorem World.Solo.run_outcomeUnder {world final : World} {events : List Event}
    {accepted : Request → Bool} (solo : world.Solo) (one : world.OnePicture)
    (performed : run (World.stepUnder accepted) world events = some final)
    (continues : ∀ event ∈ events, event.performs = true) (done : final.outstanding = []) :
    final.firestore = world.outcomeUnder accepted ∧
      final.storage = world.galleryUnder accepted := by
  induction events generalizing world with
  | nil =>
      have same : world = final := Option.some.inj performed
      subst same
      rw [World.outcomeUnder, World.galleryUnder, done]
      exact ⟨rfl, rfl⟩
  | cons event events induction =>
      rcases run_cons_eq_some.mp performed with ⟨next, stepped, rest⟩
      have others : ∀ event ∈ events, event.performs = true := fun event member =>
        continues event (List.mem_cons_of_mem _ member)
      cases event with
      | call id operation => cases continues _ List.mem_cons_self
      | perform pending killerTarget =>
          simp only [World.stepUnder, Option.ite_none_right_eq_some, Option.some.injEq]
            at stepped
          rcases stepped with ⟨ready, rfl⟩
          have issued := solo.orderly.traced.issued ready.1
          have onePicture : (world.settle accepted pending killerTarget).OnePicture :=
            one.perform issued ready.1 killerTarget
          have ended := induction (solo.settle ready accepted killerTarget) onePicture rest
            others
          rw [solo.outcome_settle accepted ready,
            one.gallery_settle accepted issued ready.1] at ended
          exact ended

theorem World.Solo.run_outcome {world final : World} {events : List Event}
    (solo : world.Solo) (one : world.OnePicture)
    (performed : run World.step world events = some final)
    (continues : ∀ event ∈ events, event.performs = true) (done : final.outstanding = []) :
    final.firestore = world.outcome ∧ final.storage = world.gallery := by
  rw [← stepUnder_all] at performed
  rw [← outcomeUnder_all, ← galleryUnder_all]
  exact solo.run_outcomeUnder one performed continues done

theorem World.Orderly.run_call {world final : World} {call : CallId} {operation : Operation}
    {events : List Event} (orderly : world.Orderly) (idle : world.outstanding = [])
    (changes : operation.change ≠ 0) (one : (world.issue call operation).OnePicture)
    (performed : run World.step world (.call call operation :: events) = some final)
    (continues : ∀ event ∈ events, event.performs = true) (done : final.outstanding = []) :
    final.firestore = (world.issue call operation).outcome ∧
      final.storage = (world.issue call operation).gallery := by
  rcases run_cons_eq_some.mp performed with ⟨next, stepped, rest⟩
  have ordered := orderly.step stepped
  rcases step_call.mp stepped with ⟨_, rfl⟩
  exact (Solo.issue idle changes ordered).run_outcome one rest continues done

end AssassinGame
