import AssassinGame.Rooms.Opening

/-! # How far each call has come

Every call reads at most one document and answers the read with at most one
request, so a call writes a counter at most once. The write comes last among the
call's writes: when it is performed, only a picture can still be under way.
-/

namespace AssassinGame

open AssassinGame.Action Transition

/-! ## The requests of one call -/

theorem countP_isRead_addPlayer (deviceID : Option UUID) (room : Int) (player : Player) :
    (addPlayer deviceID room player).requests.countP Request.isRead ≤ 1 := by
  rw [addPlayer_requests_eq]
  split <;> simp [Request.isRead]

theorem countP_isRead_le_one (operation : Operation) :
    operation.action.requests.countP Request.isRead ≤ 1 := by
  cases operation with
  | addGame game => simp [Operation.action, addGame_requests, Request.isRead]
  | addPlayer deviceID roomNumber player => exact countP_isRead_addPlayer _ _ _
  | removePlayer roomNumber player =>
      cases named : document? (gameRef roomNumber ++ ["players"]) player.name <;>
        simp [Operation.action, removePlayer, gameRefOf_eq, bind_requests, Action.document,
          named, Request.isRead]
  | addKillshot roomNumber killer target img loc =>
      cases target <;> cases png : img.pngData <;>
        simp [Operation.action, addKillshot, bind_requests, png, gameRefOf_eq,
          Request.isRead]
  | uploadKillshotPic screen image =>
      cases png : image.pngData <;>
        simp [Operation.action, TabBarVC.uploadKillshotPic, bind_requests, png,
          Request.isRead]
  | uploadKillshotName screen name =>
      simp [Operation.action, TabBarVC.uploadKillshotName_requests, Request.isRead]
  | imagePickerController screen img =>
      cases png : img.pngData with
      | none =>
          simp [Operation.action, TabBarVC.imagePickerController, TabBarVC.uploadKillshotPic,
            bind_requests, bind_result, png]
      | some data =>
          simp [Operation.action, TabBarVC.imagePickerController_requests png,
            Request.isRead]
  | createRoom screen roomNumber date deviceID =>
      rw [Operation.action, createNumberedRoom_requests]
      split
      · simpa [Request.isRead] using countP_isRead_addPlayer _ _ _
      · simp

theorem length_requests_changePlayerCount (change : Int) (path : ResourcePath)
    (document : Option Document) :
    (changePlayerCount change path document).requests.length ≤ 1 := by
  cases document with
  | none => simp [changePlayerCount]
  | some data =>
      cases counted : data.int? "playerCount" <;>
        simp [changePlayerCount, bind_requests, counted]

theorem length_requests_addKillshot_completion (path : ResourcePath) (killer : Player)
    (target : Option Player) (document : Option Document) :
    (addKillshot.completion path killer target document).requests.length ≤ 1 := by
  cases document with
  | none => simp [addKillshot.completion]
  | some data =>
      simp only [addKillshot.completion, bind_requests, unwrap_requests, unwrap_result,
        List.nil_append]
      split
      · split
        · simp only [Action.document, unwrap_requests, unwrap_result, List.nil_append]
          split <;> simp
        · simp
      · simp

theorem length_followUps (pending : Pending) (killerTarget : Option Player)
    (store : Firestore) :
    (pending.followUps killerTarget store).length ≤
      if pending.request.isRead then 1 else 0 := by
  rcases pending with ⟨id, operation, request⟩
  cases request with
  | getDocument path completion =>
      simp only [Pending.followUps, List.length_map, Request.isRead, if_true]
      cases completion with
      | addPlayer | removePlayer => exact length_requests_changePlayerCount _ _ _
      | addKillshot => exact length_requests_addKillshot_completion _ _ _ _
  | write | putData => simp [Pending.followUps]

theorem followUps_eq_nil {pending : Pending} (notRead : pending.request.isRead = false)
    (killerTarget : Option Player) (store : Firestore) :
    pending.followUps killerTarget store = [] := by
  have short := length_followUps pending killerTarget store
  rw [notRead] at short
  exact List.eq_nil_of_length_eq_zero (Nat.le_zero.mp short)

theorem pairwise_followUps (relation : Pending → Pending → Prop) (pending : Pending)
    (killerTarget : Option Player) (store : Firestore) :
    (pending.followUps killerTarget store).Pairwise relation := by
  have short := length_followUps pending killerTarget store
  generalize pending.followUps killerTarget store = follows at short
  cases follows with
  | nil => exact .nil
  | cons first rest =>
      cases rest with
      | nil => exact List.pairwise_singleton _ _
      | cons =>
          simp only [List.length_cons] at short
          split at short <;> omega

theorem Request.not_isUpdate_of_isRead (request : Request) (read : request.isRead = true) :
    request.isUpdate = false := by
  cases request with
  | getDocument => rfl
  | write | putData => cases read

theorem isRead_of_mem_followUps {pending other : Pending} {killerTarget : Option Player}
    {store : Firestore} (member : other ∈ pending.followUps killerTarget store) :
    pending.request.isRead = true := by
  rcases pending with ⟨id, operation, request⟩
  cases request with
  | getDocument => rfl
  | write | putData => cases member

/-! ## One chain of read and update for each call -/

/-- The request belongs to the call's read and update of a document. -/
def Request.isChained (request : Request) : Bool := request.isRead || request.isUpdate

theorem Request.isUpload_of_free {update other : Request} (isUpdate : update.isUpdate = true)
    (free : update.waitsFor other = false) (notChained : other.isChained = false) :
    other.isUpload = true := by
  cases other with
  | write write =>
      cases update with
      | write => cases free
      | getDocument | putData => cases isUpdate
  | getDocument => cases notChained
  | putData => rfl

namespace World

/-- The chained requests of a call: those under way and the updates done. -/
def chained (world : World) (id : CallId) : Nat :=
  world.outstanding.countP (fun pending => pending.call = id && pending.request.isChained) +
    world.performed.countP (fun pending => pending.call = id && pending.request.isUpdate)

theorem countP_outstanding_perform {world : World} {pending : Pending}
    (member : pending ∈ world.outstanding) (killerTarget : Option Player)
    (counts : Pending → Bool) :
    (world.perform pending killerTarget).outstanding.countP counts +
        (if counts pending then 1 else 0) =
      world.outstanding.countP counts +
        (pending.followUps killerTarget world.firestore).countP counts := by
  have taken := (List.perm_cons_erase member).countP_eq counts
  rw [List.countP_cons] at taken
  simp only [perform, List.countP_append]
  omega

/-- A call has at most one request of its chain at a time, its update is the last
of its requests, and after the update only a picture is left. -/
structure Orderly (world : World) : Prop where
  traced : world.Traced
  single : ∀ id, world.chained id ≤ 1
  last : world.outstanding.Pairwise fun earlier later =>
    earlier.request.isUpdate = true → later.call ≠ earlier.call
  settled : ∀ update ∈ world.performed, update.request.isUpdate = true →
    ∀ pending ∈ world.outstanding, pending.call = update.call →
      pending.request.isUpload = true

/-- An element that stays after another has been taken out of a list stood before
it, or is related to it. -/
theorem mem_takeWhile_or_related {pendings : List Pending}
    {relation : Pending → Pending → Prop} (pairwise : pendings.Pairwise relation)
    {taken other : Pending} (member : taken ∈ pendings)
    (left : other ∈ pendings.erase taken) :
    other ∈ pendings.takeWhile (· ≠ taken) ∨ relation taken other := by
  induction pendings with
  | nil => cases member
  | cons first rest induction =>
      rcases List.pairwise_cons.mp pairwise with ⟨related, pairwise⟩
      by_cases same : first = taken
      · subst same
        rw [List.erase_cons_head] at left
        exact .inr (related other left)
      · rw [List.erase_cons_tail (by simpa using same)] at left
        rw [List.takeWhile_cons_of_pos (by simpa using same)]
        have inside : taken ∈ rest := by
          rcases List.mem_cons.mp member with rfl | inside
          · exact absurd rfl same
          · exact inside
        rcases List.mem_cons.mp left with rfl | left
        · exact .inl List.mem_cons_self
        · rcases induction pairwise inside left with before | related
          · exact .inl (List.mem_cons_of_mem _ before)
          · exact .inr related

namespace Orderly

variable {world : World}

theorem call_mem (orderly : world.Orderly) {pending : Pending}
    (member : pending ∈ world.outstanding ∨ pending ∈ world.performed) :
    pending.call ∈ world.calls.map Prod.fst :=
  List.mem_map_of_mem (f := Prod.fst) (orderly.traced pending member).1

theorem chain_unique (orderly : world.Orderly) {first second : Pending}
    (member : first ∈ world.outstanding) (other : second ∈ world.outstanding.erase first)
    (same : second.call = first.call) (chained : first.request.isChained = true) :
    second.request.isChained = false := by
  by_contra both
  have single := orderly.single first.call
  have taken := (List.perm_cons_erase member).countP_eq
    fun pending => pending.call = first.call && pending.request.isChained
  have positive : 0 < (world.outstanding.erase first).countP
      fun pending => pending.call = first.call && pending.request.isChained :=
    List.countP_pos_iff.mpr ⟨second, other, by simpa [same] using both⟩
  rw [List.countP_cons, if_pos (by simpa using chained)] at taken
  simp only [World.chained] at single
  omega

theorem chain_done (orderly : world.Orderly) {update pending : Pending}
    (done : update ∈ world.performed) (isUpdate : update.request.isUpdate = true)
    (member : pending ∈ world.outstanding) (same : pending.call = update.call) :
    pending.request.isChained = false := by
  by_contra both
  have single := orderly.single update.call
  have positive : 0 < world.outstanding.countP
      fun pending => pending.call = update.call && pending.request.isChained :=
    List.countP_pos_iff.mpr ⟨pending, member, by simpa [same] using both⟩
  have counted : 0 < world.performed.countP
      fun pending => pending.call = update.call && pending.request.isUpdate :=
    List.countP_pos_iff.mpr ⟨update, done, by simpa using isUpdate⟩
  simp only [World.chained] at single
  omega

theorem start (firestore : Firestore) (storage : Storage) :
    (World.start firestore storage).Orderly where
  traced := traced_start firestore storage
  single _ := Nat.zero_le 1
  last := .nil
  settled _ member := by cases member

theorem issue (orderly : world.Orderly) {id : CallId} {operation : Operation}
    (fresh : id ∉ world.calls.map Prod.fst)
    (traced : (world.issue id operation).Traced) : (world.issue id operation).Orderly := by
  have notUpdate : ∀ request ∈ operation.action.requests, request.isUpdate = false :=
    fun request member => not_isUpdate_of_asked (asked_of_mem_requests member)
  -- no request there has been is of the new call
  have others : ∀ pending, pending ∈ world.outstanding ∨ pending ∈ world.performed →
      pending.call ≠ id := fun pending member equal =>
    fresh (equal ▸ orderly.call_mem member)
  refine ⟨traced, fun other => ?_, ?_, ?_⟩
  · by_cases own : other = id
    · subst own
      have noneLeft : world.outstanding.countP
          (fun pending => pending.call = other && pending.request.isChained) = 0 := by
        rw [List.countP_eq_zero]
        intro pending member
        simp [others pending (.inl member)]
      have noneDone : world.performed.countP
          (fun pending => pending.call = other && pending.request.isUpdate) = 0 := by
        rw [List.countP_eq_zero]
        intro pending member
        simp [others pending (.inr member)]
      have asked : (operation.action.requests.map (Pending.mk other operation)).countP
          (fun pending => pending.call = other && pending.request.isChained) =
          operation.action.requests.countP Request.isRead := by
        rw [List.countP_map]
        apply List.countP_congr
        intro request member
        simp [Request.isChained, notUpdate request member]
      simp only [chained, World.issue, List.countP_append, noneLeft, noneDone, asked]
      simpa using countP_isRead_le_one operation
    · have noneNew : (operation.action.requests.map (Pending.mk id operation)).countP
          (fun pending => pending.call = other && pending.request.isChained) = 0 := by
        simp [List.countP_eq_zero, Ne.symm own]
      have single := orderly.single other
      simp only [chained, World.issue, List.countP_append, noneNew] at single ⊢
      exact single
  · refine List.pairwise_append.mpr ⟨orderly.last, ?_, ?_⟩
    · rw [List.pairwise_map]
      apply List.pairwise_of_forall_mem_list
      intro earlier member later _ isUpdate
      simp [notUpdate earlier member] at isUpdate
    · intro earlier member later new isUpdate same
      rcases List.mem_map.mp new with ⟨request, _, rfl⟩
      exact others earlier (.inl member) same.symm
  · intro update done isUpdate pending member same
    rcases mem_outstanding_issue.mp member with old | ⟨called, _, _⟩
    · exact orderly.settled update done isUpdate pending old same
    · exact absurd (same.symm.trans called) (others update (.inr done))

theorem perform (orderly : world.Orderly) {pending : Pending}
    {killerTarget : Option Player} (ready : world.Ready pending)
    (traced : (world.perform pending killerTarget).Traced) :
    (world.perform pending killerTarget).Orderly := by
  have issued := orderly.traced.issued ready.1
  have sameCall : ∀ other ∈ pending.followUps killerTarget world.firestore,
      other.call = pending.call := fun other member =>
    (answered_of_mem_followUps issued member).1
  have short := length_followUps pending killerTarget world.firestore
  refine ⟨traced, fun id => ?_, ?_, ?_⟩
  · have single := orderly.single id
    have moved := countP_outstanding_perform ready.1 killerTarget
      fun other => other.call = id && other.request.isChained
    simp only [chained] at single ⊢
    rw [show (world.perform pending killerTarget).performed = pending :: world.performed
      from rfl, List.countP_cons]
    by_cases own : pending.call = id
    · have few := (List.countP_le_length (l := pending.followUps killerTarget world.firestore)
        (p := fun other => other.call = id && other.request.isChained)).trans short
      have apart := pending.request.not_isUpdate_of_isRead
      simp only [own, Request.isChained, decide_true, Bool.true_and] at moved few single ⊢
      cases read : pending.request.isRead <;> cases update : pending.request.isUpdate <;>
        simp_all <;> omega
    · have others : (pending.followUps killerTarget world.firestore).countP
          (fun other => other.call = id && other.request.isChained) = 0 := by
        rw [List.countP_eq_zero]
        intro other member
        simp [sameCall other member, own]
      simp only [own, decide_false, Bool.false_and, Bool.false_eq_true, if_false,
        others] at moved ⊢
      omega
  · refine List.pairwise_append.mpr ⟨orderly.last.sublist List.erase_sublist, ?_, ?_⟩
    · exact pairwise_followUps _ _ _ _
    · intro earlier member later new isUpdate same
      have chained : pending.request.isChained = true := by
        simp [Request.isChained, isRead_of_mem_followUps new]
      have unique := orderly.chain_unique ready.1 member
        (same.symm.trans (sameCall later new)) chained
      simp [Request.isChained, isUpdate] at unique
  · intro update done isUpdate other present same
    rcases List.mem_cons.mp done with rfl | old
    · rcases List.mem_append.mp present with left | new
      · rcases mem_takeWhile_or_related orderly.last ready.1 left with before | after
        · have unique := orderly.chain_unique ready.1 left same
            (by simp [Request.isChained, isUpdate])
          exact Request.isUpload_of_free isUpdate (ready.2 other before same) unique
        · exact absurd same (after isUpdate)
      · have apart := update.request.not_isUpdate_of_isRead (isRead_of_mem_followUps new)
        rw [isUpdate] at apart
        cases apart
    · rcases List.mem_append.mp present with left | new
      · exact orderly.settled update old isUpdate other (List.mem_of_mem_erase left) same
      · have finished := orderly.chain_done old isUpdate ready.1
          ((sameCall other new).symm.trans same)
        simp [Request.isChained, isRead_of_mem_followUps new] at finished

theorem step (orderly : world.Orderly) {next : World} {event : Event}
    (stepped : world.step event = some next) : next.Orderly := by
  have traced := orderly.traced.step stepped
  rcases step_cases stepped with
    ⟨id, operation, rfl, fresh, rfl⟩ | ⟨pending, killerTarget, rfl, ready, rfl⟩
  · exact orderly.issue fresh traced
  · exact orderly.perform ready traced

end Orderly

theorem orderly_openedBy {operation : Operation} {game : Game}
    (opened : operation.opened = some game) (id : CallId) (firestore : Firestore)
    (storage : Storage) : (World.openedBy id operation game firestore storage).Orderly :=
  run_keeps Orderly (fun orderly stepped => orderly.step stepped)
    (Orderly.start firestore storage) (run_openedBy opened id firestore storage)

end World

end AssassinGame
