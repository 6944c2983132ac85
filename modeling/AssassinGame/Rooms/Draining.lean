import AssassinGame.Rooms.Solo

/-! # Every call comes to its end

Requests wait only for earlier requests of their own call, so what a call can do next is
told by its own queue, and the first request of a queue can always be performed. A read is
followed up once and a follow-up is no read, so a call is done after six requests at most.
-/

namespace AssassinGame

open AssassinGame.Action Transition

/-! ## The queue of one call -/

theorem Pending.unblocked_iff_filter {pending : Pending} {queue : List Pending} :
    pending.Unblocked queue ↔
      pending.Unblocked (queue.filter (·.call = pending.call)) := by
  have same : (fun other : Pending =>
      !decide (other.call = pending.call) || decide (other ≠ pending)) =
      fun other => decide (other ≠ pending) := by
    funext other
    by_cases equal : other = pending
    · simp [equal]
    · simp [equal]
  simp only [Pending.Unblocked, List.takeWhile_filter, same, List.mem_filter,
    decide_eq_true_eq]
  constructor
  · intro free earlier both
    exact free earlier both.1
  · intro free earlier member own
    exact free earlier ⟨member, own⟩ own

theorem call_of_mem_followUps {pending other : Pending} {killerTarget : Option Player}
    {store : Firestore} (member : other ∈ pending.followUps killerTarget store) :
    other.call = pending.call := by
  rcases pending with ⟨id, operation, request⟩
  cases request with
  | getDocument path completion =>
      rcases List.mem_map.mp member with ⟨follow, _, rfl⟩
      rfl
  | write | putData => cases member

namespace World

def queue (world : World) (id : CallId) : List Pending :=
  world.outstanding.filter (·.call = id)

variable {world : World} {pending : Pending} {killerTarget : Option Player}

theorem mem_queue {id : CallId} :
    pending ∈ world.queue id ↔ pending ∈ world.outstanding ∧ pending.call = id := by
  simp [queue]

/-- Whether a request can be performed is told by the queue of its call. -/
theorem ready_iff_queue :
    world.Ready pending ↔
      pending ∈ world.queue pending.call ∧ pending.Unblocked (world.queue pending.call) := by
  rw [Ready, Pending.unblocked_iff_filter, mem_queue]
  simp [queue]

theorem ready_head {id : CallId} {rest : List Pending}
    (first : world.queue id = pending :: rest) : world.Ready pending := by
  have member : pending ∈ world.queue id := first ▸ List.mem_cons_self
  have own := (mem_queue.mp member).2
  rw [ready_iff_queue, own, first]
  exact ⟨List.mem_cons_self, by simp [Pending.Unblocked]⟩

theorem queue_issue_own (world : World) (id : CallId) (operation : Operation) :
    (world.issue id operation).queue id =
      world.queue id ++ operation.action.requests.map (Pending.mk id operation) := by
  simp [queue, issue, List.filter_append]

theorem queue_issue_other {id other : CallId} (different : other ≠ id) (world : World)
    (operation : Operation) :
    (world.issue id operation).queue other = world.queue other := by
  simp [queue, issue, List.filter_append, Ne.symm different]

theorem queue_perform_own (world : World) (pending : Pending)
    (killerTarget : Option Player) :
    (world.perform pending killerTarget).queue pending.call =
      (world.queue pending.call).erase pending ++
        pending.followUps killerTarget world.firestore := by
  have all : (pending.followUps killerTarget world.firestore).filter
      (·.call = pending.call) = pending.followUps killerTarget world.firestore := by
    rw [List.filter_eq_self]
    intro other member
    simpa using call_of_mem_followUps member
  simp only [queue, perform, List.filter_append, List.erase_filter, all]

theorem queue_perform_other {id : CallId} (different : id ≠ pending.call) (world : World)
    (killerTarget : Option Player) :
    (world.perform pending killerTarget).queue id = world.queue id := by
  have none' : (pending.followUps killerTarget world.firestore).filter (·.call = id) = [] := by
    rw [List.filter_eq_nil_iff]
    intro other member
    simp [call_of_mem_followUps member, Ne.symm different]
  have absent : pending ∉ world.outstanding.filter (·.call = id) := by
    simp [Ne.symm different]
  simp only [queue, perform, List.filter_append, none', List.append_nil]
  rw [← List.erase_filter, List.erase_of_not_mem absent]

theorem exists_ready (busy : world.outstanding ≠ []) : ∃ pending, world.Ready pending := by
  rcases List.exists_mem_of_ne_nil _ busy with ⟨pending, member⟩
  cases shape : world.queue pending.call with
  | nil => exact absurd (mem_queue.mpr ⟨member, rfl⟩) (by simp [shape])
  | cons first rest => exact ⟨first, ready_head shape⟩

/-! ## What is left to do -/

end World

/-- The requests that a request stands for: a read also stands for its follow-up. -/
def Pending.share (pending : Pending) : Nat := if pending.request.isRead then 2 else 1

theorem share_followUps {pending : Pending}
    (issued : Issued pending.operation pending.request) (killerTarget : Option Player)
    (store : Firestore) :
    ((pending.followUps killerTarget store).map Pending.share).sum + 1 ≤ pending.share := by
  have short := length_followUps pending killerTarget store
  have single : ∀ other ∈ pending.followUps killerTarget store, other.share = 1 := by
    intro other member
    have notRead := (answered_of_mem_followUps issued member).2.2.not_isRead
    simp [Pending.share, notRead]
  rw [List.map_congr_left single, List.map_const', List.sum_replicate_nat, Pending.share]
  split at short <;> simp_all

theorem length_requests_addPlayer (deviceID : Option UUID) (room : Int) (player : Player) :
    (addPlayer deviceID room player).requests.length ≤ 4 := by
  rw [addPlayer_requests_eq]
  split <;> simp

theorem length_requests_le_five (operation : Operation) :
    operation.action.requests.length ≤ 5 := by
  cases operation with
  | addGame game => simp [Operation.action, addGame_requests]
  | addPlayer deviceID roomNumber player =>
      exact (length_requests_addPlayer _ _ _).trans (by omega)
  | removePlayer roomNumber player =>
      cases named : document? (players roomNumber) player.name with
      | none => simp [Operation.action, removePlayer_requests_of_unnamed named]
      | some playerRef => simp [Operation.action, removePlayer_requests named]
  | addKillshot roomNumber killer target img loc =>
      cases target <;> cases png : img.pngData <;>
        simp [Operation.action, addKillshot, bind_requests, png, gameRefOf_eq]
  | uploadKillshotPic screen image =>
      cases png : image.pngData <;>
        simp [Operation.action, TabBarVC.uploadKillshotPic, bind_requests, png]
  | uploadKillshotName screen name =>
      simp [Operation.action, TabBarVC.uploadKillshotName_requests]
  | imagePickerController screen img =>
      cases png : img.pngData with
      | none =>
          simp [Operation.action, TabBarVC.imagePickerController, TabBarVC.uploadKillshotPic,
            bind_requests, bind_result, png]
      | some data => simp [Operation.action, TabBarVC.imagePickerController_requests png]
  | createRoom screen roomNumber date deviceID =>
      rw [Operation.action, createNumberedRoom_requests]
      split
      · exact Nat.succ_le_succ (length_requests_addPlayer _ _ _)
      · simp

theorem share_requests_le_six (id : CallId) (operation : Operation) :
    ((operation.action.requests.map (Pending.mk id operation)).map Pending.share).sum ≤ 6 := by
  have shares : ∀ requests : List Request,
      ((requests.map (Pending.mk id operation)).map Pending.share).sum =
        requests.length + requests.countP Request.isRead := by
    intro requests
    induction requests with
    | nil => rfl
    | cons request requests induction =>
        simp only [List.map_cons, List.sum_cons, induction, List.length_cons,
          List.countP_cons, Pending.share]
        split <;> omega
  rw [shares]
  have few := length_requests_le_five operation
  have reads := countP_isRead_le_one operation
  omega

namespace World

/-- The requests still to be performed, those not yet issued included. -/
def work (world : World) : Nat := (world.outstanding.map Pending.share).sum

theorem work_perform {world : World} {pending : Pending}
    (issued : Issued pending.operation pending.request)
    (member : pending ∈ world.outstanding) (killerTarget : Option Player) :
    (world.perform pending killerTarget).work + 1 ≤ world.work := by
  have taken := ((List.perm_cons_erase member).map Pending.share).sum_nat
  have follows := share_followUps issued killerTarget world.firestore
  simp only [List.map_cons, List.sum_cons] at taken
  simp only [work, perform, List.map_append, List.sum_append_nat]
  omega

/-- What has been done and what is left are bounded by the calls made. -/
structure Paced (world : World) : Prop where
  traced : world.Traced
  bounded : world.performed.length + world.work ≤ 6 * world.calls.length

theorem Paced.start (firestore : Firestore) (storage : Storage) :
    (World.start firestore storage).Paced where
  traced := traced_start firestore storage
  bounded := Nat.le_refl 0

theorem Paced.step {world next : World} {event : Event} (paced : world.Paced)
    (stepped : world.step event = some next) : next.Paced := by
  refine ⟨paced.traced.step stepped, ?_⟩
  have before := paced.bounded
  rcases step_cases stepped with
    ⟨id, operation, rfl, _, rfl⟩ | ⟨pending, killerTarget, rfl, ready, rfl⟩
  · have added := share_requests_le_six id operation
    simp only [work, issue, List.map_append, List.sum_append_nat, List.length_cons] at before ⊢
    omega
  · have less := work_perform (paced.traced.issued ready.1) ready.1 killerTarget
    have counted : (world.perform pending killerTarget).performed.length =
        world.performed.length + 1 := rfl
    have same : (world.perform pending killerTarget).calls = world.calls := rfl
    rw [counted, same]
    omega

theorem length_of_performs {world final : World} {events : List Event}
    (traced : world.Traced) (continues : ∀ event ∈ events, event.performs = true)
    (performed : run World.step world events = some final) :
    events.length + final.work ≤ world.work := by
  induction events generalizing world with
  | nil =>
      cases performed
      exact Nat.le_of_eq (Nat.zero_add _)
  | cons event events induction =>
      rcases run_cons_eq_some.mp performed with ⟨next, stepped, rest⟩
      have left := induction (traced.step stepped)
        (fun event member => continues event (List.mem_cons_of_mem _ member)) rest
      rcases step_cases stepped with
        ⟨id, operation, rfl, _, rfl⟩ | ⟨pending, killerTarget, rfl, ready, rfl⟩
      · cases continues _ List.mem_cons_self
      · have less := work_perform (traced.issued ready.1) ready.1 killerTarget
        rw [List.length_cons]
        omega

theorem exists_drained {world : World} (traced : world.Traced)
    (killerTarget : Option Player) :
    ∃ events final, (∀ event ∈ events, event.performs = true) ∧
      run World.step world events = some final ∧ final.outstanding = [] := by
  generalize bound : world.work = work
  induction work using Nat.strong_induction_on generalizing world with
  | _ work induction =>
      by_cases idle : world.outstanding = []
      · exact ⟨[], world, by simp, rfl, idle⟩
      · rcases exists_ready idle with ⟨pending, ready⟩
        have stepped : world.step (.perform pending killerTarget) =
            some (world.perform pending killerTarget) := step_perform.mpr ⟨ready, rfl⟩
        have less := work_perform (traced.issued ready.1) ready.1 killerTarget
        rcases induction _ (by omega) (traced.step stepped) rfl with
          ⟨events, final, continues, performed, done⟩
        refine ⟨.perform pending killerTarget :: events, final, ?_, ?_, done⟩
        · intro event member
          rcases List.mem_cons.mp member with rfl | member
          · rfl
          · exact continues event member
        · exact run_cons_eq_some.mpr ⟨_, stepped, performed⟩

/-! ## What a run records -/

/-- The call or the request of an event, once a run has got to it, is among those of its
end. -/
def Recorded (final : World) : Event → Prop
  | .call id operation => (id, operation) ∈ final.calls
  | .perform pending _ => pending ∈ final.performed

theorem recorded_of_run {final : World} {events : List Event}
    (performed : run World.step world events = some final) :
    (∀ call ∈ world.calls, call ∈ final.calls) ∧
      (∀ pending ∈ world.performed, pending ∈ final.performed) ∧
      ∀ event ∈ events, Recorded final event := by
  induction events generalizing world with
  | nil =>
      cases performed
      exact ⟨fun _ => id, fun _ => id, by simp⟩
  | cons event events induction =>
      rcases run_cons_eq_some.mp performed with ⟨next, stepped, rest⟩
      rcases induction rest with ⟨calls, done, recorded⟩
      rcases step_cases stepped with
        ⟨id, operation, rfl, _, rfl⟩ | ⟨pending, killerTarget, rfl, _, rfl⟩
      · refine ⟨fun call member => calls call (List.mem_cons_of_mem _ member), done, ?_⟩
        exact List.forall_mem_cons.mpr ⟨calls _ List.mem_cons_self, recorded⟩
      · refine ⟨calls, fun other member => done other (List.mem_cons_of_mem _ member), ?_⟩
        exact List.forall_mem_cons.mpr ⟨done _ List.mem_cons_self, recorded⟩

theorem calls_of_performs {final : World} {events : List Event}
    (performs : ∀ event ∈ events, event.performs = true)
    (performed : run World.step world events = some final) : final.calls = world.calls := by
  induction events generalizing world with
  | nil =>
      cases performed
      rfl
  | cons event events induction =>
      rcases run_cons_eq_some.mp performed with ⟨next, stepped, rest⟩
      rcases List.forall_mem_cons.mp performs with ⟨first, others⟩
      rcases step_cases stepped with
        ⟨id, operation, rfl, _, rfl⟩ | ⟨pending, killerTarget, rfl, _, rfl⟩
      · cases first
      · exact (@induction (world.perform pending killerTarget) others rest).trans rfl

end World

/-- No call is ever stuck. In every reachable state something can be performed unless nothing
is under way; whichever requests are performed, they come to an end within the work that is
left; and what has been done and what is left is at most six requests for each call made. -/
theorem calls_come_to_an_end {firestore : Firestore} {storage : Storage}
    {events : List Event} {world : World}
    (performed : run World.step (World.start firestore storage) events = some world)
    (killerTarget : Option Player) :
    (world.outstanding ≠ [] →
      ∃ pending next, world.step (.perform pending killerTarget) = some next) ∧
    world.performed.length + world.work ≤ 6 * world.calls.length ∧
    (∀ rest final, (∀ event ∈ rest, event.performs = true) →
      run World.step world rest = some final → rest.length + final.work ≤ world.work) ∧
    ∃ rest final, (∀ event ∈ rest, event.performs = true) ∧
      run World.step world rest = some final ∧ final.outstanding = [] := by
  have paced : world.Paced :=
    run_keeps World.Paced (fun paced stepped => paced.step stepped)
      (World.Paced.start firestore storage) performed
  refine ⟨fun busy => ?_, paced.bounded, fun rest final continues ended => ?_,
    World.exists_drained paced.traced killerTarget⟩
  · rcases World.exists_ready busy with ⟨pending, ready⟩
    exact ⟨pending, _, World.step_perform.mpr ⟨ready, rfl⟩⟩
  · exact World.length_of_performs paced.traced continues ended

theorem calls_come_to_an_end_twoRooms :
    ∃ world, run World.step (World.start ∅ ∅) (twoRooms.take 8) = some world ∧
      world.performed.length + world.work ≤ 6 * world.calls.length := by
  have ends : (run World.step (World.start ∅ ∅) (twoRooms.take 8)).isSome = true := by decide
  rcases Option.isSome_iff_exists.mp ends with ⟨world, performed⟩
  exact ⟨world, performed, (calls_come_to_an_end performed none).2.1⟩

end AssassinGame
